import BleBridge.Proofs.Frame.AnyOrder

/-!
# Late copies

Packets of a message may come again before the next message starts.  The
reassembler holds such copies, and with a full set of them the message comes out
once more.  The packets that the next message shares with the one before are
taken for copies too, so the two may make a full set together: then the message
before comes out in place of the next one.

`Clear` says that this does not happen.  It is a condition on the messages and on
the places of the late copies alone, and it is exact: with it, and only with it,
each message comes out while its packets are pushed (`comesOut_iff_clear`).
-/

namespace BleBridge.Frame.Reassembler

section Packets

variable {r : Reassembler} {payloads older newer : List Bytes} {indices : Finset Nat} {k d : Nat}
  {ks : List Nat} {l : List (Packet × Nat)}

/-! ## Copies of the message delivered last -/

/-- The indices that are held of `n` when a copy under `k` has come.  When these are all, the
message comes out, and none is held. -/
def keep (n : Nat) (held : Finset Nat) (k : Nat) : Finset Nat :=
  if insert k held = Finset.range n then ∅ else insert k held

def keepAll (n : Nat) (held : Finset Nat) (ks : List Nat) : Finset Nat := ks.foldl (keep n) held

theorem keep_ssubset {n : Nat} {held : Finset Nat} (hheld : held ⊂ Finset.range n) (hk : k < n) :
    keep n held k ⊂ Finset.range n := by
  rw [keep]
  split
  · exact Finset.ssubset_of_subset_of_ssubset (Finset.empty_subset held) hheld
  · rename_i hne
    exact (Finset.insert_subset (Finset.mem_range.mpr hk) hheld.subset).ssubset_of_ne hne

/-- A copy is held, or it makes the message come out again. -/
theorem Trails.push_keep (now : Nat) (hsize : payloads.length < UInt16.size)
    (hindices : indices ⊆ Finset.range payloads.length) (hk : k < payloads.length)
    (hage : r.maxAge = none) (h : Trails payloads indices r) :
    (∃ c, ∀ results, answers ((r.push (nth payloads k) now).result :: results) =
        List.replicate c (.ok payloads.flatten) ++ answers results) ∧
      Trails payloads (keep payloads.length indices k) (r.push (nth payloads k) now).next ∧
      (r.push (nth payloads k) now).next.maxAge = none := by
  obtain ⟨hkeeps, hmore, hall⟩ := h.push now hsize hindices hk hage
  rw [keep]
  split
  · rename_i hfull
    obtain ⟨hresult, htrails⟩ := hall hfull
    exact ⟨⟨1, fun results ↦ by rw [hresult]; rfl⟩, htrails, hkeeps.trans hage⟩
  · rename_i hmissing
    obtain ⟨hresult, htrails⟩ := hmore hmissing
    exact ⟨⟨0, fun results ↦ by rw [hresult]; rfl⟩, htrails, hkeeps.trans hage⟩

/-- Copies in any order only repeat the message. -/
theorem Trails.pushes_copies (hsize : payloads.length < UInt16.size)
    (hindices : indices ⊂ Finset.range payloads.length)
    (hl : l.map Prod.fst = ks.map (nth payloads)) (hks : ∀ k ∈ ks, k < payloads.length)
    (hage : r.maxAge = none) (h : Trails payloads indices r) :
    (∃ c, answers (r.pushes l) = List.replicate c (.ok payloads.flatten)) ∧
      keepAll payloads.length indices ks ⊂ Finset.range payloads.length ∧
      Trails payloads (keepAll payloads.length indices ks) (r.pushAll l) ∧
      (r.pushAll l).maxAge = none := by
  induction ks generalizing r indices l with
  | nil =>
      obtain rfl : l = [] := List.map_eq_nil_iff.mp hl
      exact ⟨⟨0, rfl⟩, hindices, h, hage⟩
  | cons k ks ih =>
      obtain ⟨⟨p, now⟩, l, rfl, hp, htail⟩ := List.map_eq_cons_iff.mp hl
      obtain rfl : p = nth payloads k := hp
      have hk : k < payloads.length := hks k List.mem_cons_self
      have hrest : ∀ j ∈ ks, j < payloads.length := fun j hj ↦ hks j (List.mem_cons_of_mem _ hj)
      obtain ⟨⟨c, hc⟩, htrails, hage⟩ := h.push_keep now hsize hindices.subset hk hage
      obtain ⟨⟨c', hc'⟩, hend⟩ := ih (keep_ssubset hindices hk) htail hrest hage htrails
      refine ⟨⟨c + c', ?_⟩, hend⟩
      rw [pushes, hc, hc', List.replicate_add]

/-- Copies are only held while an index is still missing. -/
theorem Trails.pushes_of_lacking (hsize : payloads.length < UInt16.size)
    (hl : l.map Prod.fst = ks.map (nth payloads))
    (hlacks : indices ∪ ks.toFinset ⊂ Finset.range payloads.length)
    (hage : r.maxAge = none) (h : Trails payloads indices r) :
    answers (r.pushes l) = [] ∧ Trails payloads (indices ∪ ks.toFinset) (r.pushAll l) ∧
      (r.pushAll l).maxAge = none := by
  induction ks generalizing r indices l with
  | nil =>
      obtain rfl : l = [] := List.map_eq_nil_iff.mp hl
      rw [List.toFinset_nil, Finset.union_empty]
      exact ⟨rfl, h, hage⟩
  | cons k ks ih =>
      obtain ⟨⟨p, now⟩, l, rfl, hp, htail⟩ := List.map_eq_cons_iff.mp hl
      obtain rfl : p = nth payloads k := hp
      rw [List.toFinset_cons, Finset.union_insert, ← Finset.insert_union] at hlacks ⊢
      have hmissing : insert k indices ⊂ Finset.range payloads.length :=
        Finset.ssubset_of_subset_of_ssubset Finset.subset_union_left hlacks
      obtain ⟨hkeeps, hmore, -⟩ := h.push now hsize
        ((Finset.subset_insert _ _).trans hmissing.subset)
        (Finset.mem_range.mp (hmissing.subset (Finset.mem_insert_self k indices))) hage
      obtain ⟨hresult, htrails⟩ := hmore hmissing.ne
      obtain ⟨hanswers, hrest⟩ := ih htail hlacks (hkeeps.trans hage) htrails
      exact ⟨by rw [pushes, hresult, answers_none, hanswers], hrest⟩

theorem range_eq_append_cons (hk : k < d) :
    List.range d = List.range k ++ k :: List.range' (k + 1) (d - (k + 1)) := by
  rw [← List.range'_succ, List.range_eq_range', List.range_eq_range',
    show d - (k + 1) + 1 = d - k by omega]
  have happend := List.range'_append_1 (s := 0) (m := k) (n := d - k)
  rw [Nat.zero_add, show k + (d - k) = d by omega] at happend
  exact happend.symm

/-- Copies in a row make a full set with the last index that is missing. -/
theorem exists_last_missing {n : Nat} {held : Finset Nat} (hheld : held ⊂ Finset.range n) :
    ∃ k < n, k ∉ held ∧ held ∪ (List.range k).toFinset ⊂ Finset.range n ∧
      insert k (held ∪ (List.range k).toFinset) = Finset.range n := by
  obtain ⟨i, hi, hnot⟩ := Finset.exists_of_ssubset hheld
  let missing := Finset.range n \ held
  have hne : missing.Nonempty := ⟨i, Finset.mem_sdiff.mpr ⟨hi, hnot⟩⟩
  obtain ⟨hrange, hmissing⟩ := Finset.mem_sdiff.mp (missing.max'_mem hne)
  generalize hmax : missing.max' hne = k at hrange hmissing
  have hk := Finset.mem_range.mp hrange
  have hsub : ∀ j ∈ held, j < n := fun j hj ↦ Finset.mem_range.mp (hheld.subset hj)
  have hbehind : ∀ j, k < j → j < n → j ∈ held := by
    intro j hlt hj
    by_contra hj'
    have hle := missing.le_max' j (Finset.mem_sdiff.mpr ⟨Finset.mem_range.mpr hj, hj'⟩)
    omega
  have hbefore : held ∪ (List.range k).toFinset ⊆ Finset.range n := by
    intro j hj
    simp only [Finset.mem_union, List.mem_toFinset, List.mem_range, Finset.mem_range] at hj ⊢
    exact hj.elim (hsub j) fun hlt ↦ hlt.trans hk
  refine ⟨k, hk, hmissing,
    (Finset.ssubset_iff_of_subset hbefore).mpr ⟨k, hrange, by simp [hmissing]⟩, ?_⟩
  refine Finset.Subset.antisymm (Finset.insert_subset hrange hbefore) fun j hj ↦ ?_
  simp only [Finset.mem_insert, Finset.mem_union, List.mem_toFinset, List.mem_range,
    Finset.mem_range] at hj ⊢
  rcases Nat.lt_trichotomy j k with hlt | rfl | hgt
  · exact .inr (.inr hlt)
  · exact .inl rfl
  · exact .inr (.inl (hbehind j hgt hj))

/-- Packets in a row that complete the held copies make the message come out once. -/
theorem Trails.pushes_of_completing (hsize : payloads.length < UInt16.size)
    (hindices : indices ⊂ Finset.range payloads.length) (hd : d ≤ payloads.length)
    (hcompletes : Finset.range payloads.length ⊆ indices ∪ Finset.range d)
    (hl : l.map Prod.fst = (List.range d).map (nth payloads)) (hage : r.maxAge = none)
    (h : Trails payloads indices r) : answers (r.pushes l) = [.ok payloads.flatten] := by
  obtain ⟨k, hk, hmissing, hlacks, hfull⟩ := exists_last_missing hindices
  have hkd : k < d := by
    have hmem := hcompletes (Finset.mem_range.mpr hk)
    simpa [hmissing] using hmem
  rw [range_eq_append_cons hkd, List.map_append, List.map_cons] at hl
  obtain ⟨before, rest, rfl, hbefore, hrest⟩ := List.map_eq_append_iff.mp hl
  obtain ⟨⟨p, now⟩, behind, rfl, hp, hbehind⟩ := List.map_eq_cons_iff.mp hrest
  obtain rfl : p = nth payloads k := hp
  obtain ⟨hnone, htrails, hage⟩ := h.pushes_of_lacking hsize hbefore hlacks hage
  obtain ⟨hkeeps, -, hall⟩ := htrails.push now hsize hlacks.subset hk hage
  obtain ⟨hresult, htrails⟩ := hall hfull
  -- no copy under `k` comes again
  have hlacks' : ∅ ∪ (List.range' (k + 1) (d - (k + 1))).toFinset ⊂
      Finset.range payloads.length := by
    rw [Finset.empty_union]
    refine (Finset.ssubset_iff_of_subset fun j hj ↦ ?_).mpr
      ⟨k, Finset.mem_range.mpr hk, by simp⟩
    simp only [List.mem_toFinset, List.mem_range'_1, Finset.mem_range] at hj ⊢
    omega
  obtain ⟨hnone', -⟩ := htrails.pushes_of_lacking hsize hbehind hlacks' (hkeeps.trans hage)
  rw [pushes_append, answers_append, hnone, pushes, hresult, List.nil_append, answers_some, hnone']

/-! ## The next message -/

/-- The packet under `k` parts a message from the one delivered last: it is no copy, and the
packets before it are kept. -/
structure Parts (payloads : List Bytes) (k : Nat) (r : Reassembler) : Prop where
  buffer : r.buffer = none
  fresh : r.completed = none → k = 0
  differs : ∀ c ∈ r.completed, ¬ c.repeats (nth payloads k)
  kept : ∀ c ∈ r.completed,
    Slots.Fills payloads (Finset.range k) (c.held.filter (precedes c (nth payloads k)))

theorem parts_of_fresh (hbuffer : r.buffer = none) (hcompleted : r.completed = none) :
    Parts payloads 0 r := by
  refine ⟨hbuffer, fun _ ↦ rfl, ?_, ?_⟩ <;>
  · intro c hc
    rw [hcompleted] at hc
    cases hc

/-- A message of another count has no packet in common with the one before. -/
theorem Trails.parts_of_length_ne (hsize : older.length < UInt16.size)
    (hsize' : newer.length < UInt16.size) (hne : older.length ≠ newer.length)
    (h : Trails older indices r) : Parts newer 0 r := by
  obtain ⟨hbuffer, c, hcompleted, htotal, -, -⟩ := h
  have hother : (c.total == (nth newer 0).total) = false := by
    rw [htotal, beq_eq_false_iff_ne, nth, ne_eq, Slots.ofNat_inj hsize hsize']
    exact hne
  refine ⟨hbuffer, fun _ ↦ rfl, ?_, ?_⟩
  · rintro c' hc
    obtain rfl : c = c' := Option.some.inj (hcompleted.symm.trans hc)
    rw [Completed.repeats, hother, Bool.false_and]
    exact Bool.false_ne_true
  · rintro c' hc
    obtain rfl : c = c' := Option.some.inj (hcompleted.symm.trans hc)
    have hnone : c.held.filter (precedes c (nth newer 0)) = [] := by
      rw [List.filter_eq_nil_iff]
      intro slot _
      rw [precedes, hother, Bool.false_and]
      exact Bool.false_ne_true
    rw [hnone]
    exact Slots.fills_nil _

/-- The first packet that differs parts two messages of one count, if those before it are held. -/
theorem Trails.parts_of_getElem_ne (hsize : newer.length < UInt16.size)
    (hlength : older.length = newer.length) (hk : k < newer.length)
    (hsame : ∀ j < k, older[j]? = newer[j]?) (hdiffers : older[k]? ≠ newer[k]?)
    (hheld : Finset.range k ⊆ indices) (h : Trails older indices r) : Parts newer k r := by
  obtain ⟨hbuffer, c, hcompleted, htotal, hpayloads, hfills⟩ := h
  refine ⟨hbuffer, fun hnone ↦ ?_, ?_, ?_⟩
  · rw [hcompleted] at hnone
    cases hnone
  · rintro c' hc
    obtain rfl : c = c' := Option.some.inj (hcompleted.symm.trans hc)
    have hk' : k < older.length := hlength ▸ hk
    have hslot : c.payloads.get? (nth newer k).index = some older[k] := by
      rw [nth, hpayloads.get?_ofNat hk' (hlength ▸ hsize), if_pos (Finset.mem_range.mpr hk')]
    have hne : older[k] ≠ newer[k] := by
      simpa [List.getElem?_eq_getElem hk, List.getElem?_eq_getElem hk'] using hdiffers
    rw [Completed.repeats, hslot, payload_nth hk]
    simp [hne]
  · rintro c' hc
    obtain rfl : c = c' := Option.some.inj (hcompleted.symm.trans hc)
    have hprecedes : ∀ slot : UInt16 × Bytes,
        precedes c (nth newer k) slot = decide (slot.1.toNat < k) := by
      intro slot
      have hindex : (nth newer k).index.toNat = k := UInt16.toNat_ofNat_of_lt' (hk.trans hsize)
      have htotals : c.total = (nth newer k).total := by rw [htotal, hlength, nth]
      rw [precedes, htotals, beq_self_eq_true, Bool.true_and]
      exact decide_eq_decide.mpr (by rw [UInt16.lt_iff_toNat_lt, hindex])
    have hfilter := hfills.filter (precedes c (nth newer k)) (· < k) hprecedes
    have hrange : indices.filter (· < k) = Finset.range k := by
      ext j
      rw [Finset.mem_filter, Finset.mem_range]
      exact ⟨And.right, fun hj ↦ ⟨hheld (Finset.mem_range.mpr hj), hj⟩⟩
    rw [hrange] at hfilter
    exact hfilter.congr fun j hj ↦ hsame j (Finset.mem_range.mp hj)

theorem Parts.push (now : Nat) (hsize : payloads.length < UInt16.size)
    (hk : k < payloads.length) (hage : r.maxAge = none) (h : Parts payloads k r) :
    Gains payloads (Finset.range k) Opens r k (r.push (nth payloads k) now) := by
  have hindices : Finset.range k ⊆ Finset.range payloads.length := by
    intro j hj
    rw [Finset.mem_range] at hj ⊢
    omega
  have htake : r.push (nth payloads k) now = r.openFor (nth payloads k) now := by
    rw [push_of_maxAge_none hage, take, if_neg (total_nth_ne_zero hsize hk), h.buffer]
    dsimp only
    cases hcompleted : r.completed with
    | none => rfl
    | some c => exact if_neg (h.differs c hcompleted)
  rw [htake, openFor]
  cases hcompleted : r.completed with
  | none =>
      obtain rfl := h.fresh hcompleted
      exact gains_accept hsize hindices hk rfl (Slots.fills_nil _)
  | some c =>
      let dropped := c.held.filter (!precedes c (nth payloads k) ·)
      let cleared : Reassembler :=
        { r with completed := none, discarded := r.discarded + dropped.length }
      obtain ⟨hkeeps, hmore, hall⟩ : Gains payloads (Finset.range k) Opens cleared k
          (cleared.accept ⟨(nth payloads k).total, c.held.filter (precedes c (nth payloads k)), now⟩
            (nth payloads k) now) :=
        gains_accept hsize hindices hk rfl (h.kept c hcompleted)
      exact ⟨hkeeps, hmore, hall⟩

/-- From the packet that parts it on, a message comes out once. -/
theorem Parts.pushes (hsize : payloads.length < UInt16.size) (hk : k < payloads.length)
    (hl : l.map Prod.fst =
      (k :: List.range' (k + 1) (payloads.length - (k + 1))).map (nth payloads))
    (hage : r.maxAge = none) (h : Parts payloads k r) :
    answers (r.pushes l) = [.ok payloads.flatten] ∧ Trails payloads ∅ (r.pushAll l) ∧
      (r.pushAll l).maxAge = none := by
  obtain ⟨⟨p, now⟩, rest, rfl, hp, hrest⟩ := List.map_eq_cons_iff.mp hl
  obtain rfl : p = nth payloads k := hp
  have hnew : ∀ j ∈ k :: List.range' (k + 1) (payloads.length - (k + 1)),
      j ∉ Finset.range k := by
    intro j hj
    rw [List.mem_cons, List.mem_range'_1] at hj
    rw [Finset.mem_range]
    omega
  have hall : Finset.range k ∪ (k :: List.range' (k + 1) (payloads.length - (k + 1))).toFinset =
      Finset.range payloads.length := by
    ext j
    simp only [Finset.mem_union, Finset.mem_range, List.mem_toFinset, List.mem_cons,
      List.mem_range'_1]
    omega
  have hnodup : (k :: List.range' (k + 1) (payloads.length - (k + 1))).Nodup := by
    rw [← List.range'_succ]
    exact List.nodup_range'
  obtain ⟨hpushes, hend⟩ := (h.push now hsize hk hage).pushes hsize hrest hnodup hnew hall hage
  refine ⟨?_, hend⟩
  rw [Reassembler.pushes, hpushes, answers_append, answers_replicate_none]
  rfl

/-! ## Messages one after the other -/

theorem exists_first_difference (hlength : older.length = newer.length) (hne : older ≠ newer) :
    ∃ d < newer.length, older[d]? ≠ newer[d]? ∧ ∀ j < d, older[j]? = newer[j]? := by
  have hdiffers : ∃ d : Nat, older[d]? ≠ newer[d]? := by
    by_contra hall
    exact hne (List.ext_getElem? fun i ↦ not_not.mp (not_exists.mp hall i))
  refine ⟨Nat.find hdiffers, ?_, Nat.find_spec hdiffers, fun j hj ↦ ?_⟩
  · by_contra hge
    have hspec := Nat.find_spec hdiffers
    rw [List.getElem?_eq_none (by omega), List.getElem?_eq_none (by omega)] at hspec
    exact hspec rfl
  · exact not_not.mp (Nat.find_min hdiffers hj)

theorem map_nth_congr (hlength : older.length = newer.length)
    (hsame : ∀ j < d, older[j]? = newer[j]?) :
    (List.range d).map (nth newer) = (List.range d).map (nth older) :=
  List.map_congr_left fun j hj ↦ by rw [nth, nth, hlength, hsame j (List.mem_range.mp hj)]

section Next

variable (hsize : older.length < UInt16.size) (hsize' : newer.length < UInt16.size)
  (hl : l.map Prod.fst = (List.range newer.length).map (nth newer)) (hage : r.maxAge = none)

include hsize hsize' hl hage

/-- With an index missing behind the first difference, the next message comes out. -/
theorem Trails.pushes_of_apart (hne : older ≠ newer) (hpositive : 0 < newer.length)
    (hindices : indices ⊂ Finset.range older.length)
    (hapart : older.length = newer.length →
      ∃ i < older.length, i ∉ indices ∧ ∃ j ≤ i, older[j]? ≠ newer[j]?)
    (h : Trails older indices r) :
    answers (r.pushes l) = [.ok newer.flatten] ∧ Trails newer ∅ (r.pushAll l) ∧
      (r.pushAll l).maxAge = none := by
  by_cases hlength : older.length = newer.length
  · obtain ⟨d, hd, hdiffers, hsame⟩ := exists_first_difference hlength hne
    obtain ⟨i, hi, hmissing, j, hji, hj⟩ := hapart hlength
    have hdj : d ≤ j := by
      by_contra hlt
      exact hj (hsame j (Nat.lt_of_not_le hlt))
    rw [range_eq_append_cons hd, List.map_append, map_nth_congr hlength hsame] at hl
    obtain ⟨before, behind, rfl, hbefore, hbehind⟩ := List.map_eq_append_iff.mp hl
    have hlacks : indices ∪ (List.range d).toFinset ⊂ Finset.range older.length := by
      refine (Finset.ssubset_iff_of_subset ?_).mpr ⟨i, Finset.mem_range.mpr hi, ?_⟩
      · refine Finset.union_subset hindices.subset fun j hj ↦ ?_
        rw [List.mem_toFinset, List.mem_range] at hj
        rw [Finset.mem_range]
        omega
      · rw [Finset.mem_union, List.mem_toFinset, List.mem_range]
        rintro (hmem | hlt)
        · exact hmissing hmem
        · omega
    obtain ⟨hnone, htrails, hage⟩ := h.pushes_of_lacking hsize hbefore hlacks hage
    have hheld : Finset.range d ⊆ indices ∪ (List.range d).toFinset := fun j hj ↦ by
      simpa using Or.inr (Finset.mem_range.mp hj)
    obtain ⟨hanswers, hend⟩ := (htrails.parts_of_getElem_ne hsize' hlength hd hsame hdiffers
      hheld).pushes hsize' hd hbehind hage
    rw [pushes_append, answers_append, hnone, hanswers, pushAll_append]
    exact ⟨rfl, hend⟩
  · rw [range_eq_append_cons hpositive] at hl
    exact (h.parts_of_length_ne hsize hsize' hlength).pushes hsize' hpositive hl hage

omit hsize' in
/-- With all indices held from the first difference on, the message before comes out first. -/
theorem Trails.pushes_of_not_apart (hne : older ≠ newer)
    (hindices : indices ⊂ Finset.range older.length) (hlength : older.length = newer.length)
    (hheld : ∀ i < older.length, i ∉ indices → ∀ j ≤ i, older[j]? = newer[j]?)
    (h : Trails older indices r) :
    ∃ later, answers (r.pushes l) = .ok older.flatten :: later := by
  obtain ⟨d, hd, hdiffers, hsame⟩ := exists_first_difference hlength hne
  rw [range_eq_append_cons hd, List.map_append, map_nth_congr hlength hsame] at hl
  obtain ⟨before, behind, rfl, hbefore, hbehind⟩ := List.map_eq_append_iff.mp hl
  have hcompletes : Finset.range older.length ⊆ indices ∪ Finset.range d := by
    intro i hi
    rw [Finset.mem_union, Finset.mem_range]
    by_contra hnot
    obtain ⟨hmissing, hge⟩ := not_or.mp hnot
    exact hdiffers (hheld i (Finset.mem_range.mp hi) hmissing d (Nat.le_of_not_lt hge))
  have hagain := h.pushes_of_completing hsize hindices (hlength ▸ hd.le) hcompletes hbefore hage
  exact ⟨_, by rw [pushes_append, answers_append, hagain, List.singleton_append]⟩

end Next

end Packets

/-! ## Rounds -/

variable {f : Layout}

/-- A message that is sent as packets in order, and the copies of them that come before the next
message starts, each packet at its time. -/
structure Round (f : Layout) where
  message : Bytes
  sent : List (Packet × Nat)
  late : List (Packet × Nat)
  nonempty : message ≠ []
  split : f.split message = .ok (sent.map Prod.fst)
  copies : late.map Prod.fst ⊆ sent.map Prod.fst

namespace Round

def payloads (round : Round f) : List Bytes := f.payloads round.message

/-- The indices of the late copies. -/
def indices (round : Round f) : List Nat := round.late.map (·.1.index.toNat)

def pushed (round : Round f) : List (Packet × Nat) := round.sent ++ round.late

variable (round : Round f)

theorem length_payloads_lt : round.payloads.length < UInt16.size :=
  (Layout.eq_map_nth_of_split round.split).1

theorem length_payloads_pos : 0 < round.payloads.length :=
  List.length_pos_iff.mpr (f.payloads_ne_nil round.nonempty)

@[simp] theorem flatten_payloads : round.payloads.flatten = round.message :=
  f.flatten_payloads round.message

theorem sent_eq : round.sent.map Prod.fst =
    (List.range round.payloads.length).map (nth round.payloads) :=
  (Layout.eq_map_nth_of_split round.split).2

theorem late_eq : round.late.map Prod.fst = round.indices.map (nth round.payloads) ∧
    ∀ k ∈ round.indices, k < round.payloads.length := by
  have hcopy : ∀ timed ∈ round.late, timed.1.index.toNat < round.payloads.length ∧
      timed.1 = nth round.payloads timed.1.index.toNat := by
    intro timed htimed
    have hmem := round.copies (List.mem_map_of_mem htimed)
    rw [round.sent_eq] at hmem
    obtain ⟨k, hk, heq⟩ := List.mem_map.mp hmem
    have hlt := List.mem_range.mp hk
    have hindex : timed.1.index.toNat = k := by
      rw [← heq, nth, UInt16.toNat_ofNat_of_lt' (lt_trans hlt round.length_payloads_lt)]
    rw [hindex]
    exact ⟨hlt, heq.symm⟩
  refine ⟨?_, fun k hk ↦ ?_⟩
  · rw [indices, List.map_map]
    exact List.map_congr_left fun timed htimed ↦ (hcopy timed htimed).2
  · obtain ⟨timed, htimed, rfl⟩ := List.mem_map.mp hk
    exact (hcopy timed htimed).1

end Round

/-- Whether `b` can be told from the message `a` before it: if they are of one count then there is
an index under which no copy of `a` is held, at a place where they differ or behind it. -/
def Apart (f : Layout) (a : Bytes) (held : Finset Nat) (b : Bytes) : Prop :=
  a ≠ b → (f.payloads a).length = (f.payloads b).length →
    ∃ i < (f.payloads a).length, i ∉ held ∧ ∃ j ≤ i, (f.payloads a)[j]? ≠ (f.payloads b)[j]?

/-- The indices held when the packets of `b` have come, after a message and copies of it. -/
def heldAfter (f : Layout) (last : Option (Bytes × Finset Nat)) (b : Bytes) : Finset Nat :=
  match last with
  | none => ∅
  | some (a, held) =>
      if a = b then keepAll (f.payloads a).length held (List.range (f.payloads a).length) else ∅

/-- Each message can be told from the one before it, of which copies are held. -/
def Clear (f : Layout) : Option (Bytes × Finset Nat) → List (Round f) → Prop
  | _, [] => True
  | last, round :: rounds =>
      (∀ before ∈ last, Apart f before.1 before.2 round.message) ∧
        Clear f (some (round.message,
          keepAll round.payloads.length (heldAfter f last round.message) round.indices)) rounds

/-- Each message comes out once while its packets are pushed, and the late copies only make it
come out again. -/
def ComesOut : Reassembler → List (Round f) → Prop
  | _, [] => True
  | r, round :: rounds =>
      answers (r.pushes round.sent) = [.ok round.message] ∧
        (∃ c, answers ((r.pushAll round.sent).pushes round.late) =
          List.replicate c (.ok round.message)) ∧
        ComesOut (r.pushAll round.pushed) rounds

/-- Each of the messages, in order and at least once, and nothing else. -/
def EachInOrder : List Bytes → List (Except Fault Bytes) → Prop
  | [], delivered => delivered = []
  | message :: messages, delivered =>
      ∃ c rest, delivered = List.replicate (c + 1) (.ok message) ++ rest ∧
        EachInOrder messages rest

/-- Between two rounds no message is open, and copies of the last one are held. -/
def Rests (f : Layout) (last : Option (Bytes × Finset Nat)) (r : Reassembler) : Prop :=
  match last with
  | none => r.buffer = none ∧ r.completed = none
  | some (a, held) =>
      (f.payloads a).length < UInt16.size ∧ held ⊂ Finset.range (f.payloads a).length ∧
        Trails (f.payloads a) held r

variable {r : Reassembler} {last : Option (Bytes × Finset Nat)}

/-- The packets of a message that can be told from the one before make it come out. -/
theorem Rests.sent (round : Round f) (hage : r.maxAge = none)
    (hapart : ∀ before ∈ last, Apart f before.1 before.2 round.message) (h : Rests f last r) :
    answers (r.pushes round.sent) = [.ok round.message] ∧
      Rests f (some (round.message, heldAfter f last round.message)) (r.pushAll round.sent) ∧
      (r.pushAll round.sent).maxAge = none := by
  have hsize := round.length_payloads_lt
  have hnothing : ∅ ⊂ Finset.range round.payloads.length :=
    Finset.empty_ssubset.mpr (Finset.nonempty_range_iff.mpr round.length_payloads_pos.ne')
  have hsent := round.sent_eq
  cases last with
  | none =>
      rw [range_eq_append_cons round.length_payloads_pos] at hsent
      obtain ⟨hanswers, htrails, hage⟩ := (parts_of_fresh h.1 h.2).pushes hsize
        round.length_payloads_pos hsent hage
      rw [round.flatten_payloads] at hanswers
      exact ⟨hanswers, ⟨hsize, hnothing, htrails⟩, hage⟩
  | some before =>
      obtain ⟨a, held⟩ := before
      obtain ⟨hsize', hheld, htrails⟩ := h
      by_cases heq : a = round.message
      · subst heq
        have hcompletes : Finset.range round.payloads.length ⊆
            held ∪ Finset.range round.payloads.length := Finset.subset_union_right
        have hanswers := htrails.pushes_of_completing hsize' hheld le_rfl hcompletes hsent hage
        obtain ⟨-, hkept, htrails, hage⟩ := htrails.pushes_copies hsize' hheld hsent
          (fun k ↦ List.mem_range.mp) hage
        rw [f.flatten_payloads] at hanswers
        rw [heldAfter, if_pos rfl]
        exact ⟨hanswers, ⟨hsize', hkept, htrails⟩, hage⟩
      · have hne : f.payloads a ≠ round.payloads := fun hsame ↦ heq (by
          rw [← f.flatten_payloads a, hsame, round.flatten_payloads])
        obtain ⟨hanswers, htrails, hage⟩ := htrails.pushes_of_apart hsize' hsize hsent hage hne
          round.length_payloads_pos hheld (hapart _ rfl heq)
        rw [round.flatten_payloads] at hanswers
        rw [heldAfter, if_neg heq]
        exact ⟨hanswers, ⟨hsize, hnothing, htrails⟩, hage⟩

/-- A message whose packets make it come out can be told from the one before. -/
theorem Rests.apart_of_sent (round : Round f) (hage : r.maxAge = none)
    (hsent : answers (r.pushes round.sent) = [.ok round.message]) (h : Rests f last r) :
    ∀ before ∈ last, Apart f before.1 before.2 round.message := by
  rintro ⟨a, held⟩ rfl hne hlength
  obtain ⟨hsize, hheld, htrails⟩ := h
  by_contra hnot
  have hsame : ∀ i < (f.payloads a).length, i ∉ held → ∀ j ≤ i,
      (f.payloads a)[j]? = round.payloads[j]? := by
    intro i hi hmissing j hj
    by_contra hdiffers
    exact hnot ⟨i, hi, hmissing, j, hj, hdiffers⟩
  have hne' : f.payloads a ≠ round.payloads := fun hsame ↦ hne (by
    rw [← f.flatten_payloads a, hsame, round.flatten_payloads])
  obtain ⟨later, hlater⟩ := htrails.pushes_of_not_apart hsize round.sent_eq hage hne' hheld
    hlength hsame
  rw [hsent, f.flatten_payloads] at hlater
  cases hlater
  exact hne rfl

/-- Late copies make the message of their round come out again, or are held. -/
theorem Rests.late (round : Round f) {held : Finset Nat} (hage : r.maxAge = none)
    (h : Rests f (some (round.message, held)) r) :
    (∃ c, answers (r.pushes round.late) = List.replicate c (.ok round.message)) ∧
      Rests f (some (round.message, keepAll round.payloads.length held round.indices))
        (r.pushAll round.late) ∧
      (r.pushAll round.late).maxAge = none := by
  obtain ⟨hsize, hheld, htrails⟩ := h
  obtain ⟨hlate, hindices⟩ := round.late_eq
  obtain ⟨hanswers, hkept, htrails, hage⟩ :=
    htrails.pushes_copies hsize hheld hlate hindices hage
  rw [f.flatten_payloads] at hanswers
  exact ⟨hanswers, ⟨hsize, hkept, htrails⟩, hage⟩

theorem comesOut_iff_clear_of_rests (rounds : List (Round f)) (hage : r.maxAge = none)
    (h : Rests f last r) : ComesOut r rounds ↔ Clear f last rounds := by
  induction rounds generalizing r last with
  | nil => exact Iff.rfl
  | cons round rounds ih =>
      -- what follows the first message hangs on its coming out
      have hrest : (∀ before ∈ last, Apart f before.1 before.2 round.message) →
          ((∃ c, answers ((r.pushAll round.sent).pushes round.late) =
              List.replicate c (.ok round.message)) ∧
            (ComesOut (r.pushAll round.pushed) rounds ↔ Clear f (some (round.message,
              keepAll round.payloads.length (heldAfter f last round.message) round.indices))
              rounds)) := by
        intro hapart
        obtain ⟨-, hrests, hage⟩ := h.sent round hage hapart
        obtain ⟨hanswers, hrests, hage⟩ := hrests.late round hage
        rw [← pushAll_append] at hrests hage
        exact ⟨hanswers, ih hage hrests⟩
      constructor
      · rintro ⟨hsent, -, hcomes⟩
        have hapart := h.apart_of_sent round hage hsent
        exact ⟨hapart, (hrest hapart).2.mp hcomes⟩
      · rintro ⟨hapart, hclear⟩
        obtain ⟨hlate, hiff⟩ := hrest hapart
        exact ⟨(h.sent round hage hapart).1, hlate, hiff.mpr hclear⟩

/-- A run in which the messages come out with their packets delivers them in order. -/
theorem ComesOut.eachInOrder {rounds : List (Round f)} (h : ComesOut r rounds) :
    EachInOrder (rounds.map Round.message)
      (answers (r.pushes (rounds.flatMap Round.pushed))) := by
  induction rounds generalizing r with
  | nil => rfl
  | cons round rounds ih =>
      obtain ⟨hsent, ⟨c, hlate⟩, hcomes⟩ := h
      refine ⟨c, _, ?_, ih hcomes⟩
      rw [List.flatMap_cons, pushes_append, answers_append, Round.pushed, pushes_append,
        answers_append, hsent, hlate]
      rfl

/-- Messages come out as their packets are pushed if and only if each can be told from the message
before it and the late copies that are held of that; and then they are delivered in order, late
copies only adding deliveries of the message they repeat. -/
theorem comesOut_iff_clear (f : Layout) (rounds : List (Round f)) :
    (ComesOut (Reassembler.new none) rounds ↔ Clear f none rounds) ∧
      (Clear f none rounds → EachInOrder (rounds.map Round.message)
        (answers ((Reassembler.new none).pushes (rounds.flatMap Round.pushed)))) := by
  have hrests : Rests f none (Reassembler.new none) := ⟨rfl, rfl⟩
  have hiff := comesOut_iff_clear_of_rests rounds rfl hrests
  exact ⟨hiff, fun hclear ↦ (hiff.mpr hclear).eachInOrder⟩

/-- A late copy of the first packet leaves the next message alone, which starts with the same
packets. -/
theorem comesOut_of_late_first : ∃ rounds : List (Round
      ⟨31, Text.bytes "AT+QBLEGATTSNTFY=0,fff2,", [0x0D, 0x0A], by decide, by decide⟩),
    rounds.map Round.message = [Text.bytes "ABC", Text.bytes "ABD"] ∧
      (rounds.flatMap Round.pushed).map Prod.fst =
        [⟨0, 3, Text.bytes "A"⟩, ⟨1, 3, Text.bytes "B"⟩, ⟨2, 3, Text.bytes "C"⟩,
          ⟨0, 3, Text.bytes "A"⟩,
          ⟨0, 3, Text.bytes "A"⟩, ⟨1, 3, Text.bytes "B"⟩, ⟨2, 3, Text.bytes "D"⟩] ∧
      ComesOut (Reassembler.new none) rounds ∧
      EachInOrder (rounds.map Round.message)
        (answers ((Reassembler.new none).pushes (rounds.flatMap Round.pushed))) := by
  let f : Layout :=
    ⟨31, Text.bytes "AT+QBLEGATTSNTFY=0,fff2,", [0x0D, 0x0A], by decide, by decide⟩
  let first : Round f :=
    { message := Text.bytes "ABC"
      sent := [(⟨0, 3, Text.bytes "A"⟩, 0), (⟨1, 3, Text.bytes "B"⟩, 1),
        (⟨2, 3, Text.bytes "C"⟩, 2)]
      late := [(⟨0, 3, Text.bytes "A"⟩, 3)]
      nonempty := by decide
      split := by decide +kernel
      copies := by decide +kernel }
  let second : Round f :=
    { message := Text.bytes "ABD"
      sent := [(⟨0, 3, Text.bytes "A"⟩, 4), (⟨1, 3, Text.bytes "B"⟩, 5),
        (⟨2, 3, Text.bytes "D"⟩, 6)]
      late := []
      nonempty := by decide
      split := by decide +kernel
      copies := by decide +kernel }
  have hclear : Clear f none [first, second] := by
    refine ⟨nofun, ?_, trivial⟩
    rintro before ⟨⟩
    exact fun _ _ ↦ ⟨2, by decide +kernel, by decide +kernel, 2, le_rfl, by decide +kernel⟩
  obtain ⟨hiff, hdelivered⟩ := comesOut_iff_clear f [first, second]
  exact ⟨[first, second], rfl, rfl, hiff.mpr hclear, hdelivered hclear⟩

/-- A late copy of the last packet and the packets that the next message shares with the one before
make that come out again: the next message is lost, and its last packet ends up in the message
behind it. -/
theorem not_eachInOrder_of_late_last : ∃ rounds : List (Round
      ⟨31, Text.bytes "AT+QBLEGATTSNTFY=0,fff2,", [0x0D, 0x0A], by decide, by decide⟩),
    rounds.map Round.message = [Text.bytes "ABC", Text.bytes "ABD", Text.bytes "XYZ"] ∧
      (rounds.flatMap Round.pushed).map Prod.fst =
        [⟨0, 3, Text.bytes "A"⟩, ⟨1, 3, Text.bytes "B"⟩, ⟨2, 3, Text.bytes "C"⟩,
          ⟨2, 3, Text.bytes "C"⟩,
          ⟨0, 3, Text.bytes "A"⟩, ⟨1, 3, Text.bytes "B"⟩, ⟨2, 3, Text.bytes "D"⟩,
          ⟨0, 3, Text.bytes "X"⟩, ⟨1, 3, Text.bytes "Y"⟩, ⟨2, 3, Text.bytes "Z"⟩] ∧
      answers ((Reassembler.new none).pushes (rounds.flatMap Round.pushed)) =
        [.ok (Text.bytes "ABC"), .ok (Text.bytes "ABC"), .ok (Text.bytes "XYD")] ∧
      ¬ EachInOrder (rounds.map Round.message)
        (answers ((Reassembler.new none).pushes (rounds.flatMap Round.pushed))) := by
  let f : Layout :=
    ⟨31, Text.bytes "AT+QBLEGATTSNTFY=0,fff2,", [0x0D, 0x0A], by decide, by decide⟩
  let first : Round f :=
    { message := Text.bytes "ABC"
      sent := [(⟨0, 3, Text.bytes "A"⟩, 0), (⟨1, 3, Text.bytes "B"⟩, 1),
        (⟨2, 3, Text.bytes "C"⟩, 2)]
      late := [(⟨2, 3, Text.bytes "C"⟩, 3)]
      nonempty := by decide
      split := by decide +kernel
      copies := by decide +kernel }
  let second : Round f :=
    { message := Text.bytes "ABD"
      sent := [(⟨0, 3, Text.bytes "A"⟩, 4), (⟨1, 3, Text.bytes "B"⟩, 5),
        (⟨2, 3, Text.bytes "D"⟩, 6)]
      late := []
      nonempty := by decide
      split := by decide +kernel
      copies := by decide +kernel }
  let third : Round f :=
    { message := Text.bytes "XYZ"
      sent := [(⟨0, 3, Text.bytes "X"⟩, 7), (⟨1, 3, Text.bytes "Y"⟩, 8),
        (⟨2, 3, Text.bytes "Z"⟩, 9)]
      late := []
      nonempty := by decide
      split := by decide +kernel
      copies := by decide +kernel }
  have hanswers : answers ((Reassembler.new none).pushes
      ([first, second, third].flatMap Round.pushed)) =
        [.ok (Text.bytes "ABC"), .ok (Text.bytes "ABC"), .ok (Text.bytes "XYD")] := by
    decide +kernel
  refine ⟨[first, second, third], rfl, rfl, hanswers, ?_⟩
  rw [hanswers]
  rintro ⟨c, rest, hfirst, c', rest', hsecond, -⟩
  have hmem : Except.ok (Text.bytes "ABD") ∈ rest := by
    rw [hsecond]
    exact List.mem_append_left _ (List.mem_replicate.mpr ⟨Nat.succ_ne_zero c', rfl⟩)
  have hmem' : (.ok (Text.bytes "ABD") : Except Fault Bytes) ∈
      [.ok (Text.bytes "ABC"), .ok (Text.bytes "ABC"), .ok (Text.bytes "XYD")] := by
    rw [hfirst]
    exact List.mem_append_right _ hmem
  exact absurd hmem' (by decide +kernel)

end BleBridge.Frame.Reassembler
