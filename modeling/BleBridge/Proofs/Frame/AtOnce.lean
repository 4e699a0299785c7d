import BleBridge.Frame.Collect
import BleBridge.Proofs.Frame.Coherence

/-!
# Packet by packet and all at once

Packets of one total, under any indices and in any order, go into a fresh
reassembler one by one, or into `collect` all at once.  The reassembler counts
the indices that it has, and `collect` looks for one that is missing; both keep
the first payload under each index.  So the packets that came so far tell what
the reassembler holds (`Holds`), and it delivers with the packet that brings the
last index exactly what `collect` makes of them.
-/

namespace BleBridge.Frame

/-! ## First payloads -/

/-- Each index of a message has come. -/
def Seen (total : UInt16) (packets : List Packet) : Prop :=
  ∀ i < total, ∃ p ∈ packets, p.index = i

/-- A packet is one of a message of `total` packets. -/
def Packet.Fits (total : UInt16) (p : Packet) : Prop := p.total = total ∧ p.index < total

/-- The packets whose index is one of their message. -/
def inRange (packets : List Packet) : List Packet := packets.filter fun p ↦ p.index < p.total

section First

variable {packets : List Packet} {p : Packet} {total i : UInt16}

theorem isSome_firstPayload_iff :
    (firstPayload packets i).isSome ↔ ∃ p ∈ packets, p.index = i := by
  simp [firstPayload]

theorem firstPayload_eq_none_iff :
    firstPayload packets i = none ↔ ∀ p ∈ packets, p.index ≠ i := by
  simp [firstPayload]

theorem firstPayload_concat (packets : List Packet) (p : Packet) (i : UInt16) :
    firstPayload (packets ++ [p]) i =
      (firstPayload packets i).or (if p.index = i then some p.payload else none) := by
  rw [firstPayload, firstPayload, List.find?_append, List.find?_singleton, Option.map_or]
  by_cases hindex : p.index = i
  · simp [hindex]
  · simp [hindex]

theorem inRange_concat_of_lt (hlt : p.index < p.total) :
    inRange (packets ++ [p]) = inRange packets ++ [p] := by
  simp [inRange, hlt]

theorem inRange_concat_of_not_lt (hle : ¬ p.index < p.total) :
    inRange (packets ++ [p]) = inRange packets := by
  simpa [inRange] using hle

/-- Packets beyond their total do not come between the payloads. -/
theorem firstPayload_inRange (htotal : ∀ p ∈ packets, p.total = total) (hi : i < total) :
    firstPayload (inRange packets) i = firstPayload packets i := by
  induction packets using List.reverseRecOn with
  | nil => rfl
  | append_singleton packets p ih =>
      have hrest := ih fun q hq ↦ htotal q (List.mem_append_left _ hq)
      rw [firstPayload_concat]
      by_cases hlt : p.index < p.total
      · rw [inRange_concat_of_lt hlt, firstPayload_concat, hrest]
      · have hindex : p.index ≠ i := by
          rintro rfl
          exact hlt (htotal p (by simp) ▸ hi)
        rw [inRange_concat_of_not_lt hlt, hrest, if_neg hindex, Option.or_none]

theorem Seen.mono {more : List Packet} (h : Seen total packets) (hsub : packets ⊆ more) :
    Seen total more := by
  intro i hi
  obtain ⟨p, hp, hindex⟩ := h i hi
  exact ⟨p, hsub hp, hindex⟩

theorem seen_iff (htotal : ∀ p ∈ packets, p.total = total) :
    Seen total packets ↔ ∀ i < total, (firstPayload (inRange packets) i).isSome := by
  refine forall₂_congr fun i hi ↦ ?_
  rw [firstPayload_inRange htotal hi, isSome_firstPayload_iff]

end First

/-! ## All packets at once -/

section Collect

variable {packets : List Packet} {total : UInt16} {slot : UInt16 → Option Bytes}

theorem misfit_eq_none_iff {p : Packet} : misfit total p = none ↔ p.Fits total := by
  rw [misfit, Packet.Fits]
  by_cases htotal : p.total = total
  · simp [htotal]
  · simp [htotal]

/-- Packets that fit together are refused for a missing index only. -/
theorem collect_of_fits (hsome : packets ≠ []) (hfits : ∀ p ∈ packets, p.Fits total) :
    collect packets = Slots.assemble total (firstPayload packets) := by
  obtain ⟨first, rest, rfl⟩ := List.exists_cons_of_ne_nil hsome
  obtain rfl : first.total = total := (hfits first List.mem_cons_self).1
  have hnone : (first :: rest).findSome? (misfit first.total) = none :=
    List.findSome?_eq_none_iff.mpr fun p hp ↦ misfit_eq_none_iff.mpr (hfits p hp)
  rw [collect, hnone]

theorem collect_inRange (htotal : ∀ p ∈ packets, p.total = total) (hsome : inRange packets ≠ []) :
    collect (inRange packets) = Slots.assemble total (firstPayload (inRange packets)) := by
  apply collect_of_fits hsome
  intro p hp
  obtain ⟨hp, hlt⟩ := List.mem_filter.mp hp
  exact ⟨htotal p hp, htotal p hp ▸ of_decide_eq_true hlt⟩

/-- The first index without a payload is the one that is told. -/
theorem assemble_go_eq_error {n i k : Nat} (hk : k < n)
    (hbefore : ∀ j < k, (slot (UInt16.ofNat (i + j))).isSome)
    (hnone : slot (UInt16.ofNat (i + k)) = none) :
    Slots.assemble.go total slot n i = .error (.missingPacket (UInt16.ofNat (i + k)) total) := by
  induction n generalizing i k with
  | zero => omega
  | succ n ih =>
      rw [Slots.assemble.go]
      cases k with
      | zero =>
          rw [Nat.add_zero] at hnone
          rw [hnone]
          rfl
      | succ k =>
          obtain ⟨payload, hpayload⟩ := Option.isSome_iff_exists.mp (hbefore 0 (Nat.succ_pos k))
          rw [Nat.add_zero] at hpayload
          have hshift : ∀ j, i + (j + 1) = i + 1 + j := fun j ↦ by omega
          have hrest : Slots.assemble.go total slot n (i + 1) =
              .error (.missingPacket (UInt16.ofNat (i + (k + 1))) total) := by
            rw [hshift k] at hnone ⊢
            refine ih (by omega) (fun j hj ↦ ?_) hnone
            rw [← hshift]
            exact hbefore (j + 1) (by omega)
          rw [hpayload, hrest]
          rfl

theorem assemble_of_least {i : UInt16} (hi : i < total) (hnone : slot i = none)
    (hleast : ∀ j < i, (slot j).isSome) :
    Slots.assemble total slot = .error (.missingPacket i total) := by
  have hbefore : ∀ k < i.toNat, (slot (UInt16.ofNat (0 + k))).isSome := by
    intro k hk
    rw [Nat.zero_add]
    exact hleast _ (Slots.ofNat_lt hk)
  have hgo : Slots.assemble.go total slot total.toNat 0 =
      .error (.missingPacket (UInt16.ofNat (0 + i.toNat)) total) :=
    assemble_go_eq_error (UInt16.lt_iff_toNat_lt.mp hi) hbefore (by simpa using hnone)
  rw [Nat.zero_add, UInt16.ofNat_toNat] at hgo
  exact hgo

theorem assemble_eq_error (hnot : ¬ ∀ i < total, (slot i).isSome) :
    ∃ i < total, slot i = none ∧ (∀ j < i, (slot j).isSome) ∧
      Slots.assemble total slot = .error (.missingPacket i total) := by
  have hexists : ∃ k, k < total.toNat ∧ slot (UInt16.ofNat k) = none := by
    obtain ⟨i, hi⟩ := not_forall.mp hnot
    obtain ⟨hlt, hnone⟩ := Classical.not_imp.mp hi
    refine ⟨i.toNat, UInt16.lt_iff_toNat_lt.mp hlt, ?_⟩
    rw [UInt16.ofNat_toNat]
    exact Option.not_isSome_iff_eq_none.mp hnone
  classical
  obtain ⟨hk, hnone⟩ := Nat.find_spec hexists
  have hleast : ∀ j < UInt16.ofNat (Nat.find hexists), (slot j).isSome := by
    intro j hj
    by_contra hmissing
    have hlt := UInt16.lt_iff_toNat_lt.mp hj
    rw [UInt16.toNat_ofNat_of_lt' (lt_trans hk total.toNat_lt_size)] at hlt
    refine Nat.find_min hexists hlt ⟨lt_trans hlt hk, ?_⟩
    rw [UInt16.ofNat_toNat]
    exact Option.not_isSome_iff_eq_none.mp hmissing
  exact ⟨_, Slots.ofNat_lt hk, hnone, hleast, assemble_of_least (Slots.ofNat_lt hk) hnone hleast⟩

/-- While an index is missing, the packets are refused for the first one that is. -/
theorem collect_of_lacking (htotal : ∀ p ∈ packets, p.total = total)
    (hlacks : ¬ Seen total packets) (hsome : inRange packets ≠ []) :
    ∃ i < total, (∀ p ∈ packets, p.index ≠ i) ∧ (∀ j < i, ∃ p ∈ packets, p.index = j) ∧
      collect (inRange packets) = .error (.missingPacket i total) := by
  obtain ⟨i, hi, hnone, hbefore, hassemble⟩ := assemble_eq_error (mt (seen_iff htotal).mpr hlacks)
  refine ⟨i, hi, ?_, fun j hj ↦ ?_, (collect_inRange htotal hsome).trans hassemble⟩
  · rw [firstPayload_inRange htotal hi] at hnone
    exact firstPayload_eq_none_iff.mp hnone
  · have hisSome := hbefore j hj
    rw [firstPayload_inRange htotal (UInt16.lt_trans hj hi)] at hisSome
    exact isSome_firstPayload_iff.mp hisSome

theorem collect_of_seen (hpositive : total ≠ 0) (htotal : ∀ p ∈ packets, p.total = total)
    (hall : Seen total packets) :
    collect (inRange packets) = .ok (Slots.contents total (firstPayload (inRange packets))) := by
  have hsome : inRange packets ≠ [] := by
    intro hnil
    have hzero := (seen_iff htotal).mp hall 0 (UInt16.pos_iff_ne_zero.mpr hpositive)
    rw [hnil] at hzero
    cases hzero
  rw [collect_inRange htotal hsome]
  exact Slots.assemble_eq_ok ((seen_iff htotal).mp hall)

/-- Packets beyond their total add nothing to the contents. -/
theorem contents_inRange (htotal : ∀ p ∈ packets, p.total = total) :
    Slots.contents total (firstPayload (inRange packets)) =
      Slots.contents total (firstPayload packets) := by
  rw [Slots.contents, Slots.contents]
  congr 1
  refine List.map_congr_left fun k hk ↦ ?_
  rw [firstPayload_inRange htotal (Slots.ofNat_lt (List.mem_range.mp hk))]

end Collect

namespace Reassembler

variable {r : Reassembler} {p : Packet} {now : Nat} {b : OpenMessage} {total : UInt16}
  {packets : List Packet} {l : List (Packet × Nat)}

/-! ## Packet by packet -/

/-- The slots hold the first payload that came under each index of the message. -/
structure Firsts (total : UInt16) (packets : List Packet) (received : Slots) : Prop where
  below : Slots.Below total received
  get? : ∀ i, received.get? i = firstPayload (inRange packets) i

/-- Nothing is held but what came in `packets`, and these are not all. -/
structure Holds (total : UInt16) (packets : List Packet) (r : Reassembler) : Prop where
  maxAge : r.maxAge = none
  completed : r.completed = none
  buffer : r.buffer = none ∧ packets = [] ∨
    ∃ b, r.buffer = some b ∧ b.total = total ∧ Firsts total packets b.received

theorem Firsts.concat {received : Slots} (h : Firsts p.total packets received)
    (hlt : p.index < p.total) :
    Firsts p.total (packets ++ [p])
      (if received.has p.index then received else received.insert p.index p.payload) := by
  rw [Slots.has, h.get?]
  by_cases hknown : (firstPayload (inRange packets) p.index).isSome
  · rw [if_pos hknown]
    refine ⟨h.below, fun i ↦ ?_⟩
    rw [h.get?, inRange_concat_of_lt hlt, firstPayload_concat]
    by_cases hindex : p.index = i
    · subst hindex
      obtain ⟨payload, hpayload⟩ := Option.isSome_iff_exists.mp hknown
      rw [hpayload, Option.some_or]
    · rw [if_neg hindex, Option.or_none]
  · rw [if_neg hknown]
    refine ⟨h.below.insert hlt p.payload, fun i ↦ ?_⟩
    rw [inRange_concat_of_lt hlt, firstPayload_concat]
    by_cases hindex : p.index = i
    · subst hindex
      rw [Slots.get?_insert_self, Option.not_isSome_iff_eq_none.mp hknown, if_pos rfl,
        Option.none_or]
    · rw [Slots.get?_insert_of_ne _ _ (Ne.symm hindex), h.get?, if_neg hindex, Option.or_none]

/-- What a packet does behind `packets`: go on while an index is missing, and deliver with the
last one. -/
structure Adds (total : UInt16) (packets : List Packet) (pushed : Pushed) : Prop where
  more : ¬ Seen total packets → pushed.result = .ok none ∧ Holds total packets pushed.next
  last : Seen total packets →
    pushed.result = .ok (some (Slots.contents total (firstPayload (inRange packets))))

theorem adds_accept (hage : r.maxAge = none) (hcompleted : r.completed = none)
    (htotal : ∀ q ∈ packets ++ [p], q.total = total) (hb : b.total = total)
    (hlacks : ¬ Seen total packets) (h : Firsts total packets b.received) :
    Adds total (packets ++ [p]) (r.accept b p now) := by
  obtain rfl : p.total = total := htotal p (by simp)
  have hseen := seen_iff htotal
  rw [accept, hb]
  split
  · rename_i houtside
    have hnot : ¬ p.index < p.total := UInt16.not_lt.mpr houtside
    have hsame : ¬ Seen p.total (packets ++ [p]) := by
      intro hall
      refine hlacks fun i hi ↦ ?_
      obtain ⟨q, hq, hindex⟩ := hall i hi
      rcases List.mem_append.mp hq with hq | hq
      · exact ⟨q, hq, hindex⟩
      · obtain rfl := List.mem_singleton.mp hq
        exact absurd (hindex ▸ hi) hnot
    refine ⟨fun _ ↦ ⟨rfl, hage, hcompleted, .inr ⟨b, rfl, hb, h.below, ?_⟩⟩,
      fun hall ↦ absurd hall hsame⟩
    rw [inRange_concat_of_not_lt hnot]
    exact h.get?
  · rename_i hinside
    have hfirsts := h.concat (UInt16.not_le.mp hinside)
    dsimp only
    generalize (if b.received.has p.index then b.received
      else b.received.insert p.index p.payload) = received at hfirsts ⊢
    have hget : received.get? = firstPayload (inRange (packets ++ [p])) := funext hfirsts.get?
    have hall : received.length = p.total.toNat ↔ Seen p.total (packets ++ [p]) := by
      rw [hfirsts.below.length_eq_iff, hget, hseen]
    by_cases hlast : received.length = p.total.toNat
    · rw [if_pos hlast]
      refine ⟨fun hmore ↦ absurd (hall.mp hlast) hmore, fun _ ↦ ?_⟩
      rw [hfirsts.below.assemble_eq_ok hlast, hget]
      rfl
    · rw [if_neg hlast]
      exact ⟨fun _ ↦ ⟨rfl, hage, hcompleted, .inr ⟨_, rfl, rfl, hfirsts⟩⟩,
        fun hseen ↦ absurd (hall.mpr hseen) hlast⟩

theorem Holds.push (h : Holds total packets r) (hpositive : total ≠ 0)
    (htotal : ∀ q ∈ packets ++ [p], q.total = total) (hlacks : ¬ Seen total packets) :
    Adds total (packets ++ [p]) (r.push p now) := by
  have hp : p.total = total := htotal p (by simp)
  rw [push_of_maxAge_none h.maxAge, take, if_neg (hp ▸ hpositive)]
  rcases h.buffer with ⟨hbuffer, rfl⟩ | ⟨b, hbuffer, hb, hfirsts⟩
  · rw [hbuffer, h.completed]
    dsimp only
    rw [openFor, h.completed]
    exact adds_accept h.maxAge h.completed htotal hp hlacks
      ⟨Slots.below_nil total, fun _ ↦ rfl⟩
  · rw [hbuffer]
    dsimp only
    rw [if_pos (hb.trans hp.symm)]
    exact adds_accept h.maxAge h.completed htotal hb hlacks hfirsts

theorem holds_new (total : UInt16) : Holds total [] (new none) := ⟨rfl, rfl, .inl ⟨rfl, rfl⟩⟩

/-! ## Up to the last index -/

/-- The first `n` packets of a run. -/
def arrived (l : List (Packet × Nat)) (n : Nat) : List Packet := (l.take n).map Prod.fst

theorem arrived_succ {n : Nat} (hn : n < l.length) :
    arrived l (n + 1) = arrived l n ++ [l[n].1] := by
  rw [arrived, arrived, ← List.take_concat_get' l n hn, List.map_append, List.map_singleton]

theorem getElem?_pushes (r : Reassembler) (l : List (Packet × Nat)) {n : Nat} (hn : n < l.length) :
    (r.pushes l)[n]? = some (((r.pushAll (l.take n)).push l[n].1 l[n].2).result) := by
  induction l generalizing r n with
  | nil => exact absurd hn (Nat.not_lt_zero n)
  | cons timed l ih =>
      cases n with
      | zero => rfl
      | succ n => exact ih (r.push timed.1 timed.2).next (Nat.lt_of_succ_lt_succ hn)

/-- While an index is missing, the reassembler holds what has come. -/
theorem holds_pushAll (hpositive : total ≠ 0) (htotal : ∀ t ∈ l, t.1.total = total) {n : Nat}
    (hn : n ≤ l.length) (hlacks : ¬ Seen total (arrived l n)) :
    Holds total (arrived l n) ((new none).pushAll (l.take n)) := by
  induction n with
  | zero => exact holds_new total
  | succ n ih =>
      have hlt : n < l.length := hn
      rw [arrived_succ hlt] at hlacks ⊢
      have hbefore : ¬ Seen total (arrived l n) := fun hall ↦
        hlacks (hall.mono (List.subset_append_left _ _))
      have htotals : ∀ q ∈ arrived l n ++ [l[n].1], q.total = total := by
        rw [← arrived_succ hlt]
        intro q hq
        obtain ⟨t, ht, rfl⟩ := List.mem_map.mp hq
        exact htotal t (List.mem_of_mem_take ht)
      rw [← List.take_concat_get' l n hlt, pushAll_append]
      exact (((ih hlt.le hbefore).push hpositive htotals hbefore).more hlacks).2

/-- The reassembler and `collect` say the same of the packets around the push at `n`, before which
an index is missing. -/
structure Agrees (total : UInt16) (l : List (Packet × Nat)) (n : Nat) : Prop where
  lacking : inRange (arrived l n) ≠ [] → ∃ i < total, (∀ p ∈ arrived l n, p.index ≠ i) ∧
    (∀ j < i, ∃ p ∈ arrived l n, p.index = j) ∧
    collect (inRange (arrived l n)) = .error (.missingPacket i total)
  more : n < l.length → ¬ Seen total (arrived l (n + 1)) →
    ((new none).pushes l)[n]? = some (.ok none)
  last : n < l.length → Seen total (arrived l (n + 1)) → ∃ data,
    ((new none).pushes l)[n]? = some (.ok (some data)) ∧
    collect (inRange (arrived l (n + 1))) = .ok data ∧
    data = Slots.contents total (firstPayload (arrived l (n + 1)))

/-- Packets of one total, whatever their indices and payloads, are answered with nothing until
every index has come, and then with what they give at once; until then, they are refused at once
for the first index that is missing. -/
theorem pushes_agree (hpositive : total ≠ 0) (htotal : ∀ t ∈ l, t.1.total = total) {n : Nat}
    (hlacks : ¬ Seen total (arrived l n)) : Agrees total l n := by
  have htotals : ∀ m, ∀ q ∈ arrived l m, q.total = total := by
    intro m q hq
    obtain ⟨t, ht, rfl⟩ := List.mem_map.mp hq
    exact htotal t (List.mem_of_mem_take ht)
  have hadds : ∀ hn : n < l.length,
      Adds total (arrived l (n + 1)) (((new none).pushAll (l.take n)).push l[n].1 l[n].2) := by
    intro hn
    have hall := htotals (n + 1)
    rw [arrived_succ hn] at hall ⊢
    exact (holds_pushAll hpositive htotal hn.le hlacks).push hpositive hall hlacks
  refine ⟨collect_of_lacking (htotals n) hlacks, ?more, ?last⟩
  case more =>
    intro hn hmore
    rw [getElem?_pushes _ _ hn, ((hadds hn).more hmore).1]
  case last =>
    intro hn hall
    refine ⟨_, ?_, collect_of_seen hpositive (htotals (n + 1)) hall,
      contents_inRange (htotals (n + 1))⟩
    rw [getElem?_pushes _ _ hn, (hadds hn).last hall]

/-- A packet beyond the total comes first, and another payload under an index that is there. -/
theorem pushes_agree_of_strangers :
    ¬ Seen 2 (arrived [(⟨9, 2, Text.bytes "?"⟩, 0), (⟨0, 2, Text.bytes "a"⟩, 1),
        (⟨0, 2, Text.bytes "z"⟩, 2), (⟨1, 2, Text.bytes "b"⟩, 3)] 3) ∧
      Agrees 2 [(⟨9, 2, Text.bytes "?"⟩, 0), (⟨0, 2, Text.bytes "a"⟩, 1),
        (⟨0, 2, Text.bytes "z"⟩, 2), (⟨1, 2, Text.bytes "b"⟩, 3)] 3 ∧
      (new none).pushes [(⟨9, 2, Text.bytes "?"⟩, 0), (⟨0, 2, Text.bytes "a"⟩, 1),
        (⟨0, 2, Text.bytes "z"⟩, 2), (⟨1, 2, Text.bytes "b"⟩, 3)] =
          [.ok none, .ok none, .ok none, .ok (some (Text.bytes "ab"))] := by
  have hlacks : ¬ Seen 2 (arrived [(⟨9, 2, Text.bytes "?"⟩, 0), (⟨0, 2, Text.bytes "a"⟩, 1),
      (⟨0, 2, Text.bytes "z"⟩, 2), (⟨1, 2, Text.bytes "b"⟩, 3)] 3) := by
    intro hall
    obtain ⟨p, hp, hindex⟩ := hall 1 (by decide)
    simp only [arrived, List.take_succ_cons, List.take_zero, List.map_cons, List.map_nil,
      List.mem_cons, List.not_mem_nil, or_false] at hp
    rcases hp with rfl | rfl | rfl <;> exact absurd hindex (by decide)
  exact ⟨hlacks, pushes_agree (by decide) (by decide) hlacks, by decide +kernel⟩

end Reassembler

end BleBridge.Frame
