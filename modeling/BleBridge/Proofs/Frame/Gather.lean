import BleBridge.Proofs.Frame.InOrder
import BleBridge.Proofs.Frame.Slots

/-!
# Where a delivered message comes from

A run of the reassembler over timed packets, and what it says about the packets
when a message is delivered.  The slots of the open message and the held copies
only ever come from packets that arrived since the last delivery (`Gathered`), so
a delivered message is put together from such packets (`Composes`).  It needs one
under each index of its total (`Covers`), and the next delivery needs all of them
again.
-/

namespace BleBridge.Frame

namespace Reassembler

variable {r : Reassembler} {p : Packet} {now : Nat} {since : List Packet}

/-! ## Runs -/

/-- The results of packets that arrive one after the other, each at its time. -/
def pushes : Reassembler → List (Packet × Nat) → List (Except Fault (Option Bytes))
  | _, [] => []
  | r, (p, now) :: rest => (r.push p now).result :: pushes (r.push p now).next rest

/-- The reassembler behind packets that arrived. -/
def pushAll (r : Reassembler) (l : List (Packet × Nat)) : Reassembler :=
  l.foldl (fun r timed ↦ (r.push timed.1 timed.2).next) r

@[simp] theorem pushAll_nil (r : Reassembler) : r.pushAll [] = r := rfl

@[simp] theorem pushAll_cons (r : Reassembler) (timed : Packet × Nat) (l : List (Packet × Nat)) :
    r.pushAll (timed :: l) = (r.push timed.1 timed.2).next.pushAll l := rfl

theorem pushAll_append (r : Reassembler) (l l' : List (Packet × Nat)) :
    r.pushAll (l ++ l') = (r.pushAll l).pushAll l' := List.foldl_append

theorem pushes_append (r : Reassembler) (l l' : List (Packet × Nat)) :
    r.pushes (l ++ l') = r.pushes l ++ (r.pushAll l).pushes l' := by
  induction l generalizing r with
  | nil => rfl
  | cons timed l ih => rw [List.cons_append, pushes, pushes, ih, List.cons_append, pushAll_cons]

/-- What a run hands out: messages and faults, without the packets that completed nothing. -/
def answers (results : List (Except Fault (Option Bytes))) : List (Except Fault Bytes) :=
  results.filterMap fun
    | .ok none => none
    | .ok (some data) => some (.ok data)
    | .error fault => some (.error fault)

@[simp] theorem answers_none (results : List (Except Fault (Option Bytes))) :
    answers (.ok none :: results) = answers results := rfl

@[simp] theorem answers_some (data : Bytes) (results : List (Except Fault (Option Bytes))) :
    answers (.ok (some data) :: results) = .ok data :: answers results := rfl

@[simp] theorem answers_error (fault : Fault) (results : List (Except Fault (Option Bytes))) :
    answers (.error fault :: results) = .error fault :: answers results := rfl

theorem answers_append (results results' : List (Except Fault (Option Bytes))) :
    answers (results ++ results') = answers results ++ answers results' :=
  List.filterMap_append

@[simp] theorem answers_replicate_none (count : Nat) :
    answers (List.replicate count (.ok none)) = [] := by
  induction count with
  | zero => rfl
  | succ count ih => rw [List.replicate_succ, answers_none, ih]

section Row

variable {total : UInt16} {done todo : List Bytes} {l : List (Packet × Nat)}

/-- Packets in a row that do not complete their message are kept. -/
theorem pushes_front (hl : l.map Prod.fst = Layout.numbered total done.length todo)
    (htotal : done.length + todo.length < total.toNat) (hage : r.maxAge = none)
    (h : Awaits total done r) :
    r.pushes l = List.replicate todo.length (.ok none) ∧ (r.pushAll l).maxAge = none ∧
      Awaits total (done ++ todo) (r.pushAll l) := by
  induction todo generalizing done l r with
  | nil =>
      obtain rfl : l = [] := by simpa [Layout.numbered] using hl
      rw [List.append_nil]
      exact ⟨rfl, hage, h⟩
  | cons payload todo ih =>
      obtain ⟨⟨q, now⟩, l, rfl, hq, hrest⟩ := List.map_eq_cons_iff.mp hl
      obtain rfl : q = following total done payload := hq
      rw [List.length_cons] at htotal
      obtain ⟨hkeep, hmore, -⟩ : Follows r total (done ++ [payload])
          (r.push (following total done payload) now) := by
        rw [push_of_maxAge_none hage]
        exact take_following (by omega) h
      have hlength : (done ++ [payload]).length = done.length + 1 := by simp
      obtain ⟨hresult, hafter⟩ := hmore (by omega)
      rw [← hlength] at hrest
      obtain ⟨hpushes, hend⟩ := ih hrest (by omega) (hkeep.trans hage) hafter
      rw [List.append_assoc, List.singleton_append] at hend
      refine ⟨?_, hend⟩
      rw [pushes, hresult, hpushes, List.length_cons, List.replicate_succ]

/-- The last of the packets of one message in a row is answered with the message, and the next
packet may start any other. -/
theorem pushes_numbered (hl : l.map Prod.fst = Layout.numbered total done.length todo)
    (htodo : todo ≠ []) (htotal : done.length + todo.length = total.toNat) (hage : r.maxAge = none)
    (h : Awaits total done r) :
    r.pushes l = List.replicate (todo.length - 1) (.ok none) ++
        [.ok (some (done ++ todo).flatten)] ∧
      (r.pushAll l).maxAge = none ∧ ∀ next, Awaits next [] (r.pushAll l) := by
  obtain ⟨front, payload, rfl⟩ := (List.eq_nil_or_concat todo).resolve_left htodo
  rw [List.concat_eq_append] at hl htotal ⊢
  rw [Layout.numbered_append] at hl
  obtain ⟨l₁, l₂, rfl, hfront, hlast⟩ := List.map_eq_append_iff.mp hl
  obtain ⟨⟨q, now⟩, rest, rfl, hq, hnil⟩ := List.map_eq_cons_iff.mp hlast
  obtain rfl : rest = [] := List.map_eq_nil_iff.mp hnil
  rw [List.length_append, List.length_singleton] at htotal
  obtain ⟨hpushes, hage, hawaits⟩ := pushes_front hfront (by omega) hage h
  obtain rfl : q = following total (done ++ front) payload := by
    rw [following, List.length_append]
    exact hq
  obtain ⟨hkeep, -, hall⟩ : Follows (r.pushAll l₁) total (done ++ front ++ [payload])
      ((r.pushAll l₁).push (following total (done ++ front) payload) now) := by
    rw [push_of_maxAge_none hage]
    refine take_following ?_ hawaits
    rw [List.length_append]
    omega
  obtain ⟨hresult, hafter⟩ := hall (by simp only [List.length_append, List.length_singleton]; omega)
  rw [pushes_append, pushAll_append, hpushes, pushes, hresult, List.append_assoc,
    List.length_append, List.length_singleton, Nat.add_sub_cancel]
  exact ⟨rfl, hkeep.trans hage, hafter⟩

theorem answers_numbered (hl : l.map Prod.fst = Layout.numbered total done.length todo)
    (htodo : todo ≠ []) (htotal : done.length + todo.length = total.toNat) (hage : r.maxAge = none)
    (h : Awaits total done r) (rest : List (Packet × Nat)) :
    ∃ r', answers (r.pushes (l ++ rest)) =
        .ok (done ++ todo).flatten :: answers (r'.pushes rest) ∧
      r'.maxAge = none ∧ ∀ next, Awaits next [] r' := by
  obtain ⟨hpushes, hend⟩ := pushes_numbered hl htodo htotal hage h
  refine ⟨r.pushAll l, ?_, hend⟩
  rw [pushes_append, hpushes, answers_append, answers_append, answers_replicate_none]
  rfl

end Row

/-! ## What a delivery needs -/

/-- A packet under each index of a positive total. -/
structure Covers (total : UInt16) (packets : List Packet) : Prop where
  positive : total ≠ 0
  every : ∀ i < total.toNat, ∃ p ∈ packets, p.index = UInt16.ofNat i ∧ p.total = total

theorem Covers.mono {total : UInt16} {packets more : List Packet} (h : Covers total packets)
    (hsub : packets ⊆ more) : Covers total more := by
  refine ⟨h.positive, fun i hi ↦ ?_⟩
  obtain ⟨p, hp, heq⟩ := h.every i hi
  exact ⟨p, hsub hp, heq⟩

/-- A message in pieces, each of which is the payload of one of the packets. -/
structure Composes (total : UInt16) (packets : List Packet) (data : Bytes) : Prop where
  positive : total ≠ 0
  pieces : ∃ payloads : List Bytes, payloads.flatten = data ∧ payloads.length = total.toNat ∧
    ∀ k (hk : k < payloads.length), ⟨UInt16.ofNat k, total, payloads[k]⟩ ∈ packets

theorem Composes.covers {total : UInt16} {packets : List Packet} {data : Bytes}
    (h : Composes total packets data) : Covers total packets := by
  obtain ⟨payloads, -, hlength, hmem⟩ := h.pieces
  exact ⟨h.positive, fun i hi ↦ ⟨_, hmem i (hlength ▸ hi), rfl, rfl⟩⟩

/-- Each slot was filled by one of the packets. -/
def Filled (total : UInt16) (packets : List Packet) (slots : Slots) : Prop :=
  ∀ slot ∈ slots, ⟨slot.1, total, slot.2⟩ ∈ packets

theorem filled_nil (total : UInt16) (packets : List Packet) : Filled total packets [] := nofun

theorem Filled.mono {total : UInt16} {packets more : List Packet} {slots : Slots}
    (h : Filled total packets slots) (hsub : packets ⊆ more) : Filled total more slots :=
  fun slot hslot ↦ hsub (h slot hslot)

theorem Filled.insert {slots : Slots} (h : Filled p.total since slots) :
    Filled p.total (since ++ [p]) (slots.insert p.index p.payload) := by
  intro slot hslot
  rcases Slots.mem_insert hslot with rfl | hslot
  · exact List.mem_append_right _ List.mem_cons_self
  · exact List.mem_append_left _ (h slot hslot)

/-- What is put together stands under the indices, one piece after the other. -/
theorem exists_pieces_of_assemble_go {total : UInt16} {slot : UInt16 → Option Bytes} {n i : Nat}
    {data : Bytes} (h : Slots.assemble.go total slot n i = .ok data) :
    ∃ payloads : List Bytes, payloads.flatten = data ∧ payloads.length = n ∧
      ∀ k (hk : k < payloads.length), slot (UInt16.ofNat (i + k)) = some payloads[k] := by
  induction n generalizing i data with
  | zero =>
      cases h
      exact ⟨[], rfl, rfl, nofun⟩
  | succ n ih =>
      rw [Slots.assemble.go] at h
      cases hslot : slot (UInt16.ofNat i) with
      | none =>
          rw [hslot] at h
          cases h
      | some payload =>
          cases hrest : Slots.assemble.go total slot n (i + 1) with
          | error fault =>
              simp only [hslot, hrest] at h
              cases h
          | ok rest =>
              simp only [hslot, hrest] at h
              cases h
              obtain ⟨payloads, rfl, hlength, hslots⟩ := ih hrest
              refine ⟨payload :: payloads, rfl, by simp [hlength], fun k hk ↦ ?_⟩
              cases k with
              | zero => exact hslot
              | succ k =>
                  rw [show i + (k + 1) = i + 1 + k by omega]
                  exact hslots k (by simpa using hk)

theorem composes_of_assemble {total : UInt16} {packets : List Packet} {slots : Slots}
    {data : Bytes} (hpositive : total ≠ 0) (hfilled : Filled total packets slots)
    (h : Slots.assemble total slots.get? = .ok data) : Composes total packets data := by
  obtain ⟨payloads, hdata, hlength, hslots⟩ := exists_pieces_of_assemble_go h
  refine ⟨hpositive, payloads, hdata, hlength, fun k hk ↦ ?_⟩
  have hslot := hslots k hk
  rw [Nat.zero_add] at hslot
  exact hfilled _ (Slots.mem_of_get? hslot)

/-! ## One push -/

/-- The open message and the held copies consist of packets of `since`. -/
structure Gathered (since : List Packet) (r : Reassembler) : Prop where
  received : ∀ b, r.buffer = some b → Filled b.total since b.received
  held : ∀ c, r.completed = some c → Filled c.total since c.held

/-- What is not there is made of anything. -/
theorem forall_none {α : Type} {P : α → Prop} : ∀ a, none = some a → P a := nofun

theorem gathered_new (maxAge : Option Nat) : Gathered [] (Reassembler.new maxAge) :=
  ⟨forall_none, forall_none⟩

/-- What a push that follows `since` may do: go on with the packet, or deliver a message made of
`since` and the packet and start anew. -/
structure Gathers (since : List Packet) (p : Packet) (pushed : Pushed) : Prop where
  goesOn : (∀ data, pushed.result ≠ .ok (some data)) → Gathered (since ++ [p]) pushed.next
  delivers : ∀ data, pushed.result = .ok (some data) →
    Composes p.total (since ++ [p]) data ∧ Gathered [] pushed.next

theorem assemble_of_map_some {total : UInt16} {slot : UInt16 → Option Bytes} {data : Bytes}
    (h : (Slots.assemble total slot).map some = .ok (some data)) :
    Slots.assemble total slot = .ok data := by
  cases hassemble : Slots.assemble total slot with
  | error fault =>
      rw [hassemble] at h
      cases h
  | ok found =>
      rw [hassemble] at h
      cases h
      rfl

theorem gathers_accept {b : OpenMessage} (hpositive : p.total ≠ 0) (htotal : b.total = p.total)
    (hreceived : Filled b.total since b.received)
    (hheld : ∀ c, r.completed = some c → Filled c.total since c.held) :
    Gathers since p (r.accept b p now) := by
  have hsub : since ⊆ since ++ [p] := List.subset_append_left _ _
  have hslots : Filled p.total (since ++ [p])
      (if b.received.has p.index then b.received else b.received.insert p.index p.payload) := by
    rw [htotal] at hreceived
    split
    · exact hreceived.mono hsub
    · exact hreceived.insert
  have hcopies : ∀ c, r.completed = some c → Filled c.total (since ++ [p]) c.held :=
    fun c hc ↦ (hheld c hc).mono hsub
  rw [accept]
  split
  · refine ⟨fun _ ↦ ⟨fun b' hb' ↦ ?_, hcopies⟩, fun data hdata ↦ by cases hdata⟩
    cases hb'
    exact hreceived.mono hsub
  · dsimp only
    generalize (if b.received.has p.index then b.received
      else b.received.insert p.index p.payload) = received at hslots ⊢
    by_cases hlast : received.length = b.total.toNat
    · rw [if_pos hlast]
      refine ⟨fun _ ↦ ⟨forall_none, fun c hc ↦ ?_⟩,
        fun data hdata ↦ ⟨?_, forall_none, fun c hc ↦ ?_⟩⟩
      · cases hc
        exact filled_nil _ _
      · exact composes_of_assemble hpositive hslots (htotal ▸ assemble_of_map_some hdata)
      · cases hc
        exact filled_nil _ _
    · rw [if_neg hlast]
      refine ⟨fun _ ↦ ⟨fun b' hb' ↦ ?_, hcopies⟩, fun data hdata ↦ by cases hdata⟩
      cases hb'
      exact htotal ▸ hslots

theorem gathers_hold {c : Completed} (hpositive : p.total ≠ 0) (hbuffer : r.buffer = none)
    (hrepeats : c.repeats p) (hheld : Filled c.total since c.held) :
    Gathers since p (r.hold c p now) := by
  have htotal : c.total = p.total := by
    rw [Completed.repeats, Bool.and_eq_true, beq_iff_eq] at hrepeats
    exact hrepeats.1
  have hslots : Filled p.total (since ++ [p]) (c.held.insert p.index p.payload) :=
    Filled.insert (htotal ▸ hheld)
  rw [hold]
  split
  · refine ⟨fun _ ↦ ⟨fun b hb ↦ ?_, fun c' hc ↦ ?_⟩, fun data hdata ↦ by cases hdata⟩
    · rw [hbuffer] at hb
      cases hb
    · cases hc
      exact htotal ▸ hslots
  · refine ⟨fun _ ↦ ⟨fun b hb ↦ ?_, fun c' hc ↦ ?_⟩, fun data hdata ↦
      ⟨?_, fun b hb ↦ ?_, fun c' hc ↦ ?_⟩⟩
    · rw [hbuffer] at hb
      cases hb
    · cases hc
      exact filled_nil _ _
    · exact composes_of_assemble hpositive hslots (htotal ▸ assemble_of_map_some hdata)
    · rw [hbuffer] at hb
      cases hb
    · cases hc
      exact filled_nil _ _

theorem gathers_openFor (hpositive : p.total ≠ 0) (h : Gathered since r) :
    Gathers since p (r.openFor p now) := by
  rw [openFor]
  split
  · rename_i hcompleted
    exact gathers_accept hpositive rfl (filled_nil _ _) h.held
  · rename_i c hcompleted
    have hkept : Filled p.total since (c.held.filter (precedes c p)) := by
      intro slot hslot
      obtain ⟨hslot, hprecedes⟩ := List.mem_filter.mp hslot
      rw [precedes, Bool.and_eq_true, beq_iff_eq] at hprecedes
      exact hprecedes.1 ▸ h.held c hcompleted slot hslot
    let dropped := c.held.filter (!precedes c p ·)
    let cleared : Reassembler :=
      { r with completed := none, discarded := r.discarded + dropped.length }
    obtain ⟨hgoes, hdelivers⟩ : Gathers since p
        (cleared.accept ⟨p.total, c.held.filter (precedes c p), now⟩ p now) :=
      gathers_accept hpositive rfl hkept forall_none
    exact ⟨hgoes, hdelivers⟩

theorem gathers_take (h : Gathered since r) : Gathers since p (r.take p now) := by
  have hsub : since ⊆ since ++ [p] := List.subset_append_left _ _
  rw [take]
  split
  · exact ⟨fun _ ↦ ⟨forall_none, fun c hc ↦ (h.held c hc).mono hsub⟩,
      fun data hdata ↦ by cases hdata⟩
  · rename_i hpositive
    split
    · rename_i b hbuffer
      split
      · rename_i htotal
        exact gathers_accept hpositive htotal (h.received b hbuffer) h.held
      · let cleared : Reassembler := { r with buffer := none, evicted := r.evicted + 1 }
        obtain ⟨hgoes, hdelivers⟩ : Gathers since p (cleared.accept ⟨p.total, [], now⟩ p now) :=
          gathers_accept hpositive rfl (filled_nil _ _) h.held
        exact ⟨hgoes, hdelivers⟩
    · rename_i hbuffer
      split
      · rename_i c hcompleted
        split
        · rename_i hrepeats
          exact gathers_hold hpositive hbuffer hrepeats (h.held c hcompleted)
        · exact gathers_openFor hpositive h
      · exact gathers_openFor hpositive h

/-- Forgetting loses slots and copies, and adds none. -/
theorem Gathered.evictStale (h : Gathered since r) : Gathered since (r.evictStale now).1 := by
  have hcompleted : Gathered since (r.dropCompleted now) := by
    rw [dropCompleted]
    split
    · split
      · exact ⟨h.received, forall_none⟩
      · exact h
    · exact h
  rw [Reassembler.evictStale, dropBuffer]
  split
  · split
    · exact ⟨forall_none, hcompleted.held⟩
    · exact hcompleted
  · exact hcompleted

theorem gathers_push (h : Gathered since r) : Gathers since p (r.push p now) := by
  obtain ⟨hgoes, hdelivers⟩ : Gathers since p ((r.evictStale now).1.take p now) :=
    gathers_take h.evictStale
  exact ⟨hgoes, hdelivers⟩

/-! ## Up to the next delivery -/

/-- If the first answer of a run is a message, the packets up to it account for the message, and
the rest of the run owes nothing to them. -/
theorem exists_delivery {l : List (Packet × Nat)} {data : Bytes}
    {later : List (Except Fault Bytes)} (h : Gathered since r)
    (hanswers : answers (r.pushes l) = .ok data :: later) :
    ∃ l₁ l₂ r' total, l = l₁ ++ l₂ ∧ Covers total (since ++ l₁.map Prod.fst) ∧
      Gathered [] r' ∧ answers (r'.pushes l₂) = later := by
  induction l generalizing r since with
  | nil => cases hanswers
  | cons timed l ih =>
      obtain ⟨p, now⟩ := timed
      obtain ⟨hgoes, hdelivers⟩ : Gathers since p (r.push p now) := gathers_push h
      rw [pushes] at hanswers
      cases hresult : (r.push p now).result with
      | error fault =>
          rw [hresult, answers_error] at hanswers
          cases hanswers
      | ok message =>
          cases message with
          | none =>
              rw [hresult, answers_none] at hanswers
              obtain ⟨l₁, l₂, r', total, rfl, hcovers, hend⟩ :=
                ih (hgoes (by simp [hresult])) hanswers
              refine ⟨(p, now) :: l₁, l₂, r', total, rfl, ?_, hend⟩
              simpa using hcovers
          | some found =>
              rw [hresult, answers_some, List.cons.injEq] at hanswers
              obtain ⟨hcomposes, hnext⟩ := hdelivers found hresult
              exact ⟨[(p, now)], l, _, p.total, rfl, hcomposes.covers, hnext, hanswers.2⟩

end Reassembler

end BleBridge.Frame
