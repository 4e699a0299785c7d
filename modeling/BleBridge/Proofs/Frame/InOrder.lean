import BleBridge.Frame.Reassembler
import BleBridge.Proofs.Frame.Split

/-!
# Packets that arrive in order

What the reassembler holds while the packets of one message arrive in order.
The packets taken so far are either in the open message or, when each of them
repeats the message delivered last, among the held copies.  `Awaits` does not
tell which: the next packet of the message leads from either place to the same
answer, and behind the last one the reassembler awaits the start of any message.
-/

namespace BleBridge.Frame

namespace Slots

/-! ## Slots in a row -/

/-- Payloads under consecutive indices. -/
def row : Nat → List Bytes → Slots
  | _, [] => []
  | i, payload :: rest => (UInt16.ofNat i, payload) :: row (i + 1) rest

@[simp] theorem length_row (i : Nat) (payloads : List Bytes) :
    (row i payloads).length = payloads.length := by
  induction payloads generalizing i with
  | nil => rfl
  | cons payload payloads ih => simp [row, ih]

theorem ofNat_inj {i j : Nat} (hi : i < UInt16.size) (hj : j < UInt16.size) :
    UInt16.ofNat i = UInt16.ofNat j ↔ i = j := by
  constructor
  · intro h
    have := congrArg UInt16.toNat h
    rwa [UInt16.toNat_ofNat_of_lt' hi, UInt16.toNat_ofNat_of_lt' hj] at this
  · rintro rfl
    rfl

theorem ofNat_lt_ofNat {i j : Nat} (hi : i < UInt16.size) (hj : j < UInt16.size) :
    UInt16.ofNat i < UInt16.ofNat j ↔ i < j := by
  rw [UInt16.lt_iff_toNat_lt, UInt16.toNat_ofNat_of_lt' hi, UInt16.toNat_ofNat_of_lt' hj]

/-- A row is what numbered packets fill. -/
theorem row_eq_map (total : UInt16) (i : Nat) (payloads : List Bytes) :
    row i payloads = (Layout.numbered total i payloads).map fun p ↦ (p.index, p.payload) := by
  induction payloads generalizing i with
  | nil => rfl
  | cons payload payloads ih => rw [row, ih, Layout.numbered, List.map_cons]

theorem mem_row {i : Nat} {payloads : List Bytes} {slot : UInt16 × Bytes}
    (h : slot ∈ row i payloads) : ∃ k < payloads.length, slot.1 = UInt16.ofNat (i + k) := by
  rw [row_eq_map 0] at h
  obtain ⟨p, hp, rfl⟩ := List.mem_map.mp h
  obtain ⟨k, hk, rfl⟩ := Layout.exists_of_mem_numbered hp
  exact ⟨k, hk, rfl⟩

/-- No index from the end of the row on is taken. -/
theorem get?_row_of_le {i j : Nat} {payloads : List Bytes} (hj : j < UInt16.size)
    (h : i + payloads.length ≤ j) : (row i payloads).get? (UInt16.ofNat j) = none := by
  induction payloads generalizing i with
  | nil => rfl
  | cons payload payloads ih =>
      rw [List.length_cons] at h
      have hne : UInt16.ofNat i ≠ UInt16.ofNat j := by
        rw [ne_eq, ofNat_inj (by omega) hj]
        omega
      rw [row, get?, if_neg hne]
      exact ih (by omega)

theorem get?_row {i k : Nat} {payloads : List Bytes} (hi : i + payloads.length ≤ UInt16.size)
    (hk : k < payloads.length) :
    (row i payloads).get? (UInt16.ofNat (i + k)) = some payloads[k] := by
  induction payloads generalizing i k with
  | nil => simp at hk
  | cons payload payloads ih =>
      rw [List.length_cons] at hi hk
      cases k with
      | zero => simp [row, get?]
      | succ k =>
          have hne : UInt16.ofNat i ≠ UInt16.ofNat (i + (k + 1)) := by
            rw [ne_eq, ofNat_inj (by omega) (by omega)]
            omega
          rw [row, get?, if_neg hne, show i + (k + 1) = i + 1 + k by omega,
            ih (by omega) (by omega), List.getElem_cons_succ]

/-- The index behind the end of a row goes to its end. -/
theorem insert_row {i : Nat} {payloads : List Bytes} (h : i + payloads.length < UInt16.size)
    (payload : Bytes) : (row i payloads).insert (UInt16.ofNat (i + payloads.length)) payload =
      row i (payloads ++ [payload]) := by
  induction payloads generalizing i with
  | nil => rfl
  | cons old payloads ih =>
      rw [List.length_cons] at h
      have hlt : ¬ UInt16.ofNat (i + (payloads.length + 1)) < UInt16.ofNat i := by
        rw [ofNat_lt_ofNat (by omega) (by omega)]
        omega
      have hne : UInt16.ofNat (i + (payloads.length + 1)) ≠ UInt16.ofNat i := by
        rw [ne_eq, ofNat_inj (by omega) (by omega)]
        omega
      rw [row, List.length_cons, insert, if_neg hlt, if_neg hne,
        show i + (payloads.length + 1) = i + 1 + payloads.length by omega, ih (by omega)]
      rfl

theorem insert_row_zero {payloads : List Bytes} (h : payloads.length < UInt16.size)
    (payload : Bytes) : (row 0 payloads).insert (UInt16.ofNat payloads.length) payload =
      row 0 (payloads ++ [payload]) := by
  have hinsert : (row 0 payloads).insert (UInt16.ofNat (0 + payloads.length)) payload =
      row 0 (payloads ++ [payload]) := insert_row (by omega) payload
  rwa [Nat.zero_add] at hinsert

/-- What stands under every index is put together. -/
theorem assemble_go_eq_ok {total : UInt16} {slot : UInt16 → Option Bytes} {i : Nat}
    {payloads : List Bytes}
    (h : ∀ k (hk : k < payloads.length), slot (UInt16.ofNat (i + k)) = some payloads[k]) :
    assemble.go total slot payloads.length i = .ok payloads.flatten := by
  induction payloads generalizing i with
  | nil => rfl
  | cons payload payloads ih =>
      have hhead : slot (UInt16.ofNat i) = some payload := h 0 (by simp)
      have htail : assemble.go total slot payloads.length (i + 1) = .ok payloads.flatten := by
        refine ih fun k hk ↦ ?_
        rw [Nat.add_assoc, Nat.add_comm 1 k]
        exact h (k + 1) (by simpa using hk)
      rw [List.length_cons, assemble.go, hhead, htail]
      rfl

theorem assemble_row {total : UInt16} {payloads : List Bytes}
    (h : payloads.length = total.toNat) :
    assemble total (row 0 payloads).get? = .ok payloads.flatten := by
  have hsize : payloads.length < UInt16.size := h ▸ total.toNat_lt_size
  rw [assemble, ← h]
  exact assemble_go_eq_ok fun k hk ↦ get?_row (by omega) hk

end Slots

namespace Reassembler

/-! ## Between two packets -/

/-- The packets of `0 … done.length - 1` among `total` have been taken, and nothing of another
message is in the way of the next one. -/
inductive Awaits (total : UInt16) (done : List Bytes) (r : Reassembler) : Prop where
  /-- They are in the open message. -/
  | opened (since : Nat) (buffer : r.buffer = some ⟨total, Slots.row 0 done, since⟩)
  /-- Nothing has been taken from the message yet. -/
  | fresh (buffer : r.buffer = none) (completed : r.completed = none) (done : done = [])
  /-- All of them repeat the message delivered last. -/
  | held (c : Completed) (buffer : r.buffer = none) (completed : r.completed = some c)
      (copies : c.held = Slots.row 0 done) (sameTotal : done ≠ [] → c.total = total)

theorem awaits_new (total : UInt16) (maxAge : Option Nat) :
    Awaits total [] (Reassembler.new maxAge) :=
  .fresh rfl rfl rfl

/-- Without an age limit nothing is forgotten. -/
theorem evictStale_of_maxAge_none {r : Reassembler} (h : r.maxAge = none) (now : Nat) :
    r.evictStale now = (r, []) := by
  have hstale : ∀ since, r.stale now since = false := fun since ↦ by rw [stale, h]
  have hcompleted : r.dropCompleted now = r := by
    rw [dropCompleted]
    split
    · rw [hstale, if_neg (by simp)]
    · rfl
  rw [evictStale, hcompleted, dropBuffer]
  split
  · rw [hstale, if_neg (by simp)]
  · rfl

theorem push_of_maxAge_none {r : Reassembler} (h : r.maxAge = none) (p : Packet) (now : Nat) :
    r.push p now = r.take p now := by
  simp [push, evictStale_of_maxAge_none h]

/-! ## The next packet -/

section Next

variable {r : Reassembler} {total : UInt16} {done : List Bytes} {payload : Bytes} {now : Nat}

/-- The packet that follows `done`. -/
def following (total : UInt16) (done : List Bytes) (payload : Bytes) : Packet :=
  ⟨UInt16.ofNat done.length, total, payload⟩

/-- What the reassembler answers to the packet that follows `done`, and what it awaits then. -/
structure Follows (r : Reassembler) (total : UInt16) (done : List Bytes) (pushed : Pushed) :
    Prop where
  maxAge : pushed.next.maxAge = r.maxAge
  /-- The message goes on. -/
  more : done.length < total.toNat → pushed.result = .ok none ∧ Awaits total done pushed.next
  /-- The message is complete. -/
  last : done.length = total.toNat →
    pushed.result = .ok (some done.flatten) ∧ ∀ total, Awaits total [] pushed.next

/-- A packet under an index that the open message lacks is put in. -/
theorem accept_new (r : Reassembler) (b : OpenMessage) (p : Packet) (now : Nat)
    (hinside : ¬ b.total ≤ p.index) (hnew : b.received.has p.index = false) :
    r.accept b p now =
      let received := b.received.insert p.index p.payload
      let events := [note s!"{received.length}/{b.total} packets buffered"]
      if received.length = b.total.toNat then
        ⟨{ r with buffer := none, completed := some ⟨b.total, received, now, []⟩ },
          (Slots.assemble b.total received.get?).map some, events⟩
      else ⟨{ r with buffer := some { b with received } }, .ok none, events⟩ := by
  rw [accept, if_neg hinside]
  simp only [hnew, Bool.false_eq_true, if_false, List.nil_append]

theorem accept_following {since : Nat} (h : done.length < total.toNat) :
    Follows r total (done ++ [payload])
      (r.accept ⟨total, Slots.row 0 done, since⟩ (following total done payload) now) := by
  have hsize : done.length < UInt16.size := lt_trans h total.toNat_lt_size
  have hinside : ¬ total ≤ UInt16.ofNat done.length := by
    rw [UInt16.le_iff_toNat_le, UInt16.toNat_ofNat_of_lt' hsize]
    omega
  have hnew : Slots.has (Slots.row 0 done) (UInt16.ofNat done.length) = false := by
    rw [Slots.has, Slots.get?_row_of_le hsize (by omega)]
    rfl
  have hlength : (done ++ [payload]).length = done.length + 1 := by simp
  rw [accept_new r ⟨total, Slots.row 0 done, since⟩ (following total done payload) now hinside
    hnew]
  simp only [following, Slots.insert_row_zero hsize, Slots.length_row]
  split
  · rename_i hlast
    refine ⟨rfl, fun hmore ↦ ?_, fun _ ↦ ⟨?_, fun total ↦ ?_⟩⟩
    · omega
    · rw [Slots.assemble_row hlast]
      rfl
    · exact .held _ rfl rfl rfl (fun h ↦ absurd rfl h)
  · rename_i hmore
    exact ⟨rfl, fun _ ↦ ⟨rfl, .opened since rfl⟩, fun hlast ↦ absurd hlast hmore⟩

/-- All copies held so far go into the message that the next packet opens. -/
theorem filter_precedes {c : Completed} (hcopies : c.held = Slots.row 0 done)
    (htotal : done ≠ [] → c.total = total) (payload : Bytes)
    (h : done.length < UInt16.size) :
    c.held.filter (precedes c (following total done payload)) = Slots.row 0 done := by
  rw [hcopies, List.filter_eq_self]
  intro slot hslot
  obtain ⟨k, hk, heq⟩ := Slots.mem_row hslot
  have hdone : done ≠ [] := List.ne_nil_of_length_pos (by omega)
  have hlt : slot.1 < UInt16.ofNat done.length := by
    rw [heq, Slots.ofNat_lt_ofNat (by omega) h]
    omega
  simp [precedes, following, htotal hdone, hlt]

theorem hold_following {c : Completed} (h : done.length < total.toNat)
    (hbuffer : r.buffer = none) (hcopies : c.held = Slots.row 0 done) (htotal : c.total = total) :
    Follows r total (done ++ [payload]) (r.hold c (following total done payload) now) := by
  have hsize : done.length < UInt16.size := lt_trans h total.toNat_lt_size
  have hlength : (done ++ [payload]).length = done.length + 1 := by simp
  simp only [hold, following, hcopies, Slots.insert_row_zero hsize, Slots.length_row, htotal]
  split
  · rename_i hmore
    refine ⟨rfl, fun _ ↦ ⟨rfl, ?_⟩, fun hlast ↦ ?_⟩
    · exact .held { c with held := Slots.row 0 (done ++ [payload]) } hbuffer (by simp [htotal]) rfl
        fun _ ↦ htotal
    · omega
  · rename_i hlast
    have hall : (done ++ [payload]).length = total.toNat := by omega
    refine ⟨rfl, fun hmore ↦ absurd hmore hlast, fun _ ↦ ⟨?_, fun total ↦ ?_⟩⟩
    · rw [Slots.assemble_row hall]
      rfl
    · exact .held { c with held := [], completedAt := now } hbuffer (by simp [htotal]) rfl
        (fun h ↦ absurd rfl h)

theorem openFor_following (h : done.length < total.toNat) (hbuffer : r.buffer = none)
    (hawaits : Awaits total done r) :
    Follows r total (done ++ [payload]) (r.openFor (following total done payload) now) := by
  cases hawaits with
  | opened since hopen =>
      rw [hbuffer] at hopen
      cases hopen
  | fresh _ hcompleted hdone =>
      subst hdone
      rw [openFor, hcompleted]
      exact accept_following h
  | held c _ hcompleted hcopies htotal =>
      have hkept := filter_precedes hcopies htotal payload (lt_trans h total.toNat_lt_size)
      let dropped := c.held.filter (!precedes c (following total done payload) ·)
      let cleared : Reassembler :=
        { r with completed := none, discarded := r.discarded + dropped.length }
      have hfollows : Follows cleared total (done ++ [payload]) (cleared.accept
          ⟨total, Slots.row 0 done, now⟩ (following total done payload) now) :=
        accept_following h
      rw [openFor, hcompleted]
      simp only [hkept]
      exact ⟨hfollows.maxAge, hfollows.more, hfollows.last⟩

/-- The packet that follows is answered in the same way wherever the packets before it are. -/
theorem take_following (h : done.length < total.toNat) (hawaits : Awaits total done r) :
    Follows r total (done ++ [payload]) (r.take (following total done payload) now) := by
  have hzero : total ≠ 0 := by
    rintro rfl
    simp at h
  have hpositive : (following total done payload).total ≠ 0 := hzero
  rw [take, if_neg hpositive]
  cases hbuffer : r.buffer with
  | some b =>
      cases hawaits with
      | opened since hopen =>
          obtain rfl : b = ⟨total, Slots.row 0 done, since⟩ := by simpa [hbuffer] using hopen
          simp only [following, if_true]
          exact accept_following h
      | fresh hnone => simp [hbuffer] at hnone
      | held c hnone => simp [hbuffer] at hnone
  | none =>
      cases hcompleted : r.completed with
      | none => exact openFor_following h hbuffer hawaits
      | some c =>
          by_cases hrepeats : c.repeats (following total done payload)
          · have htotal : c.total = total := by
              simp only [Completed.repeats, Bool.and_eq_true, beq_iff_eq] at hrepeats
              exact hrepeats.1
            have hcopies : c.held = Slots.row 0 done := by
              cases hawaits with
              | opened since hopen => simp [hbuffer] at hopen
              | fresh _ hnone => simp [hcompleted] at hnone
              | held c' _ hsome hcopies =>
                  obtain rfl : c = c' := by simpa [hcompleted] using hsome
                  exact hcopies
            simp only [hrepeats, if_true]
            exact hold_following h hbuffer hcopies htotal
          · simp only [hrepeats, Bool.false_eq_true, if_false]
            exact openFor_following h hbuffer hawaits

end Next

end Reassembler

end BleBridge.Frame
