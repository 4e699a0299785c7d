import BleBridge.Proofs.Frame.Gather

/-!
# What is counted

A reassembler counts the open messages that it gave up and the packets that it
dropped.  Each packet is there at most once to be dropped, as it comes or later
with the held copies, and it opens at most one message to be given up.  So with
what may still be added to them, the counts stay below the number of packets that
came (`Tallied.pushAll`), whatever the packets are and whenever they come.
-/

namespace BleBridge.Frame

theorem Slots.length_insert_le (s : Slots) (i : UInt16) (payload : Bytes) :
    (s.insert i payload).length ≤ s.length + 1 := by
  induction s with
  | nil => exact le_refl _
  | cons slot s ih =>
      rw [Slots.insert]
      split
      · exact le_refl _
      · split
        · exact Nat.le_succ _
        · exact Nat.succ_le_succ ih

namespace Reassembler

variable {r : Reassembler} {p : Packet} {now count : Nat} {c : Completed}

/-- The number of held copies. -/
def copies (r : Reassembler) : Nat := r.completed.elim 0 fun c ↦ c.held.length

/-- The number of open messages. -/
def opened (r : Reassembler) : Nat := if r.buffer.isSome then 1 else 0

/-- The counts account for no more than `count` packets. -/
structure Tallied (count : Nat) (r : Reassembler) : Prop where
  evicted : r.evicted + r.opened ≤ count
  discarded : r.discarded + r.copies ≤ count

theorem tallied_new (maxAge : Option Nat) : Tallied 0 (Reassembler.new maxAge) :=
  ⟨le_refl 0, le_refl 0⟩

theorem Tallied.evictStale (h : Tallied count r) (now : Nat) :
    Tallied count (r.evictStale now).1 := by
  have hcompleted : Tallied count (r.dropCompleted now) := by
    rw [dropCompleted]
    split
    · rename_i c hc
      split
      · have hdiscarded := h.discarded
        rw [copies, hc] at hdiscarded
        exact ⟨h.evicted, hdiscarded⟩
      · exact h
    · exact h
  rw [Reassembler.evictStale, dropBuffer]
  split
  · rename_i b hb
    split
    · have hevicted := hcompleted.evicted
      rw [opened, hb] at hevicted
      exact ⟨hevicted, hcompleted.discarded⟩
    · exact hcompleted
  · exact hcompleted

/-! ## One packet -/

/-- A message is open or complete, and the packet may have been dropped. -/
theorem tallied_accept (hevicted : r.evicted ≤ count) (hdiscarded : r.discarded + r.copies ≤ count)
    (b : OpenMessage) (p : Packet) (now : Nat) : Tallied (count + 1) (r.accept b p now).next := by
  have hnone : r.discarded ≤ count + 1 := by omega
  rw [accept]
  split
  · refine ⟨Nat.succ_le_succ hevicted, ?_⟩
    show r.discarded + 1 + r.copies ≤ count + 1
    omega
  · dsimp only
    generalize (if b.received.has p.index then b.received
      else b.received.insert p.index p.payload) = received
    split
    · exact ⟨Nat.le_succ_of_le hevicted, hnone⟩
    · exact ⟨Nat.succ_le_succ hevicted, Nat.le_succ_of_le hdiscarded⟩

/-- One more copy is held, or none when the message is there again in full. -/
theorem tallied_hold (hcompleted : r.completed = some c) (h : Tallied count r) :
    Tallied (count + 1) (r.hold c p now).next := by
  have hevicted : r.evicted + r.opened ≤ count + 1 := Nat.le_succ_of_le h.evicted
  have hinsert := Slots.length_insert_le c.held p.index p.payload
  have hdiscarded := h.discarded
  rw [copies, hcompleted, Option.elim_some] at hdiscarded
  rw [hold]
  split
  · refine ⟨hevicted, ?_⟩
    show r.discarded + (c.held.insert p.index p.payload).length ≤ count + 1
    omega
  · refine ⟨hevicted, ?_⟩
    show r.discarded + 0 ≤ count + 1
    omega

theorem tallied_openFor (h : Tallied count r) : Tallied (count + 1) (r.openFor p now).next := by
  have hevicted : r.evicted ≤ count := Nat.le_of_add_right_le h.evicted
  rw [openFor]
  split
  · exact tallied_accept hevicted h.discarded _ p now
  · rename_i c hcompleted
    have hdiscarded := h.discarded
    rw [copies, hcompleted, Option.elim_some] at hdiscarded
    have hdropped : (c.held.filter (!precedes c p ·)).length ≤ c.held.length :=
      List.length_filter_le _ _
    -- the copies that are dropped here are no longer held
    let cleared : Reassembler := { r with
      completed := none, discarded := r.discarded + (c.held.filter (!precedes c p ·)).length }
    have hcleared : cleared.discarded + cleared.copies ≤ count := by
      show r.discarded + (c.held.filter (!precedes c p ·)).length + 0 ≤ count
      omega
    obtain ⟨hopened, hcopies⟩ : Tallied (count + 1)
        (cleared.accept ⟨p.total, c.held.filter (precedes c p), now⟩ p now).next :=
      tallied_accept (r := cleared) hevicted hcleared _ p now
    exact ⟨hopened, hcopies⟩

theorem tallied_take (h : Tallied count r) : Tallied (count + 1) (r.take p now).next := by
  have hdiscarded : r.discarded + r.copies ≤ count := h.discarded
  rw [take]
  split
  · refine ⟨Nat.le_succ_of_le h.evicted, ?_⟩
    show r.discarded + 1 + r.copies ≤ count + 1
    omega
  · split
    · rename_i b hbuffer
      have hevicted : r.evicted + 1 ≤ count := by
        have hevicted := h.evicted
        rwa [opened, hbuffer] at hevicted
      split
      · exact tallied_accept (Nat.le_of_succ_le hevicted) hdiscarded _ p now
      · exact tallied_accept (r := { r with buffer := none, evicted := r.evicted + 1 }) hevicted
          hdiscarded _ p now
    · rename_i hbuffer
      split
      · rename_i c hcompleted
        split
        · exact tallied_hold hcompleted h
        · exact tallied_openFor h
      · exact tallied_openFor h

theorem Tallied.push (h : Tallied count r) (p : Packet) (now : Nat) :
    Tallied (count + 1) (r.push p now).next :=
  tallied_take (h.evictStale now)

theorem Tallied.pushAll (h : Tallied count r) (l : List (Packet × Nat)) :
    Tallied (count + l.length) (r.pushAll l) := by
  induction l generalizing r count with
  | nil => exact h
  | cons timed l ih =>
      rw [List.length_cons, Nat.add_comm l.length, ← Nat.add_assoc]
      exact ih (h.push timed.1 timed.2)

end Reassembler

end BleBridge.Frame
