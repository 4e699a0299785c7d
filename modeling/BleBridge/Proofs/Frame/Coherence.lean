import BleBridge.Proofs.Frame.Expiry
import BleBridge.Proofs.Frame.Provenance

/-!
# What a reassembler can hold

A reassembler knows that a message is complete by counting its packets, which is
right only if each of them has an index of its own below the total.  `Coherent`
says this of the open message, of the message delivered last and of its held
copies, and that there is never an open message beside a remembered one.

Nearly every push ends in `accept` or `hold`; both are told from what they are
given (`proceeds_accept`, `proceeds_hold`), and the cases in front of them only
have to show that they give the right thing.  It follows that a message which
counts as complete can be put together, so a packet is refused for a zero total
and for nothing else (`regular_performAll`).
-/

namespace BleBridge.Frame

/-! ## Putting together -/

namespace Slots

/-- The payloads under the indices below `total` in a row, those that are missing left out. -/
def contents (total : UInt16) (slot : UInt16 → Option Bytes) : Bytes :=
  ((List.range total.toNat).map fun k ↦ (slot (UInt16.ofNat k)).getD []).flatten

variable {total : UInt16} {slot : UInt16 → Option Bytes} {s : Slots} {k : Nat}

theorem ofNat_lt (hk : k < total.toNat) : UInt16.ofNat k < total := by
  rw [UInt16.lt_iff_toNat_lt, UInt16.toNat_ofNat_of_lt' (lt_trans hk total.toNat_lt_size)]
  exact hk

theorem assemble_eq_ok (h : ∀ i < total, (slot i).isSome) :
    assemble total slot = .ok (contents total slot) := by
  let payloads := (List.range total.toNat).map fun k ↦ (slot (UInt16.ofNat k)).getD []
  have hlength : payloads.length = total.toNat := by simp [payloads]
  have hgo : assemble.go total slot payloads.length 0 = .ok payloads.flatten := by
    refine assemble_go_eq_ok fun k hk ↦ ?_
    obtain ⟨payload, hpayload⟩ := Option.isSome_iff_exists.mp (h _ (ofNat_lt (hlength ▸ hk)))
    simp [payloads, hpayload]
  rw [hlength] at hgo
  exact hgo

/-- Slots that are as many as the packets of a message can be put together. -/
theorem Below.assemble_eq_ok (h : Below total s) (hlength : s.length = total.toNat) :
    assemble total s.get? = .ok (contents total s.get?) :=
  Slots.assemble_eq_ok (h.length_eq_iff.mp hlength)

end Slots

/-! ## The parts of a reassembler -/

/-- A message is open that lacks packets, and each packet that it has is its own. -/
structure OpenMessage.Partial (b : OpenMessage) : Prop where
  positive : 1 ≤ b.total.toNat
  below : Slots.Below b.total b.received
  lacks : b.received.length < b.total.toNat

/-- A message was delivered with all its packets, and its held copies are not yet all of them. -/
structure Completed.Whole (c : Completed) : Prop where
  indices : (c.payloads.map fun slot ↦ slot.1.toNat) = List.range c.total.toNat
  copies : c.held ⊆ c.payloads
  ascending : Slots.Ascending c.held
  lacks : c.held.length < c.total.toNat

namespace Completed

variable {c : Completed} {p : Packet}

theorem Whole.lt (h : Whole c) {slot : UInt16 × Bytes} (hslot : slot ∈ c.payloads) :
    slot.1 < c.total :=
  (Slots.isSome_get?_iff_of_indices h.indices).mp (Slots.isSome_get?_of_mem hslot)

theorem Whole.exists_payload (h : Whole c) {k : Nat} (hk : k < c.total.toNat) :
    ∃ payload, c.payloads.get? (UInt16.ofNat k) = some payload :=
  Option.isSome_iff_exists.mp
    ((Slots.isSome_get?_iff_of_indices h.indices).mpr (Slots.ofNat_lt hk))

theorem Whole.below (h : Whole c) : Slots.Below c.total c.held :=
  ⟨h.ascending, fun _ hslot ↦ h.lt (h.copies hslot)⟩

theorem repeats_iff :
    c.repeats p ↔ c.total = p.total ∧ c.payloads.get? p.index = some p.payload := by
  rw [repeats, Bool.and_eq_true, beq_iff_eq, beq_iff_eq]

/-- No packet beyond its own total repeats the message. -/
theorem Whole.index_lt (h : Whole c) (hrepeats : c.repeats p) : p.index < p.total := by
  obtain ⟨htotal, hpayload⟩ := repeats_iff.mp hrepeats
  exact htotal ▸ h.lt (Slots.mem_of_get? hpayload)

end Completed

namespace Reassembler

variable {r : Reassembler} {p : Packet} {now : Nat} {b : OpenMessage} {c : Completed}

structure Coherent (r : Reassembler) : Prop where
  apart : r.buffer = none ∨ r.completed = none
  buffer : ∀ b ∈ r.buffer, b.Partial
  completed : ∀ c ∈ r.completed, c.Whole

theorem coherent_new (maxAge : Option Nat) : Coherent (new maxAge) :=
  ⟨.inl rfl, forall_none, forall_none⟩

theorem Coherent.reset (r : Reassembler) : Coherent r.reset := ⟨.inl rfl, forall_none, forall_none⟩

/-! ## Forgetting -/

theorem parts_dropCompleted (r : Reassembler) (now : Nat) :
    (r.dropCompleted now).buffer = r.buffer ∧ (r.dropCompleted now).maxAge = r.maxAge := by
  rw [dropCompleted]
  split
  · split <;> exact ⟨rfl, rfl⟩
  · exact ⟨rfl, rfl⟩

theorem maxAge_evictStale (r : Reassembler) (now : Nat) :
    (r.evictStale now).1.maxAge = r.maxAge := by
  rw [evictStale, dropBuffer, ← (parts_dropCompleted r now).2]
  split
  · split <;> rfl
  · rfl

theorem buffer_evictStale (r : Reassembler) (now : Nat) :
    (r.evictStale now).1.buffer = r.buffer.filter fun b ↦ !r.stale now b.startedAt := by
  obtain ⟨hbuffer, hage⟩ := parts_dropCompleted r now
  have hsame : ∀ since, (r.dropCompleted now).stale now since = r.stale now since := fun since ↦ by
    rw [stale, stale, hage]
  rw [evictStale, dropBuffer, hbuffer]
  cases hopen : r.buffer with
  | none => exact hbuffer.trans hopen
  | some b =>
      simp only [hsame, Option.filter_some]
      by_cases hstale : r.stale now b.startedAt
      · simp [hstale]
      · simp [hstale, hbuffer, hopen]

theorem completed_evictStale (r : Reassembler) (now : Nat) :
    (r.evictStale now).1.completed = r.completed.filter fun c ↦ !r.stale now c.completedAt := by
  have hdrop : (r.evictStale now).1.completed = (r.dropCompleted now).completed := by
    rw [evictStale, dropBuffer]
    split
    · split <;> rfl
    · rfl
  rw [hdrop, dropCompleted]
  cases hcompleted : r.completed with
  | none => exact hcompleted
  | some c =>
      rw [Option.filter_some]
      by_cases hstale : r.stale now c.completedAt
      · simp [hstale]
      · simp [hstale, hcompleted]

theorem Coherent.evictStale (h : Coherent r) (now : Nat) : Coherent (r.evictStale now).1 := by
  refine ⟨?apart, ?buffer, ?completed⟩
  case apart =>
    rw [buffer_evictStale, completed_evictStale]
    rcases h.apart with hnone | hnone
    · exact .inl (by rw [hnone]; rfl)
    · exact .inr (by rw [hnone]; rfl)
  case buffer =>
    intro b hb
    rw [buffer_evictStale, Option.mem_filter_iff] at hb
    exact h.buffer b hb.1
  case completed =>
    intro c hc
    rw [completed_evictStale, Option.mem_filter_iff] at hc
    exact h.completed c hc.1

/-! ## One packet -/

/-- The packet was taken without a fault. -/
structure Proceeds (pushed : Pushed) : Prop where
  coherent : Coherent pushed.next
  result : ∃ message, pushed.result = .ok message

theorem proceeds_accept (hcompleted : r.completed = none) (h : b.Partial) :
    Proceeds (r.accept b p now) := by
  rw [accept]
  split
  · refine ⟨⟨.inr hcompleted, ?_, hcompleted ▸ forall_none⟩, none, rfl⟩
    rintro b' ⟨⟩
    exact h
  · rename_i hinside
    have hbelow : Slots.Below b.total
        (if b.received.has p.index then b.received else b.received.insert p.index p.payload) := by
      split
      · exact h.below
      · exact h.below.insert (UInt16.not_le.mp hinside) p.payload
    dsimp only
    generalize (if b.received.has p.index then b.received
      else b.received.insert p.index p.payload) = received at hbelow ⊢
    by_cases hall : received.length = b.total.toNat
    · rw [if_pos hall]
      refine ⟨⟨.inl rfl, forall_none, ?_⟩, some _, by rw [hbelow.assemble_eq_ok hall]; rfl⟩
      rintro c ⟨⟩
      exact ⟨hbelow.indices_eq hall, List.nil_subset _, Slots.ascending_nil, h.positive⟩
    · rw [if_neg hall]
      refine ⟨⟨.inr hcompleted, ?_, hcompleted ▸ forall_none⟩, none, rfl⟩
      rintro b' ⟨⟩
      exact ⟨h.positive, hbelow, lt_of_le_of_ne hbelow.length_le hall⟩

theorem proceeds_hold (hbuffer : r.buffer = none) (h : c.Whole) (hrepeats : c.repeats p) :
    Proceeds (r.hold c p now) := by
  obtain ⟨htotal, hpayload⟩ := Completed.repeats_iff.mp hrepeats
  have hbelow : Slots.Below c.total (c.held.insert p.index p.payload) :=
    h.below.insert (htotal ▸ h.index_lt hrepeats) p.payload
  have hcopies : c.held.insert p.index p.payload ⊆ c.payloads := by
    intro slot hslot
    rcases Slots.mem_insert hslot with rfl | hslot
    · exact Slots.mem_of_get? hpayload
    · exact h.copies hslot
  rw [hold]
  generalize c.held.insert p.index p.payload = held at hbelow hcopies ⊢
  split
  · rename_i hlacks
    refine ⟨⟨.inl hbuffer, hbuffer ▸ forall_none, ?_⟩, none, rfl⟩
    rintro c' ⟨⟩
    exact ⟨h.indices, hcopies, hbelow.ascending, hlacks⟩
  · rename_i hlacks
    have hall : held.length = c.total.toNat := le_antisymm hbelow.length_le (not_lt.mp hlacks)
    refine ⟨⟨.inl hbuffer, hbuffer ▸ forall_none, ?_⟩, some _,
      by rw [hbelow.assemble_eq_ok hall]; rfl⟩
    rintro c' ⟨⟩
    exact ⟨h.indices, List.nil_subset _, Slots.ascending_nil,
      lt_of_le_of_lt (Nat.zero_le _) h.lacks⟩

/-- A message starts without packets. -/
theorem partial_fresh (hpositive : p.total ≠ 0) (now : Nat) :
    OpenMessage.Partial ⟨p.total, [], now⟩ := by
  have hpos : 1 ≤ p.total.toNat :=
    Nat.pos_of_ne_zero fun hzero ↦ hpositive (UInt16.toNat_inj.mp hzero)
  exact ⟨hpos, Slots.below_nil _, hpos⟩

/-- The held copies that go with a packet are fewer than its message has. -/
theorem partial_kept (hpositive : p.total ≠ 0) (h : c.Whole) (now : Nat) :
    OpenMessage.Partial ⟨p.total, c.held.filter (precedes c p), now⟩ := by
  obtain ⟨hpos, hnil, -⟩ := partial_fresh hpositive now
  by_cases htotal : c.total = p.total
  · refine ⟨hpos, htotal ▸ h.below.filter _, ?_⟩
    exact lt_of_le_of_lt (List.length_filter_le _ _) (htotal ▸ h.lacks)
  · have hnone : c.held.filter (precedes c p) = [] := by
      rw [List.filter_eq_nil_iff]
      intro slot _
      simp [precedes, htotal]
    rw [hnone]
    exact ⟨hpos, hnil, hpos⟩

theorem proceeds_openFor (hpositive : p.total ≠ 0) (h : Coherent r) :
    Proceeds (r.openFor p now) := by
  rw [openFor]
  cases hcompleted : r.completed with
  | none => exact proceeds_accept hcompleted (partial_fresh hpositive now)
  | some c =>
      obtain ⟨hcoherent, hresult⟩ : Proceeds (accept _ _ p now) :=
        proceeds_accept (r := { r with
            completed := none
            discarded := r.discarded + (c.held.filter (!precedes c p ·)).length })
          rfl (partial_kept hpositive (h.completed c hcompleted) now)
      exact ⟨hcoherent, hresult⟩

theorem proceeds_take (hpositive : p.total ≠ 0) (h : Coherent r) : Proceeds (r.take p now) := by
  rw [take, if_neg hpositive]
  cases hbuffer : r.buffer with
  | some b =>
      have hcompleted : r.completed = none := h.apart.resolve_left (by simp [hbuffer])
      dsimp only
      split
      · exact proceeds_accept hcompleted (h.buffer b hbuffer)
      · obtain ⟨hcoherent, hresult⟩ : Proceeds (accept _ _ p now) :=
          proceeds_accept (r := { r with buffer := none, evicted := r.evicted + 1 }) hcompleted
            (partial_fresh hpositive now)
        exact ⟨hcoherent, hresult⟩
  | none =>
      cases hcompleted : r.completed with
      | none => exact proceeds_openFor hpositive h
      | some c =>
          dsimp only
          split
          · rename_i hrepeats
            exact proceeds_hold hbuffer (h.completed c hcompleted) hrepeats
          · exact proceeds_openFor hpositive h

theorem Coherent.push_of_positive (h : Coherent r) (hpositive : p.total ≠ 0) (now : Nat) :
    Proceeds (r.push p now) := by
  obtain ⟨hcoherent, hresult⟩ : Proceeds ((r.evictStale now).1.take p now) :=
    proceeds_take hpositive (h.evictStale now)
  exact ⟨hcoherent, hresult⟩

/-- A packet of no message ends the open one, and leaves the message delivered last. -/
theorem push_of_zero (r : Reassembler) (now : Nat) (hzero : p.total = 0) :
    (r.push p now).result = .error (.frame (.zeroTotal p.index)) ∧
      (r.push p now).next.buffer = none ∧
      (r.push p now).next.completed = (r.evictStale now).1.completed := by
  simp [push, take, hzero]

theorem Coherent.push (h : Coherent r) : Coherent (r.push p now).next := by
  by_cases hzero : p.total = 0
  · obtain ⟨-, hbuffer, hcompleted⟩ := push_of_zero r now hzero
    exact ⟨.inl hbuffer, hbuffer ▸ forall_none, hcompleted ▸ (h.evictStale now).completed⟩
  · exact (h.push_of_positive hzero now).coherent

/-! ## Every run -/

/-- What can be relied on between two calls. -/
structure Regular (r : Reassembler) : Prop extends Coherent r where
  pending_lt : ∀ received total, r.pending = some (received, total) → received < total.toNat
  error_iff : ∀ p now fault, (r.push p now).result = .error fault ↔
    p.total = 0 ∧ fault = .frame (.zeroTotal p.index)
  not_missing : ∀ p now index total, (r.push p now).result ≠ .error (.missingPacket index total)
  aborts : ∀ p now, p.total = 0 → (r.push p now).next.buffer = none

theorem Coherent.push_eq_error_iff (h : Coherent r) {fault : Fault} :
    (r.push p now).result = .error fault ↔
      p.total = 0 ∧ fault = .frame (.zeroTotal p.index) := by
  by_cases hzero : p.total = 0
  · rw [(push_of_zero r now hzero).1]
    constructor
    · rintro ⟨⟩
      exact ⟨hzero, rfl⟩
    · rintro ⟨-, rfl⟩
      rfl
  · obtain ⟨message, hresult⟩ := (h.push_of_positive hzero now).result
    rw [hresult]
    constructor
    · rintro ⟨⟩
    · rintro ⟨hzero', -⟩
      exact absurd hzero' hzero

theorem Coherent.regular (h : Coherent r) : Regular r := by
  refine ⟨h, ?pending, fun _ _ _ ↦ h.push_eq_error_iff, ?missing,
    fun _ _ hzero ↦ (push_of_zero _ _ hzero).2.1⟩
  case pending =>
    intro received total hpending
    obtain ⟨b, hb, heq⟩ := Option.map_eq_some_iff.mp hpending
    cases heq
    exact (h.buffer b hb).lacks
  case missing =>
    intro p now index total hresult
    obtain ⟨-, hfault⟩ := h.push_eq_error_iff.mp hresult
    cases hfault

theorem coherent_performAll (maxAge : Option Nat) (calls : List Call) :
    Coherent ((new maxAge).performAll calls) := by
  induction calls using List.reverseRecOn with
  | nil => exact coherent_new maxAge
  | append_singleton calls c ih =>
      rw [performAll_append_singleton]
      cases c with
      | push p now => exact ih.push
      | reset => exact Coherent.reset _

theorem maxAge_push (r : Reassembler) (p : Packet) (now : Nat) :
    (r.push p now).next.maxAge = r.maxAge := by
  rw [← maxAge_evictStale r now]
  exact maxAge_take _ p now

theorem maxAge_performAll (maxAge : Option Nat) (calls : List Call) :
    ((new maxAge).performAll calls).maxAge = maxAge := by
  induction calls using List.reverseRecOn with
  | nil => rfl
  | append_singleton calls c ih =>
      rw [performAll_append_singleton]
      cases c with
      | push p now => exact (maxAge_push _ p now).trans ih
      | reset => exact ih

/-- Whatever is pushed, at whatever times, and whenever the reassembler is reset: the open message
lacks packets, the remembered one has exactly its own, there is at most one of the two, and a
packet is refused exactly for a zero total. -/
theorem regular_performAll (maxAge : Option Nat) (calls : List Call) :
    Regular ((new maxAge).performAll calls) :=
  (coherent_performAll maxAge calls).regular

end Reassembler

end BleBridge.Frame
