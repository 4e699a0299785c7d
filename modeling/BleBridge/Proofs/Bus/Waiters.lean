import BleBridge.Bus.Client
import Mathlib.Data.List.Basic

/-!
# Waiters and slots

What the steps of requests and of responses do to the table of waiters and to the
slots.  Most of them only take away: waiters go, and slots become unusable
(`Fades`).  A waiter comes into the table only when a request registers, and a
slot is filled only by the last step of a delivery (`delivers`).
-/

namespace BleBridge.Bus

/-- The request whose waiter a delivery has taken. -/
def Delivery.ticket? : Delivery → Option Nat
  | .taken _ ticket | .noted _ ticket => some ticket
  | .arrived _ | .unanswered _ | .done => none

section

variable (e : Envelope) (ticket : Nat)

@[simp] theorem Delivery.ticket?_arrived : (arrived e).ticket? = none := rfl
@[simp] theorem Delivery.ticket?_unanswered : (unanswered e).ticket? = none := rfl
@[simp] theorem Delivery.ticket?_taken : (taken e ticket).ticket? = some ticket := rfl
@[simp] theorem Delivery.ticket?_noted : (noted e ticket).ticket? = some ticket := rfl
@[simp] theorem Delivery.ticket?_done : done.ticket? = none := rfl

end

/-- The response that is being delivered. -/
def Delivery.envelope? : Delivery → Option Envelope
  | .arrived e | .unanswered e | .taken e _ | .noted e _ => some e
  | .done => none

@[simp] theorem Delivery.envelope?_done : done.envelope? = none := rfl

/-- Whether a request may have put its waiter into the table. -/
def Phase.hasRegistered : Phase → Bool
  | .fresh | .checked => false
  | .registered | .waiting _ | .ended _ => true

/-- Whether a request has registered and goes on. -/
def Phase.isOpen : Phase → Bool
  | .registered | .waiting _ => true
  | .fresh | .checked | .ended _ => false

/-- How far a call is. -/
def Phase.rank : Phase → Nat
  | .fresh => 0
  | .checked => 1
  | .registered => 2
  | .waiting _ => 3
  | .ended _ => 4

theorem Phase.hasRegistered_iff {phase : Phase} : phase.hasRegistered ↔ 2 ≤ phase.rank := by
  cases phase <;> simp [hasRegistered, rank]

theorem Phase.rank_le (phase : Phase) : phase.rank ≤ 4 := by
  cases phase <;> simp [rank]

namespace Client

variable {c c' c'' : Client} {id : String} {ticket : Nat} {e : Envelope}

/-! ## Slots -/

theorem slot_setSlot (c : Client) (ticket : Nat) (s : Slot) (t : Nat) :
    (c.setSlot ticket s).slot t = if t = ticket then s else c.slot t := by
  rw [slot, setSlot]
  by_cases h : t = ticket
  · simp [h]
  · have hother : ∀ p : Nat × Slot, decide ((p.1 != ticket) ∧ (p.1 == t)) = (p.1 == t) := by
      intro p
      by_cases hp : p.1 = t
      · simp [hp, h]
      · simp [hp]
    rw [List.find?_cons_of_neg (by simpa using Ne.symm h), List.find?_filter, if_neg h, slot]
    simp only [hother]

@[simp] theorem waiters_setSlot (c : Client) (ticket : Nat) (s : Slot) :
    (c.setSlot ticket s).waiters = c.waiters := rfl

/-! ## Steps that only take away -/

/-- Waiters go, and no slot is filled. -/
structure Fades (c c' : Client) : Prop where
  waiters : c'.waiters.Sublist c.waiters
  filled : ∀ t e, c'.slot t = .filled e → c.slot t = .filled e

theorem Fades.refl (c : Client) : Fades c c := ⟨.refl _, fun _ _ h ↦ h⟩

theorem Fades.trans (h : Fades c c') (h' : Fades c' c'') : Fades c c'' :=
  ⟨h'.waiters.trans h.waiters, fun t e hfilled ↦ h.filled t e (h'.filled t e hfilled)⟩

/-- Neither the waiters nor the slots are touched. -/
theorem fades_of_eq (hwaiters : c'.waiters = c.waiters) (hslots : c'.slots = c.slots) :
    Fades c c' := by
  refine ⟨hwaiters ▸ .refl _, fun t e h ↦ ?_⟩
  rwa [slot, hslots] at h

theorem fades_setSlot (c : Client) (ticket : Nat) {s : Slot} (hs : ∀ e, s ≠ .filled e) :
    Fades c (c.setSlot ticket s) := by
  refine ⟨.refl _, fun t e h ↦ ?_⟩
  rw [slot_setSlot] at h
  split at h
  · exact absurd h (hs e)
  · exact h

theorem fades_dropSlot (c : Client) (ticket : Nat) : Fades c (c.dropSlot ticket) := by
  rw [dropSlot]
  split
  · exact fades_setSlot c ticket nofun
  · exact .refl c

theorem fades_withoutWaiter (c : Client) (id : String) : Fades c (c.withoutWaiter id) :=
  ⟨List.filter_sublist, fun _ _ h ↦ h⟩

theorem fades_unregister (c : Client) (id : String) : Fades c (c.unregister id) := by
  rw [unregister]
  split
  · exact (fades_withoutWaiter c id).trans (fades_dropSlot _ _)
  · exact .refl c

theorem fades_foldl {α : Type} {f : Client → α → Client} (hf : ∀ c x, Fades c (f c x))
    (xs : List α) (c : Client) : Fades c (xs.foldl f c) := by
  induction xs generalizing c with
  | nil => exact .refl c
  | cons x xs ih => exact (hf c x).trans (ih _)

theorem fades_endGraces (c : Client) (now : Millis) : Fades c (c.endGraces now) := by
  have hended : Fades c { c with graces := c.graces.filter (now < ·.2) } := fades_of_eq rfl rfl
  exact hended.trans (fades_foldl (fun c (g : String × Millis) ↦ fades_unregister c g.1) _ _)

theorem fades_cancel (c : Client) : Fades c c.cancel := by
  have hdropped : Fades c (c.waiters.foldl (fun c w ↦ c.dropSlot w.2) c) :=
    fades_foldl (fun c (w : String × Nat) ↦ fades_dropSlot c w.2) _ _
  exact hdropped.trans ⟨List.nil_sublist _, fun _ _ h ↦ h⟩

theorem fades_left (c : Client) (ticket : Nat) : Fades c (c.setSlot ticket .left) :=
  fades_setSlot c ticket nofun

/-- What is published goes out on the bus and changes nothing else at the client. -/
theorem exists_of_publish {topic : String} {events : List Event}
    (h : c.publish topic e = .ok (c', events)) :
    ∃ transport told, c.transport.publish ⟨topic, e.toBytes⟩ = .ok (transport, told) ∧
      c' = { c with transport } := by
  rw [publish] at h
  cases hconnected : c.ensureConnected with
  | error fault =>
      rw [hconnected] at h
      cases h
  | ok _ =>
      rw [hconnected] at h
      cases hpublish : c.transport.publish ⟨topic, e.toBytes⟩ with
      | error fault =>
          rw [hpublish] at h
          cases h
      | ok published =>
          rw [hpublish] at h
          cases h
          exact ⟨_, _, rfl, rfl⟩

/-! ## Requests -/

/-- What one step of a request can do. -/
inductive Advances (c : Client) (r : Request) : Client → Phase → Prop
  | registers (checked : r.phase = .checked) :
      Advances c r (c.register r.envelope.requestId r.ticket) .registered
  /-- The request gets on or waits on, and nothing happens to waiters and slots. -/
  | aside {c' : Client} {phase : Phase} (waiters : c'.waiters = c.waiters)
      (slots : c'.slots = c.slots) (isOpen : phase.isOpen → r.phase.isOpen)
      (registered : r.phase.hasRegistered → phase.hasRegistered)
      (answered : ∀ e, phase = .ended (.ok e) → r.phase = .ended (.ok e)) : Advances c r c' phase
  /-- The request ends, with a response only out of its slot, and leaves its slot. A waiter goes
  only when the request could not be published. -/
  | ends {c₁ c' : Client} {result : Except BridgeError Envelope}
      (earlier : c₁ = c ∨ c₁ = c.unregister r.envelope.requestId)
      (waiters : c'.waiters = c₁.waiters) (slots : c'.slots = (c₁.setSlot r.ticket .left).slots)
      (answered : ∀ e, result = .ok e → c.slot r.ticket = .filled e) :
      Advances c r c' (.ended result)

theorem advances (c : Client) (r : Request) (now : Millis) :
    ∃ phase, (c.advance r now).2.1 = { r with phase } ∧ Advances c r (c.advance r now).1 phase := by
  have hpass : ∃ phase, r = { r with phase } ∧ Advances c r c phase :=
    ⟨r.phase, rfl, .aside rfl rfl id id fun _ ↦ id⟩
  rw [advance]
  split
  · rename_i hphase
    split
    · exact ⟨_, rfl, .aside rfl rfl (by simp [Phase.isOpen]) (by simp [hphase, Phase.hasRegistered])
        (by simp)⟩
    · exact ⟨_, rfl, .aside rfl rfl (by simp [Phase.isOpen]) (fun _ ↦ rfl) (by simp)⟩
  · rename_i hphase
    exact ⟨_, rfl, .registers hphase⟩
  · rename_i hphase
    split
    · rename_i hpublish
      obtain ⟨_, _, -, rfl⟩ := exists_of_publish hpublish
      exact ⟨_, rfl, .aside rfl rfl (fun _ ↦ by rw [hphase]; rfl) (fun _ ↦ rfl) (by simp)⟩
    · exact ⟨_, rfl, .ends (.inr rfl) rfl rfl (by simp)⟩
  · rename_i due hphase
    split
    · rename_i e hslot
      refine ⟨_, rfl, .ends (.inl rfl) rfl rfl fun e' he ↦ ?_⟩
      cases he
      exact hslot
    · exact ⟨_, rfl, .ends (.inl rfl) rfl rfl (by simp)⟩
    · split
      · exact ⟨_, rfl, .ends (.inl rfl) rfl rfl (by simp)⟩
      · exact hpass
    · split
      · exact ⟨_, rfl, .ends (.inl rfl) rfl rfl (by simp)⟩
      · exact hpass
  · exact hpass

/-- A step of a request that registers nothing: the request ends with a response only if that lay in
its slot. -/
structure Ages (c : Client) (r : Request) (c' : Client) (phase : Phase) : Prop where
  fades : Fades c c'
  registered : r.phase.hasRegistered → phase.hasRegistered
  answered : ∀ e, phase = .ended (.ok e) → r.phase = .ended (.ok e) ∨ c.slot r.ticket = .filled e

/-- Every step of a request but one takes away at most. -/
theorem advance_cases (c : Client) (r : Request) (now : Millis) :
    (r.phase = .checked ∧ (c.advance r now).1 = c.register r.envelope.requestId r.ticket ∧
        (c.advance r now).2.1 = { r with phase := .registered }) ∨
      ∃ phase, (c.advance r now).2.1 = { r with phase } ∧ Ages c r (c.advance r now).1 phase := by
  obtain ⟨phase, hr, hstep⟩ := c.advances r now
  generalize (c.advance r now).1 = c' at hstep ⊢
  cases hstep with
  | registers checked => exact .inl ⟨checked, rfl, hr⟩
  | aside waiters slots _ registered answered =>
      exact .inr ⟨_, hr, fades_of_eq waiters slots, registered, fun e he ↦ .inl (answered e he)⟩
  | @ends c₁ _ _ earlier waiters slots answered =>
      have hearlier : Fades c c₁ := by
        rcases earlier with rfl | rfl
        · exact .refl _
        · exact fades_unregister c _
      refine .inr ⟨_, hr, (hearlier.trans (fades_left c₁ r.ticket)).trans
        (fades_of_eq waiters slots), fun _ ↦ rfl, fun e he ↦ .inr (answered e ?_)⟩
      cases he
      rfl

/-- A request only gets further. -/
theorem rank_advance (c : Client) (r : Request) (now : Millis) :
    r.phase.rank ≤ (c.advance r now).2.1.phase.rank := by
  rw [advance]
  split
  · rename_i hphase
    rw [hphase]
    exact Nat.zero_le _
  · rename_i hphase
    rw [hphase]
    exact Nat.le_succ 1
  · rename_i hphase
    rw [hphase]
    split
    · exact Nat.le_succ 2
    · exact Nat.le_add_right 2 2
  · split
    · exact Phase.rank_le _
    · exact Phase.rank_le _
    · split
      · exact Phase.rank_le _
      · exact Nat.le_refl _
    · split
      · exact Phase.rank_le _
      · exact Nat.le_refl _
  · exact Nat.le_refl _

theorem waiters_register (c : Client) (id : String) (ticket : Nat) :
    ∃ earlier, (c.register id ticket).waiters = (id, ticket) :: earlier ∧
      earlier.Sublist c.waiters ∧
      ∀ t e, (c.register id ticket).slot t = .filled e → c.slot t = .filled e := by
  have hfades : Fades c ((c.unregister id).setSlot ticket .empty) :=
    (fades_unregister c id).trans (fades_setSlot _ ticket nofun)
  exact ⟨_, rfl, hfades.waiters, hfades.filled⟩

/-! ## Responses -/

/-- A waiter that is found stands in the table, and then no more. -/
theorem waiters_withoutWaiter (c : Client) (h : c.waiter? id = some ticket) :
    (id, ticket) ∈ c.waiters ∧
      ∀ t, (c.withoutWaiter id).waiters.countP (·.2 == t) + (if ticket = t then 1 else 0) ≤
        c.waiters.countP (·.2 == t) := by
  obtain ⟨⟨id', ticket'⟩, hfind, rfl⟩ := Option.map_eq_some_iff.mp h
  obtain rfl : id' = id := by simpa using List.find?_some hfind
  have hmem : (id', ticket') ∈ c.waiters := List.mem_of_find?_eq_some hfind
  refine ⟨hmem, fun t ↦ ?_⟩
  have hcount := List.countP_eq_countP_filter_add c.waiters (·.2 == t) (·.1 != id')
  have hkept : (c.withoutWaiter id').waiters = c.waiters.filter (·.1 != id') := rfl
  rw [hkept]
  split
  · rename_i ht
    have hfound : 0 < (c.waiters.filter fun w ↦ !(w.1 != id')).countP (·.2 == t) :=
      List.countP_pos_iff.mpr ⟨_, List.mem_filter.mpr ⟨hmem, by simp⟩, by simpa using ht⟩
    omega
  · omega

/-- The request to which the next step of a delivery hands its response. -/
def handing (c : Client) : Delivery → Option Nat
  | .noted _ ticket =>
      match c.slot ticket with
      | .empty => some ticket
      | _ => none
  | _ => none

/-- What one step of a delivery can do. -/
inductive Delivers (c : Client) : Delivery → Client → Delivery → Prop
  /-- The delivery comes to nothing, or gets on with what it has. It loses a waiter only when that
  has no use for the response. -/
  | aside {d d' : Delivery} {c' : Client} (waiters : c'.waiters = c.waiters)
      (slots : c'.slots = c.slots) (handing : c.handing d = none)
      (ticket : ∀ t, d'.ticket? = some t → d.ticket? = some t)
      (kept : ∀ t, d.ticket? = some t → c.slot t = .empty → d'.ticket? = some t)
      (envelope : ∀ e, d'.envelope? = some e → d.envelope? = some e) : Delivers c d c' d'
  | takes {e : Envelope} {ticket : Nat} (waiter : c.waiter? e.requestId = some ticket) :
      Delivers c (.unanswered e) (c.withoutWaiter e.requestId) (.taken e ticket)
  | hands {e : Envelope} {ticket : Nat} (handing : c.handing (.noted e ticket) = some ticket) :
      Delivers c (.noted e ticket) (c.setSlot ticket (.filled e)) .done

theorem delivers (c : Client) (d : Delivery) :
    Delivers c d (c.deliver d).1 (c.deliver d).2.1 := by
  cases d with
  | arrived e =>
      rw [deliver]
      split
      · exact .aside rfl rfl rfl (by simp) (by simp) (by simp)
      · exact .aside rfl rfl rfl (by simp) (by simp) fun _ ↦ id
  | unanswered e =>
      rw [deliver]
      split
      · rename_i hwaiter
        exact .takes hwaiter
      · exact .aside rfl rfl rfl (by simp) (by simp) (by simp)
  | taken e ticket => exact .aside rfl rfl rfl (fun _ ↦ id) (fun _ h _ ↦ h) fun _ ↦ id
  | noted e ticket =>
      rw [deliver]
      split
      · rename_i hslot
        exact .hands (by rw [handing, hslot])
      · rename_i hslot
        refine .aside rfl rfl ?_ (by simp) (fun t ht hempty ↦ ?_) (by simp)
        · rw [handing]
          split
          · rename_i hempty
            exact absurd hempty hslot
          · rfl
        · cases ht
          exact absurd hempty hslot
  | done => exact .aside rfl rfl rfl (fun _ ↦ id) (fun _ h _ ↦ h) fun _ ↦ id

/-- A step hands a response over if and only if it fills a slot. -/
theorem handing_eq_some_iff (c : Client) (d : Delivery) (t : Nat) :
    c.handing d = some t ↔
      (∀ e, c.slot t ≠ .filled e) ∧ ∃ e, (c.deliver d).1.slot t = .filled e := by
  constructor
  · intro h
    cases d with
    | noted e ticket =>
        rw [handing] at h
        split at h
        · rename_i hslot
          cases h
          rw [deliver, hslot]
          exact ⟨nofun, e, by rw [slot_setSlot, if_pos rfl]⟩
        · cases h
    | _ => cases h
  · rintro ⟨hbefore, e, hafter⟩
    have hstep := delivers c d
    generalize (c.deliver d).1 = c' at hafter hstep
    generalize (c.deliver d).2.1 = d' at hstep
    cases hstep with
    | aside waiters slots =>
        exact absurd ((fades_of_eq waiters slots).filled t e hafter) (hbefore e)
    | takes => exact absurd hafter (hbefore e)
    | hands handing =>
        rw [slot_setSlot] at hafter
        split at hafter
        · rename_i heq
          rw [heq, handing]
        · exact absurd hafter (hbefore e)

end Client

end BleBridge.Bus
