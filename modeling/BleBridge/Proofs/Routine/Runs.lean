import BleBridge.Routine

/-!
# Runs of a routine

A run is the calls that a routine makes, with the answers that it gets
(`Routine.Runs`).  A run of two routines one after the other is a run of the first
with one of the second behind it, and an attempt that fails ends the run
(`Attempt.runs_bind_iff`).  Of all that a run exchanges, the multiplexer gets the orders
and gives the replies.
-/

namespace BleBridge

namespace Routine

variable {α β : Type}

/-- A call and what was answered to it. -/
abbrev Exchange : Type := (c : Call) × c.Answer

/-- The routine may make these calls, get these answers and end with the result. -/
def Runs : Routine α → List Exchange → α → Prop
  | .done a, t, b => t = [] ∧ b = a
  | .call c next, t, b => ∃ answer t', t = ⟨c, answer⟩ :: t' ∧ (next answer).Runs t' b

theorem runs_bind_iff {p : Routine α} {f : α → Routine β} {t : List Exchange} {b : β} :
    (p.bind f).Runs t b ↔ ∃ t₁ t₂ a, t = t₁ ++ t₂ ∧ p.Runs t₁ a ∧ (f a).Runs t₂ b := by
  induction p generalizing t with
  | done a =>
      constructor
      · exact fun h ↦ ⟨[], t, a, rfl, ⟨rfl, rfl⟩, h⟩
      · rintro ⟨_, _, _, rfl, ⟨rfl, rfl⟩, h⟩
        exact h
  | call c next ih =>
      constructor
      · rintro ⟨answer, t', rfl, h⟩
        obtain ⟨t₁, t₂, a, rfl, hfirst, hsecond⟩ := (ih answer).mp h
        exact ⟨_, t₂, a, rfl, ⟨answer, t₁, rfl, hfirst⟩, hsecond⟩
      · rintro ⟨_, t₂, a, rfl, ⟨answer, t', rfl, hfirst⟩, hsecond⟩
        exact ⟨answer, _, rfl, (ih answer).mpr ⟨t', t₂, a, rfl, hfirst, hsecond⟩⟩

/-! ## The multiplexer's part -/

/-- The order that a call hands to the multiplexer. -/
def order? : Exchange → Option Mux.Order
  | ⟨.enqueue o, _⟩ => some o
  | _ => none

/-- What the multiplexer replies to a call. -/
def reply? : Exchange → Option (Except BridgeError String)
  | ⟨.enqueue _, reply⟩ => some reply
  | _ => none

/-- What a run hands to the multiplexer, in order. -/
def orders (t : List Exchange) : List Mux.Order := t.filterMap order?

/-- What a run gets back for it. -/
def replies (t : List Exchange) : List (Except BridgeError String) := t.filterMap reply?

theorem orders_append (t t' : List Exchange) : orders (t ++ t') = orders t ++ orders t' :=
  List.filterMap_append

theorem replies_append (t t' : List Exchange) : replies (t ++ t') = replies t ++ replies t' :=
  List.filterMap_append

theorem exists_of_mem_replies {t : List Exchange} {reply : Except BridgeError String}
    (h : reply ∈ replies t) : ∃ o ∈ orders t, ⟨.enqueue o, reply⟩ ∈ t := by
  obtain ⟨⟨c, answer⟩, hmem, hreply⟩ := List.mem_filterMap.mp h
  cases c with
  | enqueue o =>
      cases hreply
      exact ⟨o, List.mem_filterMap.mpr ⟨_, hmem, rfl⟩, hmem⟩
  | _ => cases hreply

end Routine

namespace Attempt

open Routine (Exchange)

variable {α β : Type} {p : Attempt α} {f : α → Attempt β} {t : List Exchange}

theorem runs_bind_iff {b : Except BridgeError β} : (p >>= f).run.Runs t b ↔
    (∃ e, p.run.Runs t (.error e) ∧ b = .error e) ∨
      ∃ t₁ t₂ a, t = t₁ ++ t₂ ∧ p.run.Runs t₁ (.ok a) ∧ (f a).run.Runs t₂ b := by
  refine Routine.runs_bind_iff.trans ?_
  constructor
  · rintro ⟨t₁, t₂, a, rfl, hp, hf⟩
    cases a with
    | error e =>
        obtain ⟨rfl, rfl⟩ := hf
        rw [List.append_nil]
        exact .inl ⟨e, hp, rfl⟩
    | ok a => exact .inr ⟨t₁, t₂, a, rfl, hp, hf⟩
  · rintro (⟨e, hp, rfl⟩ | ⟨t₁, t₂, a, rfl, hp, hf⟩)
    · exact ⟨t, [], .error e, (List.append_nil t).symm, hp, rfl, rfl⟩
    · exact ⟨t₁, t₂, .ok a, rfl, hp, hf⟩

/-- What is settled without a call. -/
theorem runs_ofExcept_bind_iff {r : Except BridgeError α} {b : Except BridgeError β} :
    (ofExcept r >>= f).run.Runs t b ↔
      (∃ e, r = .error e ∧ t = [] ∧ b = .error e) ∨ ∃ a, r = .ok a ∧ (f a).run.Runs t b := by
  cases r with
  | error e =>
      constructor
      · exact fun ⟨ht, hb⟩ ↦ .inl ⟨e, rfl, ht, hb⟩
      · rintro (⟨_, ⟨⟩, ht, hb⟩ | ⟨_, ⟨⟩, -⟩)
        exact ⟨ht, hb⟩
  | ok a =>
      constructor
      · exact fun h ↦ .inr ⟨a, rfl, h⟩
      · rintro (⟨_, ⟨⟩, -⟩ | ⟨_, ⟨⟩, h⟩)
        exact h

end Attempt

end BleBridge
