import BleBridge.Proofs.Service.Site
import Mathlib.Data.List.Induction

/-!
# Subscriptions by their history

Whether a topic is live can be told from what has happened.  An errand that asks the
bus for a channel has been `Given` one from then on until it goes on to listen to it,
unless the bus is left before that; a subscription that has begun on such a channel is
`Unbroken` until all subscriptions are cancelled or the bus is left.  A topic is live
if and only if there is an unbroken subscription to it (`unbroken_iff`): whether the
topic is noted, or the service takes itself for subscribed, has no part in it.

Both are of the form `Since`: something has happened, and since then something else
has not.
-/

namespace BleBridge.Service

/-- An element has begun it, in view of those in front of it, and all later ones have kept it up. -/
inductive Since {α : Type} (begins keeps : List α → α → Prop) : List α → Prop where
  | begin {xs : List α} {x : α} (h : begins xs x) : Since begins keeps (xs ++ [x])
  | keep {xs : List α} {x : α} (h : Since begins keeps xs) (hkeeps : keeps xs x) :
      Since begins keeps (xs ++ [x])

section Since

variable {α : Type} {begins keeps : List α → α → Prop} {xs : List α} {x : α}

theorem not_since_nil : ¬ Since begins keeps [] := by
  generalize hnil : ([] : List α) = xs
  intro h
  cases h <;> exact absurd hnil.symm (List.concat_ne_nil _ _)

theorem since_concat_iff :
    Since begins keeps (xs ++ [x]) ↔ begins xs x ∨ Since begins keeps xs ∧ keeps xs x := by
  constructor
  · generalize hlong : xs ++ [x] = long
    intro h
    cases h with
    | begin h =>
        obtain ⟨rfl, heq⟩ := List.append_inj' hlong rfl
        cases heq
        exact .inl h
    | keep h hkeeps =>
        obtain ⟨rfl, heq⟩ := List.append_inj' hlong rfl
        cases heq
        exact .inr ⟨h, hkeeps⟩
  · rintro (h | ⟨h, hkeeps⟩)
    · exact .begin h
    · exact .keep h hkeeps

/-- What does not hold at first, and comes and goes in the same way, is the same. -/
theorem since_iff {P : List α → Prop} (hnil : ¬ P [])
    (hconcat : ∀ xs x, P (xs ++ [x]) ↔ begins xs x ∨ P xs ∧ keeps xs x) :
    Since begins keeps xs ↔ P xs := by
  induction xs using List.reverseRecOn with
  | nil => exact iff_of_false not_since_nil hnil
  | append_singleton xs x ih => rw [since_concat_iff, hconcat, ih]

end Since

namespace Site

open Bench (Device)

variable {c : Commands} {s : Site} {acts : List Act} {topic : String} {n : Nat}

/-- The bus has given a channel for the topic to the errand at `n`, which does not listen to it
yet, and the bus has not been left since. -/
def Given (c : Commands) (s : Site) (topic : String) (n : Nat) : List Act → Prop :=
  Since
    (fun acts a ↦ a = .proceed n ∧ (s.run c acts).turn? n = some (.attach topic) ∧
      (s.run c acts).world.CanAttach topic)
    fun acts a ↦ a ≠ .proceed n ∧ ¬ (s.run c acts).Leaves a

/-- An errand has begun to listen to the channel that it was given for the topic, and since then no
subscriptions have been cancelled and the bus has not been left. -/
def Unbroken (c : Commands) (s : Site) (topic : String) : List Act → Prop :=
  Since (fun acts a ↦ ∃ n, a = .proceed n ∧ Given c s topic n acts)
    fun acts a ↦ ¬ (s.run c acts).Cancels a ∧ ¬ (s.run c acts).Leaves a

theorem run_concat (c : Commands) (s : Site) (acts : List Act) (a : Act) :
    s.run c (acts ++ [a]) = (s.run c acts).step c a :=
  List.foldl_concat ..

variable {settings : Config.Mux} {device : Device}

/-- An errand holds a channel that is alive if and only if it has been given one. -/
theorem given_iff : Given c (.new settings device) topic n acts ↔
    ((Site.new settings device).run c acts).Holds topic n := by
  apply since_iff
  · rintro ⟨k, hturn, -⟩
    cases hturn
  · intro acts a
    rw [run_concat]
    exact ((orderly_new settings device).run c acts).holds_step_iff

/-- A topic is live if and only if there is an unbroken subscription to it. -/
theorem unbroken_iff : Unbroken c (.new settings device) topic acts ↔
    ((Site.new settings device).run c acts).world.Live topic := by
  apply since_iff
  · rintro ⟨l, hl, -⟩
    cases hl
  · intro acts a
    simp only [run_concat, given_iff]
    exact ((orderly_new settings device).run c acts).live_step_iff

end Site

end BleBridge.Service
