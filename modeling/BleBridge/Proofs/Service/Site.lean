import BleBridge.Proofs.Bench.Errands
import BleBridge.Proofs.Bench.Happenings
import BleBridge.Service.Commands

/-!
# The service among others

A `Site` is a bench with errands on it: the service handles segments, and others
connect and disconnect, subscribe and publish.  All of them go on in any order, one
step at a time, with anything else in between that happens on the bench.

On a site that is `Orderly` no channel is held by two errands, or by an errand and a
listener.  So there is one way for a topic to become live: an errand begins to listen
to a channel that the bus has given to it, and the bus has not been left in between
(`Orderly.live_step_iff`, `Orderly.holds_step_iff`).
-/

namespace BleBridge.Service

open Bench (Device Errand Happening Turn World)
open Bench.World (Strides Tidy)

/-- An errand of the service, or of somebody else. -/
structure Chore where
  own : Bool
  errand : Errand

structure Site where
  world : World
  chores : List Chore := []

inductive Act where
  /-- A segment comes in for the service. -/
  | receive (segment : String)
  /-- Somebody else begins with a routine. -/
  | engage (p : Routine (Except BridgeError Unit))
  /-- An errand goes on by one step. -/
  | proceed (n : Nat)
  | happen (e : Happening)

namespace Site

def new (settings : Config.Mux) (device : Device) : Site := { world := .new settings device }

def proceed (s : Site) (n : Nat) : Site :=
  match s.chores[n]? with
  | some x =>
      { world := (s.world.stride x.own x.errand).1
        chores := s.chores.set n ⟨x.own, (s.world.stride x.own x.errand).2⟩ }
  | none => s

def step (c : Commands) (s : Site) : Act → Site
  | .receive segment => { s with chores := s.chores ++ [⟨true, .going (c.handle segment).run⟩] }
  | .engage p => { s with chores := s.chores ++ [⟨false, .going p⟩] }
  | .proceed n => s.proceed n
  | .happen e => { s with world := s.world.happen e }

def run (c : Commands) (acts : List Act) (s : Site) : Site := acts.foldl (step c) s

/-- What the next step of the errand at `n` is, if it is one that matters to subscriptions. -/
def turn? (s : Site) (n : Nat) : Option Turn := s.chores[n]?.bind (·.errand.turn?)

def turnOf? (s : Site) : Act → Option Turn
  | .proceed n => s.turn? n
  | _ => none

variable {c : Commands} {s : Site} {a : Act} {m n k : Nat} {topic topic' : String} {t : Turn}
  {x : Chore}

/-! ## Turns of the errands -/

theorem proceed_of_some (hn : s.chores[n]? = some x) : s.proceed n =
    { world := (s.world.stride x.own x.errand).1
      chores := s.chores.set n ⟨x.own, (s.world.stride x.own x.errand).2⟩ } := by
  rw [proceed, hn]

theorem proceed_of_none (hn : s.chores[n]? = none) : s.proceed n = s := by
  rw [proceed, hn]

theorem turn?_of_some (hn : s.chores[n]? = some x) : s.turn? n = x.errand.turn? := by
  rw [turn?, hn]
  rfl

theorem getElem?_proceed (hn : s.chores[n]? = some x) :
    (s.proceed n).chores[n]? = some ⟨x.own, (s.world.stride x.own x.errand).2⟩ := by
  obtain ⟨hlt, -⟩ := List.getElem?_eq_some_iff.mp hn
  rw [proceed_of_some hn, List.getElem?_set_self hlt]

theorem turn?_proceed (hn : s.chores[n]? = some x) :
    (s.proceed n).turn? n = (s.world.stride x.own x.errand).2.turn? :=
  turn?_of_some (getElem?_proceed hn)

/-- The steps of an errand are its own business. -/
theorem getElem?_step_of_ne (hne : a ≠ .proceed n) (hn : s.chores[n]? = some x) :
    (s.step c a).chores[n]? = some x := by
  cases a with
  | receive segment | engage p =>
      obtain ⟨hlt, -⟩ := List.getElem?_eq_some_iff.mp hn
      exact (List.getElem?_append_left hlt).trans hn
  | proceed m =>
      rw [step]
      cases hm : s.chores[m]? with
      | none =>
          rw [proceed_of_none hm]
          exact hn
      | some y =>
          have hmn : m ≠ n := fun heq ↦ hne (congrArg Act.proceed heq)
          rw [proceed_of_some hm, List.getElem?_set_ne hmn]
          exact hn
  | happen e => exact hn

theorem exists_of_turn? (hn : s.turn? n = some t) :
    ∃ x, s.chores[n]? = some x ∧ x.errand.turn? = some t :=
  Option.bind_eq_some_iff.mp hn

/-- An errand that has just begun is not in the middle of a call. -/
theorem turn?_concat (ht : t ≠ .cancel) (own : Bool) (p : Routine (Except BridgeError Unit)) :
    ({ s with chores := s.chores ++ [⟨own, .going p⟩] } : Site).turn? m = some t ↔
      s.turn? m = some t := by
  rcases Nat.lt_or_ge m s.chores.length with hlt | hge
  · rw [turn?, turn?, List.getElem?_append_left hlt]
  · have hnew : ({ s with chores := s.chores ++ [⟨own, .going p⟩] } : Site).turn? m ≠ some t := by
      intro hturn
      obtain ⟨x, hx, hxturn⟩ := exists_of_turn? hturn
      rw [List.getElem?_append_right hge] at hx
      rw [List.mem_singleton.mp (List.mem_of_getElem? hx)] at hxturn
      exact ht (Errand.eq_cancel_of_going hxturn)
    rw [turn?, turn?, List.getElem?_eq_none hge]
    exact ⟨fun hturn ↦ absurd hturn hnew, fun hturn ↦ by cases hturn⟩

theorem turn?_step_of_ne (hne : a ≠ .proceed m) (ht : t ≠ .cancel) :
    (s.step c a).turn? m = some t ↔ s.turn? m = some t := by
  cases a with
  | receive segment => exact turn?_concat ht true _
  | engage p => exact turn?_concat ht false p
  | proceed n =>
      rw [step]
      cases hn : s.chores[n]? with
      | none => rw [proceed_of_none hn]
      | some x =>
          have hnm : n ≠ m := fun heq ↦ hne (congrArg Act.proceed heq)
          rw [proceed_of_some hn, turn?, turn?, List.getElem?_set_ne hnm]
  | happen e => rfl

/-- An errand holds a channel when the bus gives it one, until it listens to it. -/
theorem turn?_step_eq_start_iff : (s.step c a).turn? m = some (.start topic k) ↔
    (a = .proceed m ∧ s.turn? m = some (.attach topic) ∧ s.world.CanAttach topic ∧
        k = s.world.given) ∨
      a ≠ .proceed m ∧ s.turn? m = some (.start topic k) := by
  by_cases ha : a = .proceed m
  · subst ha
    simp only [true_and, ne_eq, not_true, false_and, or_false]
    cases hm : s.chores[m]? with
    | none => simp [step, proceed_of_none hm, turn?, hm]
    | some x =>
        rw [step, turn?_proceed hm, turn?_of_some hm]
        constructor
        · exact World.turn?_stride_eq_start
        · rintro ⟨hturn, hcan, rfl⟩
          exact World.turn?_stride_of_attach hturn hcan
  · rw [turn?_step_of_ne ha (by simp)]
    simp [ha]

/-! ## Order among the errands -/

/-- No channel is held by two errands, or by an errand and a listener. -/
structure Orderly (s : Site) : Prop where
  tidy : Tidy s.world
  free : ∀ n topic k, s.turn? n = some (.start topic k) → s.world.Free k
  apart : ∀ m n topic topic' k, s.turn? m = some (.start topic k) →
    s.turn? n = some (.start topic' k) → m = n

theorem orderly_new (settings : Config.Mux) (device : Device) : Orderly (.new settings device) where
  tidy := World.tidy_new settings device
  free n topic k h := by cases h
  apart m n topic topic' k h := by cases h

/-- Whatever happens next, the bench makes the turn of it, or none. -/
theorem Orderly.strides (h : Orderly s) (c : Commands) (a : Act) :
    Strides s.world (s.step c a).world (s.turnOf? a) := by
  cases a with
  | receive segment => exact .passes h.tidy.passes_refl
  | engage p => exact .passes h.tidy.passes_refl
  | proceed n =>
      rw [step, turnOf?]
      cases hn : s.chores[n]? with
      | none =>
          rw [proceed_of_none hn, turn?, hn]
          exact .passes h.tidy.passes_refl
      | some x =>
          rw [proceed_of_some hn, turn?_of_some hn]
          exact h.tidy.strides x.own x.errand
  | happen e => exact .passes (h.tidy.stays_happen e).passes

theorem Orderly.step (h : Orderly s) (c : Commands) (a : Act) : Orderly (s.step c a) where
  tidy := (h.strides c a).tidy h.tidy fun topic k hturn ↦ by
    cases a with
    | proceed n => exact h.free n topic k hturn
    | _ => cases hturn
  free n topic k hturn := by
    rcases turn?_step_eq_start_iff.mp hturn with ⟨rfl, hattach, hcan, rfl⟩ | ⟨hne, hold⟩
    · have hstrides := h.strides c (.proceed n)
      rw [turnOf?, hattach] at hstrides
      exact (hstrides.attached h.tidy hcan).1
    · refine (h.strides c a).free (h.free n topic k hold) fun topic' hstart ↦ ?_
      -- Whoever begins to listen holds the channel, and so is the errand itself.
      cases a with
      | proceed m => exact hne (h.apart m n topic' topic k hstart hold ▸ rfl)
      | _ => cases hstart
  apart m n topic topic' k hm hn := by
    rcases turn?_step_eq_start_iff.mp hm with ⟨rfl, -, -, hk⟩ | ⟨-, hm⟩
    · rcases turn?_step_eq_start_iff.mp hn with ⟨heq, -⟩ | ⟨-, hn⟩
      · cases heq
        rfl
      · exact absurd hk (Nat.ne_of_lt (h.free n topic' k hn).given)
    · rcases turn?_step_eq_start_iff.mp hn with ⟨-, -, -, hk⟩ | ⟨-, hn⟩
      · exact absurd hk (Nat.ne_of_lt (h.free m topic k hm).given)
      · exact h.apart m n topic topic' k hm hn

theorem Orderly.run (h : Orderly s) (c : Commands) (acts : List Act) : Orderly (s.run c acts) := by
  induction acts generalizing s with
  | nil => exact h
  | cons a acts ih => exact ih (h.step c a)

/-! ## Topics that become live -/

/-- The errand at `n` is about to listen to a channel for the topic that is alive. -/
def Holds (s : Site) (topic : String) (n : Nat) : Prop :=
  ∃ k, s.turn? n = some (.start topic k) ∧ s.world.Lives k topic

/-- The bus is left. -/
def Leaves (s : Site) (a : Act) : Prop := s.world.Leaves (s.turnOf? a)

/-- All subscriptions are cancelled. -/
def Cancels (s : Site) (a : Act) : Prop := s.turnOf? a = some .cancel

instance (s : Site) (a : Act) : Decidable (s.Leaves a) :=
  inferInstanceAs (Decidable (_ ∧ _))

instance (s : Site) (a : Act) : Decidable (s.Cancels a) :=
  inferInstanceAs (Decidable (_ = _))

/-- An errand comes to hold a channel when the bus gives it one, and holds it until it goes on. -/
theorem Orderly.holds_step_iff (h : Orderly s) : (s.step c a).Holds topic n ↔
    (a = .proceed n ∧ s.turn? n = some (.attach topic) ∧ s.world.CanAttach topic) ∨
      s.Holds topic n ∧ a ≠ .proceed n ∧ ¬ s.Leaves a := by
  constructor
  · rintro ⟨k, hturn, hlives⟩
    rcases turn?_step_eq_start_iff.mp hturn with ⟨ha, hattach, hcan, -⟩ | ⟨hne, hold⟩
    · exact .inl ⟨ha, hattach, hcan⟩
    · obtain ⟨hlived, hstays⟩ := ((h.strides c a).lives_iff (h.free n topic k hold)).mp hlives
      exact .inr ⟨⟨k, hold, hlived⟩, hne, hstays⟩
  · rintro (⟨rfl, hattach, hcan⟩ | ⟨⟨k, hold, hlives⟩, hne, hstays⟩)
    · have hstrides := h.strides c (.proceed n)
      rw [turnOf?, hattach] at hstrides
      exact ⟨s.world.given, turn?_step_eq_start_iff.mpr (.inl ⟨rfl, hattach, hcan, rfl⟩),
        (hstrides.attached h.tidy hcan).2⟩
    · exact ⟨k, turn?_step_eq_start_iff.mpr (.inr ⟨hne, hold⟩),
        ((h.strides c a).lives_iff (h.free n topic k hold)).mpr ⟨hlives, hstays⟩⟩

/-- A topic becomes live when an errand begins to listen to a channel it holds, and stays so until
all subscriptions are cancelled or the bus is left. -/
theorem Orderly.live_step_iff (h : Orderly s) : (s.step c a).world.Live topic ↔
    (∃ n, a = .proceed n ∧ s.Holds topic n) ∨
      s.world.Live topic ∧ ¬ s.Cancels a ∧ ¬ s.Leaves a := by
  refine ((h.strides c a).live_iff h.tidy topic).trans (or_congr_left ?_)
  constructor
  · rintro ⟨k, hturn, hlives⟩
    cases a with
    | proceed n => exact ⟨n, rfl, k, hturn, hlives⟩
    | _ => cases hturn
  · rintro ⟨n, rfl, k, hturn, hlives⟩
    exact ⟨k, hturn, hlives⟩

end Site

end BleBridge.Service
