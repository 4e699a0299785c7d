import BleBridge.Bench.Settle

/-! # Callers on the bench, and its clock -/

namespace BleBridge.Bench

/-- The bench with routines that were started on it, each under its number. -/
structure Scene (ρ : Type) where
  world : World
  callers : List (Nat × Task ρ) := []

namespace Scene

variable {ρ : Type}

/-- Let the callers go on that have got what they wait for. -/
def runCallers : World → List (Nat × Task ρ) → World × List (Nat × Task ρ) × Bool
  | w, [] => (w, [], false)
  | w, (n, t) :: rest =>
      let (w, t, moved) := w.resume t
      let (w, rest, later) := runCallers w rest
      (w, (n, t) :: rest, moved || later)

def round (s : Scene ρ) : Scene ρ × Bool :=
  let (world, callers, a) := runCallers s.world s.callers
  let (world, b) := world.round
  (⟨world, callers⟩, a || b)

/-- Rounds until nothing changes. -/
def settle : Nat → Scene ρ → Scene ρ
  | 0, s => s
  | fuel + 1, s =>
      match s.round with
      | (s, true) => settle fuel s
      | (s, false) => s

/-- How many rounds one moment of the clock may take. -/
def roundLimit : Nat := 1000000

def settled (s : Scene ρ) : Scene ρ := settle roundLimit s

/-- Start a routine. -/
def start (s : Scene ρ) (n : Nat) (p : Routine ρ) : Scene ρ :=
  let (world, t) := s.world.run p
  ⟨world, s.callers ++ [(n, t)]⟩

def callerDue : Task ρ → Option Millis := World.taskDue

def due (s : Scene ρ) : Option Millis :=
  (s.callers.map fun c => callerDue c.2).foldl World.earlier s.world.due

/-- The result of a routine that is done. -/
def result (s : Scene ρ) (n : Nat) : Option ρ :=
  match (s.callers.find? (·.1 == n)).map Prod.snd with
  | some (.done r) => some r
  | _ => none

def forget (s : Scene ρ) (n : Nat) : Scene ρ :=
  { s with callers := s.callers.filter (·.1 != n) }

def setClock (s : Scene ρ) (t : Millis) : Scene ρ :=
  { s with world := { s.world with now := max s.world.now t } }

/-- Let time pass up to `t`; each timer goes off in its turn. -/
def passTo (t : Millis) : Nat → Scene ρ → Scene ρ
  | 0, s => s
  | fuel + 1, s =>
      match s.due with
      | some due => if due ≤ t then passTo t fuel (s.setClock due).settled else s.setClock t
      | none => s.setClock t

/-- How many timers may go off while an outcome is waited for. -/
def timerLimit : Nat := 1000000

/-- Settle, let time pass, and settle. -/
def pass (s : Scene ρ) (t : Millis) : Scene ρ :=
  let s := s.settled
  passTo (s.world.now + t) timerLimit s

/-- Let time pass until something holds, or until nothing can happen any more or, if there is one,
the limit is reached. -/
def passUntil (holds : Scene ρ → Bool) (limit : Option Millis) : Nat → Scene ρ → Scene ρ
  | 0, s => s
  | fuel + 1, s =>
      if holds s then s
      else match s.due, limit with
        | some due, some limit =>
            if due ≤ limit then passUntil holds (some limit) fuel (s.setClock due).settled
            else s.setClock limit
        | some due, none => passUntil holds none fuel (s.setClock due).settled
        | none, some limit => s.setClock limit
        | none, none => s

/-- Wait for a routine to be done. -/
def await (s : Scene ρ) (n : Nat) : Scene ρ :=
  passUntil (fun s => (s.result n).isSome) none timerLimit s.settled

/-- Wait at most so long for something to hold. -/
def awaitWithin (s : Scene ρ) (holds : Scene ρ → Bool) (limit : Millis) : Scene ρ :=
  if holds s then s else passUntil holds (some (s.world.now + limit)) timerLimit s.settled

end Scene

end BleBridge.Bench
