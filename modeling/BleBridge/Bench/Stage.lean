import BleBridge.Bench.Responder

/-! # A scene with names

Callers, handlers and channels of the bus go by the names they were given. -/

namespace BleBridge.Bench

structure Stage (ρ : Type) where
  scene : Scene ρ
  /-- Callers with their numbers and the ids that their first requests take. -/
  callers : List (String × Nat × String) := []
  /-- Handlers by number, and whether they fail. -/
  handlers : List (String × Bool) := []
  channels : List (String × Nat) := []

namespace Stage

variable {ρ : Type}

def world (s : Stage ρ) : World := s.scene.world

def onScene (s : Stage ρ) (f : Scene ρ → Scene ρ) : Stage ρ := { s with scene := f s.scene }

def onWorld (s : Stage ρ) (f : World → World) : Stage ρ :=
  s.onScene fun scene => { scene with world := f scene.world }

/-- Run a routine to its end. -/
def perform (s : Stage ρ) (p : Routine ρ) : Option ρ × Stage ρ :=
  let (scene, r) := s.scene.perform p
  (r, { s with scene })

/-- Start a routine under a name. -/
def start (s : Stage ρ) (id : String) (p : Routine ρ) : Stage ρ :=
  let n := s.callers.length + 1
  { s with
    scene := s.scene.start n p
    callers := (id, n, World.idText s.world.drawn) :: s.callers }

/-- Wait for the routine of a name. -/
def finish? (s : Stage ρ) (id : String) : Option (Option ρ × Stage ρ) :=
  (s.callers.lookup id).map fun (n, _) =>
    let s := s.onScene (·.await n)
    (s.scene.result n, s)

/-- The id of the request of a caller. -/
def requestId? (s : Stage ρ) (id : String) : Option String := (s.callers.lookup id).map (·.2)

/-- Take a handler in; gives its number. -/
def addHandler (s : Stage ρ) (name : String) (fails : Bool) : Nat × Stage ρ :=
  (s.handlers.length, { s with handlers := s.handlers ++ [(name, fails)] })

/-- Take a channel in under a name. -/
def addChannel (s : Stage ρ) (name : String) (channel : Nat) : Stage ρ :=
  { s with channels := (name, channel) :: s.channels }

/-- The messages that wait in the channel of a name; they are taken out. -/
def drain? (s : Stage ρ) (name : String) : Option (List Bus.Message × Stage ρ) :=
  (s.channels.lookup name).map fun channel =>
    let unread := ((s.world.broker.channels[channel]?).map (·.unread)).getD []
    (unread, s.onWorld (·.onBroker (·.modify channel ({ · with unread := [] }))))

/-- Nobody listens to the channel of a name any more. -/
def unlisten? (s : Stage ρ) (name : String) : Option (Stage ρ) :=
  (s.channels.lookup name).map fun channel => s.onWorld (·.onBroker (·.drop channel))

end Stage

end BleBridge.Bench
