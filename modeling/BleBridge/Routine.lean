import BleBridge.Bus.Envelope
import BleBridge.Mux.Basic

/-! # Routines

A routine is a program that calls on its surroundings: the multiplexer, the bus, the clock and the
log. It is a finite tree that branches on the answers, so it can be run against any surroundings
and stopped at any call. -/

namespace BleBridge

inductive Call where
  | log (e : Event)
  /-- A new id, different from all others. -/
  | drawId
  /-- Nanoseconds since the beginning of 1970. -/
  | wallClock
  | enqueue (o : Mux.Order)
  | closeMux
  | request (topic : String) (e : Bus.Envelope) (timeout : Option Millis)
  | publish (topic : String) (e : Bus.Envelope)
  /-- Put bytes on the bus past the client. -/
  | broadcast (topic : String) (payload : Bytes)
  | subscribeResponse (topic : String)
  /-- Give the envelopes of a topic to the handler of that number. -/
  | subscribe (topic : String) (handler : Nat)
  /-- Whether the response topic has been subscribed. -/
  | isResponseSubscribed
  | markResponseSubscribed
  | connect
  | disconnect
  /-- Take no more lines of the peripheral. -/
  | stopPumps
  /-- Give a value to whoever is at the other end. -/
  | hand (v : Json)
deriving Repr

abbrev Call.Answer : Call → Type
  | .log _ | .markResponseSubscribed | .closeMux | .stopPumps | .hand _ => Unit
  | .drawId => String
  | .wallClock => Int
  | .isResponseSubscribed => Bool
  | .enqueue _ => Except BridgeError String
  | .request _ _ _ => Except BridgeError Bus.Envelope
  | .publish _ _ | .broadcast _ _ | .subscribeResponse _ | .subscribe _ _ | .connect
  | .disconnect => Except BridgeError Unit

inductive Routine (α : Type) where
  | done (a : α)
  | call (c : Call) (next : c.Answer → Routine α)

namespace Routine

variable {α β γ : Type}

def bind : Routine α → (α → Routine β) → Routine β
  | .done a, f => f a
  | .call c next, f => .call c fun r => (next r).bind f

instance : Monad Routine where
  pure := .done
  bind := bind

@[simp] theorem done_bind (a : α) (f : α → Routine β) : (Routine.done a).bind f = f a := rfl

@[simp] theorem call_bind (c : Call) (next : c.Answer → Routine α) (f : α → Routine β) :
    (Routine.call c next).bind f = .call c fun r => (next r).bind f := rfl

@[simp] theorem bind_done (p : Routine α) : p.bind .done = p := by
  induction p with
  | done a => rfl
  | call c next ih => simp [ih]

theorem bind_assoc (p : Routine α) (f : α → Routine β) (g : β → Routine γ) :
    (p.bind f).bind g = p.bind fun a => (f a).bind g := by
  induction p with
  | done a => rfl
  | call c next ih => simp [ih]

def perform (c : Call) : Routine c.Answer := .call c .done

def log (e : Event) : Routine Unit := perform (.log e)

def logAll : List Event → Routine Unit
  | [] => .done ()
  | e :: rest => do log e; logAll rest

def drawId : Routine String := perform .drawId

def hand (v : Json) : Routine Unit := perform (.hand v)

/-- A fresh envelope around a payload. -/
def envelope (payload : Json) : Routine Bus.Envelope := do
  let requestId ← drawId
  let correlationId ← drawId
  return .new requestId correlationId payload

end Routine

/-- A routine that may fail. -/
abbrev Attempt := ExceptT BridgeError Routine

namespace Attempt

def perform {α : Type} (p : Routine (Except BridgeError α)) : Attempt α := p

def log (e : Event) : Attempt Unit := Routine.log e

def enqueue (o : Mux.Order) : Attempt String := perform (Routine.perform (.enqueue o))

/-- Publish a payload in a fresh envelope. -/
def publish (topic : String) (payload : Json) : Attempt Unit := do
  let e ← Routine.envelope payload
  perform (Routine.perform (.publish topic e))

/-- Ask for a response; without a time limit of its own a request has the client's. -/
def request (topic : String) (payload : Json) (timeout : Option Millis) :
    Attempt Bus.Envelope := do
  let e ← Routine.envelope payload
  perform (Routine.perform (.request topic e timeout))

def ofExcept {α : Type} (r : Except BridgeError α) : Attempt α := perform (.done r)

end Attempt

end BleBridge
