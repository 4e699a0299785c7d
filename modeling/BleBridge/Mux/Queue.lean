import BleBridge.Mux.Basic

/-! # Admission to the request queue -/

namespace BleBridge.Mux

/-- How often a caller waits for room before it gives up. -/
def admissionAttempts : Nat := 3

def closedError : BridgeError := .closed "serial multiplexer is closed"

def emptyError : BridgeError := .validation "command must not be empty"

def fullError : BridgeError :=
  .queueFull s!"request queue still full after {admissionAttempts} attempts"

def attemptEvent (attempt : Nat) : Event :=
  .debug source s!"queue full, attempt {attempt}/{admissionAttempts}"

def rejectEvent : Event :=
  .warn source s!"request rejected after {admissionAttempts} admission attempts"

/-- The caller ran out of patience. -/
def impatience (o : Order) : BridgeError := .timeout ("no response within " ++ o.patience.text)

namespace State

/-- Why an order is turned away at once. -/
def refusal (s : State) (o : Order) : Option BridgeError :=
  if o.command.isEmpty then some emptyError
  else if s.closed then some closedError
  else none

def hasRoom (s : State) : Bool := s.queue.length < capacity s.settings

/-- Whether the queue takes requests at all. -/
def isOpen (s : State) : Bool := s.writer != .stopped

/-- Stand in line for room. -/
def lineUp (s : State) (ticket : Nat) : State := { s with waiting := s.waiting ++ [ticket] }

def leaveLine (s : State) (ticket : Nat) : State :=
  { s with waiting := s.waiting.filter (· != ticket) }

/-- Whether it is the caller's turn: there is room, and nobody came before. -/
def mayEnter (s : State) (ticket : Nat) : Bool :=
  s.hasRoom && (s.waiting.isEmpty || s.waiting.head? == some ticket)

/-- Put the request of an admitted caller into the queue. -/
def enter (s : State) (o : Order) (ticket : Nat) (now : Instant) : State :=
  { s.leaveLine ticket with queue := s.queue ++ [o.request ticket now] }

end State

end BleBridge.Mux
