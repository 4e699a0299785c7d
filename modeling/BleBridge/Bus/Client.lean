import BleBridge.Bus.Answered
import BleBridge.Bus.Broker
import BleBridge.Bus.Envelope
import BleBridge.Millis

/-! # Requests and responses over a bus

A request leaves a waiter under its id and waits. A response takes the waiter of its id out of the
table, notes the id as answered and hands itself to the request. Responses to noted ids are
dropped. The waiter of a request that has run out of time stays for a grace period, so that a
response under way then meets it and is not reported as unmatched. -/

namespace BleBridge.Bus

def defaultTimeout : Millis := 300

/-- How long the waiter of an expired request stays. -/
def waiterGrace : Millis := 50

/-- What a waiting request has been given. -/
inductive Slot where
  | empty
  | filled (e : Envelope)
  /-- The waiter was thrown away. -/
  | dropped
  /-- The request has ended. -/
  | left
deriving Repr

inductive Phase where
  | fresh
  /-- The bus was connected. -/
  | checked
  | registered
  | waiting (due : Millis)
  | ended (result : Except BridgeError Envelope)
deriving Repr

structure Request where
  ticket : Nat
  topic : String
  envelope : Envelope
  timeout : Millis
  phase : Phase
deriving Repr

/-- A response on its way to its request. -/
inductive Delivery where
  | arrived (e : Envelope)
  /-- The id was not noted as answered. -/
  | unanswered (e : Envelope)
  | taken (e : Envelope) (ticket : Nat)
  | noted (e : Envelope) (ticket : Nat)
  | done
deriving Repr

/-- A subscription to responses on its way. -/
inductive Enlisting where
  | fresh
  /-- The bus was connected. -/
  | checked
  /-- The topic is noted, and the bus is asked for a channel. -/
  | noted
  /-- The bus has given none; the topic is noted still. -/
  | refused (e : BridgeError)
  /-- The bus has given a channel that nobody listens to yet. -/
  | attached (channel : Nat)
  | ended (result : Except BridgeError Unit)
deriving Repr

structure Client where
  transport : Transport := {}
  waiters : List (String × Nat) := []
  slots : List (Nat × Slot) := []
  answered : Answered := .new Answered.defaultCapacity
  responseTopics : List String := []
  timeout : Millis := defaultTimeout
  /-- Counts the disconnections; subscriptions of an earlier round are cancelled. -/
  round : Nat := 0
  /-- Ids whose waiters go when their time has come. -/
  graces : List (String × Millis) := []
deriving Repr

def source : String := "Bus"

namespace Client

def isConnected (c : Client) : Bool := c.transport.isConnected

def pending (c : Client) : Nat := c.waiters.length

def display (c : Client) : String :=
  s!"BusClient \x7b connected: {c.isConnected}, pending: {c.pending}, " ++
    s!"timeout: {Millis.text c.timeout} \x7d"

def ensureConnected (c : Client) : Except BridgeError Unit :=
  if c.isConnected then .ok () else .error .notConnected

/-! ## Waiters -/

def slot (c : Client) (ticket : Nat) : Slot :=
  ((c.slots.find? (·.1 == ticket)).map Prod.snd).getD .left

def setSlot (c : Client) (ticket : Nat) (s : Slot) : Client :=
  { c with slots := (ticket, s) :: c.slots.filter (·.1 != ticket) }

/-- The waiter is gone without a response. -/
def dropSlot (c : Client) (ticket : Nat) : Client :=
  match c.slot ticket with
  | .empty => c.setSlot ticket .dropped
  | _ => c

def waiter? (c : Client) (id : String) : Option Nat :=
  (c.waiters.find? (·.1 == id)).map Prod.snd

def withoutWaiter (c : Client) (id : String) : Client :=
  { c with waiters := c.waiters.filter (·.1 != id) }

def unregister (c : Client) (id : String) : Client :=
  match c.waiter? id with
  | some ticket => (c.withoutWaiter id).dropSlot ticket
  | none => c

def register (c : Client) (id : String) (ticket : Nat) : Client :=
  let c := (c.unregister id).setSlot ticket .empty
  { c with waiters := (id, ticket) :: c.waiters }

/-! ## Publishing -/

def publish (c : Client) (topic : String) (e : Envelope) :
    Except BridgeError (Client × List Event) := do
  c.ensureConnected
  let (transport, events) ← c.transport.publish ⟨topic, e.toBytes⟩
  return ({ c with transport },
    events ++ [.debug source ("published " ++ e.requestId ++ " to " ++ topic)])

/-! ## Requests -/

def closedError (id : String) : BridgeError :=
  .closed ("bus client disconnected while waiting for " ++ id)

def lateText (r : Request) : String :=
  r.envelope.requestId ++ " on " ++ r.topic ++ " timed out after " ++ r.timeout.text

def lateEvent (r : Request) : Event := .warn source ("request " ++ lateText r)

def lateError (r : Request) : BridgeError := .timeout ("request " ++ lateText r)

def finish (c : Client) (r : Request) (result : Except BridgeError Envelope) :
    Client × Request :=
  (c.setSlot r.ticket .left, { r with phase := .ended result })

/-- Time is up: the request ends, its waiter stays for the grace period. -/
def expire (c : Client) (r : Request) (now : Millis) : Client × Request :=
  let (c, r) := c.finish r (.error (lateError r))
  ({ c with graces := c.graces ++ [(r.envelope.requestId, now + waiterGrace)] }, r)

/-- One step of a request. -/
def advance (c : Client) (r : Request) (now : Millis) : Client × Request × List Event :=
  match r.phase with
  | .fresh =>
      match c.ensureConnected with
      | .ok () => (c, { r with phase := .checked }, [])
      | .error e => (c, { r with phase := .ended (.error e) }, [])
  | .checked =>
      (c.register r.envelope.requestId r.ticket, { r with phase := .registered }, [])
  | .registered =>
      match c.publish r.topic r.envelope with
      | .ok (c, events) => (c, { r with phase := .waiting (now + r.timeout) }, events)
      | .error e =>
          let (c, r) := (c.unregister r.envelope.requestId).finish r (.error e)
          (c, r, [])
  | .waiting due =>
      match c.slot r.ticket with
      | .filled e => let (c, r) := c.finish r (.ok e); (c, r, [])
      | .dropped =>
          let (c, r) := c.finish r (.error (closedError r.envelope.requestId))
          (c, r, [])
      | .empty | .left =>
          if due ≤ now then let (c, r') := c.expire r now; (c, r', [lateEvent r])
          else (c, r, [])
  | .ended _ => (c, r, [])

/-- Remove the waiters whose grace period is over. -/
def endGraces (c : Client) (now : Millis) : Client :=
  let ended := c.graces.filter (·.2 ≤ now)
  ended.foldl (fun c g => c.unregister g.1) { c with graces := c.graces.filter (now < ·.2) }

/-! ## Responses -/

/-- One step of a response. -/
def deliver (c : Client) : Delivery → Client × Delivery × List Event
  | .arrived e =>
      if c.answered.contains e.requestId then
        (c, .done, [.debug source ("duplicate response " ++ e.requestId ++ " dropped")])
      else (c, .unanswered e, [])
  | .unanswered e =>
      match c.waiter? e.requestId with
      | some ticket => (c.withoutWaiter e.requestId, .taken e ticket, [])
      | none => (c, .done, [.warn source ("unmatched response " ++ e.requestId ++ " discarded")])
  | .taken e ticket =>
      ({ c with answered := c.answered.insert e.requestId }, .noted e ticket, [])
  | .noted e ticket =>
      match c.slot ticket with
      | .empty => (c.setSlot ticket (.filled e), .done, [])
      | _ => (c, .done, [.debug source ("waiter for " ++ e.requestId ++ " already gave up")])
  | .done => (c, .done, [])

/-- All steps of a response. -/
def deliverAll (c : Client) (e : Envelope) : Client × List Event :=
  let (c, d, e₁) := c.deliver (.arrived e)
  let (c, d, e₂) := c.deliver d
  let (c, d, e₃) := c.deliver d
  let (c, _, e₄) := c.deliver d
  (c, e₁ ++ e₂ ++ e₃ ++ e₄)

/-! ## Subscriptions -/

/-- One step of a subscription to responses. A topic that is noted counts as subscribed to, also
while the bus is still asked for its channel. -/
def enlist (c : Client) (topic : String) : Enlisting → Client × Enlisting × List Event
  | .fresh =>
      match c.ensureConnected with
      | .ok () => (c, .checked, [])
      | .error e => (c, .ended (.error e), [])
  | .checked =>
      if topic ∈ c.responseTopics then
        (c, .ended (.ok ()), [.debug source ("already subscribed to responses on " ++ topic)])
      else ({ c with responseTopics := topic :: c.responseTopics }, .noted, [])
  | .noted =>
      match c.transport.subscribe topic with
      | .ok (transport, channel) => ({ c with transport }, .attached channel, [])
      | .error e => (c, .refused e, [])
  | .refused e =>
      ({ c with responseTopics := c.responseTopics.filter (· != topic) }, .ended (.error e), [])
  | .attached _ => (c, .ended (.ok ()), [.info source ("response subscription on " ++ topic)])
  | .ended result => (c, .ended result, [])

def subscribe (c : Client) (topic : String) :
    Except BridgeError (Client × Nat × List Event) := do
  c.ensureConnected
  let (transport, channel) ← c.transport.subscribe topic
  return ({ c with transport }, channel, [.info source ("subscribed to " ++ topic)])

def receive (c : Client) (channel : Nat) : Option (Message × Client) :=
  (c.transport.broker.receive channel).map fun (m, broker) =>
    (m, { c with transport := { c.transport with broker } })

/-- Nobody listens to the channel any more. -/
def dropChannel (c : Client) (channel : Nat) : Client :=
  { c with transport := { c.transport with broker := c.transport.broker.drop channel } }

def undecodedEvent (e : BridgeError) : Event := .warn source e.message

def handlerEvent (topic : String) (e : BridgeError) : Event :=
  .error source ("handler for " ++ topic ++ " failed: " ++ e.message)

def stoppedEvent (filter : String) : Event :=
  .debug source ("subscription " ++ filter ++ " stopped")

/-! ## Connecting -/

def connect (c : Client) : Except BridgeError (Client × List Event) := do
  let transport ← c.transport.connect
  return ({ c with transport }, [.info source "connected"])

/-- Cancel the subscriptions and throw all waiters away. -/
def cancel (c : Client) : Client :=
  let c := c.waiters.foldl (fun c w => c.dropSlot w.2) c
  { c with
    waiters := []
    answered := c.answered.clear
    responseTopics := []
    round := c.round + 1 }

/-- Leave the bus after `cancelled` requests were given up. -/
def leave (c : Client) (cancelled : Nat) : Except BridgeError (Client × List Event) := do
  let transport ← c.transport.disconnect
  return ({ c with transport },
    [.info source s!"disconnected ({cancelled} pending requests cancelled)"])

end Client

end BleBridge.Bus
