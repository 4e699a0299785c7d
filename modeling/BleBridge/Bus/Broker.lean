import BleBridge.BridgeError
import BleBridge.Bus.Topic
import BleBridge.Event
import BleBridge.Text.Bytes

/-! # A bus in memory

Every subscription has a channel of its own. Channels keep their place for good: one that is no
longer attached gets no messages, and one that nobody listens to is detached at the next message. -/

namespace BleBridge.Bus

structure Message where
  topic : String
  payload : Bytes
deriving DecidableEq, Repr

/-- How many unread messages a channel holds. -/
def channelCapacity : Nat := 100

structure Channel where
  filter : String
  /-- Messages that came and were not read, oldest first. -/
  unread : List Message
  attached : Bool
  listening : Bool
deriving DecidableEq, Repr

namespace Channel

def isFull (c : Channel) : Bool := channelCapacity ≤ c.unread.length

/-- Whether a message goes into the channel. -/
def takes (c : Channel) (m : Message) : Bool :=
  c.attached && c.listening && topicMatches c.filter m.topic && !c.isFull

/-- Whether a message is lost because the channel is full. -/
def overflows (c : Channel) (m : Message) : Bool :=
  c.attached && c.listening && topicMatches c.filter m.topic && c.isFull

def offer (m : Message) (c : Channel) : Channel :=
  if c.takes m then { c with unread := c.unread ++ [m] }
  else if c.listening then c
  else { c with attached := false }

def fullEvent (c : Channel) : Event :=
  .warn "Bus" ("subscription " ++ c.filter ++ " is full, message dropped")

end Channel

structure Broker where
  connected : Bool := false
  channels : List Channel := []
  /-- All messages that were published, oldest first. -/
  history : List Message := []
deriving DecidableEq, Repr, Inhabited

namespace Broker

/-- Number of channels that get a message. -/
def reach (b : Broker) (m : Message) : Nat := b.channels.countP (·.takes m)

def dispatchEvents (b : Broker) (m : Message) : List Event :=
  (b.channels.filter (·.overflows m)).map Channel.fullEvent ++
    [.debug "MemoryBus" s!"{m.topic} delivered to {b.reach m} subscribers"]

def dispatch (b : Broker) (m : Message) : Broker :=
  { b with channels := b.channels.map (Channel.offer m) }

def connect (b : Broker) : Broker := { b with connected := true }

def disconnect (b : Broker) : Broker :=
  { b with
    connected := false
    channels := b.channels.map fun c => { c with attached := false } }

def publish (b : Broker) (m : Message) : Except BridgeError (Broker × List Event) :=
  if b.connected then
    .ok ({ b with history := b.history ++ [m] }.dispatch m, b.dispatchEvents m)
  else .error .notConnected

/-- Attach a new channel; its place is its number. -/
def subscribe (b : Broker) (filter : String) : Except BridgeError (Broker × Nat) :=
  if b.connected then
    .ok ({ b with channels := b.channels ++ [⟨filter, [], true, true⟩] }, b.channels.length)
  else .error .notConnected

def modify (b : Broker) (channel : Nat) (f : Channel → Channel) : Broker :=
  { b with channels := b.channels.modify channel f }

/-- Take the oldest unread message of a channel. -/
def receive (b : Broker) (channel : Nat) : Option (Message × Broker) :=
  match (b.channels[channel]?).map (·.unread) with
  | some (m :: later) => some (m, b.modify channel fun c => { c with unread := later })
  | _ => none

/-- Stop listening to a channel. -/
def drop (b : Broker) (channel : Nat) : Broker :=
  b.modify channel fun c => { c with listening := false }

/-- Whether a channel will never bring another message. -/
def isOver (b : Broker) (channel : Nat) : Bool :=
  match b.channels[channel]? with
  | some c => !c.attached && c.unread.isEmpty
  | none => true

/-- The filters of the attached channels. -/
def filters (b : Broker) : List String := (b.channels.filter (·.attached)).map (·.filter)

def publishedOn (b : Broker) (topic : String) : List Message :=
  b.history.filter (·.topic == topic)

end Broker

/-- What a client asks of its bus. -/
inductive Operation where
  | connect | disconnect | publish | subscribe
deriving DecidableEq, Repr

def Operation.name : Operation → String
  | connect => "connect"
  | disconnect => "disconnect"
  | publish => "publish"
  | subscribe => "subscribe"

/-- A bus that refuses some operations before they do anything. -/
structure Transport where
  broker : Broker := {}
  refusing : List Operation := []
deriving DecidableEq, Repr, Inhabited

namespace Transport

def refusal (op : Operation) : BridgeError := .bus (op.name ++ " refused")

def connect (t : Transport) : Except BridgeError Transport :=
  if .connect ∈ t.refusing then .error (refusal .connect)
  else .ok { t with broker := t.broker.connect }

def disconnect (t : Transport) : Except BridgeError Transport :=
  if .disconnect ∈ t.refusing then .error (refusal .disconnect)
  else .ok { t with broker := t.broker.disconnect }

def isConnected (t : Transport) : Bool := t.broker.connected

def publish (t : Transport) (m : Message) : Except BridgeError (Transport × List Event) := do
  if .publish ∈ t.refusing then throw (refusal .publish)
  let (broker, events) ← t.broker.publish m
  return ({ t with broker }, events)

def subscribe (t : Transport) (filter : String) : Except BridgeError (Transport × Nat) := do
  if .subscribe ∈ t.refusing then throw (refusal .subscribe)
  let (broker, channel) ← t.broker.subscribe filter
  return ({ t with broker }, channel)

end Transport

end BleBridge.Bus
