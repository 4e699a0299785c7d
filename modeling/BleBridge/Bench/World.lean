import BleBridge.Bench.Peripheral
import BleBridge.Bench.Wire
import BleBridge.Bus.Client
import BleBridge.Mux.Step
import BleBridge.Routine

/-! # A bench: the bridge with a module, a bus and a clock

The bench holds the multiplexer with a module at the other end of the wire, the client with a bus
in memory, and the routines that run against them. Its clock stands still while anything can
happen. -/

namespace BleBridge.Bench

/-- What a call waits for. -/
inductive Wait : Call → Type where
  | admission {o : Mux.Order} (ticket left : Nat) (due : Millis) : Wait (.enqueue o)
  | reply {o : Mux.Order} (ticket : Nat) (due : Millis) : Wait (.enqueue o)
  | response {topic : String} {e : Bus.Envelope} {timeout : Option Millis} (r : Bus.Request) :
      Wait (.request topic e timeout)
  | enlisting {topic : String} (e : Bus.Enlisting) : Wait (.subscribeResponse topic)
  /-- The bus has yet to be left, after so many requests were given up. -/
  | leaving (cancelled : Nat) : Wait .disconnect
  | closing : Wait .closeMux

/-- A routine under way. -/
inductive Task (α : Type) where
  | done (a : α)
  | waiting (c : Call) (w : Wait c) (next : c.Answer → Routine α)

/-- Who takes the lines of one kind. -/
inductive Sink where
  | recording (lines : Array String)
  | discarding
  /-- A channel whose other end is gone. -/
  | deaf
  /-- A routine handles one line after the other. -/
  | pump (name : String) (handle : String → Routine Unit) (lines : List String)
      (task : Option (Task Unit))

inductive Device where
  /-- Takes no bytes from the wire. -/
  | mute
  | recording (heard : Bytes)
  | scripted (p : Peripheral)

/-- What a subscription does with its messages. -/
inductive Use where
  | responses
  | handler (number : Nat)
  /-- Messages as they are, past the client. -/
  | tap (number : Nat)
deriving DecidableEq, Repr

structure Listener where
  filter : String
  channel : Nat
  round : Nat
  use : Use
  /-- The message being handled, by its topic. -/
  task : Option (String × Task (Except BridgeError Unit)) := none
  stopped : Bool := false

structure World where
  now : Millis := 0
  readings : Nat := 0
  mux : Mux.State
  wire : Wire := {}
  device : Device
  reportSink : Sink := .recording #[]
  rawSink : Sink := .recording #[]
  /-- The lines still find their way to the sinks. -/
  dispatching : Bool := true
  client : Bus.Client := {}
  listeners : List Listener := []
  handlers : Nat → String → Bus.Envelope → Attempt Unit := fun _ _ _ => pure ()
  taps : Nat → Bus.Message → Attempt Unit := fun _ _ => pure ()
  responseSubscribed : Bool := false
  tickets : Nat := 0
  /-- How many ids have been drawn. -/
  drawn : Nat := 0
  /-- What routines have handed out. -/
  handed : Array Json := #[]
  log : Array Event := #[]

namespace Device

/-- The commands that a scripted module has received. -/
def received : Device → Array Bytes
  | .scripted p => p.received
  | _ => #[]

def heard : Device → Bytes
  | .recording bytes => bytes
  | _ => []

end Device

def Sink.recorded : Sink → Array String
  | .recording lines => lines
  | _ => #[]

namespace World

def note (w : World) (events : List Event) : World :=
  { w with log := events.foldl Array.push w.log }

/-- Readings of the clock never repeat. -/
def instant (w : World) : Instant := w.now.nanos + w.readings

/-- Let an action of the multiplexer happen. -/
def perform (w : World) (a : Mux.Action) : World :=
  match w.mux.step w.instant a with
  | some (mux, events) => { w with mux, readings := w.readings + 1 }.note events
  | none => w

def ticket (w : World) : Nat × World := (w.tickets, { w with tickets := w.tickets + 1 })

/-- The id of a number, in the usual shape of random ids. -/
def idText (n : Nat) : String :=
  let digits := Nat.toDigits 16 n
  "00000000-0000-4000-8000-" ++ String.ofList (List.replicate (12 - digits.length) '0' ++ digits)

/-- When the clock of the bench starts, in nanoseconds since the beginning of 1970. -/
def epoch : Int := 1700000000000000000

/-- A bench whose multiplexer has just started. -/
def new (settings : Config.Mux) (device : Device) : World :=
  { mux := Mux.new settings, device, log := #[Mux.startEvent settings] }

/-- A bench without a module. -/
def withoutModule : World := { mux := Mux.new {}, device := .mute }

/-! ## Calls -/

/-- The outcome of a look at a waiting call. -/
inductive Look (c : Call) where
  | answer (r : c.Answer)
  | wait (w : Wait c)

/-- Wait for room in the queue, with `left` attempts after this one. -/
def seekRoom (w : World) (o : Mux.Order) (ticket : Nat) (due : Millis) (left : Nat) :
    World × Look (.enqueue o) :=
  if w.mux.mayEnter ticket && w.mux.isOpen then
    (w.perform (.enter o ticket), .wait (.reply ticket (w.now + o.patience)))
  else if !w.mux.isOpen then (w.perform (.leaveLine ticket), .answer (.error Mux.closedError))
  else if due ≤ w.now then
    let w := (w.perform (.leaveLine ticket)).note
      [Mux.attemptEvent (Mux.admissionAttempts - left)]
    match left with
    | 0 => (w.note [Mux.rejectEvent], .answer (.error Mux.fullError))
    | left + 1 => (w.perform (.lineUp ticket)).seekRoom o ticket (w.now + o.queueWait) left
  else (w, .wait (.admission ticket left due))

def seekReply (w : World) (o : Mux.Order) (ticket : Nat) (due : Millis) :
    World × Look (.enqueue o) :=
  match w.mux.resultOf ticket with
  | some result => (w, .answer result)
  | none =>
      if due ≤ w.now then (w, .answer (.error (Mux.impatience o)))
      else (w, .wait (.reply ticket due))

/-- Look at the order once; a reply that is there or overdue at once counts. -/
def seek (w : World) (o : Mux.Order) : World × Look (.enqueue o) :=
  match w.mux.refusal o with
  | some e => (w, .answer (.error e))
  | none =>
      let (ticket, w) := w.ticket
      let w := if w.mux.mayEnter ticket then w else w.perform (.lineUp ticket)
      match w.seekRoom o ticket (w.now + o.queueWait) (Mux.admissionAttempts - 1) with
      | (w, .wait (.reply ticket due)) => w.seekReply o ticket due
      | outcome => outcome

/-- Take a request as many steps as it can go. -/
def seekResponse (w : World) (r : Bus.Request) : Nat → World × Bus.Request
  | 0 => (w, r)
  | fuel + 1 =>
      let (client, r, events) := w.client.advance r w.now
      let w := { w with client }.note events
      match r.phase with
      | .ended _ => (w, r)
      | _ => w.seekResponse r fuel

/-- More steps than a request has phases. -/
def requestSteps : Nat := 6

def responseLook {topic : String} {e : Bus.Envelope} {timeout : Option Millis}
    (r : Bus.Request) : Look (.request topic e timeout) :=
  match r.phase with
  | .ended result => .answer result
  | _ => .wait (.response r)

def listen (w : World) (filter : String) (channel : Nat) (use : Use) : World :=
  { w with listeners := w.listeners ++ [{ filter, channel, round := w.client.round, use }] }

def setClient (w : World) (client : Bus.Client) : World := { w with client }

/-- Run an operation of the client that may fail. -/
def tryClient (w : World) (r : Except BridgeError (Bus.Client × List Event)) :
    World × Except BridgeError Unit :=
  match r with
  | .ok (client, events) => ((w.setClient client).note events, .ok ())
  | .error e => (w, .error e)

/-- One step of a subscription to responses. Whoever listens begins in the round of that moment. -/
def enlist (w : World) (topic : String) (e : Bus.Enlisting) : World × Bus.Enlisting :=
  let (client, e', events) := w.client.enlist topic e
  let w := (w.setClient client).note events
  match e with
  | .attached channel => (w.listen topic channel .responses, e')
  | _ => (w, e')

/-- Take a subscription to responses as many steps as it can go. -/
def seekChannel (w : World) (topic : String) (e : Bus.Enlisting) : Nat → World × Bus.Enlisting
  | 0 => (w, e)
  | fuel + 1 =>
      let (w, e) := w.enlist topic e
      match e with
      | .ended _ => (w, e)
      | _ => w.seekChannel topic e fuel

/-- The most steps that a subscription to responses takes. -/
def enlistingSteps : Nat := 4

def enlistingLook {topic : String} : Bus.Enlisting → Look (.subscribeResponse topic)
  | .ended result => .answer result
  | e => .wait (.enlisting e)

def subscribe (w : World) (topic : String) (use : Use) : World × Except BridgeError Unit :=
  match w.client.subscribe topic with
  | .ok (client, channel, events) =>
      (((w.setClient client).note events).listen topic channel use, .ok ())
  | .error e => (w, .error e)

/-- Put a message on the bus past the client. -/
def broadcast (w : World) (topic : String) (payload : Bytes) : World × Except BridgeError Unit :=
  match w.client.transport.broker.publish ⟨topic, payload⟩ with
  | .ok (broker, events) =>
      let transport := { w.client.transport with broker }
      (({ w with client := { w.client with transport } }).note events, .ok ())
  | .error e => (w, .error e)

/-- Subscribe past the client. -/
def tap (w : World) (filter : String) (number : Nat) : World × Except BridgeError Nat :=
  match w.client.transport.broker.subscribe filter with
  | .ok (broker, channel) =>
      let transport := { w.client.transport with broker }
      (({ w with client := { w.client with transport } }).listen filter channel (.tap number),
        .ok channel)
  | .error e => (w, .error e)

/-- Leave the bus after `cancelled` requests were given up. -/
def leave (w : World) (cancelled : Nat) : World × Except BridgeError Unit :=
  w.tryClient (w.client.leave cancelled)

def disconnect (w : World) : World × Except BridgeError Unit :=
  (w.setClient w.client.cancel).leave w.client.pending

/-- A routine is given up where it stands. -/
def abandon {α : Type} (w : World) : Task α → World
  | .waiting _ (.admission ticket _ _) _ => w.perform (.leaveLine ticket)
  | .waiting _ (.response r) _ => w.setClient (w.client.setSlot r.ticket .left)
  | _ => w

def stopPump (w : World) : Sink → World × Sink
  | .pump _ _ _ task =>
      ((match task with | some t => w.abandon t | none => w), .deaf)
  | sink => (w, sink)

def stopPumps (w : World) : World :=
  let (w, reportSink) := w.stopPump w.reportSink
  let (w, rawSink) := w.stopPump w.rawSink
  { w with reportSink, rawSink }

/-- Answer a call, or tell what it waits for. -/
def look (w : World) : (c : Call) → World × Look c
  | .log e => (w.note [e], .answer ())
  | .drawId => ({ w with drawn := w.drawn + 1 }, .answer (idText w.drawn))
  | .wallClock => (w, .answer (epoch + w.instant))
  | .enqueue o => w.seek o
  | .closeMux =>
      if w.mux.closed then (w, .answer ()) else (w.perform .close, .wait .closing)
  | .request topic e timeout =>
      let (ticket, w) := w.ticket
      let (w, r) := w.seekResponse
        ⟨ticket, topic, e, timeout.getD w.client.timeout, .fresh⟩ requestSteps
      (w, responseLook r)
  | .publish topic e => let (w, r) := w.tryClient (w.client.publish topic e); (w, .answer r)
  | .broadcast topic payload => let (w, r) := w.broadcast topic payload; (w, .answer r)
  | .subscribeResponse topic =>
      let (w, e) := w.seekChannel topic .fresh enlistingSteps
      (w, enlistingLook e)
  | .subscribe topic handler =>
      let (w, r) := w.subscribe topic (.handler handler); (w, .answer r)
  | .isResponseSubscribed => (w, .answer w.responseSubscribed)
  | .markResponseSubscribed => ({ w with responseSubscribed := true }, .answer ())
  | .connect => let (w, r) := w.tryClient w.client.connect; (w, .answer r)
  | .disconnect => let (w, r) := w.disconnect; (w, .answer r)
  | .stopPumps => (w.stopPumps, .answer ())
  | .hand v => ({ w with handed := w.handed.push v }, .answer ())

/-- Look again at a call that waits. -/
def lookAgain (w : World) : {c : Call} → Wait c → World × Look c
  | .enqueue o, .admission ticket left due =>
      match w.seekRoom o ticket due left with
      | (w, .wait (.reply ticket due)) => w.seekReply o ticket due
      | outcome => outcome
  | .enqueue o, .reply ticket due => w.seekReply o ticket due
  | .request _ _ _, .response r =>
      let (w, r) := w.seekResponse r 1
      (w, responseLook r)
  | .subscribeResponse topic, .enlisting e =>
      let (w, e) := w.enlist topic e
      (w, enlistingLook e)
  | .disconnect, .leaving cancelled => let (w, r) := w.leave cancelled; (w, .answer r)
  | .closeMux, .closing =>
      match w.mux.writer, w.mux.reader with
      | .stopped, .stopped => (w.note [.info Mux.source "closed"], .answer ())
      | _, _ => (w, .wait .closing)

/-- Run a routine until it is done or waits. -/
def run {α : Type} (w : World) : Routine α → World × Task α
  | .done a => (w, .done a)
  | .call c next =>
      match w.look c with
      | (w, .answer r) => w.run (next r)
      | (w, .wait wait) => (w, .waiting c wait next)

/-- Go on with a task if what it waits for has come. Tells whether it has. -/
def resume {α : Type} (w : World) : Task α → World × Task α × Bool
  | .done a => (w, .done a, false)
  | .waiting c wait next =>
      match w.lookAgain wait with
      | (w, .answer r) => let (w, t) := w.run (next r); (w, t, true)
      | (w, .wait wait) => (w, .waiting c wait next, false)

end World

end BleBridge.Bench
