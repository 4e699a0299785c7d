import BleBridge.Bench.Run
import BleBridge.Json.Members

/-! # Partners of the bridge on the bench

What is done to the bench from outside: bytes and lines of the module, messages past the client,
and responders that answer requests. -/

namespace BleBridge.Bench

namespace World

def onWire (w : World) (f : Wire → Wire) : World := { w with wire := f w.wire }

def onPeripheral (w : World) (f : Peripheral → Peripheral) : World :=
  match w.device with
  | .scripted p => { w with device := .scripted (f p) }
  | _ => w

def onClient (w : World) (f : Bus.Client → Bus.Client) : World := { w with client := f w.client }

def onTransport (w : World) (f : Bus.Transport → Bus.Transport) : World :=
  w.onClient fun c => { c with transport := f c.transport }

def broker (w : World) : Bus.Broker := w.client.transport.broker

def onBroker (w : World) (f : Bus.Broker → Bus.Broker) : World :=
  w.onTransport fun t => { t with broker := f t.broker }

/-- The module sends a line. -/
def emit (w : World) (line : String) : World := w.onWire (·.send (Peripheral.lineBytes line))

/-- The module's end of the wire goes away. -/
def hangUp (w : World) : World := w.onWire fun wire => { wire with hungUp := true }

/-- The messages that were published since an earlier state of the bench. -/
def newMessages (w earlier : World) : List Bus.Message :=
  w.broker.history.drop earlier.broker.history.length

/-- The commands that the module received since an earlier state of the bench. -/
def newCommands (w earlier : World) : List Bytes :=
  w.device.received.toList.drop earlier.device.received.size

/-- What was handed out since an earlier state of the bench. -/
def newHanded (w earlier : World) : List Json := w.handed.toList.drop earlier.handed.size

def events (w : World) : List Event := w.log.toList

/-- The lines in a sink since an earlier state of it. -/
def linesSince (now earlier : Sink) : List String := now.recorded.toList.drop earlier.recorded.size

end World

/-- Put a message on the bus so many times, past the client. -/
def broadcast (topic : String) (payload : Bytes) : Nat → Attempt Unit
  | 0 => return
  | n + 1 => do
      Attempt.perform (Routine.perform (.broadcast topic payload))
      broadcast topic payload n

/-- A partner on the bus that answers requests. -/
structure Responder where
  filter : String
  payload : Json
  times : Nat
  /-- Without one, the response goes to the response topic of the request. -/
  topic : Option String
  errorCode : Int
  /-- Without one, the response carries the id of the request. -/
  requestId : Option String

namespace Responder

def ofJson? (v : Json) : Option Responder := do
  return ⟨← v.text? "filter", (v.get? "payload").getD .null, ← v.natOr? "times" 1,
    v.text? "topic", (v.int? "error_code").getD 0, v.text? "request_id"⟩

def responseTopic (requestId : String) : String := "edgex/response/core-command/" ++ requestId

/-- Put the responses to the request of that id on the bus. -/
def respond (r : Responder) (requestId : String) : Attempt Unit := do
  let e ← Routine.envelope r.payload
  let e := { e with requestId := r.requestId.getD requestId, errorCode := r.errorCode }
  broadcast (r.topic.getD (responseTopic requestId)) e.toBytes r.times

/-- Answer an envelope; other messages are passed over. -/
def answer (r : Responder) (m : Bus.Message) : Attempt Unit :=
  match Bus.Envelope.ofBytes m.topic m.payload with
  | .ok e => r.respond e.requestId
  | .error _ => pure ()

end Responder

/-- A link that keeps what it is given, or is down. -/
def keepingLink (fails : Bool) (v : Json) : Attempt Unit := do
  if fails then throw (.write "link down")
  Routine.hand v

/-- Connect the client and subscribe the responders. -/
def World.connectedTo (w : World) (responders : List Responder) : World :=
  let w := { w with taps := fun n m =>
    match responders[n]? with
    | some r => r.answer m
    | none => pure () }
  let (w, _) := w.tryClient w.client.connect
  responders.zipIdx.foldl (fun w (r, n) => (w.tap r.filter n).1) w

/-- Run a routine to its end, as caller number zero. -/
def Scene.perform {ρ : Type} (s : Scene ρ) (p : Routine ρ) : Scene ρ × Option ρ :=
  let s := (s.start 0 p).await 0
  (s.forget 0, s.result 0)

end BleBridge.Bench
