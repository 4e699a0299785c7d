import BleBridge.Bench.World

/-! # What happens while the clock stands still

A round lets each part of the bench do what it can. The bench is settled when a round changes
nothing. -/

namespace BleBridge.Bench

namespace World

/-! ## The writer and the module -/

/-- Let the writer work until it has nothing to do or the wire is full. -/
def runWriter : Nat → World → World × Bool
  | 0, w => (w, false)
  | fuel + 1, w =>
      let go := fun w : World => ((runWriter fuel w).1, true)
      match w.mux.writer with
      | .stopped => (w, false)
      | .handing _ => go (w.perform .handOff)
      | .idle =>
          if w.mux.closed then go (w.perform .stopWriter)
          else match w.mux.queue with
            | [] => (w, false)
            | r :: _ =>
                let w := w.perform .take
                go { w with wire := { w.wire with unsent := r.command } }
      | .writing _ =>
          if w.mux.closed then go (w.perform .stopWriter)
          else
            let (wire, written) := w.wire.push
            let moved := wire.outgoing.length != w.wire.outgoing.length
            let w := { w with wire }
            match written with
            | .complete => go (w.perform .wrote)
            | .failed f => go (w.perform (.writeFailed f))
            | .blocked => (w, moved)

/-- Each request takes the writer three actions. -/
def writerFuel (w : World) : Nat := 3 * w.mux.queue.length + 6

/-- Let the module take what is on the wire. -/
def runDevice (w : World) : World × Bool :=
  if w.wire.outgoing.isEmpty || w.wire.hungUp then (w, false)
  else
    let bytes := w.wire.outgoing
    let emptied := { w.wire with outgoing := [] }
    match w.device with
    | .mute => (w, false)
    | .recording heard =>
        ({ w with wire := emptied, device := .recording (heard ++ bytes) }, true)
    | .scripted p =>
        let (p, replies, events) := p.receive bytes
        ({ w with wire := emptied.send replies, device := .scripted p }.note events, true)

/-! ## The reader -/

/-- Let the reader work until it has to wait. -/
def runReader : Nat → World → World × Bool
  | 0, w => (w, false)
  | fuel + 1, w =>
      let go := fun w : World => ((runReader fuel w).1, true)
      match w.mux.reader with
      | .stopped => (w, false)
      | .reading =>
          if w.mux.closed then go (w.perform .stopReader)
          else if w.mux.wholeLine.isSome then go (w.perform .readLine)
          else match w.wire.incoming with
            | .chunk bytes :: rest =>
                go ({ w with wire := { w.wire with incoming := rest } }.perform (.receive bytes))
            | .fault f :: rest =>
                go ({ w with wire := { w.wire with incoming := rest } }.perform (.readFailed f))
            | [] => if w.wire.hungUp then go (w.perform .readEnd) else (w, false)
      | .resting due =>
          if w.mux.closed then go (w.perform .stopReader)
          else if due ≤ w.now then go (w.perform .restEnds)
          else (w, false)
      | .graceful _ _ _ due =>
          if !w.mux.handoff.isEmpty then go (w.perform .meetHanded)
          else if !w.mux.isOpen || due ≤ w.now then go (w.perform .graceEnds)
          else (w, false)
      | .delaying _ _ due => if due ≤ w.now then go (w.perform .delayEnds) else (w, false)

def arrivalSize : Arrival → Nat
  | .chunk bytes => bytes.length + 1
  | .fault _ => 1

/-- A byte at most ends a line, and a line takes two actions. -/
def readerFuel (w : World) : Nat :=
  2 * (w.mux.buffer.length + w.wire.incoming.foldr (arrivalSize · + ·) 0) + 6

/-! ## The sinks -/

def droppedEvent (line : String) : Event := .trace Mux.source ("dropped line: " ++ line)

def deafEvent : Event := .debug Mux.source "channel sink receiver dropped"

/-- Hand lines to a sink. -/
def feed (w : World) (lines : List String) : Sink → World × Sink
  | .recording taken => (w, .recording (taken ++ lines.toArray))
  | .discarding => (w.note (lines.map droppedEvent), .discarding)
  | .deaf => (w.note (lines.map fun _ => deafEvent), .deaf)
  | .pump name handle queued task => (w, .pump name handle (queued ++ lines) task)

def dispatcherEvent (kind : String) : Event :=
  .debug Mux.source (kind ++ " dispatcher stopped")

/-- Hand the lines of the multiplexer to the sinks. -/
def dispatch (w : World) : World × Bool :=
  if !w.dispatching then (w, false)
  else
    let reports := w.mux.reports
    let raw := w.mux.rawLines
    let ends := w.mux.reader.isStopped
    let w := (w.perform .takeReports).perform .takeRaw
    let (w, reportSink) := w.feed reports w.reportSink
    let (w, rawSink) := w.feed raw w.rawSink
    let w := { w with reportSink, rawSink, dispatching := !ends }
    let w := if ends then w.note [dispatcherEvent "command", dispatcherEvent "raw"] else w
    (w, ends || !reports.isEmpty || !raw.isEmpty)

/-- Let a pump handle its lines, one after the other. -/
def runPump (name : String) (handle : String → Routine Unit) :
    World → Option (Task Unit) → List String → World × Sink × Bool
  | w, some t, lines =>
      match w.resume t with
      | (w, .done (), _) => let (w, sink, _) := startPump w lines; (w, sink, true)
      | (w, t, moved) => (w, .pump name handle lines (some t), moved)
  | w, none, lines => startPump w lines
where
  startPump : World → List String → World × Sink × Bool
    | w, [] => (w, .pump name handle [] none, false)
    | w, line :: rest =>
        match w.run (handle line) with
        | (w, .done ()) => let (w, sink, _) := startPump w rest; (w, sink, true)
        | (w, t) => (w, .pump name handle rest (some t), true)

def runSink (w : World) : Sink → World × Sink × Bool
  | .pump name handle lines task =>
      let (w, sink, moved) := runPump name handle w task lines
      match sink with
      | .pump name _ [] none =>
          if w.dispatching then (w, sink, moved)
          else (w.note [.debug "Driver" (name ++ " pump stopped")], .deaf, true)
      | sink => (w, sink, moved)
  | sink => (w, sink, false)

def runSinks (w : World) : World × Bool :=
  let (w, reportSink, a) := w.runSink w.reportSink
  let w := { w with reportSink }
  let (w, rawSink, b) := w.runSink w.rawSink
  ({ w with rawSink }, a || b)

/-! ## Subscriptions -/

def stopListener (w : World) (l : Listener) : World × Listener :=
  let w := w.setClient (w.client.dropChannel l.channel)
  match l.use with
  | .tap _ => (w, { l with stopped := true })
  | _ => (w.note [Bus.Client.stoppedEvent l.filter], { l with stopped := true })

/-- The handler of a message has ended. -/
def finishHandling (w : World) (topic : String) : Except BridgeError Unit → World
  | .ok () => w
  | .error e => w.note [Bus.Client.handlerEvent topic e]

/-- Start on a message. -/
def handle (w : World) (l : Listener) (m : Bus.Message) :
    World × Option (String × Task (Except BridgeError Unit)) :=
  let start := fun (w : World) (p : Attempt Unit) =>
    match w.run p.run with
    | (w, .done r) => (w.finishHandling m.topic r, none)
    | (w, t) => (w, some (m.topic, t))
  match l.use with
  | .tap n => start w (w.taps n m)
  | .responses =>
      match Bus.Envelope.ofBytes m.topic m.payload with
      | .ok e =>
          let (client, events) := w.client.deliverAll e
          ((w.setClient client).note events, none)
      | .error e => (w.note [Bus.Client.undecodedEvent e], none)
  | .handler n =>
      match Bus.Envelope.ofBytes m.topic m.payload with
      | .ok e => start w (w.handlers n e.receivedTopic e)
      | .error e => (w.note [Bus.Client.undecodedEvent e], none)

def isCancelled (w : World) (l : Listener) : Bool :=
  match l.use with
  | .tap _ => false
  | _ => l.round < w.client.round

/-- Let a subscription handle its messages until a handler has to wait. -/
def runListener : Nat → World → Listener → World × Listener × Bool
  | 0, w, l => (w, l, false)
  | fuel + 1, w, l =>
      let go := fun (w : World) (l : Listener) =>
        let (w, l, _) := runListener fuel w l
        (w, l, true)
      if l.stopped then (w, l, false)
      else match l.task with
        | some (topic, t) =>
            match w.resume t with
            | (w, .done r, _) => go (w.finishHandling topic r) { l with task := none }
            | (w, t, moved) => (w, { l with task := some (topic, t) }, moved)
        | none =>
            if w.isCancelled l then
              let (w, l) := w.stopListener l
              (w, l, true)
            else match w.client.receive l.channel with
              | some (m, client) =>
                  let (w, task) := (w.setClient client).handle l m
                  go w { l with task }
              | none =>
                  if w.client.transport.broker.isOver l.channel then
                    let (w, l) := w.stopListener l
                    (w, l, true)
                  else (w, l, false)

/-- A channel holds so many messages, and some more may come while they are handled. -/
def listenerFuel : Nat := 2 * Bus.channelCapacity

/-- Let the subscriptions from number `k` on work; there are at most `fuel` of them. -/
def runListeners : Nat → Nat → World → World × Bool
  | 0, _, w => (w, false)
  | fuel + 1, k, w =>
      match w.listeners[k]? with
      | none => (w, false)
      | some l =>
          let (w, l, moved) := runListener listenerFuel w l
          let w := { w with listeners := w.listeners.set k l }
          let (w, later) := runListeners fuel (k + 1) w
          (w, moved || later)

def endGraces (w : World) : World := w.setClient (w.client.endGraces w.now)

/-! ## Rounds -/

/-- One round of all parts but the callers. -/
def round (w : World) : World × Bool :=
  let (w, a) := runWriter w.writerFuel w
  let (w, b) := w.runDevice
  let (w, c) := runReader w.readerFuel w
  let (w, d) := w.dispatch
  let (w, e) := w.runSinks
  let (w, f) := runListeners w.listeners.length 0 w
  (w.endGraces, a || b || c || d || e || f)

/-! ## Timers -/

def earlier : Option Millis → Option Millis → Option Millis
  | some a, some b => some (min a b)
  | some a, none => some a
  | none, b => b

def waitDue {c : Call} : Wait c → Option Millis
  | .admission _ _ due => some due
  | .reply _ due => some due
  | .response r =>
      match r.phase with
      | .waiting due => some due
      | _ => none
  | .enlisting _ | .leaving _ | .closing => none

def taskDue {α : Type} : Task α → Option Millis
  | .done _ => none
  | .waiting _ wait _ => waitDue wait

def sinkDue : Sink → Option Millis
  | .pump _ _ _ (some t) => taskDue t
  | _ => none

def readerDue (s : Mux.State) : Option Millis :=
  match s.reader with
  | .resting due | .graceful _ _ _ due | .delaying _ _ due => some due
  | .reading | .stopped => none

def listenerDue (l : Listener) : Option Millis := l.task.bind fun t => taskDue t.2

/-- When the next timer of the bench goes off. -/
def due (w : World) : Option Millis :=
  let parts := readerDue w.mux :: sinkDue w.reportSink :: sinkDue w.rawSink ::
    w.listeners.map listenerDue ++ w.client.graces.map fun g => some g.2
  parts.foldl earlier none

end World

end BleBridge.Bench
