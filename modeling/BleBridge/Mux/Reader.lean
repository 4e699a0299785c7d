import BleBridge.Mux.Basic

/-! # The reader of the multiplexer -/

namespace BleBridge.Mux

/-- The rest after an end of the stream or a failed read. -/
def rest : Millis := 10

/-- How long a terminal line waits for a request that was just written. -/
def handoffGrace : Millis := 20

def lineFeed : UInt8 := 10

/-- What a terminal line says of its reply. -/
def verdict (status : Modem.Status) (response : String) : Except Fault String :=
  match status with
  | .success => .ok response
  | .failure => .error (.commandFailed response)
  | .moduleError => .error (.moduleError ((Modem.moduleErrorCode response).getD "") response)

/-- A line as the consumers see it. -/
def lineText (raw : Bytes) : String := Text.trim (Text.ofBytesLossy raw)

def isIgnored (settings : Config.Mux) (line : String) : Bool :=
  settings.ignored.any fun lead => lead != "" && Text.startsWith line lead

def expiryEvent (r : Request) : Event :=
  .warn source s!"request {r.shown} expired without a terminal line"

namespace State

/-- Take over the requests that the writer has handed. -/
def absorb (s : State) : State := { s with fifo := s.fifo ++ s.handoff, handoff := [] }

/-- Drop requests from the head as long as they have expired. -/
def sweep (s : State) (now : Instant) : State × List Event :=
  go s.fifo s
where
  go : List Request → State → State × List Event
    | [], s => ({ s with fifo := [] }, [])
    | r :: later, s =>
        if r.isExpired now then
          let swept := { s with
            headLines := []
            counters := { s.counters with timeouts := s.counters.timeouts + 1 } }
          let done := go later
            (swept.resolve r (.error (.timeout "no terminal line before the deadline")))
          (done.1, expiryEvent r :: done.2)
        else ({ s with fifo := r :: later }, [])

def takeReport (s : State) (segments : List String) : State :=
  { s with
    reports := s.reports ++ segments
    counters := { s.counters with reports := s.counters.reports + segments.length } }

def takeRaw (s : State) (line : String) (readAt : Instant) : State :=
  let joins := match s.fifo with
    | r :: _ => !r.predates readAt
    | [] => false
  { s with
    rawLines := s.rawLines ++ [line]
    headLines := if joins then s.headLines ++ [line] else s.headLines
    counters := { s.counters with rawLines := s.counters.rawLines + 1 } }

def unmatchedEvent (line : String) : Event :=
  .debug source ("terminal line with no pending request: " ++ line)

def earlyEvent (line : String) : Event :=
  .debug source ("terminal line read before the pending write: " ++ line)

/-- Answer a request whose reply is complete. -/
def deliver (s : State) (r : Request) (result : Except Fault String) : State :=
  { s with
    reader := .reading
    counters := { s.counters with responses := s.counters.responses + 1 } }.resolve r
      (bridged result)

/-- Match a terminal line with the head of the requests. -/
def takeTerminal (s : State) (line : String) (status : Modem.Status) (readAt now : Instant) :
    State × List Event :=
  match s.fifo with
  | [] => ({ s with reader := .reading }, [unmatchedEvent line])
  | r :: later =>
      if r.predates readAt then ({ s with reader := .reading }, [earlyEvent line])
      else
        let response := Text.joinLines (s.headLines ++ [line])
        let s := { s with fifo := later, headLines := [] }
        if r.readDelay = 0 then (s.deliver r (verdict status response), [])
        else
          ({ s with
            reader := .delaying r (verdict status response) (now.millis + r.readDelay) }, [])

/-- Route a whole line that was read at `now`. -/
def takeLine (s : State) (raw : Bytes) (now : Instant) : State × List Event :=
  let (s, swept) := s.absorb.sweep now
  let line := lineText raw
  if line = "" || isIgnored s.settings line then (s, swept)
  else
    let seen := swept ++ [.trace source ("line: " ++ Text.quote line)]
    match Modem.classifyLine line s.settings.marker with
    | .report segments => (s.takeReport segments, seen)
    | .raw => (s.takeRaw line now, seen)
    | .terminal status =>
        if s.fifo.isEmpty then
          ({ s with reader := .graceful line status now (now.millis + handoffGrace) }, seen)
        else
          let (s, events) := s.takeTerminal line status now now
          (s, seen ++ events)

/-- The first whole line among the bytes that came, with its line feed. -/
def wholeLine (s : State) : Option (Bytes × Bytes) :=
  (Text.cut? [lineFeed] s.buffer).map fun (line, later) => (line ++ [lineFeed], later)

/-- More bytes have come. -/
def receive (s : State) (chunk : Bytes) : State := { s with buffer := s.buffer ++ chunk }

/-- Read the next whole line. A reader that is told to stop may do so as well: which of the two it
sees first is open. -/
def readLine (s : State) (now : Instant) : Option (State × List Event) :=
  match s.reader, s.wholeLine with
  | .reading, some (line, later) => some ({ s with buffer := later }.takeLine line now)
  | _, _ => none

/-- Reading failed. The line that had begun is lost. -/
def readFailed (s : State) (fault : IoFault) (now : Instant) : Option (State × Event) :=
  match s.reader with
  | .reading =>
      some ({ s with buffer := [], reader := .resting (now.millis + rest) },
        .warn source ("read error: " ++ fault.message))
  | _ => none

/-- The stream has ended behind all whole lines: what is left counts as a line. -/
def readEnd (s : State) (now : Instant) : Option (State × List Event) :=
  match s.reader, s.wholeLine, s.buffer with
  | .reading, none, [] => some ({ s with reader := .resting (now.millis + rest) }, [])
  | .reading, none, left => some ({ s with buffer := [] }.takeLine left now)
  | _, _, _ => none

def restEnds (s : State) : Option State :=
  match s.reader with
  | .resting _ => some { s with reader := .reading }
  | _ => none

/-- The waiting terminal line meets a request that was handed meanwhile. -/
def meetHanded (s : State) (now : Instant) : Option (State × List Event) :=
  match s.reader, s.handoff with
  | .graceful line status readAt _, r :: later =>
      some ({ s with fifo := s.fifo ++ [r], handoff := later }.takeTerminal line status readAt now)
  | _, _ => none

/-- Nothing was handed in time. -/
def graceEnds (s : State) (now : Instant) : Option (State × List Event) :=
  match s.reader with
  | .graceful line status readAt _ => some (s.takeTerminal line status readAt now)
  | _ => none

def delayEnds (s : State) : Option State :=
  match s.reader with
  | .delaying r result _ => some (s.deliver r result)
  | _ => none

/-- Fail all requests that wait for a terminal line. -/
def failAll (s : State) : State :=
  let s := s.absorb
  s.fifo.foldl (fun s r => s.resolve r (.error (.closed "serial multiplexer closed")))
    { s with fifo := [], headLines := [] }

/-- Stop after closing; a line or reply in hand is finished first. -/
def stopReader (s : State) : Option (State × Event) :=
  let stopped :=
    ({ s.failAll with reader := .stopped }, Event.debug source "reader stopped")
  match s.reader with
  | .reading | .resting _ => if s.closed then some stopped else none
  | _ => none

end State

end BleBridge.Mux
