import BleBridge.BridgeError
import BleBridge.Config.Settings
import BleBridge.Event
import BleBridge.Millis
import BleBridge.Text.Quoted

/-! # The multiplexer

One serial line carries commands with their replies, reports of the peripheral and raw data. The
writer takes requests from a bounded queue, writes their commands and hands them to the reader.
The reader takes lines: a terminal line answers the request written first, a report goes to the
command consumer, and other lines go to the raw consumer and also into the reply under way. -/

namespace BleBridge.Mux

/-- What a caller asks of the multiplexer. -/
structure Order where
  command : Bytes
  timeout : Millis
  readDelay : Millis
  queueWait : Millis
deriving DecidableEq, Repr

/-- How long the caller waits once admitted. -/
def Order.patience (o : Order) : Millis := o.readDelay + o.timeout

/-- A command that waits for its terminal line. The ticket tells whose it is. -/
structure Request where
  ticket : Nat
  command : Bytes
  timeout : Millis
  readDelay : Millis
  enqueuedAt : Instant
  /-- Set when the command is about to go out. -/
  writtenAt : Instant
deriving DecidableEq, Repr

def Order.request (o : Order) (ticket : Nat) (now : Instant) : Request :=
  ⟨ticket, o.command, o.timeout, o.readDelay, now, now⟩

namespace Request

def isExpired (r : Request) (now : Instant) : Bool :=
  (r.timeout + r.readDelay).nanos < now - r.enqueuedAt

/-- A line that was read before the command went out cannot answer it. -/
def predates (r : Request) (readAt : Instant) : Bool := readAt < r.writtenAt

/-- The command as it stands in log events. -/
def shown (r : Request) : String := Text.quote (Text.trimEnd (Text.ofBytesLossy r.command))

end Request

inductive Writer where
  | idle
  /-- The bytes are going out. -/
  | writing (r : Request)
  /-- The bytes are out, the reader does not know of it yet. -/
  | handing (r : Request)
  | stopped
deriving DecidableEq, Repr

inductive Reader where
  | reading
  /-- Nothing came or reading failed. -/
  | resting (due : Millis)
  /-- A terminal line came while nothing was pending; the request may be about to be handed. -/
  | graceful (line : String) (status : Modem.Status) (readAt : Instant) (due : Millis)
  /-- The reply is complete, its delivery is put off. -/
  | delaying (r : Request) (verdict : Except Fault String) (due : Millis)
  | stopped
deriving Repr

def Reader.isStopped : Reader → Bool
  | stopped => true
  | _ => false

structure Counters where
  written : Nat := 0
  responses : Nat := 0
  timeouts : Nat := 0
  reports : Nat := 0
  rawLines : Nat := 0
deriving DecidableEq, Repr, Inhabited

structure State where
  settings : Config.Mux
  closed : Bool
  /-- Callers that wait for room in the queue, in turn. -/
  waiting : List Nat
  queue : List Request
  writer : Writer
  handoff : List Request
  /-- Written requests, the first of which is answered next. -/
  fifo : List Request
  /-- The lines of the reply under way. -/
  headLines : List String
  reader : Reader
  /-- Bytes that came and are not part of a finished line. -/
  buffer : Bytes
  counters : Counters
  /-- Resolved requests with their results, newest first. -/
  resolved : List (Nat × Except BridgeError String)
  /-- Lines that the consumers have not taken yet. -/
  reports : List String
  rawLines : List String
deriving Repr

def source : String := "Serial Mux"

def new (settings : Config.Mux) : State :=
  { settings, closed := false, waiting := [], queue := [], writer := .idle, handoff := [],
    fifo := [], headLines := [], reader := .reading, buffer := [], counters := {},
    resolved := [], reports := [], rawLines := [] }

def startEvent (settings : Config.Mux) : Event :=
  .info source s!"started (queue capacity {settings.queueCapacity})"

/-- How many requests the queue holds. -/
def capacity (settings : Config.Mux) : Nat := max settings.queueCapacity 1

namespace State

def resolve (s : State) (r : Request) (result : Except BridgeError String) : State :=
  { s with resolved := (r.ticket, result) :: s.resolved }

/-- The result for a ticket, once there is one. -/
def resultOf (s : State) (ticket : Nat) : Option (Except BridgeError String) :=
  (s.resolved.find? (·.1 == ticket)).map Prod.snd

def display (s : State) : String :=
  let c := s.counters
  s!"SerialMultiplexer \x7b closed: {s.closed}, stats: MuxStats \x7b written: {c.written}, " ++
    s!"responses: {c.responses}, timeouts: {c.timeouts}, command_reports: {c.reports}, " ++
    s!"raw_lines: {c.rawLines} \x7d \x7d"

end State

end BleBridge.Mux
