import BleBridge.Config.Layers
import BleBridge.Config.Port
import BleBridge.Program.Help
import BleBridge.Program.Line
import BleBridge.Program.LogFilter
import BleBridge.Yaml.Printer

/-! # A run of the program

A run reads its arguments and its settings, sets up the log and opens the serial port. What it needs
to know of the world it asks of its surroundings. -/

namespace BleBridge.Program

/-- What a run asks for. -/
structure Surroundings (m : Type → Type) where
  /-- The variables of the environment. -/
  environment : m (List (String × String))
  settingsAt (path : String) : m Config.Source
  /-- Make a directory with those above it; tells what was in the way. -/
  makeDirectory (path : String) : m (Option String)
  /-- Why the serial port cannot be opened. -/
  portFault (port : String) : m String
  /-- The time as the log tells it. -/
  time : m String

/-- How the names of log files begin; the date follows. -/
def logName : String := "blesrv.log."

structure Outcome where
  exit : Nat
  out : String := ""
  err : String := ""
  /-- The directory of the log file, and what is written to the file. -/
  log : Option (String × String) := none
deriving DecidableEq, Repr

/-- Every line of a cause is indented. -/
def report (doing : String) (cause : BridgeError) : String :=
  let lines := (Text.splitAt ['\n'] cause.message.toList).map fun l => "    " ++ String.ofList l
  "Error: " ++ doing ++ "\n\nCaused by:\n" ++ String.intercalate "\n" lines ++ "\n"

/-- The outcome of a run that ended in a failure. -/
def failed (doing : String) (cause : BridgeError) : Outcome :=
  { exit := 1, err := report doing cause }

/-- The outcome of a run that did not begin. Why arguments are refused is not told here. -/
def stopped : Stop → Outcome
  | .displayHelp => { exit := 0, out := help }
  | .displayVersion => { exit := 0, out := "blesrv " ++ version ++ "\n" }
  | _ => { exit := 2 }

/-- The outcome of a run that only looks at its settings. -/
def validated (a : Arguments) (c : Config) : Outcome :=
  { exit := 0
    out := "Configuration valid: " ++ a.config ++ "\n" ++ Yaml.print (Config.form.write c) ++ "\n" }

/-! ## What is logged

Every event has the place it comes from. -/

def openingEvents (filter : String) (a : Arguments) (c : Config) : List (String × Event) :=
  let summary := "blesrv::core::bootstrap"
  [("blesrv::core::logging", .info "Logging" ("initialized with filter '" ++ filter ++ "'")),
    ("blesrv", .info "" ("Starting blesrv v" ++ version)),
    (summary, .info "" ("Configuration: " ++ a.config)),
    (summary, .info "" s!"  Serial: {c.serial.portName} @ {c.serial.baudRate} baud"),
    (summary, .info "" s!"  Broker: {c.mqtt.host}:{c.mqtt.port} as '{c.mqtt.clientId}'"),
    (summary, .info "" (s!"  Peripheral: '{c.ble.deviceName}' service {c.ble.service} " ++
      s!"characteristic {c.ble.characteristic}")),
    (summary, .debug "" ("  Topics: " ++ Config.Topics.form.display c.topics))]

def portEvents (s : Config.Serial) (fault : String) : List (String × Event) :=
  let port := "blesrv::core::transport::serial"
  [(port, s.openingEvent),
    ("mio_serial", .debug "" "opening serial port in synchronous blocking mode"),
    (port, s.failureEvent fault)]

/-! ## Running -/

section
variable {m : Type → Type} [Monad m]

/-- The log of a run: what the console shows and what the file would hold. -/
def logged (s : Surroundings m) (ds : List Directive) (coloured : Bool)
    (events : List (String × Event)) : m (String × String) := do
  let shown := events.filter fun (place, e) => isLogged ds place e.level
  let timed ← shown.mapM fun (_, e) => return (← s.time, e)
  return (String.join (timed.map fun (t, e) => line coloured t e),
    String.join (timed.map fun (t, e) => line false t e))

/-- What is in the way of the log file, if there is to be one. -/
def logFault (s : Surroundings m) (c : Config.Logging) : m (Option BridgeError) :=
  if c.toFile then do
    return (← s.makeDirectory c.dir).map fun fault =>
      .config ("cannot create log directory '" ++ c.dir ++ "': " ++ fault)
  else return none

/-- Run with a log, up to the serial port. -/
def serve (s : Surroundings m) (a : Arguments) (c : Config) (filter : String)
    (ds : List Directive) : m Outcome := do
  let fault ← s.portFault c.serial.portName
  let (console, file) ← logged s ds (!a.noColor)
    (openingEvents filter a c ++ portEvents c.serial fault)
  let ended := failed ("failed to open serial port " ++ c.serial.portName) (c.serial.failure fault)
  return { ended with
    out := console
    log := if c.logging.toFile then some (c.logging.dir, file) else none }

def start (s : Surroundings m) (a : Arguments) (c : Config)
    (env : List (String × String)) : m Outcome := do
  let filter := filterText (env.lookup "RUST_LOG") (a.effectiveLevel c.logging.level)
  let refused := failed "failed to initialize logging"
  match directives? filter with
  | none => return refused (.config ("invalid log filter '" ++ filter ++ "':"))
  | some ds =>
      match ← logFault s c.logging with
      | some e => return refused e
      | none => serve s a c filter ds

/-- Run the program with its arguments. -/
def run (s : Surroundings m) (args : List String) : m Outcome :=
  match Arguments.parse args with
  | .error stop => return stopped stop
  | .ok a => do
      let env ← s.environment
      match (Config.load (← s.settingsAt a.config) env).1 with
      | .error e => return failed "failed to load configuration" e
      | .ok c => if a.validate then return validated a c else start s a c env

end

end BleBridge.Program
