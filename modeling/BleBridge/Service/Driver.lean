import BleBridge.Link.Sender
import BleBridge.Modem.Controller
import BleBridge.Service.Agent

/-! # The driver: the resources of the bridge -/

namespace BleBridge.Service

namespace Resource

def version : String := "Version"
def address : String := "Address"
def state : String := "State"
def peripheralInit : String := "Setting&&PeripheralInit"
def txPower : String := "SetTxPower"
def baud : String := "SetBaud"
def sendString : String := "SendString"

end Resource

structure Driver where
  config : Config
  link : Link.Sender
deriving DecidableEq, Repr

namespace Driver

def source : String := "Driver"

def ofConfig (config : Config) : Except BridgeError Driver := do
  config.validate
  return ⟨config, ← Link.Sender.ofSettings config.link⟩

def readyEvent (d : Driver) : Event :=
  .info source ("initialized for '" ++ d.config.ble.deviceName ++ "' on " ++
    d.config.serial.portName)

def controller (d : Driver) : Modem.Controller := { settings := d.config.ble }

def outlet (d : Driver) : Outlet := d.link.sendValue

def commands (d : Driver) : Commands := ⟨d.config.topics, d.outlet⟩

/-- Where lines of raw data go. -/
def upTopic (d : Driver) : String := d.config.topics.up

/-- Pass on what comes on the down topic. -/
def passDown (d : Driver) : String → Bus.Envelope → Attempt Unit := Agent.passDown d.outlet

/-- Bring the module up and give the down topic to the handler of that number. -/
def start (d : Driver) (handler : Nat) : Attempt Unit := do
  d.controller.bringUp
  Attempt.perform (Routine.perform (.subscribe d.config.topics.down handler))
  Attempt.log (.info source "started")

def stop : Routine Unit := do
  Routine.perform .stopPumps
  Routine.perform .closeMux
  Routine.log (.info source "stopped")

def readEvent (resource value : String) : Event :=
  .debug source ("read " ++ resource ++ " = " ++ (Json.string value).text)

/-- Read a resource. -/
def read (d : Driver) (resource : String) : Attempt Json := do
  let value : String ←
    if resource = Resource.version then d.controller.version
    else if resource = Resource.address then d.controller.address
    else if resource = Resource.state then Modem.State.token <$> d.controller.state
    else throw (.validation ("unknown read resource '" ++ resource ++ "'"))
  Attempt.log (readEvent resource value)
  return .string value

def isDigit (c : Char) : Bool := '0' ≤ c && c ≤ '9'

def digitsValue (cs : List Char) : Nat := cs.foldl (fun n c => n * 10 + (c.toNat - '0'.toNat)) 0

/-- A whole number in decimal digits, with or without a sign. -/
def wholeNumber? (cs : List Char) : Option Int :=
  let (negative, digits) := match cs with
    | '-' :: rest => (true, rest)
    | '+' :: rest => (false, rest)
    | _ => (false, cs)
  if digits.isEmpty || !digits.all isDigit then none
  else
    let n : Int := digitsValue digits
    some (if negative then -n else n)

def inRange (least most n : Int) : Option Int := if least ≤ n ∧ n ≤ most then some n else none

/-- The whole number that a value stands for, be it a number or a text. -/
def wholeValue? : Json → Option Int
  | .number n => n.toInt64?
  | .string s =>
      (wholeNumber? (Text.trimChars s.toList)).bind (inRange (-0x8000000000000000) 0x7FFFFFFFFFFFFFFF)
  | _ => none

def intValue (resource : String) (value : Json) : Except BridgeError Int :=
  match wholeValue? value with
  | some n => .ok n
  | none => .error (.validation (resource ++ " expects an integer, got " ++ value.text))

/-- A whole number that fits into a signed byte. -/
def byteValue (resource : String) (value : Json) : Except BridgeError Int := do
  match inRange (-128) 127 (← intValue resource value) with
  | some n => return n
  | none => throw (.validation (resource ++ " value " ++ value.text ++ " out of range"))

def textValue (value : Option Json) (complaint : String) : Except BridgeError String :=
  match value.bind Json.asString? with
  | some s => .ok s
  | none => .error (.validation complaint)

/-- The lines that a value for a resource stands for. -/
def linesFor (d : Driver) (resource : String) (value : Json) :
    Except BridgeError (List String) := do
  if resource = Resource.peripheralInit then
    let name ← textValue (value.get? "BleName") "BleName must be a string"
    let s := d.config.ble
    bridged (Modem.Command.peripheralInit name s.service s.characteristic)
  else if resource = Resource.txPower then
    return [← bridged (Modem.Command.setTxPower (← byteValue resource value))]
  else if resource = Resource.baud then
    return [← bridged (Modem.Command.setBaud (← intValue resource value))]
  else if resource = Resource.sendString then
    let text ← textValue (some value) "SendString value must be a string"
    return [← bridged (Modem.Command.sendNotify d.config.link.handle text)]
  else throw (.validation ("unknown write resource '" ++ resource ++ "'"))

def isKnown (resource : String) : Bool :=
  [Resource.peripheralInit, Resource.txPower, Resource.baud, Resource.sendString].contains
    resource

/-- Send the lines of a write, each of which has been accepted. -/
def sendLines (d : Driver) (resource : String) (value : Json) (lines : List String) :
    Attempt Unit := do
  if resource = Resource.peripheralInit then
    d.controller.replay lines
    let name := textMember value "BleName"
    Attempt.log (.info source ("peripheral re-initialized as '" ++ name ++ "'"))
  else lines.forM fun line => do let _ ← d.controller.sendSingle line

/-- Write a value to a resource. All lines are built before the first one is sent. -/
def write (d : Driver) (resource : String) (value : Json) : Attempt Unit := do
  if !isKnown resource then
    Attempt.log (.warn source ("write to unknown resource '" ++ resource ++ "'"))
  let lines ← Attempt.ofExcept (d.linesFor resource value)
  d.sendLines resource value lines

def display (d : Driver) (mux bus : String) : String :=
  "BleDriver \x7b device_name: " ++ Text.quote d.config.ble.deviceName ++ ", mux: " ++ mux ++
    ", bus: " ++ bus ++ " \x7d"

end Driver

end BleBridge.Service
