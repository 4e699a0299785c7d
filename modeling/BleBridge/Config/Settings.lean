import BleBridge.BridgeError
import BleBridge.Frame.Layout
import BleBridge.Millis
import BleBridge.Modem.Reply

/-! # Settings of the bridge and their defaults -/

namespace BleBridge

namespace Config

structure Serial where
  portName : String := "/dev/ttyUSB0"
  baudRate : Nat := 115200
  readTimeout : Millis := 100
  dataBits : Nat := 8
  stopBits : Nat := 1
  parity : String := "none"
  flowControl : String := "none"
deriving DecidableEq, Repr, Inhabited

structure Mqtt where
  host : String := "localhost"
  port : Nat := 1883
  protocol : String := "tcp"
  clientId : String := "device-ble"
  qos : Nat := 0
  username : Option String := none
  password : Option String := none
  keepAliveSeconds : Nat := 30
  requestTimeout : Millis := 300
deriving DecidableEq, Repr, Inhabited

structure Mux where
  /-- How many requests may wait to be written. -/
  queueCapacity : Nat := 10
  /-- Lines that start with one of these are dropped unseen. -/
  ignored : List String := ["freqchip"]
  marker : String := Modem.defaultReportMarker
deriving DecidableEq, Repr, Inhabited

structure Link where
  mtu : Nat := Frame.defaultMtu
  handle : String := Frame.defaultHandle
  packetTimeout : Millis := 300
  readDelay : Millis := 1
  queueWait : Millis := 100
  /-- Messages that have been open for longer are given up; zero means never. -/
  maxAge : Millis := 5000
deriving DecidableEq, Repr, Inhabited

/-- What a failing command means to a list of initial commands. -/
inductive InitPolicy where
  /-- Send all commands, report the last failure. -/
  | bestEffort
  /-- Stop at the first failure. -/
  | allOrNothing
deriving DecidableEq, Repr, Inhabited

structure Peripheral where
  deviceName : String := "QuecHCM111Z"
  service : String := "fff1"
  characteristic : String := "fff2"
  initPolicy : InitPolicy := .allOrNothing
deriving DecidableEq, Repr, Inhabited

structure Topics where
  /-- Raw data of the peripheral goes out here. -/
  up : String := "edgex/service/data/device_ble/up"
  /-- Envelopes that come here go to the peripheral. -/
  down : String := "edgex/service/data/device_ble/dwon"
  allStatusRequest : String := "edgex/core/commandquery/request/all"
  /-- The filter for all responses. -/
  response : String := "edgex/response/#"
  readingRequest : String := "edgex/core/command/request"
deriving DecidableEq, Repr, Inhabited

structure Logging where
  level : String := "info"
  dir : String := "logs"
  toFile : Bool := false
deriving DecidableEq, Repr, Inhabited

end Config

structure Config where
  serial : Config.Serial := {}
  mqtt : Config.Mqtt := {}
  mux : Config.Mux := {}
  link : Config.Link := {}
  ble : Config.Peripheral := {}
  topics : Config.Topics := {}
  logging : Config.Logging := {}
deriving DecidableEq, Repr, Inhabited

namespace Config

def Mqtt.keepAlive (m : Mqtt) : Millis := m.keepAliveSeconds * 1000

/-- The layout of the frames on the link. -/
def Link.layout (l : Link) : Except BridgeError Frame.Layout :=
  bridged (Frame.Layout.notify l.mtu l.handle)

/-- The age limit of open messages. -/
def Link.ageLimit (l : Link) : Option Millis := if 0 < l.maxAge then some l.maxAge else none

/-- Words are told apart without regard to case. -/
def lowerCase (s : String) : String := String.ofList (s.toList.map Char.toLower)

def refuseUnless (reason : String) (holds : Bool) : Except BridgeError Unit :=
  if holds then .ok () else .error (.config reason)

@[simp] theorem refuseUnless_eq_ok_iff (reason : String) (holds : Bool) :
    refuseUnless reason holds = .ok () ↔ holds := by
  cases holds <;> simp [refuseUnless]

def isBlankText (s : String) : Bool := (Text.trim s).isEmpty

def Link.check (l : Link) : Except BridgeError Unit :=
  match l.layout with
  | .ok _ => .ok ()
  | .error e => .error (.config ("link: " ++ e.message))

/-- Whether the bridge can work with the settings; tells the first that is wrong. -/
def validate (c : Config) : Except BridgeError Unit := do
  refuseUnless "serial.port_name cannot be empty" (!isBlankText c.serial.portName)
  refuseUnless "serial.baud_rate must be greater than zero" (c.serial.baudRate != 0)
  refuseUnless "serial.data_bits must be 5, 6, 7, or 8" ([5, 6, 7, 8].contains c.serial.dataBits)
  refuseUnless "serial.stop_bits must be 1 or 2" ([1, 2].contains c.serial.stopBits)
  refuseUnless "serial.parity must be none, even, or odd"
    (["none", "even", "odd"].contains (lowerCase c.serial.parity))
  refuseUnless "serial.flow_control must be none, software, or hardware"
    (["none", "software", "hardware"].contains (lowerCase c.serial.flowControl))
  refuseUnless "mqtt.host cannot be empty" (!isBlankText c.mqtt.host)
  refuseUnless s!"mqtt.qos must be 0, 1 or 2, got {c.mqtt.qos}" (c.mqtt.qos ≤ 2)
  refuseUnless "mux.queue_capacity must be at least 1" (c.mux.queueCapacity != 0)
  c.link.check
  refuseUnless s!"ble.device_name exceeds {Modem.Command.maxNameSize} bytes"
    (Text.size c.ble.deviceName ≤ Modem.Command.maxNameSize)

/-- Overrides by the unprefixed variables of older deployments; empty ones do not count. -/
def overriddenBy (c : Config) (lookup : String → Option String) : Config :=
  let set := fun name => (lookup name).filter (· ≠ "")
  { c with
    mqtt := { c.mqtt with
      host := (set "MQTT_HOST").getD c.mqtt.host
      username := (set "MQTT_USERNAME").or c.mqtt.username }
    serial := { c.serial with portName := (set "SERIAL_PORT").getD c.serial.portName } }

end Config

end BleBridge
