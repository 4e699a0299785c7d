import BleBridge.Bus.Broker
import BleBridge.Config.Settings
import BleBridge.Text.Quoted

/-! # A broker over the network that cannot be reached

The client tries to open a session again and again until it has waited too long. Without a session
nothing is published and nothing is subscribed. -/

namespace BleBridge.Bus.Mqtt

open Config (Mqtt)

/-- How long a session is waited for. -/
def sessionWait : Millis := 10000

/-- The pause behind an attempt that was refused. -/
def retryPause : Millis := 1000

def source : String := "MQTT"

def refusedEvent : Event :=
  .error source "connection error: I/O: Connection refused (os error 111)"

/-- Sessions are opened over plain connections alone. -/
def isSupported (s : Mqtt) : Bool := Config.lowerCase s.protocol == "tcp"

def unsupported (s : Mqtt) : BridgeError :=
  .config ("unsupported MQTT protocol '" ++ s.protocol ++ "'")

def noSession (s : Mqtt) : BridgeError :=
  .bus s!"no CONNACK from {s.host}:{s.port} within {Millis.text sessionWait}"

/-- Ask for a session; `answers` tells whether a broker answers in time. -/
def connectTo (answers : Bool) (s : Mqtt) : Except BridgeError Unit :=
  if isSupported s then if answers then .ok () else .error (noSession s)
  else .error (unsupported s)

/-- What is told while every attempt is refused. -/
def refusals : List Event :=
  List.replicate (sessionWait / retryPause) refusedEvent ++ [.debug source "event loop stopped"]

def connect (s : Mqtt) : Except BridgeError Unit × List Event :=
  (connectTo false s, if isSupported s then refusals else [])

def disconnect : Except BridgeError Unit × List Event := (.ok (), [.info source "disconnected"])

/-- What an operation comes to while there is no session, and what it tells. -/
def offline (s : Mqtt) : Operation → Except BridgeError Unit × List Event
  | .connect => connect s
  | .disconnect => disconnect
  | .publish | .subscribe => (.error .notConnected, [])

def display (s : Mqtt) : String :=
  s!"MqttBusTransport \x7b host: {Text.quote s.host}, port: {s.port}, connected: false \x7d"

end BleBridge.Bus.Mqtt
