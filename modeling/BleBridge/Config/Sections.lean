import BleBridge.Config.Form
import BleBridge.Config.Settings

/-! # The written form of the settings -/

namespace BleBridge.Config

def Serial.form : Section Serial where
  title := "SerialConfig"
  defaults := {}
  fields :=
    [field "port_name" .text (·.portName) fun s v => { s with portName := v },
      field "baud_rate" (.word 32) (·.baudRate) fun s v => { s with baudRate := v },
      field "read_timeout_ms" (.word 64) (·.readTimeout) fun s v => { s with readTimeout := v },
      field "data_bits" (.word 8) (·.dataBits) fun s v => { s with dataBits := v },
      field "stop_bits" (.word 8) (·.stopBits) fun s v => { s with stopBits := v },
      field "parity" .text (·.parity) fun s v => { s with parity := v },
      field "flow_control" .text (·.flowControl) fun s v => { s with flowControl := v }]

def Mqtt.form : Section Mqtt where
  title := "MqttConfig"
  defaults := {}
  fields :=
    [field "host" .text (·.host) fun m v => { m with host := v },
      field "port" (.word 16) (·.port) fun m v => { m with port := v },
      field "protocol" .text (·.protocol) fun m v => { m with protocol := v },
      field "client_id" .text (·.clientId) fun m v => { m with clientId := v },
      field "qos" (.word 8) (·.qos) fun m v => { m with qos := v },
      field "username" (.optional .text) (·.username) fun m v => { m with username := v },
      field "password" (.optional .text) (·.password) fun m v => { m with password := v },
      field "keep_alive_secs" (.word 64) (·.keepAliveSeconds) fun m v =>
        { m with keepAliveSeconds := v },
      field "request_timeout_ms" (.word 64) (·.requestTimeout) fun m v =>
        { m with requestTimeout := v }]

def Mux.form : Section Mux where
  title := "MuxSettings"
  defaults := {}
  fields :=
    [field "queue_capacity" (.word 64) (·.queueCapacity) fun m v => { m with queueCapacity := v },
      field "ignore_prefixes" (.list .text) (·.ignored) fun m v => { m with ignored := v },
      field "command_report_marker" .text (·.marker) fun m v => { m with marker := v }]

def Link.form : Section Link where
  title := "LinkSettings"
  defaults := {}
  fields :=
    [field "mtu" (.word 64) (·.mtu) fun l v => { l with mtu := v },
      field "notify_handle" .text (·.handle) fun l v => { l with handle := v },
      field "packet_timeout_ms" (.word 64) (·.packetTimeout) fun l v =>
        { l with packetTimeout := v },
      field "read_delay_ms" (.word 64) (·.readDelay) fun l v => { l with readDelay := v },
      field "queue_wait_ms" (.word 64) (·.queueWait) fun l v => { l with queueWait := v },
      field "reassembly_max_age_ms" (.word 64) (·.maxAge) fun l v => { l with maxAge := v }]

namespace InitPolicy

def word : InitPolicy → String
  | bestEffort => "best_effort"
  | allOrNothing => "all_or_nothing"

def display : InitPolicy → String
  | bestEffort => "BestEffort"
  | allOrNothing => "AllOrNothing"

def ofWord? (w : String) : Option InitPolicy := [bestEffort, allOrNothing].find? (·.word == w)

/-- The word alone, or as the only key of an object that holds null. -/
def read : Json → Option InitPolicy
  | .string w => ofWord? w
  | .object [(w, .null)] => ofWord? w
  | _ => none

def form : Form InitPolicy := ⟨read, fun p => .string p.word, display⟩

end InitPolicy

def Peripheral.form : Section Peripheral where
  title := "BleSettings"
  defaults := {}
  fields :=
    [field "device_name" .text (·.deviceName) fun b v => { b with deviceName := v },
      field "service_uuid" .text (·.service) fun b v => { b with service := v },
      field "characteristic_uuid" .text (·.characteristic) fun b v =>
        { b with characteristic := v },
      field "init_policy" InitPolicy.form (·.initPolicy) fun b v => { b with initPolicy := v }]

def Topics.form : Section Topics where
  title := "TopicConfig"
  defaults := {}
  fields :=
    [field "up" .text (·.up) fun t v => { t with up := v },
      field "down" .text (·.down) fun t v => { t with down := v },
      field "all_status_request" .text (·.allStatusRequest) fun t v =>
        { t with allStatusRequest := v },
      field "response" .text (·.response) fun t v => { t with response := v },
      field "reading_request" .text (·.readingRequest) fun t v => { t with readingRequest := v }]

def Logging.form : Section Logging where
  title := "LoggingConfig"
  defaults := {}
  fields :=
    [field "level" .text (·.level) fun l v => { l with level := v },
      field "dir" .text (·.dir) fun l v => { l with dir := v },
      field "enable_file" .flag (·.toFile) fun l v => { l with toFile := v }]

/-- The settings as a whole. -/
def form : Section Config where
  title := "AppConfig"
  defaults := {}
  fields :=
    [field "serial" Serial.form.form (·.serial) fun c v => { c with serial := v },
      field "mqtt" Mqtt.form.form (·.mqtt) fun c v => { c with mqtt := v },
      field "mux" Mux.form.form (·.mux) fun c v => { c with mux := v },
      field "link" Link.form.form (·.link) fun c v => { c with link := v },
      field "ble" Peripheral.form.form (·.ble) fun c v => { c with ble := v },
      field "topics" Topics.form.form (·.topics) fun c v => { c with topics := v },
      field "logging" Logging.form.form (·.logging) fun c v => { c with logging := v }]

end BleBridge.Config
