import BleBridge.Bus.Mqtt
import BleBridge.Proofs.Modem.Accepted
import BleBridge.Proofs.Modem.Policies
import BleBridge.Service.Driver

/-!
# Starting with settings that were approved

What `Config.validate` approves is told as a condition on the settings (`Config.Valid`).
It says that frames can be built, but not all that bringing up the module and opening
a session ask for: the name and the identifiers of the peripheral (`IsAnnounceable`) and the
protocol of the session are looked at only then.  A start with settings that pass
fails only through an answer that it gets (`Brings`).
-/

namespace BleBridge

namespace Config

variable {c : Config} {l : Link} {p : Peripheral}

/-- What the bridge asks of its settings before it starts. -/
structure Valid (c : Config) : Prop where
  portName : !isBlankText c.serial.portName
  baudRate : c.serial.baudRate != 0
  dataBits : [5, 6, 7, 8].contains c.serial.dataBits
  stopBits : [1, 2].contains c.serial.stopBits
  parity : ["none", "even", "odd"].contains (lowerCase c.serial.parity)
  flowControl : ["none", "software", "hardware"].contains (lowerCase c.serial.flowControl)
  host : !isBlankText c.mqtt.host
  qos : c.mqtt.qos ≤ 2
  queueCapacity : c.mux.queueCapacity != 0
  layout : ∃ f, c.link.layout = .ok f
  nameSize : Text.size c.ble.deviceName ≤ Modem.Command.maxNameSize

theorem Link.check_eq_ok_iff : l.check = .ok () ↔ ∃ f, l.layout = .ok f := by
  rw [Link.check]
  cases l.layout with
  | ok f => exact ⟨fun _ ↦ ⟨f, rfl⟩, fun _ ↦ rfl⟩
  | error e =>
      constructor
      · rintro ⟨⟩
      · rintro ⟨_, ⟨⟩⟩

theorem validate_eq_ok_iff : c.validate = .ok () ↔ c.Valid := by
  simp only [validate, check_bind_eq_ok_iff, refuseUnless_eq_ok_iff, Link.check_eq_ok_iff,
    decide_eq_true_eq]
  constructor
  · rintro ⟨h₁, h₂, h₃, h₄, h₅, h₆, h₇, h₈, h₉, hlayout, hsize⟩
    exact ⟨h₁, h₂, h₃, h₄, h₅, h₆, h₇, h₈, h₉, hlayout, hsize⟩
  · intro h
    exact ⟨h.portName, h.baudRate, h.dataBits, h.stopBits, h.parity, h.flowControl, h.host, h.qos,
      h.queueCapacity, h.layout, h.nameSize⟩

/-- The module can be brought up under these settings. -/
structure Peripheral.IsAnnounceable (p : Peripheral) : Prop where
  named : p.deviceName ≠ ""
  chars : ∀ x ∈ p.deviceName.toList, Modem.Command.isNameChar x
  service : Modem.Command.IsUuid p.service
  characteristic : Modem.Command.IsUuid p.characteristic

/-- A name that is short enough leaves the other conditions open. -/
theorem Peripheral.exists_peripheralInit_iff
    (hsize : Text.size p.deviceName ≤ Modem.Command.maxNameSize) :
    (∃ lines, Modem.Command.peripheralInit p.deviceName p.service p.characteristic = .ok lines) ↔
      p.IsAnnounceable := by
  simp only [Modem.Command.peripheralInit_eq_ok_iff, exists_and_left, exists_eq, and_true]
  constructor
  · rintro ⟨hservice, hcharacteristic, hname⟩
    exact ⟨hname.ne_empty, hname.chars, hservice, hcharacteristic⟩
  · intro h
    exact ⟨h.service, h.characteristic, h.named, hsize, h.chars⟩

end Config

/-! ## Sessions -/

namespace Bus.Mqtt

/-- Opening a session fails over the settings if the protocol is not supported, whatever the
broker does. -/
theorem connectTo_config_iff {answers : Bool} {m : Config.Mqtt} :
    (∃ reason, connectTo answers m = .error (.config reason)) ↔ ¬ isSupported m := by
  rw [connectTo]
  split
  · rename_i hsupported
    simp only [hsupported, not_true_eq_false, iff_false]
    rintro ⟨_, h⟩
    split at h <;> cases h
  · rename_i hsupported
    exact ⟨fun _ ↦ hsupported, fun _ ↦ ⟨_, rfl⟩⟩

end Bus.Mqtt

/-! ## Answers that bring an error -/

/-- The answer to a call is the error, or a reply of the module that stands for it. -/
def Brings (e : BridgeError) : Routine.Exchange → Prop
  | ⟨.enqueue _, .ok response⟩ => bridged (Modem.checkResponse response) = .error e
  | ⟨.enqueue _, .error e'⟩ => e' = e
  | ⟨.subscribe _ _, .error e'⟩ => e' = e
  | _ => False

namespace Modem.Controller

open Routine (Exchange)

variable {c : Controller} {lines : List String} {t : List Exchange} {e : BridgeError}

theorem brings_of_failure? {o : Mux.Order} {reply : Except BridgeError String}
    (h : failure? reply = some e) : Brings e ⟨.enqueue o, reply⟩ := by
  cases reply with
  | error e' =>
      cases h
      rfl
  | ok response =>
      change bridged (checkResponse response) = .error e
      cases hcheck : checkResponse response with
      | ok _ =>
          rw [failure?_eq_none_iff.mpr ⟨response, rfl, hcheck⟩] at h
          cases h
      | error fault =>
          rw [failure?_of_error hcheck] at h
          cases h
          rfl

/-- A list of lines fails with an error of one of them, or with one from before. -/
theorem brings_of_replayFrom {total step : Nat} {last : Except BridgeError Unit}
    (h : (c.replayFrom total step last lines).Runs t (.error e)) :
    last = .error e ∨ ∃ x ∈ t, Brings e x := by
  refine ((sends_replayFrom h).failed e rfl).imp id ?_
  rintro ⟨reply, hreply, hfailure⟩
  obtain ⟨o, -, hmem⟩ := Routine.exists_of_mem_replies hreply
  exact ⟨_, hmem, brings_of_failure? hfailure⟩

/-- If the lines can be built, only an answer makes them fail. -/
theorem brings_of_bringUp (hlines : ∃ lines, Command.peripheralInit c.settings.deviceName
      c.settings.service c.settings.characteristic = .ok lines)
    (h : c.bringUp.run.Runs t (.error e)) : ∃ x ∈ t, Brings e x := by
  obtain ⟨lines, hlines⟩ := hlines
  rw [bringUp, hlines] at h
  rcases Attempt.runs_bind_iff.mp h with ⟨_, ⟨-, ⟨⟩⟩, -⟩ | ⟨_, t, _, rfl, ⟨rfl, ⟨⟩⟩, hsent⟩
  rcases Attempt.runs_bind_iff.mp hsent with ⟨_, hfailed, ⟨⟩⟩ | ⟨_, _, _, rfl, -, hlogged⟩
  · rcases brings_of_replayFrom hfailed with ⟨⟨⟩⟩ | hbrings
    exact hbrings
  · obtain ⟨_, _, -, -, ⟨⟩⟩ := hlogged

end Modem.Controller

namespace Service.Driver

variable {d : Driver} {handler : Nat} {t : List Routine.Exchange} {e : BridgeError}

theorem brings_of_start (hlines : d.config.ble.IsAnnounceable)
    (hsize : Text.size d.config.ble.deviceName ≤ Modem.Command.maxNameSize)
    (h : (d.start handler).run.Runs t (.error e)) : ∃ x ∈ t, Brings e x := by
  rcases Attempt.runs_bind_iff.mp h with ⟨_, hfailed, ⟨⟩⟩ | ⟨t₁, t₂, _, rfl, -, hrest⟩
  · exact Modem.Controller.brings_of_bringUp
      ((Config.Peripheral.exists_peripheralInit_iff hsize).mpr hlines) hfailed
  · rcases Attempt.runs_bind_iff.mp hrest with ⟨_, hfailed, ⟨⟩⟩ | ⟨_, _, _, rfl, -, hlogged⟩
    · obtain ⟨_, _, rfl, rfl, rfl⟩ := hfailed
      exact ⟨_, List.mem_append_right _ (List.mem_singleton_self _), rfl⟩
    · obtain ⟨_, _, -, -, ⟨⟩⟩ := hlogged

/-- If the lines cannot be built, a start fails before it has called on anything. -/
theorem exists_runs_start_nil
    (hlines : ¬ ∃ lines, Modem.Command.peripheralInit d.config.ble.deviceName
      d.config.ble.service d.config.ble.characteristic = .ok lines) (handler : Nat) :
    ∃ e, (d.start handler).run.Runs [] (.error e) := by
  cases hbuilt : Modem.Command.peripheralInit d.config.ble.deviceName d.config.ble.service
      d.config.ble.characteristic with
  | ok lines => exact absurd ⟨lines, hbuilt⟩ hlines
  | error fault =>
      refine ⟨.ofFault fault, Attempt.runs_bind_iff.mpr (.inl ⟨_, ?_, rfl⟩)⟩
      refine Attempt.runs_bind_iff.mpr (.inl ⟨_, ⟨rfl, ?_⟩, rfl⟩)
      show Except.error _ = bridged (Modem.Command.peripheralInit _ _ _)
      rw [controller, hbuilt]
      rfl

theorem exists_ofConfig {c : Config} (hvalid : c.validate = .ok ()) :
    ∃ d, ofConfig c = .ok d ∧ d.config = c := by
  obtain ⟨f, hlayout⟩ := (Config.validate_eq_ok_iff.mp hvalid).layout
  rw [ofConfig, hvalid, Link.Sender.ofSettings, hlayout]
  exact ⟨_, rfl, rfl⟩

/-- What approved settings are good for, and what is still asked of them. -/
theorem starts_iff {c : Config} (hvalid : c.validate = .ok ()) :
    (∃ f, c.link.layout = .ok f ∧ 1 ≤ f.maxPayload) ∧
      ((∃ lines, Modem.Command.peripheralInit c.ble.deviceName c.ble.service
        c.ble.characteristic = .ok lines) ↔ c.ble.IsAnnounceable) ∧
      (∀ answers, (∃ reason, Bus.Mqtt.connectTo answers c.mqtt = .error (.config reason)) ↔
        ¬ Bus.Mqtt.isSupported c.mqtt) ∧
      ∃ d, ofConfig c = .ok d ∧
        ((∀ handler t e, (d.start handler).run.Runs t (.error e) → ∃ x ∈ t, Brings e x) ↔
          c.ble.IsAnnounceable) := by
  have hchecked := Config.validate_eq_ok_iff.mp hvalid
  obtain ⟨f, hlayout⟩ := hchecked.layout
  have hlines := Config.Peripheral.exists_peripheralInit_iff hchecked.nameSize
  obtain ⟨d, hd, rfl⟩ := exists_ofConfig hvalid
  refine ⟨⟨f, hlayout, f.maxPayload_pos⟩, hlines, fun _ ↦ Bus.Mqtt.connectTo_config_iff, d, hd, ?_⟩
  constructor
  · intro hstarts
    by_contra hble
    obtain ⟨e, hruns⟩ := exists_runs_start_nil (mt hlines.mp hble) 0
    obtain ⟨x, hx, -⟩ := hstarts 0 [] e hruns
    exact absurd hx List.not_mem_nil
  · exact fun hble handler t e hruns ↦ brings_of_start hble hchecked.nameSize hruns

/-- Settings other than the standard ones that start. -/
theorem starts_of_named :
    Config.validate { ble := { deviceName := "Edge Gateway 1", service := "FFF1" } } = .ok () ∧
      (∃ lines, Modem.Command.peripheralInit "Edge Gateway 1" "FFF1" "fff2" = .ok lines) ∧
      ∃ d, ofConfig { ble := { deviceName := "Edge Gateway 1", service := "FFF1" } } = .ok d ∧
        ∀ handler t e, (d.start handler).run.Runs t (.error e) → ∃ x ∈ t, Brings e x := by
  have hvalid : Config.validate { ble := { deviceName := "Edge Gateway 1", service := "FFF1" } } =
      .ok () := by rfl
  have hble : Config.Peripheral.IsAnnounceable
      { deviceName := "Edge Gateway 1", service := "FFF1" } :=
    ⟨by decide, List.all_eq_true.mp rfl, ⟨.inl rfl, List.all_eq_true.mp rfl⟩,
      ⟨.inl rfl, List.all_eq_true.mp rfl⟩⟩
  obtain ⟨-, hlines, -, d, hd, hstarts⟩ := starts_iff hvalid
  exact ⟨hvalid, hlines.mpr hble, d, hd, hstarts.mpr hble⟩

/-- Settings may be approved under which nothing can start: with a name that the module does not
take, without an identifier, or with another protocol. -/
theorem approved_in_vain :
    Config.validate { ble := { deviceName := "bad,name" } } = .ok () ∧
      Modem.Command.peripheralInit "bad,name" "fff1" "fff2" =
        .error (.parameter (.nameCharacter ',')) ∧
      Config.validate { ble := { service := "" } } = .ok () ∧
      Modem.Command.peripheralInit "QuecHCM111Z" "" "fff2" =
        .error (.parameter (.uuidEmpty "service")) ∧
      Config.validate { mqtt := { protocol := "ws" } } = .ok () ∧
      Bus.Mqtt.connectTo true { protocol := "ws" } =
        .error (.config "unsupported MQTT protocol 'ws'") := by
  refine ⟨?_, ?_, ?_, ?_, ?_, ?_⟩ <;> rfl

end Service.Driver

end BleBridge
