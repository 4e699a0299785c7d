import BleBridge.Bus.Envelope
import BleBridge.Json.Members

/-! # Summaries of device and reading responses -/

namespace BleBridge.Service

open Bus (Envelope)

structure CommandInfo where
  name : String
  resourceNames : List String
deriving DecidableEq, Repr

/-- A device with those of its commands that carry resources. -/
structure ResourceInfo where
  deviceName : String
  profileName : String
  commands : List CommandInfo
deriving DecidableEq, Repr

/-- The first reading of an event. -/
structure ReadingSummary where
  resourceName : String
  value : String
  valueType : String
  sourceName : String
deriving DecidableEq, Repr

/-- A string member; anything else counts as the empty text. -/
def textMember (v : Json) (key : String) : String := (v.text? key).getD ""

def resourceNames (command : Json) : Option (List String) :=
  (command.items? "parameters").map fun parameters =>
    parameters.filterMap fun p => p.text? "resourceName"

/-- Commands without resources are left out. -/
def commandInfo? (command : Json) : Option CommandInfo :=
  match resourceNames command with
  | some (name :: names) => some ⟨textMember command "name", name :: names⟩
  | _ => none

/-- Devices without such commands are left out. -/
def resourceInfo? (device : Json) : Option ResourceInfo :=
  match (device.items? "coreCommands").map (List.filterMap commandInfo?) with
  | some (command :: commands) =>
      some ⟨textMember device "deviceName", textMember device "profileName",
        command :: commands⟩
  | _ => none

/-- The devices of a response to the query for all devices. -/
def resourceInfos (e : Envelope) : Except BridgeError (List ResourceInfo) := do
  let payload ← e.payloadJson
  match payload.items? "deviceCoreCommands" with
  | none => throw (.serialization "deviceCoreCommands missing or not a list")
  | some devices => return devices.filterMap resourceInfo?

/-- The value of a reading: strings as they are, nothing for null, else the JSON text. -/
def readingValue (reading : Json) : String :=
  match reading.get? "value" with
  | some (.string s) => s
  | some .null | none => ""
  | some other => other.text

/-- The first reading of a response to the query for a reading. -/
def readingSummary (e : Envelope) : Except BridgeError ReadingSummary := do
  let payload ← e.payloadJson
  match (payload.get? "event").filter Json.isObject with
  | none => throw (.serialization "event missing or wrong type")
  | some event =>
      match (event.items? "readings").bind List.head? with
      | none => throw (.serialization "readings missing or empty")
      | some first =>
          if first.isObject then
            return ⟨textMember first "resourceName", readingValue first,
              textMember first "valueType", textMember event "sourceName"⟩
          else throw (.serialization "invalid reading format")

def CommandInfo.toJson (c : CommandInfo) : Json :=
  .ofMembers [("name", .string c.name), ("resourceNames", .array (c.resourceNames.map .string))]

def ResourceInfo.toJson (r : ResourceInfo) : Json :=
  .ofMembers [("deviceName", .string r.deviceName), ("profileName", .string r.profileName),
    ("commands", .array (r.commands.map CommandInfo.toJson))]

def ReadingSummary.toJson (r : ReadingSummary) : Json :=
  .ofMembers [("resourceName", .string r.resourceName), ("value", .string r.value),
    ("valueType", .string r.valueType), ("sourceName", .string r.sourceName)]

end BleBridge.Service
