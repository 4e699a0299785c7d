import BleBridge.BridgeError
import BleBridge.Text.Blank
import BleBridge.Text.Search

/-! # Instructions reported by the peripheral -/

namespace BleBridge.Service

inductive Instruction where
  /-- Summarise all devices and their resources. -/
  | allStatus
  /-- Fetch the latest reading of a resource. -/
  | monitor (device resource : String)
  | unsupported (text : String)
deriving DecidableEq, Repr

namespace Instruction

def malformed (text : String) : BridgeError :=
  .validation ("malformed monitor command '" ++ text ++ "', expected monitor,<device>,<resource>")

/-- The trimmed pieces between commas. -/
def parts (text : String) : List String :=
  (Text.splitAt [','] text.toList).map fun p => String.ofList (Text.trimChars p)

/-- Read a report segment. One that asks to monitor needs a device and a resource. -/
def parse (segment : String) : Except BridgeError Instruction :=
  let text := Text.trim segment
  if Text.contains text "allstatus" then .ok .allStatus
  else if Text.contains text "monitor" then
    match parts text with
    | _ :: device :: resource :: _ =>
        if device ≠ "" ∧ resource ≠ "" then .ok (.monitor device resource)
        else .error (malformed text)
    | _ => .error (malformed text)
  else .ok (.unsupported text)

end Instruction

end BleBridge.Service
