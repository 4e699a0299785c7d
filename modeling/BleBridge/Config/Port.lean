import BleBridge.Config.Settings
import BleBridge.Event

/-! # Parameters of the serial port -/

namespace BleBridge

namespace Config

inductive DataBits where
  | five | six | seven | eight
deriving DecidableEq, Repr

inductive Parity where
  | none | even | odd
deriving DecidableEq, Repr

inductive StopBits where
  | one | two
deriving DecidableEq, Repr

inductive FlowControl where
  | none | software | hardware
deriving DecidableEq, Repr

def DataBits.ofCount : Nat → DataBits
  | 5 => five
  | 6 => six
  | 7 => seven
  | _ => eight

def Parity.ofWord (word : String) : Parity :=
  match lowerCase word with
  | "even" => even
  | "odd" => odd
  | _ => none

def StopBits.ofCount : Nat → StopBits
  | 2 => two
  | _ => one

def FlowControl.ofWord (word : String) : FlowControl :=
  match lowerCase word with
  | "software" => software
  | "hardware" => hardware
  | _ => none

/-- The first letter of the parity as a capital; `N` without any. -/
def parityLetter (parity : String) : Char := (parity.toList.headD 'n').toUpper

def Serial.openingEvent (s : Serial) : Event :=
  .debug "Serial" (s!"Opening {s.portName} @ {s.baudRate} baud " ++
    s!"({s.dataBits}{parityLetter s.parity}{s.stopBits})")

/-- The port was not opened. -/
def Serial.failureEvent (s : Serial) (reason : String) : Event :=
  .error "Serial" ("Failed to open " ++ s.portName ++ ": " ++ reason)

def Serial.failure (s : Serial) (reason : String) : BridgeError :=
  .io ("Failed to open serial port " ++ s.portName ++ ": " ++ reason)

/-- Why a port that does not exist is not opened. -/
def Serial.missing : String := "No such file or directory"

/-- What opening comes to when there is no such port. -/
def Serial.openMissing (s : Serial) : BridgeError × List Event :=
  (s.failure missing, [s.openingEvent, s.failureEvent missing])

end Config

end BleBridge
