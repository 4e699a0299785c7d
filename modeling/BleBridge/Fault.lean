import BleBridge.Text.Quoted

/-! # What can go wrong between the bridge and its module -/

namespace BleBridge

/-- Why a command was not built. -/
inductive ParameterFault where
  | role (code : Nat)
  | uuidEmpty (kind : String)
  | uuidLength (kind uuid : String)
  | uuidDigits (kind uuid : String)
  | nameEmpty
  | nameLength (size limit : Nat)
  | nameCharacter (c : Char)
  | interval (value least most : Nat)
  | intervalOrder (min max : Nat)
  | txPower (dbm least most : Int)
  | baud (rate : Int) (supported : List Nat)
  | notifyEmpty
  | notifyLength (size limit : Nat)
  | notifyBreak
  | other (reason : String)
deriving DecidableEq, Repr

/-- Why a frame or a set of packets was refused. -/
inductive FrameFault where
  | short (size header : Nat)
  | total (index total expected : UInt16)
  | outside (index total : UInt16)
  | zeroTotal (index : UInt16)
  | other (reason : String)
deriving DecidableEq, Repr

/-- Why a frame layout was refused. -/
inductive LayoutFault where
  | suffixEmpty
  | noRoom (mtu lead suffix header : Nat)
  | other (reason : String)
deriving DecidableEq, Repr

inductive Fault where
  | parameter (fault : ParameterFault)
  | commandFailed (response : String)
  | moduleError (code response : String)
  | unexpected (response : String)
  | frame (fault : FrameFault)
  | missingPacket (index total : UInt16)
  | payload (reason : String)
  | layout (fault : LayoutFault)
  | io (reason : String)
  | tooManyPackets (count : Nat)
deriving DecidableEq, Repr

def ParameterFault.message : ParameterFault → String
  | .role code => s!"BLE role must be 1, 2 or 4, got {code}"
  | .uuidEmpty kind => s!"{kind} UUID is empty"
  | .uuidLength kind uuid => s!"{kind} UUID must have 4 or 32 hex digits, got '" ++ uuid ++ "'"
  | .uuidDigits kind uuid => s!"{kind} UUID contains non-hex characters: '" ++ uuid ++ "'"
  | .nameEmpty => "device name is empty"
  | .nameLength size limit => s!"device name is {size} bytes, limit is {limit}"
  | .nameCharacter c => "device name contains unsupported character " ++ Text.quoteChar c
  | .interval value least most => s!"advertising interval {value} outside {least}..={most}"
  | .intervalOrder min max => s!"advertising interval min {min} is greater than max {max}"
  | .txPower dbm least most => s!"TX power {dbm} dBm outside {least}..={most}"
  | .baud rate supported =>
      s!"unsupported baud rate {rate} (supported: [" ++
        String.intercalate ", " (supported.map toString) ++ "])"
  | .notifyEmpty => "notify text is empty"
  | .notifyLength size limit => s!"notify text is {size} bytes, limit is {limit}"
  | .notifyBreak => "notify text must not contain line breaks"
  | .other reason => reason

def FrameFault.message : FrameFault → String
  | .short size header => s!"frame of {size} bytes is shorter than the {header}-byte header"
  | .total index found expected => s!"packet {index} reports total {found}, expected {expected}"
  | .outside index limit => s!"packet index {index} outside 0..{limit}"
  | .zeroTotal index => s!"packet {index} declares zero total packets"
  | .other reason => reason

def LayoutFault.message : LayoutFault → String
  | .suffixEmpty => "frame suffix must not be empty"
  | .noRoom mtu lead suffix header =>
      s!"MTU {mtu} leaves no payload room (prefix {lead} + suffix {suffix} + header {header})"
  | .other reason => reason

namespace Fault

def message : Fault → String
  | .parameter fault => "Invalid parameter: " ++ fault.message
  | .commandFailed response => "Command failed: " ++ response
  | .moduleError code response => "Module error " ++ code ++ ": " ++ response
  | .unexpected response => "Unexpected response: " ++ response
  | .frame fault => "Invalid frame: " ++ fault.message
  | .missingPacket index total => s!"Missing packet {index}/{total}"
  | .payload reason => "Invalid payload: " ++ reason
  | .layout fault => "Frame configuration error: " ++ fault.message
  | .io reason => "IO error: " ++ reason
  | .tooManyPackets count =>
      s!"Payload too large: {count} packets exceed the u16 packet counter"

/-- The name of the cause, for programs that tell faults apart. -/
def kind : Fault → String
  | .parameter _ => "InvalidParameter"
  | .commandFailed _ => "CommandFailed"
  | .moduleError _ _ => "ModuleError"
  | .unexpected _ => "UnexpectedResponse"
  | .frame _ => "InvalidFrame"
  | .missingPacket _ _ => "MissingPacket"
  | .payload _ => "InvalidPayload"
  | .layout _ => "FrameConfig"
  | .io _ => "Io"
  | .tooManyPackets _ => "TooManyPackets"

/-- The fault of a kind, from those of the parts that it has. -/
def ofKind? (kind text code : String) (index total : UInt16) (count : Nat) : Option Fault :=
  match kind with
  | "InvalidParameter" => some (.parameter (.other text))
  | "CommandFailed" => some (.commandFailed text)
  | "ModuleError" => some (.moduleError code text)
  | "UnexpectedResponse" => some (.unexpected text)
  | "InvalidFrame" => some (.frame (.other text))
  | "MissingPacket" => some (.missingPacket index total)
  | "InvalidPayload" => some (.payload text)
  | "FrameConfig" => some (.layout (.other text))
  | "Io" => some (.io text)
  | "TooManyPackets" => some (.tooManyPackets count)
  | _ => none

/-- Faults that the module itself reported. -/
def isDeviceFailure : Fault → Bool
  | .commandFailed _ | .moduleError _ _ | .unexpected _ => true
  | _ => false

/-- Faults met while a message was put together again. -/
def isReassembly : Fault → Bool
  | .frame _ | .missingPacket _ _ | .payload _ => true
  | _ => false

end Fault

end BleBridge
