import BleBridge.Fault
import BleBridge.IoFault

/-! # Errors of the bridge -/

namespace BleBridge

inductive BridgeError where
  | config (reason : String)
  | validation (reason : String)
  | write (reason : String)
  | timeout (reason : String)
  | queueFull (reason : String)
  | protocol (fault : Fault)
  | reassembly (reason : String)
  | bus (reason : String)
  | closed (reason : String)
  | serialization (reason : String)
  | io (reason : String)
  | internal (reason : String)
deriving DecidableEq, Repr

namespace BridgeError

def message : BridgeError → String
  | .config reason => "Configuration error: " ++ reason
  | .validation reason => "Validation error: " ++ reason
  | .write reason => "Write error: " ++ reason
  | .timeout reason => "Timeout error: " ++ reason
  | .queueFull reason => "Queue full: " ++ reason
  | .protocol fault => "Protocol error: " ++ fault.message
  | .reassembly reason => "Reassembly error: " ++ reason
  | .bus reason => "Bus error: " ++ reason
  | .closed reason => "Closed: " ++ reason
  | .serialization reason => "Serialization error: " ++ reason
  | .io reason => "IO error: " ++ reason
  | .internal reason => "Internal error: " ++ reason

/-- The name of the cause, for programs that tell errors apart. -/
def kind : BridgeError → String
  | .config _ => "ConfigError"
  | .validation _ => "ValidationError"
  | .write _ => "WriteError"
  | .timeout _ => "TimeoutError"
  | .queueFull _ => "QueueFull"
  | .protocol _ => "ProtocolError"
  | .reassembly _ => "ReassemblyError"
  | .bus _ => "BusError"
  | .closed _ => "Closed"
  | .serialization _ => "SerializationError"
  | .io _ => "IoError"
  | .internal _ => "InternalError"

def notConnected : BridgeError := .bus "message bus not connected"

def isTimeout : BridgeError → Bool
  | .timeout _ => true
  | _ => false

def isQueueFull : BridgeError → Bool
  | .queueFull _ => true
  | _ => false

def isClosed : BridgeError → Bool
  | .closed _ => true
  | _ => false

/-- The module refused with an error code. -/
def isModuleError : BridgeError → Bool
  | .protocol (.moduleError _ _) => true
  | _ => false

/-- The module refused without saying why. -/
def isCommandFailed : BridgeError → Bool
  | .protocol (.commandFailed _) => true
  | _ => false

/-- What a fault means to the bridge: commands that were not built are invalid requests, layouts
are configuration, lost packets are reassembly, and what the module said is protocol. -/
def ofFault : Fault → BridgeError
  | .parameter fault => .validation fault.message
  | .layout fault => .config fault.message
  | .io reason => .io reason
  | .tooManyPackets count => .validation (Fault.tooManyPackets count).message
  | .frame fault => .reassembly (Fault.frame fault).message
  | .missingPacket index total => .reassembly (Fault.missingPacket index total).message
  | .payload reason => .reassembly (Fault.payload reason).message
  | .commandFailed response => .protocol (.commandFailed response)
  | .moduleError code response => .protocol (.moduleError code response)
  | .unexpected response => .protocol (.unexpected response)

def ofIo (fault : IoFault) : BridgeError := .io fault.message

def ofSerial (reason : String) : BridgeError := .io ("serial port: " ++ reason)

/-- The contents of a JSON text were refused; why is up to the reader. -/
def json : BridgeError := .serialization "JSON:"

/-- A reason under what was being done. -/
def within {α : Type} (make : String → BridgeError) (doing : String) :
    Except String α → Except BridgeError α
  | .ok a => .ok a
  | .error reason => .error (make (doing ++ ": " ++ reason))

end BridgeError

/-- A result whose faults are seen from the bridge. -/
def bridged {α : Type} : Except Fault α → Except BridgeError α
  | .ok a => .ok a
  | .error fault => .error (.ofFault fault)

end BleBridge
