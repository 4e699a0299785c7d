/-! # Faults of streams and files -/

namespace BleBridge

inductive IoFault where
  | notFound | permissionDenied | connectionRefused | connectionReset | connectionAborted
  | notConnected | addressInUse | addressNotAvailable | brokenPipe | alreadyExists | wouldBlock
  | invalidInput | invalidData | timedOut | writeZero | interrupted | unsupported
  | unexpectedEnd | outOfMemory | unnamed
  | described (text : String)
deriving DecidableEq, Repr

namespace IoFault

def message : IoFault → String
  | notFound => "entity not found"
  | permissionDenied => "permission denied"
  | connectionRefused => "connection refused"
  | connectionReset => "connection reset"
  | connectionAborted => "connection aborted"
  | notConnected => "not connected"
  | addressInUse => "address in use"
  | addressNotAvailable => "address not available"
  | brokenPipe => "broken pipe"
  | alreadyExists => "entity already exists"
  | wouldBlock => "operation would block"
  | invalidInput => "invalid input parameter"
  | invalidData => "invalid data"
  | timedOut => "timed out"
  | writeZero => "write zero"
  | interrupted => "operation interrupted"
  | unsupported => "unsupported"
  | unexpectedEnd => "unexpected end of file"
  | outOfMemory => "out of memory"
  | unnamed => "other error"
  | described text => text

/-- The names of the faults, for programs that tell them apart. -/
def kinds : List (String × IoFault) :=
  [("NotFound", notFound), ("PermissionDenied", permissionDenied),
    ("ConnectionRefused", connectionRefused), ("ConnectionReset", connectionReset),
    ("ConnectionAborted", connectionAborted), ("NotConnected", notConnected),
    ("AddrInUse", addressInUse), ("AddrNotAvailable", addressNotAvailable),
    ("BrokenPipe", brokenPipe), ("AlreadyExists", alreadyExists), ("WouldBlock", wouldBlock),
    ("InvalidInput", invalidInput), ("InvalidData", invalidData), ("TimedOut", timedOut),
    ("WriteZero", writeZero), ("Interrupted", interrupted), ("Unsupported", unsupported),
    ("UnexpectedEof", unexpectedEnd), ("OutOfMemory", outOfMemory), ("Other", unnamed)]

def ofKind? (kind : String) : Option IoFault := kinds.lookup kind

end IoFault

end BleBridge
