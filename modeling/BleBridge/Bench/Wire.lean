import BleBridge.IoFault
import BleBridge.Text.Bytes

/-! # The wire between the multiplexer and its module -/

namespace BleBridge.Bench

/-- What the host finds when it reads. -/
inductive Arrival where
  | chunk (bytes : Bytes)
  | fault (f : IoFault)
deriving DecidableEq, Repr

inductive WriteFault where
  | onWrite (f : IoFault)
  /-- The bytes go out, but the host is told that they did not. -/
  | onFlush (f : IoFault)
deriving DecidableEq, Repr

structure Wire where
  /-- How many bytes may be under way to the module. -/
  capacity : Nat := 65536
  /-- Bytes of the command being written that are still with the host. -/
  unsent : Bytes := []
  outgoing : Bytes := []
  incoming : List Arrival := []
  /-- The module's end is gone. -/
  hungUp : Bool := false
  writeFault : Option WriteFault := none
deriving DecidableEq, Repr, Inhabited

/-- How far writing has got. -/
inductive Written where
  | complete
  | blocked
  | failed (f : IoFault)
deriving DecidableEq, Repr

namespace Wire

/-- Move bytes of the host onto the wire as far as there is room. -/
def push (w : Wire) : Wire × Written :=
  if w.hungUp then (w, .failed .brokenPipe)
  else
    let room := w.capacity - w.outgoing.length
    let moved := { w with
      outgoing := w.outgoing ++ w.unsent.take room
      unsent := w.unsent.drop room }
    match w.writeFault with
    | some (.onWrite f) => (w, .failed f)
    | some (.onFlush f) => if moved.unsent.isEmpty then (moved, .failed f) else (moved, .blocked)
    | none => (moved, if moved.unsent.isEmpty then .complete else .blocked)

/-- Bytes on their way to the host. -/
def send (w : Wire) (bytes : Bytes) : Wire :=
  if w.hungUp || bytes.isEmpty then w
  else { w with incoming := w.incoming ++ [.chunk bytes] }

end Wire

end BleBridge.Bench
