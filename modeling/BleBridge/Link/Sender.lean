import BleBridge.Routine

/-! # Sending JSON documents

A document goes out in frames, one at a time; each waits for its reply. -/

namespace BleBridge.Link

open BleBridge.Frame (Layout Packet)

def source : String := "Link"

structure Sender where
  layout : Layout
  packetTimeout : Millis
  readDelay : Millis
  queueWait : Millis
deriving DecidableEq, Repr

namespace Sender

def ofSettings (l : Config.Link) : Except BridgeError Sender := do
  return ⟨← l.layout, l.packetTimeout, l.readDelay, l.queueWait⟩

def order (s : Sender) (p : Packet) : Mux.Order :=
  ⟨s.layout.encode p, s.packetTimeout, s.readDelay, s.queueWait⟩

/-- The packet of a message, counted from one. -/
def packetName (tag : String) (p : Packet) : String :=
  s!"message {tag} packet {p.index + 1}/{p.total}"

def sentEvent (s : Sender) (tag : String) (p : Packet) : Event :=
  .debug source s!"{packetName tag p} sent ({(s.layout.encode p).length} bytes)"

def failedEvent (tag : String) (p : Packet) (e : BridgeError) : Event :=
  .error source (packetName tag p ++ " failed: " ++ e.message)

/-- Send packets until one fails. -/
def sendPackets (s : Sender) (tag : String) : List Packet → Routine (Except BridgeError Unit)
  | [] => return .ok ()
  | p :: rest => do
      match ← (Attempt.enqueue (s.order p)).run with
      | .ok _ =>
          Routine.log (s.sentEvent tag p)
          s.sendPackets tag rest
      | .error e =>
          Routine.log (failedEvent tag p e)
          return .error e

/-- Send the bytes of a document. -/
def sendBytes (s : Sender) (data : Bytes) : Attempt Unit := do
  let tag ← Routine.drawId
  let packets ← Attempt.ofExcept (bridged (s.layout.split data))
  Attempt.log (s.layout.splitEvent data packets)
  if packets.isEmpty then
    Attempt.log (.debug source ("message " ++ tag ++ " is empty, nothing sent"))
  else
    Attempt.perform (s.sendPackets tag packets)
    Attempt.log (.info source
      s!"message {tag} sent: {data.length} bytes in {packets.length} packets")

def sendValue (s : Sender) (v : Json) : Attempt Unit := s.sendBytes v.bytes

end Sender

end BleBridge.Link
