import BleBridge.Frame.Slots

/-! # Messages out of complete packet sets -/

namespace BleBridge.Frame

/-- What speaks against a packet among packets of `total`. -/
def misfit (total : UInt16) (p : Packet) : Option FrameFault :=
  if p.total ≠ total then some (.total p.index p.total total)
  else if total ≤ p.index then some (.outside p.index total)
  else none

def firstPayload (packets : List Packet) (i : UInt16) : Option Bytes :=
  (packets.find? (·.index == i)).map Packet.payload

/-- The message of a packet set in any order. The first packet tells the total, and of several
packets under one index the first counts. -/
def collect (packets : List Packet) : Except Fault Bytes :=
  match packets with
  | [] => .ok []
  | first :: _ =>
      match packets.findSome? (misfit first.total) with
      | some fault => .error (.frame fault)
      | none => Slots.assemble first.total (firstPayload packets)

end BleBridge.Frame
