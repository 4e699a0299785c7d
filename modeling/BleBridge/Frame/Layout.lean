import BleBridge.Event
import BleBridge.Frame.Packet
import BleBridge.Modem.Command

/-! # Frame layouts

A frame is a lead, the packet's header and payload, and a suffix. -/

namespace BleBridge.Frame

def defaultMtu : Nat := 247
def defaultHandle : String := "fff2"
def defaultSuffix : Bytes := [0x0D, 0x0A]

/-- A layout whose frames of at most `mtu` bytes hold at least one byte of payload. -/
structure Layout where
  mtu : Nat
  lead : Bytes
  suffix : Bytes
  suffix_ne_nil : suffix ≠ []
  room : lead.length + suffix.length + headerSize < mtu
deriving DecidableEq, Repr

namespace Layout

def maxPayload (f : Layout) : Nat := f.mtu - (f.lead.length + f.suffix.length + headerSize)

theorem maxPayload_pos (f : Layout) : 0 < f.maxPayload := Nat.sub_pos_of_lt f.room

def withSuffix (mtu : Nat) (lead suffix : Bytes) : Except Fault Layout :=
  if hs : suffix = [] then .error (.layout .suffixEmpty)
  else if hr : lead.length + suffix.length + headerSize < mtu then
    .ok ⟨mtu, lead, suffix, hs, hr⟩
  else .error (.layout (.noRoom mtu lead.length suffix.length headerSize))

def new (mtu : Nat) (lead : Bytes) : Except Fault Layout := withSuffix mtu lead defaultSuffix

/-- The layout of notifications through `handle`. -/
def notify (mtu : Nat) (handle : String) : Except Fault Layout := do
  let lead ← Modem.Command.notifyLead handle
  new mtu (Text.bytes lead)

/-- How many packets a message of `size` bytes takes. -/
def packetCount (f : Layout) (size : Nat) : Nat := (size + f.maxPayload - 1) / f.maxPayload

def numbered (total : UInt16) : Nat → List Bytes → List Packet
  | _, [] => []
  | i, payload :: rest => ⟨UInt16.ofNat i, total, payload⟩ :: numbered total (i + 1) rest

/-- The packets of a message, in order. -/
def split (f : Layout) (data : Bytes) : Except Fault (List Packet) :=
  let count := f.packetCount data.length
  if count < UInt16.size then
    .ok (numbered (UInt16.ofNat count) 0 (pieces f.maxPayload data))
  else .error (.tooManyPackets count)

def splitEvent (f : Layout) (data : Bytes) (packets : List Packet) : Event :=
  .debug "Packet"
    s!"split {data.length} bytes into {packets.length} packets (max payload {f.maxPayload})"

def encode (f : Layout) (p : Packet) : Bytes := f.lead ++ p.body ++ f.suffix

/-- Reads a frame; its lead and its suffix may be missing. -/
def decode (f : Layout) (frame : Bytes) : Except Fault Packet :=
  let body := (f.lead.isPrefixOf? frame).getD frame
  Packet.parse ((f.suffix.isSuffixOf? body).getD body)

end Layout

end BleBridge.Frame
