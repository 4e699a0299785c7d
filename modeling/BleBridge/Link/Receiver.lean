import BleBridge.BridgeError
import BleBridge.Frame.Decoder
import BleBridge.Frame.Reassembler
import BleBridge.Json.Reader

/-! # Receiving JSON documents

Chunks of a stream go into one buffer. Frames are taken out of it as long as there are whole ones,
then the next chunk is read. At the end of the stream nothing may be left in the buffer. -/

namespace BleBridge.Link

open BleBridge.Frame (Layout Packet Reassembler)

/-- How far the stream of frames has got. -/
inductive Phase where
  /-- The buffer may hold a whole frame. -/
  | scanning
  /-- The next chunk is needed. -/
  | reading
  /-- The stream has ended, the buffer may still hold a whole frame. -/
  | ending
  | failed
  | ended
deriving DecidableEq, Repr

structure Receiver where
  layout : Layout
  chunks : List Bytes
  buffer : Bytes
  phase : Phase
  reassembler : Reassembler
  /-- The clock, in units of the reassembler's age limit; each reading advances it. -/
  clock : Nat

namespace Receiver

def new (layout : Layout) (maxAge : Option Nat) (chunks : List Bytes) : Receiver :=
  ⟨layout, chunks, [], .reading, Reassembler.new maxAge, 0⟩

/-- The outcome of looking for the next packet. -/
inductive Arrival where
  | packet (p : Packet)
  | leftover
  | none

/-- Read chunks until a packet is whole or the stream has ended. -/
def readOn (layout : Layout) (buffer : Bytes) (chunks : List Bytes) (events : List Event) :
    Arrival × Bytes × List Bytes × Phase × List Event :=
  match chunks with
  | [] =>
      let scan := layout.scan buffer
      let events := events ++ scan.events
      match scan.found with
      | some p => (.packet p, scan.rest, [], .ending, events)
      | none =>
          if scan.rest.isEmpty then (.none, [], [], .ended, events)
          else (.leftover, scan.rest, [], .failed, events)
  | chunk :: rest =>
      let scan := layout.scan (buffer ++ chunk)
      let events := events ++ scan.events
      match scan.found with
      | some p => (.packet p, scan.rest, rest, .scanning, events)
      | none => readOn layout scan.rest rest events

/-- The next packet of the stream. -/
def nextPacket (r : Receiver) : Arrival × Receiver × List Event :=
  match r.phase with
  | .failed | .ended => (.none, { r with phase := .ended }, [])
  | .reading | .ending =>
      let (arrival, buffer, chunks, phase, events) := readOn r.layout r.buffer r.chunks []
      (arrival, { r with buffer, chunks, phase }, events)
  | .scanning =>
      let scan := r.layout.scan r.buffer
      match scan.found with
      | some p => (.packet p, { r with buffer := scan.rest }, scan.events)
      | none =>
          let (arrival, buffer, chunks, phase, events) :=
            readOn r.layout scan.rest r.chunks scan.events
          (arrival, { r with buffer, chunks, phase }, events)

/-- The number of a packet counted from one, as a word. -/
def packetNumber (p : Packet) : UInt16 := p.index + 1

def packetEvent (p : Packet) : Event :=
  .debug "Link" s!"received packet {packetNumber p}/{p.total} ({p.payload.length} bytes)"

/-- What a received message gives: itself, if it is a JSON text. -/
def checked (data : Bytes) : Except BridgeError (Option Bytes) :=
  match Json.parse data with
  | some _ => .ok (some data)
  | none => .error (.ofFault (.payload "JSON error:"))

/-- Look for packets until one completes a message, fails, or there are no more. At most `limit`
packets are taken. -/
def nextMessageWithin : Nat → Receiver → Except BridgeError (Option Bytes) × Receiver × List Event
  | 0, r => (.ok none, r, [])
  | limit + 1, r =>
      match r.nextPacket with
      | (.none, r, events) => (.ok none, r, events)
      | (.leftover, r, events) => (.error (.io "bytes remaining on stream"), r, events)
      | (.packet p, r, events) =>
          let pushed := r.reassembler.push p r.clock
          let r := { r with reassembler := pushed.next, clock := r.clock + 1 }
          let events := events ++ packetEvent p :: pushed.events
          match pushed.result with
          | .error fault => (.error (.ofFault fault), r, events)
          | .ok (some data) => (checked data, r, events)
          | .ok none =>
              let later := nextMessageWithin limit r
              (later.1, later.2.1, events ++ later.2.2)

/-- The bytes that have not been made into packets yet. A packet takes at least one of them. -/
def unread (r : Receiver) : Nat := r.buffer.length + r.chunks.flatten.length

/-- The next complete, well-formed document; none at the end of the stream. -/
def nextMessage (r : Receiver) : Except BridgeError (Option Bytes) × Receiver × List Event :=
  nextMessageWithin (r.unread + 1) r

def messagesWithin : Nat → Receiver →
    List (Except BridgeError (Option Bytes) × Receiver) × List Event
  | 0, _ => ([], [])
  | fuel + 1, r =>
      let (message, r, events) := r.nextMessage
      match message with
      | .ok none => ([(message, r)], events)
      | _ =>
          let (later, laterEvents) := messagesWithin fuel r
          ((message, r) :: later, events ++ laterEvents)

/-- Everything up to the end of the stream, each outcome with the receiver behind it. -/
def messages (r : Receiver) : List (Except BridgeError (Option Bytes) × Receiver) × List Event :=
  messagesWithin (r.unread + 3) r

end Receiver

/-- The first document of a stream. -/
def receiveOne (layout : Layout) (maxAge : Option Nat) (chunks : List Bytes) :
    Except BridgeError Bytes × List Event :=
  match (Receiver.new layout maxAge chunks).nextMessage with
  | (.error e, _, events) => (.error e, events)
  | (.ok (some data), _, events) => (.ok data, events)
  | (.ok none, _, events) =>
      (.error (.reassembly "stream ended before the message was complete"), events)

end BleBridge.Link
