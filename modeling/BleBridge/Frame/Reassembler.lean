import BleBridge.Event
import BleBridge.Frame.Slots

/-! # Messages out of arriving packets

One message at a time is open. It is delivered once it holds all its indices, and it is dropped
when it has grown too old or a packet of another total arrives.

Packets bear no message number, so a late copy of the message just delivered looks like the start
of a new one. Until another message opens, such copies are held back. A full set of them is the
message sent again. When a different packet opens the next message, held copies of lower indices
go with it. -/

namespace BleBridge.Frame

/-- A message that still lacks packets. -/
structure OpenMessage where
  total : UInt16
  received : Slots
  startedAt : Nat
deriving DecidableEq, Repr

/-- The message delivered last, and the copies of its packets that came after. -/
structure Completed where
  total : UInt16
  payloads : Slots
  completedAt : Nat
  held : Slots
deriving DecidableEq, Repr

structure Reassembler where
  buffer : Option OpenMessage
  completed : Option Completed
  maxAge : Option Nat
  evicted : Nat
  discarded : Nat
deriving DecidableEq, Repr

/-- The outcome of one push. -/
structure Pushed where
  next : Reassembler
  result : Except Fault (Option Bytes)
  events : List Event

namespace Completed

def repeats (c : Completed) (p : Packet) : Bool :=
  c.total == p.total && c.payloads.get? p.index == some p.payload

end Completed

namespace Reassembler

def new (maxAge : Option Nat) : Reassembler := ⟨none, none, maxAge, 0, 0⟩

def note (text : String) : Event := .debug "Reassembly" text
def alarm (text : String) : Event := .warn "Reassembly" text

/-- Whether something of time `since` has outlived the age limit. -/
def stale (r : Reassembler) (now since : Nat) : Bool :=
  match r.maxAge with
  | none => false
  | some age => age < now - since

def dropCompleted (r : Reassembler) (now : Nat) : Reassembler :=
  match r.completed with
  | some c =>
      if r.stale now c.completedAt then
        { r with completed := none, discarded := r.discarded + c.held.length }
      else r
  | none => r

def dropBuffer (r : Reassembler) (now : Nat) : Reassembler × List Event :=
  match r.buffer with
  | some b =>
      if r.stale now b.startedAt then
        ({ r with buffer := none, evicted := r.evicted + 1 },
          [alarm s!"evicting stale buffer ({b.received.length}/{b.total} packets)"])
      else (r, [])
  | none => (r, [])

/-- Forget what has grown too old. -/
def evictStale (r : Reassembler) (now : Nat) : Reassembler × List Event :=
  (r.dropCompleted now).dropBuffer now

/-- Put a packet into the message `b`, which is then the open one or complete. -/
def accept (r : Reassembler) (b : OpenMessage) (p : Packet) (now : Nat) : Pushed :=
  if b.total ≤ p.index then
    ⟨{ r with buffer := some b, discarded := r.discarded + 1 }, .ok none,
      [alarm s!"discarding packet index {p.index} outside 0..{b.total}"]⟩
  else
    let known := b.received.has p.index
    let received := if known then b.received else b.received.insert p.index p.payload
    let events :=
      (if known then [note s!"duplicate packet {p.index} ignored"] else []) ++
        [note s!"{received.length}/{b.total} packets buffered"]
    if received.length = b.total.toNat then
      ⟨{ r with buffer := none, completed := some ⟨b.total, received, now, []⟩ },
        (Slots.assemble b.total received.get?).map some, events⟩
    else ⟨{ r with buffer := some { b with received } }, .ok none, events⟩

/-- Hold a packet that repeats the message `c`. -/
def hold (r : Reassembler) (c : Completed) (p : Packet) (now : Nat) : Pushed :=
  let held := c.held.insert p.index p.payload
  if held.length < c.total.toNat then
    ⟨{ r with completed := some { c with held } }, .ok none,
      [note s!"packet {p.index}/{p.total} repeats the last message, held"]⟩
  else
    ⟨{ r with completed := some { c with held := [], completedAt := now } },
      (Slots.assemble c.total held.get?).map some,
      [note "last message received again in full"]⟩

/-- The held copies that may belong to a message opened by `p`. -/
def precedes (c : Completed) (p : Packet) (slot : UInt16 × Bytes) : Bool :=
  c.total == p.total && slot.1 < p.index

/-- Open a message for `p`, with the held copies that precede it. -/
def openFor (r : Reassembler) (p : Packet) (now : Nat) : Pushed :=
  match r.completed with
  | none => r.accept ⟨p.total, [], now⟩ p now
  | some c =>
      let kept := c.held.filter (precedes c p)
      let dropped := c.held.filter (!precedes c p ·)
      let pushed := accept
        { r with completed := none, discarded := r.discarded + dropped.length }
        ⟨p.total, kept, now⟩ p now
      { pushed with
        events := dropped.map (fun s => note s!"late duplicate packet {s.1} discarded") ++
          pushed.events }

/-- Take a packet that arrives at `now` when nothing stale is left. -/
def take (r : Reassembler) (p : Packet) (now : Nat) : Pushed :=
  if p.total = 0 then
    ⟨{ r with
        buffer := none
        discarded := r.discarded + 1
        evicted := r.evicted + if r.buffer.isSome then 1 else 0 },
      .error (.frame (.zeroTotal p.index)), []⟩
  else match r.buffer with
    | some b =>
        if b.total = p.total then r.accept b p now
        else
          let pushed :=
            accept { r with buffer := none, evicted := r.evicted + 1 } ⟨p.total, [], now⟩ p now
          { pushed with
            events := alarm (s!"total changed from {b.total} to {p.total}, " ++
              s!"dropping {b.received.length} buffered packets") :: pushed.events }
    | none =>
        match r.completed with
        | some c => if c.repeats p then r.hold c p now else r.openFor p now
        | none => r.openFor p now

/-- Take a packet that arrives at `now`; the result is the message that it completes. -/
def push (r : Reassembler) (p : Packet) (now : Nat) : Pushed :=
  let fresh := r.evictStale now
  let pushed := fresh.1.take p now
  { pushed with events := fresh.2 ++ pushed.events }

/-- How many packets of the open message are there, and of how many. -/
def pending (r : Reassembler) : Option (Nat × UInt16) :=
  r.buffer.map fun b => (b.received.length, b.total)

/-- Forget the open message and the one delivered last. -/
def reset (r : Reassembler) : Reassembler := { r with buffer := none, completed := none }

end Reassembler

end BleBridge.Frame
