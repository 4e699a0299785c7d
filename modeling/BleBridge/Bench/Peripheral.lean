import BleBridge.Event
import BleBridge.Json.Value
import BleBridge.Text.Bytes
import BleBridge.Text.Quoted
import BleBridge.Text.Search

/-! # A scripted peripheral

It cuts what it receives into commands and answers each with the lines of the first rule that fits,
or with `OK`. -/

namespace BleBridge.Bench

structure Rule where
  lead : String
  reply : List String
deriving DecidableEq, Repr

/-- A lead with its reply lines, as a pair. -/
def Rule.ofJson? (v : Json) : Option Rule := do
  match ← v.asArray? with
  | [lead, lines] => return ⟨← lead.asString?, ← (← lines.asArray?).mapM Json.asString?⟩
  | _ => none

structure Peripheral where
  rules : List Rule := []
  /-- Bytes of a command that is not complete yet. -/
  pending : Bytes := []
  received : Array Bytes := #[]
deriving Repr, Inhabited

namespace Peripheral

def lineEnd : Bytes := [0x0D, 0x0A]

def lineBytes (line : String) : Bytes := Text.bytes line ++ lineEnd

def replyTo (p : Peripheral) (command : String) : List String :=
  match p.rules.find? fun r => Text.startsWith command r.lead with
  | some r => r.reply
  | none => ["OK"]

def addRule (p : Peripheral) (r : Rule) : Peripheral := { p with rules := p.rules ++ [r] }

def receivedEvent (command : Bytes) : Event :=
  .debug "MockPeripheral" ("received " ++ Text.quote (Text.ofBytesLossy command))

/-- Take one complete command and reply. -/
def takeCommand (p : Peripheral) (command : Bytes) : Peripheral × Bytes × Event :=
  ({ p with received := p.received.push command },
    ((p.replyTo (Text.ofBytesLossy command)).map lineBytes).flatten, receivedEvent command)

def takeCommands (p : Peripheral) : List Bytes → Peripheral × Bytes × List Event
  | [] => (p, [], [])
  | command :: rest =>
      let (p, reply, e) := p.takeCommand command
      let (p, replies, events) := p.takeCommands rest
      (p, reply ++ replies, e :: events)

/-- Receive bytes; gives the bytes of the replies. -/
def receive (p : Peripheral) (bytes : Bytes) : Peripheral × Bytes × List Event :=
  let parts := Text.splitAt lineEnd (p.pending ++ bytes)
  { p with pending := parts.getLastD [] }.takeCommands parts.dropLast

/-- All commands so far as texts. -/
def commands (p : Peripheral) : List String := p.received.toList.map Text.ofBytesLossy

end Peripheral

end BleBridge.Bench
