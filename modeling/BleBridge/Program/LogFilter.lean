import BleBridge.Event
import BleBridge.Text.Blank
import BleBridge.Text.Search

/-! # Which events are logged

A filter is a list of directives. The one with the longest target that leads the place of an event
tells the least level that is logged. -/

namespace BleBridge.Program

/-- The filter of a run: one from outside, or else the level for the bridge over that for all
else. -/
def filterText (outside : Option String) (level : String) : String :=
  match (outside.map Text.trim).filter (· ≠ "") with
  | some text => text
  | none => "info,blesrv=" ++ level ++ ",voltage_ble=" ++ level

/-- How many levels a directive lets through: none, errors alone, and so on to all. -/
abbrev Depth := Nat

def allLevels : Depth := 5

def levelDepth : Level → Depth
  | .error => 1
  | .warn => 2
  | .info => 3
  | .debug => 4
  | .trace => 5

def levelWords : List (String × Depth) :=
  [("off", 0), ("error", 1), ("warn", 2), ("info", 3), ("debug", 4), ("trace", 5)]

def smallNumber? (cs : List Char) : Option Nat :=
  let digits := match cs with
    | '+' :: rest => rest
    | cs => cs
  if digits.isEmpty || !digits.all Char.isDigit then none
  else some (digits.foldl (fun n c => n * 10 + (c.toNat - '0'.toNat)) 0)

/-- A level by number, or by its name in letters of any case. -/
def depthOf? (cs : List Char) : Option Depth :=
  match smallNumber? cs with
  | some n => if n ≤ allLevels then some n else none
  | none => levelWords.lookup (String.ofList (cs.map Char.toLower))

structure Directive where
  /-- Leads the places of the events that are meant; without one, all are. -/
  target : Option String := none
  /-- Meant are only events inside a span, or with certain fields. -/
  narrow : Bool := false
  depth : Depth := allLevels
deriving DecidableEq, Repr

namespace Directive

def isTargetStart (c : Char) : Bool :=
  c.isAlphanum || c == '_' || c == '-' || c == ':' || 0x80 ≤ c.toNat

/-- The level behind an equals sign, if one is written. -/
def levelOf? : List Char → Option Depth
  | [] => some allLevels
  | cs => depthOf? cs

/-- What may follow a span in brackets. -/
def afterScope? (target : Option String) : List Char → Option Directive
  | [] => some ⟨target, true, allLevels⟩
  | '=' :: rest => (levelOf? rest).map (⟨target, true, ·⟩)
  | _ => none

def ofScope? (target : Option String) (cs : List Char) : Option Directive := do
  let (inner, rest) ← Text.cut? [']'] cs
  match Text.cut? ['\x7b'] inner with
  | none => afterScope? target rest
  | some (_, fields) => if fields.getLast? = some '\x7d' then afterScope? target rest else none

def endsTarget (c : Char) : Bool := c == '=' || c == '['

/-- Read a directive: a level, a target, or a target with its level. -/
def parse? (cs : List Char) : Option Directive :=
  let cs := Text.trimChars cs
  let target := cs.takeWhile (!endsTarget ·)
  match cs.drop target.length with
  | '=' :: rest => if startsWell cs then (levelOf? rest).map (⟨name target, false, ·⟩) else none
  | '[' :: rest =>
      if target.isEmpty then ofScope? none rest
      else if startsWell cs then ofScope? (name target) rest
      else none
  | _ =>
      match depthOf? cs with
      | some depth => some { depth }
      | none => if startsWell cs then some { target := name cs } else none
where
  startsWell (cs : List Char) : Bool := cs.head?.any isTargetStart
  name (cs : List Char) : Option String := some (String.ofList cs)

/-- Whether the directive speaks about events of a place. -/
def concerns (d : Directive) (place : String) : Bool := d.target.all (Text.startsWith place ·)

/-- How closely the directive tells what it is about. -/
def closeness (d : Directive) : Nat :=
  match d.target with
  | none => 0
  | some target => target.utf8ByteSize + 1

end Directive

/-- The directives of a filter, none of them empty. -/
def directives? (text : String) : Option (List Directive) :=
  ((Text.splitAt [','] text.toList).filter (!·.isEmpty)).mapM Directive.parse?

/-- A filter without any directive lets errors through. -/
def effective : List Directive → List Directive
  | [] => [{ depth := levelDepth .error }]
  | ds => ds.filter (!·.narrow)

/-- The closest directive about a place; of equally close ones the last. -/
def closest? (ds : List Directive) (place : String) : Option Directive :=
  (ds.filter (·.concerns place)).foldl (fun best d =>
    match best with
    | some b => if b.closeness ≤ d.closeness then some d else best
    | none => some d) none

def isLogged (ds : List Directive) (place : String) (level : Level) : Bool :=
  (closest? (effective ds) place).any fun d => decide (levelDepth level ≤ d.depth)

end BleBridge.Program
