import BleBridge.Text.Hex
import BleBridge.Yaml.Cursor

/-! # Scalars of a YAML text

A line end inside a scalar of several lines becomes a blank, unless empty lines follow, which stay
as line ends. -/

namespace BleBridge.Yaml

/-- What lies between two pieces of a scalar. -/
structure Gap where
  /-- Blanks before any line end, the last one first. -/
  blanks : List Char := []
  broken : Bool := false
  /-- The first line end, unless it is written as going on with the line. -/
  lead : Option Char := none
  /-- Further line ends, the last one first. -/
  trail : List Char := []
deriving DecidableEq, Repr

namespace Gap

def blank (g : Gap) (c : Char) : Gap :=
  if g.broken then g else { g with blanks := c :: g.blanks }

def lineEnd (g : Gap) (c : Char) : Gap :=
  if g.broken then { g with trail := c :: g.trail } else { broken := true, lead := some c }

/-- What the gap adds to the text. -/
def fold (g : Gap) : List Char :=
  if !g.broken then g.blanks.reverse
  else match g.lead with
    | some '\n' => if g.trail.isEmpty then [' '] else g.trail.reverse
    | some c => c :: g.trail.reverse
    | none => g.trail.reverse

end Gap

namespace Scalar

/-! ## Quoted scalars -/

/-- Where a reader of double quotes stands. -/
inductive Escape where
  | none
  | started
  /-- So many hexadecimal digits are to come. -/
  | digits (left value : Nat)
deriving DecidableEq, Repr

structure Quoted where
  /-- The text so far, the last character first. -/
  text : List Char := []
  gap : Gap := {}
  escape : Escape := .none
deriving DecidableEq, Repr

namespace Quoted

def put (q : Quoted) (c : Char) : Quoted :=
  { text := c :: (q.gap.fold.reverse ++ q.text) }

/-- The gap counts, even if nothing follows it. -/
def settle (q : Quoted) : Quoted := { text := q.gap.fold.reverse ++ q.text }

def result (q : Quoted) : String := String.ofList q.settle.text.reverse

end Quoted

def simpleEscapes : List (Char × Char) :=
  [('0', '\x00'), ('a', '\x07'), ('b', '\x08'), ('t', '\t'), ('\t', '\t'), ('n', '\n'),
    ('v', '\x0B'), ('f', '\x0C'), ('r', '\r'), ('e', '\x1B'), (' ', ' '), ('"', '"'),
    ('/', '/'), ('\\', '\\'), ('N', '\u0085'), ('_', '\u00A0'), ('L', '\u2028'),
    ('P', '\u2029')]

def digitCount? : Char → Option Nat
  | 'x' => some 2
  | 'u' => some 4
  | 'U' => some 8
  | _ => none

/-- The character of a code point, which may not be half a surrogate pair. -/
def charOf? (n : Nat) : Option Char := if n.isValidChar then some (Char.ofNat n) else none

/-- Take the character behind a backslash. -/
def takeEscaped (q : Quoted) (c : Char) : Option Quoted :=
  if isBreak c then some { text := q.text, gap := { broken := true } }
  else match digitCount? c with
    | some n => some { q with escape := .digits n 0 }
    | none => (simpleEscapes.lookup c).map fun e => { q with text := e :: q.text, escape := .none }

def takeDigit (q : Quoted) (left value : Nat) (c : Char) : Option Quoted := do
  let value := value * 16 + (← Text.hexValue? c)
  if 1 < left then return { q with escape := .digits (left - 1) value }
  else return { q with text := (← charOf? value) :: q.text, escape := .none }

/-- Read up to the closing quote. The cursor stands behind the opening one. -/
def double (q : Quoted) (c : Cursor) : Option (String × Cursor) :=
  match h : c.rest with
  | [] => none
  | a :: _ =>
      have : c.next.rest.length < c.rest.length := by simp [Cursor.rest_next, h]
      match q.escape with
      | .started => do double (← takeEscaped q a) c.next
      | .digits left value => do double (← takeDigit q left value a) c.next
      | .none =>
          if isSpace a then double { q with gap := q.gap.blank a } c.next
          else if isBreak a then double { q with gap := q.gap.lineEnd a } c.next
          else if c.isDocumentMarker then none
          else if a = '"' then some (q.result, c.next)
          else if a = '\\' then double { q.settle with escape := .started } c.next
          else double (q.put a) c.next
termination_by c.rest.length

/-- Read up to the closing quote; two quotes stand for one. -/
def single (q : Quoted) (c : Cursor) : Option (String × Cursor) :=
  match h : c.rest with
  | [] => none
  | a :: _ =>
      have : c.next.rest.length < c.rest.length := by simp [Cursor.rest_next, h]
      have : c.next.next.rest.length < c.rest.length := by
        simp only [Cursor.rest_next, h, List.tail_cons, List.length_tail, List.length_cons]
        omega
      if isSpace a then single { q with gap := q.gap.blank a } c.next
      else if isBreak a then single { q with gap := q.gap.lineEnd a } c.next
      else if c.isDocumentMarker then none
      else if a = '\'' then
        if c.peek 1 = some '\'' then single (q.put '\'') c.next.next
        else some (q.result, c.next)
      else single (q.put a) c.next
termination_by c.rest.length

/-! ## Plain scalars -/

/-- Characters that end a plain scalar inside brackets. -/
def isFlowMark (c : Char) : Bool := [',', '[', ']', '\x7b', '\x7d'].contains c

/-- Where a plain scalar is read: inside brackets or not, and how far it has to be indented. -/
structure Setting where
  inFlow : Bool
  indent : Int
deriving DecidableEq, Repr

/-- A plain scalar with the place behind its last character. -/
structure Plain where
  text : List Char := []
  gap : Gap := {}
  behind : Cursor
deriving Repr

namespace Plain

/-- Whether the scalar is over before the next character. Inside brackets a colon right before a
mark is malformed. -/
def isOver (s : Setting) (p : Plain) (c : Cursor) : Bool :=
  c.isDocumentMarker ||
    (c.isAt '#' && (!p.gap.blanks.isEmpty || p.gap.broken || p.text.isEmpty)) ||
    (c.isAt ':' && Cursor.endsWord (c.peek 1)) ||
    (s.inFlow && (c.peek 0).any isFlowMark) ||
    (!s.inFlow && p.gap.broken && (c.column : Int) < s.indent)

def isMalformed (s : Setting) (c : Cursor) : Bool :=
  s.inFlow && c.isAt ':' && (c.peek 1).any fun a => a == '?' || isFlowMark a

/-- The text, the place where the next token is looked for, and whether a line end came last. -/
def finish (p : Plain) (c : Cursor) : String × Cursor × Bool :=
  (String.ofList p.text.reverse, c, p.gap.broken)

end Plain

def plain (s : Setting) (p : Plain) (c : Cursor) : Option (String × Cursor × Bool) :=
  match h : c.rest with
  | [] => some (p.finish c)
  | a :: _ =>
      have : c.next.rest.length < c.rest.length := by simp [Cursor.rest_next, h]
      if isSpace a then
        if p.gap.broken && a == '\t' && (c.column : Int) < s.indent then none
        else plain s { p with gap := p.gap.blank a } c.next
      else if isBreak a then plain s { p with gap := p.gap.lineEnd a } c.next
      else if p.isOver s c then some (p.finish c)
      else if Plain.isMalformed s c then none
      else plain s { text := a :: (p.gap.fold.reverse ++ p.text), behind := c.next } c.next
termination_by c.rest.length

/-! ## Block scalars -/

/-- What happens to the line ends behind the text. -/
inductive Chomping where
  | strip | clip | keep
deriving DecidableEq, Repr

structure Header where
  chomping : Chomping := .clip
  /-- Indentation beyond that of the parent, if it is written down. -/
  indent : Option Nat := none
deriving DecidableEq, Repr

namespace Header

def chompingOf? : Char → Option Chomping
  | '+' => some .keep
  | '-' => some .strip
  | _ => none

def indentOf? (c : Char) : Option Nat := if c.isDigit then some (c.toNat - '0'.toNat) else none

/-- Read the marks behind the indicator, each once and in any order. -/
def read : Nat → Header → Cursor → Option (Header × Cursor)
  | 0, header, c => some (header, c)
  | fuel + 1, header, c =>
      match (c.peek 0).bind chompingOf?, (c.peek 0).bind indentOf?, header with
      | some chomping, _, ⟨.clip, indent⟩ => read fuel ⟨chomping, indent⟩ c.next
      | _, some 0, ⟨_, none⟩ => none
      | _, some n, ⟨chomping, none⟩ => read fuel ⟨chomping, some n⟩ c.next
      | _, _, _ => some (header, c)

end Header

/-- Pass over empty lines and the indentation of the line behind them. Gives the line ends, the
last one first, and the deepest indentation met. A limit of zero means that none is known. -/
def emptyLines (limit : Nat) : Nat → List Char → Nat → Cursor → Option (List Char × Nat × Cursor)
  | 0, ends, deepest, c => some (ends, deepest, c)
  | fuel + 1, ends, deepest, c =>
      let spaces := (c.rest.takeWhile (· == ' ')).length
      let c := c.skip (if limit = 0 then spaces else min spaces (limit - c.column))
      let deepest := max deepest c.column
      if (limit = 0 ∨ c.column < limit) ∧ c.isAt '\t' then none
      else match c.peek 0 with
        | some a =>
            if isBreak a then emptyLines limit fuel (a :: ends) deepest c.next
            else some (ends, deepest, c)
        | none => some (ends, deepest, c)

/-- A block scalar under way. -/
structure Block where
  text : List Char := []
  lead : Option Char := none
  trail : List Char := []
  leadingBlank : Bool := false
deriving DecidableEq, Repr

namespace Block

/-- Add a line. In a folded scalar the line end before it becomes a blank, unless one of the two
lines starts with a blank. -/
def addLine (literal : Bool) (b : Block) (line : List Char) : Block :=
  let startsBlank := line.head?.any isSpace
  let between :=
    if !literal && b.lead == some '\n' && !b.leadingBlank && !startsBlank then
      if b.trail.isEmpty then [' '] else b.trail
    else b.trail ++ b.lead.toList
  { b with
    text := line.reverse ++ between ++ b.text
    leadingBlank := startsBlank }

def finish (b : Block) : Chomping → String
  | .strip => String.ofList b.text.reverse
  | .clip => String.ofList (b.lead.toList ++ b.text).reverse
  | .keep => String.ofList (b.trail ++ b.lead.toList ++ b.text).reverse

end Block

def blockLines (literal : Bool) (indent : Nat) : Nat → Block → Cursor → Option (Block × Cursor)
  | 0, b, c => some (b, c)
  | fuel + 1, b, c =>
      if c.column ≠ indent ∨ c.rest.isEmpty then some (b, c)
      else do
        let (line, c) := c.takeWhile fun _ => true
        let b := b.addLine literal line
        let lead := c.peek 0
        let (trail, _, c) ← emptyLines indent c.rest.length [] 0 c.next
        blockLines literal indent fuel { b with lead, trail } c

/-- Read a block scalar behind its indicator. -/
def block (literal : Bool) (parent : Int) (c : Cursor) : Option (String × Cursor) := do
  let (header, c) ← Header.read 2 {} c
  let c := (← c.finishLine).next
  let limit := match header.indent with
    | some n => (max parent 0).toNat + n
    | none => 0
  let (trail, deepest, c) ← emptyLines limit (c.rest.length + 1) [] 0 c
  let indent := if limit = 0 then max (max deepest (parent + 1).toNat) 1 else limit
  let (b, c) ← blockLines literal indent (c.rest.length + 1) { trail } c
  return (b.finish header.chomping, c)

end Scalar

end BleBridge.Yaml
