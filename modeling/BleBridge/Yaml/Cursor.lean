import BleBridge.Text.Search

/-! # A place in a YAML text -/

namespace BleBridge.Yaml

def isBreak (c : Char) : Bool := c == '\n' || c == '\u2028' || c == '\u2029'

def isSpace (c : Char) : Bool := c == ' ' || c == '\t'

/-- Characters that a text may hold at all. -/
def isAllowed (c : Char) : Bool :=
  let n := c.toNat
  n == 0x09 || n == 0x0A || n == 0x0D || (0x20 ≤ n && n ≤ 0x7E) || n == 0x85 ||
    (0xA0 ≤ n && n ≤ 0xD7FF) || (0xE000 ≤ n && n ≤ 0xFFFD) || 0x10000 ≤ n

/-- All line ends of one character become the same. -/
def unifyBreaks : List Char → List Char
  | '\r' :: '\n' :: rest => '\n' :: unifyBreaks rest
  | '\r' :: rest => '\n' :: unifyBreaks rest
  | '\u0085' :: rest => '\n' :: unifyBreaks rest
  | c :: rest => c :: unifyBreaks rest
  | [] => []

structure Cursor where
  rest : List Char
  index : Nat := 0
  line : Nat := 0
  column : Nat := 0
deriving DecidableEq, Repr

namespace Cursor

/-- Pass over one character. -/
def next (c : Cursor) : Cursor :=
  match c.rest with
  | [] => c
  | a :: rest =>
      if isBreak a then ⟨rest, c.index + 1, c.line + 1, 0⟩
      else ⟨rest, c.index + 1, c.line, c.column + 1⟩

def skip : Nat → Cursor → Cursor
  | 0, c => c
  | n + 1, c => skip n c.next

theorem rest_next (c : Cursor) : c.next.rest = c.rest.tail := by
  unfold next
  split
  · simp_all
  · rename_i h
    split <;> simp [h]

/-- The character so many places on. -/
def peek (c : Cursor) (n : Nat) : Option Char := c.rest[n]?

def isAt (c : Cursor) (a : Char) : Bool := c.peek 0 == some a

/-- A blank, a line end or the end of the text. -/
def endsWord : Option Char → Bool
  | none => true
  | some a => isSpace a || isBreak a

def endsLine : Option Char → Bool
  | none => true
  | some a => isBreak a

/-- Pass over characters of one line. -/
def takeWhile (c : Cursor) (p : Char → Bool) : List Char × Cursor :=
  let taken := c.rest.takeWhile fun a => p a && !isBreak a
  (taken, ⟨c.rest.drop taken.length, c.index + taken.length, c.line, c.column + taken.length⟩)

def skipWhile (c : Cursor) (p : Char → Bool) : Cursor := (c.takeWhile p).2

/-- Three characters at the start of a line that stand alone. -/
def isMarker (c : Cursor) (mark : Char) : Bool :=
  c.column == 0 && c.rest.take 3 == [mark, mark, mark] && endsWord (c.peek 3)

def isDocumentMarker (c : Cursor) : Bool := c.isMarker '-' || c.isMarker '.'

/-- Pass over blanks and a comment up to the end of the line; nothing else may stand there. -/
def finishLine (c : Cursor) : Option Cursor :=
  let c := c.skipWhile isSpace
  let c := if c.isAt '#' then c.skipWhile fun _ => true else c
  if endsLine (c.peek 0) then some c else none

end Cursor

end BleBridge.Yaml
