import BleBridge.Yaml.Cursor
import BleBridge.Yaml.Plain

/-! # How texts are written in YAML

A text is written plain if it reads back as that text, and else between quotes. Texts of several
lines are written as they stand, under their key. -/

namespace BleBridge.Yaml

/-- Characters that may stand for themselves. -/
def isPrintable (c : Char) : Bool :=
  let n := c.toNat
  n == 0x0A || (0x20 ≤ n && n ≤ 0x7E) || (0xA0 ≤ n && n ≤ 0xD7FF) ||
    (0xE000 ≤ n && n ≤ 0xFFFD && n != 0xFEFF)

inductive Style where
  | plain | single | double | literal
deriving DecidableEq, Repr

namespace Quoting

/-- Words that some readers take for truth values. -/
def truthWords : List String :=
  ["y", "Y", "yes", "Yes", "YES", "n", "N", "no", "No", "NO", "true", "True", "TRUE", "false",
    "False", "FALSE", "on", "On", "ON", "off", "Off", "OFF"]

/-- Whether a plain scalar of this text would be something else. -/
def isAmbiguous (s : String) : Bool :=
  truthWords.contains s || Plain.resolve s != .string s || Plain.isPadded s.toList

def endsWord (c : Option Char) : Bool := Cursor.endsWord c || c == some '\x00'

/-- Marks that mean something at the start of a scalar. -/
def leadMarks : List Char :=
  ['#', ',', '[', ']', '\x7b', '\x7d', '&', '*', '!', '|', '>', '\'', '"', '%', '@', '\x60']

def startsMarked : List Char → Bool
  | '-' :: '-' :: '-' :: _ | '.' :: '.' :: '.' :: _ => true
  | c :: rest =>
      leadMarks.contains c || ((c == '?' || c == ':' || c == '-') && endsWord rest.head?)
  | [] => false

/-- A colon before a blank or a hash behind one, past the first character. -/
def isMarkedInside : List Char → Bool
  | a :: b :: rest =>
      (b == ':' && endsWord rest.head?) || (b == '#' && endsWord (some a)) ||
        isMarkedInside (b :: rest)
  | _ => false

def isSpaceOrBreak (c : Char) : Bool := c == ' ' || isBreak c

/-- Whether some character of the first kind stands right before one of the second. -/
def hasPair (p q : Char → Bool) (cs : List Char) : Bool :=
  (cs.zip cs.tail).any fun (a, b) => p a && q b

def plainAllowed (cs : List Char) : Bool :=
  !(startsMarked cs || isMarkedInside cs || cs.any isBreak || cs.head?.any isSpaceOrBreak ||
    cs.getLast?.any isSpaceOrBreak || !cs.all isPrintable)

/-- Nothing is lost between single quotes but blanks around line ends and what has no picture. -/
def singleAllowed (cs : List Char) : Bool :=
  cs.all isPrintable && !hasPair isBreak (· == ' ') cs && !hasPair (· == ' ') isBreak cs

def literalAllowed (cs : List Char) : Bool :=
  cs.all isPrintable && cs.getLast? != some ' ' && !hasPair (· == ' ') isBreak cs

def style (s : String) : Style :=
  let cs := s.toList
  if !isAmbiguous s && cs.contains '\n' then if literalAllowed cs then .literal else .double
  else if !isAmbiguous s && plainAllowed cs then .plain
  else if singleAllowed cs then .single
  else .double

/-! ## Written scalars -/

/-- Indent what comes behind a line end. -/
def indented (indent : Nat) : Bool → List Char → List Char
  | _, [] => []
  | broken, c :: rest =>
      if isBreak c then c :: indented indent true rest
      else if broken then List.replicate indent ' ' ++ c :: indented indent false rest
      else c :: indented indent false rest

def doubled (c : Char) : List Char := if c = '\'' then ['\'', '\''] else [c]

def singleQuoted (indent : Nat) (cs : List Char) : List Char :=
  '\'' :: indented indent false (cs.flatMap doubled) ++ ['\'']

def shortEscapes : List (Char × Char) :=
  [('\x00', '0'), ('\x07', 'a'), ('\x08', 'b'), ('\t', 't'), ('\n', 'n'), ('\x0B', 'v'),
    ('\x0C', 'f'), ('\r', 'r'), ('\x1B', 'e'), ('"', '"'), ('\\', '\\'), ('\u0085', 'N'),
    ('\u2028', 'L'), ('\u2029', 'P')]

/-- So many capital hexadecimal digits. -/
def hexText (width n : Nat) : List Char :=
  let digits := (Nat.toDigits 16 n).map Char.toUpper
  List.replicate (width - digits.length) '0' ++ digits

def escaped (c : Char) : List Char :=
  match shortEscapes.lookup c with
  | some e => ['\\', e]
  | none =>
      if isPrintable c then [c]
      else if c.toNat ≤ 0xFF then '\\' :: 'x' :: hexText 2 c.toNat
      else if c.toNat ≤ 0xFFFF then '\\' :: 'u' :: hexText 4 c.toNat
      else '\\' :: 'U' :: hexText 8 c.toNat

def doubleQuoted (cs : List Char) : List Char := '"' :: cs.flatMap escaped ++ ['"']

/-- Indentation is only told where the text itself starts with a blank. -/
def indentHint (cs : List Char) : List Char := if cs.head?.any isSpaceOrBreak then ['2'] else []

/-- What happens to the line ends behind the text: none, one, or more of them. -/
def chompHint (cs : List Char) : List Char :=
  match cs.reverse with
  | a :: b :: _ => if !isBreak a then ['-'] else if isBreak b then ['+'] else []
  | [a] => if isBreak a then ['+'] else ['-']
  | [] => ['-']

def literal (indent : Nat) (cs : List Char) : List Char :=
  let body := indented indent true cs
  '|' :: indentHint cs ++ chompHint cs ++ '\n' :: body ++
    (if body.getLast?.any isBreak then [] else ['\n'])

/-- A text as a scalar with its line end; further lines are indented so far. -/
def write (indent : Nat) (s : String) : List Char :=
  let cs := s.toList
  match style s with
  | .plain => cs ++ ['\n']
  | .single => singleQuoted indent cs ++ ['\n']
  | .double => doubleQuoted cs ++ ['\n']
  | .literal => literal indent cs

end Quoting

end BleBridge.Yaml
