import BleBridge.Yaml.Scalar

/-! # Tokens of a YAML text

Outside brackets indentation opens and closes collections. A key without a mark of its own is only
known by the colon behind it, so the place of every token that may be one is remembered. -/

namespace BleBridge.Yaml

inductive Token where
  | version (major minor : String)
  | shorthand (handle lead : String)
  | documentStart | documentEnd
  | openBlockSequence | openBlockMapping | closeBlock
  | openSequence | closeSequence | openMapping | closeMapping
  | item | comma | key | value
  | alias (name : String)
  | anchor (name : String)
  | tag (handle suffix : String)
  | scalar (text : String) (plain : Bool)
deriving DecidableEq, Repr

/-- A token that may turn out to be a key. -/
structure Candidate where
  /-- How many tokens come before it. -/
  place : Nat
  /-- Nothing else than a key may stand there. -/
  required : Bool
  index : Nat
  line : Nat
  column : Nat
deriving DecidableEq, Repr

structure Tokenizer where
  cursor : Cursor
  /-- How many brackets are open. -/
  flow : Nat := 0
  /-- The column of the innermost collection outside brackets. -/
  indent : Int := -1
  outer : List Int := []
  /-- A key may start here. -/
  keyAllowed : Bool := true
  /-- The candidates, innermost level first. -/
  candidates : List (Option Candidate) := [none]
  tokens : Array Token := #[]
deriving Repr

namespace Tokenizer

/-- A candidate is on one line, and within so many characters of its colon. -/
def keyReach : Nat := 1024

def push (t : Tokenizer) (token : Token) : Tokenizer := { t with tokens := t.tokens.push token }

def goTo (t : Tokenizer) (cursor : Cursor) : Tokenizer := { t with cursor }

def insert (t : Tokenizer) (place : Nat) (token : Token) : Tokenizer :=
  { t with tokens :=
      t.tokens.extract 0 place ++ #[token] ++ t.tokens.extract place t.tokens.size }

def inFlow (t : Tokenizer) : Bool := 0 < t.flow

/-- Candidates on an earlier line are none. A required one must not get lost. -/
def dropStale (t : Tokenizer) : Option Tokenizer := do
  let candidates ← t.candidates.mapM fun
    | none => some none
    | some k =>
        if k.line < t.cursor.line ∨ k.index + keyReach < t.cursor.index then
          if k.required then none else some none
        else some (some k)
  return { t with candidates }

/-- Close the collections that lie further in. -/
def unroll (t : Tokenizer) (column : Int) : Tokenizer :=
  if t.inFlow then t else go t.outer t
where
  go : List Int → Tokenizer → Tokenizer
    | [], t => t
    | outer :: rest, t =>
        if column < t.indent then
          go rest { t.push .closeBlock with indent := outer, outer := rest }
        else t

/-- Open a collection at a column, unless it is open already. -/
def roll (t : Tokenizer) (column place : Nat) (token : Token) : Tokenizer :=
  if !t.inFlow && t.indent < column then
    { t.insert place token with indent := column, outer := t.indent :: t.outer }
  else t

def here (t : Tokenizer) (token : Token) : Tokenizer := t.roll t.cursor.column t.tokens.size token

def dropCandidate (t : Tokenizer) : Option Tokenizer :=
  match t.candidates with
  | some k :: rest => if k.required then none else some { t with candidates := none :: rest }
  | _ => some t

def saveCandidate (t : Tokenizer) : Option Tokenizer := do
  if !t.keyAllowed then return t
  let required := !t.inFlow && t.indent == t.cursor.column
  let t ← t.dropCandidate
  let k : Candidate :=
    ⟨t.tokens.size, required, t.cursor.index, t.cursor.line, t.cursor.column⟩
  return { t with candidates := some k :: t.candidates.tail }

/-! ## Between tokens -/

def byteOrderMark : Char := '\uFEFF'

/-- Pass over blanks, comments and line ends. After a line end outside brackets a key may start. A
line may begin with a mark of the byte order. -/
def skipBlank : Nat → Tokenizer → Tokenizer
  | 0, t => t
  | fuel + 1, t =>
      match t.cursor.peek 0 with
      | none => t
      | some a =>
          if a = ' ' ∨ a = '\t' ∧ (t.inFlow ∨ !t.keyAllowed) then
            skipBlank fuel (t.goTo t.cursor.next)
          else if a = byteOrderMark ∧ t.cursor.column = 0 then
            skipBlank fuel (t.goTo t.cursor.next)
          else if a = '#' then skipBlank fuel (t.goTo (t.cursor.skipWhile fun _ => true))
          else if isBreak a then
            skipBlank fuel { t.goTo t.cursor.next with keyAllowed := t.keyAllowed || !t.inFlow }
          else t

/-! ## Kinds of tokens -/

/-- A mark of one character. -/
def mark (t : Tokenizer) (token : Token) : Tokenizer := (t.push token).goTo t.cursor.next

def openFlow (t : Tokenizer) (token : Token) : Option Tokenizer := do
  let t ← t.saveCandidate
  return { t.mark token with
    flow := t.flow + 1, candidates := none :: t.candidates, keyAllowed := true }

def closeFlow (t : Tokenizer) (token : Token) : Option Tokenizer := do
  let t ← t.dropCandidate
  let t := if t.inFlow then
    { t with flow := t.flow - 1, candidates := t.candidates.tail } else t
  return { t.mark token with keyAllowed := false }

def comma (t : Tokenizer) : Option Tokenizer := do
  return { (← t.dropCandidate).mark .comma with keyAllowed := true }

def item (t : Tokenizer) : Option Tokenizer := do
  if !t.inFlow && !t.keyAllowed then none
  return { (← (t.here .openBlockSequence).dropCandidate).mark .item with keyAllowed := true }

def key (t : Tokenizer) : Option Tokenizer := do
  if !t.inFlow && !t.keyAllowed then none
  return { (← (t.here .openBlockMapping).dropCandidate).mark .key with
    keyAllowed := !t.inFlow }

def value (t : Tokenizer) : Option Tokenizer :=
  match t.candidates with
  | some k :: rest =>
      let t := (t.insert k.place .key).roll k.column k.place .openBlockMapping
      some { t.mark .value with candidates := none :: rest, keyAllowed := false }
  | _ =>
      if !t.inFlow && !t.keyAllowed then none
      else some { (t.here .openBlockMapping).mark .value with keyAllowed := !t.inFlow }

def isNameChar (c : Char) : Bool := c.isAlphanum || c == '_' || c == '-'

/-- An anchor or an alias. -/
def name (t : Tokenizer) (make : String → Token) : Option Tokenizer := do
  let t ← t.saveCandidate
  let (name, c) := t.cursor.next.takeWhile isNameChar
  if name.isEmpty then none
  if !Cursor.endsWord (c.peek 0) &&
      !(c.peek 0).any (['?', ':', ',', ']', '\x7d', '%', '@', '\x60'].contains ·) then none
  return { (t.push (make (String.ofList name))).goTo c with keyAllowed := false }

def quoted (t : Tokenizer) (read : Scalar.Quoted → Cursor → Option (String × Cursor)) :
    Option Tokenizer := do
  let t ← t.saveCandidate
  let (text, c) ← read {} t.cursor.next
  return { (t.push (.scalar text false)).goTo c with keyAllowed := false }

def block (t : Tokenizer) (literal : Bool) : Option Tokenizer := do
  let t ← t.dropCandidate
  let (text, c) ← Scalar.block literal t.indent t.cursor.next
  return { (t.push (.scalar text false)).goTo c with keyAllowed := true }

def plain (t : Tokenizer) : Option Tokenizer := do
  let t ← t.saveCandidate
  let (text, c, broken) ←
    Scalar.plain ⟨t.inFlow, t.indent + 1⟩ { behind := t.cursor } t.cursor
  return { (t.push (.scalar text true)).goTo c with keyAllowed := broken }

/-- A marker between documents. -/
def marker (t : Tokenizer) (token : Token) : Option Tokenizer := do
  let t ← (t.unroll (-1)).dropCandidate
  return { (t.push token).goTo (t.cursor.skip 3) with keyAllowed := false }

/-! ## Tags and directives -/

def isTagChar (c : Char) : Bool :=
  isNameChar c || [';', '/', '?', ':', '@', '&', '=', '+', '$', '.', '%', '!', '~', '*', '\'',
    '(', ')'].contains c

/-- Characters of a tag in angle brackets. -/
def isUriChar (c : Char) : Bool := isTagChar c || [',', '[', ']'].contains c

/-- A tag as its handle and what comes behind it. -/
def splitTag (cs : List Char) : String × String :=
  let name := cs.takeWhile isNameChar
  match cs.drop name.length with
  | '!' :: suffix => (String.ofList ('!' :: name ++ ['!']), String.ofList suffix)
  | _ => if cs.isEmpty then ("", "!") else ("!", String.ofList cs)

def tag (t : Tokenizer) : Option Tokenizer := do
  let t ← t.saveCandidate
  let c := t.cursor.next
  let (token, c) ←
    if c.isAt '<' then
      let (uri, c) := c.next.takeWhile isUriChar
      if uri.isEmpty || !c.isAt '>' then none
      else some (Token.tag "" (String.ofList uri), c.next)
    else
      let (cs, c) := c.takeWhile isTagChar
      let (handle, suffix) := splitTag cs
      if suffix.isEmpty then none else some (Token.tag handle suffix, c)
  if !Cursor.endsWord (c.peek 0) && !(t.inFlow && c.isAt ',') then none
  return { (t.push token).goTo c with keyAllowed := false }

def maxVersionSize : Nat := 9

def number? (c : Cursor) : Option (String × Cursor) :=
  let (digits, c) := c.takeWhile Char.isDigit
  if digits.isEmpty || maxVersionSize < digits.length then none
  else some (String.ofList digits, c)

def versionOf? (c : Cursor) : Option (Token × Cursor) := do
  let (major, c) ← number? (c.skipWhile isSpace)
  if !c.isAt '.' then none
  let (minor, c) ← number? c.next
  return (.version major minor, c)

def shorthandOf? (c : Cursor) : Option (Token × Cursor) := do
  let (handle, c) := (c.skipWhile isSpace).takeWhile fun a => a == '!' || isNameChar a
  let inner := handle.drop 1
  if handle.head? != some '!' || !(inner.isEmpty || inner.getLast? == some '!') then none
  if inner.dropLast.contains '!' || !(c.peek 0).any isSpace then none
  let (lead, c) := (c.skipWhile isSpace).takeWhile isUriChar
  if lead.isEmpty || !Cursor.endsWord (c.peek 0) then none
  return (.shorthand (String.ofList handle) (String.ofList lead), c)

def directive (t : Tokenizer) : Option Tokenizer := do
  let t ← (t.unroll (-1)).dropCandidate
  let (name, c) := t.cursor.next.takeWhile isNameChar
  if !Cursor.endsWord (c.peek 0) then none
  let (token, c) ←
    if name = "YAML".toList then versionOf? c
    else if name = "TAG".toList then shorthandOf? c
    else none
  return { (t.push token).goTo (← c.finishLine) with keyAllowed := false }

/-! ## All tokens -/

/-- Characters that start no plain scalar. -/
def isIndicator (c : Char) : Bool :=
  ['-', '?', ':', ',', '[', ']', '\x7b', '\x7d', '#', '&', '*', '!', '|', '>', '\'', '"', '%',
    '@', '\x60'].contains c

def startsPlain (t : Tokenizer) (c : Char) : Bool :=
  let next := t.cursor.peek 1
  !(isIndicator c || isSpace c || isBreak c) ||
    (c == '-' && !next.any isSpace) ||
    (!t.inFlow && (c == '?' || c == ':') && !Cursor.endsWord next)

/-- Read the token that starts with a character. -/
def token (t : Tokenizer) (c : Char) : Option Tokenizer :=
  let wordEnds := Cursor.endsWord (t.cursor.peek 1)
  if t.cursor.column = 0 ∧ c = '%' then t.directive
  else if t.cursor.isMarker '-' then t.marker .documentStart
  else if t.cursor.isMarker '.' then t.marker .documentEnd
  else if c = '[' then t.openFlow .openSequence
  else if c = '\x7b' then t.openFlow .openMapping
  else if c = ']' then t.closeFlow .closeSequence
  else if c = '\x7d' then t.closeFlow .closeMapping
  else if c = ',' then t.comma
  else if c = '-' ∧ wordEnds then t.item
  else if c = '?' ∧ (t.inFlow ∨ wordEnds) then t.key
  else if c = ':' ∧ (t.inFlow ∨ wordEnds) then t.value
  else if c = '*' then t.name .alias
  else if c = '&' then t.name .anchor
  else if c = '!' then t.tag
  else if c = '|' ∧ !t.inFlow then t.block true
  else if c = '>' ∧ !t.inFlow then t.block false
  else if c = '\'' then t.quoted Scalar.single
  else if c = '"' then t.quoted Scalar.double
  else if t.startsPlain c then t.plain
  else none

/-- The end of the text closes all collections. -/
def finish (t : Tokenizer) : Option (Array Token) := do
  return (← (t.unroll (-1)).dropCandidate).tokens

def run : Nat → Tokenizer → Option (Array Token)
  | 0, _ => none
  | fuel + 1, t => do
      let t ← (skipBlank t.cursor.rest.length t).dropStale
      match t.cursor.peek 0 with
      | none => t.finish
      | some c => run fuel (← (t.unroll t.cursor.column).token c)

end Tokenizer

/-- The tokens of a text; none if it is malformed. -/
def tokens? (s : String) : Option (List Token) := do
  let cs := s.toList
  if !cs.all isAllowed then none
  return (← Tokenizer.run (cs.length + 2) { cursor := { rest := unifyBreaks cs } }).toList

end BleBridge.Yaml
