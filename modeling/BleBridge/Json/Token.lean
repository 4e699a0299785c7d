import BleBridge.Json.Value

/-! # Tokens of a JSON text

A text is read byte by byte. The content of a string or a number may turn out to stand for
nothing (bytes that are no UTF-8, half a surrogate pair, a number beyond all doubles); such a token
still has its place in the text. -/

namespace BleBridge.Json

inductive Token where
  | openArray | closeArray | openObject | closeObject | comma | colon
  | null | bool (b : Bool)
  | number (value : Option Number)
  | string (value : Option String)
deriving DecidableEq, Repr

/-- What a string is made of: plain bytes and code units written in hexadecimal. -/
inductive Piece where
  | byte (b : UInt8)
  | unit (u : Nat)
deriving DecidableEq, Repr

namespace Token

def isHigh (u : Nat) : Bool := 0xD800 ≤ u && u < 0xDC00
def isLow (u : Nat) : Bool := 0xDC00 ≤ u && u < 0xE000

/-- The character of a surrogate pair. -/
def ofPair (high low : Nat) : Char :=
  Char.ofNat (0x10000 + (high - 0xD800) * 0x400 + (low - 0xDC00))

/-- The bytes that the pieces spell, before `acc`. The last piece comes first. -/
def spell : List Piece → Bytes → Option Bytes
  | [], acc => some acc
  | .byte b :: rest, acc => spell rest (b :: acc)
  | .unit low :: .unit u :: rest, acc =>
      if isLow low then
        if isHigh u then spell rest (String.utf8EncodeChar (ofPair u low) ++ acc) else none
      else if isHigh low then none
      else spell (.unit u :: rest) (String.utf8EncodeChar (Char.ofNat low) ++ acc)
  | .unit u :: rest, acc =>
      if isLow u || isHigh u then none
      else spell rest (String.utf8EncodeChar (Char.ofNat u) ++ acc)

/-- The text of a string whose last piece comes first. -/
def content (pieces : List Piece) : Option String := (spell pieces []).bind Text.ofBytes?

/-- Where the reader stands. What it has collected lies in reverse. -/
inductive Place where
  | between
  | inWord (letters : Bytes)
  | inNumber (bytes : Bytes)
  | inString (pieces : List Piece)
  | inEscape (pieces : List Piece)
  | inUnit (pieces : List Piece) (digits value : Nat)
deriving DecidableEq, Repr

def isLetter (b : UInt8) : Bool := 0x61 ≤ b && b ≤ 0x7A

def isNumberByte (b : UInt8) : Bool :=
  Number.isDigit b || b == 0x2B || b == 0x2D || b == 0x2E || b == 0x45 || b == 0x65

def hexValue? (b : UInt8) : Option Nat :=
  if 0x30 ≤ b && b ≤ 0x39 then some (b.toNat - 0x30)
  else if 0x41 ≤ b && b ≤ 0x46 then some (b.toNat - 0x41 + 10)
  else if 0x61 ≤ b && b ≤ 0x66 then some (b.toNat - 0x61 + 10)
  else none

/-- The byte that a short escape stands for. -/
def shortEscape? (b : UInt8) : Option UInt8 :=
  if b == 0x22 || b == 0x5C || b == 0x2F then some b
  else if b == 0x62 then some 0x08
  else if b == 0x66 then some 0x0C
  else if b == 0x6E then some 0x0A
  else if b == 0x72 then some 0x0D
  else if b == 0x74 then some 0x09
  else none

def ofWord? (letters : Bytes) : Option Token :=
  if letters = Text.bytes "null" then some .null
  else if letters = Text.bytes "true" then some (.bool true)
  else if letters = Text.bytes "false" then some (.bool false)
  else none

def ofNumber? (bytes : Bytes) : Option Token :=
  (Number.Written.parse bytes).map fun w => .number w.toNumber?

/-- A byte where no token is under way. -/
def start (b : UInt8) : Option (List Token × Place) :=
  if b == 0x20 || b == 0x0A || b == 0x0D || b == 0x09 then some ([], .between)
  else if b == 0x5B then some ([.openArray], .between)
  else if b == 0x5D then some ([.closeArray], .between)
  else if b == 0x7B then some ([.openObject], .between)
  else if b == 0x7D then some ([.closeObject], .between)
  else if b == 0x2C then some ([.comma], .between)
  else if b == 0x3A then some ([.colon], .between)
  else if b == 0x22 then some ([], .inString [])
  else if isLetter b then some ([], .inWord [b])
  else if Number.isDigit b || b == 0x2D then some ([], .inNumber [b])
  else none

/-- The tokens that a byte completes, and the place behind it. -/
def step (place : Place) (b : UInt8) : Option (List Token × Place) :=
  match place with
  | .between => start b
  | .inWord letters =>
      if isLetter b then some ([], .inWord (b :: letters))
      else do
        let word ← ofWord? letters.reverse
        let (tokens, next) ← start b
        return (word :: tokens, next)
  | .inNumber bytes =>
      if isNumberByte b then some ([], .inNumber (b :: bytes))
      else do
        let number ← ofNumber? bytes.reverse
        let (tokens, next) ← start b
        return (number :: tokens, next)
  | .inString pieces =>
      if b == 0x22 then some ([.string (content pieces)], .between)
      else if b == 0x5C then some ([], .inEscape pieces)
      else if b < 0x20 then none
      else some ([], .inString (.byte b :: pieces))
  | .inEscape pieces =>
      if b == 0x75 then some ([], .inUnit pieces 0 0)
      else (shortEscape? b).map fun c => ([], .inString (.byte c :: pieces))
  | .inUnit pieces digits value =>
      (hexValue? b).map fun h =>
        if digits = 3 then ([], .inString (.unit (value * 16 + h) :: pieces))
        else ([], .inUnit pieces (digits + 1) (value * 16 + h))

/-- The tokens under way at the end of the text. -/
def finish : Place → Option (List Token)
  | .between => some []
  | .inWord letters => (ofWord? letters.reverse).map ([·])
  | .inNumber bytes => (ofNumber? bytes.reverse).map ([·])
  | _ => none

/-- One byte more; the last token comes first. -/
def feed (s : Place × List Token) (b : UInt8) : Option (Place × List Token) :=
  (step s.1 b).map fun r => (r.2, r.1.reverse ++ s.2)

def read (bs : Bytes) : Option (List Token) := do
  let (place, tokens) ← bs.foldlM feed (.between, [])
  let last ← finish place
  return (last.reverse ++ tokens).reverse

end Token

end BleBridge.Json
