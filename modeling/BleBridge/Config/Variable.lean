import BleBridge.Json.Value
import BleBridge.Text.Blank
import BleBridge.Text.Hex
import BleBridge.Text.Search
import BleBridge.Yaml.Plain

/-! # Settings in variables of the environment

The name of a variable tells the place of a setting, and its text is typed: truth values, numbers,
quoted texts, lists and records. Every other text stands for itself. -/

namespace BleBridge.Config.Variable

/-! ## Values -/

/-- Blanks between the parts of a value. -/
def isGap (c : Char) : Bool := [' ', '\t', '\n', '\x0C', '\r'].contains c

def skipGap (cs : List Char) : List Char := cs.dropWhile isGap

/-- Characters that end a plain value. -/
def isSeparator (c : Char) : Bool := [',', '\x7b', '\x7d', '[', ']'].contains c

def isKeyChar (c : Char) : Bool := c.isAlphanum || c == '_' || c == '-'

def simpleEscapes : List (Char × Char) :=
  [('"', '"'), ('\\', '\\'), ('b', '\x08'), ('f', '\x0C'), ('n', '\n'), ('r', '\r'), ('t', '\t')]

/-- A code point of so many hexadecimal digits. -/
def codePoint? (digits : Nat) (cs : List Char) : Option (Char × List Char) := do
  if cs.length < digits then none
  let n ← (cs.take digits).foldlM (fun n c => (Text.hexValue? c).map (n * 16 + ·)) 0
  if n.isValidChar then return (Char.ofNat n, cs.drop digits) else none

/-- Resolve the escapes of a quoted text. -/
def unescape? : Nat → List Char → Option (List Char)
  | _, [] => some []
  | 0, _ => none
  | fuel + 1, '\\' :: c :: rest =>
      match c with
      | 'u' => do let (a, rest) ← codePoint? 4 rest; return a :: (← unescape? fuel rest)
      | 'U' => do let (a, rest) ← codePoint? 8 rest; return a :: (← unescape? fuel rest)
      | c => do return (← simpleEscapes.lookup c) :: (← unescape? fuel rest)
  | fuel + 1, c :: rest =>
      if c = '\t' ∨ (' ' ≤ c ∧ c ≠ '\x7F') then (unescape? fuel rest).map (c :: ·) else none

/-- The characters up to a quote that is not escaped, and what comes behind it. -/
def untilQuote : List Char → Option (List Char × List Char)
  | [] => none
  | '"' :: rest => some ([], rest)
  | '\\' :: c :: rest => (untilQuote rest).map fun (inner, left) => ('\\' :: c :: inner, left)
  | c :: rest => (untilQuote rest).map fun (inner, left) => (c :: inner, left)

/-- A quoted text behind its opening quote. -/
def quoted? (cs : List Char) : Option (String × List Char) := do
  let (inner, rest) ← untilQuote cs
  return (String.ofList (← unescape? inner.length inner), rest)

/-- Whole numbers of 64 bits, or numbers with a point. -/
def number? (cs : List Char) : Option Json :=
  let (sign, digits) := Yaml.Plain.splitSign cs
  let negative := sign = some true
  let whole := ((Yaml.Plain.natOf? 10 digits).map fun n =>
    if negative then -(n : Int) else n).filter fun n =>
      -0x8000000000000000 ≤ n ∧ n < 0x10000000000000000
  match whole with
  | some n => some (.int n)
  | none =>
      if cs.contains '.' then
        (Yaml.Plain.scientific? digits).map fun s =>
          let f := s.toFloat?.getD Yaml.Plain.infinity
          .number (.double (if negative then -f else f).toBits)
      else none

def plain (cs : List Char) : Json :=
  let trimmed := Text.trimChars cs
  (number? trimmed).getD (.string (String.ofList trimmed))

def key? : List Char → Option (String × List Char)
  | '"' :: rest => quoted? rest
  | cs =>
      let key := cs.takeWhile isKeyChar
      if key.isEmpty then none else some (String.ofList key, cs.drop key.length)

mutual

/-- Read a value with the blanks around it. -/
def value? : Nat → List Char → Option (Json × List Char)
  | 0, _ => none
  | fuel + 1, cs => do
      let (v, rest) ← bare? fuel (skipGap cs)
      return (v, skipGap rest)

def bare? : Nat → List Char → Option (Json × List Char)
  | 0, _ => none
  | fuel + 1, cs =>
      match cs with
      | 't' :: 'r' :: 'u' :: 'e' :: rest => some (.bool true, rest)
      | 'f' :: 'a' :: 'l' :: 's' :: 'e' :: rest => some (.bool false, rest)
      | '[' :: rest => do
          let (items, rest) ← items? fuel rest
          return (.array items, rest)
      | '\x7b' :: rest => do
          let (members, rest) ← members? fuel rest
          return (.ofMembers members, rest)
      | '"' :: rest => do
          let (s, rest) ← quoted? rest
          return (.string s, rest)
      | ['\''] => none
      | '\'' :: c :: '\'' :: rest => some (.string c.toString, rest)
      | '\'' :: _ => none
      | cs =>
          let taken := cs.takeWhile (!isSeparator ·)
          some (plain taken, cs.drop taken.length)

/-- Values up to the closing bracket; a comma may follow the last one. -/
def items? : Nat → List Char → Option (List Json × List Char)
  | 0, _ => none
  | _ + 1, ']' :: rest => some ([], rest)
  | fuel + 1, cs => do
      let (v, rest) ← value? fuel cs
      match rest with
      | ',' :: rest =>
          let (vs, rest) ← items? fuel rest
          return (v :: vs, rest)
      | ']' :: rest => return ([v], rest)
      | _ => none

/-- Keys with values up to the closing brace; a comma may follow the last one. -/
def members? : Nat → List Char → Option (List (String × Json) × List Char)
  | 0, _ => none
  | _ + 1, '\x7d' :: rest => some ([], rest)
  | fuel + 1, cs => do
      let (k, rest) ← key? (skipGap cs)
      let (v, rest) ← match skipGap rest with
        | '=' :: rest => value? fuel rest
        | _ => none
      match rest with
      | ',' :: rest =>
          let (vs, rest) ← members? fuel rest
          return ((k, v) :: vs, rest)
      | '\x7d' :: rest => return ([(k, v)], rest)
      | _ => none

end

/-- The value of a text. What is no value is a text as it stands. -/
def value (s : String) : Json :=
  match value? (2 * s.length + 2) s.toList with
  | some (v, []) => v
  | _ => .string s

/-! ## Names -/

/-- The lead of all names, in letters of any case. -/
def lead : String := "BLESRV_"

def levelMark : List Char := ['_', '_']

/-- The keys that lead to the setting of a variable, outermost first. -/
def path? (name : String) : Option (List String) :=
  let cs := Text.trimChars (name.toList.map Char.toLower)
  let lead := lead.toList.map Char.toLower
  if lead.isPrefixOf cs then
    let rest := cs.drop lead.length
    if (Text.trimChars rest).isEmpty then none
    else
      let parts := ((Text.splitAt levelMark rest).map (Text.splitAt ['.'])).flatten
      some ((parts.takeWhile (!·.isEmpty)).map String.ofList)
  else none

/-- A value under a path of keys. -/
def nest (v : Json) : List String → Json
  | [] => v
  | key :: rest => .object [(key, nest v rest)]

/-- What a variable sets, if it is one of ours. -/
def setting? (entry : String × String) : Option Json :=
  (path? entry.1).map (nest (value entry.2))

end BleBridge.Config.Variable
