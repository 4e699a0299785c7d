import BleBridge.Json.Value
import BleBridge.Text.Hex

/-! # What plain scalars stand for

A scalar without quotes is null, a truth value, a whole number, a number with a point or an
exponent, or else a text. Digits behind a leading zero are a text. -/

namespace BleBridge.Yaml.Plain

def isNull (s : String) : Bool := ["", "null", "Null", "NULL", "~"].contains s

def bool? (s : String) : Option Bool :=
  if ["true", "True", "TRUE"].contains s then some true
  else if ["false", "False", "FALSE"].contains s then some false
  else none

def digitOf? (base : Nat) (c : Char) : Option Nat :=
  (Text.hexValue? c).filter fun d => d < base

def addDigit? (base n : Nat) (c : Char) : Option Nat := (digitOf? base c).map (n * base + ·)

/-- Digits of a base, at least one. -/
def natOf? (base : Nat) : List Char → Option Nat
  | [] => none
  | cs => cs.foldlM (addDigit? base) 0

/-- A number without sign, in a base told by its lead. -/
def magnitude? : List Char → Option Nat
  | '0' :: 'x' :: rest => natOf? 16 rest
  | '0' :: 'o' :: rest => natOf? 8 rest
  | '0' :: 'b' :: rest => natOf? 2 rest
  | cs => natOf? 10 cs

def splitSign : List Char → Option Bool × List Char
  | '-' :: rest => (some true, rest)
  | '+' :: rest => (some false, rest)
  | cs => (none, cs)

/-- Digits behind a leading zero. -/
def isPadded (cs : List Char) : Bool :=
  match (splitSign cs).2 with
  | '0' :: c :: rest => (c :: rest).all Char.isDigit
  | _ => false

def int? (cs : List Char) : Option Int :=
  if isPadded cs then none
  else
    let (sign, rest) := splitSign cs
    (magnitude? rest).map fun n => if sign = some true then -(n : Int) else n

/-- A decimal fraction with an exponent: `digits * 10 ^ exponent`. -/
structure Scientific where
  digits : Nat
  exponent : Int
deriving DecidableEq, Repr

def exponentOf? : List Char → Option Int
  | [] => some 0
  | e :: rest =>
      if e = 'e' ∨ e = 'E' then
        let (sign, digits) := splitSign rest
        (natOf? 10 digits).map fun n => if sign = some true then -(n : Int) else n
      else none

/-- Digits on one side of a point at least, and maybe an exponent. -/
def scientific? (cs : List Char) : Option Scientific := do
  let whole := cs.takeWhile Char.isDigit
  let rest := cs.dropWhile Char.isDigit
  let (fraction, rest) := match rest with
    | '.' :: rest => (rest.takeWhile Char.isDigit, rest.dropWhile Char.isDigit)
    | rest => ([], rest)
  let digits ← natOf? 10 (whole ++ fraction)
  return ⟨digits, (← exponentOf? rest) - fraction.length⟩

namespace Scientific

/-- Beyond this power of ten lies no double, nor below its inverse. -/
def farthest : Int := 400

def magnitude (s : Scientific) : Int := (toString s.digits).length + s.exponent

/-- The nearest double, unless it is infinite. -/
def toFloat? (s : Scientific) : Option Float :=
  if s.digits = 0 ∨ s.magnitude < -farthest then some 0.0
  else if farthest < s.magnitude then none
  else
    let f := Float.ofScientific s.digits (s.exponent < 0) s.exponent.natAbs
    if f.isInf then none else some f

end Scientific

def infinity : Float := 1.0 / 0.0

/-- Infinities and the value that is no number have words of their own. -/
def word? (s : String) : Option Float :=
  if [".inf", ".Inf", ".INF", "+.inf", "+.Inf", "+.INF"].contains s then some infinity
  else if ["-.inf", "-.Inf", "-.INF"].contains s then some (-infinity)
  else if [".nan", ".NaN", ".NAN"].contains s then some (0.0 / 0.0)
  else none

def float? (s : String) : Option Float :=
  match word? s with
  | some f => some f
  | none =>
      if isPadded s.toList then none
      else
        let (sign, rest) := splitSign s.toList
        ((scientific? rest).bind Scientific.toFloat?).map fun f =>
          if sign = some true then -f else f

def leastInt : Int := -0x80000000000000000000000000000000
def mostInt : Int := 0xFFFFFFFFFFFFFFFFFFFFFFFFFFFFFFFF

/-- Whole numbers beyond 128 bits are numbers with an exponent. -/
def resolve (s : String) : Json :=
  if isNull s then .null
  else match bool? s with
    | some b => .bool b
    | none =>
        match (int? s.toList).filter fun n => leastInt ≤ n ∧ n ≤ mostInt with
        | some n => .int n
        | none =>
            match float? s with
            | some f => .number (.double f.toBits)
            | none => .string s

example : resolve "0x75B" = .int 1883 := by rfl

end BleBridge.Yaml.Plain
