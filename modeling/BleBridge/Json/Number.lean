import BleBridge.Decimal.Shortest
import BleBridge.Text.Bytes

/-! # JSON numbers

A number without point and exponent is exact as long as it fits into 64 bits, signed or not. Every
other number is a double. -/

namespace BleBridge.Json

/-- A double is kept as its bits. -/
inductive Number where
  | int (n : Int)
  | double (bits : UInt64)
deriving DecidableEq, Repr

namespace Number

def text : Number → String
  | .int n => toString n
  | .double bits => Decimal.textOfBits bits

def leastInt : Int := -0x8000000000000000
def mostInt : Int := 0xFFFFFFFFFFFFFFFF

/-- The number as a signed word of 64 bits. -/
def toInt64? : Number → Option Int
  | .int n => if leastInt ≤ n ∧ n < 0x8000000000000000 then some n else none
  | .double _ => none

def wordLimit : Nat := 0x10000000000000000
def exponentLimit : Nat := 0x7FFFFFFF

def isDigit (b : UInt8) : Bool := 0x30 ≤ b && b ≤ 0x39

def digitOf (b : UInt8) : Nat := b.toNat - 0x30

/-- The digits that fit into a word, and how many more there were. -/
def significand : Nat → Bytes → Nat × Nat
  | acc, [] => (acc, 0)
  | acc, b :: rest =>
      let next := acc * 10 + digitOf b
      if next < wordLimit then significand next rest else (acc, rest.length + 1)

private def powerOfTen (n : Nat) : Float := Float.ofScientific 1 false n

/-- `word * 10 ^ exponent` as a double, in two roundings; `none` when it is too large. -/
def scale (word : Nat) (exponent : Int) : Option Float :=
  go 8 word.toUInt64.toFloat exponent
where
  go : Nat → Float → Int → Option Float
    | 0, f, _ => some f
    | fuel + 1, f, e =>
        if e.natAbs ≤ 308 then
          if 0 ≤ e then
            let scaled := f * powerOfTen e.toNat
            if scaled.isInf then none else some scaled
          else some (f / powerOfTen e.natAbs)
        else if f == 0.0 then some f
        else if 0 ≤ e then none
        else go fuel (f / powerOfTen 308) (e + 308)

/-- The parts of a written number. -/
structure Written where
  negative : Bool
  whole : Bytes
  fraction : Option Bytes
  exponent : Option (Bool × Bytes)
deriving DecidableEq, Repr

private def takeDigits (bs : Bytes) : Bytes × Bytes := (bs.takeWhile isDigit, bs.dropWhile isDigit)

private def readFraction : Bytes → Option (Option Bytes × Bytes)
  | 0x2E :: rest =>
      let (digits, left) := takeDigits rest
      if digits.isEmpty then none else some (some digits, left)
  | rest => some (none, rest)

private def readSign : Bytes → Bool × Bytes
  | 0x2B :: rest => (false, rest)
  | 0x2D :: rest => (true, rest)
  | rest => (false, rest)

private def readExponent : Bytes → Option (Option (Bool × Bytes) × Bytes)
  | b :: rest =>
      if b == 0x65 || b == 0x45 then
        let (negative, rest) := readSign rest
        let (digits, left) := takeDigits rest
        if digits.isEmpty then none else some (some (negative, digits), left)
      else some (none, b :: rest)
  | [] => some (none, [])

/-- The grammar of numbers: no leading zeros, and digits on both sides of a point. -/
def Written.parse (bs : Bytes) : Option Written := do
  let (negative, bs) := match bs with
    | 0x2D :: rest => (true, rest)
    | bs => (false, bs)
  let (whole, bs) := takeDigits bs
  guard (!whole.isEmpty && (whole.length == 1 || whole.head? != some 0x30))
  let (fraction, bs) ← readFraction bs
  let (exponent, bs) ← readExponent bs
  guard bs.isEmpty
  return ⟨negative, whole, fraction, exponent⟩

private def signed (negative : Bool) (f : Float) : Float := if negative then -f else f

/-- The value of a written exponent, with a stop where it leaves 32 bits. -/
private def exponentOf : Nat → Bytes → Option Nat
  | acc, [] => some acc
  | acc, b :: rest =>
      let next := acc * 10 + digitOf b
      if next ≤ exponentLimit then exponentOf next rest else none

/-- The significand of a number with a fraction: digits behind one that does not fit are left
out. Gives the word and the power of ten it stands for. -/
private def withFraction (word skipped : Nat) (fraction : Bytes) : Nat × Int :=
  let kept := significand word fraction
  (kept.1, (skipped : Int) - ((fraction.length - kept.2 : Nat) : Int))

namespace Written

/-- The exact integer, for a number without point and exponent that fits. -/
def toInt? (w : Written) : Option Int :=
  match w.fraction, w.exponent with
  | none, none =>
      let (word, skipped) := significand 0 w.whole
      if 0 < skipped then none
      else if w.negative then
        if 0 < word ∧ word ≤ 0x8000000000000000 then some (-(word : Int)) else none
      else some word
  | _, _ => none

def toFloat? (w : Written) : Option Float :=
  let (word, skipped) := significand 0 w.whole
  let (word, power) := match w.fraction with
    | none => (word, (skipped : Int))
    | some digits => withFraction word skipped digits
  let scaled := match w.exponent with
    | none => scale word power
    | some (negative, digits) =>
        match exponentOf 0 digits with
        | none => if word ≠ 0 ∧ !negative then none else some 0.0
        | some e => scale word (if negative then power - e else power + e)
  scaled.map (signed w.negative)

def toNumber? (w : Written) : Option Number :=
  match w.toInt? with
  | some n => some (.int n)
  | none => w.toFloat?.map fun f => .double f.toBits

end Written

end Number

end BleBridge.Json
