/-! # The shortest decimal of a double

A double is a whole number times a power of two. All reals closer to it than to its neighbours are
read back as it; the ends of that interval are too when its whole number is even. The shortest
decimal is the one with the fewest digits in the interval, and of those the nearest. -/

namespace BleBridge.Decimal

/-- A finite double without its sign: `mantissa * 2 ^ exponent`. -/
structure Magnitude where
  mantissa : Nat
  exponent : Int
  /-- The lower neighbour is only half as far away as the upper one. -/
  narrowBelow : Bool
deriving DecidableEq, Repr

def isNegative (bits : UInt64) : Bool := bits >>> 63 == 1

def Magnitude.ofBits (bits : UInt64) : Magnitude :=
  let e := ((bits >>> 52) &&& 0x7FF).toNat
  let f := (bits &&& 0xFFFFFFFFFFFFF).toNat
  if e = 0 then ⟨f, -1074, false⟩ else ⟨f + 0x10000000000000, (e : Int) - 1075, f = 0 && 1 < e⟩

/-- A nonnegative fraction. -/
structure Ratio where
  num : Nat
  den : Nat

namespace Ratio

/-- `n * base ^ e` -/
def scaled (n : Nat) (base : Nat) (e : Int) : Ratio :=
  if 0 ≤ e then ⟨n * Nat.pow base e.toNat, 1⟩ else ⟨n, Nat.pow base (-e).toNat⟩

def lt (a b : Ratio) : Bool := a.num * b.den < b.num * a.den
def le (a b : Ratio) : Bool := a.num * b.den ≤ b.num * a.den

/-- The distance of two fractions. -/
def gap (a b : Ratio) : Ratio :=
  ⟨(a.num * b.den - b.num * a.den) + (b.num * a.den - a.num * b.den), a.den * b.den⟩

end Ratio

/-- The decimal exponent of the leading digit of a positive fraction. -/
def leadingExponent (r : Ratio) : Int :=
  if r.den ≤ r.num then ((toString (r.num / r.den)).length : Int) - 1
  else below 400 1
where
  below : Nat → Nat → Int
    | 0, j => -(j : Int)
    | fuel + 1, j => if r.den ≤ r.num * Nat.pow 10 j then -(j : Int) else below fuel (j + 1)

namespace Magnitude

/-- Quarters of the mantissa's last unit, as a fraction. -/
def quarters (m : Magnitude) (n : Nat) : Ratio := Ratio.scaled n 2 (m.exponent - 2)

def value (m : Magnitude) : Ratio := m.quarters (4 * m.mantissa)

/-- Whether `r` is read back as `m`. -/
def readsBack (m : Magnitude) (r : Ratio) : Bool :=
  let low := m.quarters (4 * m.mantissa - if m.narrowBelow then 1 else 2)
  let high := m.quarters (4 * m.mantissa + 2)
  if m.mantissa % 2 = 0 then low.le r && r.le high else low.lt r && r.lt high

/-- The decimal with unit `10 ^ unit` next to `m` that reads back, if there is one. -/
def onGrid (m : Magnitude) (unit : Int) : Option Nat :=
  let v := m.value
  let floor :=
    if 0 ≤ unit then v.num / (v.den * Nat.pow 10 unit.toNat)
    else v.num * Nat.pow 10 (-unit).toNat / v.den
  let down := Ratio.scaled floor 10 unit
  let up := Ratio.scaled (floor + 1) 10 unit
  match m.readsBack down, m.readsBack up with
  | false, false => none
  | true, false => some floor
  | false, true => some (floor + 1)
  | true, true =>
      if (v.gap down).lt (v.gap up) then some floor
      else if (v.gap up).lt (v.gap down) then some (floor + 1)
      else some (if floor % 2 = 0 then floor else floor + 1)

/-- The digits of the shortest decimal, and the exponent of their last one. -/
def shortest (m : Magnitude) : Nat × Int :=
  if m.mantissa = 0 then (0, 0)
  else
    let top := leadingExponent m.value
    search top 17 0
where
  search (top : Int) : Nat → Nat → Nat × Int
    | 0, _ => (m.mantissa, 0)
    | fuel + 1, n =>
        match m.onGrid (top - n) with
        | some d => (d, top - n)
        | none => search top fuel (n + 1)

end Magnitude

def zeros (n : Nat) : List Char := List.replicate n '0'

def dropZeros (cs : List Char) : List Char := (cs.reverse.dropWhile (· == '0')).reverse

/-- Plain decimals from `10 ^ -5` up to `10 ^ 16`, with at least one digit behind the point; else
one digit before the point and a signed exponent. -/
def textOfBits (bits : UInt64) : String :=
  let (d, unit) := (Magnitude.ofBits bits).shortest
  let written := (toString d).toList
  let top : Int := unit + written.length - 1
  let digits := dropZeros written
  let sign := if isNegative bits then "-" else ""
  let body : List Char :=
    if d = 0 then ['0', '.', '0']
    else if -5 ≤ top ∧ top < 0 then
      '0' :: '.' :: zeros (-top - 1).toNat ++ digits
    else if 0 ≤ top ∧ top < 16 then
      let whole := top.toNat + 1
      if digits.length ≤ whole then digits ++ zeros (whole - digits.length) ++ ['.', '0']
      else digits.take whole ++ '.' :: digits.drop whole
    else
      let tail := digits.drop 1
      digits.take 1 ++ (if tail.isEmpty then [] else '.' :: tail) ++
        'e' :: (if top < 0 then '-' else '+') :: (toString top.natAbs).toList
  sign ++ String.ofList body

end BleBridge.Decimal
