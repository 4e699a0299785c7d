import BleBridge.Text.Bytes

/-! # Bytes as pairs of hexadecimal digits -/

namespace BleBridge.Text

def hexPair (b : UInt8) : List Char :=
  [Nat.digitChar (b.toNat / 16), Nat.digitChar (b.toNat % 16)]

/-- Two small digits for each byte. -/
def hexOfBytes (bs : Bytes) : String := String.ofList (bs.flatMap hexPair)

/-- The value of a digit of either case. -/
def hexValue? (c : Char) : Option Nat :=
  if '0' ≤ c ∧ c ≤ '9' then some (c.toNat - '0'.toNat)
  else if 'a' ≤ c ∧ c ≤ 'f' then some (c.toNat - 'a'.toNat + 10)
  else if 'A' ≤ c ∧ c ≤ 'F' then some (c.toNat - 'A'.toNat + 10)
  else none

/-- The bytes that an even number of digits stand for. -/
def bytesOfHex? : List Char → Option Bytes
  | [] => some []
  | a :: b :: rest => do
      let high ← hexValue? a
      let low ← hexValue? b
      return UInt8.ofNat (high * 16 + low) :: (← bytesOfHex? rest)
  | [_] => none

end BleBridge.Text
