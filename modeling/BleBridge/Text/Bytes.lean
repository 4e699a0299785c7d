/-! # Bytes and UTF-8 text -/

namespace BleBridge

abbrev Bytes := List UInt8

namespace Text

/-- The UTF-8 bytes of a text. -/
def bytes (s : String) : Bytes := s.toList.flatMap String.utf8EncodeChar

@[simp] theorem bytes_empty : bytes "" = [] := rfl

def isTail (b : UInt8) : Bool := 0x80 ≤ b && b ≤ 0xBF

/-- How many tail bytes follow a lead byte, with the range allowed for the first of them. -/
def leadShape (b : UInt8) : Option (Nat × UInt8 × UInt8) :=
  if 0xC2 ≤ b && b ≤ 0xDF then some (1, 0x80, 0xBF)
  else if b == 0xE0 then some (2, 0xA0, 0xBF)
  else if b == 0xED then some (2, 0x80, 0x9F)
  else if 0xE1 ≤ b && b ≤ 0xEF then some (2, 0x80, 0xBF)
  else if b == 0xF0 then some (3, 0x90, 0xBF)
  else if b == 0xF4 then some (3, 0x80, 0x8F)
  else if 0xF1 ≤ b && b ≤ 0xF3 then some (3, 0x80, 0xBF)
  else none

/-- Read up to `n` tail bytes into the code point; `none` where one is missing. -/
def readTails : Nat → Nat → Bytes → Option Nat × Bytes
  | 0, code, rest => (some code, rest)
  | _ + 1, _, [] => (none, [])
  | n + 1, code, b :: rest =>
      if isTail b then readTails n (code * 64 + b.toNat % 64) rest else (none, b :: rest)

/-- The bits of the code point that a lead byte with `n` tails holds. -/
def leadBits (n : Nat) (b : UInt8) : Nat := b.toNat % Nat.pow 2 (6 - n)

/-- The first character of `b :: rest` and what follows it. `none` stands for a longest
ill-formed beginning, which is skipped whole. -/
def headChar (b : UInt8) (rest : Bytes) : Option Char × Bytes :=
  if b < 0x80 then (some (Char.ofNat b.toNat), rest)
  else match leadShape b with
    | none => (none, rest)
    | some (n, low, high) =>
        match rest with
        | [] => (none, [])
        | t :: more =>
            if low ≤ t && t ≤ high then
              let read := readTails (n - 1) (leadBits n b * 64 + t.toNat % 64) more
              (read.1.map Char.ofNat, read.2)
            else (none, t :: more)

theorem readTails_length (n code : Nat) (rest : Bytes) :
    (readTails n code rest).2.length ≤ rest.length := by
  induction n generalizing code rest with
  | zero => simp [readTails]
  | succ n ih =>
      cases rest with
      | nil => simp [readTails]
      | cons b rest =>
          simp only [readTails]
          split
          · exact Nat.le_succ_of_le (ih _ _)
          · exact Nat.le_refl _

theorem headChar_length (b : UInt8) (rest : Bytes) :
    (headChar b rest).2.length ≤ rest.length := by
  unfold headChar
  split
  · exact Nat.le_refl _
  · cases leadShape b with
    | none => exact Nat.le_refl _
    | some shape =>
        cases rest with
        | nil => exact Nat.le_refl _
        | cons t more =>
            dsimp only
            split
            · exact Nat.le_succ_of_le (readTails_length _ _ _)
            · exact Nat.le_refl _

/-- The text that the bytes spell, or `none` when they are no UTF-8. What has been read lies in
reverse. -/
def decodeOnto (read : List Char) : Bytes → Option (List Char)
  | [] => some read.reverse
  | b :: rest =>
      match h : headChar b rest with
      | (none, _) => none
      | (some c, left) =>
          have : left.length ≤ rest.length := by
            have := headChar_length b rest; rw [h] at this; exact this
          decodeOnto (c :: read) left
termination_by bs => bs.length

/-- The text that the bytes spell, with U+FFFD for each ill-formed stretch. -/
def decodeLossyOnto (read : List Char) : Bytes → List Char
  | [] => read.reverse
  | b :: rest =>
      match h : headChar b rest with
      | (c, left) =>
          have : left.length ≤ rest.length := by
            have := headChar_length b rest; rw [h] at this; exact this
          decodeLossyOnto (c.getD '\uFFFD' :: read) left
termination_by bs => bs.length

def decode? (bs : Bytes) : Option (List Char) := decodeOnto [] bs

def decodeLossy (bs : Bytes) : List Char := decodeLossyOnto [] bs

def ofBytes? (bs : Bytes) : Option String := (decode? bs).map String.ofList

def ofBytesLossy (bs : Bytes) : String := String.ofList (decodeLossy bs)

/-- The length of a text in bytes. -/
def size (s : String) : Nat := (bytes s).length

end Text

end BleBridge
