import BleBridge.Text.Bytes
import Mathlib.Data.List.Basic

/-!
# Bytes of a text are read as the text

The bytes of a character are read back one character at a time
(`headChar_utf8EncodeChar`), whatever follows them.  So the bytes of a text are read as
that text (`ofBytes?_bytes`): its characters are code points without surrogates, in
their shortest form.
-/

namespace BleBridge.Text

variable {b t low high : UInt8} {n code : Nat} {c : Char} {more rest : Bytes}

/-! ## Tails -/

/-- The tail byte of the last six bits of a number. -/
theorem toNat_tail (n : Nat) : (UInt8.ofNat (n % 64 + 128)).toNat = n % 64 + 128 :=
  UInt8.toNat_ofNat_of_lt' (show n % 64 + 128 < 256 by omega)

theorem isTail_tail (n : Nat) : isTail (UInt8.ofNat (n % 64 + 128)) = true := by
  have htail := toNat_tail n
  simp only [isTail, Bool.and_eq_true, decide_eq_true_eq, UInt8.le_iff_toNat_le, htail,
    UInt8.reduceToNat]
  omega

theorem readTails_tail (n code k : Nat) (rest : Bytes) :
    readTails (n + 1) code (UInt8.ofNat (k % 64 + 128) :: rest) =
      readTails n (code * 64 + k % 64) rest := by
  have hbits : (k % 64 + 128) % 64 = k % 64 := by omega
  rw [readTails, if_pos (isTail_tail k), toNat_tail, hbits]

/-! ## Lead bytes -/

theorem not_ascii_ofNat {v : Nat} (hlow : 0x80 ≤ v) (hhigh : v < 0x100) :
    ¬ UInt8.ofNat v < 0x80 := by
  rw [UInt8.lt_iff_toNat_lt, UInt8.toNat_ofNat_of_lt' hhigh]
  exact Nat.not_lt.mpr hlow

/-- Behind its lead byte a character goes on with the tails that the lead byte asks for. -/
theorem headChar_of_leadShape (hb : ¬ b < 0x80) (hshape : leadShape b = some (n, low, high))
    (hlow : low ≤ t) (hhigh : t ≤ high) (more : Bytes) :
    headChar b (t :: more) =
      ((readTails (n - 1) (leadBits n b * 64 + t.toNat % 64) more).1.map Char.ofNat,
        (readTails (n - 1) (leadBits n b * 64 + t.toNat % 64) more).2) := by
  have hrange : (decide (low ≤ t) && decide (t ≤ high)) = true := by simp [hlow, hhigh]
  rw [headChar, if_neg hb, hshape]
  dsimp only
  rw [if_pos hrange]

/-- A lead byte of one tail. -/
theorem leadShape_one {v : Nat} (hlow : 0x80 ≤ v) (hhigh : v ≤ 0x7FF) :
    leadShape (UInt8.ofNat (v / 64 % 32 + 192)) = some (1, 0x80, 0xBF) := by
  have hlead : (UInt8.ofNat (v / 64 % 32 + 192)).toNat = v / 64 % 32 + 192 :=
    UInt8.toNat_ofNat_of_lt' (show v / 64 % 32 + 192 < 256 by omega)
  rw [leadShape, if_pos]
  simp only [Bool.and_eq_true, decide_eq_true_eq, UInt8.le_iff_toNat_le, hlead, UInt8.reduceToNat]
  omega

/-- A lead byte of two tails, with the range of the first: it leaves out what is shorter otherwise,
and the surrogates. -/
theorem leadShape_two {v : Nat} (hlow : 0x800 ≤ v) (hhigh : v ≤ 0xFFFF)
    (hplain : v < 0xD800 ∨ 0xDFFF < v) :
    ∃ low high, leadShape (UInt8.ofNat (v / 4096 % 16 + 224)) = some (2, low, high) ∧
      low ≤ UInt8.ofNat (v / 64 % 64 + 128) ∧ UInt8.ofNat (v / 64 % 64 + 128) ≤ high := by
  have hlead : (UInt8.ofNat (v / 4096 % 16 + 224)).toNat = v / 4096 % 16 + 224 :=
    UInt8.toNat_ofNat_of_lt' (show v / 4096 % 16 + 224 < 256 by omega)
  have htail := toNat_tail (v / 64)
  simp only [leadShape, Bool.and_eq_true, decide_eq_true_eq, beq_iff_eq, UInt8.le_iff_toNat_le,
    ← UInt8.toNat_inj, hlead, htail, UInt8.reduceToNat]
  split
  · omega
  · split
    · exact ⟨_, _, rfl, by simp only [UInt8.reduceToNat]; omega⟩
    · split
      · exact ⟨_, _, rfl, by simp only [UInt8.reduceToNat]; omega⟩
      · rw [if_pos (by omega)]
        exact ⟨_, _, rfl, by simp only [UInt8.reduceToNat]; omega⟩

/-- A lead byte of three tails, with the range of the first: it leaves out what is shorter
otherwise, and what is beyond the last code point. -/
theorem leadShape_three {v : Nat} (hlow : 0x10000 ≤ v) (hhigh : v ≤ 0x10FFFF) :
    ∃ low high, leadShape (UInt8.ofNat (v / 262144 % 8 + 240)) = some (3, low, high) ∧
      low ≤ UInt8.ofNat (v / 4096 % 64 + 128) ∧ UInt8.ofNat (v / 4096 % 64 + 128) ≤ high := by
  have hlead : (UInt8.ofNat (v / 262144 % 8 + 240)).toNat = v / 262144 % 8 + 240 :=
    UInt8.toNat_ofNat_of_lt' (show v / 262144 % 8 + 240 < 256 by omega)
  have htail := toNat_tail (v / 4096)
  simp only [leadShape, Bool.and_eq_true, decide_eq_true_eq, beq_iff_eq, UInt8.le_iff_toNat_le,
    ← UInt8.toNat_inj, hlead, htail, UInt8.reduceToNat]
  rw [if_neg (by omega), if_neg (by omega), if_neg (by omega), if_neg (by omega)]
  split
  · exact ⟨_, _, rfl, by simp only [UInt8.reduceToNat]; omega⟩
  · split
    · exact ⟨_, _, rfl, by simp only [UInt8.reduceToNat]; omega⟩
    · rw [if_pos (by omega)]
      exact ⟨_, _, rfl, by simp only [UInt8.reduceToNat]; omega⟩

/-! ## Code points -/

theorem headChar_ascii {v : Nat} (hv : v ≤ 0x7F) (rest : Bytes) :
    headChar (UInt8.ofNat v) rest = (some (Char.ofNat v), rest) := by
  have hb : (UInt8.ofNat v).toNat = v := UInt8.toNat_ofNat_of_lt' (show v < 256 by omega)
  have hascii : UInt8.ofNat v < 0x80 := by
    rw [UInt8.lt_iff_toNat_lt, hb]
    exact Nat.lt_succ_of_le hv
  rw [headChar, if_pos hascii, hb]

theorem headChar_two_bytes {v : Nat} (hlow : 0x80 ≤ v) (hhigh : v ≤ 0x7FF) (rest : Bytes) :
    headChar (UInt8.ofNat (v / 64 % 32 + 192)) (UInt8.ofNat (v % 64 + 128) :: rest) =
      (some (Char.ofNat v), rest) := by
  have hlead : (UInt8.ofNat (v / 64 % 32 + 192)).toNat = v / 64 % 32 + 192 :=
    UInt8.toNat_ofNat_of_lt' (show v / 64 % 32 + 192 < 256 by omega)
  have hb : ¬ UInt8.ofNat (v / 64 % 32 + 192) < 0x80 := not_ascii_ofNat (by omega) (by omega)
  obtain ⟨htlow, hthigh⟩ :
      0x80 ≤ UInt8.ofNat (v % 64 + 128) ∧ UInt8.ofNat (v % 64 + 128) ≤ 0xBF := by
    simpa [isTail] using isTail_tail v
  have hbits : leadBits 1 (UInt8.ofNat (v / 64 % 32 + 192)) = (v / 64 % 32 + 192) % 32 := by
    rw [leadBits, hlead]
  have hcode : (v / 64 % 32 + 192) % 32 * 64 + (v % 64 + 128) % 64 = v := by omega
  rw [headChar_of_leadShape hb (leadShape_one hlow hhigh) htlow hthigh, toNat_tail, hbits, hcode]
  rfl

theorem headChar_three_bytes {v : Nat} (hlow : 0x800 ≤ v) (hhigh : v ≤ 0xFFFF)
    (hplain : v < 0xD800 ∨ 0xDFFF < v) (rest : Bytes) :
    headChar (UInt8.ofNat (v / 4096 % 16 + 224))
        (UInt8.ofNat (v / 64 % 64 + 128) :: UInt8.ofNat (v % 64 + 128) :: rest) =
      (some (Char.ofNat v), rest) := by
  have hlead : (UInt8.ofNat (v / 4096 % 16 + 224)).toNat = v / 4096 % 16 + 224 :=
    UInt8.toNat_ofNat_of_lt' (show v / 4096 % 16 + 224 < 256 by omega)
  have hb : ¬ UInt8.ofNat (v / 4096 % 16 + 224) < 0x80 := not_ascii_ofNat (by omega) (by omega)
  obtain ⟨low, high, hshape, htlow, hthigh⟩ := leadShape_two hlow hhigh hplain
  have hbits : leadBits 2 (UInt8.ofNat (v / 4096 % 16 + 224)) = (v / 4096 % 16 + 224) % 16 := by
    rw [leadBits, hlead]
  have hcode : ((v / 4096 % 16 + 224) % 16 * 64 + (v / 64 % 64 + 128) % 64) * 64 + v % 64 = v := by
    omega
  rw [headChar_of_leadShape hb hshape htlow hthigh, toNat_tail, hbits, readTails_tail, hcode]
  rfl

theorem headChar_four_bytes {v : Nat} (hlow : 0x10000 ≤ v) (hhigh : v ≤ 0x10FFFF) (rest : Bytes) :
    headChar (UInt8.ofNat (v / 262144 % 8 + 240))
        (UInt8.ofNat (v / 4096 % 64 + 128) :: UInt8.ofNat (v / 64 % 64 + 128) ::
          UInt8.ofNat (v % 64 + 128) :: rest) =
      (some (Char.ofNat v), rest) := by
  have hlead : (UInt8.ofNat (v / 262144 % 8 + 240)).toNat = v / 262144 % 8 + 240 :=
    UInt8.toNat_ofNat_of_lt' (show v / 262144 % 8 + 240 < 256 by omega)
  have hb : ¬ UInt8.ofNat (v / 262144 % 8 + 240) < 0x80 := not_ascii_ofNat (by omega) (by omega)
  obtain ⟨low, high, hshape, htlow, hthigh⟩ := leadShape_three hlow hhigh
  have hbits : leadBits 3 (UInt8.ofNat (v / 262144 % 8 + 240)) = (v / 262144 % 8 + 240) % 8 := by
    rw [leadBits, hlead]
  have hcode : (((v / 262144 % 8 + 240) % 8 * 64 + (v / 4096 % 64 + 128) % 64) * 64 +
      v / 64 % 64) * 64 + v % 64 = v := by
    omega
  rw [headChar_of_leadShape hb hshape htlow hthigh, toNat_tail, hbits, readTails_tail,
    readTails_tail, hcode]
  rfl

/-! ## Texts -/

theorem headChar_utf8EncodeChar (c : Char) (rest : Bytes) :
    ∃ b tail, String.utf8EncodeChar c = b :: tail ∧ headChar b (tail ++ rest) = (some c, rest) := by
  have hvalid : c.val.toNat < 0xD800 ∨ 0xDFFF < c.val.toNat ∧ c.val.toNat < 0x110000 := c.valid
  have hchar : some c = some (Char.ofNat c.val.toNat) := congrArg some c.ofNat_toNat.symm
  rw [String.utf8EncodeChar, hchar]
  split
  · exact ⟨_, _, rfl, headChar_ascii (by assumption) rest⟩
  · split
    · exact ⟨_, _, rfl, headChar_two_bytes (by omega) (by assumption) rest⟩
    · split
      · exact ⟨_, _, rfl, headChar_three_bytes (by omega) (by assumption) (by omega) rest⟩
      · exact ⟨_, _, rfl, headChar_four_bytes (by omega) (by omega) rest⟩

theorem decodeOnto_flatMap (read cs : List Char) :
    decodeOnto read (cs.flatMap String.utf8EncodeChar) = some (read.reverse ++ cs) := by
  induction cs generalizing read with
  | nil => simp [decodeOnto]
  | cons c cs ih =>
      obtain ⟨b, tail, hbytes, hhead⟩ :=
        headChar_utf8EncodeChar c (cs.flatMap String.utf8EncodeChar)
      rw [List.flatMap_cons, hbytes, List.cons_append, decodeOnto]
      split
      · rename_i hnone
        rw [hhead] at hnone
        cases hnone
      · rename_i hsome
        rw [hhead] at hsome
        cases hsome
        rw [ih, List.reverse_cons, List.append_assoc]
        rfl

theorem ofBytes?_bytes (s : String) : ofBytes? (bytes s) = some s := by
  rw [ofBytes?, decode?, bytes, decodeOnto_flatMap, Option.map_some]
  exact congrArg some (String.ofList_toList)

end BleBridge.Text
