import BleBridge.Json.Token
import BleBridge.Proofs.Text.Ascii
import Mathlib.Data.List.Basic
import Mathlib.Data.List.TakeWhile
import Mathlib.Data.Option.Basic

/-!
# Whole numbers are read as they are written

A whole number is written in decimal digits without leading zeros (`IsNumeral`), which
stand for the number as long as it fits into a word.  So every number that fits into
64 bits, signed or not, is read back exactly (`ofNumber?_text`).
-/

namespace BleBridge.Json

open Number (isDigit digitOf significand wordLimit leastInt mostInt)

namespace Number

variable {n d word : Nat} {bs : Bytes}

/-- The digits of a number: no leading zeros, and read as the number if it fits into a word. -/
structure IsNumeral (n : Nat) (bs : Bytes) : Prop where
  digits : ∀ b ∈ bs, isDigit b
  ne_nil : bs ≠ []
  plain : n ≠ 0 → bs.head? ≠ some 0x30
  value : n < wordLimit → significand 0 bs = (n, 0)

/-! ## Digits -/

/-- The byte of a digit. -/
def digit (d : Nat) : UInt8 := UInt8.ofNat (0x30 + d)

theorem toNat_digit (h : d < 10) : (digit d).toNat = 0x30 + d :=
  UInt8.toNat_ofNat_of_lt' (show 0x30 + d < 256 by omega)

theorem isDigit_digit (h : d < 10) : isDigit (digit d) := by
  simp only [isDigit, Bool.and_eq_true, decide_eq_true_eq, UInt8.le_iff_toNat_le, toNat_digit h,
    UInt8.reduceToNat]
  omega

theorem digitOf_digit (h : d < 10) : digitOf (digit d) = d := by
  rw [digitOf, toNat_digit h]
  exact Nat.add_sub_cancel_left 0x30 d

theorem digit_ne_zero (h : d < 10) (hd : d ≠ 0) : digit d ≠ 0x30 := by
  intro hzero
  have hcode : 0x30 + d = 0x30 := (toNat_digit h).symm.trans (congrArg UInt8.toNat hzero)
  omega

theorem toString_toList (n : Nat) : (toString n).toList = Nat.toDigits 10 n := Nat.toList_repr

theorem bytes_of_lt (h : d < 10) : Text.bytes (toString d) = [digit d] := by
  have hdigits : ∀ d : Fin 10, String.utf8EncodeChar (Nat.digitChar d) = [digit d] := by decide
  rw [Text.bytes, toString_toList, Nat.toDigits_of_lt_base h]
  exact (List.append_nil _).trans (hdigits ⟨d, h⟩)

theorem bytes_of_le (h : 10 ≤ n) :
    Text.bytes (toString n) = Text.bytes (toString (n / 10)) ++ [digit (n % 10)] := by
  have hlast : n % 10 < 10 := Nat.mod_lt n (by decide)
  rw [← bytes_of_lt hlast, ← Text.bytes_append]
  refine congrArg Text.bytes (String.toList_inj.mp ?_)
  rw [String.toList_append, toString_toList, toString_toList, toString_toList,
    Nat.toDigits_of_base_le (by decide) h, Nat.toDigits_of_lt_base hlast]

/-! ## Numerals -/

/-- One more digit behind those that fit. -/
theorem significand_concat {acc : Nat} {b : UInt8} (hword : significand acc bs = (word, 0))
    (hfits : word * 10 + digitOf b < wordLimit) :
    significand acc (bs ++ [b]) = (word * 10 + digitOf b, 0) := by
  induction bs generalizing acc with
  | nil =>
      cases hword
      exact if_pos hfits
  | cons c rest ih =>
      rw [significand] at hword
      split at hword
      · rename_i hnext
        rw [List.cons_append, significand, if_pos hnext]
        exact ih hword
      · cases hword

theorem isNumeral_digit (h : d < 10) : IsNumeral d [digit d] where
  digits := by simpa using isDigit_digit h
  ne_nil := List.cons_ne_nil _ _
  plain hd := by simpa using digit_ne_zero h hd
  value hfits := by
    have hvalue := digitOf_digit h
    have hword : significand 0 ([] ++ [digit d]) = (0 * 10 + digitOf (digit d), 0) :=
      significand_concat rfl (by omega)
    rw [hvalue] at hword
    simpa using hword

theorem IsNumeral.concat (h : IsNumeral n bs) (hn : n ≠ 0) (hd : d < 10) :
    IsNumeral (n * 10 + d) (bs ++ [digit d]) where
  digits b hb := by
    rcases List.mem_append.mp hb with hb | hb
    · exact h.digits b hb
    · exact List.mem_singleton.mp hb ▸ isDigit_digit hd
  ne_nil := List.append_ne_nil_of_left_ne_nil h.ne_nil _
  plain _ := by
    rw [List.head?_append_of_ne_nil _ h.ne_nil]
    exact h.plain hn
  value hfits := by
    have hvalue := digitOf_digit hd
    have hword := significand_concat (h.value (by omega)) (b := digit d) (by omega)
    rwa [hvalue] at hword

theorem isNumeral_bytes (n : Nat) : IsNumeral n (Text.bytes (toString n)) := by
  induction n using Nat.strongRecOn with
  | ind n ih =>
      by_cases h : n < 10
      · rw [bytes_of_lt h]
        exact isNumeral_digit h
      · have hfront := ih (n / 10) (by omega)
        have hn : n / 10 * 10 + n % 10 = n := by omega
        rw [bytes_of_le (by omega)]
        have hlonger := hfront.concat (by omega) (d := n % 10) (by omega)
        rwa [hn] at hlonger

/-! ## The grammar -/

section Whole

variable (ne_nil : bs ≠ []) (plain : bs.length = 1 ∨ bs.head? ≠ some 0x30)
  (digits : ∀ b ∈ bs, isDigit b)

include ne_nil plain

private theorem guard_of_plain :
    (!bs.isEmpty && (bs.length == 1 || bs.head? != some 0x30)) = true := by
  simpa [ne_nil] using plain

include digits

/-- Digits without leading zeros are a number. -/
theorem Written.parse_whole : parse bs = some ⟨false, bs, none, none⟩ := by
  have hsign : 0x2D ∉ bs := fun hmem ↦ absurd (digits _ hmem) (by decide)
  rw [parse]
  · change (guard (!(bs.takeWhile isDigit).isEmpty && ((bs.takeWhile isDigit).length == 1 ||
      (bs.takeWhile isDigit).head? != some 0x30)) >>= fun _ ↦ _ : Option Written) = _
    rw [List.takeWhile_eq_self_iff.mpr digits, List.dropWhile_eq_nil_iff.mpr digits,
      guard_of_plain ne_nil plain]
    rfl
  · rintro rest rfl
    exact hsign List.mem_cons_self

theorem Written.parse_negative : parse (0x2D :: bs) = some ⟨true, bs, none, none⟩ := by
  rw [parse]
  change (guard (!(bs.takeWhile isDigit).isEmpty && ((bs.takeWhile isDigit).length == 1 ||
    (bs.takeWhile isDigit).head? != some 0x30)) >>= fun _ ↦ _ : Option Written) = _
  rw [List.takeWhile_eq_self_iff.mpr digits, List.dropWhile_eq_nil_iff.mpr digits,
    guard_of_plain ne_nil plain]
  rfl

end Whole

/-! ## Numbers -/

theorem plain_bytes (n : Nat) :
    (Text.bytes (toString n)).length = 1 ∨ (Text.bytes (toString n)).head? ≠ some 0x30 := by
  by_cases hn : n = 0
  · rw [hn]
    exact .inl rfl
  · exact .inr ((isNumeral_bytes n).plain hn)

theorem bytes_negSucc (n : Nat) :
    Text.bytes (toString (Int.negSucc n)) = 0x2D :: Text.bytes (toString (n + 1)) := by
  change Text.bytes ("-" ++ toString (n + 1)) = _
  rw [Text.bytes_append]
  rfl

/-- A whole number starts with a digit or a sign, and only digits follow. -/
theorem exists_bytes_int (n : Int) : ∃ b rest, Text.bytes (toString n) = b :: rest ∧
    (isDigit b ∨ b = 0x2D) ∧ ∀ c ∈ rest, isDigit c := by
  cases n with
  | ofNat n =>
      have hnumeral := isNumeral_bytes n
      obtain ⟨b, rest, hbytes⟩ := List.exists_cons_of_ne_nil hnumeral.ne_nil
      have hdigits := hnumeral.digits
      rw [hbytes] at hdigits
      obtain ⟨hb, hrest⟩ := List.forall_mem_cons.mp hdigits
      exact ⟨b, rest, hbytes, .inl hb, hrest⟩
  | negSucc n => exact ⟨0x2D, _, bytes_negSucc n, .inr rfl, (isNumeral_bytes (n + 1)).digits⟩

/-- The text of a whole number that fits is the token of that number. -/
theorem ofNumber?_text {n : Int} (hleast : leastInt ≤ n) (hmost : n ≤ mostInt) :
    Token.ofNumber? (Text.bytes (toString n)) = some (.number (some (.int n))) := by
  cases n with
  | ofNat n =>
      have hnumeral := isNumeral_bytes n
      have hvalue : significand 0 (Text.bytes (toString n)) = (n, 0) :=
        hnumeral.value (Int.ofNat_lt.mp (Int.lt_of_le_of_lt hmost (by decide)))
      change Token.ofNumber? (Text.bytes (toString n)) = _
      rw [Token.ofNumber?, Written.parse_whole hnumeral.ne_nil (plain_bytes n) hnumeral.digits,
        Option.map_some, Written.toNumber?, Written.toInt?]
      simp only [hvalue]
      rfl
  | negSucc n =>
      have hnumeral := isNumeral_bytes (n + 1)
      have hvalue : significand 0 (Text.bytes (toString (n + 1))) = (n + 1, 0) :=
        hnumeral.value (by simp only [leastInt, wordLimit] at *; omega)
      have hword : 0 < n + 1 ∧ n + 1 ≤ 0x8000000000000000 := by
        simp only [leastInt] at hleast
        omega
      rw [bytes_negSucc, Token.ofNumber?,
        Written.parse_negative hnumeral.ne_nil (plain_bytes (n + 1)) hnumeral.digits,
        Option.map_some, Written.toNumber?, Written.toInt?]
      simp only [hvalue, if_pos hword]
      rfl

end Number

end BleBridge.Json
