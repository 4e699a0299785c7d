import BleBridge.Json.Value
import BleBridge.Proofs.Text.Ascii
import BleBridge.Proofs.Text.Visible
import Mathlib.Data.List.Basic

/-!
# Compact text has no control characters

Outside strings the text of a value consists of digits and punctuation, and
inside strings control characters are escaped.  So no byte of a compact text is
below the space, and in particular a text holds no line break that could end its
frame early.
-/

namespace BleBridge

theorem visible_hexDigit {n : Nat} (h : n < 16) : Visible (Json.hexDigit n) := by
  have hdigits : ∀ k : Fin 16, Visible (Json.hexDigit k) := by decide
  exact hdigits ⟨n, h⟩

/-! ## Numbers -/

namespace Decimal

theorem allVisible_zeros (n : Nat) : AllVisible (zeros n) := by
  intro c hc
  obtain rfl := List.eq_of_mem_replicate hc
  decide

theorem dropZeros_subset (cs : List Char) : dropZeros cs ⊆ cs := by
  intro c hc
  rw [dropZeros, List.mem_reverse] at hc
  exact List.mem_reverse.mp ((List.dropWhile_suffix _).mem hc)

/-- The text of a double is made of digits, points, signs and the exponent's letter. -/
theorem allVisible_textOfBits (bits : UInt64) : AllVisible (textOfBits bits).toList := by
  have hdigits : AllVisible (dropZeros (toString (Magnitude.ofBits bits).shortest.1).toList) :=
    (allVisible_nat _).of_subset (dropZeros_subset _)
  have hmarks : Visible '0' ∧ Visible '.' ∧ Visible '-' ∧ Visible '+' ∧ Visible 'e' := by decide
  simp only [textOfBits, String.toList_append, String.toList_ofList, allVisible_append]
  generalize dropZeros (toString (Magnitude.ofBits bits).shortest.1).toList = digits at hdigits ⊢
  have htake : ∀ n, AllVisible (digits.take n) := fun n ↦
    hdigits.of_subset (List.take_subset n digits)
  have hdrop : ∀ n, AllVisible (digits.drop n) := fun n ↦
    hdigits.of_subset (List.drop_subset n digits)
  constructor
  · split <;> simp [hmarks]
  · split
    · simp [hmarks]
    · split
      · simp [hmarks, hdigits, allVisible_zeros]
      · split
        · split
          · simp [hmarks, hdigits, allVisible_zeros]
          · simp [hmarks, htake, hdrop]
        · have htail : AllVisible (if (digits.drop 1).isEmpty = true then []
              else '.' :: digits.drop 1) := by
            split
            · simp
            · exact allVisible_cons.mpr ⟨hmarks.2.1, hdrop 1⟩
          refine allVisible_append.mpr ⟨allVisible_append.mpr ⟨htake 1, htail⟩, ?_⟩
          refine allVisible_cons.mpr ⟨by decide, allVisible_cons.mpr ⟨?_, allVisible_nat _⟩⟩
          split <;> decide

end Decimal

namespace Decimal

theorem textOfBits_ne_nil (bits : UInt64) : (textOfBits bits).toList ≠ [] := by
  simp only [textOfBits, String.toList_append, String.toList_ofList, ne_eq,
    List.append_eq_nil_iff, not_and]
  intro _
  repeat' first
    | simp
    | split

end Decimal

theorem toString_nat_ne_nil (n : Nat) : (toString n).toList ≠ [] := by
  rw [show toString n = n.repr from rfl, Nat.toList_repr]
  exact Nat.toDigits_ne_nil

theorem toString_int_ne_nil (n : Int) : (toString n).toList ≠ [] := by
  cases n with
  | ofNat n => exact toString_nat_ne_nil n
  | negSucc n =>
      rw [show toString (Int.negSucc n) = "-" ++ toString (n + 1) from rfl, String.toList_append]
      simp

/-! ## Values -/

namespace Json

theorem Number.allVisible_text (n : Number) : AllVisible n.text.toList := by
  cases n with
  | int n => exact allVisible_int n
  | double bits => exact Decimal.allVisible_textOfBits bits

theorem Number.text_ne_nil (n : Number) : n.text.toList ≠ [] := by
  cases n with
  | int n => exact toString_int_ne_nil n
  | double bits => exact Decimal.textOfBits_ne_nil bits

/-- What is not a mark with an escape of its own is written by its code or is visible. -/
theorem allVisible_escape (c : Char) : AllVisible (escape c) := by
  unfold escape
  repeat' first
    | decide
    | split
  · rename_i hcontrol
    have hhigh : Visible (hexDigit (c.toNat / 16)) := visible_hexDigit (by omega)
    have hlow : Visible (hexDigit (c.toNat % 16)) := visible_hexDigit (by omega)
    simp only [allVisible_cons, allVisible_nil, hhigh, hlow, and_true]
    decide
  · rename_i hcontrol
    exact allVisible_cons.mpr ⟨Nat.le_of_not_lt hcontrol, allVisible_nil⟩

theorem allVisible_stringChars (s : String) : AllVisible (stringChars s) := by
  have hbody : AllVisible (s.toList.flatMap escape) := by
    intro c hc
    obtain ⟨d, _, hd⟩ := List.mem_flatMap.mp hc
    exact allVisible_escape d c hd
  simp only [stringChars, allVisible_append, allVisible_cons, hbody, and_true, allVisible_nil]
  decide

mutual

/-- The induction is on the value, together with the items and the members inside. -/
theorem allVisible_chars : ∀ v : Json, AllVisible v.chars
  | .null => by
      rw [chars]
      decide
  | .bool true => by
      rw [chars]
      decide
  | .bool false => by
      rw [chars]
      decide
  | .number n => by
      rw [chars]
      exact n.allVisible_text
  | .string s => by
      rw [chars]
      exact allVisible_stringChars s
  | .array items => by
      rw [chars, allVisible_cons]
      exact ⟨by decide, allVisible_itemChars items⟩
  | .object members => by
      rw [chars, allVisible_cons]
      exact ⟨by decide, allVisible_memberChars members⟩

theorem allVisible_itemChars : ∀ items : List Json, AllVisible (itemChars items)
  | [] => by
      rw [itemChars]
      decide
  | [v] => by
      rw [itemChars, allVisible_append]
      exact ⟨allVisible_chars v, by decide⟩
  | v :: w :: rest => by
      simp only [itemChars, allVisible_append, allVisible_cons]
      exact ⟨allVisible_chars v, by decide, allVisible_itemChars (w :: rest)⟩

theorem allVisible_memberChars : ∀ members : List (String × Json), AllVisible (memberChars members)
  | [] => by
      rw [memberChars]
      decide
  | [(k, v)] => by
      simp only [memberChars, allVisible_append, allVisible_cons]
      exact ⟨⟨allVisible_stringChars k, by decide, allVisible_chars v⟩, by decide⟩
  | (k, v) :: m :: rest => by
      simp only [memberChars, allVisible_append, allVisible_cons]
      exact ⟨⟨allVisible_stringChars k, by decide, allVisible_chars v⟩, by decide,
        allVisible_memberChars (m :: rest)⟩

end

theorem chars_ne_nil (v : Json) : v.chars ≠ [] := by
  cases v with
  | bool b => cases b <;> simp [chars]
  | number n =>
      rw [chars]
      exact n.text_ne_nil
  | _ => simp [chars, stringChars]

/-! ## Bytes -/

theorem le_of_mem_bytes {v : Json} {b : UInt8} (hb : b ∈ v.bytes) : 0x20 ≤ b.toNat := by
  obtain ⟨c, hc, hb⟩ := List.mem_flatMap.mp hb
  exact Text.le_of_mem_utf8EncodeChar (by decide) (allVisible_chars v c hc) hb

theorem bytes_ne_nil (v : Json) : v.bytes ≠ [] := by
  obtain ⟨c, cs, hcs⟩ := List.exists_cons_of_ne_nil v.chars_ne_nil
  rw [bytes, hcs, List.flatMap_cons]
  exact fun h ↦ String.utf8EncodeChar_ne_nil (List.append_eq_nil_iff.mp h).1

/-- A compact text holds no line break. -/
theorem not_infix_bytes (v : Json) : ¬ [0x0D, 0x0A] <:+: v.bytes := by
  intro hpart
  have hmem : (0x0D : UInt8) ∈ v.bytes := hpart.subset List.mem_cons_self
  exact absurd (le_of_mem_bytes hmem) (by decide)

end Json

end BleBridge
