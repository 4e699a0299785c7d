import BleBridge.Text.Bytes
import Mathlib.Data.List.Basic

/-!
# ASCII bytes of a text

A byte below `0x80` stands in the UTF-8 of a character only if it is that
character (`toNat_eq_of_mem_utf8EncodeChar`).  So the bytes of a text hold a
control character, a sign or a digit only where the text does.
-/

namespace BleBridge.Text

variable {c : Char} {b : UInt8} {s : String} {n : Nat}

theorem bytes_append (s t : String) : bytes (s ++ t) = bytes s ++ bytes t := by
  simp [bytes]

/-- Behind ASCII every byte of a character has its highest bit set. -/
theorem toNat_eq_of_mem_utf8EncodeChar (hb : b ∈ String.utf8EncodeChar c)
    (hascii : b.toNat < 0x80) : c.toNat = b.toNat := by
  have hbyte : ∀ {m : Nat}, 0x80 ≤ m % 256 → ¬ (UInt8.ofNat m).toNat < 0x80 := fun hm ↦ by
    rw [UInt8.toNat_ofNat']
    omega
  rw [String.utf8EncodeChar] at hb
  split at hb
  · rename_i hsmall
    obtain rfl := List.mem_singleton.mp hb
    exact (Nat.mod_eq_of_lt (Nat.lt_of_le_of_lt hsmall (by decide))).symm
  · split at hb
    · simp only [List.mem_cons, List.not_mem_nil, or_false] at hb
      rcases hb with rfl | rfl <;> exact absurd hascii (hbyte (by omega))
    · split at hb
      · simp only [List.mem_cons, List.not_mem_nil, or_false] at hb
        rcases hb with rfl | rfl | rfl <;> exact absurd hascii (hbyte (by omega))
      · simp only [List.mem_cons, List.not_mem_nil, or_false] at hb
        rcases hb with rfl | rfl | rfl | rfl <;> exact absurd hascii (hbyte (by omega))

/-- A bound that all bytes behind ASCII meet passes from a character to its bytes. -/
theorem le_of_mem_utf8EncodeChar (hn : n ≤ 0x80) (hc : n ≤ c.toNat)
    (hb : b ∈ String.utf8EncodeChar c) : n ≤ b.toNat := by
  rcases Nat.lt_or_ge b.toNat 0x80 with hascii | hhigh
  · rwa [← toNat_eq_of_mem_utf8EncodeChar hb hascii]
  · exact Nat.le_trans hn hhigh

theorem notMem_bytes (hascii : b.toNat < 0x80) (h : ∀ c ∈ s.toList, c.toNat ≠ b.toNat) :
    b ∉ bytes s := by
  intro hb
  obtain ⟨c, hc, hb⟩ := List.mem_flatMap.mp hb
  exact h c hc (toNat_eq_of_mem_utf8EncodeChar hb hascii)

end BleBridge.Text
