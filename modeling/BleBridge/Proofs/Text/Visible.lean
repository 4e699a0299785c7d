import Mathlib.Data.List.Basic

/-!
# Visible characters

Texts without control characters of ASCII (`AllVisible`), so without line breaks.
The texts of numbers are such.
-/

namespace BleBridge

/-- Not a control character of ASCII. -/
def Visible (c : Char) : Prop := 0x20 ≤ c.toNat

instance : DecidablePred Visible := fun c ↦ inferInstanceAs (Decidable (0x20 ≤ c.toNat))

def AllVisible (cs : List Char) : Prop := ∀ c ∈ cs, Visible c

instance : DecidablePred AllVisible := fun cs ↦ List.decidableBAll Visible cs

@[simp] theorem allVisible_nil : AllVisible [] := nofun

@[simp] theorem allVisible_cons {c : Char} {cs : List Char} :
    AllVisible (c :: cs) ↔ Visible c ∧ AllVisible cs := List.forall_mem_cons

@[simp] theorem allVisible_append {cs ds : List Char} :
    AllVisible (cs ++ ds) ↔ AllVisible cs ∧ AllVisible ds := List.forall_mem_append

theorem AllVisible.of_subset {cs ds : List Char} (h : AllVisible cs) (hsub : ds ⊆ cs) :
    AllVisible ds :=
  fun c hc ↦ h c (hsub hc)

theorem visible_of_isDigit {c : Char} (h : c.isDigit) : Visible c := by
  have hlow : '0'.val ≤ c.val := by
    simp only [Char.isDigit, Bool.and_eq_true, decide_eq_true_eq] at h
    exact h.1
  have hnat : (0x30 : Nat) ≤ c.toNat := hlow
  rw [Visible]
  omega

/-- Numbers are written in digits. -/
theorem isDigit_of_mem_toString {c : Char} {n : Nat} (hc : c ∈ (toString n).toList) :
    c.isDigit := by
  have hrepr : toString n = n.repr := rfl
  rw [hrepr, Nat.toList_repr] at hc
  exact Nat.isDigit_of_mem_toDigits (by decide) (by decide) hc

theorem allVisible_nat (n : Nat) : AllVisible (toString n).toList :=
  fun _ hc ↦ visible_of_isDigit (isDigit_of_mem_toString hc)

theorem allVisible_int (n : Int) : AllVisible (toString n).toList := by
  cases n with
  | ofNat n => exact allVisible_nat n
  | negSucc n =>
      rw [show toString (Int.negSucc n) = "-" ++ toString (n + 1) from rfl, String.toList_append,
        allVisible_append]
      exact ⟨of_decide_eq_true rfl, allVisible_nat (n + 1)⟩

end BleBridge
