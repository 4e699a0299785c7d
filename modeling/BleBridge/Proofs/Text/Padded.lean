import BleBridge.Proofs.Text.Lines
import BleBridge.Proofs.Text.Pieces

/-!
# Blanks around a part

Trimming takes off the blanks around a part (`Padded.trimChars_eq`), and a mark without
blanks stands in what is left just if it stood in the whole (`Padded.infix_iff`).
-/

namespace BleBridge.Text

variable {cs ds part mark mid front back : List Char}

def AllBlank (cs : List Char) : Prop := ∀ c ∈ cs, isBlank c

instance : DecidablePred AllBlank := fun cs ↦ List.decidableBAll (isBlank ·) cs

/-- The part, with nothing but blanks in front of it and behind it. -/
def Padded (part cs : List Char) : Prop :=
  ∃ front back, AllBlank front ∧ AllBlank back ∧ cs = front ++ part ++ back

theorem padded_self (cs : List Char) : Padded cs cs :=
  ⟨[], [], fun _ hc ↦ absurd hc List.not_mem_nil, fun _ hc ↦ absurd hc List.not_mem_nil, by simp⟩

/-! ## Trimming -/

theorem trimChars_append_left (hfront : AllBlank front) (cs : List Char) :
    trimChars (front ++ cs) = trimChars cs := by
  rw [trimChars, trimLeft, List.dropWhile_append_of_pos hfront]
  rfl

theorem trimChars_append_right (cs : List Char) (hback : AllBlank back) :
    trimChars (cs ++ back) = trimChars cs := by
  induction back using List.reverseRecOn with
  | nil => rw [List.append_nil]
  | append_singleton back c ih =>
      obtain ⟨hback, hc⟩ := List.forall_mem_append.mp hback
      have hblank : isBlank c := hc c (List.mem_singleton_self c)
      rw [← List.append_assoc, trimChars_append_blank _ hblank, ih hback]

theorem Padded.trimChars_eq (h : Padded part cs) : trimChars cs = trimChars part := by
  obtain ⟨front, back, hfront, hback, rfl⟩ := h
  rw [trimChars_append_right _ hback, trimChars_append_left hfront]

/-- A text is trimmed if it starts with a trimmed one and ends with a trimmed one. -/
theorem trimChars_between (hcs : trimChars cs = cs) (hne : cs ≠ []) (hds : trimChars ds = ds)
    (hne' : ds ≠ []) (mid : List Char) : trimChars (cs ++ mid ++ ds) = cs ++ mid ++ ds := by
  rw [trimChars_eq_self_iff] at hcs hds ⊢
  obtain ⟨c, cs, rfl⟩ := List.exists_cons_of_ne_nil hne
  constructor
  · have hc : ¬ isBlank c := by simpa using hcs.1
    exact List.dropWhile_cons_of_neg hc
  · rw [List.rdropWhile_eq_self_iff] at hds ⊢
    intro hall
    rw [List.getLast_append_of_ne_nil hall hne']
    exact hds.2 hne'

/-! ## Marks -/

theorem AllBlank.notMem {c : Char} (h : AllBlank cs) (hc : ¬ isBlank c) : c ∉ cs :=
  fun hmem ↦ hc (h c hmem)

theorem Padded.notMem {c : Char} (h : Padded part cs) (hpart : c ∉ part) (hc : ¬ isBlank c) :
    c ∉ cs := by
  obtain ⟨front, back, hfront, hback, rfl⟩ := h
  simp only [List.mem_append, not_or]
  exact ⟨⟨hfront.notMem hc, hpart⟩, hback.notMem hc⟩

theorem Padded.infix_iff (h : Padded part cs) (hmark : ∀ c ∈ mark, ¬ isBlank c) (hne : mark ≠ []) :
    mark <:+: cs ↔ mark <:+: part := by
  obtain ⟨front, back, hfront, hback, rfl⟩ := h
  have hright : mark <:+: front ++ part ++ back ↔ mark <:+: front ++ part := by
    obtain ⟨init, last, rfl⟩ := (List.eq_nil_or_concat mark).resolve_left hne
    rw [List.concat_eq_append] at hmark ⊢
    exact infix_append_right_iff (hback.notMem (hmark last (List.mem_concat_self)))
  rw [hright]
  obtain ⟨c, rest, rfl⟩ := List.exists_cons_of_ne_nil hne
  exact infix_append_left_iff (hfront.notMem (hmark c List.mem_cons_self))

end BleBridge.Text
