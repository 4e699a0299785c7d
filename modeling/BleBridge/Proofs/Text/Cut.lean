import BleBridge.Text.Search
import Mathlib.Data.List.Basic
import Mathlib.Data.List.Infix

/-!
# Where a text is cut

`cut?` splits a list at the first occurrence of a mark.  The facts here say what
the first occurrence is when the list is known to be built around a mark: the
cut is stable under adding items at the end, and a mark that no proper part of
itself can overlap (`Unbordered`) is found exactly where it was put.

The suffix of a frame and the marker of a report are both marks of this kind.
-/

namespace BleBridge.Text

variable {α : Type} [BEq α] [LawfulBEq α]

/-! ## Marks at the ends -/

theorem isPrefixOf?_eq_some_iff {mark xs after : List α} :
    mark.isPrefixOf? xs = some after ↔ xs = mark ++ after := by
  induction mark generalizing xs with
  | nil => simp [eq_comm]
  | cons m mark ih =>
      cases xs with
      | nil => simp
      | cons x xs =>
          rw [isPrefixOf?_cons_cons, List.cons_append, List.cons.injEq]
          split
          · rename_i h
            rw [ih, eq_of_beq h]
            simp
          · rename_i h
            simp only [reduceCtorEq, false_iff, not_and]
            exact fun hx ↦ absurd (beq_of_eq hx.symm) h

theorem isPrefixOf?_eq_none_iff {mark xs : List α} :
    mark.isPrefixOf? xs = none ↔ ¬ mark <+: xs := by
  rw [← not_iff_not, not_not, ← ne_eq, Option.ne_none_iff_exists']
  constructor
  · rintro ⟨after, h⟩
    exact ⟨after, (isPrefixOf?_eq_some_iff.mp h).symm⟩
  · rintro ⟨after, h⟩
    exact ⟨after, isPrefixOf?_eq_some_iff.mpr h.symm⟩

/-- A mark at the end is taken off. -/
@[simp] theorem isSuffixOf?_append_mark (mark before : List α) :
    mark.isSuffixOf? (before ++ mark) = some before := by
  have hreverse : mark.reverse.isPrefixOf? (before ++ mark).reverse = some before.reverse :=
    isPrefixOf?_eq_some_iff.mpr List.reverse_append
  rw [List.isSuffixOf?, hreverse, Option.map_some, List.reverse_reverse]

theorem isSuffixOf?_eq_none_iff {mark xs : List α} :
    mark.isSuffixOf? xs = none ↔ ¬ mark <:+ xs := by
  rw [List.isSuffixOf?, Option.map_eq_none_iff, isPrefixOf?_eq_none_iff, List.reverse_prefix]

/-- A list that starts with the mark is cut at once. -/
@[simp] theorem cut?_mark_append (mark after : List α) :
    cut? mark (mark ++ after) = some ([], after) := by
  cases mark with
  | nil =>
      cases after with
      | nil => rfl
      | cons x after => simp [cut?]
  | cons m mark =>
      rw [List.cons_append, cut?, ← List.cons_append, isPrefixOf?_eq_some_iff.mpr rfl]

/-- An item at which the mark does not start is passed over. -/
theorem cut?_cons_of_not_lead {mark xs : List α} {x : α} (h : ¬ mark <+: x :: xs) :
    cut? mark (x :: xs) = (cut? mark xs).map fun p ↦ (x :: p.1, p.2) := by
  rw [cut?, isPrefixOf?_eq_none_iff.mpr h]

/-! ## What a cut says about the list -/

theorem eq_append_of_cut? {mark xs before after : List α}
    (h : cut? mark xs = some (before, after)) : xs = before ++ mark ++ after := by
  induction xs generalizing before after with
  | nil =>
      rw [cut?] at h
      split at h
      · rename_i hm
        obtain ⟨rfl, rfl⟩ := by simpa using h
        simp_all
      · cases h
  | cons x xs ih =>
      rw [cut?] at h
      split at h
      · rename_i hp
        obtain ⟨rfl, rfl⟩ := by simpa using h
        simpa using isPrefixOf?_eq_some_iff.mp hp
      · obtain ⟨p, hp, heq⟩ := Option.map_eq_some_iff.mp h
        obtain ⟨rfl, rfl⟩ := by simpa using heq
        simpa using ih hp

theorem cut?_eq_none_iff {mark xs : List α} : cut? mark xs = none ↔ ¬ mark <:+: xs := by
  induction xs with
  | nil => simp [cut?]
  | cons x xs ih =>
      by_cases hp : mark <+: x :: xs
      · obtain ⟨after, hafter⟩ := hp
        rw [← hafter, cut?_mark_append]
        simpa using (List.prefix_append mark after).isInfix
      · rw [cut?_cons_of_not_lead hp, Option.map_eq_none_iff, ih, List.infix_cons_iff]
        simp [hp]

/-- Items added at the end do not move the first occurrence. -/
theorem cut?_append {mark xs before after : List α}
    (h : cut? mark xs = some (before, after)) (ys : List α) :
    cut? mark (xs ++ ys) = some (before, after ++ ys) := by
  induction xs generalizing before after with
  | nil =>
      have heq := eq_append_of_cut? h
      obtain ⟨rfl, rfl, rfl⟩ := by simpa using heq
      exact cut?_mark_append [] ys
  | cons x xs ih =>
      by_cases hp : mark <+: x :: xs
      · obtain ⟨rest, hrest⟩ := hp
        rw [← hrest, cut?_mark_append] at h
        obtain ⟨rfl, rfl⟩ := by simpa using h
        rw [← hrest, List.append_assoc, cut?_mark_append]
      · rw [cut?_cons_of_not_lead hp] at h
        obtain ⟨p, hcut, heq⟩ := Option.map_eq_some_iff.mp h
        obtain ⟨rfl, rfl⟩ := by simpa using heq
        have hlen : mark.length ≤ (x :: xs).length := by
          have := cut?_length mark xs hcut
          simp only [List.length_cons]
          omega
        have hp' : ¬ mark <+: x :: (xs ++ ys) := fun hpre ↦
          hp (List.prefix_of_prefix_length_le hpre (List.prefix_append (x :: xs) ys) hlen)
        rw [List.cons_append, cut?_cons_of_not_lead hp', ih hcut]
        rfl

/-- A list that ends before the first occurrence does holds no occurrence. -/
theorem cut?_eq_none_of_append {mark before xs ys : List α}
    (h : cut? mark (xs ++ ys) = some (before, [])) (hys : ys ≠ []) : cut? mark xs = none := by
  cases hc : cut? mark xs with
  | none => rfl
  | some p =>
      have hcut : cut? mark (xs ++ ys) = some (p.1, p.2 ++ ys) := cut?_append hc ys
      rw [h] at hcut
      simp_all

/-- The mark does not stand in front of its first occurrence. -/
theorem not_infix_of_cut? {mark xs before after : List α} (hne : mark ≠ [])
    (h : cut? mark xs = some (before, after)) : ¬ mark <:+: before := by
  intro hpart
  cases hc : cut? mark before with
  | none => exact cut?_eq_none_iff.mp hc hpart
  | some p =>
      have hbefore := eq_append_of_cut? hc
      have hfirst := cut?_append hc (mark ++ after)
      rw [← List.append_assoc, ← eq_append_of_cut? h, h] at hfirst
      have hlength := congrArg (fun q ↦ q.map fun p ↦ p.1.length) hfirst
      rw [hbefore] at hlength
      simp [hne] at hlength

/-- A mark that the items at the front hold neither whole nor in part is found in the items behind
them. -/
theorem cut?_append_of_not_infix {mark front xs : List α}
    (h : ¬ mark <:+: front ++ xs.take (mark.length - 1)) :
    cut? mark (front ++ xs) = (cut? mark xs).map fun p ↦ (front ++ p.1, p.2) := by
  induction front with
  | nil => simp
  | cons x front ih =>
      have hlead : ¬ mark <+: x :: (front ++ xs) := by
        intro hlead
        refine h (List.prefix_of_prefix_length_le hlead ?_ ?_).isInfix
        · exact (List.prefix_append_right_inj (x :: front)).mpr (List.take_prefix _ xs)
        · -- an occurrence at `x` ends within the items that are looked at
          have := hlead.length_le
          simp only [List.length_append, List.length_cons, List.length_take] at this ⊢
          omega
      have hfront : ¬ mark <:+: front ++ xs.take (mark.length - 1) := fun hpart ↦
        h (hpart.trans (List.suffix_cons x _).isInfix)
      rw [List.cons_append, cut?_cons_of_not_lead hlead, ih hfront, Option.map_map]
      rfl

/-! ## Marks that cannot overlap themselves -/

/-- No proper part of the mark both starts and ends it. -/
def Unbordered (mark : List α) : Prop :=
  ∀ part : List α, part ≠ [] → part ≠ mark → part <+: mark → ¬ part <:+ mark

/-- A mark does not overlap itself if some item stands in it once, and its last item is none of those
up to there. -/
theorem unbordered_of_once {β : Type} {front back : List β} {x last : β} (hfront : x ∉ front)
    (hback : x ∉ back) (hlast : last ∉ front) (hne : last ≠ x) :
    Unbordered (front ++ x :: (back ++ [last])) := by
  rintro part hpart hproper hlead ⟨gone, hgone⟩
  rcases Nat.lt_or_ge front.length part.length with hlong | hshort
  · -- the part reaches the item that stands once, so it has its place from the front and the end
    obtain ⟨rest, rfl⟩ : front ++ [x] <+: part :=
      List.prefix_of_prefix_length_le (by simp) hlead
        (by rw [List.length_append, List.length_singleton]; omega)
    have hplaces : front ++ x :: (back ++ [last]) = (gone ++ front) ++ x :: rest := by
      rw [← hgone]
      simp
    have hend : x ∉ back ++ [last] := by simpa [hback] using hne.symm
    obtain ⟨hgone, -, rfl⟩ := (List.append_cons_inj_of_notMem hfront hend).mp hplaces
    exact hproper (by simp)
  · have hwithin : part <+: front :=
      List.prefix_of_prefix_length_le hlead (List.prefix_append front _) hshort
    obtain ⟨init, y, rfl⟩ := List.eq_nil_or_concat part |>.resolve_left hpart
    rw [List.concat_eq_append] at hgone hwithin
    have hy : y = last := by
      rw [← List.append_assoc, ← List.cons_append, ← List.append_assoc] at hgone
      exact List.append_inj_right' hgone rfl |> List.singleton_inj.mp
    exact hlast (hy ▸ hwithin.subset (by simp))

/-- An unbordered mark is found where it was put, behind items that do not hold it. -/
theorem cut?_append_mark {mark : List α} (hm : Unbordered mark) {before : List α}
    (hb : ¬ mark <:+: before) : cut? mark (before ++ mark) = some (before, []) := by
  induction before with
  | nil => simpa using cut?_mark_append mark []
  | cons x before ih =>
      have hp : ¬ mark <+: x :: (before ++ mark) := by
        intro hp
        rcases Nat.lt_or_ge (x :: before).length mark.length with hlt | hge
        · -- the occurrence would reach into the mark that was put there
          have hpre : x :: before <+: mark :=
            List.prefix_of_prefix_length_le (List.prefix_append (x :: before) mark) hp hlt.le
          obtain ⟨part, rfl⟩ := hpre
          obtain ⟨tail, htail⟩ := hp
          have hrest : part ++ tail = (x :: before) ++ part := by
            simpa using htail
          have hpart : part ≠ [] := by
            rintro rfl
            simp at hlt
          refine hm part hpart ?_ ?_ (List.suffix_append _ _)
          · intro heq
            have := congrArg List.length heq
            simp only [List.length_append, List.length_cons] at this
            omega
          · exact List.prefix_of_prefix_length_le ⟨tail, hrest⟩ (List.prefix_refl _)
              (by simp only [List.length_append]; omega)
        · exact hb (List.prefix_of_prefix_length_le hp
            (List.prefix_append (x :: before) mark) hge).isInfix
      rw [List.cons_append, cut?_cons_of_not_lead hp, ih fun h ↦ hb (h.trans
        (List.suffix_cons x before).isInfix)]
      rfl

end BleBridge.Text
