import BleBridge.Proofs.Text.Cut

/-!
# Pieces that a mark ends

A reader that cuts a stream at a mark has the pieces in front of the marks so far
(`ended`), and what stands behind the last of them is the beginning of the next
piece (`unended`).  What it has after more of the stream depends on that beginning
only (`ended_append`).

Lines with a mark behind each of them are got back just if none of them holds the
mark (`ended_lines_iff`), that is, if the mark stands only at the end of what was
written for each (`endsOnce_append_iff`).  So are pieces with a mark between each two
of them (`splitAt_intercalate`).
-/

namespace BleBridge.Text

variable {α : Type} [BEq α] {mark xs ys before after line front back : List α}
  {lines : List (List α)} {m : α}

/-- The pieces in front of the marks. -/
def ended (mark xs : List α) : List (List α) := (splitAt mark xs).dropLast

/-- What stands behind the last mark. -/
def unended (mark xs : List α) : List α := (splitAt mark xs).getLastD []

/-! ## Piece by piece -/

theorem splitAt_of_none (hmark : mark ≠ []) (h : cut? mark xs = none) : splitAt mark xs = [xs] := by
  rw [splitAt, dif_neg hmark]
  split
  · rfl
  · rename_i hsome
    rw [h] at hsome
    cases hsome

theorem splitAt_of_some (hmark : mark ≠ []) (h : cut? mark xs = some (before, after)) :
    splitAt mark xs = before :: splitAt mark after := by
  rw [splitAt, dif_neg hmark]
  split
  · rename_i hnone
    rw [h] at hnone
    cases hnone
  · rename_i hsome
    rw [h] at hsome
    cases hsome
    rfl

theorem splitAt_ne_nil (hmark : mark ≠ []) (xs : List α) : splitAt mark xs ≠ [] := by
  cases hcut : cut? mark xs with
  | none =>
      rw [splitAt_of_none hmark hcut]
      exact List.cons_ne_nil _ _
  | some cut =>
      rw [splitAt_of_some hmark hcut]
      exact List.cons_ne_nil _ _

theorem ended_of_none (hmark : mark ≠ []) (h : cut? mark xs = none) :
    ended mark xs = [] ∧ unended mark xs = xs := by
  rw [ended, unended, splitAt_of_none hmark h]
  exact ⟨rfl, rfl⟩

theorem ended_of_some (hmark : mark ≠ []) (h : cut? mark xs = some (before, after)) :
    ended mark xs = before :: ended mark after ∧ unended mark xs = unended mark after := by
  obtain ⟨piece, pieces, hpieces⟩ := List.exists_cons_of_ne_nil (splitAt_ne_nil hmark after)
  rw [ended, unended, splitAt_of_some hmark h, ended, unended, hpieces]
  exact ⟨rfl, rfl⟩

theorem ended_nil (hmark : mark ≠ []) : ended mark [] = [] ∧ unended mark [] = [] := by
  apply ended_of_none hmark
  rw [cut?, if_neg (by simpa using hmark)]

section Lawful

variable [LawfulBEq α]

/-! ## More of a stream -/

/-- More items end pieces only with what stands behind the last mark. -/
theorem ended_append (hmark : mark ≠ []) (xs ys : List α) :
    ended mark (xs ++ ys) = ended mark xs ++ ended mark (unended mark xs ++ ys) ∧
      unended mark (xs ++ ys) = unended mark (unended mark xs ++ ys) := by
  induction xs using splitAt.induct mark with
  | case1 xs hnil => exact absurd hnil hmark
  | case2 xs _ hcut =>
      obtain ⟨hended, hunended⟩ := ended_of_none hmark hcut
      rw [hended, hunended]
      exact ⟨rfl, rfl⟩
  | case3 xs _ before after hcut _ ih =>
      obtain ⟨hended, hunended⟩ := ended_of_some hmark hcut
      obtain ⟨hended', hunended'⟩ := ended_of_some hmark (cut?_append hcut ys)
      rw [hended, hunended, hended', hunended', ih.1, ih.2]
      exact ⟨rfl, rfl⟩

theorem not_infix_of_mem_splitAt (hmark : mark ≠ []) (h : line ∈ splitAt mark xs) :
    ¬ mark <:+: line := by
  induction xs using splitAt.induct mark with
  | case1 xs hnil => exact absurd hnil hmark
  | case2 xs _ hcut =>
      rw [splitAt_of_none hmark hcut, List.mem_singleton] at h
      rw [h]
      exact cut?_eq_none_iff.mp hcut
  | case3 xs _ before after hcut _ ih =>
      rw [splitAt_of_some hmark hcut] at h
      rcases List.mem_cons.mp h with rfl | h
      · exact not_infix_of_cut? hmark hcut
      · exact ih h

theorem not_infix_of_mem_ended (hmark : mark ≠ []) (h : line ∈ ended mark xs) :
    ¬ mark <:+: line :=
  not_infix_of_mem_splitAt hmark (List.mem_of_mem_dropLast h)

/-! ## Lines -/

/-- The mark stands at the end, and nowhere else. -/
def EndsOnce (mark xs : List α) : Prop :=
  mark <:+ xs ∧ ∀ before after, xs = before ++ mark ++ after → after = []

theorem endsOnce_append_iff (hmark : mark ≠ []) (hunbordered : Unbordered mark) :
    EndsOnce mark (line ++ mark) ↔ ¬ mark <:+: line := by
  constructor
  · -- behind a mark in the line there is still the one at the end
    rintro ⟨-, honce⟩ ⟨before, after, rfl⟩
    have hrest : after ++ mark = [] := honce before (after ++ mark) (List.append_assoc _ _ _)
    exact hmark (List.append_eq_nil_iff.mp hrest).2
  · intro hline
    refine ⟨List.suffix_append line mark, fun before after hsplit ↦ ?_⟩
    by_contra hafter
    have hcut : cut? mark (before ++ mark ++ after) = some (line, []) :=
      hsplit ▸ cut?_append_mark hunbordered hline
    exact cut?_eq_none_iff.mp (cut?_eq_none_of_append hcut hafter)
      (List.suffix_append before mark).isInfix

theorem ended_lines (hmark : mark ≠ []) (hunbordered : Unbordered mark)
    (h : ∀ line ∈ lines, ¬ mark <:+: line) :
    ended mark (lines.flatMap (· ++ mark)) = lines ∧
      unended mark (lines.flatMap (· ++ mark)) = [] := by
  induction lines with
  | nil => exact ended_nil hmark
  | cons line lines ih =>
      obtain ⟨hline, hlater⟩ := List.forall_mem_cons.mp h
      have hcut : cut? mark (line ++ mark ++ lines.flatMap (· ++ mark)) =
          some (line, lines.flatMap (· ++ mark)) :=
        cut?_append (cut?_append_mark hunbordered hline) _
      rw [List.flatMap_cons, (ended_of_some hmark hcut).1, (ended_of_some hmark hcut).2,
        (ih hlater).1, (ih hlater).2]
      exact ⟨rfl, rfl⟩

theorem ended_lines_iff (hmark : mark ≠ []) (hunbordered : Unbordered mark) :
    ended mark (lines.flatMap (· ++ mark)) = lines ↔ ∀ line ∈ lines, ¬ mark <:+: line := by
  constructor
  · intro hlines line hline
    rw [← hlines] at hline
    exact not_infix_of_mem_ended hmark hline
  · intro h
    exact (ended_lines hmark hunbordered h).1

/-! ## Joined pieces -/

/-- Pieces joined with a mark are got back if none of them holds it, also where one ends or starts
with a part of the mark. -/
theorem splitAt_intercalate {pieces : List (List α)} (hmark : mark ≠ [])
    (hunbordered : Unbordered mark) (hne : pieces ≠ []) (h : ∀ piece ∈ pieces, ¬ mark <:+: piece) :
    splitAt mark (mark.intercalate pieces) = pieces := by
  induction pieces with
  | nil => exact absurd rfl hne
  | cons piece pieces ih =>
      obtain ⟨hpiece, hlater⟩ := List.forall_mem_cons.mp h
      cases pieces with
      | nil =>
          rw [List.intercalate_singleton]
          exact splitAt_of_none hmark (cut?_eq_none_iff.mpr hpiece)
      | cons next later =>
          have hcut : cut? mark (piece ++ mark ++ mark.intercalate (next :: later)) =
              some (piece, mark.intercalate (next :: later)) :=
            cut?_append (cut?_append_mark hunbordered hpiece) _
          rw [List.intercalate_cons_cons, splitAt_of_some hmark hcut,
            ih (List.cons_ne_nil next later) hlater]

end Lawful

omit [BEq α] in
theorem infix_intercalate (mark first second : List α) (later : List (List α)) :
    mark <:+: mark.intercalate (first :: second :: later) := by
  rw [List.intercalate_cons_cons]
  exact ⟨first, mark.intercalate (second :: later), rfl⟩

/-! ## Where a mark cannot stand -/

omit [BEq α] in
/-- Items without the first one of a mark can be left off at the front. -/
theorem infix_append_left_iff (h : m ∉ front) : m :: mark <:+: front ++ xs ↔ m :: mark <:+: xs := by
  induction front with
  | nil => rfl
  | cons x front ih =>
      obtain ⟨hne, hfront⟩ := List.ne_and_not_mem_of_not_mem_cons h
      rw [List.cons_append, List.infix_cons_iff, ih hfront, List.cons_prefix_cons]
      simp [hne]

omit [BEq α] in
/-- Items without the last one of a mark can be left off at the end. -/
theorem infix_append_right_iff (h : m ∉ back) :
    mark ++ [m] <:+: xs ++ back ↔ mark ++ [m] <:+: xs := by
  have hback : m ∉ back.reverse := mt List.mem_reverse.mp h
  have hreversed : m :: mark.reverse = (mark ++ [m]).reverse := List.reverse_concat.symm
  rw [← List.reverse_infix, ← hreversed, List.reverse_append, infix_append_left_iff hback,
    hreversed, List.reverse_infix]

end BleBridge.Text
