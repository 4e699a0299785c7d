import BleBridge.Proofs.Text.Pieces

/-!
# Pieces between separators

A mark of one item separates pieces that do not hold it.  Cutting at such a mark is
the standard `List.splitOn` (`splitAt_singleton`), and there is one piece more than
there are separators (`length_splitOn`).
-/

namespace BleBridge.Text

variable {α : Type} [BEq α]

theorem length_splitOn (x : α) (xs : List α) : (xs.splitOn x).length = xs.count x + 1 := by
  induction xs with
  | nil => rw [List.splitOn_nil, List.count_nil, List.length_singleton]
  | cons y xs ih =>
      rw [List.splitOn_cons_eq_if_modifyHead, List.count_cons]
      split
      · rw [List.length_cons, ih]
      · rw [List.length_modifyHead, ih, Nat.add_zero]

variable [LawfulBEq α] {x : α} {front : List α}

/-- A list is cut where the separator first stands. -/
theorem cut?_singleton (h : x ∉ front) (rest : List α) :
    cut? [x] (front ++ x :: rest) = some (front, rest) := by
  have hfront : ¬ [x] <:+: front ++ (x :: rest).take ([x].length - 1) := by
    intro hpart
    exact h (by simpa using hpart.subset (List.mem_singleton_self x))
  have hmark : cut? [x] (x :: rest) = some ([], rest) := cut?_mark_append [x] rest
  have hcut := cut?_append_of_not_infix hfront
  rw [hcut, hmark, Option.map_some, List.append_nil]

theorem splitAt_singleton (x : α) (xs : List α) : splitAt [x] xs = xs.splitOn x := by
  have hmark : [x] ≠ [] := List.cons_ne_nil x []
  induction xs using splitAt.induct [x] with
  | case1 xs hnil => exact absurd hnil hmark
  | case2 xs _ hcut =>
      have hx : x ∉ xs := by
        rw [← List.singleton_infix_iff]
        exact cut?_eq_none_iff.mp hcut
      rw [splitAt_of_none hmark hcut, List.splitOn_eq_singleton hx]
  | case3 xs _ before after hcut _ ih =>
      have hx : x ∉ before := by
        rw [← List.singleton_infix_iff]
        exact not_infix_of_cut? hmark hcut
      have hxs : xs = before ++ x :: after := by simpa using eq_append_of_cut? hcut
      rw [splitAt_of_some hmark hcut, ih, hxs, List.splitOn_append_cons_self_of_not_mem hx]

end BleBridge.Text
