/-! # Finding and cutting at a mark -/

namespace BleBridge.Text

variable {α : Type} [BEq α]

/-- What stands before and after the first occurrence of `mark`. -/
def cut? (mark : List α) : List α → Option (List α × List α)
  | [] => if mark.isEmpty then some ([], []) else none
  | x :: xs =>
      match mark.isPrefixOf? (x :: xs) with
      | some after => some ([], after)
      | none => (cut? mark xs).map fun p => (x :: p.1, p.2)

@[simp] theorem isPrefixOf?_nil (xs : List α) : ([] : List α).isPrefixOf? xs = some xs := rfl

@[simp] theorem isPrefixOf?_cons_nil (m : α) (mark : List α) :
    (m :: mark).isPrefixOf? [] = none := rfl

theorem isPrefixOf?_cons_cons (m x : α) (mark xs : List α) :
    (m :: mark).isPrefixOf? (x :: xs) = if m == x then mark.isPrefixOf? xs else none := rfl

theorem isPrefixOf?_length (mark xs after : List α) (h : mark.isPrefixOf? xs = some after) :
    mark.length + after.length = xs.length := by
  induction mark generalizing xs with
  | nil =>
      cases h
      simp
  | cons m mark ih =>
      cases xs with
      | nil => cases h
      | cons x xs =>
          rw [isPrefixOf?_cons_cons] at h
          split at h
          · have := ih xs h
            simp only [List.length_cons]
            omega
          · cases h

theorem cut?_length (mark xs : List α) {before after : List α}
    (h : cut? mark xs = some (before, after)) :
    before.length + mark.length + after.length = xs.length := by
  induction xs generalizing before after with
  | nil =>
      simp only [cut?] at h
      split at h
      · rename_i hm
        simp only [Option.some.injEq, Prod.mk.injEq] at h
        obtain ⟨rfl, rfl⟩ := h
        simp_all
      · cases h
  | cons x xs ih =>
      simp only [cut?] at h
      split at h
      · rename_i hp
        simp only [Option.some.injEq, Prod.mk.injEq] at h
        obtain ⟨rfl, rfl⟩ := h
        simpa using isPrefixOf?_length mark (x :: xs) _ hp
      · cases hc : cut? mark xs with
        | none => simp [hc] at h
        | some p =>
            simp only [hc, Option.map_some, Option.some.injEq, Prod.mk.injEq] at h
            obtain ⟨rfl, rfl⟩ := h
            have : p.1.length + mark.length + p.2.length = xs.length := ih hc
            simp only [List.length_cons]
            omega

def occursIn (mark xs : List α) : Bool := (cut? mark xs).isSome

/-- The pieces between the occurrences of a nonempty mark, from left to right. An empty mark
stands before, between and after all items. -/
def splitAt (mark : List α) (xs : List α) : List (List α) :=
  if hm : mark = [] then [] :: xs.map ([·]) ++ [[]]
  else match h : cut? mark xs with
    | none => [xs]
    | some (before, after) =>
        have : after.length < xs.length := by
          have := cut?_length mark xs h
          have : mark.length ≠ 0 := by simpa using hm
          omega
        before :: splitAt mark after
termination_by xs.length

/-- The lines of a text: a line feed ends a line and is no part of it. -/
def lines : List Char → List (List Char)
  | [] => []
  | c :: rest =>
      if c = '\n' then [] :: lines rest
      else match lines rest with
        | [] => [[c]]
        | line :: later => (c :: line) :: later

def contains (s mark : String) : Bool := occursIn mark.toList s.toList

def startsWith (s lead : String) : Bool := lead.toList.isPrefixOf s.toList

/-- The rest of `s` after `lead`. -/
def dropLead? (lead s : String) : Option String :=
  (lead.toList.isPrefixOf? s.toList).map String.ofList

/-- Joined by line feeds. -/
def joinLines (ls : List String) : String := String.intercalate "\n" ls

end BleBridge.Text
