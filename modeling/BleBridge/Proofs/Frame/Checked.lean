import BleBridge.Fault
import BleBridge.Text.Bytes

/-!
# Access that is checked

Lists cannot be read behind their end: `drop` and `take` go as far as there is
something, and differences stop at zero.  The operations here answer such a
request with a `Halt` instead.  So a program that is written with them and never
halts asks only for what is there.
-/

namespace BleBridge.Frame

/-- Why a program stops without an answer. -/
inductive Halt where
  | fault (f : Fault)
  /-- A place that is not there was asked for. -/
  | beyond
  /-- The rounds that it was given did not suffice. -/
  | unfinished
deriving DecidableEq, Repr

/-- An answer goes into what comes next. -/
theorem ok_bind {α β ε : Type} (a : α) (next : α → Except ε β) : (Except.ok a >>= next) = next a :=
  rfl

namespace Checked

variable {front rest bs : Bytes} {m n : Nat}

/-- The difference of two lengths. -/
def minus (m n : Nat) : Except Halt Nat := if n ≤ m then .ok (m - n) else .error .beyond

/-- The bytes behind the first `n`. -/
def behind (n : Nat) (bs : Bytes) : Except Halt Bytes :=
  if n ≤ bs.length then .ok (bs.drop n) else .error .beyond

/-- The first `n` bytes. -/
def upTo (n : Nat) (bs : Bytes) : Except Halt Bytes :=
  if n ≤ bs.length then .ok (bs.take n) else .error .beyond

theorem minus_of_le (h : n ≤ m) : minus m n = .ok (m - n) := if_pos h

theorem behind_of_le (h : n ≤ bs.length) : behind n bs = .ok (bs.drop n) := if_pos h

theorem behind_append (h : n = front.length) : behind n (front ++ rest) = .ok rest := by
  subst h
  rw [behind_of_le (by simp), List.drop_left]

theorem upTo_append (h : n = front.length) : upTo n (front ++ rest) = .ok front := by
  subst h
  rw [upTo, if_pos (by simp), List.take_left]

end Checked

end BleBridge.Frame
