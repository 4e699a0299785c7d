import BleBridge.Proofs.Frame.Checked
import BleBridge.Proofs.Frame.Timing

/-!
# The decoder keeps within its buffer

`rounds` is the decoder as a loop over places in its buffer.  Each access is
checked, a packet that cannot be read stops it, and so does a number of rounds
that is too small.  It never stops for any of these (`rounds_of_sees`): a round
that does not end the search drops a lead and a header, so there are at most as
many of them as these fit into the buffer, and one more.  What `scan` finds and
leaves is what the loop finds and leaves.

The room that a layout must have bounds what is kept.  A buffer in which the
search goes on is longer than the transmission unit, hence holds more than a lead
and a header.
-/

namespace BleBridge.Frame.Layout

open Checked (minus behind upTo)

variable {f : Layout} {p : Packet} {buffer skipped after rest : Bytes} {found : Option Packet}

/-! ## The decoder as a loop -/

/-- Where a mark first occurs. -/
def position (mark bs : Bytes) : Option Nat := (Text.cut? mark bs).map fun cut ↦ cut.1.length

/-- How a round ends. -/
inductive Turn where
  | done (found : Option Packet) (rest : Bytes)
  /-- A frame start was dropped. -/
  | again (rest : Bytes)
deriving DecidableEq, Repr

/-- Take out a frame whose suffix stands `stop` bytes behind the header, and read its packet. -/
def takeFrame (f : Layout) (stop : Nat) (src : Bytes) : Except Halt Turn := do
  let size := f.lead.length + headerSize + stop + f.suffix.length
  let frame ← upTo size src
  let rest ← behind size src
  let body ← behind f.lead.length (← upTo (← minus frame.length f.suffix.length) frame)
  match Packet.parse body with
  | .ok p => return .done (some p) rest
  | .error fault => throw (.fault fault)

/-- A round behind a lead: go from the header to the first suffix. -/
def turnBehind (f : Layout) (src : Bytes) : Except Halt Turn :=
  let start := f.lead.length + headerSize
  if src.length < start then return .done none src
  else do
    match position f.suffix (← behind start src) with
    | some stop => f.takeFrame stop src
    | none =>
        if f.mtu < src.length then return .again (← behind start src)
        else return .done none src

/-- One round: go to the first lead, and on from there. -/
def turn (f : Layout) (buffer : Bytes) : Except Halt Turn :=
  match position f.lead buffer with
  | none => do
      let keep ← minus f.lead.length 1
      if keep < buffer.length then
        return .done none (← behind (← minus buffer.length keep) buffer)
      else return .done none buffer
  | some skip => do f.turnBehind (← behind skip buffer)

/-- At most `n` rounds. -/
def rounds (f : Layout) : Nat → Bytes → Except Halt (Option Packet × Bytes)
  | 0, _ => .error .unfinished
  | n + 1, buffer => do
      match ← f.turn buffer with
      | .done found rest => return (found, rest)
      | .again rest => f.rounds n rest

/-! ## One round -/

theorem position_of_cut? {mark bs before after : Bytes}
    (h : Text.cut? mark bs = some (before, after)) : position mark bs = some before.length := by
  rw [position, h]
  rfl

theorem position_eq_none {mark bs : Bytes} (h : Text.cut? mark bs = none) :
    position mark bs = none := by
  rw [position, h]
  rfl

theorem turn_of_blank (hlead : Text.cut? f.lead buffer = none) :
    f.turn buffer = .ok (.done none (f.keepPartial buffer)) := by
  have hpos : 1 ≤ f.lead.length := by
    apply List.length_pos_of_ne_nil
    intro hnil
    rw [hnil] at hlead
    exact Text.cut?_eq_none_iff.mp hlead List.nil_infix
  rw [turn, position_eq_none hlead]
  dsimp only
  rw [Checked.minus_of_le hpos]
  show (if f.lead.length - 1 < buffer.length then _ else _) = _
  split
  · rename_i hlong
    rw [Checked.minus_of_le (Nat.le_of_lt hlong)]
    show (do return Turn.done none (← behind _ buffer)) = _
    rw [Checked.behind_of_le (Nat.sub_le _ _)]
    rfl
  · rename_i hshort
    rw [keepPartial_of_le (Nat.le_of_not_lt hshort)]
    rfl

/-- A round that finds a lead goes on with the bytes from there. -/
theorem turn_of_lead (hlead : Text.cut? f.lead buffer = some (skipped, after)) :
    f.turn buffer = f.turnBehind (f.lead ++ after) := by
  have hbuffer := Text.eq_append_of_cut? hlead
  rw [List.append_assoc] at hbuffer
  rw [turn, position_of_cut? hlead]
  show (do f.turnBehind (← behind skipped.length buffer)) = _
  rw [hbuffer, Checked.behind_append rfl]
  rfl

/-- A frame is read without a fault. -/
theorem takeFrame_append (f : Layout) (p : Packet) (rest : Bytes) :
    f.takeFrame p.payload.length (f.lead ++ p.body ++ f.suffix ++ rest) =
      .ok (.done (some p) rest) := by
  have hsize : f.lead.length + headerSize + p.payload.length + f.suffix.length =
      (f.lead ++ p.body ++ f.suffix).length := by
    simp only [List.length_append, p.length_body]
    omega
  have hbare : (f.lead ++ p.body ++ f.suffix).length - f.suffix.length =
      (f.lead ++ p.body).length := by
    rw [List.length_append]
    omega
  rw [takeFrame, Checked.upTo_append hsize, ok_bind, Checked.behind_append hsize, ok_bind,
    Checked.minus_of_le (by rw [List.length_append]; omega), ok_bind, Checked.upTo_append hbare,
    ok_bind, Checked.behind_append rfl, ok_bind, p.parse_body]
  rfl

theorem behind_header (hlong : headerSize ≤ after.length) :
    behind (f.lead.length + headerSize) (f.lead ++ after) = .ok (after.drop headerSize) := by
  rw [Checked.behind_of_le, List.drop_length_add_append]
  rw [List.length_append]
  omega

theorem turnBehind_of_frame
    (hsuffix : Text.cut? f.suffix (p.payload ++ (f.suffix ++ rest)) = some (p.payload, rest)) :
    f.turnBehind (f.lead ++ (p.body ++ (f.suffix ++ rest))) = .ok (.done (some p) rest) := by
  have hlong : headerSize ≤ (p.body ++ (f.suffix ++ rest)).length := by
    rw [List.length_append, p.length_body]
    omega
  have hframe : f.lead ++ (p.body ++ (f.suffix ++ rest)) =
      f.lead ++ p.body ++ f.suffix ++ rest := by
    simp only [List.append_assoc]
  rw [turnBehind, if_neg (by rw [List.length_append]; omega), behind_header hlong, ok_bind,
    drop_header, position_of_cut? hsuffix, hframe]
  exact f.takeFrame_append p rest

theorem turnBehind_of_started (hsuffix : Text.cut? f.suffix (after.drop headerSize) = none)
    (hsize : f.lead.length + after.length ≤ f.mtu) :
    f.turnBehind (f.lead ++ after) = .ok (.done none (f.lead ++ after)) := by
  rw [turnBehind]
  split
  · rfl
  · rename_i hlong
    rw [List.length_append] at hlong
    rw [behind_header (by omega), ok_bind, position_eq_none hsuffix]
    dsimp only
    rw [if_neg (by rw [List.length_append]; omega)]
    rfl

theorem turnBehind_of_dropped (hsuffix : Text.cut? f.suffix (after.drop headerSize) = none)
    (hsize : f.mtu < f.lead.length + after.length) :
    f.turnBehind (f.lead ++ after) = .ok (.again (after.drop headerSize)) := by
  have hroom := f.room
  rw [turnBehind, if_neg (by rw [List.length_append]; omega), behind_header (by omega), ok_bind,
    position_eq_none hsuffix]
  dsimp only
  rw [if_pos (by rw [List.length_append]; omega), ok_bind]
  rfl

/-! ## All rounds -/

theorem rounds_of_done {n : Nat} (h : f.turn buffer = .ok (.done found rest)) :
    f.rounds (n + 1) buffer = .ok (found, rest) := by
  rw [rounds, h]
  rfl

theorem rounds_of_again {n : Nat} (h : f.turn buffer = .ok (.again rest)) :
    f.rounds (n + 1) buffer = f.rounds n rest := by
  rw [rounds, h]
  rfl

/-- The loop comes to the outcome of a look, whatever there is in the buffer, in as many rounds as
leads with a header fit into it, and one more. -/
theorem rounds_of_sees (h : Sees f buffer found rest) {n : Nat}
    (hn : buffer.length / (f.lead.length + headerSize) < n) :
    f.rounds n buffer = .ok (found, rest) := by
  induction h generalizing n with
  | @blank buffer lead =>
      obtain ⟨n, rfl⟩ := Nat.exists_eq_add_one_of_ne_zero (Nat.ne_zero_of_lt hn)
      exact rounds_of_done (turn_of_blank lead)
  | @frame buffer skipped rest p lead suffix =>
      obtain ⟨n, rfl⟩ := Nat.exists_eq_add_one_of_ne_zero (Nat.ne_zero_of_lt hn)
      exact rounds_of_done ((turn_of_lead lead).trans (turnBehind_of_frame suffix))
  | @started buffer skipped after lead suffix size =>
      obtain ⟨n, rfl⟩ := Nat.exists_eq_add_one_of_ne_zero (Nat.ne_zero_of_lt hn)
      exact rounds_of_done ((turn_of_lead lead).trans (turnBehind_of_started suffix size))
  | @dropped buffer skipped after rest found lead suffix size later ih =>
      obtain ⟨n, rfl⟩ := Nat.exists_eq_add_one_of_ne_zero (Nat.ne_zero_of_lt hn)
      rw [rounds_of_again ((turn_of_lead lead).trans (turnBehind_of_dropped suffix size))]
      apply ih
      -- the round has used up a lead and a header
      have hroom := f.room
      have hlength := Text.cut?_length f.lead buffer lead
      have hless : (after.drop headerSize).length + (f.lead.length + headerSize) ≤
          buffer.length := by
        rw [List.length_drop]
        omega
      have hquotient := Nat.div_le_div_right (c := f.lead.length + headerSize) hless
      rw [Nat.add_div_right _ (by rw [headerSize]; omega)] at hquotient
      omega

/-! ## What is left -/

theorem Sees.rest_suffix (h : Sees f buffer found rest) : rest <:+ buffer := by
  induction h with
  | @blank buffer lead => exact List.drop_suffix _ buffer
  | @frame buffer skipped rest p lead suffix =>
      rw [Text.eq_append_of_cut? lead]
      exact ⟨skipped ++ f.lead ++ p.body ++ f.suffix, by simp⟩
  | @started buffer skipped after lead suffix size =>
      rw [Text.eq_append_of_cut? lead, List.append_assoc]
      exact List.suffix_append skipped _
  | @dropped buffer skipped after rest found lead suffix size later ih =>
      apply (ih.trans (List.drop_suffix headerSize after)).trans
      rw [Text.eq_append_of_cut? lead]
      exact List.suffix_append _ after

/-- A look at a buffer comes to an end within its bytes and without a fault.  It leaves an end of
the buffer.  With a packet it takes at least a lead, a header and a suffix away, and without one
it leaves no more than a transmission unit. -/
theorem scan_bounded (f : Layout) (buffer : Bytes) :
    (∀ n, buffer.length / (f.lead.length + headerSize) < n →
        f.rounds n buffer = .ok ((f.scan buffer).found, (f.scan buffer).rest)) ∧
      (f.scan buffer).rest <:+ buffer ∧
      ((f.scan buffer).found.isSome → (f.scan buffer).rest.length +
        (f.lead.length + headerSize + f.suffix.length) ≤ buffer.length) ∧
      ((f.scan buffer).found = none → (f.scan buffer).rest.length ≤ f.mtu) := by
  have hsees := f.sees_scan buffer
  refine ⟨fun n hn ↦ rounds_of_sees hsees hn, hsees.rest_suffix, ?_, hsees.length_rest_le⟩
  intro hfound
  obtain ⟨p, hp⟩ := Option.isSome_iff_exists.mp hfound
  rw [hp] at hsees
  have hlength := hsees.length_lt
  rw [length_encode] at hlength
  omega

end BleBridge.Frame.Layout
