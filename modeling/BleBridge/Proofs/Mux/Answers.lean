import BleBridge.Proofs.Mux.Attribution
import BleBridge.Proofs.Mux.Closing

/-!
# What callers are told

A caller looks at the multiplexer again and again until its order is answered, and in
between anything may happen (`Answers`).  An order may be turned away, wait in vain or be
resolved in any way that a run knows (`Run.results`).  As invalid it is turned away only
if it has no command at all (`Answers.wasInvalid_eq_false`).
-/

namespace BleBridge

/-- Whether a request failed since it was invalid. -/
def wasInvalid {α : Type} : Except BridgeError α → Bool
  | .error (.validation _) => true
  | _ => false

namespace Mux

open Bench (World Wait)
open Bench.World (Look)

variable {o : Order} {reply : Except BridgeError String} {w w' : World}

/-- No run resolves a request as invalid. -/
theorem Run.wasInvalid_eq_false {settings : Config.Mux} {h : History} {s : State} {ticket : Nat}
    (run : Run settings h s) (hresult : s.resultOf ticket = some reply) :
    wasInvalid reply = false := by
  rcases run.results (State.mem_resolved hresult) with
    ⟨r, line, status, response, -, -, rfl⟩ | ⟨r, -, hexpiry⟩ | ⟨reason, rfl⟩ | ⟨reason, rfl⟩
  · cases status <;> rfl
  · cases hexpiry
    rfl
  · rfl
  · rfl

/-! ## Looks -/

/-- The multiplexer of the bench has run up to where it is. -/
def HasRun (w : World) : Prop := ∃ settings h, Run settings h w.mux

theorem HasRun.perform (h : HasRun w) (a : Action) : HasRun (w.perform a) := by
  obtain ⟨settings, h, run⟩ := h
  rw [World.perform]
  split
  · rename_i hstep
    exact ⟨settings, _, run.step hstep⟩
  · exact ⟨settings, h, run⟩

/-- What comes of a look at an order. -/
structure Sees (outcome : World × Look (.enqueue o)) : Prop where
  hasRun : HasRun outcome.1
  valid : ∀ reply, outcome.2 = .answer reply → wasInvalid reply = false

theorem sees_wait (h : HasRun w) (wait : Wait (.enqueue o)) : Sees (w, .wait wait) := ⟨h, nofun⟩

theorem sees_answer (h : HasRun w) (hvalid : wasInvalid reply = false) :
    Sees (o := o) (w, .answer reply) := by
  refine ⟨h, fun reply' heq ↦ ?_⟩
  cases heq
  exact hvalid

theorem sees_seekRoom (h : HasRun w) (o : Order) (ticket : Nat) (due : Millis) (left : Nat) :
    Sees (w.seekRoom o ticket due left) := by
  induction left generalizing w due with
  | zero =>
      rw [World.seekRoom]
      split
      · exact sees_wait (h.perform _) _
      · split
        · exact sees_answer (h.perform _) rfl
        · split
          · exact sees_answer (h.perform (.leaveLine ticket)) rfl
          · exact sees_wait h _
  | succ left ih =>
      rw [World.seekRoom]
      split
      · exact sees_wait (h.perform _) _
      · split
        · exact sees_answer (h.perform _) rfl
        · split
          · have hleft : HasRun ((w.perform (.leaveLine ticket)).note
                [attemptEvent (admissionAttempts - (left + 1))]) := h.perform (.leaveLine ticket)
            exact ih (hleft.perform (.lineUp ticket)) _
          · exact sees_wait h _

theorem sees_seekReply (h : HasRun w) (o : Order) (ticket : Nat) (due : Millis) :
    Sees (w.seekReply o ticket due) := by
  rw [World.seekReply]
  split
  · rename_i hresult
    obtain ⟨settings, h', run⟩ := h
    exact sees_answer ⟨settings, h', run⟩ (run.wasInvalid_eq_false hresult)
  · split
    · exact sees_answer h rfl
    · exact sees_wait h _

/-- Behind a look for room there may be a look for the reply. -/
theorem sees_seekOn (h : HasRun w) (o : Order) (ticket : Nat) (due : Millis) (left : Nat) :
    Sees (match w.seekRoom o ticket due left with
      | (w, .wait (.reply ticket due)) => w.seekReply o ticket due
      | outcome => outcome) := by
  have hroom := sees_seekRoom h o ticket due left
  generalize w.seekRoom o ticket due left = outcome at hroom
  split
  · exact sees_seekReply hroom.hasRun o _ _
  · exact hroom

theorem sees_seek (h : HasRun w) (hcommand : o.command ≠ []) : Sees (w.seek o) := by
  rw [World.seek, State.refusal, if_neg (by simpa using hcommand)]
  split
  · rename_i e hrefusal
    obtain ⟨-, ⟨⟩⟩ | ⟨-, ⟨⟩⟩ := ite_eq_iff.mp hrefusal
    exact sees_answer h rfl
  · have hticket : HasRun w.ticket.2 := h
    refine sees_seekOn ?_ o _ _ _
    split
    · exact hticket
    · exact hticket.perform _

theorem sees_lookAgain (h : HasRun w) (wait : Wait (.enqueue o)) : Sees (w.lookAgain wait) := by
  cases wait with
  | admission ticket left due => exact sees_seekOn h o ticket due left
  | reply ticket due => exact sees_seekReply h o ticket due

/-- The multiplexer may answer the order so, at the first look or at a later one. -/
inductive Answers (o : Order) (reply : Except BridgeError String) : Prop where
  | atOnce {w w' : World} (hasRun : HasRun w) (look : w.look (.enqueue o) = (w', .answer reply))
  | later {w w' : World} (wait : Wait (.enqueue o)) (hasRun : HasRun w)
      (look : w.lookAgain wait = (w', .answer reply))

/-- Whatever a run has resolved a request with is an answer. -/
theorem Run.answers {settings : Config.Mux} {h : History} {s : State} {ticket : Nat}
    (run : Run settings h s) (hresult : s.resultOf ticket = some reply) (o : Order) :
    Answers o reply := by
  let w : World := { mux := s, device := .mute }
  have hlook : w.lookAgain (.reply ticket 0 : Wait (.enqueue o)) = (w, .answer reply) := by
    have hw : w.mux.resultOf ticket = some reply := hresult
    rw [World.lookAgain, World.seekReply, hw]
  exact .later (.reply ticket 0) ⟨settings, h, run⟩ hlook

/-- An order with a command is never turned away as invalid. -/
theorem Answers.wasInvalid_eq_false (h : Answers o reply) (hcommand : o.command ≠ []) :
    wasInvalid reply = false := by
  cases h with
  | atOnce hasRun look => exact (sees_seek hasRun hcommand).valid reply (congrArg Prod.snd look)
  | later wait hasRun look =>
      exact (sees_lookAgain hasRun wait).valid reply (congrArg Prod.snd look)

end Mux

end BleBridge
