import BleBridge.Bench.Peripheral
import BleBridge.Proofs.Frame.Stream
import BleBridge.Proofs.Text.Pieces

/-!
# What a peripheral hears

A peripheral gets its bytes in chunks and keeps the beginning of a command for the
next one.  What it has heard of a stream does not depend on the chunks (`Heard`):
the commands are the pieces of the stream that a line end ends, and each of them
is answered once.

So lines that are sent one behind the other are heard as one command each if no
line end stands in them, and only then (`hearsEach_iff`).
-/

namespace BleBridge.Bench.Peripheral

open Text (ended unended)

variable {p q : Peripheral} {stream chunk replies : Bytes} {chunks lines : List Bytes}

theorem lineEnd_ne_nil : lineEnd ≠ [] := List.cons_ne_nil _ _

theorem unbordered_lineEnd : Text.Unbordered lineEnd := Frame.Layout.unbordered_defaultSuffix

/-- The reply to a command. -/
def answer (p : Peripheral) (command : Bytes) : Bytes :=
  ((p.replyTo (Text.ofBytesLossy command)).map lineBytes).flatten

/-- Receive chunks one after the other; gives the bytes of all replies. -/
def hear (p : Peripheral) : List Bytes → Peripheral × Bytes
  | [] => (p, [])
  | chunk :: later =>
      let first := p.receive chunk
      let rest := first.1.hear later
      (rest.1, first.2.1 ++ rest.2)

/-! ## One chunk after the other -/

theorem answer_of_rules (h : q.rules = p.rules) : q.answer = p.answer := by
  funext command
  rw [answer, answer, replyTo, replyTo, h]

/-- What comes of a peripheral that has got the bytes of a stream. -/
structure Heard (p : Peripheral) (stream : Bytes) (q : Peripheral) (replies : Bytes) : Prop where
  rules : q.rules = p.rules
  pending : q.pending = unended lineEnd stream
  received : q.received.toList = p.received.toList ++ ended lineEnd stream
  replies : replies = (ended lineEnd stream).flatMap p.answer

theorem takeCommands_eq (p : Peripheral) (commands : List Bytes) :
    (p.takeCommands commands).1.rules = p.rules ∧
      (p.takeCommands commands).1.pending = p.pending ∧
      (p.takeCommands commands).1.received.toList = p.received.toList ++ commands ∧
      (p.takeCommands commands).2.1 = commands.flatMap p.answer := by
  induction commands generalizing p with
  | nil => exact ⟨rfl, rfl, (List.append_nil _).symm, rfl⟩
  | cons command commands ih =>
      obtain ⟨hrules, hpending, hreceived, hreplies⟩ := ih (p.takeCommand command).1
      refine ⟨hrules, hpending, ?_, ?_⟩
      · refine hreceived.trans ?_
        show (p.received.push command).toList ++ commands = _
        rw [Array.toList_push, List.append_assoc, List.singleton_append]
      · have hanswer : (p.takeCommand command).1.answer = p.answer := answer_of_rules rfl
        rw [hanswer] at hreplies
        rw [List.flatMap_cons, ← hreplies]
        rfl

theorem Heard.receive (h : Heard p stream q replies) (chunk : Bytes) :
    Heard p (stream ++ chunk) (q.receive chunk).1 (replies ++ (q.receive chunk).2.1) := by
  obtain ⟨hended, hunended⟩ := Text.ended_append lineEnd_ne_nil stream chunk
  have htaken := takeCommands_eq { q with pending := unended lineEnd (q.pending ++ chunk) }
    (ended lineEnd (q.pending ++ chunk))
  have hanswer : Peripheral.answer { q with pending := unended lineEnd (q.pending ++ chunk) } =
      p.answer := answer_of_rules h.rules
  rw [hanswer] at htaken
  obtain ⟨hrules, hpending, hreceived, hreplies⟩ := htaken
  refine ⟨hrules.trans h.rules, ?_, ?_, ?_⟩
  · rw [hunended, ← h.pending]
    exact hpending
  · rw [hended, ← h.pending, ← List.append_assoc, ← h.received]
    exact hreceived
  · rw [hended, ← h.pending, List.flatMap_append, ← h.replies]
    exact congrArg (replies ++ ·) hreplies

theorem Heard.hear (h : Heard p stream q replies) (chunks : List Bytes) :
    Heard p (stream ++ chunks.flatten) (q.hear chunks).1 (replies ++ (q.hear chunks).2) := by
  induction chunks generalizing stream q replies with
  | nil =>
      rw [List.flatten_nil, List.append_nil]
      show Heard p stream q (replies ++ [])
      rw [List.append_nil]
      exact h
  | cons chunk chunks ih =>
      have hlater := ih (h.receive chunk)
      rw [List.append_assoc, List.append_assoc] at hlater
      exact hlater

theorem heard_hear (hpending : p.pending = []) (chunks : List Bytes) :
    Heard p chunks.flatten (p.hear chunks).1 (p.hear chunks).2 := by
  obtain ⟨hended, hunended⟩ := Text.ended_nil lineEnd_ne_nil
  have hstart : Heard p [] p [] := by
    refine ⟨rfl, hpending.trans hunended.symm, ?_, ?_⟩
    · rw [hended, List.append_nil]
    · rw [hended, List.flatMap_nil]
  exact hstart.hear chunks

/-! ## Lines -/

/-- Each line is a command of its own, and answered once. -/
structure HearsEach (p : Peripheral) (lines chunks : List Bytes) : Prop where
  pending : (p.hear chunks).1.pending = []
  received : (p.hear chunks).1.received.toList = p.received.toList ++ lines
  replies : (p.hear chunks).2 = lines.flatMap p.answer

theorem hearsEach_iff (hpending : p.pending = [])
    (hchunks : chunks.flatten = lines.flatMap (· ++ lineEnd)) :
    HearsEach p lines chunks ↔ ∀ line ∈ lines, ¬ lineEnd <:+: line := by
  obtain ⟨-, hrest, hreceived, hreplies⟩ := heard_hear hpending chunks
  rw [hchunks] at hrest hreceived hreplies
  constructor
  · intro h
    exact (Text.ended_lines_iff lineEnd_ne_nil unbordered_lineEnd).mp
      (List.append_cancel_left (hreceived.symm.trans h.received))
  · intro hlines
    obtain ⟨hended, hunended⟩ := Text.ended_lines lineEnd_ne_nil unbordered_lineEnd hlines
    rw [hended] at hreceived hreplies
    exact ⟨hrest.trans hunended, hreceived, hreplies⟩

end BleBridge.Bench.Peripheral
