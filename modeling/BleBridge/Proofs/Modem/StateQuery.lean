import BleBridge.Proofs.Modem.Verdict

/-!
# The state that a reply names

A reply to the state query names a state on a line of its own (`State.line`), among
whatever else was read while the query was pending.  The query does not look for
that line.  It searches the whole reply for the tokens of the states, one after the
other.  So it returns the state on the line if and only if no other line holds a
token that is looked for earlier (`outcome_state_iff`).
-/

namespace BleBridge

namespace Modem.State

variable {response : String} {s : State}

/-- The line that names a state. -/
def line (s : State) : String := "+QBLESTAT:" ++ s.token

/-- The states whose tokens are looked for before that of `s`. -/
def earlier (s : State) : List State := searchOrder.takeWhile (· ≠ s)

theorem contains_line (s : State) : Text.contains s.line s.token := by
  cases s <;> decide +kernel

/-- The line of a state holds no token that is looked for earlier. -/
theorem not_contains_line (s : State) : ∀ t ∈ s.earlier, ¬ Text.contains s.line t.token := by
  cases s <;> decide +kernel

theorem token_feedless (s : State) : '\n' ∉ s.token.toList ∧ s.token.toList ≠ [] := by
  cases s <;> decide +kernel

theorem searchOrder_eq (s : State) : ∃ later, searchOrder = s.earlier ++ s :: later := by
  cases s <;> exact ⟨_, rfl⟩

theorem ne_of_mem_earlier {t : State} (h : t ∈ s.earlier) : t ≠ s := by
  simpa using List.mem_takeWhile_imp h

/-- A reply that holds the token of a state is read so unless it holds an earlier one. -/
theorem parse_eq_iff (h : Text.contains response s.token) :
    parse response = s ↔ ∀ t ∈ s.earlier, ¬ Text.contains response t.token := by
  obtain ⟨later, horder⟩ := s.searchOrder_eq
  rw [parse, horder, List.find?_append, List.find?_cons_of_pos (a := s) h]
  cases hfirst : s.earlier.find? (Text.contains response ·.token) with
  | none => exact ⟨fun _ ↦ List.find?_eq_none.mp hfirst, fun _ ↦ rfl⟩
  | some t =>
      have hmem := List.mem_of_find?_eq_some hfirst
      have htoken : Text.contains response t.token := List.find?_some (a := t) hfirst
      exact ⟨fun heq ↦ absurd heq (ne_of_mem_earlier hmem), fun hall ↦ absurd htoken (hall t hmem)⟩

/-- Of a reply with the line of a state, only the other lines can hold an earlier token. -/
theorem parse_joinLines_iff {lines : List String} (hmem : s.line ∈ lines) :
    parse (Text.joinLines lines) = s ↔
      ∀ l ∈ lines, l ≠ s.line → ∀ t ∈ s.earlier, ¬ Text.contains l t.token := by
  have hcontains : ∀ t : State,
      Text.contains (Text.joinLines lines) t.token ↔ ∃ l ∈ lines, Text.contains l t.token :=
    fun t ↦ Text.contains_joinLines t.token_feedless.1 t.token_feedless.2
  rw [parse_eq_iff ((hcontains s).mpr ⟨_, hmem, s.contains_line⟩)]
  constructor
  · exact fun h l hl _ t ht htoken ↦ h t ht ((hcontains t).mpr ⟨l, hl, htoken⟩)
  · intro h t ht htoken
    obtain ⟨l, hl, htoken⟩ := (hcontains t).mp htoken
    by_cases hline : l = s.line
    · exact s.not_contains_line t ht (hline ▸ htoken)
    · exact h l hl hline t ht htoken

end Modem.State

/-- The state query comes to the state that is found in the reply to its command line. -/
theorem Modem.Controller.outcome_state (c : Controller) (answer : (call : Call) → call.Answer) :
    c.state.run.outcome answer =
      ((c.sendSingle Command.state).run.outcome answer).map State.parse := by
  refine (Routine.outcome_bind answer (c.sendSingle Command.state).run _).trans ?_
  cases (c.sendSingle Command.state).run.outcome answer <;> rfl

namespace Mux.Run

variable {settings : Config.Mux} {h : History} {s : State} {ticket : Nat} {reply : String}

/-- A reply is put together from its lines. -/
theorem joinLines_trimmedLines (run : Run settings h s) (hmem : (ticket, .ok reply) ∈ s.resolved) :
    Text.joinLines (Modem.trimmedLines reply) = reply := by
  obtain ⟨r, l, status, text, hanswered, -, hresult⟩ := run.exists_answered hmem (.inl ⟨_, rfl⟩)
  obtain ⟨raws, hassembled, rfl⟩ := run.assembled hanswered
  obtain rfl : reply = Text.joinLines (raws ++ [l.text]) := by
    cases status with
    | success => exact Except.ok.inj hresult
    | failure => cases hresult
    | moduleError => cases hresult
  rw [Modem.trimmedLines_joinLines hassembled.line]

/-- The state query whose request was resolved with a reply that names a state on a line. -/
theorem outcome_state_iff (run : Run settings h s) (hmem : (ticket, .ok reply) ∈ s.resolved)
    {named : Modem.State} (hnamed : named.line ∈ Modem.trimmedLines reply) (c : Modem.Controller)
    {answer : (call : Call) → call.Answer}
    (hanswer : answer (.enqueue (c.order Modem.Command.state)) = .ok reply) :
    c.state.run.outcome answer = .ok named ↔
      ∀ l ∈ Modem.trimmedLines reply, l ≠ named.line →
        ∀ t ∈ named.earlier, ¬ Text.contains l t.token := by
  have hparsed : c.state.run.outcome answer = .ok (Modem.State.parse reply) := by
    rw [c.outcome_state, run.outcome_sendSingle hmem c _ hanswer]
    rfl
  rw [hparsed, Except.ok.injEq, ← Modem.State.parse_joinLines_iff hnamed,
    run.joinLines_trimmedLines hmem]

/-- Write the state query out, and read three lines of what comes in then. -/
def queried (inbound : Bytes) : Option (History × State) :=
  State.follow [] (new {})
    [(0, .enter ⟨Text.bytes Modem.Command.state, 50, 0, 100⟩ 0), (1, .take), (2, .wrote),
      (3, .handOff), (4, .receive inbound), (5, .readLine), (6, .readLine), (7, .readLine)]

theorem exists_run_of_queried (inbound : Bytes) (reply : String)
    (h : (queried inbound).any ((0, .ok reply) ∈ ·.2.resolved)) :
    ∃ h s, Run {} h s ∧ (0, .ok reply) ∈ s.resolved := by
  obtain ⟨⟨h, s⟩, hfollow, hmem⟩ := (Option.any_eq_true _ _).mp h
  exact ⟨h, s, .follow .start hfollow, of_decide_eq_true hmem⟩

/-- A line in front of the state line holds a token that is looked for later. -/
theorem outcome_state_of_later : ∃ h s, Run {} h s ∧
    (0, .ok (Text.joinLines ["peer CONNECTED", "+QBLESTAT:DISCONNECTED", "OK"])) ∈ s.resolved ∧
      ∀ (c : Modem.Controller) (answer : (call : Call) → call.Answer),
        answer (.enqueue (c.order Modem.Command.state)) =
            .ok (Text.joinLines ["peer CONNECTED", "+QBLESTAT:DISCONNECTED", "OK"]) →
          c.state.run.outcome answer = .ok .disconnected := by
  obtain ⟨h, s, run, hmem⟩ := exists_run_of_queried
    (Text.bytes "peer CONNECTED\r\n+QBLESTAT:DISCONNECTED\r\nOK\r\n")
    (Text.joinLines ["peer CONNECTED", "+QBLESTAT:DISCONNECTED", "OK"]) (by decide +kernel)
  exact ⟨h, s, run, hmem, fun c answer hanswer ↦
    (run.outcome_state_iff hmem (by decide +kernel) c hanswer).mpr (by decide +kernel)⟩

/-- A line in front of the state line names another state, which is looked for earlier. -/
theorem exists_state_misread : ∃ h s reply, Run {} h s ∧ (0, .ok reply) ∈ s.resolved ∧
    Modem.trimmedLines reply = ["peer DISCONNECTED", "+QBLESTAT:ADVERTISING", "OK"] ∧
      Modem.State.advertising.line = "+QBLESTAT:ADVERTISING" ∧
      ∀ (c : Modem.Controller) (answer : (call : Call) → call.Answer),
        answer (.enqueue (c.order Modem.Command.state)) = .ok reply →
          c.state.run.outcome answer = .ok .disconnected := by
  obtain ⟨h, s, run, hmem⟩ := exists_run_of_queried
    (Text.bytes "peer DISCONNECTED\r\n+QBLESTAT:ADVERTISING\r\nOK\r\n")
    (Text.joinLines ["peer DISCONNECTED", "+QBLESTAT:ADVERTISING", "OK"]) (by decide +kernel)
  refine ⟨h, s, _, run, hmem, by decide +kernel, by decide, fun c answer hanswer ↦ ?_⟩
  rw [c.outcome_state, run.outcome_sendSingle hmem c _ hanswer]
  decide +kernel

end Mux.Run

end BleBridge
