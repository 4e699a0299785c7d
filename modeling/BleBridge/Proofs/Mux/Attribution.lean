import BleBridge.Proofs.Mux.Balance
import Mathlib.Data.List.Nodup

/-!
# Whose reply it is

The multiplexer gives a terminal line to the head of the FIFO.  With a peripheral
that answers every command with one terminal line, in the order of the commands,
the line at any place among the terminal lines belongs to the command at the same
place among the commands.

The head of the FIFO has as many commands before it as requests departed, and a
line has as many before it as were routed.  Answers count for both.  So a reply
reaches its own command exactly when the requests that expired before are as many
as the lines that were missed, that is, when the line of every expired request
has been dropped.  A late line for an expired request is not dropped while
another request is pending: it answers that one.

A ticket stands for the channel on which a caller waits for its own result, so no
two requests that were admitted have the same one.
-/

namespace BleBridge.Mux

/-- The terminal line at `i` is the answer to `r`, for a peripheral that answers every command with
one terminal line, in the order in which the commands were written. -/
def Owns (h : History) (r : Request) (i : Nat) : Prop := h.written[i]? = some r

/-- No terminal line comes before the command that it answers. -/
def Obliging (h : History) : Prop :=
  ∀ n ≤ h.length, (History.arrivals (h.take n)).length ≤ (History.written (h.take n)).length

instance (h : History) : Decidable (Obliging h) := Nat.decidableBallLE _ _

/-- Every reply that a caller gets is made of the terminal line that answers its own request. -/
def Attributed (h : History) (s : State) : Prop :=
  ∀ {ticket result}, s.resultOf ticket = some result → IsReply result →
    ∃ before r line status reply after, h = before ++ .answered r line status reply :: after ∧
      r.ticket = ticket ∧ result = bridged (verdict status reply) ∧
      Owns h r (History.terminals before).length

theorem State.mem_resolved {s : State} {ticket : Nat} {result : Except BridgeError String}
    (h : s.resultOf ticket = some result) : (ticket, result) ∈ s.resolved := by
  obtain ⟨⟨ticket', result'⟩, hfind, rfl⟩ := Option.map_eq_some_iff.mp h
  have hticket := List.find?_some hfind
  obtain rfl : ticket' = ticket := by simpa using hticket
  exact List.mem_of_find?_eq_some hfind

section Answer

variable {settings : Config.Mux} {h before after : History} {s : State} {r : Request} {line : Line}
  {status : Modem.Status} {reply : String}

theorem departed_answered (hh : h = before ++ .answered r line status reply :: after) :
    h.departed = before.departed ++ r :: History.departed after := by
  rw [hh]
  simp [History.pick_cons]

theorem terminals_answered (hh : h = before ++ .answered r line status reply :: after) :
    h.terminals = before.terminals ++ line :: History.terminals after := by
  rw [hh]
  simp [History.pick_cons]

namespace Run

/-- The request that is answered is the one written next after those that departed. -/
theorem written_departed (run : Run settings h s)
    (hh : h = before ++ .answered r line status reply :: after) :
    h.written[before.departed.length]? = some r := by
  rw [run.orderly.order, departed_answered hh]
  simp

/-- The line of an answer is the one that came next after those that were routed. -/
theorem arrivals_terminals (run : Run settings h s)
    (hh : h = before ++ .answered r line status reply :: after) :
    h.arrivals[before.terminals.length]? = some line.arrival := by
  rw [← run.spent, terminals_answered hh]
  simp

theorem abandoned_before (run : Run settings h s)
    (hh : h = before ++ .answered r line status reply :: after) : before.abandoned = [] := by
  have hquiet := run.quiet
  rw [Quiet, hh] at hquiet
  have hcross := (List.pairwise_append.mp hquiet).2.2
  refine List.filterMap_eq_nil_iff.mpr fun d hd ↦ ?_
  by_contra hne
  have hanswered := hcross d hd _ List.mem_cons_self hne
  cases hanswered

/-- An answer takes the line that its request owns if and only if as many lines were missed before
as requests expired. -/
theorem owns_iff (run : Run settings h s) (hnodup : (h.admitted.map Request.ticket).Nodup)
    (hh : h = before ++ .answered r line status reply :: after) :
    Owns h r before.terminals.length ↔ before.expired.length = before.missed.length := by
  have hwritten := run.written_departed hh
  obtain ⟨hlt, _⟩ := List.getElem?_eq_some_iff.mp hwritten
  have hdistinct : h.written.Nodup := by
    have hall := run.nodup_written hnodup
    rw [List.map_append] at hall
    exact (List.nodup_append.mp hall).2.1.of_map
  have hdeparted := before.length_departed
  have hterminals := before.length_terminals
  rw [run.abandoned_before hh, List.length_nil] at hdeparted
  rw [Owns, ← hwritten, eq_comm, List.getElem?_inj hlt hdistinct]
  omega

/-- A reply is made of the line that its request owns if and only if as many lines were missed
before as requests expired. -/
theorem reply_owned_iff (run : Run settings h s) (hnodup : (h.admitted.map Request.ticket).Nodup)
    {ticket : Nat} {result : Except BridgeError String}
    (hresult : s.resultOf ticket = some result) (hreply : IsReply result) :
    ∃ before r line status reply after, h = before ++ .answered r line status reply :: after ∧
      r.ticket = ticket ∧ result = bridged (verdict status reply) ∧ Quotes h r line reply ∧
      h.arrivals[(History.terminals before).length]? = some line.arrival ∧
      (Owns h r (History.terminals before).length ↔
        (History.expired before).length = (History.missed before).length) := by
  obtain ⟨r, line, status, reply, hanswered, hticket, hbridged⟩ :=
    run.exists_answered (State.mem_resolved hresult) hreply
  obtain ⟨before, after, hh⟩ := List.append_of_mem hanswered
  exact ⟨before, r, line, status, reply, after, hh, hticket, hbridged,
    run.quoted.replies hanswered, run.arrivals_terminals hh, run.owns_iff hnodup hh⟩

/-- A reply in time. -/
theorem reply_owned_of_prompt : ∃ h s, Run {} h s ∧ s.resultOf 0 = some (.ok "OK A") ∧
    ∃ before r line status reply after, h = before ++ .answered r line status reply :: after ∧
      (Owns h r (History.terminals before).length ↔
        (History.expired before).length = (History.missed before).length) := by
  have hrun : (State.follow [] (new {})
      [(0, .enter ⟨Text.bytes "AT+A\r\n", 50, 0, 100⟩ 0), (1, .take), (2, .wrote), (3, .handOff),
        (4, .receive (Text.bytes "OK A\r\n")), (5, .readLine)]).any (fun (h, s) ↦
          s.resultOf 0 = some (.ok "OK A") ∧ (h.admitted.map Request.ticket).Nodup) = true := by
    decide +kernel
  obtain ⟨⟨h, s⟩, hfollow, hs⟩ := (Option.any_eq_true _ _).mp hrun
  obtain ⟨hresult, hnodup⟩ := of_decide_eq_true hs
  have run : Run {} h s := .follow .start hfollow
  obtain ⟨before, r, line, status, reply, after, hh, -, -, -, -, hiff⟩ :=
    run.reply_owned_iff hnodup hresult (.inl ⟨_, rfl⟩)
  exact ⟨h, s, run, hresult, before, r, line, status, reply, after, hh, hiff⟩

/-- A late reply is swept off its own request and given to the next one, although the peripheral
sends one terminal line for each of the two commands, in their order. -/
theorem late_reply_misattributed : ∃ h s, Run {} h s ∧ (h.admitted.map Request.ticket).Nodup ∧
    Obliging h ∧ h.written.map Request.ticket = [0, 1] ∧ h.arrivals.map Prod.fst = ["OK A"] ∧
    s.buffer = Text.bytes "OK B\r\n" ∧ s.resultOf 1 = some (.ok "OK A") ∧ ¬ Attributed h s := by
  have hrun : (State.follow [] (new {})
      [(0, .enter ⟨Text.bytes "AT+A\r\n", 50, 0, 100⟩ 0), (1, .take), (2, .wrote), (3, .handOff),
        (60000000, .enter ⟨Text.bytes "AT+B\r\n", 50, 0, 100⟩ 1), (60000001, .take),
        (60000002, .wrote), (60000003, .handOff),
        (60000004, .receive (Text.bytes "OK A\r\nOK B\r\n")), (60000005, .readLine)]).any
      (fun (h, s) ↦ (h.admitted.map Request.ticket).Nodup ∧ Obliging h ∧
        h.written.map Request.ticket = [0, 1] ∧ h.arrivals.map Prod.fst = ["OK A"] ∧
        s.buffer = Text.bytes "OK B\r\n" ∧ s.resultOf 1 = some (.ok "OK A") ∧
        h.terminals.length = 1) = true := by
    decide +kernel
  obtain ⟨⟨h, s⟩, hfollow, hs⟩ := (Option.any_eq_true _ _).mp hrun
  obtain ⟨hnodup, hobliging, hwritten, harrivals, hbuffer, hresult, hone⟩ := of_decide_eq_true hs
  refine ⟨h, s, .follow .start hfollow, hnodup, hobliging, hwritten, harrivals, hbuffer, hresult,
    fun hattributed ↦ ?_⟩
  obtain ⟨before, r, line, status, reply, after, hh, hticket, -, howns⟩ :=
    hattributed hresult (.inl ⟨_, rfl⟩)
  -- no terminal line came before, so the line is owned by the request written first
  have hfirst : (History.terminals before).length = 0 := by
    rw [terminals_answered hh, List.length_append, List.length_cons] at hone
    omega
  have hzero : (h.written.map Request.ticket)[0]? = some 0 := by rw [hwritten]; rfl
  rw [Owns, hfirst] at howns
  rw [List.getElem?_map, howns, Option.map_some, hticket] at hzero
  cases hzero

end Run

end Answer

end BleBridge.Mux
