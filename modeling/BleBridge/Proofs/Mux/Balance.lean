import BleBridge.Proofs.Mux.Ledger

/-!
# The balance of the multiplexer

The invariants of the ledger hold of every run, and together they give the
balance of a multiplexer that is not closed yet: where each written request is,
in which order requests depart, what a terminal line can resolve, and what a
reply is made of.
-/

namespace BleBridge.Mux

namespace History

/-- Requests are resolved by being refused or by departing. -/
theorem outcomes_perm (h : History) :
    (h.outcomes.map Prod.fst).Perm ((h.refused ++ h.departed).map Request.ticket) := by
  induction h with
  | nil => exact .refl _
  | cons d h ih =>
      simp only [outcomes, refused, departed, pick_cons, List.map_append] at ih ⊢
      cases d with
      | refused r e => simpa using ih
      | expired r | answered r line status reply | abandoned r e =>
          simpa [expiry] using (ih.cons r.ticket).trans List.perm_middle.symm
      | admitted | wrote | heard | arrived | missed => simpa using ih

end History

variable {settings : Config.Mux} {h : History} {s : State}

/-! ## The ledger of a run -/

namespace Run

theorem orderly (run : Run settings h s) : Orderly h s :=
  run.keep (orderly_new settings) fun o m ↦ o.move m

theorem conserved (run : Run settings h s) : Conserved h s :=
  run.keep (conserved_new settings) fun c m ↦ c.move m

theorem settled (run : Run settings h s) : Settled h s :=
  run.keep (settled_new settings) fun c m ↦ c.move m

theorem counted (run : Run settings h s) : Counted h s :=
  run.keep (counted_new settings) fun c m ↦ c.move m

theorem spent (run : Run settings h s) : Spent h s :=
  run.keep (spent_new settings) fun c m ↦ c.move m

theorem classified (run : Run settings h s) : Classified settings h s :=
  run.keep (classified_new settings) fun c m ↦ c.move m

theorem quoted (run : Run settings h s) : Quoted h s :=
  run.keep (quoted_new settings) fun q m ↦ q.move m

theorem fair (run : Run settings h s) : Fair h :=
  run.keep (P := fun h _ ↦ Fair h) fair_nil fun f m ↦ f.move m

theorem quiet (run : Run settings h s) : Quiet h := by
  have hboth := run.keep (P := fun h s ↦ Orderly h s ∧ Quiet h)
    ⟨orderly_new settings, quiet_nil⟩ fun c m ↦ ⟨c.1.move m, c.2.move c.1 m⟩
  exact hboth.2

/-- A request that was resolved with a reply was answered. -/
theorem exists_answered (run : Run settings h s) {ticket : Nat}
    {result : Except BridgeError String} (hmem : (ticket, result) ∈ s.resolved)
    (hreply : IsReply result) :
    ∃ r line status reply, .answered r line status reply ∈ h ∧ r.ticket = ticket ∧
      result = bridged (verdict status reply) := by
  have houtcomes : (ticket, result) ∈ h.outcomes :=
    run.settled.subset (List.mem_append_left _ hmem)
  obtain ⟨d, hd, houtcome⟩ := List.mem_filterMap.mp houtcomes
  obtain ⟨r, line, status, reply, rfl, hrest⟩ := (run.fair d hd).answered houtcome hreply
  exact ⟨r, line, status, reply, hd, hrest⟩

/-- The tickets of the requests that were written are those of the requests that were resolved,
the refused ones left aside, and of those that are in the reader's hand or in a queue behind the
writer. -/
theorem places (run : Run settings h s) :
    ((h.refused ++ h.written).map Request.ticket).Perm
      (s.resolved.map Prod.fst ++ (s.reader.inHand.map Prod.fst ++ s.fifo ++ s.handoff ++
        s.writer.handed).map Request.ticket) := by
  have hsettled : (s.resolved.map Prod.fst ++
      (s.reader.inHand.map Prod.fst).map Request.ticket).Perm
        ((h.refused ++ h.departed).map Request.ticket) := by
    have hmap := (run.settled.map Prod.fst).trans h.outcomes_perm
    simpa [delivery, Function.comp_def] using hmap
  have hall := hsettled.symm.append_right
    ((s.fifo ++ s.handoff ++ s.writer.handed).map Request.ticket)
  rw [run.orderly.order]
  simpa using hall

theorem nodup_written (run : Run settings h s) (hnodup : (h.admitted.map Request.ticket).Nodup) :
    ((h.refused ++ h.written).map Request.ticket).Nodup := by
  have hall := run.conserved.nodup_iff.mpr hnodup
  rw [List.append_assoc, List.map_append] at hall
  exact (List.nodup_append.mp hall).1

end Run

/-! ## The balance -/

/-- How a multiplexer that is not closed stands.  A request that the writer is putting into the
handoff counts as handed. -/
structure Balanced (settings : Config.Mux) (h : History) (s : State) : Prop where
  counters : s.counters.written = s.counters.responses + s.counters.timeouts +
    (s.handoff ++ s.writer.handed).length + s.fifo.length + s.reader.inHand.length
  /-- Every written request is resolved, in the reader's hand, in the FIFO or in the handoff; what
  is resolved otherwise was refused before it was written. -/
  places : ((h.refused ++ h.written).map Request.ticket).Perm
    (s.resolved.map Prod.fst ++ (s.reader.inHand.map Prod.fst ++ s.fifo ++ s.handoff ++
      s.writer.handed).map Request.ticket)
  /-- No request is in two of the places or in one of them twice, nor is it resolved twice, if
every caller has a ticket of its own. -/
  apart : (h.admitted.map Request.ticket).Nodup →
    (s.resolved.map Prod.fst ++ (s.reader.inHand.map Prod.fst ++ s.fifo ++ s.handoff ++
      s.writer.handed).map Request.ticket).Nodup
  /-- Requests depart in the order in which they were written. -/
  order : h.written = h.departed ++ s.fifo ++ s.handoff ++ s.writer.handed
  /-- They depart by a terminal line or by the sweep. -/
  unabandoned : h.abandoned = []
  /-- Every terminal line is routed once, in the order in which the lines came. -/
  lines : h.terminals.map Line.arrival ++ s.reader.pending = h.arrivals
  /-- A terminal line that is routed resolves one request or none. -/
  terminals : h.terminals.length =
    s.counters.responses + s.reader.inHand.length + h.missed.length
  headless : s.fifo = [] → s.headLines = []
  /-- The reply under way is made of lines that met the head of the FIFO. -/
  current : Gleaned h s.fifo.head? s.headLines
  /-- A reply is made of lines that met its request at the head of the FIFO, the last of which is
  terminal. -/
  replies : ∀ {ticket result}, (ticket, result) ∈ s.resolved → IsReply result →
    ∃ r line status reply, .answered r line status reply ∈ h ∧ r.ticket = ticket ∧
      result = bridged (verdict status reply) ∧ Quotes h r line reply ∧
      Modem.classifyLine line.text settings.marker = .terminal status
  /-- The other lines of a reply are raw. -/
  raw : ∀ line ∈ h.heard, Modem.classifyLine line.text settings.marker = .raw

namespace Run

/-- Every run leaves a multiplexer that is not closed in balance. -/
theorem balanced (run : Run settings h s) (hopen : s.closed = false) : Balanced settings h s := by
  have horderly := run.orderly
  have hcounted := run.counted
  have hquoted := run.quoted
  have hclassified := run.classified
  have habandoned : h.abandoned = [] := horderly.unabandoned (horderly.running hopen)
  have hterminals := h.length_terminals
  refine
    { counters := ?_, places := run.places, apart := fun hnodup ↦ ?_, order := horderly.order,
      unabandoned := habandoned, lines := run.spent, terminals := ?_, headless := fun hfifo ↦ ?_,
      current := hquoted.current, replies := fun hmem hreply ↦ ?_, raw := hclassified.raw }
  · have hwritten := congrArg List.length horderly.order
    have hdeparted := h.length_departed
    rw [habandoned, ← hcounted.timeouts, ← hcounted.responses] at hdeparted
    rw [hcounted.written, hwritten]
    simp only [List.length_append, List.length_nil] at hdeparted ⊢
    omega
  · exact run.places.nodup_iff.mp (run.nodup_written hnodup)
  · rw [hterminals, ← hcounted.responses]
  · have hcurrent := hquoted.current
    rw [hfifo] at hcurrent
    exact hcurrent.eq_nil
  · obtain ⟨r, line, status, reply, hanswered, hticket, hresult⟩ := run.exists_answered hmem hreply
    exact ⟨r, line, status, reply, hanswered, hticket, hresult, hquoted.replies hanswered,
      hclassified.answered hanswered⟩

/-- One request is resolved with a reply of two lines, the next one is in the handoff. -/
theorem balanced_of_reply : ∃ h s, Run {} h s ∧ s.closed = false ∧ s.counters.written = 2 ∧
    s.resolved.map Prod.fst = [0] ∧ s.handoff.map Request.ticket = [1] ∧ Balanced {} h s := by
  have hrun : (State.follow [] (new {})
      [(0, .enter ⟨Text.bytes "AT+A\r\n", 50, 0, 100⟩ 0), (1, .take), (2, .wrote), (3, .handOff),
        (4, .receive (Text.bytes "A: 1\r\nOK\r\n")), (5, .readLine), (6, .readLine),
        (7, .enter ⟨Text.bytes "AT+B\r\n", 50, 0, 100⟩ 1), (8, .take), (9, .wrote),
        (10, .handOff)]).any (fun (_, s) ↦ s.closed = false ∧ s.counters.written = 2 ∧
          s.resolved.map Prod.fst = [0] ∧ s.handoff.map Request.ticket = [1]) = true := by
    decide +kernel
  obtain ⟨⟨h, s⟩, hfollow, hs⟩ := (Option.any_eq_true _ _).mp hrun
  obtain ⟨hopen, hwritten, hresolved, hhandoff⟩ := of_decide_eq_true hs
  have run : Run {} h s := .follow .start hfollow
  exact ⟨h, s, run, hopen, hwritten, hresolved, hhandoff, run.balanced hopen⟩

end Run

end BleBridge.Mux
