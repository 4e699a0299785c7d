import BleBridge.Proofs.Mux.History

/-!
# The moves of the multiplexer

An action of the multiplexer does several things at once: a line that comes in
takes over what was handed, sweeps the FIFO, and then joins, completes or misses
a reply.  This file takes every action apart into `Move`s that change one thing
each.  An invariant needs to be checked for the moves only; `Moves.keep` and
`Run.keep` carry it over to actions and to runs.
-/

namespace BleBridge.Mux

/-! ## Where requests are -/

/-- The request whose command is going out. -/
def Writer.outgoing : Writer → List Request
  | .writing r => [r]
  | _ => []

/-- The request that the writer is putting into the handoff. -/
def Writer.handed : Writer → List Request
  | .handing r => [r]
  | _ => []

/-- The request whose reply is complete and not delivered yet. -/
def Reader.inHand : Reader → List (Request × Except Fault String)
  | .delaying r v _ => [(r, v)]
  | _ => []

/-- The terminal line that is read and not routed yet. -/
def Reader.pending : Reader → List (String × Instant)
  | .graceful text _ readAt _ => [(text, readAt)]
  | _ => []

/-- The reader has neither a line nor a reply in its hand. -/
def Reader.isFree : Reader → Bool
  | .reading | .resting _ => true
  | _ => false

/-- A line that waits for a request is a terminal line. -/
def Reader.Waits (reader : Reader) (settings : Config.Mux) : Prop :=
  ∀ {text status readAt due}, reader = .graceful text status readAt due →
    Modem.classifyLine text settings.marker = .terminal status

section Places

variable (r : Request) (v : Except Fault String) (due : Millis) (text : String)
  (status : Modem.Status) (readAt : Instant)

@[simp] theorem outgoing_idle : Writer.idle.outgoing = [] := rfl
@[simp] theorem outgoing_writing : (Writer.writing r).outgoing = [r] := rfl
@[simp] theorem outgoing_handing : (Writer.handing r).outgoing = [] := rfl
@[simp] theorem outgoing_stopped : Writer.stopped.outgoing = [] := rfl

@[simp] theorem handed_idle : Writer.idle.handed = [] := rfl
@[simp] theorem handed_writing : (Writer.writing r).handed = [] := rfl
@[simp] theorem handed_handing : (Writer.handing r).handed = [r] := rfl
@[simp] theorem handed_stopped : Writer.stopped.handed = [] := rfl

@[simp] theorem inHand_reading : Reader.reading.inHand = [] := rfl
@[simp] theorem inHand_graceful : (Reader.graceful text status readAt due).inHand = [] := rfl
@[simp] theorem inHand_delaying : (Reader.delaying r v due).inHand = [(r, v)] := rfl
@[simp] theorem inHand_stopped : Reader.stopped.inHand = [] := rfl

@[simp] theorem pending_reading : Reader.reading.pending = [] := rfl
@[simp] theorem pending_graceful :
    (Reader.graceful text status readAt due).pending = [(text, readAt)] := rfl
@[simp] theorem pending_delaying : (Reader.delaying r v due).pending = [] := rfl
@[simp] theorem pending_stopped : Reader.stopped.pending = [] := rfl

theorem Reader.isStopped_of_isFree {reader : Reader} (h : reader.isFree = true) :
    reader.isStopped = false := by
  cases reader <;> first | rfl | cases h

theorem Reader.inHand_of_isFree {reader : Reader} (h : reader.isFree = true) :
    reader.inHand = [] := by
  cases reader <;> first | rfl | cases h

theorem Reader.pending_of_isFree {reader : Reader} (h : reader.isFree = true) :
    reader.pending = [] := by
  cases reader <;> first | rfl | cases h

end Places

/-! ## Moves -/

/-- One change to the requests, with the deed that it is. -/
inductive Move : State → History → State → Prop where
  /-- Nothing that the requests depend on changes. -/
  | aside (s : State) (waiting : List Nat) (buffer : Bytes) (reports rawLines : List String)
      (m n : Nat) :
      Move s []
        { s with
          waiting, buffer, reports, rawLines
          counters := { s.counters with reports := m, rawLines := n } }
  | close (s : State) : Move s [] { s with closed := true }
  | enqueue (s : State) (r : Request) : Move s [.admitted r] { s with queue := s.queue ++ [r] }
  /-- The writer takes the first request of the queue. -/
  | start {s : State} {r : Request} {later : List Request} (now : Instant)
      (idle : s.writer = .idle) (queue : s.queue = r :: later) :
      Move s [] { s with queue := later, writer := .writing { r with writtenAt := now } }
  | write {s : State} {r : Request} (writing : s.writer = .writing r) :
      Move s [.wrote r]
        { s with
          writer := .handing r
          counters := { s.counters with written := s.counters.written + 1 } }
  /-- The command does not get out. -/
  | giveUp {s : State} {r : Request} {e : BridgeError} (own : ∀ fault, e ≠ .protocol fault)
      (writing : s.writer = .writing r) :
      Move s [.refused r e]
        { s with writer := .idle, resolved := (r.ticket, .error e) :: s.resolved }
  /-- The requests in the queue are failed. -/
  | drain (s : State) {e : BridgeError} (own : ∀ fault, e ≠ .protocol fault) :
      Move s (s.queue.map (.refused · e))
        { s with
          queue := []
          resolved := (s.queue.map fun r => (r.ticket, .error e)).reverse ++ s.resolved }
  | stopWriter {s : State} (closed : s.closed = true) (idle : s.writer = .idle) :
      Move s [] { s with writer := .stopped }
  | hand {s : State} {r : Request} (handing : s.writer = .handing r)
      (reader : s.reader.isStopped = false) :
      Move s [] { s with writer := .idle, handoff := s.handoff ++ [r] }
  /-- Nobody takes the request that was written. -/
  | handLate {s : State} {r : Request} {e : BridgeError} (own : ∀ fault, e ≠ .protocol fault)
      (handing : s.writer = .handing r) (reader : s.reader.isStopped = true) :
      Move s [.abandoned r e]
        { s with writer := .idle, resolved := (r.ticket, .error e) :: s.resolved }
  | absorb {s : State} {handed later : List Request} (runs : s.reader.isStopped = false)
      (handoff : s.handoff = handed ++ later) :
      Move s [] { s with fifo := s.fifo ++ handed, handoff := later }
  | expire {s : State} {r : Request} {later : List Request} (fifo : s.fifo = r :: later) :
      Move s [.expired r]
        { s with
          fifo := later
          headLines := []
          counters := { s.counters with timeouts := s.counters.timeouts + 1 }
          resolved := expiry r :: s.resolved }
  /-- A raw line joins the reply under way or not. -/
  | hear {s : State} {line : Line} {joined : List String}
      (raw : Modem.classifyLine line.text s.settings.marker = .raw)
      (head : line.head = s.fifo.head?)
      (joins : joined = s.headLines ∨
        joined = s.headLines ++ [line.text] ∧ ∃ r, line.Meets r) :
      Move s [.heard line] { s with headLines := joined }
  /-- The reader takes a terminal line into its hand. -/
  | hold {s : State} {text : String} {status : Modem.Status} (readAt : Instant) (due : Millis)
      (reading : s.reader = .reading)
      (terminal : Modem.classifyLine text s.settings.marker = .terminal status) :
      Move s [.arrived text readAt] { s with reader := .graceful text status readAt due }
  | miss {s : State} {text : String} {status : Modem.Status} {readAt : Instant} {due : Millis}
      (holding : s.reader = .graceful text status readAt due)
      (terminal : Modem.classifyLine text s.settings.marker = .terminal status) :
      Move s [.missed ⟨text, readAt, s.fifo.head?⟩] { s with reader := .reading }
  /-- A terminal line takes the head out of the FIFO. -/
  | answer {s : State} {r : Request} {later : List Request} {readAt : Instant} {text : String}
      {status : Modem.Status} {due : Millis} (due' : Millis)
      (holding : s.reader = .graceful text status readAt due)
      (terminal : Modem.classifyLine text s.settings.marker = .terminal status)
      (fifo : s.fifo = r :: later) (fresh : r.writtenAt ≤ readAt) :
      Move s [.answered r ⟨text, readAt, some r⟩ status (Text.joinLines (s.headLines ++ [text]))]
        { s with
          fifo := later
          headLines := []
          reader := .delaying r (verdict status (Text.joinLines (s.headLines ++ [text]))) due' }
  | deliver {s : State} {r : Request} {v : Except Fault String} {due : Millis}
      (delaying : s.reader = .delaying r v due) :
      Move s []
        { s with
          reader := .reading
          counters := { s.counters with responses := s.counters.responses + 1 }
          resolved := (r.ticket, bridged v) :: s.resolved }
  /-- The reader goes on with nothing in its hand. -/
  | turn {s : State} (reader : Reader) (free : s.reader.isFree = true)
      (free' : reader.isFree = true) : Move s [] { s with reader }
  | stopReader {s : State} {e : BridgeError} (own : ∀ fault, e ≠ .protocol fault)
      (closed : s.closed = true) (reading : s.reader = .reading) (handoff : s.handoff = []) :
      Move s (s.fifo.map (.abandoned · e))
        { s with
          fifo := []
          headLines := []
          reader := .stopped
          resolved := (s.fifo.map fun r => (r.ticket, .error e)).reverse ++ s.resolved }

/-- Moves one after the other, with all that they do. -/
inductive Moves : State → History → State → Prop where
  | done (s : State) : Moves s [] s
  | next {s s' s'' : State} {h k : History} (first : Move s h s') (rest : Moves s' k s'') :
      Moves s (h ++ k) s''

namespace Moves

variable {s s' s'' : State} {h k : History}

theorem one (m : Move s h s') : Moves s h s' := by
  simpa using Moves.next m (.done s')

theorem trans (m : Moves s h s') (n : Moves s' k s'') : Moves s (h ++ k) s'' := by
  induction m with
  | done s => exact n
  | next first _ ih =>
      rw [List.append_assoc]
      exact .next first (ih n)

/-- Moves that do nothing worth an entry. -/
theorem before (m : Move s [] s') (n : Moves s' k s'') : Moves s k s'' := .next m n

/-- What every move keeps, moves keep. -/
theorem keep {P : History → State → Prop}
    (each : ∀ {h s k s'}, P h s → Move s k s' → P (h ++ k) s') (m : Moves s k s') (h : History)
    (kept : P h s) : P (h ++ k) s' := by
  induction m generalizing h with
  | done s => simpa using kept
  | next first _ ih =>
      rw [← List.append_assoc]
      exact ih _ (each kept first)

end Moves

namespace State

variable {s : State} {now : Instant}

/-! ## Lines -/

theorem takeTerminal_turn (s : State) (text : String) (status : Modem.Status)
    (readAt now : Instant) (reader : Reader) :
    ({ s with reader }.takeTerminal text status readAt now).1 =
      (s.takeTerminal text status readAt now).1 := by
  rw [takeTerminal, takeTerminal]
  cases s.fifo with
  | nil => rfl
  | cons r later =>
      dsimp only
      split
      · rfl
      · split
        · rfl
        · rfl

/-- A terminal line leaves alone what is not about replies. -/
theorem takeTerminal_eq (s : State) (text : String) (status : Modem.Status)
    (readAt now : Instant) :
    (s.takeTerminal text status readAt now).1 =
      { s with
        fifo := (s.takeTerminal text status readAt now).1.fifo
        headLines := (s.takeTerminal text status readAt now).1.headLines
        reader := (s.takeTerminal text status readAt now).1.reader
        counters := (s.takeTerminal text status readAt now).1.counters
        resolved := (s.takeTerminal text status readAt now).1.resolved } := by
  rw [takeTerminal]
  split
  · rfl
  · split
    · rfl
    · dsimp only
      split <;> rfl

theorem reader_takeTerminal (s : State) (text : String) (status : Modem.Status)
    (readAt now : Instant) :
    (s.takeTerminal text status readAt now).1.reader = .reading ∨
      ∃ r v due, (s.takeTerminal text status readAt now).1.reader = .delaying r v due := by
  rw [takeTerminal]
  split
  · exact .inl rfl
  · split
    · exact .inl rfl
    · dsimp only
      split
      · exact .inl rfl
      · exact .inr ⟨_, _, _, rfl⟩

theorem terminalDeeds_nil (text : String) (status : Modem.Status) (readAt : Instant)
    (hfifo : s.fifo = []) :
    s.terminalDeeds text status readAt = [.missed ⟨text, readAt, none⟩] := by
  rw [terminalDeeds, hfifo]

theorem terminalDeeds_cons (text : String) (status : Modem.Status) (readAt : Instant)
    {r : Request} {later : List Request} (hfifo : s.fifo = r :: later) :
    s.terminalDeeds text status readAt =
      if r.predates readAt then [.missed ⟨text, readAt, some r⟩]
      else [.answered r ⟨text, readAt, some r⟩ status
        (Text.joinLines (s.headLines ++ [text]))] := by
  rw [terminalDeeds, hfifo]

theorem moves_takeTerminal {text : String} {status : Modem.Status} {readAt : Instant} {due : Millis}
    (now : Instant) (hholding : s.reader = .graceful text status readAt due)
    (hterminal : Modem.classifyLine text s.settings.marker = .terminal status) :
    Moves s (s.terminalDeeds text status readAt) (s.takeTerminal text status readAt now).1 := by
  have hmiss : ∀ head, s.fifo.head? = head →
      Moves s [.missed ⟨text, readAt, head⟩] { s with reader := .reading } := by
    rintro _ rfl
    exact .one (.miss hholding hterminal)
  rw [takeTerminal]
  split
  · rename_i hfifo
    rw [terminalDeeds_nil text status readAt hfifo]
    exact hmiss none (by rw [hfifo]; rfl)
  · rename_i r later hfifo
    rw [terminalDeeds_cons text status readAt hfifo]
    by_cases hpredates : r.predates readAt
    · rw [if_pos hpredates, if_pos hpredates]
      exact hmiss (some r) (by rw [hfifo]; rfl)
    · have hfresh : r.writtenAt ≤ readAt := by
        simpa [Request.predates] using hpredates
      rw [if_neg hpredates, if_neg hpredates]
      split
      · -- without a delay the reply is in the reader's hand for no time at all
        have hmoves := (Moves.one (.answer 0 hholding hterminal hfifo hfresh)).trans
          (.one (.deliver rfl))
        rw [List.append_nil] at hmoves
        exact hmoves
      · exact .one (.answer _ hholding hterminal hfifo hfresh)

/-- A sweep looks at the list of its own, not at the FIFO of the state. -/
theorem sweep_go_fifo (now : Instant) (l fifo : List Request) (s : State) :
    (sweep.go now l { s with fifo }).1 = (sweep.go now l s).1 := by
  induction l generalizing s with
  | nil => rfl
  | cons r later ih =>
      rw [sweep.go, sweep.go]
      split
      · exact ih { s with
          headLines := []
          counters := { s.counters with timeouts := s.counters.timeouts + 1 }
          resolved := expiry r :: s.resolved }
      · rfl

theorem moves_sweep (s : State) (now : Instant) :
    Moves s (s.sweepDeeds now) (s.sweep now).1 := by
  rw [sweep, sweepDeeds]
  induction hfifo : s.fifo generalizing s with
  | nil =>
      have hs : (sweep.go now [] s).1 = s := by
        rw [sweep.go, ← hfifo]
      rw [hs]
      exact .done s
  | cons r later ih =>
      rw [sweep.go]
      by_cases hexpired : r.isExpired now
      · rw [if_pos hexpired, List.takeWhile_cons, if_pos hexpired, List.map_cons]
        have hrest := ih { s with
          fifo := later
          headLines := []
          counters := { s.counters with timeouts := s.counters.timeouts + 1 }
          resolved := expiry r :: s.resolved } rfl
        rw [← sweep_go_fifo] at hrest
        exact .next (.expire hfifo) hrest
      · rw [if_neg hexpired, List.takeWhile_cons, if_neg hexpired, ← hfifo]
        exact .done s

theorem sweep_go_eq (now : Instant) (l : List Request) (s : State) :
    (sweep.go now l s).1 =
      { s with
        fifo := (sweep.go now l s).1.fifo
        headLines := (sweep.go now l s).1.headLines
        counters := (sweep.go now l s).1.counters
        resolved := (sweep.go now l s).1.resolved } := by
  induction l generalizing s with
  | nil => rfl
  | cons r later ih =>
      rw [sweep.go]
      split
      · exact ih _
      · rfl

/-- A sweep leaves alone what is not about requests that were written. -/
theorem sweep_eq (s : State) (now : Instant) :
    (s.sweep now).1 =
      { s with
        fifo := (s.sweep now).1.fifo
        headLines := (s.sweep now).1.headLines
        counters := (s.sweep now).1.counters
        resolved := (s.sweep now).1.resolved } :=
  sweep_go_eq now s.fifo s

/-- A raw line joins the lines of the reply or leaves them as they are. -/
theorem moves_takeRaw {text : String} (now : Instant)
    (hraw : Modem.classifyLine text s.settings.marker = .raw) :
    Moves s [.heard ⟨text, now, s.fifo.head?⟩] (s.takeRaw text now) := by
  have hjoins : (s.takeRaw text now).headLines = s.headLines ∨
      (s.takeRaw text now).headLines = s.headLines ++ [text] ∧
        ∃ r, Line.Meets ⟨text, now, s.fifo.head?⟩ r := by
    rw [takeRaw]
    cases hfifo : s.fifo with
    | nil => exact .inl rfl
    | cons r later =>
        by_cases hpredates : r.predates now
        · exact .inl (by simp [hpredates])
        · refine .inr ⟨by simp [hpredates], r, rfl, ?_⟩
          simpa [Request.predates] using hpredates
  have hhear : Move s [.heard ⟨text, now, s.fifo.head?⟩] _ := .hear hraw rfl hjoins
  exact (Moves.one hhear).trans (.one (.aside _ s.waiting s.buffer s.reports
    (s.rawLines ++ [text]) s.counters.reports (s.counters.rawLines + 1)))

/-- Where a line goes behind the sweep. -/
def route (s : State) (text : String) (now : Instant) : State :=
  if text = "" || isIgnored s.settings text then s
  else match Modem.classifyLine text s.settings.marker with
    | .report segments => s.takeReport segments
    | .raw => s.takeRaw text now
    | .terminal status =>
        if s.fifo.isEmpty then
          { s with reader := .graceful text status now (now.millis + handoffGrace) }
        else (s.takeTerminal text status now now).1

theorem takeLine_fst (s : State) (raw : Bytes) (now : Instant) :
    (s.takeLine raw now).1 = (s.absorb.sweep now).1.route (lineText raw) now := by
  rw [takeLine, route]
  dsimp only
  split
  · rfl
  · cases Modem.classifyLine (lineText raw) (s.absorb.sweep now).1.settings.marker with
    | report segments => rfl
    | raw => rfl
    | terminal status =>
        dsimp only
        split
        · rfl
        · rfl

/-- Only the text of a line tells what the consumers get of it. -/
theorem route_eq (s : State) (text : String) (now : Instant) :
    s.route text now =
      { s with
        fifo := (s.route text now).fifo
        headLines := (s.route text now).headLines
        reader := (s.route text now).reader
        counters := (s.route text now).counters
        resolved := (s.route text now).resolved
        reports := (s.route text now).reports
        rawLines := (s.route text now).rawLines } := by
  rw [route]
  split
  · rfl
  · split
    · rfl
    · rfl
    · split
      · rfl
      · rw [takeTerminal_eq]

/-- What reading leaves alone: the settings, the writer and the queue, and the bytes behind. -/
structure Aside (s s' : State) : Prop where
  settings : s'.settings = s.settings
  closed : s'.closed = s.closed
  waiting : s'.waiting = s.waiting
  queue : s'.queue = s.queue
  writer : s'.writer = s.writer
  buffer : s'.buffer = s.buffer

theorem aside_takeTerminal (s : State) (text : String) (status : Modem.Status)
    (readAt now : Instant) : Aside s (s.takeTerminal text status readAt now).1 := by
  rw [takeTerminal_eq]
  exact ⟨rfl, rfl, rfl, rfl, rfl, rfl⟩

theorem aside_takeLine (s : State) (raw : Bytes) (now : Instant) :
    Aside s (s.takeLine raw now).1 := by
  rw [takeLine_fst, route_eq, sweep_eq]
  exact ⟨rfl, rfl, rfl, rfl, rfl, rfl⟩

theorem moves_route (text : String) (now : Instant) (hreading : s.reader = .reading) :
    Moves s (s.routeDeeds text now) (s.route text now) := by
  rw [routeDeeds, route]
  split
  · exact .done s
  · cases hkind : Modem.classifyLine text s.settings.marker with
    | report segments =>
        exact .one (.aside s s.waiting s.buffer _ s.rawLines _ s.counters.rawLines)
    | raw => exact moves_takeRaw now hkind
    | terminal status =>
        have hhold : Move s [.arrived text now] _ :=
          .hold now (now.millis + handoffGrace) hreading hkind
        dsimp only
        split
        · exact .one hhold
        · -- a line that need not wait is held and routed at once
          rw [← takeTerminal_turn s text status now now
            (.graceful text status now (now.millis + handoffGrace))]
          exact .next hhold (moves_takeTerminal now rfl hkind)

theorem moves_takeLine (raw : Bytes) (now : Instant) (hreading : s.reader = .reading) :
    Moves s (s.lineDeeds raw now) (s.takeLine raw now).1 := by
  have hreader : (s.absorb.sweep now).1.reader = .reading := by
    rw [sweep_eq]
    exact hreading
  rw [takeLine_fst, lineDeeds]
  have hruns : s.reader.isStopped = false := by
    rw [hreading]
    rfl
  exact .before (.absorb hruns (List.append_nil _).symm)
    ((moves_sweep s.absorb now).trans (moves_route (lineText raw) now hreader))

/-! ## Writing -/

theorem moves_take {s' : State} (h : s.take now = some s') : Moves s [] s' := by
  rw [take] at h
  split at h
  · rename_i r later hidle hqueue
    cases h
    exact .one (.start now hidle hqueue)
  · cases h

theorem moves_wrote {s' : State} {e : Event} (h : s.wrote = some (s', e)) :
    Moves s (s.deeds now .wrote) s' := by
  rw [wrote] at h
  split at h
  · rename_i r hwriting
    cases h
    rw [deeds_wrote hwriting]
    exact .one (.write hwriting)
  · cases h

theorem moves_handOff {s' : State} (h : s.handOff = some s') :
    Moves s (s.deeds now .handOff) s' := by
  rw [handOff] at h
  split at h
  · rename_i r hhanding
    rw [deeds_handOff hhanding]
    dsimp only at h
    split at h
    · rename_i hstopped
      cases h
      rw [if_pos hstopped]
      exact .one (.handLate nofun hhanding hstopped)
    · rename_i hrunning
      cases h
      rw [if_neg hrunning]
      exact .one (.hand hhanding (by simpa using hrunning))
  · cases h

theorem moves_writeFailed {s' : State} {fault : IoFault} {e : Event}
    (h : s.writeFailed fault = some (s', e)) : Moves s (s.deeds now (.writeFailed fault)) s' := by
  rw [writeFailed] at h
  split at h
  · rename_i r hwriting
    cases h
    rw [deeds_writeFailed fault hwriting]
    exact .one (.giveUp nofun hwriting)
  · cases h

/-- Failing several requests in turn leaves their results in reverse. -/
theorem foldl_resolve (l : List Request) (e : BridgeError) (s : State) :
    l.foldl (fun s r => s.resolve r (.error e)) s =
      { s with resolved := (l.map fun r => (r.ticket, .error e)).reverse ++ s.resolved } := by
  induction l generalizing s with
  | nil => rfl
  | cons r later ih =>
      rw [List.foldl_cons, ih]
      simp [resolve]

theorem moves_stopWriter {s' : State} {e : Event} (h : s.stopWriter = some (s', e)) :
    Moves s (s.deeds now .stopWriter) s' := by
  rw [stopWriter] at h
  split at h
  · cases h
  · rename_i hclosed
    have hclosed : s.closed = true := by simpa using hclosed
    have hstop : ∀ t : State, t.closed = true → t.writer = .idle →
        Moves t (t.queue.map (.refused · (.closed "serial multiplexer closed")))
          { t.drain with writer := .stopped } := by
      intro t hclosed hidle
      rw [drain, foldl_resolve]
      have hdrain := Move.drain t (e := .closed "serial multiplexer closed") nofun
      have hmoves := (Moves.one hdrain).trans (.one (.stopWriter hclosed hidle))
      rw [List.append_nil] at hmoves
      exact hmoves
    split at h
    · rename_i hidle
      cases h
      rw [deeds_stopWriter_idle hidle]
      exact hstop s hclosed hidle
    · rename_i r hwriting
      cases h
      rw [deeds_stopWriter_writing hwriting]
      have hrest := hstop ({ s with writer := .idle }.resolve r
        (.error (.closed "serial multiplexer closed during write"))) hclosed rfl
      rw [drain, foldl_resolve] at hrest ⊢
      have hgive := Move.giveUp (e := .closed "serial multiplexer closed during write") nofun
        hwriting
      exact (Moves.one hgive).trans hrest
    · cases h
    · cases h

/-! ## Reading -/

/-- Bytes that come or go change nothing else. -/
theorem moves_buffer (s : State) (buffer : Bytes) : Moves s [] { s with buffer } :=
  .one (.aside s s.waiting buffer s.reports s.rawLines s.counters.reports s.counters.rawLines)

theorem fst_of_some {p : State × List Event} {s' : State} {events : List Event}
    (h : some p = some (s', events)) : p.1 = s' :=
  congrArg Prod.fst (Option.some.inj h)

theorem moves_readLine {s' : State} {events : List Event}
    (h : s.readLine now = some (s', events)) : Moves s (s.deeds now .readLine) s' := by
  rw [readLine] at h
  split at h
  · rename_i line later hreading hwhole
    rw [← fst_of_some h, deeds_readLine hwhole]
    exact (moves_buffer s later).trans (moves_takeLine line now hreading)
  · cases h

theorem moves_readFailed {s' : State} {fault : IoFault} {e : Event}
    (h : s.readFailed fault now = some (s', e)) : Moves s [] s' := by
  rw [readFailed] at h
  split at h
  · rename_i hreading
    cases h
    refine (moves_buffer s []).trans (.one (.turn _ ?_ rfl))
    rw [hreading]
    rfl
  · cases h

theorem moves_readEnd {s' : State} {events : List Event}
    (h : s.readEnd now = some (s', events)) : Moves s (s.deeds now .readEnd) s' := by
  rw [readEnd] at h
  split at h
  · rename_i hreading hwhole hbuffer
    have hrest : Moves s [] { s with reader := .resting (now.millis + rest) } :=
      .one (.turn _ (by rw [hreading]; rfl) rfl)
    rw [← fst_of_some h, deeds_readEnd_nil hbuffer]
    exact hrest
  · rename_i hreading hwhole hbuffer
    rw [← fst_of_some h, deeds_readEnd hbuffer]
    exact (moves_buffer s []).trans (moves_takeLine s.buffer now hreading)
  · cases h

theorem moves_restEnds {s' : State} (h : s.restEnds = some s') : Moves s [] s' := by
  rw [restEnds] at h
  split at h
  · rename_i due hresting
    cases h
    refine .one (.turn _ ?_ rfl)
    rw [hresting]
    rfl
  · cases h

theorem moves_meetHanded {s' : State} {events : List Event} (hwaits : s.reader.Waits s.settings)
    (h : s.meetHanded now = some (s', events)) : Moves s (s.deeds now .meetHanded) s' := by
  rw [meetHanded] at h
  split at h
  · rename_i text status readAt due r later hgraceful hhandoff
    have hruns : s.reader.isStopped = false := by
      rw [hgraceful]
      rfl
    have habsorb : Move s [] { s with fifo := s.fifo ++ [r], handoff := later } :=
      .absorb hruns hhandoff
    rw [← fst_of_some h, deeds_meetHanded hgraceful hhandoff]
    exact .before habsorb (moves_takeTerminal now hgraceful (hwaits hgraceful))
  · cases h

theorem moves_graceEnds {s' : State} {events : List Event} (hwaits : s.reader.Waits s.settings)
    (h : s.graceEnds now = some (s', events)) : Moves s (s.deeds now .graceEnds) s' := by
  rw [graceEnds] at h
  split at h
  · rename_i text status readAt due hgraceful
    rw [← fst_of_some h, deeds_graceEnds hgraceful]
    exact moves_takeTerminal now hgraceful (hwaits hgraceful)
  · cases h

theorem moves_delayEnds {s' : State} (h : s.delayEnds = some s') : Moves s [] s' := by
  rw [delayEnds] at h
  split at h
  · rename_i r v due hdelaying
    cases h
    exact .one (.deliver hdelaying)
  · cases h

theorem moves_stopReader {s' : State} {e : Event} (h : s.stopReader = some (s', e)) :
    Moves s (s.deeds now .stopReader) s' := by
  have hstop : s.reader.isFree = true → s.closed = true →
      Moves s (s.deeds now .stopReader) { s.failAll with reader := .stopped } := by
    intro hfree hclosed
    rw [failAll, foldl_resolve, deeds_stopReader]
    have hturn : Move s [] { s with reader := .reading } := .turn _ hfree rfl
    have habsorb : Move { s with reader := .reading } []
        { s with reader := .reading, fifo := s.fifo ++ s.handoff, handoff := [] } :=
      .absorb rfl (List.append_nil _).symm
    exact .before hturn (.before habsorb (.one (.stopReader nofun hclosed rfl rfl)))
  rw [stopReader] at h
  split at h
  · rename_i hreading
    split at h
    · rename_i hclosed
      cases h
      exact hstop (by rw [hreading]; rfl) hclosed
    · cases h
  · rename_i due hresting
    split at h
    · rename_i hclosed
      cases h
      exact hstop (by rw [hresting]; rfl) hclosed
    · cases h
  · cases h

/-! ## Actions -/

theorem eq_some_of_map_nil {t : Option State} {s' : State} {events : List Event}
    (h : t.map (fun u ↦ (u, ([] : List Event))) = some (s', events)) : t = some s' := by
  obtain ⟨u, rfl, heq⟩ := Option.map_eq_some_iff.mp h
  cases heq
  rfl

theorem exists_of_map_singleton {t : Option (State × Event)} {s' : State} {events : List Event}
    (h : t.map (fun p ↦ (p.1, [p.2])) = some (s', events)) : ∃ e, t = some (s', e) := by
  obtain ⟨⟨u, e⟩, rfl, heq⟩ := Option.map_eq_some_iff.mp h
  cases heq
  exact ⟨e, rfl⟩

/-- An action is a sequence of moves that do what its deeds say. -/
theorem moves_step {s' : State} {a : Action} {events : List Event}
    (hwaits : s.reader.Waits s.settings) (h : s.step now a = some (s', events)) :
    Moves s (s.deeds now a) s' := by
  cases a with
  | enter o ticket =>
      rw [step] at h
      split at h
      · cases h
        exact (Moves.one (.aside s _ s.buffer s.reports s.rawLines s.counters.reports
          s.counters.rawLines)).trans (.one (.enqueue _ _))
      · cases h
  | lineUp ticket =>
      cases h
      exact .one (.aside s _ s.buffer s.reports s.rawLines s.counters.reports s.counters.rawLines)
  | leaveLine ticket =>
      cases h
      exact .one (.aside s _ s.buffer s.reports s.rawLines s.counters.reports s.counters.rawLines)
  | take => exact moves_take (eq_some_of_map_nil h)
  | wrote =>
      obtain ⟨e, h⟩ := exists_of_map_singleton h
      exact moves_wrote h
  | handOff => exact moves_handOff (eq_some_of_map_nil h)
  | writeFailed fault =>
      obtain ⟨e, h⟩ := exists_of_map_singleton h
      exact moves_writeFailed h
  | receive chunk =>
      cases h
      exact moves_buffer s _
  | readLine => exact moves_readLine h
  | readFailed fault =>
      obtain ⟨e, h⟩ := exists_of_map_singleton h
      exact moves_readFailed h
  | readEnd => exact moves_readEnd h
  | restEnds => exact moves_restEnds (eq_some_of_map_nil h)
  | meetHanded => exact moves_meetHanded hwaits h
  | graceEnds => exact moves_graceEnds hwaits h
  | delayEnds => exact moves_delayEnds (eq_some_of_map_nil h)
  | takeReports =>
      cases h
      exact .one (.aside s s.waiting s.buffer [] s.rawLines s.counters.reports s.counters.rawLines)
  | takeRaw =>
      cases h
      exact .one (.aside s s.waiting s.buffer s.reports [] s.counters.reports s.counters.rawLines)
  | close =>
      cases h
      exact .one (.close s)
  | stopWriter =>
      obtain ⟨e, h⟩ := exists_of_map_singleton h
      exact moves_stopWriter h
  | stopReader =>
      obtain ⟨e, h⟩ := exists_of_map_singleton h
      exact moves_stopReader h

end State

theorem Move.waits {h : History} {s s' : State} (m : Move s h s')
    (hwaits : s.reader.Waits s.settings) : s'.reader.Waits s'.settings := by
  cases m with
  | turn reader free free' =>
      rintro text status readAt due rfl
      cases free'
  | hold readAt due reading terminal =>
      intro text status readAt' due' heq
      cases heq
      exact terminal
  | miss | answer | deliver | stopReader => exact nofun
  | _ => exact hwaits

/-- The settings stay as they are. -/
theorem Moves.settings_eq {h : History} {s s' : State} (m : Moves s h s') :
    s'.settings = s.settings := by
  induction m with
  | done s => rfl
  | next first _ ih =>
      rw [ih]
      cases first <;> rfl

/-- What holds at the start and is kept by every move holds of every run. -/
theorem Run.keep {settings : Config.Mux} {P : History → State → Prop} (start : P [] (new settings))
    (each : ∀ {h s k s'}, P h s → Move s k s' → P (h ++ k) s') {h : History} {s : State}
    (run : Run settings h s) : P h s := by
  have hboth : s.reader.Waits s.settings ∧ P h s := by
    induction run with
    | start => exact ⟨nofun, start⟩
    | step _ taken ih =>
        have hkeep := Moves.keep (P := fun h s ↦ s.reader.Waits s.settings ∧ P h s)
          (fun hboth m ↦ ⟨m.waits hboth.1, each hboth.2 m⟩) (State.moves_step ih.1 taken)
        exact hkeep _ ih
  exact hboth.2

end BleBridge.Mux
