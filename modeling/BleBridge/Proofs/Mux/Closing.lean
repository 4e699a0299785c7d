import BleBridge.Bench.World
import BleBridge.Proofs.Mux.Balance
import BleBridge.Proofs.Mux.Deeds
import BleBridge.Proofs.Mux.Steps

/-!
# A multiplexer that closes

When the multiplexer closes, requests may be in five places: in the queue, on
their way out, in the handoff, in the FIFO and in the reader's hand.  Writer and
reader stop one after the other, in either order, each once it has nothing in its
hand that must be finished first.

The writer empties the queue as it stops and nobody may enter afterwards
(`State.Drained`), the reader empties the FIFO and the handoff as it stops, and a
request that is handed over later is failed by the writer.  Since requests get
lost nowhere (`Run.conserved`, `Run.places`), every request that entered the queue
is resolved once when both have stopped (`Run.once`).
-/

namespace BleBridge.Mux

namespace State

/-- Both the writer and the reader have stopped. -/
structure IsOver (s : State) : Prop where
  writer : s.writer = .stopped
  reader : s.reader = .stopped

/-- A writer that has stopped leaves nothing in the queue. -/
def Drained (s : State) : Prop := s.writer = .stopped → s.queue = []

variable {s s' : State} {now : Instant} {a : Action} {events : List Event}

theorem Drained.of_eq (d : Drained s) (hwriter : s'.writer = s.writer) (hqueue : s'.queue = s.queue) :
    Drained s' := by
  rw [Drained, hwriter, hqueue]
  exact d

theorem drained_of_ne (h : s.writer ≠ .stopped) : Drained s := fun hstopped ↦ absurd hstopped h

theorem Drained.does (d : Drained s) (hdoes : Does s now a s') : Drained s' := by
  cases hdoes with
  | enter room opened =>
      refine drained_of_ne fun hstopped ↦ ?_
      have hwriter : s.writer = .stopped := hstopped
      simp [isOpen, hwriter] at opened
  | take | wrote | handOff | handLate | writeFailed => exact drained_of_ne nofun
  | stopWriter | giveUp =>
      rw [drain, foldl_resolve]
      exact fun _ ↦ rfl
  | @readLine line later =>
      have haside := aside_takeLine { s with buffer := later } (line ++ [lineFeed]) now
      exact d.of_eq haside.writer haside.queue
  | readRest =>
      have haside := aside_takeLine { s with buffer := [] } s.buffer now
      exact d.of_eq haside.writer haside.queue
  | @meetHanded text status readAt due r later =>
      have haside := aside_takeTerminal { s with fifo := s.fifo ++ [r], handoff := later } text
        status readAt now
      exact d.of_eq haside.writer haside.queue
  | @graceEnds text status readAt due =>
      have haside := aside_takeTerminal s text status readAt now
      exact d.of_eq haside.writer haside.queue
  | stopReader =>
      rw [failAll, foldl_resolve]
      exact d
  | lineUp | leaveLine | receive | readFailed | readEnd | restEnds | delayEnds | takeReports
  | takeRaw | close => exact d

/-! ## Nothing more happens -/

/-- Writer and reader take no more part, and callers are not let in. -/
theorem IsOver.does (o : s.IsOver) (hdoes : Does s now a s') :
    s'.IsOver ∧ s.deeds now a = [] ∧ s'.resolved = s.resolved ∧
      s'.counters.written = s.counters.written := by
  obtain ⟨writer, reader⟩ := o
  cases hdoes with
  | lineUp | leaveLine | receive | takeReports | takeRaw | close =>
      exact ⟨⟨writer, reader⟩, rfl, rfl, rfl⟩
  | enter room opened => simp [isOpen, writer] at opened
  | take idle | stopWriter closed idle =>
      rw [writer] at idle
      cases idle
  | wrote writing | writeFailed writing | giveUp closed writing =>
      rw [writer] at writing
      cases writing
  | handOff handing | handLate handing =>
      rw [writer] at handing
      cases handing
  | readLine reading | readFailed reading | readEnd reading | readRest reading =>
      rw [reader] at reading
      cases reading
  | restEnds resting =>
      rw [reader] at resting
      cases resting
  | meetHanded graceful | graceEnds graceful =>
      rw [reader] at graceful
      cases graceful
  | delayEnds delaying =>
      rw [reader] at delaying
      cases delaying
  | stopReader closed free =>
      rw [reader] at free
      cases free

theorem IsOver.follow {h h' : History} {actions : Schedule} (o : s.IsOver)
    (hfollow : s.follow h actions = some (h', s')) :
    s'.IsOver ∧ h' = h ∧ s'.resolved = s.resolved ∧ s'.counters.written = s.counters.written := by
  induction actions generalizing h s with
  | nil =>
      cases hfollow
      exact ⟨o, rfl, rfl, rfl⟩
  | cons timed later ih =>
      obtain ⟨now, a⟩ := timed
      rw [State.follow] at hfollow
      split at hfollow
      · rename_i t events htaken
        obtain ⟨hover, hdeeds, hresolved, hwritten⟩ := o.does (does_of_step htaken)
        rw [hdeeds, List.append_nil] at hfollow
        obtain ⟨hover', hsame, hresolved', hwritten'⟩ := ih hover hfollow
        exact ⟨hover', hsame, hresolved'.trans hresolved, hwritten'.trans hwritten⟩
      · cases hfollow

end State

/-! ## Coming to an end -/

/-- The actions of the writer and the reader. -/
def Action.isTask : Action → Bool
  | .take | .wrote | .handOff | .writeFailed _ | .readLine | .readFailed _ | .readEnd | .restEnds
  | .meetHanded | .graceEnds | .delayEnds | .stopWriter | .stopReader => true
  | _ => false

namespace State

/-- Writer and reader can go on until both have stopped. -/
def Stops (h : History) (s : State) : Prop :=
  ∃ actions h' s', (∀ timed ∈ actions, timed.2.isTask) ∧
    s.follow h actions = some (h', s') ∧ s'.IsOver

variable {s s' : State} {now : Instant} {a : Action} {events : List Event} {h : History}

theorem stops_of_isOver (o : s.IsOver) : Stops h s := ⟨[], h, s, nofun, rfl, o⟩

theorem Stops.before (htask : a.isTask) (htaken : s.step now a = some (s', events))
    (hstops : Stops (h ++ s.deeds now a) s') : Stops h s := by
  obtain ⟨actions, h', s'', htasks, hfollow, hover⟩ := hstops
  refine ⟨(now, a) :: actions, h', s'', fun timed htimed ↦ ?_, ?_, hover⟩
  · rcases List.mem_cons.mp htimed with rfl | htimed
    · exact htask
    · exact htasks timed htimed
  · rw [State.follow, htaken]
    exact hfollow

theorem stops_of_free (hwriter : s.writer = .stopped) (hclosed : s.closed = true)
    (hfree : s.reader.isFree = true) : Stops h s := by
  have htaken : s.step 0 .stopReader = some ({ s.failAll with reader := .stopped },
      [.debug source "reader stopped"]) := by
    rw [State.step, State.stopReader, hclosed]
    cases hreader : s.reader with
    | reading | resting => rfl
    | graceful | delaying | stopped =>
        rw [hreader] at hfree
        cases hfree
  refine .before rfl htaken (stops_of_isOver ⟨?_, rfl⟩)
  rw [failAll, foldl_resolve]
  exact hwriter

theorem stops_of_delaying {r : Request} {v : Except Fault String} {due : Millis}
    (hwriter : s.writer = .stopped) (hclosed : s.closed = true)
    (hdelaying : s.reader = .delaying r v due) : Stops h s := by
  have htaken : s.step 0 .delayEnds = some (s.deliver r v, []) := by
    rw [State.step, State.delayEnds, hdelaying]
    rfl
  have hrest : ∀ k, Stops k (s.deliver r v) := fun k ↦ stops_of_free hwriter hclosed rfl
  exact .before rfl htaken (hrest _)

theorem stops_of_graceful {text : String} {status : Modem.Status} {readAt : Instant} {due : Millis}
    (hwriter : s.writer = .stopped) (hclosed : s.closed = true)
    (hgraceful : s.reader = .graceful text status readAt due) : Stops h s := by
  have htaken : s.step 0 .graceEnds = some (s.takeTerminal text status readAt 0) := by
    rw [State.step, State.graceEnds, hgraceful]
  have haside := aside_takeTerminal s text status readAt 0
  have hreader := reader_takeTerminal s text status readAt 0
  generalize s.takeTerminal text status readAt 0 = result at htaken haside hreader
  have hwriter' := haside.writer.trans hwriter
  have hclosed' := haside.closed.trans hclosed
  refine .before rfl htaken ?_
  rcases hreader with hreading | ⟨r, v, due, hdelaying⟩
  · exact stops_of_free hwriter' hclosed' (by rw [hreading]; rfl)
  · exact stops_of_delaying hwriter' hclosed' hdelaying

/-- Behind the writer the reader stops, once it has finished what is in its hand. -/
theorem stops_of_stopped (hwriter : s.writer = .stopped) (hclosed : s.closed = true) :
    Stops h s := by
  cases hreader : s.reader with
  | reading | resting => exact stops_of_free hwriter hclosed (by rw [hreader]; rfl)
  | graceful => exact stops_of_graceful hwriter hclosed hreader
  | delaying => exact stops_of_delaying hwriter hclosed hreader
  | stopped => exact stops_of_isOver ⟨hwriter, hreader⟩

theorem stops_of_idle (hidle : s.writer = .idle) (hclosed : s.closed = true) : Stops h s := by
  have htaken : s.step 0 .stopWriter = some ({ s.drain with writer := .stopped },
      [.debug source "writer stopped"]) := by
    rw [State.step, State.stopWriter, hclosed, hidle]
    rfl
  refine .before rfl htaken (stops_of_stopped rfl ?_)
  rw [drain, foldl_resolve]
  exact hclosed

/-- The writer stops, once it has handed over what it has written. -/
theorem stops_of_closed (hclosed : s.closed = true) : Stops h s := by
  cases hwriter : s.writer with
  | idle => exact stops_of_idle hwriter hclosed
  | writing r =>
      have htaken : s.step 0 .stopWriter = some
          ({ (s.resolve r (.error (.closed "serial multiplexer closed during write"))).drain with
            writer := .stopped }, [.debug source "writer stopped"]) := by
        rw [State.step, State.stopWriter, hclosed, hwriter]
        rfl
      refine .before rfl htaken (stops_of_stopped rfl ?_)
      rw [drain, foldl_resolve]
      exact hclosed
  | handing r =>
      by_cases hstopped : s.reader.isStopped
      · have htaken : s.step 0 .handOff = some
            ({ s with writer := .idle }.resolve r (.error (.closed "serial reader stopped")), []) := by
          rw [State.step, State.handOff, hwriter]
          dsimp only
          rw [if_pos hstopped]
          rfl
        exact .before rfl htaken (stops_of_idle rfl hclosed)
      · have htaken : s.step 0 .handOff = some
            ({ s with writer := .idle, handoff := s.handoff ++ [r] }, []) := by
          rw [State.step, State.handOff, hwriter]
          dsimp only
          rw [if_neg hstopped]
          rfl
        exact .before rfl htaken (stops_of_idle rfl hclosed)
  | stopped => exact stops_of_stopped hwriter hclosed

end State

/-! ## Callers who come late -/

/-- A closed multiplexer turns callers away. -/
theorem look_enqueue_of_closed {w : Bench.World} {o : Order} (hclosed : w.mux.closed = true)
    (hcommand : o.command ≠ []) : w.look (.enqueue o) = (w, .answer (.error closedError)) := by
  have hrefusal : w.mux.refusal o = some closedError := by
    rw [State.refusal, if_neg (by simpa using hcommand), if_pos hclosed]
  change w.seek o = _
  rw [Bench.World.seek, hrefusal]

theorem lookAgain_of_stopped {w : Bench.World} (o : Order) (ticket left : Nat) (due : Millis)
    (hstopped : w.mux.writer = .stopped) :
    (w.lookAgain (.admission ticket left due : Bench.Wait (.enqueue o))).2 =
      .answer (.error closedError) := by
  have hopen : w.mux.isOpen = false := by
    rw [State.isOpen, hstopped]
    rfl
  have hseek : w.seekRoom o ticket due left =
      (w.perform (.leaveLine ticket), .answer (.error closedError)) := by
    rw [Bench.World.seekRoom.eq_def]
    simp [hopen]
  rw [Bench.World.lookAgain, hseek]

/-! ## Every request is resolved -/

/-- A multiplexer that is over has resolved every request, and is of no more use. -/
structure Released (h : History) (s : State) : Prop where
  /-- Each request that entered the queue is resolved once. -/
  once : (s.resolved.map Prod.fst).Perm (h.admitted.map Request.ticket)
  /-- What was not resolved by a terminal line, a sweep or a write error was closed. -/
  results : ∀ {ticket result}, (ticket, result) ∈ s.resolved →
    (∃ r line status reply, .answered r line status reply ∈ h ∧ r.ticket = ticket ∧
      result = bridged (verdict status reply)) ∨
    (∃ r, .expired r ∈ h ∧ (ticket, result) = expiry r) ∨
    (∃ reason, result = .error (.write reason)) ∨ ∃ reason, result = .error (.closed reason)
  /-- Nothing more is written or resolved. -/
  final : ∀ {actions h' s'}, s.follow h actions = some (h', s') →
    h' = h ∧ s'.resolved = s.resolved ∧ s'.counters.written = s.counters.written
  /-- Whoever comes now is turned away, and leaves everything as it is. -/
  refused : ∀ {actions h' s'}, s.follow h actions = some (h', s') →
    ∀ (w : Bench.World) (o : Order), w.mux = s' → o.command ≠ [] →
      w.look (.enqueue o) = (w, .answer (.error closedError))
  /-- Whoever waits for room is turned away as well. -/
  unlined : ∀ {actions h' s'}, s.follow h actions = some (h', s') →
    ∀ (w : Bench.World) (o : Order) (ticket left : Nat) (due : Millis), w.mux = s' →
      (w.lookAgain (.admission ticket left due : Bench.Wait (.enqueue o))).2 =
        .answer (.error closedError)

namespace Run

variable {settings : Config.Mux} {h : History} {s : State}

theorem drained (run : Run settings h s) : s.Drained := by
  induction run with
  | start => exact nofun
  | step _ taken ih => exact ih.does (State.does_of_step taken)

theorem closed_of_isOver (run : Run settings h s) (o : s.IsOver) : s.closed = true := by
  cases hclosed : s.closed with
  | true => rfl
  | false =>
      have hruns := run.orderly.running hclosed
      rw [o.reader] at hruns
      cases hruns

/-- With nothing left in any place, the requests that were resolved are those that came. -/
theorem once (run : Run settings h s) (o : s.IsOver) :
    (s.resolved.map Prod.fst).Perm (h.admitted.map Request.ticket) := by
  obtain ⟨hfifo, hhandoff⟩ := run.orderly.stopped (by rw [o.reader]; rfl)
  have hplaces := run.places
  have hconserved := run.conserved
  rw [o.reader, o.writer, hfifo, hhandoff] at hplaces
  rw [Conserved, o.writer, run.drained o.writer] at hconserved
  simp only [outgoing_stopped, List.append_nil] at hconserved
  simp only [inHand_stopped, handed_stopped, List.map_nil, List.append_nil] at hplaces
  exact hplaces.symm.trans hconserved

theorem results (run : Run settings h s) {ticket : Nat} {result : Except BridgeError String}
    (hmem : (ticket, result) ∈ s.resolved) :
    (∃ r line status reply, .answered r line status reply ∈ h ∧ r.ticket = ticket ∧
      result = bridged (verdict status reply)) ∨
    (∃ r, .expired r ∈ h ∧ (ticket, result) = expiry r) ∨
    (∃ reason, result = .error (.write reason)) ∨ ∃ reason, result = .error (.closed reason) := by
  have houtcomes : (ticket, result) ∈ h.outcomes :=
    run.settled.subset (List.mem_append_left _ hmem)
  obtain ⟨d, hd, houtcome⟩ := List.mem_filterMap.mp houtcomes
  have hproper := run.proper d hd
  cases d with
  | answered r line status reply =>
      cases houtcome
      exact .inl ⟨r, line, status, reply, hd, rfl, rfl⟩
  | expired r => exact .inr (.inl ⟨r, hd, (Option.some.inj houtcome).symm⟩)
  | refused r e =>
      cases houtcome
      rcases hproper with ⟨reason, rfl⟩ | ⟨reason, rfl⟩
      · exact .inr (.inr (.inl ⟨reason, rfl⟩))
      · exact .inr (.inr (.inr ⟨reason, rfl⟩))
  | abandoned r e =>
      cases houtcome
      obtain ⟨reason, rfl⟩ := hproper
      exact .inr (.inr (.inr ⟨reason, rfl⟩))
  | admitted | wrote | heard | arrived | missed => cases houtcome

theorem released_of_isOver (run : Run settings h s) (o : s.IsOver) : Released h s :=
  { once := run.once o
    results := run.results
    final := fun hfollow ↦ (o.follow hfollow).2
    refused := fun {_ h' _} hfollow w order hmux hcommand ↦ by
      have hclosed := (run.follow hfollow).closed_of_isOver (o.follow hfollow).1
      exact look_enqueue_of_closed (hmux ▸ hclosed) hcommand
    unlined := fun hfollow w order ticket left due hmux ↦ by
      have hstopped := (o.follow hfollow).1.writer
      exact lookAgain_of_stopped order ticket left due (hmux ▸ hstopped) }

/-- Once a multiplexer is closed, writer and reader come to an end, and whatever happens until then,
no request is left behind. -/
theorem released (run : Run settings h s) (hclosed : s.closed = true) :
    s.Stops h ∧ ∀ {actions h' s'}, s.follow h actions = some (h', s') → s'.IsOver →
      Released h' s' :=
  ⟨State.stops_of_closed hclosed, fun hfollow o ↦ (run.follow hfollow).released_of_isOver o⟩

/-- When the multiplexer closes, a request is in each of the five places. -/
theorem released_of_each_place : ∃ h s h' s', Run {} h s ∧ s.closed = true ∧
    (s.queue.length = 1 ∧ s.writer.outgoing.length = 1 ∧ s.handoff.length = 1 ∧
      s.fifo.length = 1 ∧ s.reader.inHand.length = 1) ∧
    s.follow h [(20, .stopWriter), (21, .delayEnds), (22, .stopReader)] = some (h', s') ∧
    s'.IsOver ∧ s'.resolved.map Prod.fst = [2, 1, 0, 4, 3] ∧ s.Stops h ∧ Released h' s' := by
  have hrun : (State.follow [] (new {})
      [(0, .enter ⟨Text.bytes "AT+A\r\n", 50, 5, 100⟩ 0), (1, .take), (2, .wrote), (3, .handOff),
        (4, .enter ⟨Text.bytes "AT+B\r\n", 50, 0, 100⟩ 1), (5, .take), (6, .wrote), (7, .handOff),
        (8, .receive (Text.bytes "OK\r\n")), (9, .readLine),
        (10, .enter ⟨Text.bytes "AT+C\r\n", 50, 0, 100⟩ 2), (11, .take), (12, .wrote),
        (13, .handOff), (14, .enter ⟨Text.bytes "AT+D\r\n", 50, 0, 100⟩ 3), (15, .take),
        (16, .enter ⟨Text.bytes "AT+E\r\n", 50, 0, 100⟩ 4), (17, .close)]).any (fun (h, s) ↦
          (s.closed = true ∧ s.queue.length = 1 ∧ s.writer.outgoing.length = 1 ∧
            s.handoff.length = 1 ∧ s.fifo.length = 1 ∧ s.reader.inHand.length = 1) ∧
          (s.follow h [(20, .stopWriter), (21, .delayEnds), (22, .stopReader)]).any (fun (_, s') ↦
            s'.writer = .stopped ∧ s'.reader.isStopped = true ∧
              s'.resolved.map Prod.fst = [2, 1, 0, 4, 3])) = true := by
    decide +kernel
  obtain ⟨⟨h, s⟩, hfollow, hfacts⟩ := (Option.any_eq_true _ _).mp hrun
  obtain ⟨⟨hclosed, hplaces⟩, hrest⟩ := of_decide_eq_true hfacts
  obtain ⟨⟨h', s'⟩, hfollow', hfacts'⟩ := (Option.any_eq_true _ _).mp hrest
  obtain ⟨hwriter, hreader, hresolved⟩ := of_decide_eq_true hfacts'
  have run : Run {} h s := .follow .start hfollow
  have hover : s'.IsOver := by
    refine ⟨hwriter, ?_⟩
    cases hkind : s'.reader with
    | stopped => rfl
    | reading | resting | graceful | delaying =>
        rw [hkind] at hreader
        cases hreader
  obtain ⟨hstops, hreleased⟩ := run.released hclosed
  exact ⟨h, s, h', s', run, hclosed, hplaces, hfollow', hover, hresolved, hstops,
    hreleased hfollow' hover⟩

end Run

end BleBridge.Mux
