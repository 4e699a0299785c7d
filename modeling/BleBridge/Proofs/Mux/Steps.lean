import BleBridge.Proofs.Mux.Exchange

/-!
# What an action does

`State.Does` lists the outcomes of the actions with the conditions under which they
happen.  An invariant that a sequence of moves does not show, since it is about the
writer's queue or about the bytes, is checked for these outcomes.
-/

namespace BleBridge.Mux

namespace State

/-- What an action that happens at `now` makes of the state. -/
inductive Does (s : State) (now : Instant) : Action → State → Prop where
  | enter {o : Order} {ticket : Nat} (room : s.mayEnter ticket = true) (opened : s.isOpen = true) :
      Does s now (.enter o ticket) (s.enter o ticket now)
  | lineUp (ticket : Nat) : Does s now (.lineUp ticket) (s.lineUp ticket)
  | leaveLine (ticket : Nat) : Does s now (.leaveLine ticket) (s.leaveLine ticket)
  | take {r : Request} {later : List Request} (idle : s.writer = .idle)
      (queue : s.queue = r :: later) :
      Does s now .take { s with queue := later, writer := .writing { r with writtenAt := now } }
  | wrote {r : Request} (writing : s.writer = .writing r) :
      Does s now .wrote
        { s with
          writer := .handing r
          counters := { s.counters with written := s.counters.written + 1 } }
  | handOff {r : Request} (handing : s.writer = .handing r) (runs : s.reader.isStopped = false) :
      Does s now .handOff { s with writer := .idle, handoff := s.handoff ++ [r] }
  /-- Nobody takes the request. -/
  | handLate {r : Request} (handing : s.writer = .handing r) (stopped : s.reader.isStopped = true) :
      Does s now .handOff
        ({ s with writer := .idle }.resolve r (.error (.closed "serial reader stopped")))
  | writeFailed {r : Request} {fault : IoFault} (writing : s.writer = .writing r) :
      Does s now (.writeFailed fault)
        ({ s with writer := .idle }.resolve r (.error (.write fault.message)))
  | receive (chunk : Bytes) : Does s now (.receive chunk) (s.receive chunk)
  | readLine {line later : Bytes} (reading : s.reader = .reading) (feedless : lineFeed ∉ line)
      (whole : s.buffer = line ++ [lineFeed] ++ later) :
      Does s now .readLine ({ s with buffer := later }.takeLine (line ++ [lineFeed]) now).1
  | readFailed {fault : IoFault} (reading : s.reader = .reading) :
      Does s now (.readFailed fault)
        { s with buffer := [], reader := .resting (now.millis + rest) }
  | readEnd (reading : s.reader = .reading) (buffer : s.buffer = []) :
      Does s now .readEnd { s with reader := .resting (now.millis + rest) }
  /-- The stream ends within a line. -/
  | readRest (reading : s.reader = .reading) (feedless : lineFeed ∉ s.buffer)
      (left : s.buffer ≠ []) : Does s now .readEnd ({ s with buffer := [] }.takeLine s.buffer now).1
  | restEnds {due : Millis} (resting : s.reader = .resting due) :
      Does s now .restEnds { s with reader := .reading }
  | meetHanded {text : String} {status : Modem.Status} {readAt : Instant} {due : Millis}
      {r : Request} {later : List Request} (graceful : s.reader = .graceful text status readAt due)
      (handoff : s.handoff = r :: later) :
      Does s now .meetHanded
        ({ s with fifo := s.fifo ++ [r], handoff := later }.takeTerminal text status readAt now).1
  | graceEnds {text : String} {status : Modem.Status} {readAt : Instant} {due : Millis}
      (graceful : s.reader = .graceful text status readAt due) :
      Does s now .graceEnds (s.takeTerminal text status readAt now).1
  | delayEnds {r : Request} {v : Except Fault String} {due : Millis}
      (delaying : s.reader = .delaying r v due) : Does s now .delayEnds (s.deliver r v)
  | takeReports : Does s now .takeReports { s with reports := [] }
  | takeRaw : Does s now .takeRaw { s with rawLines := [] }
  | close : Does s now .close { s with closed := true }
  | stopWriter (closed : s.closed = true) (idle : s.writer = .idle) :
      Does s now .stopWriter { s.drain with writer := .stopped }
  /-- The writer stops while a command is going out. -/
  | giveUp {r : Request} (closed : s.closed = true) (writing : s.writer = .writing r) :
      Does s now .stopWriter
        { (s.resolve r (.error (.closed "serial multiplexer closed during write"))).drain with
          writer := .stopped }
  | stopReader (closed : s.closed = true) (free : s.reader.isFree = true) :
      Does s now .stopReader { s.failAll with reader := .stopped }

variable {s s' : State} {now : Instant} {a : Action} {events : List Event}

theorem does_handOff (h : s.handOff = some s') : Does s now .handOff s' := by
  rw [State.handOff] at h
  split at h
  · rename_i r hhanding
    dsimp only at h
    split at h
    · rename_i hstopped
      cases h
      exact .handLate hhanding hstopped
    · rename_i hruns
      cases h
      exact .handOff hhanding (by simpa using hruns)
  · cases h

theorem does_readLine (h : s.readLine now = some (s', events)) : Does s now .readLine s' := by
  rw [State.readLine] at h
  split at h
  · rename_i raw later hreading hwhole
    obtain ⟨line, rfl, hfeed, hbuffer⟩ := exists_of_wholeLine hwhole
    rw [← fst_of_some h]
    exact .readLine hreading hfeed hbuffer
  · cases h

theorem does_readEnd (h : s.readEnd now = some (s', events)) : Does s now .readEnd s' := by
  rw [State.readEnd] at h
  split at h
  · rename_i hreading hwhole hbuffer
    cases h
    exact .readEnd hreading hbuffer
  · rename_i hreading hwhole hbuffer
    rw [← fst_of_some h]
    exact .readRest hreading (wholeLine_eq_none_iff.mp hwhole) hbuffer
  · cases h

theorem does_stopWriter {e : Event} (h : s.stopWriter = some (s', e)) :
    Does s now .stopWriter s' := by
  rw [State.stopWriter] at h
  split at h
  · cases h
  · rename_i hclosed
    have hclosed : s.closed = true := by simpa using hclosed
    split at h
    · rename_i hidle
      cases h
      exact .stopWriter hclosed hidle
    · rename_i r hwriting
      cases h
      exact .giveUp hclosed hwriting
    · cases h
    · cases h

theorem does_stopReader {e : Event} (h : s.stopReader = some (s', e)) :
    Does s now .stopReader s' := by
  rw [State.stopReader] at h
  split at h
  · rename_i hreading
    split at h
    · rename_i hclosed
      cases h
      exact .stopReader hclosed (by rw [hreading]; rfl)
    · cases h
  · rename_i due hresting
    split at h
    · rename_i hclosed
      cases h
      exact .stopReader hclosed (by rw [hresting]; rfl)
    · cases h
  · cases h

theorem does_of_step (h : s.step now a = some (s', events)) : Does s now a s' := by
  cases a with
  | enter o ticket =>
      rw [step] at h
      split at h
      · rename_i hmay
        obtain ⟨hroom, hopen⟩ := by simpa using hmay
        cases h
        exact .enter hroom hopen
      · cases h
  | lineUp ticket =>
      cases h
      exact .lineUp ticket
  | leaveLine ticket =>
      cases h
      exact .leaveLine ticket
  | take =>
      have htaken : s.take now = some s' := eq_some_of_map_nil h
      rw [State.take] at htaken
      split at htaken
      · cases htaken
        exact .take ‹_› ‹_›
      · cases htaken
  | wrote =>
      obtain ⟨e, htaken⟩ := exists_of_map_singleton h
      rw [State.wrote] at htaken
      split at htaken
      · cases htaken
        exact .wrote ‹_›
      · cases htaken
  | handOff => exact does_handOff (eq_some_of_map_nil h)
  | writeFailed fault =>
      obtain ⟨e, htaken⟩ := exists_of_map_singleton h
      rw [State.writeFailed] at htaken
      split at htaken
      · cases htaken
        exact .writeFailed ‹_›
      · cases htaken
  | receive chunk =>
      cases h
      exact .receive chunk
  | readLine => exact does_readLine h
  | readFailed fault =>
      obtain ⟨e, htaken⟩ := exists_of_map_singleton h
      rw [State.readFailed] at htaken
      split at htaken
      · cases htaken
        exact .readFailed ‹_›
      · cases htaken
  | readEnd => exact does_readEnd h
  | restEnds =>
      have htaken : s.restEnds = some s' := eq_some_of_map_nil h
      rw [State.restEnds] at htaken
      split at htaken
      · cases htaken
        exact .restEnds ‹_›
      · cases htaken
  | meetHanded =>
      have htaken : s.meetHanded now = some (s', events) := h
      rw [State.meetHanded] at htaken
      split at htaken
      · rw [← fst_of_some htaken]
        exact .meetHanded ‹_› ‹_›
      · cases htaken
  | graceEnds =>
      have htaken : s.graceEnds now = some (s', events) := h
      rw [State.graceEnds] at htaken
      split at htaken
      · rw [← fst_of_some htaken]
        exact .graceEnds ‹_›
      · cases htaken
  | delayEnds =>
      have htaken : s.delayEnds = some s' := eq_some_of_map_nil h
      rw [State.delayEnds] at htaken
      split at htaken
      · cases htaken
        exact .delayEnds ‹_›
      · cases htaken
  | takeReports =>
      cases h
      exact .takeReports
  | takeRaw =>
      cases h
      exact .takeRaw
  | close =>
      cases h
      exact .close
  | stopWriter =>
      obtain ⟨e, htaken⟩ := exists_of_map_singleton h
      exact does_stopWriter htaken
  | stopReader =>
      obtain ⟨e, htaken⟩ := exists_of_map_singleton h
      exact does_stopReader htaken

end State

end BleBridge.Mux
