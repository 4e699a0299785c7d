import BleBridge.Proofs.Mux.Balance
import BleBridge.Proofs.Mux.Steps
import Mathlib.Logic.Relation

/-!
# What the consumers get

Reports and raw lines go to their consumers whatever the requests do.  What the
consumers get is told by a pass over the bytes that came: cut them into lines, keep
the lines that count, and take the segments of the reports on the one side and the
lines that are neither reports nor terminal on the other (`commandsIn`, `rawsIn`).

A `Session` is a multiplexer together with the bytes that came and with what was
given to the consumers.  At any time what was given, what waits to be taken, and
what the unread bytes will bring make up the pass over all bytes (`Session.Routed`),
so two sessions with the same bytes cannot tell the consumers different things.
-/

namespace BleBridge.Mux

/-! ## A pass over the bytes -/

/-- The whole lines among the bytes, without their line feeds. -/
def wholeLines (bytes : Bytes) : List Bytes := (bytes.splitOn lineFeed).dropLast

section Pass

variable (settings : Config.Mux)

/-- A line counts if there is something on it that is not to be ignored. -/
def isHeeded (text : String) : Bool := text ≠ "" && !isIgnored settings text

def carriesMarker (text : String) : Bool :=
  settings.marker ≠ "" && Text.contains text settings.marker

/-- The segments of the reports among lines. -/
def reportsAmong (texts : List String) : List String :=
  ((texts.filter (isHeeded settings)).filter (carriesMarker settings)).flatMap
    (Modem.splitReport · settings.marker)

/-- The lines that are neither reports nor terminal. -/
def rawsAmong (texts : List String) : List String :=
  (texts.filter (isHeeded settings)).filter fun text ↦
    !carriesMarker settings text && (Modem.terminalStatus text).isNone

/-- What the bytes bring to the command consumer. -/
def commandsIn (bytes : Bytes) : List String :=
  reportsAmong settings ((wholeLines bytes).map lineText)

/-- What the bytes bring to the raw consumer. -/
def rawsIn (bytes : Bytes) : List String :=
  rawsAmong settings ((wholeLines bytes).map lineText)

@[simp] theorem reportsAmong_nil : reportsAmong settings [] = [] := rfl

@[simp] theorem rawsAmong_nil : rawsAmong settings [] = [] := rfl

@[simp] theorem reportsAmong_append (texts texts' : List String) :
    reportsAmong settings (texts ++ texts') =
      reportsAmong settings texts ++ reportsAmong settings texts' := by
  simp [reportsAmong]

@[simp] theorem rawsAmong_append (texts texts' : List String) :
    rawsAmong settings (texts ++ texts') =
      rawsAmong settings texts ++ rawsAmong settings texts' := by
  simp [rawsAmong]

variable {settings}

/-- Whole lines in front are the first of the lines. -/
theorem wholeLines_stream_append {lines : List Bytes} (hfeed : ∀ line ∈ lines, lineFeed ∉ line)
    (bytes : Bytes) : wholeLines (stream lines ++ bytes) = lines ++ wholeLines bytes := by
  induction lines with
  | nil => rfl
  | cons line later ih =>
      have hline : ∀ b ∈ line, (b == lineFeed) = false := fun b hb ↦ by
        have hne : b ≠ lineFeed := fun heq ↦ hfeed line List.mem_cons_self (heq ▸ hb)
        simpa using hne
      have hbytes : stream (line :: later) ++ bytes = line ++ lineFeed :: (stream later ++ bytes) := by
        simp [stream]
      have hcut : (line ++ lineFeed :: (stream later ++ bytes)).splitOn lineFeed =
          line :: (stream later ++ bytes).splitOn lineFeed :=
        List.splitOnP_append_cons_of_forall_mem hline lineFeed rfl _
      have hlater := ih fun l hl ↦ hfeed l (List.mem_cons_of_mem _ hl)
      rw [wholeLines] at hlater
      rw [wholeLines, hbytes, hcut, List.dropLast_cons_of_ne_nil (List.splitOn_ne_nil _ _), hlater]
      rfl

theorem wholeLines_of_feedless {bytes : Bytes} (hfeed : lineFeed ∉ bytes) :
    wholeLines bytes = [] := by
  have hbytes : ∀ b ∈ bytes, (b == lineFeed) = false := fun b hb ↦ by
    have hne : b ≠ lineFeed := fun heq ↦ hfeed (heq ▸ hb)
    simpa using hne
  have hcut : bytes.splitOn lineFeed = [bytes] := List.splitOnP_eq_singleton hbytes
  rw [wholeLines, hcut]
  rfl

end Pass

/-! ## What a line brings -/

/-- The actions of the callers and the writer, and the ends of the reader's waits. -/
def Action.isInner : Action → Bool
  | .receive _ | .readLine | .readFailed _ | .readEnd | .takeReports | .takeRaw | .close => false
  | _ => true

namespace State

variable {s s' : State} {now : Instant}

/-- A line leaves the consumers what it brings, whatever becomes of the requests. -/
theorem consumers_route (s : State) (text : String) (now : Instant) :
    (s.route text now).reports = s.reports ++ reportsAmong s.settings [text] ∧
      (s.route text now).rawLines = s.rawLines ++ rawsAmong s.settings [text] := by
  rw [route]
  split
  · rename_i hskipped
    have hheeded : isHeeded s.settings text = false := by
      rw [isHeeded]
      by_cases hempty : text = ""
      · simp [hempty]
      · simpa [hempty] using hskipped
    simp [reportsAmong, rawsAmong, hheeded]
  · rename_i hroutes
    have hheeded : isHeeded s.settings text = true := by
      simpa [isHeeded] using hroutes
    by_cases hcarries : carriesMarker s.settings text = true
    · have hkind : Modem.classifyLine text s.settings.marker =
          .report (Modem.splitReport text s.settings.marker) :=
        if_pos (by simpa [carriesMarker] using hcarries)
      rw [hkind]
      simp [reportsAmong, rawsAmong, hheeded, hcarries, takeReport]
    · have hunmarked : ¬(s.settings.marker ≠ "" ∧ Text.contains text s.settings.marker = true) := by
        simpa [carriesMarker] using hcarries
      cases hstatus : Modem.terminalStatus text with
      | none =>
          have hkind : Modem.classifyLine text s.settings.marker = .raw := by
            rw [Modem.classifyLine, if_neg hunmarked, hstatus]
          rw [hkind]
          simp [reportsAmong, rawsAmong, hheeded, hcarries, hstatus, takeRaw]
      | some status =>
          have hkind : Modem.classifyLine text s.settings.marker = .terminal status := by
            rw [Modem.classifyLine, if_neg hunmarked, hstatus]
          have hnothing : reportsAmong s.settings [text] = [] ∧ rawsAmong s.settings [text] = [] := by
            simp [reportsAmong, rawsAmong, hheeded, hcarries, hstatus]
          rw [hkind, hnothing.1, hnothing.2, List.append_nil, List.append_nil]
          dsimp only
          split
          · exact ⟨rfl, rfl⟩
          · rw [takeTerminal_eq]
            exact ⟨rfl, rfl⟩

theorem consumers_takeLine (s : State) (raw : Bytes) (now : Instant) :
    (s.takeLine raw now).1.reports = s.reports ++ reportsAmong s.settings [lineText raw] ∧
      (s.takeLine raw now).1.rawLines = s.rawLines ++ rawsAmong s.settings [lineText raw] := by
  have hroute := consumers_route (s.absorb.sweep now).1 (lineText raw) now
  rw [takeLine_fst]
  rw [sweep_eq] at hroute ⊢
  exact hroute

/-- Nothing that is bound for a consumer has changed. -/
structure Unheard (s s' : State) : Prop where
  closed : s'.closed = s.closed
  buffer : s'.buffer = s.buffer
  reports : s'.reports = s.reports
  rawLines : s'.rawLines = s.rawLines

theorem unheard_takeTerminal (s : State) (text : String) (status : Modem.Status)
    (readAt now : Instant) : Unheard s (s.takeTerminal text status readAt now).1 := by
  rw [takeTerminal_eq]
  exact ⟨rfl, rfl, rfl, rfl⟩

/-- The writer, the callers and the end of a wait bring nothing to a consumer. -/
theorem Does.unheard {a : Action} (d : Does s now a s') (hopen : s.closed = false)
    (hinner : a.isInner) : Unheard s s' := by
  cases d with
  | enter | lineUp | leaveLine | take | wrote | handOff | handLate | writeFailed | restEnds
  | delayEnds => exact ⟨rfl, rfl, rfl, rfl⟩
  | @meetHanded text status readAt due r later =>
      obtain ⟨closed, buffer, reports, rawLines⟩ := unheard_takeTerminal
        { s with fifo := s.fifo ++ [r], handoff := later } text status readAt now
      exact ⟨closed, buffer, reports, rawLines⟩
  | graceEnds => exact unheard_takeTerminal s _ _ _ _
  | stopWriter closed | giveUp closed | stopReader closed =>
      rw [hopen] at closed
      cases closed
  | receive | readLine | readFailed | readEnd | readRest | takeReports | takeRaw | close =>
      cases hinner

end State

/-! ## Sessions -/

/-- A multiplexer with the bytes that came and what its consumers were given. -/
structure Session where
  state : State
  inbound : Bytes
  commands : List String
  raws : List String

namespace Session

def start (settings : Config.Mux) : Session := ⟨new settings, [], [], []⟩

/-- The session behind an action that leads to `s`. -/
def after (x : Session) (s : State) : Action → Session
  | .receive chunk => { x with state := s, inbound := x.inbound ++ chunk }
  | .takeReports => { x with state := s, commands := x.commands ++ x.state.reports }
  | .takeRaw => { x with state := s, raws := x.raws ++ x.state.rawLines }
  | _ => { x with state := s }

/-- The multiplexer stays open, reading does not fail, and the stream ends only behind a line. -/
def Admits (x : Session) : Action → Prop
  | .close | .readFailed _ => False
  | .readEnd => x.state.buffer = []
  | _ => True

inductive Step (x : Session) : Session → Prop where
  | act {now : Instant} {a : Action} {s : State} {events : List Event} (admits : x.Admits a)
      (taken : x.state.step now a = some (s, events)) : Step x (x.after s a)

/-- What can become of a session. -/
abbrev Reaches : Session → Session → Prop := Relation.ReflTransGen Step

/-- All lines that came are read, and the consumers have taken all that is there for them. -/
structure AtRest (x : Session) : Prop where
  read : x.state.wholeLine = none
  commands : x.state.reports = []
  raws : x.state.rawLines = []

instance (x : Session) (a : Action) : Decidable (x.Admits a) :=
  match a with
  | .close | .readFailed _ => .isFalse id
  | .readEnd => inferInstanceAs (Decidable (x.state.buffer = []))
  | .enter _ _ | .lineUp _ | .leaveLine _ | .take | .wrote | .handOff | .writeFailed _ | .receive _
  | .readLine | .restEnds | .meetHanded | .graceEnds | .delayEnds | .takeReports | .takeRaw
  | .stopWriter | .stopReader => .isTrue trivial

/-- Take actions one after the other, if the session admits them and they can happen. -/
def play (x : Session) : Schedule → Option Session
  | [] => some x
  | (now, a) :: later =>
      if x.Admits a then
        match x.state.step now a with
        | some (s, _) => (x.after s a).play later
        | none => none
      else none

theorem reaches_of_play {x y : Session} {actions : Schedule} (h : x.play actions = some y) :
    Reaches x y := by
  induction actions generalizing x with
  | nil =>
      cases h
      exact .refl
  | cons timed later ih =>
      obtain ⟨now, a⟩ := timed
      rw [play] at h
      split at h
      · rename_i hadmits
        split at h
        · rename_i s events htaken
          exact .head (.act hadmits htaken) (ih h)
        · cases h
      · cases h

/-- The books of a session in which the lines `read` were read. -/
structure Books (settings : Config.Mux) (read : List Bytes) (x : Session) : Prop where
  run : ∃ h, Run settings h x.state
  opened : x.state.closed = false
  feedless : ∀ line ∈ read, lineFeed ∉ line
  inbound : x.inbound = stream read ++ x.state.buffer
  commands : x.commands ++ x.state.reports = reportsAmong settings (read.map lineText)
  raws : x.raws ++ x.state.rawLines = rawsAmong settings (read.map lineText)

variable {settings : Config.Mux} {read : List Bytes} {x y : Session}

theorem books_start (settings : Config.Mux) : Books settings [] (start settings) :=
  ⟨⟨[], .start⟩, rfl, nofun, rfl, rfl, rfl⟩

theorem stream_append (lines lines' : List Bytes) :
    stream (lines ++ lines') = stream lines ++ stream lines' := List.flatMap_append

theorem Books.unheard {s : State} (b : Books settings read x) (u : x.state.Unheard s)
    (hrun : ∃ h, Run settings h s) : Books settings read { x with state := s } :=
  { run := hrun
    opened := u.closed.trans b.opened
    feedless := b.feedless
    inbound := by rw [u.buffer]; exact b.inbound
    commands := by rw [u.reports]; exact b.commands
    raws := by rw [u.rawLines]; exact b.raws }

/-- A line that is read brings what the pass finds on it. -/
theorem Books.readLine {line later : Bytes} {now : Instant} (b : Books settings read x)
    (hfeed : lineFeed ∉ line) (hbuffer : x.state.buffer = line ++ [lineFeed] ++ later)
    (hrun : ∃ h, Run settings h
      ({ x.state with buffer := later }.takeLine (line ++ [lineFeed]) now).1) :
    Books settings (read ++ [line])
      { x with state := ({ x.state with buffer := later }.takeLine (line ++ [lineFeed]) now).1 } := by
  obtain ⟨_, run⟩ := b.run
  have hsettings := run.classified.unchanged
  have haside := State.aside_takeLine { x.state with buffer := later } (line ++ [lineFeed]) now
  obtain ⟨hreports, hrawLines⟩ :=
    State.consumers_takeLine { x.state with buffer := later } (line ++ [lineFeed]) now
  generalize { x.state with buffer := later }.takeLine (line ++ [lineFeed]) now = result
    at hrun haside hreports hrawLines ⊢
  dsimp only at hreports hrawLines
  rw [lineText_append_feed, hsettings] at hreports hrawLines
  refine ⟨hrun, haside.closed.trans b.opened, fun l hl ↦ ?_, ?_, ?_, ?_⟩
  · rcases List.mem_append.mp hl with hl | hl
    · exact b.feedless l hl
    · exact List.mem_singleton.mp hl ▸ hfeed
  · rw [b.inbound, hbuffer, haside.buffer, stream_append]
    simp [stream]
  · rw [hreports, ← List.append_assoc, b.commands]
    simp
  · rw [hrawLines, ← List.append_assoc, b.raws]
    simp

theorem Books.step (b : Books settings read x) (hstep : Step x y) :
    ∃ read', Books settings read' y := by
  obtain ⟨admits, taken⟩ := hstep
  rename_i now a s events
  obtain ⟨h, run⟩ := b.run
  have hrun : ∃ h, Run settings h s := ⟨_, run.step taken⟩
  have hdoes := State.does_of_step taken
  by_cases hinner : a.isInner
  · have hafter : x.after s a = { x with state := s } := by
      cases a <;> first | rfl | cases hinner
    rw [hafter]
    exact ⟨read, b.unheard (hdoes.unheard b.opened hinner) hrun⟩
  · cases hdoes with
    | receive chunk =>
        refine ⟨read, hrun, b.opened, b.feedless, ?_, b.commands, b.raws⟩
        simp [after, State.receive, b.inbound]
    | readLine reading feedless whole => exact ⟨_, b.readLine feedless whole hrun⟩
    | readEnd reading buffer => exact ⟨read, b.unheard ⟨rfl, rfl, rfl, rfl⟩ hrun⟩
    | readRest reading feedless left => exact absurd admits left
    | takeReports =>
        refine ⟨read, hrun, b.opened, b.feedless, b.inbound, ?_, b.raws⟩
        simpa [after] using b.commands
    | takeRaw =>
        refine ⟨read, hrun, b.opened, b.feedless, b.inbound, b.commands, ?_⟩
        simpa [after] using b.raws
    | readFailed | close => exact admits.elim
    | _ => exact absurd rfl hinner

theorem Books.reaches (b : Books settings read x) (h : Reaches x y) :
    ∃ read', Books settings read' y := by
  induction h with
  | refl => exact ⟨read, b⟩
  | tail _ hstep ih =>
      obtain ⟨read', b'⟩ := ih
      exact b'.step hstep

theorem Step.inner {s : State} {now : Instant} {a : Action} {events : List Event}
    (hinner : a.isInner) (taken : x.state.step now a = some (s, events)) :
    Step x (x.after s a) := by
  refine .act ?_ taken
  cases a with
  | receive | readLine | readFailed | readEnd | takeReports | takeRaw | close => cases hinner
  | _ => trivial

/-! ## Reading on -/

/-- The session can go on to one that differs in nothing but its requests and reads. -/
def Turns (x : Session) : Prop :=
  ∃ y, Reaches x y ∧ y.inbound = x.inbound ∧ y.state.buffer = x.state.buffer ∧
    y.state.reader = .reading

theorem turns_of_reading (hreading : x.state.reader = .reading) : Turns x :=
  ⟨x, .refl, rfl, rfl, hreading⟩

theorem turns_of_delaying {r : Request} {v : Except Fault String} {due : Millis}
    (hdelaying : x.state.reader = .delaying r v due) : Turns x := by
  have htaken : x.state.step 0 .delayEnds = some (x.state.deliver r v, []) := by
    rw [State.step, State.delayEnds, hdelaying]
    rfl
  exact ⟨_, .single (.inner rfl htaken), rfl, rfl, rfl⟩

theorem turns_of_graceful {text : String} {status : Modem.Status} {readAt : Instant}
    {due : Millis} (hgraceful : x.state.reader = .graceful text status readAt due) : Turns x := by
  have htaken : x.state.step 0 .graceEnds = some (x.state.takeTerminal text status readAt 0) := by
    rw [State.step, State.graceEnds, hgraceful]
  have hstep : Step x _ := .inner rfl htaken
  have hbuffer := (State.aside_takeTerminal x.state text status readAt 0).buffer
  have hturns : Turns (x.after (x.state.takeTerminal text status readAt 0).1 .graceEnds) := by
    rcases State.reader_takeTerminal x.state text status readAt 0 with hreading | ⟨r, v, due, hdelaying⟩
    · exact turns_of_reading hreading
    · exact turns_of_delaying hdelaying
  obtain ⟨y, hreaches, hinbound, hsame, hreading⟩ := hturns
  exact ⟨y, .head hstep hreaches, hinbound, hsame.trans hbuffer, hreading⟩

/-- An open multiplexer ends every wait of its reader. -/
theorem Books.turns (b : Books settings read x) : Turns x := by
  cases hreader : x.state.reader with
  | reading => exact turns_of_reading hreader
  | resting due =>
      have htaken : x.state.step 0 .restEnds = some ({ x.state with reader := .reading }, []) := by
        rw [State.step, State.restEnds, hreader]
        rfl
      exact ⟨_, .single (.inner rfl htaken), rfl, rfl, rfl⟩
  | graceful text status readAt due => exact turns_of_graceful hreader
  | delaying r v due => exact turns_of_delaying hreader
  | stopped =>
      obtain ⟨h, run⟩ := b.run
      have hruns := run.orderly.running b.opened
      rw [hreader] at hruns
      cases hruns

/-- A reader that waits for nothing can read the next whole line. -/
theorem exists_readLine {s : State} {raw later : Bytes} (now : Instant)
    (hreading : s.reader = .reading) (hwhole : s.wholeLine = some (raw, later)) :
    ∃ s' events, s.step now .readLine = some (s', events) ∧ s'.buffer = later := by
  have htaken : s.step now .readLine = some ({ s with buffer := later }.takeLine raw now) := by
    rw [State.step, State.readLine, hreading, hwhole]
  have hbuffer := (State.aside_takeLine { s with buffer := later } raw now).buffer
  generalize { s with buffer := later }.takeLine raw now = result at hbuffer htaken
  exact ⟨result.1, result.2, htaken, hbuffer⟩

/-- All that came can be read and given to the consumers. -/
theorem Books.exists_atRest (b : Books settings read x) :
    ∃ y, Reaches x y ∧ y.inbound = x.inbound ∧ y.AtRest := by
  -- every line that is read makes the buffer shorter
  induction hlength : x.state.buffer.length using Nat.strong_induction_on generalizing read x with
  | _ n ih =>
      obtain ⟨y, hreaches, hinbound, hbuffer, hreading⟩ := b.turns
      obtain ⟨read', hbooks⟩ := b.reaches hreaches
      cases hwhole : y.state.wholeLine with
      | none =>
          let z : Session := y.after { y.state with reports := [] } .takeReports
          have hreports : Step y z := @Step.act y 0 .takeReports _ [] trivial rfl
          have hraws : Step z (z.after { z.state with rawLines := [] } .takeRaw) :=
            @Step.act z 0 .takeRaw _ [] trivial rfl
          exact ⟨_, (hreaches.tail hreports).tail hraws, hinbound, hwhole, rfl, rfl⟩
      | some whole =>
          obtain ⟨raw, later⟩ := whole
          obtain ⟨line, rfl, -, hsplit⟩ := exists_of_wholeLine hwhole
          obtain ⟨s, events, htaken, hlater⟩ := exists_readLine 0 hreading hwhole
          have hstep : Step y (y.after s .readLine) := .act trivial htaken
          obtain ⟨read'', hbooks'⟩ := hbooks.step hstep
          have hshorter : later.length < n := by
            rw [← hlength, ← hbuffer, hsplit]
            simp only [List.length_append, List.length_singleton]
            omega
          obtain ⟨z, hrest, hsame, hz⟩ := ih _ hshorter hbooks' (congrArg List.length hlater)
          exact ⟨z, (hreaches.tail hstep).trans hrest, hsame.trans hinbound, hz⟩

/-! ## The consumers and the stream -/

/-- The consumers get what the pass over all bytes finds. -/
structure Routed (settings : Config.Mux) (x : Session) : Prop where
  /-- What was given to the consumer, what waits for it, and what the unread bytes will bring. -/
  commands : x.commands ++ x.state.reports ++ commandsIn settings x.state.buffer =
    commandsIn settings x.inbound
  raws : x.raws ++ x.state.rawLines ++ rawsIn settings x.state.buffer = rawsIn settings x.inbound
  atRest : x.AtRest → x.commands = commandsIn settings x.inbound ∧
    x.raws = rawsIn settings x.inbound
  /-- Without more bytes the session can still come to rest. -/
  ends : ∃ y, Reaches x y ∧ y.inbound = x.inbound ∧ y.AtRest

theorem Books.routed (b : Books settings read x) : Routed settings x := by
  have hlines : (wholeLines x.inbound).map lineText =
      read.map lineText ++ (wholeLines x.state.buffer).map lineText := by
    rw [b.inbound, wholeLines_stream_append b.feedless, List.map_append]
  have hcommands : x.commands ++ x.state.reports ++ commandsIn settings x.state.buffer =
      commandsIn settings x.inbound := by
    rw [b.commands, commandsIn, commandsIn, hlines, reportsAmong_append]
  have hraws : x.raws ++ x.state.rawLines ++ rawsIn settings x.state.buffer =
      rawsIn settings x.inbound := by
    rw [b.raws, rawsIn, rawsIn, hlines, rawsAmong_append]
  refine ⟨hcommands, hraws, fun hrest ↦ ?_, b.exists_atRest⟩
  have hnothing : wholeLines x.state.buffer = [] :=
    wholeLines_of_feedless (wholeLine_eq_none_iff.mp hrest.read)
  rw [← hcommands, ← hraws, hrest.commands, hrest.raws, commandsIn, rawsIn, hnothing]
  simp

/-- Whatever the requests of two sessions are, and however their bytes are cut: with the same bytes
their consumers get the same. -/
theorem routed_alike (hx : Reaches (start settings) x) (hy : Reaches (start settings) y)
    (hsame : x.inbound = y.inbound) :
    Routed settings x ∧ Routed settings y ∧
      (x.AtRest → y.AtRest → x.commands = y.commands ∧ x.raws = y.raws) := by
  obtain ⟨_, hbooks⟩ := (books_start settings).reaches hx
  obtain ⟨_, hbooks'⟩ := (books_start settings).reaches hy
  have hrouted := hbooks.routed
  have hrouted' := hbooks'.routed
  refine ⟨hrouted, hrouted', fun hrest hrest' ↦ ?_⟩
  obtain ⟨hcommands, hraws⟩ := hrouted.atRest hrest
  obtain ⟨hcommands', hraws'⟩ := hrouted'.atRest hrest'
  rw [hcommands, hraws, hcommands', hraws', hsame]
  exact ⟨rfl, rfl⟩

/-- One multiplexer answers a request, the other has none, and its bytes come in two pieces. -/
theorem routed_alike_of_request : ∃ x y, Reaches (start {}) x ∧ Reaches (start {}) y ∧
    x.inbound = y.inbound ∧ x.state.resolved.length = 1 ∧ x.commands = ["a", "b"] ∧
      x.raws = ["T: 20"] ∧ Routed {} x ∧ Routed {} y ∧
        (x.AtRest → y.AtRest → x.commands = y.commands ∧ x.raws = y.raws) := by
  have hx : ((start {}).play
      [(0, .enter ⟨Text.bytes "AT+T\r\n", 50, 0, 100⟩ 0), (1, .take), (2, .wrote), (3, .handOff),
        (4, .receive (Text.bytes "+COMMAND: a+COMMAND: b\r\nT: 20\r\nOK\r\n")), (5, .readLine),
        (6, .readLine), (7, .readLine), (8, .takeReports), (9, .takeRaw)]).any (fun x ↦
          x.inbound = Text.bytes "+COMMAND: a+COMMAND: b\r\nT: 20\r\nOK\r\n" ∧
            x.state.resolved.length = 1 ∧ x.commands = ["a", "b"] ∧ x.raws = ["T: 20"]) = true := by
    decide +kernel
  have hy : ((start {}).play
      [(4, .receive (Text.bytes "+COMM")),
        (5, .receive (Text.bytes "AND: a+COMMAND: b\r\nT: 20\r\nOK\r\n")), (6, .readLine),
        (7, .takeReports), (8, .readLine)]).any (fun y ↦
          y.inbound = Text.bytes "+COMMAND: a+COMMAND: b\r\nT: 20\r\nOK\r\n") = true := by
    decide +kernel
  obtain ⟨x, hplay, hfacts⟩ := (Option.any_eq_true _ _).mp hx
  obtain ⟨y, hplay', hfacts'⟩ := (Option.any_eq_true _ _).mp hy
  obtain ⟨hinbound, hresolved, hcommands, hraws⟩ := of_decide_eq_true hfacts
  have hinbound' := of_decide_eq_true hfacts'
  have hsame := hinbound.trans hinbound'.symm
  have hreaches := reaches_of_play hplay
  have hreaches' := reaches_of_play hplay'
  exact ⟨x, y, hreaches, hreaches', hsame, hresolved, hcommands, hraws,
    routed_alike hreaches hreaches' hsame⟩

end Session

end BleBridge.Mux
