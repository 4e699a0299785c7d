import BleBridge.Mux.Step
import Mathlib.Data.List.Basic

/-!
# The history of the multiplexer

A run of the multiplexer is any sequence of its actions, each at any reading of
the clock.  The state forgets what became of a request once it is resolved, so a
run carries its history along: the list of what happened to requests and lines,
in order.  `State.deeds` reads off a state what an action is about to do, and the
lists that the invariants speak of (the requests written, the requests that left
the FIFO, the terminal lines and so on) are filtered out of the history.

A line is entered when it is routed.  A terminal line is entered twice, when it is
read and when it is routed.  If it waits for a request to be handed over, it is
routed at the end of the wait, and the head of the FIFO is the one that it meets
then.
-/

namespace BleBridge.Mux

/-- A line that was routed. -/
structure Line where
  text : String
  readAt : Instant
  /-- The head of the FIFO when the line was routed. -/
  head : Option Request
deriving DecidableEq, Repr

/-- What the multiplexer knows of a line without its requests. -/
def Line.arrival (l : Line) : String × Instant := (l.text, l.readAt)

/-- The line met `r` at the head of the FIFO, and was not read before the command of `r` was on
its way. -/
structure Line.Meets (l : Line) (r : Request) : Prop where
  head : l.head = some r
  fresh : r.writtenAt ≤ l.readAt

inductive Deed where
  /-- A request was put into the queue. -/
  | admitted (r : Request)
  /-- A request that was not written was resolved with an error. -/
  | refused (r : Request) (e : BridgeError)
  | wrote (r : Request)
  /-- A raw line was routed. -/
  | heard (line : Line)
  /-- The head of the FIFO was dropped for its age. -/
  | expired (r : Request)
  /-- A terminal line was read. -/
  | arrived (text : String) (readAt : Instant)
  /-- A terminal line completed the reply to the head of the FIFO. -/
  | answered (r : Request) (line : Line) (status : Modem.Status) (reply : String)
  /-- A terminal line found no request that it could answer. -/
  | missed (line : Line)
  /-- A written request was resolved without a reply since the multiplexer closed. -/
  | abandoned (r : Request) (e : BridgeError)
deriving Repr

/-- What became of a request: its ticket and its result. -/
abbrev Outcome := Nat × Except BridgeError String

/-- The outcome of a request that grew too old in the FIFO. -/
def expiry (r : Request) : Outcome :=
  (r.ticket, .error (.timeout "no terminal line before the deadline"))

/-! ## Parts of a history -/

namespace Deed

@[simp] def admitted? : Deed → Option Request
  | .admitted r => some r
  | _ => none

@[simp] def refused? : Deed → Option Request
  | .refused r _ => some r
  | _ => none

@[simp] def wrote? : Deed → Option Request
  | .wrote r => some r
  | _ => none

@[simp] def heard? : Deed → Option Line
  | .heard line => some line
  | _ => none

@[simp] def expired? : Deed → Option Request
  | .expired r => some r
  | _ => none

@[simp] def arrived? : Deed → Option (String × Instant)
  | .arrived text readAt => some (text, readAt)
  | _ => none

@[simp] def answered? : Deed → Option Request
  | .answered r _ _ _ => some r
  | _ => none

@[simp] def missed? : Deed → Option Line
  | .missed line => some line
  | _ => none

@[simp] def abandoned? : Deed → Option Request
  | .abandoned r _ => some r
  | _ => none

@[simp] def terminal? : Deed → Option Line
  | .answered _ line _ _ => some line
  | .missed line => some line
  | _ => none

@[simp] def departed? : Deed → Option Request
  | .expired r => some r
  | .answered r _ _ _ => some r
  | .abandoned r _ => some r
  | _ => none

@[simp] def outcome? : Deed → Option Outcome
  | .refused r e => some (r.ticket, .error e)
  | .expired r => some (expiry r)
  | .answered r _ status reply => some (r.ticket, bridged (verdict status reply))
  | .abandoned r e => some (r.ticket, .error e)
  | _ => none

end Deed

/-- What happened, in order. -/
abbrev History := List Deed

namespace History

section Pick

variable {α β : Type} (p : Deed → Option α)

/-- The entries of one kind. -/
def pick (h : History) : List α := h.filterMap p

@[simp] theorem pick_nil : pick p [] = [] := rfl

@[simp] theorem pick_append (h k : History) : pick p (h ++ k) = pick p h ++ pick p k :=
  List.filterMap_append

theorem pick_cons (d : Deed) (h : History) : pick p (d :: h) = (p d).toList ++ pick p h := by
  cases hd : p d <;> simp [pick, hd]

@[simp] theorem pick_singleton (d : Deed) : pick p [d] = (p d).toList := by
  simp [pick_cons]

@[simp] theorem pick_map (f : β → Deed) (l : List β) :
    pick p (l.map f) = l.filterMap fun b ↦ p (f b) :=
  List.filterMap_map

end Pick

/-- The requests that were put into the queue. -/
abbrev admitted (h : History) : List Request := h.pick Deed.admitted?

/-- The requests that were resolved without having been written. -/
abbrev refused (h : History) : List Request := h.pick Deed.refused?

abbrev written (h : History) : List Request := h.pick Deed.wrote?

/-- The raw lines. -/
abbrev heard (h : History) : List Line := h.pick Deed.heard?

abbrev expired (h : History) : List Request := h.pick Deed.expired?

/-- The terminal lines as they were read. -/
abbrev arrivals (h : History) : List (String × Instant) := h.pick Deed.arrived?

abbrev answered (h : History) : List Request := h.pick Deed.answered?

/-- The terminal lines that answered no request. -/
abbrev missed (h : History) : List Line := h.pick Deed.missed?

abbrev abandoned (h : History) : List Request := h.pick Deed.abandoned?

/-- The terminal lines as they were routed. -/
abbrev terminals (h : History) : List Line := h.pick Deed.terminal?

/-- The written requests that left the FIFO, or the way to it. -/
abbrev departed (h : History) : List Request := h.pick Deed.departed?

/-- The results, in the order in which they were settled. -/
abbrev outcomes (h : History) : List Outcome := h.pick Deed.outcome?

/-- Every terminal line answers one request or none. -/
theorem length_terminals (h : History) :
    h.terminals.length = h.answered.length + h.missed.length := by
  induction h with
  | nil => rfl
  | cons d h ih =>
      simp only [terminals, answered, missed, pick_cons] at ih ⊢
      cases d <;> simp [ih] <;> omega

/-- A request departs in one of three ways. -/
theorem length_departed (h : History) :
    h.departed.length = h.expired.length + h.answered.length + h.abandoned.length := by
  induction h with
  | nil => rfl
  | cons d h ih =>
      simp only [departed, expired, answered, abandoned, pick_cons] at ih ⊢
      cases d <;> simp [ih] <;> omega

end History

namespace State

/-! ## What an action does -/

/-- What a sweep drops. -/
def sweepDeeds (s : State) (now : Instant) : History :=
  (s.fifo.takeWhile (·.isExpired now)).map .expired

/-- What becomes of a terminal line. -/
def terminalDeeds (s : State) (text : String) (status : Modem.Status) (readAt : Instant) :
    History :=
  match s.fifo with
  | [] => [.missed ⟨text, readAt, none⟩]
  | r :: _ =>
      if r.predates readAt then [.missed ⟨text, readAt, some r⟩]
      else [.answered r ⟨text, readAt, some r⟩ status (Text.joinLines (s.headLines ++ [text]))]

/-- What becomes of a line behind the sweep. -/
def routeDeeds (s : State) (text : String) (now : Instant) : History :=
  if text = "" || isIgnored s.settings text then []
  else match Modem.classifyLine text s.settings.marker with
    | .report _ => []
    | .raw => [.heard ⟨text, now, s.fifo.head?⟩]
    | .terminal status =>
        .arrived text now :: if s.fifo.isEmpty then [] else s.terminalDeeds text status now

def lineDeeds (s : State) (raw : Bytes) (now : Instant) : History :=
  s.absorb.sweepDeeds now ++ (s.absorb.sweep now).1.routeDeeds (lineText raw) now

/-- What an action that can happen does to requests and lines. -/
def deeds (s : State) (now : Instant) : Action → History
  | .enter o ticket => [.admitted (o.request ticket now)]
  | .wrote =>
      match s.writer with
      | .writing r => [.wrote r]
      | _ => []
  | .handOff =>
      match s.writer with
      | .handing r =>
          if s.reader.isStopped then [.abandoned r (.closed "serial reader stopped")] else []
      | _ => []
  | .writeFailed fault =>
      match s.writer with
      | .writing r => [.refused r (.write fault.message)]
      | _ => []
  | .readLine =>
      match s.wholeLine with
      | some (line, later) => { s with buffer := later }.lineDeeds line now
      | none => []
  | .readEnd =>
      match s.buffer with
      | [] => []
      | left => { s with buffer := [] }.lineDeeds left now
  | .meetHanded =>
      match s.reader, s.handoff with
      | .graceful text status readAt _, r :: later =>
          { s with fifo := s.fifo ++ [r], handoff := later }.terminalDeeds text status readAt
      | _, _ => []
  | .graceEnds =>
      match s.reader with
      | .graceful text status readAt _ => s.terminalDeeds text status readAt
      | _ => []
  | .stopWriter =>
      (match s.writer with
        | .writing r => [.refused r (.closed "serial multiplexer closed during write")]
        | _ => []) ++
        s.queue.map (.refused · (.closed "serial multiplexer closed"))
  | .stopReader =>
      (s.fifo ++ s.handoff).map (.abandoned · (.closed "serial multiplexer closed"))
  | _ => []

section Deeds

variable {s : State} {now : Instant} {r : Request} {text : String} {status : Modem.Status}
  {readAt : Instant} {due : Millis}

theorem deeds_wrote (h : s.writer = .writing r) : s.deeds now .wrote = [.wrote r] := by
  cases s
  cases h
  rfl

theorem deeds_handOff (h : s.writer = .handing r) :
    s.deeds now .handOff =
      if s.reader.isStopped then [.abandoned r (.closed "serial reader stopped")] else [] := by
  cases s
  cases h
  rfl

theorem deeds_writeFailed (fault : IoFault) (h : s.writer = .writing r) :
    s.deeds now (.writeFailed fault) = [.refused r (.write fault.message)] := by
  cases s
  cases h
  rfl

theorem deeds_readLine {line later : Bytes} (h : s.wholeLine = some (line, later)) :
    s.deeds now .readLine = { s with buffer := later }.lineDeeds line now := by
  have hdeeds : ∀ whole, s.wholeLine = whole → s.deeds now .readLine =
      match whole with
      | some (line, later) => { s with buffer := later }.lineDeeds line now
      | none => [] := by
    rintro _ rfl
    rfl
  exact hdeeds _ h

theorem deeds_readEnd_nil (h : s.buffer = []) : s.deeds now .readEnd = [] := by
  cases s
  cases h
  rfl

theorem deeds_readEnd (h : s.buffer ≠ []) :
    s.deeds now .readEnd = { s with buffer := [] }.lineDeeds s.buffer now := by
  obtain ⟨b, later, hbuffer⟩ := List.exists_cons_of_ne_nil h
  cases s
  cases hbuffer
  rfl

theorem deeds_meetHanded {later : List Request} (h : s.reader = .graceful text status readAt due)
    (hhandoff : s.handoff = r :: later) :
    s.deeds now .meetHanded =
      { s with fifo := s.fifo ++ [r], handoff := later }.terminalDeeds text status readAt := by
  cases s
  cases h
  cases hhandoff
  rfl

theorem deeds_graceEnds (h : s.reader = .graceful text status readAt due) :
    s.deeds now .graceEnds = s.terminalDeeds text status readAt := by
  cases s
  cases h
  rfl

theorem deeds_stopWriter_idle (h : s.writer = .idle) :
    s.deeds now .stopWriter = s.queue.map (.refused · (.closed "serial multiplexer closed")) := by
  cases s
  cases h
  rfl

theorem deeds_stopWriter_writing (h : s.writer = .writing r) :
    s.deeds now .stopWriter =
      .refused r (.closed "serial multiplexer closed during write") ::
        s.queue.map (.refused · (.closed "serial multiplexer closed")) := by
  cases s
  cases h
  rfl

theorem deeds_stopReader (s : State) (now : Instant) :
    s.deeds now .stopReader =
      (s.fifo ++ s.handoff).map (.abandoned · (.closed "serial multiplexer closed")) := rfl

end Deeds

end State

/-- What can have happened up to a state. -/
inductive Run (settings : Config.Mux) : History → State → Prop where
  | start : Run settings [] (new settings)
  | step {h : History} {s s' : State} {now : Instant} {a : Action} {events : List Event}
      (run : Run settings h s) (taken : s.step now a = some (s', events)) :
      Run settings (h ++ s.deeds now a) s'

/-- Take actions one after the other, if all of them can happen. -/
def State.follow (h : History) (s : State) : List (Instant × Action) → Option (History × State)
  | [] => some (h, s)
  | (now, a) :: later =>
      match s.step now a with
      | some (s', _) => s'.follow (h ++ s.deeds now a) later
      | none => none

theorem Run.follow {settings : Config.Mux} {h h' : History} {s s' : State}
    {actions : List (Instant × Action)} (run : Run settings h s)
    (hfollow : s.follow h actions = some (h', s')) : Run settings h' s' := by
  induction actions generalizing h s with
  | nil =>
      cases hfollow
      exact run
  | cons timed later ih =>
      obtain ⟨now, a⟩ := timed
      rw [State.follow] at hfollow
      split at hfollow
      · rename_i t events htaken
        exact ih (run.step htaken) hfollow
      · cases hfollow

end BleBridge.Mux
