import BleBridge.Proofs.Mux.Steps
import Mathlib.Data.List.Count
import Mathlib.Logic.Relation

/-!
# Lines and failed reads

The source of the bytes is asked only when no whole line is there, and when it
fails, the line that has begun is gone.  `Intake` tells what comes of everything
that comes in: bytes, failures and ends of the stream.  The reader takes these
lines and holds the line under way (`Recording.Faithful`).

Every byte that came is in a line or in the line under way, except those that a
failure dropped.  So a reader whose source fails takes the same lines as one whose
source does not if and only if each failure falls between two lines
(`lines_alike_iff`).
-/

namespace BleBridge.Mux

/-! ## What comes in -/

inductive Incoming where
  | byte (b : UInt8)
  | failure (fault : IoFault)
  /-- The stream is at its end, perhaps only for now. -/
  | pause
deriving DecidableEq

namespace Incoming

def isFailure : Incoming → Bool
  | failure _ => true
  | _ => false

def isByte : Incoming → Bool
  | byte _ => true
  | _ => false

end Incoming

/-- The lines among what came in, and the line under way. -/
@[ext] structure Intake where
  lines : List Bytes
  begun : Bytes

namespace Intake

variable {i : Intake} {came before later : List Incoming} {fault : IoFault}

def take (i : Intake) : Incoming → Intake
  | .byte b =>
      if b = lineFeed then ⟨i.lines ++ [i.begun ++ [b]], []⟩ else { i with begun := i.begun ++ [b] }
  | .failure _ => { i with begun := [] }
  | .pause => if i.begun = [] then i else ⟨i.lines ++ [i.begun], []⟩

def takeAll (i : Intake) (came : List Incoming) : Intake := came.foldl take i

/-- What comes of all that came in. -/
def of (came : List Incoming) : Intake := takeAll ⟨[], []⟩ came

@[simp] theorem takeAll_nil (i : Intake) : i.takeAll [] = i := rfl

@[simp] theorem takeAll_cons (i : Intake) (item : Incoming) (came : List Incoming) :
    i.takeAll (item :: came) = (i.take item).takeAll came := rfl

theorem takeAll_append (i : Intake) (came came' : List Incoming) :
    i.takeAll (came ++ came') = (i.takeAll came).takeAll came' := List.foldl_append

theorem of_append (came came' : List Incoming) : of (came ++ came') = (of came).takeAll came' :=
  takeAll_append _ came came'

/-- Bytes without a line feed go into the line under way. -/
theorem takeAll_feedless (i : Intake) {bytes : Bytes} (hfeed : lineFeed ∉ bytes) :
    i.takeAll (bytes.map .byte) = { i with begun := i.begun ++ bytes } := by
  induction bytes generalizing i with
  | nil =>
      rw [List.append_nil]
      rfl
  | cons b bytes ih =>
      obtain ⟨hb, hbytes⟩ := not_or.mp (mt List.mem_cons.mpr hfeed)
      have htake : i.take (.byte b) = { i with begun := i.begun ++ [b] } := if_neg (Ne.symm hb)
      rw [List.map_cons, takeAll_cons, htake, ih _ hbytes, List.append_assoc,
        List.singleton_append]

/-- A line feed ends the line under way. -/
theorem takeAll_line (i : Intake) {line : Bytes} (hfeed : lineFeed ∉ line) :
    i.takeAll ((line ++ [lineFeed]).map .byte) =
      ⟨i.lines ++ [i.begun ++ line ++ [lineFeed]], []⟩ := by
  rw [List.map_append, takeAll_append, i.takeAll_feedless hfeed]
  rfl

/-! ## Bytes that are dropped -/

/-- The number of bytes in lines and in the line under way. -/
def size (i : Intake) : Nat := i.lines.flatten.length + i.begun.length

def byteCount (came : List Incoming) : Nat := came.countP Incoming.isByte

theorem byteCount_cons (item : Incoming) (came : List Incoming) :
    byteCount (item :: came) = byteCount came + if item.isByte then 1 else 0 := List.countP_cons

theorem byteCount_append (came came' : List Incoming) :
    byteCount (came ++ came') = byteCount came + byteCount came' := List.countP_append

theorem size_take_byte (i : Intake) (b : UInt8) : (i.take (.byte b)).size = i.size + 1 := by
  rw [take]
  split
  · simp [size, Nat.add_assoc]
  · simp [size, Nat.add_assoc]

theorem size_take_pause (i : Intake) : (i.take .pause).size = i.size := by
  rw [take]
  split
  · rfl
  · simp [size]

theorem size_take_failure (i : Intake) (fault : IoFault) :
    (i.take (.failure fault)).size + i.begun.length = i.size := by
  simp [take, size]

/-- Nothing is taken but the bytes that came. -/
theorem size_takeAll_le (i : Intake) (came : List Incoming) :
    (i.takeAll came).size ≤ i.size + byteCount came := by
  induction came generalizing i with
  | nil => exact le_refl _
  | cons item came ih =>
      have hlater := ih (i.take item)
      rw [takeAll_cons, byteCount_cons]
      cases item with
      | byte b =>
          rw [size_take_byte] at hlater
          simp only [Incoming.isByte, if_true]
          omega
      | failure fault =>
          have hdropped := i.size_take_failure fault
          omega
      | pause =>
          rw [size_take_pause] at hlater
          omega

/-- What came in, but for the failures. -/
def unfailed (came : List Incoming) : List Incoming := came.filter (!·.isFailure)

/-- Without failures every byte is taken. -/
theorem size_takeAll_unfailed (i : Intake) (came : List Incoming) :
    (i.takeAll (unfailed came)).size = i.size + byteCount came := by
  induction came generalizing i with
  | nil => rfl
  | cons item came ih =>
      rw [byteCount_cons]
      cases item with
      | byte b =>
          refine (ih (i.take (.byte b))).trans ?_
          rw [size_take_byte]
          simp only [Incoming.isByte, if_true]
          omega
      | failure fault => exact (ih i).trans rfl
      | pause =>
          refine (ih (i.take .pause)).trans ?_
          rw [size_take_pause]
          rfl

/-! ## Failures between lines -/

/-- Each failure comes when no line is under way. -/
def FailsBetweenLines (came : List Incoming) : Prop :=
  ∀ before fault later, came = before ++ .failure fault :: later → (of before).begun = []

/-- A failure that comes when no line is under way changes nothing. -/
theorem takeAll_unfailed (h : ∀ before fault later, came = before ++ .failure fault :: later →
    (i.takeAll before).begun = []) : i.takeAll (unfailed came) = i.takeAll came := by
  induction came generalizing i with
  | nil => rfl
  | cons item came ih =>
      have hlater := ih (i := i.take item) fun before fault later heq ↦
        h (item :: before) fault later (heq ▸ rfl)
      cases item with
      | byte b => exact hlater
      | pause => exact hlater
      | failure fault =>
          have hnone : i.take (.failure fault) = i := Intake.ext rfl (h [] fault came rfl).symm
          rw [hnone] at hlater
          rw [takeAll_cons, hnone]
          exact hlater

theorem of_unfailed_iff : of (unfailed came) = of came ↔ FailsBetweenLines came := by
  constructor
  · -- the bytes that a failure drops are missing from the size at the end
    rintro heq before fault later rfl
    have hall := size_takeAll_unfailed ⟨[], []⟩ (before ++ .failure fault :: later)
    have hbefore := size_takeAll_le ⟨[], []⟩ before
    have hdropped := (of before).size_take_failure fault
    have hlater := size_takeAll_le ((of before).take (.failure fault)) later
    rw [← of, heq, of_append, takeAll_cons, byteCount_append, byteCount_cons] at hall
    refine List.eq_nil_of_length_eq_zero ?_
    rw [← of] at hbefore
    simp only [Incoming.isByte] at hall
    omega
  · exact takeAll_unfailed

end Intake

/-! ## What an action leaves in the buffer -/

/-- The actions by which bytes come in or are taken. -/
def Action.isIntake : Action → Bool
  | .receive _ | .readLine | .readFailed _ | .readEnd => true
  | _ => false

def Action.isFailedRead : Action → Bool
  | .readFailed _ => true
  | _ => false

theorem State.Does.buffer {s s' : State} {now : Instant} {a : Action} (d : s.Does now a s')
    (hother : a.isIntake = false) : s'.buffer = s.buffer := by
  cases d with
  | enter | lineUp | leaveLine | take | wrote | handOff | handLate | writeFailed | restEnds
  | delayEnds | takeReports | takeRaw | close => rfl
  | meetHanded => exact (aside_takeTerminal _ _ _ _ _).buffer
  | graceEnds => exact (aside_takeTerminal _ _ _ _ _).buffer
  | stopWriter => rw [drain, foldl_resolve]
  | giveUp =>
      rw [drain, foldl_resolve]
      rfl
  | stopReader =>
      rw [failAll, foldl_resolve]
      rfl
  | receive | readLine | readFailed | readEnd | readRest => cases hother

/-! ## Recordings -/

/-- A multiplexer with what came in over its line, and the lines that its reader took. -/
structure Recording where
  state : State
  came : List Incoming
  lines : List Bytes

namespace Recording

def start (settings : Config.Mux) : Recording := ⟨new settings, [], []⟩

/-- The recording behind an action that leads to `s`. -/
def after (x : Recording) (s : State) : Action → Recording
  | .receive chunk => { x with state := s, came := x.came ++ chunk.map .byte }
  | .readLine =>
      { x with state := s, lines := x.lines ++ (x.state.wholeLine.map Prod.fst).toList }
  | .readFailed fault => { x with state := s, came := x.came ++ [.failure fault] }
  | .readEnd =>
      { state := s
        came := x.came ++ [.pause]
        lines := x.lines ++ if x.state.buffer = [] then [] else [x.state.buffer] }
  | _ => { x with state := s }

/-- The source is asked, and may fail, when there is no whole line. -/
def Admits (x : Recording) (a : Action) : Prop := a.isFailedRead → x.state.wholeLine = none

instance (x : Recording) (a : Action) : Decidable (x.Admits a) :=
  inferInstanceAs (Decidable (a.isFailedRead = true → x.state.wholeLine = none))

inductive Step (x : Recording) : Recording → Prop where
  | act {now : Instant} {a : Action} {s : State} {events : List Event} (admits : x.Admits a)
      (taken : x.state.step now a = some (s, events)) : Step x (x.after s a)

/-- What can become of a recording. -/
abbrev Reaches : Recording → Recording → Prop := Relation.ReflTransGen Step

variable {settings : Config.Mux} {x y : Recording}

/-- The lines that were taken, and what the buffer holds, are what comes of all that came in. -/
def Faithful (x : Recording) : Prop :=
  Intake.takeAll ⟨x.lines, []⟩ (x.state.buffer.map .byte) = Intake.of x.came

/-- Between two lines the buffer holds the line under way. -/
theorem Faithful.of_feedless (h : x.Faithful) (hfeed : lineFeed ∉ x.state.buffer) :
    Intake.of x.came = ⟨x.lines, x.state.buffer⟩ := by
  rw [← h, Intake.takeAll_feedless _ hfeed, List.nil_append]

theorem wholeLine_of_feed {s : State} {line later : Bytes} (hfeed : lineFeed ∉ line)
    (hbuffer : s.buffer = line ++ [lineFeed] ++ later) :
    s.wholeLine = some (line ++ [lineFeed], later) := by
  have hline : ¬ [lineFeed] <:+: line ++ ([lineFeed] ++ later).take 0 := by
    rwa [List.take_zero, List.append_nil, List.singleton_infix_iff]
  rw [State.wholeLine, hbuffer, List.append_assoc, Text.cut?_append_of_not_infix hline,
    Text.cut?_mark_append]
  simp

theorem Faithful.step (h : x.Faithful) (hstep : Step x y) : y.Faithful := by
  obtain ⟨admits, taken⟩ := hstep
  rename_i now a s events
  have hdoes := State.does_of_step taken
  by_cases hother : a.isIntake = false
  · have hafter : x.after s a = { x with state := s } := by
      cases a <;> first | rfl | cases hother
    rw [hafter, Faithful, hdoes.buffer hother]
    exact h
  · cases hdoes with
    | receive chunk =>
        show Intake.takeAll ⟨x.lines, []⟩ ((x.state.buffer ++ chunk).map .byte) =
          Intake.of (x.came ++ chunk.map .byte)
        rw [List.map_append, Intake.takeAll_append, h, Intake.of_append]
    | @readLine line later reading feedless whole =>
        have hbuffer := (State.aside_takeLine { x.state with buffer := later }
          (line ++ [lineFeed]) now).buffer
        have hcame := h
        rw [Faithful, whole, List.map_append, Intake.takeAll_append,
          Intake.takeAll_line _ feedless] at hcame
        rw [Faithful, after, wholeLine_of_feed feedless whole, hbuffer]
        exact hcame
    | readFailed reading =>
        have hcame := h.of_feedless (wholeLine_eq_none_iff.mp (admits rfl))
        rw [Faithful, after, Intake.of_append, hcame]
        rfl
    | readEnd reading buffer =>
        have hcame := h.of_feedless (buffer ▸ List.not_mem_nil)
        rw [Faithful, after, Intake.of_append, hcame]
        simp [buffer, Intake.take]
    | readRest reading feedless left =>
        have hbuffer :=
          (State.aside_takeLine { x.state with buffer := [] } x.state.buffer now).buffer
        rw [Faithful, after, Intake.of_append, h.of_feedless feedless, hbuffer]
        simp [left, Intake.take]
    | _ => exact absurd rfl hother

theorem faithful_of_reaches (h : Reaches (start settings) x) : x.Faithful := by
  induction h with
  | refl => rfl
  | tail _ hstep ih => exact ih.step hstep

/-- Two readers that have taken all lines of the same bytes, the source of one of which also
failed. -/
theorem lines_alike_iff (hx : Reaches (start settings) x) (hy : Reaches (start settings) y)
    (hsame : y.came = Intake.unfailed x.came) (hxread : x.state.wholeLine = none)
    (hyread : y.state.wholeLine = none) :
    x.lines = y.lines ∧ x.state.buffer = y.state.buffer ↔ Intake.FailsBetweenLines x.came := by
  have hxcame := (faithful_of_reaches hx).of_feedless (wholeLine_eq_none_iff.mp hxread)
  have hycame := (faithful_of_reaches hy).of_feedless (wholeLine_eq_none_iff.mp hyread)
  rw [← Intake.of_unfailed_iff, ← hsame, hxcame, hycame, Intake.mk.injEq, eq_comm (a := y.lines),
    eq_comm (a := y.state.buffer)]

/-! ## Played recordings -/

/-- Take an action, if the recording admits it and it can happen. -/
def next (x : Recording) (timed : Instant × Action) : Option Recording :=
  if x.Admits timed.2 then (x.state.step timed.1 timed.2).map fun t ↦ x.after t.1 timed.2 else none

def play (x : Recording) (actions : Schedule) : Option Recording := actions.foldlM next x

theorem step_of_next {timed : Instant × Action} (h : x.next timed = some y) : Step x y := by
  obtain ⟨admits, hmap⟩ := Option.ite_none_right_eq_some.mp h
  obtain ⟨⟨s, events⟩, taken, rfl⟩ := Option.map_eq_some_iff.mp hmap
  exact .act admits taken

theorem reaches_of_play {actions : Schedule} (h : x.play actions = some y) : Reaches x y := by
  induction actions generalizing x with
  | nil =>
      cases h
      exact .refl
  | cons timed later ih =>
      rw [play, List.foldlM_cons] at h
      obtain ⟨z, hnext, hlater⟩ := Option.bind_eq_some_iff.mp h
      exact .head (step_of_next hnext) (ih hlater)

/-- A failure between two lines, and the same bytes at once. -/
theorem lines_alike_of_failure : ∃ x y, Reaches (start {}) x ∧ Reaches (start {}) y ∧
    .failure .timedOut ∈ x.came ∧ y.came = Intake.unfailed x.came ∧
      x.lines = [Text.bytes "T: 20\r\n", Text.bytes "T: 21\r\n"] ∧
        Intake.FailsBetweenLines x.came := by
  have hx : ((start {}).play
      [(0, .receive (Text.bytes "T: 20\r\n")), (1, .readLine), (2, .readFailed .timedOut),
        (3, .restEnds), (4, .receive (Text.bytes "T: 2")), (5, .receive (Text.bytes "1\r\nT")),
        (6, .readLine)]).any (fun x ↦
          .failure .timedOut ∈ x.came ∧ x.state.wholeLine = none ∧
            Intake.unfailed x.came = (Text.bytes "T: 20\r\nT: 21\r\nT").map .byte ∧
              x.lines = [Text.bytes "T: 20\r\n", Text.bytes "T: 21\r\n"] ∧
                x.state.buffer = Text.bytes "T") = true := by
    decide +kernel
  have hy : ((start {}).play
      [(0, .receive (Text.bytes "T: 20\r\nT: 21\r\nT")), (5, .readLine), (6, .readLine)]).any
        (fun y ↦ y.came = (Text.bytes "T: 20\r\nT: 21\r\nT").map .byte ∧
          y.state.wholeLine = none ∧
            y.lines = [Text.bytes "T: 20\r\n", Text.bytes "T: 21\r\n"] ∧
              y.state.buffer = Text.bytes "T") = true := by
    decide +kernel
  obtain ⟨x, hplay, hfacts⟩ := (Option.any_eq_true _ _).mp hx
  obtain ⟨y, hplay', hfacts'⟩ := (Option.any_eq_true _ _).mp hy
  obtain ⟨hfails, hread, hcame, hlines, hbuffer⟩ := of_decide_eq_true hfacts
  obtain ⟨hcame', hread', hlines', hbuffer'⟩ := of_decide_eq_true hfacts'
  have hreaches := reaches_of_play hplay
  have hreaches' := reaches_of_play hplay'
  have hsame := hcame'.trans hcame.symm
  exact ⟨x, y, hreaches, hreaches', hfails, hsame, hlines,
    (lines_alike_iff hreaches hreaches' hsame hread hread').mp
      ⟨hlines.trans hlines'.symm, hbuffer.trans hbuffer'.symm⟩⟩

/-- A failure within the line of a reply leaves a line that answers nothing. -/
theorem exists_line_lost : ∃ x y, Reaches (start {}) x ∧ Reaches (start {}) y ∧
    y.came = Intake.unfailed x.came ∧ x.state.buffer = [] ∧ y.state.buffer = [] ∧
      x.lines.map lineText = ["K"] ∧ y.lines.map lineText = ["OK"] := by
  have hx : ((start {}).play
      [(0, .receive (Text.bytes "O")), (1, .readFailed .timedOut), (2, .restEnds),
        (3, .receive (Text.bytes "K\r\n")), (4, .readLine)]).any (fun x ↦
          Intake.unfailed x.came = (Text.bytes "OK\r\n").map .byte ∧ x.state.buffer = [] ∧
            x.lines.map lineText = ["K"]) = true := by
    decide +kernel
  have hy : ((start {}).play
      [(0, .receive (Text.bytes "OK\r\n")), (4, .readLine)]).any (fun y ↦
          y.came = (Text.bytes "OK\r\n").map .byte ∧ y.state.buffer = [] ∧
            y.lines.map lineText = ["OK"]) = true := by
    decide +kernel
  obtain ⟨x, hplay, hfacts⟩ := (Option.any_eq_true _ _).mp hx
  obtain ⟨y, hplay', hfacts'⟩ := (Option.any_eq_true _ _).mp hy
  obtain ⟨hcame, hbuffer, hlines⟩ := of_decide_eq_true hfacts
  obtain ⟨hcame', hbuffer', hlines'⟩ := of_decide_eq_true hfacts'
  exact ⟨x, y, reaches_of_play hplay, reaches_of_play hplay', hcame'.trans hcame.symm, hbuffer,
    hbuffer', hlines, hlines'⟩

end Recording

end BleBridge.Mux
