import BleBridge.Proofs.Mux.Moves
import BleBridge.Proofs.Text.Lines

/-!
# One command and its reply

A command goes out while nothing is pending, and the peripheral answers with raw
lines and a terminal line.  The writer hands the request to the reader some time
after the bytes went out, so the reader may have read any number of the lines by
then.  A terminal line that finds no request waits for it; a raw line does not,
and is missing in the reply.

An exchange goes through phases (`Phase`), each of which tells what the reply
will be from the lines that are still unread.  Every action of the exchange leads
from phase to phase (`Exchange.step`), whatever the interleaving of writer and
reader.
-/

namespace BleBridge

namespace Text

/-- Without some of the lines in front the text is shorter. -/
theorem length_joinLines_drop_lt {n : Nat} {ls : List String} (hn : n ≠ 0) (hls : ls ≠ [])
    (last : String) :
    (joinLines (ls.drop n ++ [last])).length < (joinLines (ls ++ [last])).length := by
  induction ls generalizing n with
  | nil => exact absurd rfl hls
  | cons l ls ih =>
      obtain ⟨n, rfl⟩ := Nat.exists_eq_succ_of_ne_zero hn
      have hcons : (joinLines (l :: ls ++ [last])).length =
          l.length + 1 + (joinLines (ls ++ [last])).length := by
        rw [List.cons_append, joinLines_cons l (by simp), String.length_append,
          String.length_append]
        rfl
      rw [List.drop_succ_cons, hcons]
      by_cases hdrop : n = 0 ∨ ls = []
      · have hsame : ls.drop n = ls := by
          rcases hdrop with rfl | rfl
          · rfl
          · exact List.drop_nil
        rw [hsame]
        omega
      · obtain ⟨hn, hls⟩ := not_or.mp hdrop
        have := ih hn hls
        omega

end Text

namespace Mux

/-! ## Lines on the wire -/

/-- The text of a line that ends with a line feed. -/
def textOf (line : Bytes) : String := lineText (line ++ [lineFeed])

/-- Lines one behind the other. -/
def stream (lines : List Bytes) : Bytes := lines.flatMap (· ++ [lineFeed])

theorem unbordered_lineFeed : Text.Unbordered [lineFeed] := by
  intro part hne hproper hprefix
  rcases List.prefix_cons_iff.mp hprefix with rfl | ⟨rest, rfl, hrest⟩
  · exact absurd rfl hne
  · rw [List.prefix_nil.mp hrest] at hproper
    exact absurd rfl hproper

/-- A line feed at the end of a line is blank. -/
theorem lineText_append_feed (line : Bytes) : lineText (line ++ [lineFeed]) = lineText line := by
  have hdecode : Text.decodeLossy (line ++ [lineFeed]) = Text.decodeLossy line ++ ['\n'] :=
    Text.decodeLossy_append_feed line
  rw [lineText, lineText, Text.trim, Text.trim, Text.ofBytesLossy, Text.ofBytesLossy, hdecode,
    String.toList_ofList, String.toList_ofList, Text.trimChars_append_blank _ rfl]

/-- Bytes without a line feed spell a line, if they spell anything. -/
theorem isLine_lineText {line : Bytes} (hfeed : lineFeed ∉ line) (hne : lineText line ≠ "") :
    Text.IsLine (lineText line) := by
  refine ⟨Text.trim_trim _, hne, fun hmem ↦ Text.feed_notMem_decodeLossy hfeed ?_⟩
  rw [lineText, Text.toList_trim, Text.ofBytesLossy, String.toList_ofList] at hmem
  exact Text.mem_of_mem_trimChars hmem

/-- A whole line goes up to the first line feed in the buffer. -/
theorem exists_of_wholeLine {s : State} {raw later : Bytes}
    (h : s.wholeLine = some (raw, later)) :
    ∃ line, raw = line ++ [lineFeed] ∧ lineFeed ∉ line ∧ s.buffer = raw ++ later := by
  obtain ⟨⟨line, behind⟩, hcut, heq⟩ := Option.map_eq_some_iff.mp h
  obtain ⟨rfl, rfl⟩ := Prod.mk.inj heq
  refine ⟨line, rfl, fun hmem ↦ ?_, Text.eq_append_of_cut? hcut⟩
  exact Text.not_infix_of_cut? (List.cons_ne_nil _ _) hcut ((List.singleton_infix_iff _ _).mpr hmem)

theorem wholeLine_eq_none_iff {s : State} : s.wholeLine = none ↔ lineFeed ∉ s.buffer := by
  rw [State.wholeLine, Option.map_eq_none_iff, Text.cut?_eq_none_iff, List.singleton_infix_iff]

/-- A whole line in the buffer is the next one of the stream. -/
theorem exists_cons_of_wholeLine {s : State} {lines : List Bytes} {unread raw rest : Bytes}
    (hfeed : ∀ line ∈ lines, lineFeed ∉ line) (hstream : s.buffer ++ unread = stream lines)
    (hwhole : s.wholeLine = some (raw, rest)) :
    ∃ line later, lines = line :: later ∧ raw = line ++ [lineFeed] ∧
      rest ++ unread = stream later := by
  obtain ⟨⟨before, behind⟩, hcut, heq⟩ := Option.map_eq_some_iff.mp hwhole
  obtain ⟨rfl, rfl⟩ := Prod.mk.inj heq
  have hfirst := Text.cut?_append hcut unread
  rw [hstream] at hfirst
  cases lines with
  | nil => cases hfirst
  | cons line later =>
      have hline : ¬ [lineFeed] <:+: line := by
        intro hpart
        exact hfeed line List.mem_cons_self (hpart.subset List.mem_cons_self)
      have hcut' := Text.cut?_append (Text.cut?_append_mark unbordered_lineFeed hline)
        (stream later)
      rw [List.nil_append] at hcut'
      obtain ⟨rfl, hrest⟩ := Prod.mk.inj (Option.some.inj (hcut'.symm.trans hfirst))
      exact ⟨line, later, rfl, rfl, hrest.symm⟩

/-- A reply of the peripheral: raw lines and then a terminal one, none of them blank or ignored. -/
structure Reply (settings : Config.Mux) where
  raws : List Bytes
  last : Bytes
  status : Modem.Status
  feedless : ∀ line ∈ raws ++ [last], lineFeed ∉ line
  nonblank : ∀ line ∈ raws ++ [last], textOf line ≠ ""
  heeded : ∀ line ∈ raws ++ [last], isIgnored settings (textOf line) = false
  raw : ∀ line ∈ raws, Modem.classifyLine (textOf line) settings.marker = .raw
  terminal : Modem.classifyLine (textOf last) settings.marker = .terminal status

namespace Reply

variable {settings : Config.Mux} (reply : Reply settings)

def bytes : Bytes := stream (reply.raws ++ [reply.last])

/-- The text of the reply without its first `n` raw lines. -/
def textFrom (n : Nat) : String :=
  Text.joinLines ((reply.raws.map textOf).drop n ++ [textOf reply.last])

/-- The text of the whole reply. -/
def text : String :=
  Text.joinLines (reply.raws.map textOf ++ [textOf reply.last])

theorem textFrom_eq_text_iff {n : Nat} :
    reply.textFrom n = reply.text ↔ n = 0 ∨ reply.raws = [] := by
  constructor
  · intro heq
    by_contra hnot
    obtain ⟨hn, hraws⟩ := not_or.mp hnot
    have hne : reply.raws.map textOf ≠ [] := fun h ↦ hraws (List.map_eq_nil_iff.mp h)
    have hlt := Text.length_joinLines_drop_lt hn hne (textOf reply.last)
    rw [← textFrom, heq, text] at hlt
    exact absurd hlt (Nat.lt_irrefl _)
  · rintro (rfl | hraws)
    · rfl
    · rw [textFrom, text, hraws]
      simp

end Reply

/-! ## Schedules -/

/-- Actions, each at its time. -/
abbrev Schedule := List (Instant × Action)

/-- The bytes that come. -/
def received : Schedule → Bytes
  | [] => []
  | (_, .receive chunk) :: later => chunk ++ received later
  | _ :: later => received later

/-- How many lines are read before the writer hands the request over. -/
def readEarly : Schedule → Nat
  | [] => 0
  | (_, .handOff) :: _ => 0
  | (_, .readLine) :: later => readEarly later + 1
  | _ :: later => readEarly later

/-- What happens in an exchange without other traffic: the write ends and the request is handed
over, bytes come, and lines are read after the command went out and before its deadline.  A
terminal line without a request waits until one is handed over.  Callers may queue up, and
consumers take their lines. -/
def Exchanges (r : Request) (now : Instant) : Action → Prop
  | .wrote | .handOff | .receive _ | .meetHanded | .delayEnds => True
  | .readLine => r.writtenAt ≤ now ∧ r.isExpired now = false
  | .enter _ _ | .lineUp _ | .leaveLine _ | .takeReports | .takeRaw => True
  | _ => False

instance (r : Request) (now : Instant) (a : Action) : Decidable (Exchanges r now a) :=
  match a with
  | .wrote | .handOff | .receive _ | .meetHanded | .delayEnds => .isTrue trivial
  | .readLine => inferInstanceAs (Decidable (_ ∧ _))
  | .enter _ _ | .lineUp _ | .leaveLine _ | .takeReports | .takeRaw => .isTrue trivial
  | .take | .writeFailed _ | .readFailed _ | .readEnd | .restEnds | .graceEnds | .close
  | .stopWriter | .stopReader => .isFalse id

/-- The command of `r` is going out, and nothing else is pending. -/
structure Alone (r : Request) (s : State) : Prop where
  writer : s.writer = .writing r
  handoff : s.handoff = []
  fifo : s.fifo = []
  headLines : s.headLines = []
  reader : s.reader = .reading
  buffer : s.buffer = []

/-! ## Phases -/

section Phases

variable {settings : Config.Mux} {reply : Reply settings} {r : Request} {text : String}
  {earlier : List Outcome} {lines : List Bytes} {n : Nat} {s s' : State} {now : Instant}
  {events : List Event} {later : Schedule}

/-- What an exchange with `lines` unread has come to, the first `n` of them being read before the
request is handed over, if `text` will be the text of the reply and `earlier` are the results so
far. -/
inductive Phase (reply : Reply settings) (r : Request) (text : String) (earlier : List Outcome)
    (lines : List Bytes) (n : Nat) (s : State) : Prop where
  /-- The reader does not know of the request, and lines are left. -/
  | unhanded (raws : List Bytes) (sub : raws ⊆ reply.raws) (unread : lines = raws ++ [reply.last])
      (writer : s.writer = .writing r ∨ s.writer = .handing r) (handoff : s.handoff = [])
      (fifo : s.fifo = []) (headLines : s.headLines = []) (reader : s.reader = .reading)
      (answer : text = Text.joinLines ((raws.map textOf).drop n ++ [textOf reply.last]))
      (resolved : s.resolved = earlier)
  /-- The request is there, and lines are left. -/
  | listening (raws : List Bytes) (sub : raws ⊆ reply.raws) (unread : lines = raws ++ [reply.last])
      (writer : s.writer = .idle) (pending : s.fifo ++ s.handoff = [r])
      (reader : s.reader = .reading)
      (answer : text = Text.joinLines (s.headLines ++ raws.map textOf ++ [textOf reply.last]))
      (resolved : s.resolved = earlier)
  /-- The terminal line waits for the request. -/
  | waiting (readAt : Instant) (due : Millis) (unread : lines = [])
      (pending : (s.writer = .writing r ∨ s.writer = .handing r) ∧ s.handoff = [] ∨
        s.writer = .idle ∧ s.handoff = [r])
      (fifo : s.fifo = []) (headLines : s.headLines = [])
      (reader : s.reader = .graceful (textOf reply.last) reply.status readAt due)
      (fresh : r.writtenAt ≤ readAt) (answer : text = Text.joinLines [textOf reply.last])
      (resolved : s.resolved = earlier)
  /-- The reply is complete, and its delivery is put off. -/
  | delaying (due : Millis) (unread : lines = []) (writer : s.writer = .idle)
      (reader : s.reader = .delaying r (verdict reply.status text) due)
      (resolved : s.resolved = earlier)
  | answered (unread : lines = []) (writer : s.writer = .idle) (reader : s.reader = .reading)
      (resolved : s.resolved = (r.ticket, bridged (verdict reply.status text)) :: earlier)

/-- What a phase says does not hang on callers, consumers and bytes. -/
theorem Phase.congr (h : Phase reply r text earlier lines n s) (hwriter : s'.writer = s.writer)
    (hhandoff : s'.handoff = s.handoff) (hfifo : s'.fifo = s.fifo)
    (hheadLines : s'.headLines = s.headLines) (hreader : s'.reader = s.reader)
    (hresolved : s'.resolved = s.resolved) : Phase reply r text earlier lines n s' := by
  cases h with
  | unhanded raws sub unread writer handoff fifo headLines reader answer resolved =>
      exact .unhanded raws sub unread (hwriter ▸ writer) (hhandoff ▸ handoff) (hfifo ▸ fifo)
        (hheadLines ▸ headLines) (hreader ▸ reader) answer (hresolved ▸ resolved)
  | listening raws sub unread writer pending reader answer resolved =>
      exact .listening raws sub unread (hwriter ▸ writer) (hfifo ▸ hhandoff ▸ pending)
        (hreader ▸ reader) (hheadLines ▸ answer) (hresolved ▸ resolved)
  | waiting readAt due unread pending fifo headLines reader fresh answer resolved =>
      exact .waiting readAt due unread (hwriter ▸ hhandoff ▸ pending) (hfifo ▸ fifo)
        (hheadLines ▸ headLines) (hreader ▸ reader) fresh answer (hresolved ▸ resolved)
  | delaying due unread writer reader resolved =>
      exact .delaying due unread (hwriter ▸ writer) (hreader ▸ reader) (hresolved ▸ resolved)
  | answered unread writer reader resolved =>
      exact .answered unread (hwriter ▸ writer) (hreader ▸ reader) (hresolved ▸ resolved)

theorem Phase.waits (h : Phase reply r text earlier lines n s) : s.reader.Waits settings := by
  intro text' status' readAt' due' hgraceful
  cases h with
  | waiting readAt due unread pending fifo headLines reader =>
      rw [reader] at hgraceful
      cases hgraceful
      exact reply.terminal
  | unhanded raws sub unread writer handoff fifo headLines reader
  | listening raws sub unread writer pending reader
  | delaying due unread writer reader
  | answered unread writer reader =>
      rw [reader] at hgraceful
      cases hgraceful

/-! ## Writer -/

theorem Phase.wrote {e : Event} (h : Phase reply r text earlier lines n s)
    (htaken : s.wrote = some (s', e)) :
    s'.buffer = s.buffer ∧ Phase reply r text earlier lines n s' := by
  rw [State.wrote] at htaken
  split at htaken
  · rename_i q hwriting
    cases htaken
    refine ⟨rfl, ?_⟩
    cases h with
    | unhanded raws sub unread writer handoff fifo headLines reader answer resolved =>
        obtain rfl : q = r := by simpa [hwriting] using writer
        exact .unhanded raws sub unread (.inr rfl) handoff fifo headLines reader answer resolved
    | waiting readAt due unread pending fifo headLines reader fresh answer resolved =>
        obtain ⟨rfl, handoff⟩ : q = r ∧ s.handoff = [] := by simpa [hwriting] using pending
        exact .waiting readAt due unread (.inl ⟨.inr rfl, handoff⟩) fifo headLines reader fresh
          answer resolved
    | listening raws sub unread writer | delaying due unread writer | answered unread writer =>
        simp [hwriting] at writer
  · cases htaken

/-- From the handover on, every line that is read joins the reply. -/
theorem Phase.handOff (h : Phase reply r text earlier lines 0 s)
    (htaken : s.handOff = some s') :
    s'.buffer = s.buffer ∧ Phase reply r text earlier lines n s' := by
  rw [State.handOff] at htaken
  split at htaken
  · rename_i q hhanding
    dsimp only at htaken
    cases h with
    | unhanded raws sub unread writer handoff fifo headLines reader answer resolved =>
        obtain rfl : q = r := by simpa [hhanding] using writer
        rw [if_neg (by simp [reader, Reader.isStopped])] at htaken
        cases htaken
        refine ⟨rfl, .listening raws sub unread rfl ?_ reader ?_ resolved⟩
        · rw [fifo, handoff]
          rfl
        · rw [headLines, List.nil_append, answer, List.drop_zero]
    | waiting readAt due unread pending fifo headLines reader fresh answer resolved =>
        obtain ⟨rfl, handoff⟩ : q = r ∧ s.handoff = [] := by simpa [hhanding] using pending
        rw [if_neg (by simp [reader, Reader.isStopped])] at htaken
        cases htaken
        refine ⟨rfl, .waiting readAt due unread (.inr ⟨rfl, ?_⟩) fifo headLines reader fresh answer
          resolved⟩
        rw [handoff]
        rfl
    | listening raws sub unread writer | delaying due unread writer | answered unread writer =>
        simp [hhanding] at writer
  · cases htaken

/-! ## Reader -/

theorem buffer_takeTerminal (s : State) (line : String) (status : Modem.Status)
    (readAt now : Instant) : (s.takeTerminal line status readAt now).1.buffer = s.buffer := by
  rw [State.takeTerminal_eq]

/-- The terminal line completes the reply. -/
theorem phase_takeTerminal {readAt : Instant} (hwriter : s.writer = .idle) (hfifo : s.fifo = [r])
    (hfresh : r.writtenAt ≤ readAt) (hresolved : s.resolved = earlier)
    (htext : text = Text.joinLines (s.headLines ++ [textOf reply.last])) :
    Phase reply r text earlier [] n
      (s.takeTerminal (textOf reply.last) reply.status readAt now).1 := by
  have hpredates : ¬ r.predates readAt = true := by
    simpa [Request.predates] using hfresh
  rw [State.takeTerminal, hfifo]
  dsimp only
  rw [if_neg hpredates]
  split
  · refine .answered rfl hwriter rfl ?_
    rw [htext, ← hresolved]
    rfl
  · refine .delaying (now.millis + r.readDelay) rfl hwriter ?_ hresolved
    rw [htext]

theorem Phase.meetHanded (h : Phase reply r text earlier lines n s)
    (htaken : s.meetHanded now = some (s', events)) :
    s'.buffer = s.buffer ∧ Phase reply r text earlier lines n s' := by
  rw [State.meetHanded] at htaken
  split at htaken
  · rename_i text' status' readAt' due' q rest hgraceful hhandoff
    rw [← State.fst_of_some htaken]
    refine ⟨buffer_takeTerminal _ _ _ _ _, ?_⟩
    cases h with
    | waiting readAt due unread pending fifo headLines reader fresh answer resolved =>
        obtain ⟨writer, rfl, rfl⟩ : s.writer = .idle ∧ q = r ∧ rest = [] := by
          simpa [hhandoff] using pending
        rw [reader] at hgraceful
        cases hgraceful
        subst lines
        refine phase_takeTerminal writer ?_ fresh resolved ?_
        · rw [fifo]
          rfl
        · rw [answer, headLines, List.nil_append]
    | unhanded raws sub unread writer handoff fifo headLines reader
    | listening raws sub unread writer pending reader
    | delaying due unread writer reader
    | answered unread writer reader => simp [reader] at hgraceful
  · cases htaken

theorem Phase.delayEnds (h : Phase reply r text earlier lines n s)
    (htaken : s.delayEnds = some s') :
    s'.buffer = s.buffer ∧ Phase reply r text earlier lines n s' := by
  rw [State.delayEnds] at htaken
  split at htaken
  · rename_i q v due' hdelaying
    cases htaken
    cases h with
    | delaying due unread writer reader resolved =>
        rw [reader] at hdelaying
        cases hdelaying
        refine ⟨rfl, .answered unread writer rfl ?_⟩
        rw [← resolved]
        rfl
    | unhanded raws sub unread writer handoff fifo headLines reader
    | listening raws sub unread writer pending reader
    | waiting readAt due unread pending fifo headLines reader
    | answered unread writer reader => simp [reader] at hdelaying
  · cases htaken

theorem sweep_of_fresh (h : ∀ q ∈ s.fifo.head?, q.isExpired now = false) :
    (s.sweep now).1 = s := by
  rw [State.sweep]
  cases hfifo : s.fifo with
  | nil => rw [State.sweep.go, ← hfifo]
  | cons q rest =>
      rw [State.sweep.go, if_neg (by simp [h q (by rw [hfifo]; rfl)]), ← hfifo]

/-- A line that is read while no request is too old is routed at once. -/
theorem takeLine_of_fresh (raw : Bytes)
    (h : ∀ q ∈ (s.fifo ++ s.handoff).head?, q.isExpired now = false) :
    (s.takeLine raw now).1 = s.absorb.route (lineText raw) now := by
  rw [State.takeLine_fst, sweep_of_fresh h]

theorem route_of_heeded {line : String} (hblank : line ≠ "")
    (hheeded : isIgnored s.settings line = false) :
    s.route line now = match Modem.classifyLine line s.settings.marker with
      | .report segments => s.takeReport segments
      | .raw => s.takeRaw line now
      | .terminal status =>
          if s.fifo.isEmpty then
            { s with reader := .graceful line status now (now.millis + handoffGrace) }
          else (s.takeTerminal line status now now).1 := by
  have hroutes : ¬ (line = "" || isIgnored s.settings line) = true := by simp [hblank, hheeded]
  exact if_neg hroutes

theorem buffer_route (s : State) (line : String) (now : Instant) :
    (s.route line now).buffer = s.buffer := by
  rw [State.route_eq]

/-- The unread lines are lines of the reply. -/
theorem Phase.subset (h : Phase reply r text earlier lines n s) :
    lines ⊆ reply.raws ++ [reply.last] := by
  have hleft : ∀ {raws}, raws ⊆ reply.raws → raws ++ [reply.last] ⊆ reply.raws ++ [reply.last] :=
    fun sub ↦ List.append_subset.mpr
      ⟨List.subset_append_of_subset_left _ sub, List.subset_append_right _ _⟩
  cases h with
  | unhanded raws sub unread => exact unread ▸ hleft sub
  | listening raws sub unread => exact unread ▸ hleft sub
  | waiting readAt due unread | delaying due unread | answered unread =>
      rw [unread]
      exact List.nil_subset _

/-- The only request that a line can meet is `r`. -/
theorem Phase.eq_of_mem_head {line : Bytes} {rest : List Bytes} {q : Request}
    (h : Phase reply r text earlier (line :: rest) n s)
    (hq : q ∈ (s.fifo ++ s.handoff).head?) : q = r := by
  cases h with
  | unhanded raws sub unread writer handoff fifo =>
      rw [fifo, handoff] at hq
      cases hq
  | listening raws sub unread writer pending =>
      rw [pending] at hq
      cases hq
      rfl
  | waiting readAt due unread | delaying due unread | answered unread => cases unread

/-- A raw line joins the reply if the request is there, and a terminal line completes the reply or
waits for the request. -/
theorem Phase.route {line : Bytes} {rest : List Bytes} (hsettings : s.settings = settings)
    (hwritten : r.writtenAt ≤ now) (h : Phase reply r text earlier (line :: rest) (n + 1) s) :
    Phase reply r text earlier rest n (s.absorb.route (textOf line) now) := by
  subst hsettings
  have hline := h.subset List.mem_cons_self
  have hpredates : r.predates now = false := by simpa [Request.predates] using hwritten
  rw [route_of_heeded (s := s.absorb) (reply.nonblank line hline) (reply.heeded line hline)]
  cases h with
  | unhanded raws sub unread writer handoff fifo headLines reader answer resolved =>
      have habsorb : s.absorb.fifo = [] := by rw [State.absorb, fifo, handoff]; rfl
      cases raws with
      | nil =>
          cases unread
          rw [show s.absorb.settings = s.settings from rfl, reply.terminal]
          dsimp only
          rw [if_pos (by rw [habsorb]; rfl)]
          refine .waiting now _ rfl (.inl ⟨writer, rfl⟩) habsorb headLines rfl hwritten ?_ resolved
          rw [answer, List.map_nil, List.drop_nil, List.nil_append]
      | cons raw raws =>
          cases unread
          have hraw := sub List.mem_cons_self
          rw [show s.absorb.settings = s.settings from rfl, reply.raw line hraw]
          refine .unhanded raws (fun l hl ↦ sub (List.mem_cons_of_mem _ hl)) rfl writer rfl habsorb
            ?_ reader ?_ resolved
          · rw [State.takeRaw, habsorb]
            exact headLines
          · rw [answer, List.map_cons, List.drop_succ_cons]
  | listening raws sub unread writer pending reader answer resolved =>
      have habsorb : s.absorb.fifo = [r] := pending
      cases raws with
      | nil =>
          cases unread
          rw [show s.absorb.settings = s.settings from rfl, reply.terminal]
          dsimp only
          rw [if_neg (by rw [habsorb]; simp)]
          refine phase_takeTerminal writer habsorb hwritten resolved ?_
          rw [answer, List.map_nil, List.append_nil]
          rfl
      | cons raw raws =>
          cases unread
          have hraw := sub List.mem_cons_self
          rw [show s.absorb.settings = s.settings from rfl, reply.raw line hraw]
          refine .listening raws (fun l hl ↦ sub (List.mem_cons_of_mem _ hl)) rfl writer ?_ reader
            ?_ resolved
          · rw [State.takeRaw, habsorb]
            exact List.append_nil _
          · rw [answer, State.takeRaw, habsorb]
            simp [hpredates, State.absorb]
  | waiting readAt due unread | delaying due unread | answered unread => cases unread

/-- The next line is read. -/
theorem Phase.readLine {coming : Bytes} (hsettings : s.settings = settings)
    (hwritten : r.writtenAt ≤ now) (hexpired : r.isExpired now = false)
    (hstream : s.buffer ++ coming = stream lines)
    (h : Phase reply r text earlier lines (n + 1) s)
    (htaken : s.readLine now = some (s', events)) :
    ∃ rest, s'.buffer ++ coming = stream rest ∧ Phase reply r text earlier rest n s' := by
  rw [State.readLine] at htaken
  split at htaken
  · rename_i raw behind hreading hwhole
    have hfeedless : ∀ line ∈ lines, lineFeed ∉ line := fun line hline ↦
      reply.feedless line (h.subset hline)
    obtain ⟨line, rest, rfl, rfl, hrest⟩ := exists_cons_of_wholeLine hfeedless hstream hwhole
    have hfresh : ∀ q ∈ (s.fifo ++ s.handoff).head?, q.isExpired now = false := fun q hq ↦
      h.eq_of_mem_head hq ▸ hexpired
    have htake : ({ s with buffer := behind }.takeLine (line ++ [lineFeed]) now).1 =
        { s with buffer := behind }.absorb.route (textOf line) now :=
      takeLine_of_fresh (s := { s with buffer := behind }) _ hfresh
    rw [← State.fst_of_some htaken, htake]
    refine ⟨rest, ?_, ?_⟩
    · rw [buffer_route]
      exact hrest
    · have hphase : Phase reply r text earlier (line :: rest) (n + 1)
          { s with buffer := behind } := h.congr rfl rfl rfl rfl rfl rfl
      exact hphase.route hsettings hwritten
  · cases htaken

/-! ## Whole exchanges -/

/-- An exchange before the actions that are left: the bytes in the buffer and those to come are the
unread lines. -/
structure Exchange (reply : Reply settings) (r : Request) (text : String) (earlier : List Outcome)
    (later : Schedule) (s : State) : Prop where
  settings : s.settings = settings
  phase : ∃ lines, s.buffer ++ received later = stream lines ∧
    Phase reply r text earlier lines (readEarly later) s

theorem Exchange.step {a : Action} (hexchanges : Exchanges r now a)
    (h : Exchange reply r text earlier ((now, a) :: later) s)
    (htaken : s.step now a = some (s', events)) : Exchange reply r text earlier later s' := by
  obtain ⟨hsettings, lines, hstream, hphase⟩ := h
  have hwaits : s.reader.Waits s.settings := hsettings ▸ hphase.waits
  refine ⟨(State.moves_step hwaits htaken).settings_eq.trans hsettings, ?_⟩
  cases a with
  | wrote =>
      obtain ⟨e, htaken⟩ := State.exists_of_map_singleton htaken
      obtain ⟨hbuffer, hphase⟩ := hphase.wrote htaken
      exact ⟨lines, hbuffer ▸ hstream, hphase⟩
  | handOff =>
      obtain ⟨hbuffer, hphase⟩ := hphase.handOff (State.eq_some_of_map_nil htaken)
      exact ⟨lines, hbuffer ▸ hstream, hphase⟩
  | receive chunk =>
      cases htaken
      refine ⟨lines, ?_, hphase.congr rfl rfl rfl rfl rfl rfl⟩
      rw [State.receive, List.append_assoc]
      exact hstream
  | readLine => exact hphase.readLine hsettings hexchanges.1 hexchanges.2 hstream htaken
  | meetHanded =>
      obtain ⟨hbuffer, hphase⟩ := hphase.meetHanded htaken
      exact ⟨lines, hbuffer ▸ hstream, hphase⟩
  | delayEnds =>
      obtain ⟨hbuffer, hphase⟩ := hphase.delayEnds (State.eq_some_of_map_nil htaken)
      exact ⟨lines, hbuffer ▸ hstream, hphase⟩
  | enter o ticket =>
      rw [State.step] at htaken
      split at htaken
      · cases htaken
        exact ⟨lines, hstream, hphase.congr rfl rfl rfl rfl rfl rfl⟩
      · cases htaken
  | lineUp | leaveLine | takeReports | takeRaw =>
      cases htaken
      exact ⟨lines, hstream, hphase.congr rfl rfl rfl rfl rfl rfl⟩
  | take | writeFailed | readFailed | readEnd | restEnds | graceEnds | close | stopWriter
    | stopReader => exact hexchanges.elim

theorem Exchange.follow {actions : Schedule} {h h' : History}
    (hexchanges : ∀ timed ∈ actions, Exchanges r timed.1 timed.2)
    (hexchange : Exchange reply r text earlier actions s)
    (hfollow : s.follow h actions = some (h', s')) : Exchange reply r text earlier [] s' := by
  induction actions generalizing h s with
  | nil =>
      cases hfollow
      exact hexchange
  | cons timed later ih =>
      obtain ⟨now, a⟩ := timed
      rw [State.follow] at hfollow
      split at hfollow
      · rename_i t events htaken
        exact ih (fun timed htimed ↦ hexchanges timed (List.mem_cons_of_mem _ htimed))
          (hexchange.step (hexchanges _ List.mem_cons_self) htaken) hfollow
      · cases hfollow

/-- With all lines read and nothing in the reader's hand the request is answered. -/
theorem Exchange.resolved (h : Exchange reply r text earlier [] s)
    (hfree : s.reader.isFree = true) (hbuffer : s.buffer = []) :
    s.resolved = (r.ticket, bridged (verdict reply.status text)) :: earlier := by
  obtain ⟨-, lines, hstream, hphase⟩ := h
  have hleft : ∀ raws : List Bytes, lines ≠ raws ++ [reply.last] := by
    rintro raws rfl
    rw [hbuffer, stream, List.flatMap_append] at hstream
    simp [received] at hstream
  cases hphase with
  | unhanded raws sub unread => exact absurd unread (hleft raws)
  | listening raws sub unread => exact absurd unread (hleft raws)
  | waiting readAt due unread pending fifo headLines reader => simp [reader, Reader.isFree] at hfree
  | delaying due unread writer reader => simp [reader, Reader.isFree] at hfree
  | answered unread writer reader resolved => exact resolved

/-! A command that is going out alone, and a reply to it with one raw line. -/

def query : Request := ⟨0, Text.bytes "AT+A\r\n", 50, 0, 0, 1⟩

def querying : State := { new {} with writer := .writing query }

def queryReply : Reply querying.settings where
  raws := [Text.bytes "+R: 1\r"]
  last := Text.bytes "OK\r"
  status := .success
  feedless := by decide +kernel
  nonblank := by decide +kernel
  heeded := by decide +kernel
  raw := by decide +kernel
  terminal := by decide +kernel

theorem run_querying : Run {} [.admitted { query with writtenAt := 0 }] querying :=
  .follow .start (show State.follow [] (new {})
    [(0, .enter ⟨Text.bytes "AT+A\r\n", 50, 0, 100⟩ 0), (1, .take)] = some (_, querying) from rfl)

theorem alone_querying : Alone query querying := ⟨rfl, rfl, rfl, rfl, rfl, rfl⟩

/-- A command that goes out while nothing is pending is answered with the reply of the peripheral
without the raw lines that are read before the request is handed over.  So no line is missing if
and only if none is read before, or none is raw. -/
theorem Alone.reply_of_exchange {h h' : History} {actions : Schedule} (reply : Reply s.settings)
    (halone : Alone r s) (hexchanges : ∀ timed ∈ actions, Exchanges r timed.1 timed.2)
    (hreceived : received actions = reply.bytes)
    (hfollow : s.follow h actions = some (h', s')) (hfree : s'.reader.isFree = true)
    (hbuffer : s'.buffer = []) :
    s'.resolved = (r.ticket, bridged (verdict reply.status
        (reply.textFrom (readEarly actions)))) :: s.resolved ∧
      (reply.textFrom (readEarly actions) = reply.text ↔
        readEarly actions = 0 ∨ reply.raws = []) := by
  have hstart : Exchange reply r (reply.textFrom (readEarly actions)) s.resolved actions s := by
    refine ⟨rfl, reply.raws ++ [reply.last], ?_, ?_⟩
    · rw [halone.buffer, List.nil_append, hreceived, Reply.bytes]
    · exact .unhanded reply.raws (List.Subset.refl _) rfl (.inl halone.writer) halone.handoff
        halone.fifo halone.headLines halone.reader rfl rfl
  exact ⟨(hstart.follow hexchanges hfollow).resolved hfree hbuffer,
    reply.textFrom_eq_text_iff⟩

/-- The request is handed over before the first of two lines is read, and the reply has both. -/
theorem reply_of_exchange_whole : ∃ h s r, Run {} h s ∧ Alone r s ∧ ∃ h' s',
    s.follow h [(2, .wrote), (3, .receive (Text.bytes "+R: 1\r\nOK\r\n")), (4, .handOff),
      (5, .readLine), (6, .readLine)] = some (h', s') ∧
      s'.resolved = [(r.ticket, .ok "+R: 1\nOK")] := by
  let actions : Schedule :=
    [(2, .wrote), (3, .receive (Text.bytes "+R: 1\r\nOK\r\n")), (4, .handOff), (5, .readLine),
      (6, .readLine)]
  have hexchanges : ∀ timed ∈ actions, Exchanges query timed.1 timed.2 := by decide +kernel
  have hends : (querying.follow [.admitted { query with writtenAt := 0 }] actions).any
      (fun (_, s') ↦ s'.reader.isFree = true ∧ s'.buffer = []) = true := by
    decide +kernel
  obtain ⟨⟨h', s'⟩, hfollow, hs⟩ := (Option.any_eq_true _ _).mp hends
  obtain ⟨hfree, hbuffer⟩ := of_decide_eq_true hs
  obtain ⟨hresolved, hwhole⟩ := alone_querying.reply_of_exchange queryReply hexchanges
    (by decide +kernel) hfollow hfree hbuffer
  rw [hwhole.mpr (.inl rfl)] at hresolved
  have htext : bridged (verdict queryReply.status queryReply.text) = .ok "+R: 1\nOK" := by
    decide +kernel
  rw [htext] at hresolved
  exact ⟨_, querying, query, run_querying, alone_querying, h', s', hfollow, hresolved⟩

/-- The same reply, the first line of which is read before the request is handed over: it is
missing. -/
theorem early_line_lost : ∃ h s r, ∃ reply : Reply s.settings, Run {} h s ∧ Alone r s ∧
    ∃ actions h' s', (∀ timed ∈ actions, Exchanges r timed.1 timed.2) ∧
      received actions = reply.bytes ∧ s.follow h actions = some (h', s') ∧
      s'.reader.isFree = true ∧ s'.buffer = [] ∧ reply.text = "+R: 1\nOK" ∧
      s'.resultOf r.ticket = some (.ok "OK") ∧
      s'.resultOf r.ticket ≠ some (bridged (verdict reply.status reply.text)) := by
  let actions : Schedule :=
    [(2, .wrote), (3, .receive (Text.bytes "+R: 1\r\nOK\r\n")), (4, .readLine), (5, .handOff),
      (6, .readLine)]
  have hexchanges : ∀ timed ∈ actions, Exchanges query timed.1 timed.2 := by decide +kernel
  have hends : (querying.follow [.admitted { query with writtenAt := 0 }] actions).any
      (fun (_, s') ↦ s'.reader.isFree = true ∧ s'.buffer = [] ∧
        s'.resultOf query.ticket = some (.ok "OK")) = true := by
    decide +kernel
  obtain ⟨⟨h', s'⟩, hfollow, hs⟩ := (Option.any_eq_true _ _).mp hends
  obtain ⟨hfree, hbuffer, hresult⟩ := of_decide_eq_true hs
  refine ⟨_, querying, query, queryReply, run_querying, alone_querying, actions, h', s',
    hexchanges, by decide +kernel, hfollow, hfree, hbuffer, by decide +kernel, hresult, ?_⟩
  rw [hresult]
  decide +kernel

end Phases

end Mux

end BleBridge
