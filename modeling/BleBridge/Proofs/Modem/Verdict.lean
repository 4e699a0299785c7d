import BleBridge.Modem.Controller
import BleBridge.Proofs.Mux.Balance
import BleBridge.Proofs.Mux.Deeds

/-!
# Two verdicts on a reply

The multiplexer judges a reply by the status of its last line.  The controller
looks at the text of the whole reply again, in which it searches for the tokens and
for a line with a module error.  The two agree on every reply that the reader puts
together (`Assembled.agrees`).  The raw lines of a reply hold no token.  Joining lines
makes no token, since no token holds a line feed, and the lines of the joined text
are the lines that were joined.

The replies of a run are put together so (`Run.assembled`), and the controller returns
whatever the multiplexer resolved its request with (`Run.outcome_sendSingle`).
-/

namespace BleBridge

/-- What a routine comes to if its calls are answered so. -/
def Routine.outcome {α : Type} (answer : (c : Call) → c.Answer) : Routine α → α
  | .done a => a
  | .call c next => (next (answer c)).outcome answer

theorem Routine.outcome_bind {α β : Type} (answer : (call : Call) → call.Answer) (p : Routine α)
    (f : α → Routine β) : (p.bind f).outcome answer = (f (p.outcome answer)).outcome answer := by
  induction p with
  | done a => rfl
  | call c next ih => exact ih (answer c)

namespace Modem

/-! ## Tokens on lines -/

section Tokens

variable {line marker : String}

/-- What the outcome of a line says about its tokens. -/
def Holds (line : String) : Option Status → Prop
  | some .moduleError => Text.startsWith line moduleErrorLead
  | some .failure => ¬ Text.startsWith line moduleErrorLead ∧ Text.contains line failureToken
  | some .success =>
      ¬ Text.startsWith line moduleErrorLead ∧ ¬ Text.contains line failureToken ∧
        Text.contains line successToken
  | none =>
      ¬ Text.startsWith line moduleErrorLead ∧ ¬ Text.contains line failureToken ∧
        ¬ Text.contains line successToken

theorem holds_terminalStatus (line : String) : Holds line (terminalStatus line) := by
  rw [terminalStatus]
  split
  · assumption
  · split
    · exact ⟨‹_›, ‹_›⟩
    · split <;> exact ⟨‹_›, ‹_›, ‹_›⟩

theorem holds_of_raw (h : classifyLine line marker = .raw) : Holds line none := by
  have hholds := holds_terminalStatus line
  rw [classifyLine] at h
  split at h
  · cases h
  · split at h
    · cases h
    · rename_i hnone
      rwa [hnone] at hholds

theorem holds_of_terminal {status : Status} (h : classifyLine line marker = .terminal status) :
    Holds line (some status) := by
  have hholds := holds_terminalStatus line
  rw [classifyLine] at h
  split at h
  · cases h
  · split at h
    · rename_i hstatus
      cases h
      rwa [hstatus] at hholds
    · cases h

end Tokens

/-! ## Replies that are put together -/

/-- Lines that the reader puts together to a reply: raw ones, and a terminal one at the end. -/
structure Assembled (marker : String) (raws : List String) (last : String) (status : Status) :
    Prop where
  line : ∀ l ∈ raws ++ [last], Text.IsLine l
  raw : ∀ l ∈ raws, classifyLine l marker = .raw
  terminal : classifyLine last marker = .terminal status

/-- The text of a reply is cut into its lines. -/
theorem trimmedLines_joinLines {ls : List String} (h : ∀ l ∈ ls, Text.IsLine l) :
    trimmedLines (Text.joinLines ls) = ls := by
  rw [trimmedLines, Text.lines_joinLines h, List.map_map]
  exact (List.map_congr_left fun l hl ↦ (h l hl).trimmed).trans (List.map_id ls)

namespace Assembled

variable {marker last : String} {raws : List String} {status : Status}

/-- A mark that no raw line holds is searched for in the last line. -/
theorem contains_iff {mark : String} (hfeed : '\n' ∉ mark.toList) (hne : mark.toList ≠ [])
    (hraws : ∀ l ∈ raws, ¬ Text.contains l mark) :
    Text.contains (Text.joinLines (raws ++ [last])) mark ↔ Text.contains last mark := by
  rw [Text.contains_joinLines hfeed hne]
  constructor
  · rintro ⟨l, hl, hmark⟩
    rcases List.mem_append.mp hl with hl | hl
    · exact absurd hmark (hraws l hl)
    · exact List.mem_singleton.mp hl ▸ hmark
  · exact fun hmark ↦ ⟨last, by simp, hmark⟩

theorem contains_failureToken (a : Assembled marker raws last status) :
    Text.contains (Text.joinLines (raws ++ [last])) failureToken ↔
      Text.contains last failureToken :=
  contains_iff (by decide) (by decide) fun l hl ↦ (holds_of_raw (a.raw l hl)).2.1

theorem contains_successToken (a : Assembled marker raws last status) :
    Text.contains (Text.joinLines (raws ++ [last])) successToken ↔
      Text.contains last successToken :=
  contains_iff (by decide) (by decide) fun l hl ↦ (holds_of_raw (a.raw l hl)).2.2

/-- Only the last line can be one with a module error. -/
theorem moduleErrorCode_eq (a : Assembled marker raws last status) :
    moduleErrorCode (Text.joinLines (raws ++ [last])) =
      (Text.dropLead? moduleErrorLead last).map Text.trim := by
  have hraws : raws.findSome? (Text.dropLead? moduleErrorLead) = none :=
    List.findSome?_eq_none_iff.mpr fun l hl ↦
      Text.dropLead?_eq_none_iff.mpr (holds_of_raw (a.raw l hl)).1
  rw [moduleErrorCode, trimmedLines_joinLines a.line, List.findSome?_append, hraws]
  simp

/-- The check of the whole text comes to what the last line says. -/
theorem verdict_eq (a : Assembled marker raws last status) :
    Mux.verdict status (Text.joinLines (raws ++ [last])) =
      (checkResponse (Text.joinLines (raws ++ [last]))).map
        fun _ ↦ Text.joinLines (raws ++ [last]) := by
  have hholds := holds_of_terminal a.terminal
  have hcode := a.moduleErrorCode_eq
  have hfailure := a.contains_failureToken
  have hsuccess := a.contains_successToken
  generalize Text.joinLines (raws ++ [last]) = response at hcode hfailure hsuccess ⊢
  cases status with
  | moduleError =>
      obtain ⟨rest, hrest⟩ : ∃ rest, Text.dropLead? moduleErrorLead last = some rest :=
        Option.ne_none_iff_exists'.mp fun hnone ↦ Text.dropLead?_eq_none_iff.mp hnone hholds
      rw [hrest, Option.map_some] at hcode
      rw [Mux.verdict, checkResponse, hcode]
      rfl
  | failure =>
      obtain ⟨hlead, htoken⟩ := hholds
      rw [Text.dropLead?_eq_none_iff.mpr hlead, Option.map_none] at hcode
      rw [checkResponse, hcode]
      dsimp only
      rw [if_pos (hfailure.mpr htoken)]
      rfl
  | success =>
      obtain ⟨hlead, hfree, htoken⟩ := hholds
      rw [Text.dropLead?_eq_none_iff.mpr hlead, Option.map_none] at hcode
      rw [checkResponse, hcode]
      dsimp only
      rw [if_neg fun htext ↦ hfree (hfailure.mp htext), if_pos (hsuccess.mpr htoken)]
      rfl

end Assembled

/-! ## The controller -/

/-- A command line comes to the answer of the multiplexer, if the reply passes the check. -/
theorem Controller.outcome_sendSingle (c : Controller) (line : String)
    (answer : (call : Call) → call.Answer) :
    (c.sendSingle line).run.outcome answer =
      Except.bind (answer (.enqueue (c.order line))) fun response ↦
        (bridged (checkResponse response)).map fun _ ↦ response := by
  change Routine.outcome answer (ExceptT.bindCont _ (answer (.enqueue (c.order line)))) = _
  cases answer (.enqueue (c.order line)) with
  | error e => rfl
  | ok response =>
      change Routine.outcome answer (ExceptT.bindCont _ (bridged (checkResponse response))) =
        (bridged (checkResponse response)).map fun _ ↦ response
      cases checkResponse response <;> rfl

/-- What the two verdicts on a reply, and a command that gets it, have to do with each other. -/
structure Agrees (status : Status) (response : String) : Prop where
  ok : Mux.verdict status response = .ok response ↔ checkResponse response = .ok ()
  error : ∀ fault, Mux.verdict status response = .error fault ↔
    checkResponse response = .error fault
  /-- A reply that is no success is one of two faults. -/
  faults : Mux.verdict status response = .ok response ∨
    Mux.verdict status response = .error (.commandFailed response) ∨
      ∃ code, Mux.verdict status response = .error (.moduleError code response)
  /-- A command that the multiplexer answers with its verdict comes to that verdict. -/
  sent : ∀ (c : Controller) (line : String) (answer : (call : Call) → call.Answer),
    answer (.enqueue (c.order line)) = bridged (Mux.verdict status response) →
      (c.sendSingle line).run.outcome answer = bridged (Mux.verdict status response)

namespace Assembled

variable {marker last : String} {raws : List String} {status : Status}

/-- A command that the multiplexer answers with its verdict comes to that verdict. -/
theorem outcome_sendSingle (a : Assembled marker raws last status) (c : Controller) (line : String)
    {answer : (call : Call) → call.Answer}
    (hanswer : answer (.enqueue (c.order line)) =
      bridged (Mux.verdict status (Text.joinLines (raws ++ [last])))) :
    (c.sendSingle line).run.outcome answer =
      bridged (Mux.verdict status (Text.joinLines (raws ++ [last]))) := by
  have hverdict := a.verdict_eq
  generalize Text.joinLines (raws ++ [last]) = response at hverdict hanswer ⊢
  rw [c.outcome_sendSingle, hanswer, hverdict]
  cases hcheck : checkResponse response with
  | ok u =>
      change (bridged (checkResponse response)).map _ = _
      rw [hcheck]
      rfl
  | error fault => rfl

theorem agrees (a : Assembled marker raws last status) :
    Agrees status (Text.joinLines (raws ++ [last])) := by
  have hsent := @outcome_sendSingle _ _ _ _ a
  have hverdict := a.verdict_eq
  generalize Text.joinLines (raws ++ [last]) = response at hverdict hsent ⊢
  have hfaults : Mux.verdict status response = .ok response ∨
      Mux.verdict status response = .error (.commandFailed response) ∨
        ∃ code, Mux.verdict status response = .error (.moduleError code response) := by
    cases status with
    | success => exact .inl rfl
    | failure => exact .inr (.inl rfl)
    | moduleError => exact .inr (.inr ⟨_, rfl⟩)
  refine ⟨?_, fun fault ↦ ?_, hfaults, fun c line answer ↦ hsent c line⟩
  · rw [hverdict]
    cases checkResponse response <;> simp [Except.map]
  · rw [hverdict]
    cases checkResponse response <;> simp [Except.map]

/-- A raw line and a module error. -/
theorem agrees_of_moduleError :
    Assembled "+COMMAND:" ["+R: 1"] "+CME ERROR: 12" .moduleError ∧
      Agrees .moduleError (Text.joinLines (["+R: 1"] ++ ["+CME ERROR: 12"])) := by
  have hassembled : Assembled "+COMMAND:" ["+R: 1"] "+CME ERROR: 12" .moduleError := by
    refine ⟨fun l hl ↦ ?_, fun l hl ↦ ?_, by decide +kernel⟩
    · rcases List.mem_pair.mp hl with rfl | rfl
      · exact ⟨by decide +kernel, by decide, by decide⟩
      · exact ⟨by decide +kernel, by decide, by decide⟩
    · obtain rfl := List.mem_singleton.mp hl
      decide +kernel
  exact ⟨hassembled, hassembled.agrees⟩

end Assembled

end Modem

/-! ## Replies of a run -/

namespace Mux

namespace Run

variable {settings : Config.Mux} {h : History} {s : State}

/-- The text of an answer is put together from raw lines and the terminal one. -/
theorem assembled (run : Run settings h s) {r : Request} {line : Line} {status : Modem.Status}
    {reply : String} (hanswered : .answered r line status reply ∈ h) :
    ∃ raws, Modem.Assembled settings.marker raws line.text status ∧
      reply = Text.joinLines (raws ++ [line.text]) := by
  obtain ⟨-, texts, ⟨raws, hsub, rfl, -⟩, hreply⟩ := run.quoted.replies hanswered
  have hheard : ∀ l ∈ raws, .heard l ∈ h := by
    intro l hl
    obtain ⟨d, hd, hpick⟩ := List.mem_filterMap.mp (hsub.subset hl)
    cases d with
    | heard l' =>
        cases hpick
        exact hd
    | _ => cases hpick
  have harrived : ∃ readAt, .arrived line.text readAt ∈ h := by
    have hterminal : line ∈ h.terminals := List.mem_filterMap.mpr ⟨_, hanswered, rfl⟩
    have harrival : line.arrival ∈ h.arrivals := by
      rw [← run.spent]
      exact List.mem_append_left _ (List.mem_map_of_mem hterminal)
    obtain ⟨d, hd, hpick⟩ := List.mem_filterMap.mp harrival
    cases d with
    | arrived text readAt =>
        cases hpick
        exact ⟨_, hd⟩
    | _ => cases hpick
  refine ⟨raws.map Line.text, ⟨fun l hl ↦ ?_, fun l hl ↦ ?_, run.classified.answered hanswered⟩,
    hreply⟩
  · rcases List.mem_append.mp hl with hl | hl
    · obtain ⟨line, hline, rfl⟩ := List.mem_map.mp hl
      exact run.proper _ (hheard line hline)
    · obtain rfl := List.mem_singleton.mp hl
      obtain ⟨readAt, hmem⟩ := harrived
      exact run.proper _ hmem
  · obtain ⟨line, hline, rfl⟩ := List.mem_map.mp hl
    exact run.classified.raw line (hsub.subset hline)

/-- A command line comes to what the multiplexer resolved its request with. -/
theorem outcome_sendSingle (run : Run settings h s) {ticket : Nat}
    {result : Except BridgeError String} (hmem : (ticket, result) ∈ s.resolved)
    (c : Modem.Controller) (line : String) {answer : (call : Call) → call.Answer}
    (hanswer : answer (.enqueue (c.order line)) = result) :
    (c.sendSingle line).run.outcome answer = result := by
  cases result with
  | error e =>
      rw [c.outcome_sendSingle, hanswer]
      rfl
  | ok text =>
      obtain ⟨r, l, status, reply, hanswered, -, hresult⟩ :=
        run.exists_answered hmem (.inl ⟨text, rfl⟩)
      obtain ⟨raws, hassembled, rfl⟩ := run.assembled hanswered
      rw [hresult] at hanswer ⊢
      exact hassembled.outcome_sendSingle c line hanswer

end Run

end Mux

end BleBridge
