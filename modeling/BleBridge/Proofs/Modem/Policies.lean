import BleBridge.Modem.Controller
import BleBridge.Proofs.Routine.Runs

/-!
# Two ways to replay a list

A list of lines is sent one after the other, and what a reply means to the sender
(`Controller.verdict`) settles how it goes on (`replayFrom_cons`).  Where everything is
to succeed, the replay ends with the first failure; where as much as possible is to
be done, it goes on and remembers the last one.  So the two agree in success, and in
the error only if the first failure is the last one, or the same as the last one
(`policies_compared`).
-/

namespace BleBridge.Modem.Controller

open Config (InitPolicy)
open Routine (Exchange Runs orders replies)

variable {c : Controller} {line : String} {lines : List String} {t : List Exchange}
  {total step : Nat} {last : Except BridgeError Unit} {result : Except BridgeError Unit}

/-! ## One line -/

/-- What the reply to a command means to its sender. -/
def verdict (reply : Except BridgeError String) : Except BridgeError String :=
  reply.bind fun response ↦ (bridged (checkResponse response)).map fun _ ↦ response

/-- What is exchanged for a line. -/
def exchanges (c : Controller) (line : String) (reply : Except BridgeError String) :
    List Exchange :=
  ⟨.enqueue (c.order line), reply⟩ ::
    match verdict reply with
    | .ok response => [⟨.log (replyEvent line response), ()⟩]
    | .error _ => []

theorem sendSingle_eq (c : Controller) (line : String) :
    (c.sendSingle line).run = .call (.enqueue (c.order line)) fun reply ↦
      match verdict reply with
      | .ok response => .call (.log (replyEvent line response)) fun _ ↦ .done (.ok response)
      | .error e => .done (.error e) := by
  refine congrArg (Routine.call (.enqueue (c.order line))) (funext fun reply ↦ ?_)
  cases reply with
  | error e => rfl
  | ok response =>
      have hverdict : verdict (.ok response) =
          (bridged (checkResponse response)).map fun _ ↦ response := rfl
      rw [hverdict]
      change (Attempt.ofExcept (bridged (checkResponse response)) >>= fun _ ↦ _ : Attempt _).run = _
      cases bridged (checkResponse response) <;> rfl

theorem runs_sendSingle_iff {r : Except BridgeError String} :
    (c.sendSingle line).run.Runs t r ↔
      ∃ reply, t = c.exchanges line reply ∧ r = verdict reply := by
  have hreply : ∀ reply t', (match verdict reply with
      | .ok response => .call (.log (replyEvent line response)) fun _ ↦ .done (.ok response)
      | .error e => .done (.error e) : Routine (Except BridgeError String)).Runs t' r ↔
      ⟨.enqueue (c.order line), reply⟩ :: t' = c.exchanges line reply ∧ r = verdict reply := by
    intro reply t'
    rw [exchanges, List.cons_inj_right]
    cases verdict reply with
    | error e => exact Iff.rfl
    | ok response =>
        constructor
        · rintro ⟨_, _, rfl, rfl, rfl⟩
          exact ⟨rfl, rfl⟩
        · rintro ⟨rfl, rfl⟩
          exact ⟨(), [], rfl, rfl, rfl⟩
  rw [sendSingle_eq]
  constructor
  · rintro ⟨reply, t', rfl, h⟩
    exact ⟨reply, (hreply reply t').mp h⟩
  · rintro ⟨reply, rfl, rfl⟩
    exact ⟨reply, _, rfl, (hreply reply _).mpr ⟨rfl, rfl⟩⟩

theorem orders_exchanges_append (c : Controller) (line : String)
    (reply : Except BridgeError String) (t : List Exchange) :
    orders (c.exchanges line reply ++ t) = c.order line :: orders t := by
  rw [Routine.orders_append, exchanges]
  cases verdict reply <;> rfl

theorem replies_exchanges_append (c : Controller) (line : String)
    (reply : Except BridgeError String) (t : List Exchange) :
    replies (c.exchanges line reply ++ t) = reply :: replies t := by
  rw [Routine.replies_append, exchanges]
  cases verdict reply <;> rfl

/-! ## A list of lines -/

/-- What the log says of a line. -/
def stepLog (c : Controller) (total step : Nat) (line : String) :
    Except BridgeError String → Event
  | .ok _ => stepEvent step total line
  | .error e =>
      match c.settings.initPolicy with
      | .allOrNothing => abortEvent line e
      | .bestEffort => failEvent line e

/-- How a replay goes on behind a line. -/
def goOn (c : Controller) (total step : Nat) (last : Except BridgeError Unit)
    (lines : List String) : Except BridgeError String → Routine (Except BridgeError Unit)
  | .ok _ => c.replayFrom total step last lines
  | .error e =>
      match c.settings.initPolicy with
      | .allOrNothing => .done (.error e)
      | .bestEffort => c.replayFrom total step (.error e) lines

theorem replayFrom_cons (c : Controller) (total step : Nat) (last : Except BridgeError Unit)
    (line : String) (rest : List String) :
    c.replayFrom total step last (line :: rest) = (c.sendSingle line).run.bind fun r ↦
      .call (.log (c.stepLog total step line r)) fun _ ↦ c.goOn total (step + 1) last rest r := by
  refine congrArg (c.sendSingle line).run.bind (funext fun r ↦ ?_)
  cases r with
  | ok response => rfl
  | error e =>
      dsimp only
      rw [stepLog, goOn]
      cases c.settings.initPolicy <;> rfl

theorem runs_replayFrom_cons_iff :
    (c.replayFrom total step last (line :: lines)).Runs t result ↔ ∃ reply t',
      t = c.exchanges line reply ++ ⟨.log (c.stepLog total step line (verdict reply)), ()⟩ :: t' ∧
        (c.goOn total (step + 1) last lines (verdict reply)).Runs t' result := by
  rw [replayFrom_cons, Routine.runs_bind_iff]
  constructor
  · rintro ⟨_, _, _, rfl, hline, ⟨⟩, t', rfl, hrest⟩
    obtain ⟨reply, rfl, rfl⟩ := runs_sendSingle_iff.mp hline
    exact ⟨reply, t', rfl, hrest⟩
  · rintro ⟨reply, t', rfl, hrest⟩
    exact ⟨_, _, _, rfl, runs_sendSingle_iff.mpr ⟨reply, rfl, rfl⟩, (), t', rfl, hrest⟩

/-! ## How far a sequence gets -/

/-- The failure that a reply means. -/
def failure? (reply : Except BridgeError String) : Option BridgeError :=
  match verdict reply with
  | .ok _ => none
  | .error e => some e

/-- What the module says of a command is no fault of the one who built it. -/
theorem isDeviceFailure_of_checkResponse {response : String} {fault : Fault}
    (h : checkResponse response = .error fault) : fault.isDeviceFailure := by
  rw [checkResponse] at h
  split at h
  · cases h
    rfl
  · split at h
    · cases h
      rfl
    · split at h
      · cases h
      · cases h
        rfl

theorem failure?_of_error {response : String} {fault : Fault}
    (h : checkResponse response = .error fault) :
    failure? (.ok response) = some (.ofFault fault) := by
  simp [failure?, verdict, Except.bind, Except.map, bridged, h]

theorem failure?_eq_none_iff {reply : Except BridgeError String} :
    failure? reply = none ↔ ∃ response, reply = .ok response ∧ checkResponse response = .ok () := by
  cases reply with
  | error e => simp [failure?, verdict, Except.bind]
  | ok response =>
      cases hcheck : checkResponse response with
      | error fault => simp [failure?_of_error hcheck, hcheck]
      | ok u => simp [failure?, verdict, Except.bind, Except.map, bridged, hcheck]

/-- What a sequence of lines may come to; it failed before with `last`, if it did. -/
structure Sends (c : Controller) (lines : List String) (last : Except BridgeError Unit)
    (t : List Exchange) (result : Except BridgeError Unit) : Prop where
  inOrder : orders t <+: lines.map c.order
  begun : lines ≠ [] → orders t ≠ []
  whole : result = .ok () →
    last = .ok () ∧ orders t = lines.map c.order ∧ ∀ reply ∈ replies t, failure? reply = none
  failed : ∀ e, result = .error e →
    last = .error e ∨ ∃ reply ∈ replies t, failure? reply = some e

/-- A line is sent in front of the others; its failure, if it fails, is the last one before them. -/
theorem Sends.cons {reply : Except BridgeError String} {last' : Except BridgeError Unit} {e : Event}
    (h : Sends c lines last' t result)
    (hok : last' = .ok () → last = .ok () ∧ failure? reply = none)
    (herror : ∀ e, last' = .error e → last = .error e ∨ failure? reply = some e) :
    Sends c (line :: lines) last (c.exchanges line reply ++ ⟨.log e, ()⟩ :: t) result := by
  have horders : orders (c.exchanges line reply ++ ⟨.log e, ()⟩ :: t) = c.order line :: orders t :=
    orders_exchanges_append c line reply _
  have hreplies : replies (c.exchanges line reply ++ ⟨.log e, ()⟩ :: t) = reply :: replies t :=
    replies_exchanges_append c line reply _
  refine ⟨?_, fun _ ↦ ?_, fun hresult ↦ ?_, fun e hresult ↦ ?_⟩
  · rw [horders]
    exact List.cons_prefix_cons.mpr ⟨rfl, h.inOrder⟩
  · rw [horders]
    exact List.cons_ne_nil _ _
  · obtain ⟨hlast', hall, haccepted⟩ := h.whole hresult
    obtain ⟨hlast, hreply⟩ := hok hlast'
    rw [horders, hreplies, hall]
    exact ⟨hlast, rfl, List.forall_mem_cons.mpr ⟨hreply, haccepted⟩⟩
  · rw [hreplies]
    rcases h.failed e hresult with hlast' | ⟨reply', hmem, hfailure⟩
    · exact (herror e hlast').imp id fun hreply ↦ ⟨reply, List.mem_cons_self, hreply⟩
    · exact .inr ⟨reply', List.mem_cons_of_mem _ hmem, hfailure⟩

/-- The lines that were not sent do not count if it failed. -/
theorem Sends.append {e : BridgeError} (h : Sends c lines last t (.error e)) (hne : lines ≠ [])
    (more : List String) : Sends c (lines ++ more) last t (.error e) := by
  refine ⟨?_, fun _ ↦ h.begun hne, nofun, h.failed⟩
  rw [List.map_append]
  exact h.inOrder.trans (List.prefix_append _ _)

theorem sends_nil (c : Controller) (last : Except BridgeError Unit) : Sends c [] last [] last :=
  ⟨List.nil_prefix, absurd rfl, fun h ↦ ⟨h, rfl, nofun⟩, fun _ ↦ .inl⟩

theorem sends_exchanges (c : Controller) (line : String) (reply : Except BridgeError String) :
    Sends c [line] (.ok ()) (c.exchanges line reply) ((verdict reply).map fun _ ↦ ()) := by
  have horders := orders_exchanges_append c line reply []
  have hreplies := replies_exchanges_append c line reply []
  rw [List.append_nil] at horders hreplies
  refine ⟨?_, fun _ ↦ ?_, fun hresult ↦ ?_, fun e hresult ↦ .inr ⟨reply, ?_, ?_⟩⟩
  · rw [horders]
    exact List.prefix_rfl
  · rw [horders]
    exact List.cons_ne_nil _ _
  · rw [horders, hreplies]
    refine ⟨rfl, rfl, List.forall_mem_singleton.mpr ?_⟩
    rw [failure?]
    cases hverdict : verdict reply with
    | ok response => rfl
    | error e =>
        rw [hverdict] at hresult
        cases hresult
  · rw [hreplies]
    exact List.mem_singleton_self reply
  · rw [failure?]
    cases hverdict : verdict reply with
    | ok response =>
        rw [hverdict] at hresult
        cases hresult
    | error e' =>
        rw [hverdict] at hresult
        cases hresult
        rfl

theorem Sends.log (h : Sends c lines last t result) (e : Event) :
    Sends c lines last (t ++ [⟨.log e, ()⟩]) result := by
  have horders : orders (t ++ [⟨.log e, ()⟩]) = orders t := by
    rw [Routine.orders_append]
    exact List.append_nil _
  have hreplies : replies (t ++ [⟨.log e, ()⟩]) = replies t := by
    rw [Routine.replies_append]
    exact List.append_nil _
  constructor
  · rw [horders]
    exact h.inOrder
  · rw [horders]
    exact h.begun
  · rw [horders, hreplies]
    exact h.whole
  · rw [hreplies]
    exact h.failed

theorem sends_replayFrom (h : (c.replayFrom total step last lines).Runs t result) :
    Sends c lines last t result := by
  induction lines generalizing step t last with
  | nil =>
      obtain ⟨rfl, rfl⟩ := h
      exact sends_nil c _
  | cons line rest ih =>
      obtain ⟨reply, t', rfl, hrest⟩ := runs_replayFrom_cons_iff.mp h
      cases hverdict : verdict reply with
      | ok response =>
          have hreply : failure? reply = none := by rw [failure?, hverdict]
          rw [hverdict] at hrest
          exact (ih hrest).cons (fun hlast ↦ ⟨hlast, hreply⟩) fun _ ↦ .inl
      | error e =>
          have hreply : failure? reply = some e := by rw [failure?, hverdict]
          -- behind the line its failure is the last one
          have hlast : ∀ e', Except.error e = (.error e' : Except BridgeError Unit) →
              last = .error e' ∨ failure? reply = some e' := by
            rintro _ ⟨⟩
            exact .inr hreply
          rw [hverdict, goOn] at hrest
          cases hpolicy : c.settings.initPolicy with
          | allOrNothing =>
              rw [hpolicy] at hrest
              obtain ⟨rfl, rfl⟩ := hrest
              exact ((sends_nil c (.error e)).cons nofun hlast).append (List.cons_ne_nil _ _) rest
          | bestEffort =>
              rw [hpolicy] at hrest
              exact (ih hrest).cons nofun hlast

/-! ## Two policies -/

/-- A line with the reply that it gets if it is sent. -/
abbrev Step := String × Except BridgeError String

variable {steps : List Step}

def Step.fails (s : Step) : Bool := (failure? s.2).isSome

/-- The failures on the whole list, in order. -/
def failures (steps : List Step) : List BridgeError := steps.filterMap fun s ↦ failure? s.2

/-- Where the first line fails, or the length of the list. -/
def firstFailing (steps : List Step) : Nat := steps.findIdx Step.fails

/-- The failure, if there is one. -/
def outcome (e : Option BridgeError) : Except BridgeError Unit := e.elim (.ok ()) .error

/-- A run of a replay in which every line that is sent gets its reply. -/
structure Plays (c : Controller) (steps : List Step) (t : List Exchange)
    (result : Except BridgeError Unit) : Prop where
  runs : (c.replay (steps.map Prod.fst)).run.Runs t result
  replies : replies t <+: steps.map Prod.snd

/-- The settings with another policy. -/
def under (c : Controller) (policy : InitPolicy) : Controller :=
  { c with settings := { c.settings with initPolicy := policy } }

theorem runs_allOrNothing (hpolicy : c.settings.initPolicy = .allOrNothing)
    (h : (c.replayFrom total step last (steps.map Prod.fst)).Runs t result)
    (hreplies : replies t <+: steps.map Prod.snd) :
    orders t = (steps.take (firstFailing steps + 1)).map (fun s ↦ c.order s.1) ∧
      result = (failures steps).head?.elim last .error := by
  induction steps generalizing step t with
  | nil =>
      obtain ⟨rfl, rfl⟩ := h
      exact ⟨rfl, rfl⟩
  | cons s rest ih =>
      obtain ⟨reply, t', rfl, hrest⟩ := runs_replayFrom_cons_iff.mp h
      rw [replies_exchanges_append] at hreplies
      obtain ⟨rfl, hlater⟩ := List.cons_prefix_cons.mp hreplies
      rw [orders_exchanges_append, firstFailing, List.findIdx_cons, Step.fails, failures,
        List.filterMap_cons, failure?]
      cases hverdict : verdict s.2 with
      | ok response =>
          rw [hverdict] at hrest
          obtain ⟨horders, hresult⟩ := ih hrest hlater
          exact ⟨congrArg (c.order s.1 :: ·) horders, hresult⟩
      | error e =>
          rw [hverdict, goOn, hpolicy] at hrest
          obtain ⟨rfl, rfl⟩ := hrest
          exact ⟨rfl, rfl⟩

theorem runs_bestEffort (hpolicy : c.settings.initPolicy = .bestEffort)
    (h : (c.replayFrom total step last (steps.map Prod.fst)).Runs t result)
    (hreplies : replies t <+: steps.map Prod.snd) :
    orders t = steps.map (fun s ↦ c.order s.1) ∧
      result = (failures steps).getLast?.elim last .error := by
  induction steps generalizing step t last with
  | nil =>
      obtain ⟨rfl, rfl⟩ := h
      exact ⟨rfl, rfl⟩
  | cons s rest ih =>
      obtain ⟨reply, t', rfl, hrest⟩ := runs_replayFrom_cons_iff.mp h
      rw [replies_exchanges_append] at hreplies
      obtain ⟨rfl, hlater⟩ := List.cons_prefix_cons.mp hreplies
      rw [orders_exchanges_append, failures, List.filterMap_cons, failure?]
      cases hverdict : verdict s.2 with
      | ok response =>
          rw [hverdict] at hrest
          obtain ⟨horders, hresult⟩ := ih hrest hlater
          exact ⟨congrArg (c.order s.1 :: ·) horders, hresult⟩
      | error e =>
          rw [hverdict, goOn, hpolicy] at hrest
          obtain ⟨horders, hresult⟩ := ih hrest hlater
          refine ⟨congrArg (c.order s.1 :: ·) horders, ?_⟩
          -- the failure stands unless another one comes
          rw [hresult, List.getLast?_cons]
          change _ = Except.error ((failures rest).getLast?.getD e)
          cases (failures rest).getLast? <;> rfl

/-- A replay comes to an end whatever the replies are. -/
theorem exists_runs (c : Controller) (total step : Nat) (last : Except BridgeError Unit)
    (steps : List Step) : ∃ t result,
      (c.replayFrom total step last (steps.map Prod.fst)).Runs t result ∧
        replies t <+: steps.map Prod.snd := by
  induction steps generalizing step last with
  | nil => exact ⟨[], last, ⟨rfl, rfl⟩, List.nil_prefix⟩
  | cons s rest ih =>
      have hrest : ∃ t result,
          (c.goOn total (step + 1) last (rest.map Prod.fst) (verdict s.2)).Runs t result ∧
            replies t <+: rest.map Prod.snd := by
        cases verdict s.2 with
        | ok response => exact ih (step + 1) last
        | error e =>
            rw [goOn]
            cases c.settings.initPolicy with
            | allOrNothing => exact ⟨[], .error e, ⟨rfl, rfl⟩, List.nil_prefix⟩
            | bestEffort => exact ih (step + 1) (.error e)
      obtain ⟨t, result, hruns, hreplies⟩ := hrest
      refine ⟨_, result, runs_replayFrom_cons_iff.mpr ⟨s.2, t, rfl, hruns⟩, ?_⟩
      rw [replies_exchanges_append]
      exact List.cons_prefix_cons.mpr ⟨rfl, hreplies⟩

theorem exists_plays (c : Controller) (steps : List Step) : ∃ t result, Plays c steps t result := by
  obtain ⟨t, result, hruns, hreplies⟩ := exists_runs c (steps.map Prod.fst).length 1 (.ok ()) steps
  exact ⟨t, result, hruns, hreplies⟩

theorem outcome_eq_ok_iff {e : Option BridgeError} : outcome e = .ok () ↔ e = none := by
  cases e <;> simp [outcome]

theorem outcome_eq_error_iff {e : Option BridgeError} {e' : BridgeError} :
    outcome e = .error e' ↔ e = some e' := by
  cases e <;> simp [outcome]

/-- What the policies come to, on all lists with all replies. -/
theorem policies_compared (c : Controller) (steps : List Step) :
    (∀ policy, ∃ t result, Plays (c.under policy) steps t result) ∧
    (∀ t result, Plays (c.under .allOrNothing) steps t result →
      orders t = (steps.take (firstFailing steps + 1)).map (fun s ↦ c.order s.1) ∧
        result = outcome (failures steps).head?) ∧
    (∀ t result, Plays (c.under .bestEffort) steps t result →
      orders t = steps.map (fun s ↦ c.order s.1) ∧ result = outcome (failures steps).getLast?) ∧
    ∀ t t' result result', Plays (c.under .allOrNothing) steps t result →
      Plays (c.under .bestEffort) steps t' result' →
      (result = .ok () ↔ result' = .ok ()) ∧
        ((∃ e, result = .error e ∧ result' = .error e) ↔ (failures steps).length = 1 ∨
          ∃ e, (failures steps).head? = some e ∧ (failures steps).getLast? = some e) := by
  have hfirst : ∀ t result, Plays (c.under .allOrNothing) steps t result →
      orders t = (steps.take (firstFailing steps + 1)).map (fun s ↦ c.order s.1) ∧
        result = outcome (failures steps).head? :=
    fun _ _ h ↦ runs_allOrNothing (c := c.under .allOrNothing) rfl h.runs h.replies
  have hlast : ∀ t result, Plays (c.under .bestEffort) steps t result →
      orders t = steps.map (fun s ↦ c.order s.1) ∧ result = outcome (failures steps).getLast? :=
    fun _ _ h ↦ runs_bestEffort (c := c.under .bestEffort) rfl h.runs h.replies
  refine ⟨fun policy ↦ exists_plays _ steps, hfirst, hlast, ?_⟩
  intro t t' result result' h h'
  rw [(hfirst t result h).2, (hlast t' result' h').2]
  simp only [outcome_eq_ok_iff, outcome_eq_error_iff, List.head?_eq_none_iff,
    List.getLast?_eq_none_iff, true_and]
  refine ⟨.inr, ?_⟩
  rintro (hone | hsame)
  · obtain ⟨e, he⟩ := List.length_eq_one_iff.mp hone
    exact ⟨e, by rw [he]; rfl, by rw [he]; rfl⟩
  · exact hsame

/-- A list on which two lines fail, each in its own way. -/
def twoFailing : List Step :=
  [("AT+QRST\r\n", .ok "OK"), ("AT+QBLEINIT=2\r\n", .error (.timeout "late")),
    ("AT+QBLEADVSTART\r\n", .ok "ERROR")]

theorem policies_compared_of_two : ∃ t t' result result',
    Plays ((⟨{}, {}⟩ : Controller).under .allOrNothing) twoFailing t result ∧
    Plays ((⟨{}, {}⟩ : Controller).under .bestEffort) twoFailing t' result' ∧
    (orders t).length = 2 ∧ result = .error (.timeout "late") ∧
    (orders t').length = 3 ∧ result' = .error (.protocol (.commandFailed "ERROR")) ∧
    ¬ ∃ e, result = .error e ∧ result' = .error e := by
  have hfailures : failures twoFailing = [.timeout "late", .protocol (.commandFailed "ERROR")] := by
    decide
  obtain ⟨hplays, hfirst, hlast, hagree⟩ := policies_compared ⟨{}, {}⟩ twoFailing
  obtain ⟨t, result, h⟩ := hplays .allOrNothing
  obtain ⟨t', result', h'⟩ := hplays .bestEffort
  obtain ⟨horders, hresult⟩ := hfirst t result h
  obtain ⟨horders', hresult'⟩ := hlast t' result' h'
  rw [hfailures] at hresult hresult'
  refine ⟨t, t', result, result', h, h', ?_, hresult, ?_, hresult', ?_⟩
  · rw [horders]
    decide
  · rw [horders']
    rfl
  · rw [(hagree t t' result result' h h').2, hfailures]
    rintro (hone | ⟨e, ⟨⟩, ⟨⟩⟩)
    simp at hone

end BleBridge.Modem.Controller
