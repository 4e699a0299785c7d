import BleBridge.Proofs.Bench.Listening
import Mathlib.Logic.Relation

/-!
# Routines one step at a time

An errand is a routine under way of which one step after the other is taken, with
anything else in between (`World.stride`).  A call that takes several steps in the
client waits before each of them: a request before it is registered and before it is
published, a subscription to responses before its topic is noted, before the bus is
asked for a channel, before the topic is struck off again or the channel listened to,
a disconnection before the bus is left.  With nothing in between, an errand comes to
where its routine comes in one go (`alone_run`).

Four of these steps matter to who hears responses (`Errand.turn?`).  A subscription is
given a channel, and begins to listen to it; a disconnection cancels the
subscriptions, and leaves the bus.  All other steps pass by (`Tidy.strides`).  What a
step does at all is said once, in `does_stride`.
-/

namespace BleBridge.Bench

/-- A routine goes on with its next call, or a call of it waits. -/
inductive Errand where
  | going (p : Routine (Except BridgeError Unit))
  | waiting (c : Call) (wait : Wait c) (next : c.Answer → Routine (Except BridgeError Unit))

def Task.errand : Task (Except BridgeError Unit) → Errand
  | .done r => .going (.done r)
  | .waiting c wait next => .waiting c wait next

/-- A step after which a topic can be live that was not, or the other way round. -/
inductive Turn where
  /-- The bus is asked for a channel. -/
  | attach (topic : String)
  /-- The channel is listened to. -/
  | start (topic : String) (channel : Nat)
  | cancel
  | leave
deriving DecidableEq

/-- The turns of a subscription to responses on the topic. -/
def enlistingTurn? (topic : String) : Bus.Enlisting → Option Turn
  | .noted => some (.attach topic)
  | .attached n => some (.start topic n)
  | .fresh | .checked | .refused _ | .ended _ => none

def Wait.turn? : {c : Call} → Wait c → Option Turn
  | .subscribeResponse topic, .enlisting e => enlistingTurn? topic e
  | .disconnect, .leaving _ => some .leave
  | .enqueue _, _ | .request _ _ _, _ | .closeMux, _ => none

/-- What the next step of the errand is, if it is one that matters to subscriptions. -/
def Errand.turn? : Errand → Option Turn
  | .going (.call .disconnect _) => some .cancel
  | .going _ => none
  | .waiting _ wait _ => wait.turn?

theorem Errand.eq_cancel_of_going {p : Routine (Except BridgeError Unit)} {t : Turn}
    (h : (Errand.going p).turn? = some t) : t = .cancel := by
  cases p with
  | done r => cases h
  | call c next => cases c <;> cases h; rfl

namespace World

/-- What comes of an errand when its call has been looked at. -/
def Look.errand {c : Call} (next : c.Answer → Routine (Except BridgeError Unit)) : Look c → Errand
  | .answer r => .going (next r)
  | .wait w => .waiting c w next

/-- One step of an errand. -/
def stride (w : World) (own : Bool) : Errand → World × Errand
  | .going (.done r) => (w, .going (.done r))
  | .going (.call c next) => ((w.begin own c).1, (w.begin own c).2.errand next)
  | .waiting _ wait next => ((w.lookAgain wait).1, (w.lookAgain wait).2.errand next)

variable {w : World} {own : Bool} {x : Errand} {topic : String} {n : Nat}

/-! ## Errands that go on alone -/

/-- The errand takes some steps with nothing in between. -/
def Alone : World × Errand → World × Errand → Prop :=
  Relation.ReflTransGen fun s s' ↦ s' = s.1.stride true s.2

theorem alone_seekChannel (w : World) (topic : String) (e : Bus.Enlisting)
    (next : (Call.subscribeResponse topic).Answer → Routine (Except BridgeError Unit))
    (fuel : Nat) : Alone (w, (enlistingLook e).errand next)
      ((w.seekChannel topic e fuel).1,
        (enlistingLook (w.seekChannel topic e fuel).2).errand next) := by
  induction fuel generalizing w e with
  | zero => exact .refl
  | succ fuel ih =>
      have hstep : Alone (w, (enlistingLook e).errand next)
          ((w.enlist topic e).1, (enlistingLook (w.enlist topic e).2).errand next) := by
        cases e with
        | ended r => exact .refl
        | _ => exact .single rfl
      rw [seekChannel]
      generalize w.enlist topic e = enlisted at hstep ⊢
      obtain ⟨w', e'⟩ := enlisted
      cases e' with
      | ended r => exact hstep
      | _ => exact hstep.trans (ih w' _)

theorem alone_seekResponse (w : World) (r : Bus.Request) {e : Bus.Envelope}
    {timeout : Option Millis}
    (next : (Call.request topic e timeout).Answer → Routine (Except BridgeError Unit))
    (fuel : Nat) : Alone (w, (responseLook r).errand next)
      ((w.seekResponse r fuel).1, (responseLook (w.seekResponse r fuel).2).errand next) := by
  induction fuel generalizing w r with
  | zero => exact .refl
  | succ fuel ih =>
      have hstep : Alone (w, (responseLook r).errand next)
          ((w.seekResponse r 1).1, (responseLook (w.seekResponse r 1).2).errand next) := by
        cases hphase : r.phase with
        | ended result =>
            have hended : w.seekResponse r 1 = (w, r) := by
              simp [seekResponse, Bus.Client.advance, hphase, note]
            rw [hended]
            exact .refl
        | _ =>
            have hlook : (responseLook r : Look (.request topic e timeout)) =
                .wait (.response r) := by
              rw [responseLook, hphase]
            rw [hlook]
            exact .single rfl
      rw [seekResponse] at hstep ⊢
      generalize w.client.advance r w.now = advanced at hstep ⊢
      obtain ⟨c, r', events⟩ := advanced
      dsimp only at hstep ⊢
      cases hphase : r'.phase with
      | ended result =>
          rw [hphase] at hstep
          exact hstep
      | _ =>
          rw [hphase] at hstep
          exact hstep.trans (ih _ r')

/-- A call that is begun comes to where a look at it comes. -/
theorem alone_begin (w : World) (c : Call)
    (next : c.Answer → Routine (Except BridgeError Unit)) :
    Alone ((w.begin true c).1, (w.begin true c).2.errand next)
      ((w.look c).1, (w.look c).2.errand next) := by
  cases c with
  | request topic e timeout =>
      exact alone_seekResponse w.ticket.2
        ⟨w.ticket.1, topic, e, timeout.getD w.client.timeout, .fresh⟩ next requestSteps
  | subscribeResponse topic => exact alone_seekChannel w topic .fresh next enlistingSteps
  | disconnect => exact .single rfl
  | markResponseSubscribed =>
      rw [begin, Bool.or_true]
      exact .refl
  | _ => exact .refl

/-- Step by step an errand comes to where its routine comes in one go. -/
theorem alone_run (w : World) (p : Routine (Except BridgeError Unit)) :
    Alone (w, .going p) ((w.run p).1, (w.run p).2.errand) := by
  induction p generalizing w with
  | done r => exact .refl
  | call c next ih =>
      have hcall : Alone (w, .going (.call c next)) ((w.look c).1, (w.look c).2.errand next) :=
        .head rfl (w.alone_begin c next)
      rw [run]
      generalize w.look c = looked at hcall ⊢
      obtain ⟨w', l⟩ := looked
      cases l with
      | answer r => exact hcall.trans (ih r w')
      | wait wait => exact hcall

/-! ## The four turns -/

/-- How the errands stand whose next step is a turn. -/
inductive Turns : Errand → Turn → Prop where
  | attach (topic : String)
      (next : (Call.subscribeResponse topic).Answer → Routine (Except BridgeError Unit)) :
      Turns (.waiting (.subscribeResponse topic) (.enlisting .noted) next) (.attach topic)
  | start (topic : String) (n : Nat)
      (next : (Call.subscribeResponse topic).Answer → Routine (Except BridgeError Unit)) :
      Turns (.waiting (.subscribeResponse topic) (.enlisting (.attached n)) next) (.start topic n)
  | cancel (next : Call.disconnect.Answer → Routine (Except BridgeError Unit)) :
      Turns (.going (.call .disconnect next)) .cancel
  | leave (cancelled : Nat)
      (next : Call.disconnect.Answer → Routine (Except BridgeError Unit)) :
      Turns (.waiting .disconnect (.leaving cancelled) next) .leave

theorem turns_of_turn? {t : Turn} (hx : x.turn? = some t) : Turns x t := by
  cases x with
  | going p =>
      cases p with
      | done r => cases hx
      | call c next =>
          cases c with
          | disconnect =>
              cases hx
              exact .cancel next
          | _ => cases hx
  | waiting c wait next =>
      cases wait with
      | enlisting e =>
          cases e with
          | noted =>
              cases hx
              exact .attach _ next
          | attached n =>
              cases hx
              exact .start _ n next
          | _ => cases hx
      | leaving cancelled =>
          cases hx
          exact .leave cancelled next
      | _ => cases hx

/-- The bus gives a channel when it is asked for one. -/
def CanAttach (w : World) (topic : String) : Prop :=
  ∃ t n, w.client.transport.subscribe topic = .ok (t, n)

theorem turns_errand_start {c : Call} {next : c.Answer → Routine (Except BridgeError Unit)}
    {l : Look c} (h : Turns (l.errand next) (.start topic n)) :
    ∃ hc : c = .subscribeResponse topic, hc ▸ l = .wait (.enlisting (.attached n)) := by
  cases l with
  | answer r =>
      rw [Look.errand] at h
      generalize next r = p at h
      cases h
  | wait wait =>
      cases h
      exact ⟨rfl, rfl⟩

/-- An errand is about to listen to a channel only when the bus has just given it one. -/
theorem turn?_stride_eq_start (h : (w.stride own x).2.turn? = some (.start topic n)) :
    x.turn? = some (.attach topic) ∧ w.CanAttach topic ∧ n = w.given := by
  cases x with
  | going p =>
      cases p with
      | done r => cases h
      | call c next =>
          obtain ⟨rfl, hlook⟩ := turns_errand_start (turns_of_turn? h)
          cases hlook
  | waiting c wait next =>
      obtain ⟨rfl, hlook⟩ := turns_errand_start (turns_of_turn? h)
      cases wait with
      | enlisting e =>
          have henlists := w.enlists topic e
          change enlistingLook (w.enlist topic e).2 = .wait (.enlisting (.attached n)) at hlook
          generalize w.enlist topic e = o at henlists hlook
          cases henlists with
          | attaches hsubscribe =>
              cases hlook
              exact ⟨rfl, ⟨_, n, hsubscribe⟩, (Bus.Transport.subscribe_eq_ok hsubscribe).1⟩
          | _ => cases hlook

theorem turn?_stride_of_attach (hx : x.turn? = some (.attach topic)) (hcan : w.CanAttach topic) :
    (w.stride own x).2.turn? = some (.start topic w.given) := by
  obtain ⟨t, n, hcan⟩ := hcan
  cases turns_of_turn? hx with
  | attach topic next =>
      have henlists := w.enlists topic .noted
      show (Look.errand next (enlistingLook (w.enlist topic .noted).2)).turn? = _
      generalize w.enlist topic .noted = o at henlists ⊢
      cases henlists with
      | attaches hsubscribe =>
          rw [(Bus.Transport.subscribe_eq_ok hsubscribe).1]
          rfl
      | refuses hsubscribe => cases hsubscribe.symm.trans hcan

/-! ## What the steps do to subscriptions -/

/-- What a step of an errand does to the bench. -/
inductive Does (w : World) (own : Bool) : Errand → World → Prop where
  | keeps {x : Errand} {w' : World} (hturn : x.turn? = none) (h : Keeps w w') : Does w own x w'
  | joins {x : Errand} {w' : World} {l : Listener} (hturn : x.turn? = none) (h : Joins w w' l) :
      Does w own x w'
  | marks (next : Call.markResponseSubscribed.Answer → Routine (Except BridgeError Unit)) :
      Does w own (.going (.call .markResponseSubscribed next))
        { w with responseSubscribed := w.responseSubscribed || own }
  | enlists (topic : String) (e : Bus.Enlisting)
      (next : (Call.subscribeResponse topic).Answer → Routine (Except BridgeError Unit)) :
      Does w own (.waiting (.subscribeResponse topic) (.enlisting e) next) (w.enlist topic e).1
  | cancels (next : Call.disconnect.Answer → Routine (Except BridgeError Unit)) :
      Does w own (.going (.call .disconnect next)) w.cancel
  | leaves (cancelled : Nat)
      (next : Call.disconnect.Answer → Routine (Except BridgeError Unit)) :
      Does w own (.waiting .disconnect (.leaving cancelled) next) (w.leave cancelled).1

theorem does_stride (w : World) (own : Bool) (x : Errand) : Does w own x (w.stride own x).1 := by
  cases x with
  | going p =>
      cases p with
      | done r => exact .keeps rfl (.refl w)
      | call c next =>
          by_cases hdisconnect : c = .disconnect
          · subst hdisconnect
            exact .cancels next
          · have hturn : (Errand.going (.call c next)).turn? = none := by
              cases c with
              | disconnect => exact absurd rfl hdisconnect
              | _ => rfl
            by_cases hmark : c = .markResponseSubscribed
            · subst hmark
              exact .marks next
            · rcases w.begin_cases own hdisconnect hmark with hkeeps | ⟨l, hjoins⟩
              · exact .keeps hturn hkeeps
              · exact .joins hturn hjoins
  | waiting c wait next =>
      cases wait with
      | enlisting e => exact .enlists _ e next
      | leaving cancelled => exact .leaves cancelled next
      | _ => exact .keeps rfl (w.keeps_lookAgain _ (by simp) (by simp))

/-- What becomes of a bench with a step that is that turn, or none. -/
inductive Strides (w w' : World) : Option Turn → Prop where
  | passes (h : Passes w w') : Strides w w' none
  /-- The bus gives no channel. -/
  | refuses {topic : String} (h : Passes w w') (hcan : ¬ w.CanAttach topic) :
      Strides w w' (some (.attach topic))
  | attaches {topic : String} (h : Attaches w w' topic) (hcan : w.CanAttach topic) :
      Strides w w' (some (.attach topic))
  | begins {topic : String} {n : Nat}
      (h : Begins w w' ⟨topic, n, w.client.round, .responses, none, false⟩) :
      Strides w w' (some (.start topic n))
  | cancels (h : w' = w.cancel) : Strides w w' (some .cancel)
  | leaves {cancelled : Nat} (h : w' = (w.leave cancelled).1) : Strides w w' (some .leave)

theorem Tidy.strides_enlist (h : Tidy w) (topic : String) (e : Bus.Enlisting) :
    Strides w (w.enlist topic e).1 (enlistingTurn? topic e) := by
  have henlists := w.enlists topic e
  generalize w.enlist topic e = o at henlists ⊢
  cases henlists with
  | attaches hsubscribe => exact .attaches (attaches_of_subscribe hsubscribe) ⟨_, _, hsubscribe⟩
  | refuses hsubscribe =>
      exact .refuses h.passes_refl fun ⟨_, _, hcan⟩ ↦ by cases hsubscribe.symm.trans hcan
  | begins n events => exact .begins ⟨rfl, rfl, rfl, rfl, rfl, rfl⟩
  | _ => exact .passes (h.passes_alike ⟨.refl _, rfl, rfl⟩)

theorem Tidy.strides (h : Tidy w) (own : Bool) (x : Errand) :
    Strides w (w.stride own x).1 x.turn? := by
  have hdoes := w.does_stride own x
  generalize (w.stride own x).1 = w' at hdoes ⊢
  cases hdoes with
  | keeps hturn hkeeps => exact hturn ▸ .passes (h.passes_alike hkeeps.alike)
  | joins hturn hjoins => exact hturn ▸ .passes (h.passes_joins hjoins)
  | marks next => exact .passes (h.passes_alike ⟨.refl _, rfl, rfl⟩)
  | enlists topic e next => exact h.strides_enlist topic e
  | cancels next => exact .cancels rfl
  | leaves cancelled next => exact .leaves rfl

variable {w' : World} {t : Option Turn}

/-- The bus is left. -/
def Leaves (w : World) (t : Option Turn) : Prop := t = some .leave ∧ w.CanLeave

/-- A topic is live after a step if its channel, still alive, has just been listened to, or if it
was live and the step neither cancels nor leaves. -/
theorem Strides.live_iff (h : Strides w w' t) (htidy : Tidy w) (topic : String) :
    w'.Live topic ↔ (∃ n, t = some (.start topic n) ∧ w.Lives n topic) ∨
      w.Live topic ∧ t ≠ some .cancel ∧ ¬ w.Leaves t := by
  cases h with
  | passes h => simpa [Leaves] using h.live topic
  | refuses h hcan => simpa [Leaves] using h.live topic
  | attaches h hcan => simpa [Leaves] using h.live_iff htidy
  | @begins filter n h =>
      rw [h.live_iff, or_comm]
      simp only [Leaves, Option.some.injEq, Turn.start.injEq, reduceCtorEq, ne_eq,
        not_false_eq_true, false_and, and_true, true_and]
      refine or_congr_left ⟨?_, ?_⟩
      · rintro ⟨rfl, halive⟩
        exact ⟨n, ⟨rfl, rfl⟩, halive⟩
      · rintro ⟨_, ⟨rfl, rfl⟩, halive⟩
        exact ⟨rfl, halive⟩
  | cancels h =>
      subst h
      simp [not_live_cancel htidy]
  | leaves h =>
      subst h
      rename_i cancelled
      by_cases hcan : w.CanLeave
      · simp [Leaves, hcan, not_live_leave hcan cancelled]
      · rcases w.leave_cases cancelled with ⟨-, hsame⟩ | ⟨hleave, -⟩
        · simp [Leaves, hcan, hsame]
        · exact absurd hleave hcan

/-- A channel that nobody listens to stays alive until the bus is left. -/
theorem Strides.lives_iff (h : Strides w w' t) (hn : w.Free n) :
    w'.Lives n topic ↔ w.Lives n topic ∧ ¬ w.Leaves t := by
  cases h with
  | passes h => simpa [Leaves] using h.lives n topic hn
  | refuses h hcan => simpa [Leaves] using h.lives n topic hn
  | attaches h hcan => simpa [Leaves] using h.lives_iff_of_lt hn.given
  | begins h => simpa [Leaves] using h.lives_iff
  | cancels h =>
      subst h
      have hlives : w.cancel.Lives n topic ↔ w.Lives n topic :=
        w.client.keeps_broker_cancel.lives n topic
      simpa [Leaves] using hlives
  | leaves h =>
      subst h
      rename_i cancelled
      by_cases hcan : w.CanLeave
      · simp [Leaves, hcan, not_lives_leave hcan cancelled]
      · rcases w.leave_cases cancelled with ⟨-, hsame⟩ | ⟨hleave, -⟩
        · simp [Leaves, hcan, hsame]
        · exact absurd hleave hcan

theorem Strides.free (h : Strides w w' t) (hn : w.Free n)
    (hstart : ∀ topic, t ≠ some (.start topic n)) : w'.Free n := by
  cases h with
  | passes h => exact h.free n hn
  | refuses h hcan => exact h.free n hn
  | attaches h hcan =>
      refine ⟨?_, fun l hl ↦ hn.unheard l (h.listeners ▸ hl)⟩
      rw [h.given_eq]
      exact Nat.lt_succ_of_lt hn.given
  | begins h =>
      refine ⟨h.given_eq ▸ hn.given, fun l hl ↦ ?_⟩
      rcases List.mem_append.mp (h.listeners ▸ hl) with hold | hnew
      · exact hn.unheard l hold
      · rw [List.mem_singleton.mp hnew]
        rintro rfl
        exact hstart _ rfl
  | cancels h =>
      subst h
      have hlength := w.client.keeps_broker_cancel.length
      exact ⟨Nat.lt_of_lt_of_eq hn.given hlength.symm, hn.unheard⟩
  | leaves h =>
      subst h
      rename_i cancelled
      refine ⟨w.given_leave cancelled ▸ hn.given, fun l hl ↦ ?_⟩
      rcases w.leave_cases cancelled with ⟨-, hsame⟩ | ⟨-, _, -, -, hlisteners⟩
      · exact hn.unheard l (hsame ▸ hl)
      · exact hn.unheard l (hlisteners ▸ hl)

/-- The channel that the bus has just given is alive, and nobody listens to it. -/
theorem Strides.attached (h : Strides w w' (some (.attach topic))) (htidy : Tidy w)
    (hcan : w.CanAttach topic) : w'.Free w.given ∧ w'.Lives w.given topic := by
  cases h with
  | refuses h hcannot => exact absurd hcan hcannot
  | attaches h hcan =>
      refine ⟨⟨?_, fun l hl ↦ ?_⟩, h.lives_iff.mpr (.inr ⟨rfl, rfl⟩)⟩
      · rw [h.given_eq]
        exact Nat.lt_succ_self _
      · exact Nat.ne_of_lt (htidy.owned l (h.listeners ▸ hl))

theorem Strides.tidy (h : Strides w w' t) (htidy : Tidy w)
    (hfree : ∀ topic n, t = some (.start topic n) → w.Free n) : Tidy w' := by
  cases h with
  | passes h => exact h.tidy
  | refuses h hcan => exact h.tidy
  | attaches h hcan => exact htidy.attaches h
  | begins h =>
      have hn := hfree _ _ rfl
      exact htidy.begins h hn.unheard hn.given
  | cancels h =>
      subst h
      exact htidy.cancel
  | leaves h =>
      subst h
      exact htidy.leave _

end World

end BleBridge.Bench
