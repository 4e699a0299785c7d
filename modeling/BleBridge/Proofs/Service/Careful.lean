import BleBridge.Service.Driver

/-!
# Routines that subscribe before they ask

A routine learns from the answers to its calls whether the response topic has
been subscribed to.  It is careful when it asks for a response, or notes that the
topic is subscribed, only once it has learned so (`Careful`).  That is a property
of the routine alone, whatever the answers are: it is defined by recursion on the
calls, and `Learns` keeps what is known at the end, so that the parts of a
routine can be looked at one after the other.  The handling of a segment is
careful when the sending of values is (`careful_handle`), as it is over the link of
the driver (`careful_outlet`).
-/

namespace BleBridge

namespace Call

/-- Calls for those who know of a subscription to the responses. -/
def presumes : Call → Bool
  | .request _ _ _ | .markResponseSubscribed => true
  | _ => false

/-- The topic was subscribed to. -/
def subscribes (topic : String) : (c : Call) → c.Answer → Bool
  | .subscribeResponse t, .ok () => t == topic
  | _, _ => false

/-- The answer tells that the topic has been subscribed to. -/
def tells (topic : String) : (c : Call) → c.Answer → Bool
  | .isResponseSubscribed, r => r
  | c, r => c.subscribes topic r

end Call

namespace Routine

variable {α β : Type} {topic : String} {known known' : Prop}

/-- The routine is careful, and what it knows at its end goes with its result. -/
def Learns (topic : String) (post : α → Prop → Prop) : Prop → Routine α → Prop
  | known, .done a => post a known
  | known, .call c next =>
      (c.presumes → known) ∧ ∀ r, (next r).Learns topic post (known ∨ c.tells topic r)

/-- The routine presumes a subscription only when it knows of one. -/
structure Careful (topic : String) (known : Prop) (p : Routine α) : Prop where
  learns : p.Learns topic (fun _ _ ↦ True) known

theorem learns_bind {post : β → Prop → Prop} (p : Routine α) (f : α → Routine β) :
    (p.bind f).Learns topic post known ↔
      p.Learns topic (fun a known ↦ (f a).Learns topic post known) known := by
  induction p generalizing known with
  | done a => exact .rfl
  | call c next ih => exact and_congr_right fun _ ↦ forall_congr' fun r ↦ ih r

theorem Learns.mono {post post' : α → Prop → Prop} {p : Routine α}
    (h : p.Learns topic post known) (hknown : known → known')
    (hpost : ∀ a (known known' : Prop), (known → known') → post a known → post' a known') :
    p.Learns topic post' known' := by
  induction p generalizing known known' with
  | done a => exact hpost a known known' hknown h
  | call c next ih =>
      exact ⟨fun hpresumes ↦ hknown (h.1 hpresumes), fun r ↦ ih r (h.2 r) (Or.imp_left hknown)⟩

theorem Careful.mono {p : Routine α} (h : p.Careful topic known) (hknown : known → known') :
    p.Careful topic known' :=
  ⟨h.learns.mono hknown fun _ _ _ _ _ ↦ trivial⟩

theorem Careful.of_call {c : Call} {next : c.Answer → Routine α}
    (h : (Routine.call c next).Careful topic known) :
    (c.presumes → known) ∧ ∀ r, (next r).Careful topic (known ∨ c.tells topic r) :=
  ⟨h.learns.1, fun r ↦ ⟨h.learns.2 r⟩⟩

/-- A careful routine that goes on with careful ones is careful. -/
theorem Careful.bind {p : Routine α} (h : p.Careful topic known) {f : α → Routine β}
    (hf : ∀ a, (f a).Careful topic False) : (p.bind f).Careful topic known :=
  ⟨(learns_bind p f).mpr (h.learns.mono id fun a _ _ _ _ ↦ ((hf a).mono False.elim).learns)⟩

/-- A call that presumes nothing is careful, and so is what comes behind it. -/
theorem careful_call {c : Call} {next : c.Answer → Routine α} (hfree : c.presumes = false)
    (hnext : ∀ r, (next r).Careful topic (known ∨ c.tells topic r)) :
    (Routine.call c next).Careful topic known :=
  ⟨by simp [hfree], fun r ↦ (hnext r).learns⟩

end Routine

namespace Attempt

open Routine (Careful Learns)

variable {α β : Type} {topic : String} {known : Prop}

/-- An attempt goes on only with a result. -/
theorem learns_bind {post : Except BridgeError β → Prop → Prop} (p : Attempt α)
    (f : α → Attempt β) :
    (p >>= f).run.Learns topic post known ↔
      p.run.Learns topic (fun r known ↦ match r with
        | .ok a => (f a).run.Learns topic post known
        | .error e => post (.error e) known) known := by
  refine (Routine.learns_bind p.run _).trans (iff_of_eq ?_)
  congr
  funext r known
  cases r <;> rfl

theorem careful_bind {p : Attempt α} (h : p.run.Careful topic known) {f : α → Attempt β}
    (hf : ∀ a, (f a).run.Careful topic False) : (p >>= f).run.Careful topic known :=
  Routine.Careful.bind h fun r ↦ by
    cases r with
    | ok a => exact hf a
    | error e => exact ⟨trivial⟩

theorem careful_log (e : Event) : (log e).run.Careful topic known :=
  Routine.careful_call rfl fun _ ↦ ⟨trivial⟩

theorem careful_ofExcept (r : Except BridgeError α) : (ofExcept r).run.Careful topic known :=
  ⟨trivial⟩

/-- Whoever knows of a subscription may ask for a response. -/
theorem careful_request (name : String) (payload : Json) (timeout : Option Millis) :
    (request name payload timeout).run.Careful topic True := by
  refine Routine.careful_call rfl fun _ ↦ Routine.careful_call rfl fun _ ↦ ?_
  exact ⟨fun _ ↦ .inl (.inl trivial), fun _ ↦ trivial⟩

end Attempt

namespace Service.Commands

open Routine (Careful Learns)

variable {topic : String} {c : Commands}

/-- Behind a subscription that did not fail, the service knows of it. -/
theorem learns_ensureSubscribed (c : Commands) :
    c.ensureSubscribed.run.Learns c.topics.response (fun r known ↦ r = .ok () → known) False := by
  refine ⟨by simp [Call.presumes], fun subscribed ↦ ?_⟩
  cases subscribed with
  | true => exact fun _ ↦ .inr rfl
  | false =>
      refine ⟨by simp [Call.presumes], fun r ↦ ?_⟩
      cases r with
      | error e => exact fun h ↦ by cases h
      | ok _ =>
          have htold : Call.tells c.topics.response (.subscribeResponse c.topics.response)
              (.ok ()) := beq_self_eq_true _
          exact ⟨fun _ ↦ .inr htold, fun _ _ ↦ .inl (.inr htold)⟩

/-- What comes behind a subscription may ask for responses. -/
theorem careful_behind (c : Commands) {p : Attempt Unit}
    (h : p.run.Careful c.topics.response True) :
    (c.ensureSubscribed >>= fun _ ↦ p).run.Careful c.topics.response False := by
  refine ⟨(Attempt.learns_bind _ _).mpr (c.learns_ensureSubscribed.mono id ?_)⟩
  intro r known known' hknown hpost
  cases r with
  | ok _ => exact (h.mono fun _ ↦ hknown (hpost rfl)).learns
  | error e => trivial

/-- Ask behind a subscription, read the response and send a value on. -/
theorem careful_exchange {α : Type} (c : Commands)
    (houtlet : ∀ v, (c.outlet v).run.Careful c.topics.response False)
    (ask : Attempt Bus.Envelope) (hask : ask.run.Careful c.topics.response True)
    (read : Bus.Envelope → Except BridgeError α) (event : α → Event) (value : α → Json) :
    (c.ensureSubscribed >>= fun _ ↦ ask >>= fun response ↦
      Attempt.ofExcept (read response) >>= fun a ↦
        Attempt.log (event a) >>= fun _ ↦ c.outlet (value a)).run.Careful
          c.topics.response False := by
  refine c.careful_behind (Attempt.careful_bind hask fun response ↦ ?_)
  refine Attempt.careful_bind (Attempt.careful_ofExcept _) fun a ↦ ?_
  exact Attempt.careful_bind (Attempt.careful_log _) fun _ ↦ houtlet _

theorem careful_follow (c : Commands)
    (houtlet : ∀ v, (c.outlet v).run.Careful c.topics.response False) (i : Instruction) :
    (c.follow i).run.Careful c.topics.response False := by
  cases i with
  | allStatus =>
      exact c.careful_exchange houtlet _ (Attempt.careful_request _ _ _) resourceInfos
        summaryEvent fun infos ↦ .array (infos.map ResourceInfo.toJson)
  | monitor device resource =>
      exact c.careful_exchange houtlet _ (Attempt.careful_request _ _ _) readingSummary
        (readingEvent device resource) ReadingSummary.toJson
  | unsupported text => exact Attempt.careful_bind (Attempt.careful_log _) fun _ ↦ houtlet _

/-- The handling of a segment is careful, if the sending of values is. -/
theorem careful_handle (c : Commands)
    (houtlet : ∀ v, (c.outlet v).run.Careful c.topics.response False) (segment : String) :
    (c.handle segment).run.Careful c.topics.response False := by
  refine Attempt.careful_bind (Attempt.careful_ofExcept _) fun i ↦ ?_
  exact Attempt.careful_bind (Attempt.careful_log _) fun _ ↦ c.careful_follow houtlet i

end Service.Commands

/-! ## Values over the link -/

namespace Link.Sender

open Routine (Careful)

variable {topic : String}

theorem careful_sendPackets (s : Sender) (tag : String) (packets : List Frame.Packet) :
    (s.sendPackets tag packets).Careful topic False := by
  induction packets with
  | nil => exact ⟨trivial⟩
  | cons p rest ih =>
      refine Routine.careful_call rfl fun r ↦ ?_
      cases r with
      | ok _ => exact Routine.careful_call rfl fun _ ↦ ih.mono False.elim
      | error e => exact Routine.careful_call rfl fun _ ↦ ⟨trivial⟩

theorem careful_sendValue (s : Sender) (v : Json) : (s.sendValue v).run.Careful topic False := by
  have hid : (liftM Routine.drawId : Attempt String).run.Careful topic False :=
    Routine.careful_call rfl fun _ ↦ ⟨trivial⟩
  refine Attempt.careful_bind hid fun tag ↦ ?_
  refine Attempt.careful_bind (Attempt.careful_ofExcept _) fun packets ↦ ?_
  refine Attempt.careful_bind (Attempt.careful_log _) fun _ ↦ ?_
  split
  · exact Attempt.careful_log _
  · refine Attempt.careful_bind (s.careful_sendPackets tag packets) fun _ ↦ ?_
    exact Attempt.careful_log _

end Link.Sender

theorem Service.Driver.careful_outlet (d : Driver) (topic : String) (v : Json) :
    (d.outlet v).run.Careful topic False :=
  d.link.careful_sendValue v

end BleBridge
