import BleBridge.Proofs.Bench.Errands

/-!
# Topics that are noted

The client notes a topic before it asks the bus for a channel, and strikes it off
again when it is refused one.  In between the topic counts as subscribed to, for
anybody who asks, and a subscription to it is only under way (`Errand.underWay`).
It comes to be noted with such a subscription (`mem_of_mem_stride`); and when that is no
longer under way, the errand is about to listen to a channel, or the topic is struck off
(`Errand.underWay_stride`).
-/

namespace BleBridge.Bench

variable {w w' : World} {own : Bool} {x : Errand} {topic : String} {n : Nat}

/-! ## Subscriptions under way -/

/-- The topic was noted for the subscription, and nobody listens to a channel for it yet. -/
def enlistingUnderWay : Bus.Enlisting → Bool
  | .noted | .refused _ | .attached _ => true
  | .fresh | .checked | .ended _ => false

def Wait.underWay (topic : String) : {c : Call} → Wait c → Bool
  | .subscribeResponse t, .enlisting e => t == topic && enlistingUnderWay e
  | .enqueue _, _ | .request _ _ _, _ | .disconnect, _ | .closeMux, _ => false

/-- A subscription of the errand to the topic is under way. -/
def Errand.underWay (topic : String) : Errand → Bool
  | .going _ => false
  | .waiting _ wait _ => wait.underWay topic

/-- The next step is a look whether the topic is noted. -/
def Wait.checks (topic : String) : {c : Call} → Wait c → Bool
  | .subscribeResponse t, .enlisting e =>
      match e with
      | .checked => t == topic
      | _ => false
  | .enqueue _, _ | .request _ _ _, _ | .disconnect, _ | .closeMux, _ => false

def Errand.checks (topic : String) : Errand → Bool
  | .going _ => false
  | .waiting _ wait _ => wait.checks topic

theorem Errand.exists_of_underWay (h : x.underWay topic) :
    ∃ e next, x = .waiting (.subscribeResponse topic) (.enlisting e) next ∧
      enlistingUnderWay e := by
  cases x with
  | going p => cases h
  | waiting c wait next =>
      cases wait with
      | @enlisting t e =>
          obtain ⟨ht, he⟩ := Bool.and_eq_true_iff.mp h
          cases beq_iff_eq.mp ht
          exact ⟨e, next, rfl, he⟩
      | _ => cases h

namespace World

/-- Only a subscription to responses or a disconnection changes which topics are noted. -/
theorem topics_stride (w : World) (own : Bool) {x : Errand} (hcancel : x.turn? ≠ some .cancel) :
    (w.stride own x).1.client.responseTopics = w.client.responseTopics ∨
      ∃ t e next, x = .waiting (.subscribeResponse t) (.enlisting e) next := by
  have hdoes := w.does_stride own x
  generalize (w.stride own x).1 = w' at hdoes ⊢
  cases hdoes with
  | keeps hturn hkeeps => exact .inl hkeeps.client.topics
  | joins hturn hjoins => exact .inl hjoins.topics
  | marks next => exact .inl rfl
  | enlists t e next => exact .inr ⟨t, e, next, rfl⟩
  | cancels next => exact absurd rfl hcancel
  | leaves cancelled next =>
      refine .inl ?_
      rcases w.leave_cases cancelled with ⟨-, hsame⟩ | ⟨-, t, hclient, -⟩
      · rw [hsame]
      · rw [hclient]

/-- A topic comes to be noted with a subscription to it that is under way. -/
theorem mem_of_mem_stride (hcancel : x.turn? ≠ some .cancel)
    (hmem : topic ∈ (w.stride own x).1.client.responseTopics) :
    topic ∈ w.client.responseTopics ∨ (w.stride own x).2.underWay topic := by
  rcases w.topics_stride own hcancel with hsame | ⟨t, e, next, rfl⟩
  · exact .inl (hsame ▸ hmem)
  · have henlists := w.enlists t e
    change topic ∈ (w.enlist t e).1.client.responseTopics at hmem
    show _ ∨ (Look.errand next (enlistingLook (w.enlist t e).2)).underWay topic
    generalize w.enlist t e = o at henlists hmem ⊢
    cases henlists with
    | notes =>
        rcases List.mem_cons.mp hmem with rfl | hold
        · exact .inr (Bool.and_eq_true_iff.mpr ⟨beq_self_eq_true topic, rfl⟩)
        · exact .inl hold
    | strikes fault => exact .inl (List.mem_filter.mp hmem).1
    | _ => exact .inl hmem

end World

open World

/-- A subscription stays under way until the errand begins to listen, or the topic is struck off. -/
theorem Errand.underWay_stride (w : World) (own : Bool) (h : x.underWay topic) :
    (w.stride own x).2.underWay topic ∨ (∃ n, x.turn? = some (.start topic n)) ∨
      topic ∉ (w.stride own x).1.client.responseTopics := by
  obtain ⟨e, next, rfl, he⟩ := exists_of_underWay h
  have hpending : ∀ e, enlistingUnderWay e →
      (Look.errand next (enlistingLook e)).underWay topic := by
    intro e he
    cases e <;> cases he <;> exact Bool.and_eq_true_iff.mpr ⟨beq_self_eq_true topic, rfl⟩
  have henlists := w.enlists topic e
  show (Look.errand next (enlistingLook (w.enlist topic e).2)).underWay topic ∨ _ ∨
    topic ∉ (w.enlist topic e).1.client.responseTopics
  generalize w.enlist topic e = o at henlists ⊢
  cases henlists with
  | attaches hsubscribe => exact .inl (hpending _ rfl)
  | refuses hsubscribe => exact .inl (hpending _ rfl)
  | strikes fault =>
      refine .inr (.inr fun hmem ↦ ?_)
      exact bne_iff_ne.mp (List.mem_filter.mp hmem).2 rfl
  | begins n events => exact .inr (.inl ⟨n, rfl⟩)
  | _ => cases he

/-! ## Errands that hold what they were given -/

/-- A channel that the subscription holds for the topic is alive. -/
def EnlistingSound (w : World) (topic : String) : Bus.Enlisting → Prop
  | .fresh | .checked | .noted | .refused _ => True
  | .attached n => w.Lives n topic
  | .ended _ => False

def Wait.Sound (w : World) (topic : String) : {c : Call} → Wait c → Prop
  | .subscribeResponse t, .enlisting e => t = topic → EnlistingSound w topic e
  | .enqueue _, _ | .request _ _ _, _ | .disconnect, _ | .closeMux, _ => True

/-- A channel that the errand holds for the topic is alive, and it does not wait for what has
ended. -/
def Errand.Sound (w : World) (topic : String) : Errand → Prop
  | .going _ => True
  | .waiting _ wait _ => wait.Sound w topic

theorem Errand.Sound.keep (h : x.Sound w topic)
    (hlives : ∀ n, x.turn? = some (.start topic n) → w.Lives n topic → w'.Lives n topic) :
    x.Sound w' topic := by
  cases x with
  | going p => trivial
  | waiting c wait next =>
      cases wait with
      | enlisting e =>
          rintro rfl
          cases e with
          | attached n => exact hlives n rfl (h rfl)
          | _ => exact h rfl
      | _ => trivial

theorem Errand.Sound.lives (h : x.Sound w topic) (hstart : x.turn? = some (.start topic n)) :
    w.Lives n topic := by
  cases turns_of_turn? hstart with
  | start => exact h rfl

/-- The bus gives channels that are alive. -/
theorem World.sound_enlist (w : World) (topic : String) (e : Bus.Enlisting) :
    (∃ r, (w.enlist topic e).2 = .ended r) ∨
      EnlistingSound (w.enlist topic e).1 topic (w.enlist topic e).2 := by
  have henlists := w.enlists topic e
  generalize w.enlist topic e = o at henlists ⊢
  cases henlists with
  | connected | notes | refuses _ => exact .inr trivial
  | attaches hsubscribe =>
      obtain ⟨rfl, -⟩ := Bus.Transport.subscribe_eq_ok hsubscribe
      exact .inr ((attaches_of_subscribe hsubscribe).lives_iff.mpr (.inr ⟨rfl, rfl⟩))
  | _ => exact .inl ⟨_, rfl⟩

/-- An errand is sound behind each of its steps. -/
theorem World.sound_stride (w : World) (own : Bool) (x : Errand) (topic : String) :
    (w.stride own x).2.Sound (w.stride own x).1 topic := by
  cases x with
  | going p =>
      cases p with
      | done r => trivial
      | call c next =>
          show (Look.errand next (w.begin own c).2).Sound _ topic
          cases c with
          | subscribeResponse t => exact fun _ ↦ trivial
          | _ =>
              generalize (w.begin own _).2 = l
              cases l <;> trivial
  | waiting c wait next =>
      cases wait with
      | @enlisting t e =>
          show (Look.errand next (enlistingLook (w.enlist t e).2)).Sound (w.enlist t e).1 topic
          have hsound := w.sound_enlist t e
          generalize (w.enlist t e).2 = e' at hsound ⊢
          rcases hsound with ⟨r, rfl⟩ | hsound
          · trivial
          · cases e' with
            | ended r => trivial
            | _ =>
                rintro rfl
                exact hsound
      | _ =>
          rw [World.stride]
          generalize (w.lookAgain _).2 = l
          cases l with
          | answer r => trivial
          | wait wait => cases wait <;> trivial

end BleBridge.Bench
