import BleBridge.Proofs.Bench.Noted
import BleBridge.Proofs.Service.Granted

/-!
# Runs that nothing disturbs

A run is `Calm` as long as no subscriptions are cancelled, the bus is not left, and
nobody finds the topic noted by a subscription that is still under way.  The bus may
refuse what it will.  There the records of the client and of the service can be
trusted (`Settled`): a topic that is noted is live, or a subscription to it is under
way, and so the topic of a grant is live.
-/

namespace BleBridge.Bench

variable {w : World} {x : Errand} {topic : String}

/-- A subscription is granted when the errand begins to listen to its channel, or finds the topic
noted. -/
theorem Errand.Sound.grants_cases (h : x.Sound w topic) (hgrants : x.Grants w topic) :
    (∃ n, x.turn? = some (.start topic n)) ∨
      x.checks topic ∧ topic ∈ w.client.responseTopics := by
  cases x with
  | going p => exact hgrants.elim
  | waiting c wait next =>
      obtain ⟨r, hlook, hsubscribes⟩ := hgrants
      cases wait with
      | @enlisting t e =>
          have ht : t = topic := by
            cases r with
            | ok _ => exact beq_iff_eq.mp hsubscribes
            | error fault => cases hsubscribes
          subst ht
          have henlists := w.enlists t e
          change World.enlistingLook (w.enlist t e).2 = _ at hlook
          generalize w.enlist t e = o at henlists hlook
          cases henlists with
          | found hmem events => exact .inr ⟨beq_self_eq_true t, hmem⟩
          | begins n events => exact .inl ⟨n, rfl⟩
          | rests r => exact (h rfl).elim
          | unconnected fault | strikes fault =>
              cases hlook
              cases hsubscribes
          | _ => cases hlook
      | _ => cases hsubscribes

end BleBridge.Bench

namespace BleBridge.Service.Site

open Bench (Device)

variable {c : Commands} {s : Site} {acts : List Act} {a : Act} {topic : String} {known : Prop}
  {n : Nat} {x : Chore}

/-- A subscription to the topic is under way: it has noted the topic, and nobody listens yet. -/
def underWay (s : Site) (topic : String) : Bool := s.chores.any (·.errand.underWay topic)

/-- An errand finds the topic noted while a subscription to it is under way. -/
def overlaps (s : Site) (topic : String) : Act → Bool
  | .proceed n =>
      s.chores[n]?.any (·.errand.checks topic) && s.world.client.responseTopics.contains topic &&
        s.underWay topic
  | _ => false

/-- All subscriptions are cancelled, the bus is left, or two subscriptions to the topic overlap. -/
def Disturbs (s : Site) (topic : String) (a : Act) : Prop :=
  s.Cancels a ∨ s.Leaves a ∨ s.overlaps topic a

/-- Nothing disturbs the subscriptions to the topic. -/
def Calm (c : Commands) (topic : String) : Site → List Act → Prop
  | _, [] => True
  | s, a :: acts => ¬ s.Disturbs topic a ∧ Calm c topic (s.step c a) acts

instance (s : Site) (topic : String) (a : Act) : Decidable (s.Disturbs topic a) :=
  inferInstanceAs (Decidable (_ ∨ _ ∨ _))

instance decidableCalm (c : Commands) (topic : String) :
    (s : Site) → (acts : List Act) → Decidable (Calm c topic s acts)
  | _, [] => .isTrue trivial
  | s, a :: acts =>
      have := decidableCalm c topic (s.step c a) acts
      inferInstanceAs (Decidable (_ ∧ _))

theorem calm_concat_iff : Calm c topic s (acts ++ [a]) ↔
    Calm c topic s acts ∧ ¬ (s.run c acts).Disturbs topic a := by
  induction acts generalizing s with
  | nil => exact and_comm
  | cons b acts ih => exact (and_congr_right fun _ ↦ ih).trans and_assoc.symm

/-! ## What calm runs preserve -/

/-- What is known has its topic live, and what is noted is live or a subscription to it is under
way. -/
structure Settled (topic : String) (known : Prop) (s : Site) : Prop where
  orderly : Orderly s
  live : known → s.world.Live topic
  noted : topic ∈ s.world.client.responseTopics → s.world.Live topic ∨ s.underWay topic
  sound : ∀ x ∈ s.chores, x.errand.Sound s.world topic

theorem settled_new (settings : Config.Mux) (device : Device) :
    Settled topic False (.new settings device) where
  orderly := orderly_new settings device
  live h := h.elim
  noted h := by cases h
  sound x hx := by cases hx

theorem Settled.mono {known' : Prop} (h : Settled topic known s) (hknown : known' → known) :
    Settled topic known' s :=
  ⟨h.orderly, h.live ∘ hknown, h.noted, h.sound⟩

theorem underWay_of_some (hn : s.chores[n]? = some x) (hx : x.errand.underWay topic) :
    s.underWay topic :=
  List.any_eq_true.mpr ⟨x, List.mem_of_getElem? hn, hx⟩

/-- A topic comes to be noted with a subscription to it that is under way. -/
theorem mem_of_mem_step (horderly : Orderly s) (hcancels : ¬ s.Cancels a)
    (hmem : topic ∈ (s.step c a).world.client.responseTopics) :
    topic ∈ s.world.client.responseTopics ∨ (s.step c a).underWay topic := by
  cases a with
  | proceed n =>
      rw [step] at hmem ⊢
      cases hn : s.chores[n]? with
      | none =>
          rw [proceed_of_none hn] at hmem
          exact .inl hmem
      | some x =>
          rw [Cancels, turnOf?, turn?_of_some hn] at hcancels
          rw [proceed_of_some hn] at hmem
          refine (Bench.World.mem_of_mem_stride hcancels hmem).imp id fun hunderWay ↦ ?_
          exact underWay_of_some (getElem?_proceed hn) hunderWay
  | happen e => exact .inl ((horderly.tidy.stays_happen e).topics ▸ hmem)
  | _ => exact .inl hmem

/-- A topic stays live when nothing disturbs it. -/
theorem Settled.live_step (h : Settled topic known s) (hcalm : ¬ s.Disturbs topic a)
    (hlive : s.world.Live topic) : (s.step c a).world.Live topic :=
  h.orderly.live_step_iff.mpr (.inr ⟨hlive, hcalm ∘ .inl, hcalm ∘ .inr ∘ .inl⟩)

/-- An errand that begins to listen makes its topic live. -/
theorem Settled.live_of_start (h : Settled topic known s) (hn : s.chores[n]? = some x) {k : Nat}
    (hstart : x.errand.turn? = some (.start topic k)) :
    (s.step c (.proceed n)).world.Live topic := by
  have hlives := (h.sound x (List.mem_of_getElem? hn)).lives hstart
  exact h.orderly.live_step_iff.mpr (.inl ⟨n, rfl, k, (turn?_of_some hn).trans hstart, hlives⟩)

/-- A subscription that is under way stays so, or makes its topic live, or its topic is struck
off. -/
theorem Settled.underWay_step (h : Settled topic known s) (hunderWay : s.underWay topic)
    (hmem : topic ∈ (s.step c a).world.client.responseTopics) :
    (s.step c a).world.Live topic ∨ (s.step c a).underWay topic := by
  obtain ⟨x, hx, hxWay⟩ := List.any_eq_true.mp hunderWay
  obtain ⟨n, hn⟩ := List.getElem?_of_mem hx
  by_cases ha : a = .proceed n
  · subst ha
    rcases Bench.Errand.underWay_stride s.world x.own hxWay with hstays | ⟨k, hstart⟩ | hstruck
    · exact .inr (underWay_of_some (getElem?_proceed hn) hstays)
    · exact .inl (h.live_of_start hn hstart)
    · rw [step, proceed_of_some hn] at hmem
      exact absurd hmem hstruck
  · exact .inr (underWay_of_some (getElem?_step_of_ne ha hn) hxWay)

/-- A subscription is granted to errands whose topic is live then. -/
theorem Settled.live_of_grants (h : Settled topic known s) (hcalm : ¬ s.Disturbs topic a)
    (hgrants : s.Grants topic a) : (s.step c a).world.Live topic := by
  obtain ⟨n, x, rfl, hn, -, hgrants⟩ := hgrants
  rcases (h.sound x (List.mem_of_getElem? hn)).grants_cases hgrants with
    ⟨k, hstart⟩ | ⟨hchecks, hmem⟩
  · exact h.live_of_start hn hstart
  · -- Whoever finds the topic noted while it is under way disturbs the run.
    refine h.live_step hcalm ((h.noted hmem).resolve_right fun hunderWay ↦ ?_)
    have hoverlaps : s.overlaps topic (.proceed n) := by
      simp [overlaps, hn, hchecks, hmem, hunderWay]
    exact hcalm (.inr (.inr hoverlaps))

theorem Settled.sound_step (h : Settled topic known s) (hcalm : ¬ s.Disturbs topic a) :
    ∀ x ∈ (s.step c a).chores, x.errand.Sound (s.step c a).world topic := by
  have hold : ∀ x ∈ s.chores, x.errand.Sound (s.step c a).world topic := by
    intro x hx
    refine (h.sound x hx).keep fun k hstart hlives ↦ ?_
    obtain ⟨n, hn⟩ := List.getElem?_of_mem hx
    have hfree := h.orderly.free n topic k ((turn?_of_some hn).trans hstart)
    exact ((h.orderly.strides c a).lives_iff hfree).mpr ⟨hlives, hcalm ∘ .inr ∘ .inl⟩
  cases a with
  | receive segment | engage p =>
      intro x hx
      rcases List.mem_append.mp hx with hx | hnew
      · exact hold x hx
      · rw [List.mem_singleton.mp hnew]
        trivial
  | proceed n =>
      rw [step] at hold ⊢
      cases hn : s.chores[n]? with
      | none =>
          rw [proceed_of_none hn]
          exact h.sound
      | some x =>
          rw [proceed_of_some hn] at hold ⊢
          intro y hy
          rcases List.mem_or_eq_of_mem_set hy with hy | rfl
          · exact hold y hy
          · exact s.world.sound_stride x.own x.errand topic
  | happen e => exact hold

theorem Settled.step (h : Settled topic known s) (hcalm : ¬ s.Disturbs topic a) :
    Settled topic (known ∨ s.Grants topic a) (s.step c a) where
  orderly := h.orderly.step c a
  live := by
    rintro (hknown | hgrants)
    · exact h.live_step hcalm (h.live hknown)
    · exact h.live_of_grants hcalm hgrants
  noted hmem := by
    rcases mem_of_mem_step h.orderly (hcalm ∘ .inl) hmem with hnoted | hunderWay
    · rcases h.noted hnoted with hlive | hunderWay
      · exact .inl (h.live_step hcalm hlive)
      · exact h.underWay_step hunderWay hmem
    · exact .inr hunderWay
  sound := h.sound_step hcalm

theorem settled_run {settings : Config.Mux} {device : Device}
    (hcalm : Calm c topic (.new settings device) acts) :
    Settled topic (Granted c (.new settings device) topic acts)
      ((Site.new settings device).run c acts) := by
  induction acts using List.reverseRecOn with
  | nil => exact (settled_new settings device).mono not_since_nil
  | append_singleton acts a ih =>
      obtain ⟨hbefore, hlast⟩ := calm_concat_iff.mp hcalm
      rw [run_concat]
      exact ((ih hbefore).step hlast).mono granted_concat_iff.mp

end BleBridge.Service.Site
