import BleBridge.Proofs.Bus.Answered
import BleBridge.Proofs.Bus.Disconnection
import Mathlib.Data.List.Induction

/-!
# Why a waiter is in the table

A call gives its waiter back on every way out but one: when its time is up, the
waiter stays for the grace period.  So whatever is in the table belongs to a call
that is about to publish, that waits, or that has run out of time within the last
grace period (`Traffic.Pending`).

The ids that were answered are those of calls whose waiter a delivery has taken.
Such a call gets no other waiter (`Traffic.Spent`), so no id is both answered and
in the table.
-/

namespace BleBridge.Bus

namespace Client

variable {c : Client} {id : String} {due now : Millis}

/-! ## Steps, grace periods and answered ids -/

theorem exists_of_dropSlot (c : Client) (ticket : Nat) :
    ∃ slots, c.dropSlot ticket = { c with slots } := by
  rw [dropSlot]
  split
  · exact ⟨_, rfl⟩
  · exact ⟨_, rfl⟩

/-- A waiter that goes takes nothing with it but its slot. -/
theorem exists_of_unregister (c : Client) (id : String) :
    ∃ waiters slots, c.unregister id = { c with waiters, slots } := by
  rw [unregister]
  split
  · obtain ⟨_, hslots⟩ := exists_of_dropSlot (c.withoutWaiter id) _
    exact ⟨_, _, hslots⟩
  · exact ⟨_, _, rfl⟩

@[simp] theorem answered_unregister (c : Client) (id : String) :
    (c.unregister id).answered = c.answered := by
  obtain ⟨_, _, h⟩ := exists_of_unregister c id
  rw [h]

@[simp] theorem graces_unregister (c : Client) (id : String) :
    (c.unregister id).graces = c.graces := by
  obtain ⟨_, _, h⟩ := exists_of_unregister c id
  rw [h]

/-- A step of a request notes no id as answered and ends no grace period. -/
theorem kept_advance (c : Client) (r : Request) (now : Millis) :
    (c.advance r now).1.answered = c.answered ∧ c.graces ⊆ (c.advance r now).1.graces := by
  have hsame : ∀ {c' : Client}, c'.answered = c.answered → c'.graces = c.graces →
      c'.answered = c.answered ∧ c.graces ⊆ c'.graces :=
    fun hanswered hgraces ↦ ⟨hanswered, hgraces ▸ List.Subset.refl _⟩
  rw [advance]
  split
  · split
    · exact hsame rfl rfl
    · exact hsame rfl rfl
  · exact hsame (answered_unregister c _) (graces_unregister c _)
  · split
    · rename_i hpublish
      obtain ⟨_, _, -, rfl⟩ := exists_of_publish hpublish
      exact hsame rfl rfl
    · exact hsame (answered_unregister c _) (graces_unregister c _)
  · split
    · exact hsame rfl rfl
    · exact hsame rfl rfl
    · split
      · exact ⟨rfl, List.subset_append_left _ _⟩
      · exact hsame rfl rfl
    · split
      · exact ⟨rfl, List.subset_append_left _ _⟩
      · exact hsame rfl rfl
  · exact hsame rfl rfl

/-- Only the step before the last of a delivery notes an id as answered. -/
theorem answered_deliver {d : Delivery} (h : (c.deliver d).1.answered.contains id) :
    c.answered.contains id ∨ ∃ e ticket, d = .taken e ticket ∧ e.requestId = id := by
  cases d with
  | arrived e =>
      rw [deliver] at h
      split at h
      · exact .inl h
      · exact .inl h
  | unanswered e =>
      rw [deliver] at h
      split at h
      · exact .inl h
      · exact .inl h
  | taken e ticket =>
      rcases Answered.contains_insert h with rfl | h
      · exact .inr ⟨e, ticket, rfl, rfl⟩
      · exact .inl h
  | noted e ticket =>
      rw [deliver] at h
      split at h
      · exact .inl h
      · exact .inl h
  | done => exact .inl h

theorem graces_deliver (c : Client) (d : Delivery) : (c.deliver d).1.graces = c.graces := by
  cases d with
  | arrived _ | unanswered _ | noted _ _ =>
      rw [deliver]
      split <;> rfl
  | taken _ _ | done => rfl

/-! ## Ends of grace periods -/

section

variable (gs : List (String × Millis))

theorem exists_of_foldl_unregister (c : Client) :
    ∃ waiters slots, gs.foldl (fun c g ↦ c.unregister g.1) c = { c with waiters, slots } := by
  induction gs generalizing c with
  | nil => exact ⟨_, _, rfl⟩
  | cons g gs ih =>
      obtain ⟨_, _, hfirst⟩ := exists_of_unregister c g.1
      obtain ⟨_, _, hlater⟩ := ih (c.unregister g.1)
      exact ⟨_, _, hlater.trans (by rw [hfirst])⟩

theorem ids_foldl_unregister {gs : List (String × Millis)} (hid : id ∈ gs.map Prod.fst)
    (c : Client) : id ∉ (gs.foldl (fun c g ↦ c.unregister g.1) c).waiters.map Prod.fst := by
  induction gs generalizing c with
  | nil => cases hid
  | cons g gs ih =>
      rcases List.mem_cons.mp hid with rfl | hid
      · have hfades := fades_foldl (fun c (g : String × Millis) ↦ fades_unregister c g.1) gs
          (c.unregister g.1)
        exact mt (fun hmem ↦ (hfades.waiters.map _).subset hmem) (ids_unregister c g.1)
      · exact ih hid _

end

theorem answered_endGraces (c : Client) (now : Millis) :
    (c.endGraces now).answered = c.answered := by
  obtain ⟨_, _, h⟩ := exists_of_foldl_unregister (c.graces.filter (·.2 ≤ now))
    { c with graces := c.graces.filter (now < ·.2) }
  rw [endGraces, h]

theorem graces_endGraces (c : Client) (now : Millis) :
    (c.endGraces now).graces = c.graces.filter (now < ·.2) := by
  obtain ⟨_, _, h⟩ := exists_of_foldl_unregister (c.graces.filter (·.2 ≤ now))
    { c with graces := c.graces.filter (now < ·.2) }
  rw [endGraces, h]

/-- A waiter that is still there has its grace period before it. -/
theorem lt_of_mem_endGraces (hgrace : (id, due) ∈ c.graces)
    (hid : id ∈ (c.endGraces now).waiters.map Prod.fst) : now < due := by
  by_contra hdue
  refine ids_foldl_unregister (List.mem_map.mpr ⟨_, List.mem_filter.mpr ⟨hgrace, ?_⟩, rfl⟩) _ hid
  exact decide_eq_true (Nat.not_lt.mp hdue)

/-! ## Requests with a waiter in the table -/

/-- A request whose waiter was in the table when it got on, and is still. -/
theorem advance_of_mem {r : Request} (hregistered : r.phase.hasRegistered)
    (hidle : r.phase.isOpen → c.slot r.ticket = .empty)
    (hid : r.envelope.requestId ∈ (c.advance r now).1.waiters.map Prod.fst) :
    (c.advance r now).2.1 = r ∨
      (∃ due, (c.advance r now).2.1 = { r with phase := .waiting due }) ∨
      ∃ due ≤ now, r.phase = .waiting due ∧ (c.advance r now).1 = (c.expire r now).1 ∧
        (c.advance r now).2.1 = { r with phase := .ended (.error (lateError r)) } := by
  cases hphase : r.phase with
  | fresh | checked =>
      rw [hphase] at hregistered
      cases hregistered
  | registered =>
      rw [advance, hphase] at hid ⊢
      dsimp only at hid ⊢
      cases hpublish : c.publish r.topic r.envelope with
      | ok published => exact .inr (.inl ⟨_, rfl⟩)
      | error fault =>
          rw [hpublish] at hid
          exact absurd hid (c.ids_unregister _)
  | waiting due =>
      have hslot := hidle (by rw [hphase]; rfl)
      rw [advance, hphase]
      simp only [hslot]
      split
      · rename_i hdue
        exact .inr (.inr ⟨due, hdue, rfl, rfl, rfl⟩)
      · exact .inl rfl
  | ended result =>
      rw [advance, hphase]
      exact .inl rfl

end Client

namespace Traffic

variable {s : Traffic} {t n : Nat} {r : Request} {id : String} {a : Action} {actions : List Action}
  {capacity : Nat} {due : Millis}

/-! ## Calls and their ids -/

theorem run_append (s : Traffic) (before after : List Action) :
    s.run (before ++ after) = (s.run before).run after :=
  List.foldl_append

theorem run_concat (s : Traffic) (actions : List Action) (a : Action) :
    s.run (actions ++ [a]) = (s.run actions).perform a :=
  List.foldl_concat _ _ _ _

/-- What an action can do to a call. -/
theorem calls_perform_cases (hr : (s.perform a).calls[t]? = some r) :
    s.calls[t]? = some r ∨ (s.calls[t]? = none ∧ r.phase = .fresh) ∨
      ∃ now r₀, a = .advance t now ∧ s.calls[t]? = some r₀ ∧ r = (s.client.advance r₀ now).2.1 := by
  cases a with
  | call topic request timeout =>
      rcases getElem?_concat_cases hr with hr | ⟨rfl, rfl⟩
      · exact .inl hr
      · exact .inr (.inl ⟨List.getElem?_eq_none (Nat.le_refl _), rfl⟩)
  | advance u now =>
      rw [perform, Traffic.advance] at hr
      split at hr
      · exact .inl hr
      · rename_i r₀ hu
        rcases getElem?_set_cases hr with ⟨rfl, rfl⟩ | ⟨-, hr⟩
        · exact .inr (.inr ⟨now, r₀, rfl, hu, rfl⟩)
        · exact .inl hr
  | deliver n =>
      rw [perform, Traffic.deliver] at hr
      split at hr
      · exact .inl hr
      · exact .inl hr
  | receive _ | endGraces _ | discard _ | forget | cancel | bus _ _ => exact .inl hr

theorem idOf_perform (h : s.idOf t = some id) (a : Action) : (s.perform a).idOf t = some id := by
  cases a with
  | call topic request timeout =>
      obtain ⟨r, hr, hid⟩ := Option.map_eq_some_iff.mp h
      exact Option.map_eq_some_iff.mpr ⟨r, getElem?_concat _ hr, hid⟩
  | advance u now =>
      rw [perform, Traffic.advance]
      split
      · exact h
      · rename_i r hu
        obtain ⟨phase, hr, -⟩ := s.client.advances r now
        refine (map_getElem?_set (fun r : Request ↦ r.envelope.requestId) _ hu ?_ t).trans h
        rw [hr]
  | deliver n =>
      rw [perform, Traffic.deliver]
      split
      · exact h
      · exact h
  | receive _ | endGraces _ | discard _ | forget | cancel | bus _ _ => exact h

/-- No two calls have the same id. -/
def Apart (s : Traffic) : Prop :=
  ∀ {t u : Nat} {id : String}, s.idOf t = some id → s.idOf u = some id → t = u

theorem apart_of_nodup (h : (s.calls.map (·.envelope.requestId)).Nodup) : s.Apart := by
  intro t u id ht hu
  rw [idOf, ← List.getElem?_map] at ht hu
  exact (List.getElem?_inj (List.getElem?_eq_some_iff.mp ht).1 h).mp (ht.trans hu.symm)

theorem Apart.of_perform (h : (s.perform a).Apart) : s.Apart :=
  fun ht hu ↦ h (idOf_perform ht a) (idOf_perform hu a)

/-! ## Answered ids -/

/-- An id of a call whose waiter is out of the table for good. -/
def Spent (s : Traffic) (id : String) : Prop :=
  ∃ t, s.idOf t = some id ∧ s.Registered t ∧ t ∉ s.client.tickets

theorem Sound.spent_perform (h : Sound s) (hspent : s.Spent id) (a : Action) :
    (s.perform a).Spent id := by
  obtain ⟨t, hid, hregistered, hgone⟩ := hspent
  exact ⟨t, idOf_perform hid a, hregistered.perform a,
    mt (h.tickets_perform hregistered a) hgone⟩

theorem answered_perform (h : (s.perform a).client.answered.contains id) :
    s.client.answered.contains id ∨
      ∃ (n t : Nat) (e e' : Envelope), s.receptions[n]? = some (e', .taken e t) ∧
        e.requestId = id := by
  cases a with
  | call _ _ _ | receive _ | bus _ _ => exact .inl h
  | advance t now =>
      rw [perform, Traffic.advance] at h
      split at h
      · exact .inl h
      · exact .inl ((s.client.kept_advance _ now).1 ▸ h)
  | deliver n =>
      rw [perform, Traffic.deliver] at h
      split at h
      · exact .inl h
      · rename_i e' d hn
        rcases Client.answered_deliver h with h | ⟨e, t, rfl, hid⟩
        · exact .inl h
        · exact .inr ⟨n, t, e, e', hn, hid⟩
  | endGraces now => exact .inl (s.client.answered_endGraces now ▸ h)
  | discard id => exact .inl (s.client.answered_unregister id ▸ h)
  | forget | cancel => cases h

/-- What holds of a client that has come about in a run: besides what it owes to its calls, that the
ids that were answered are spent. -/
structure Orderly (s : Traffic) : Prop where
  sound : Sound s
  tended : Tended s
  spent : ∀ {id}, s.client.answered.contains id → s.Spent id

theorem orderly_start (capacity : Nat) : Orderly (start capacity) :=
  ⟨sound_start capacity, tended_start capacity, nofun⟩

theorem Orderly.perform (h : Orderly s) (a : Action) : Orderly (s.perform a) where
  sound := h.sound.perform a
  tended := h.tended.perform h.sound a
  spent := fun {id} hanswered ↦ by
    refine h.sound.spent_perform ?_ a
    rcases answered_perform hanswered with hanswered | ⟨n, t, e, e', hn, rfl⟩
    · exact h.spent hanswered
    · -- the delivery has the waiter, so the table does not
      have hcarried : s.Carried t := ⟨_, List.mem_of_getElem? hn, rfl⟩
      obtain rfl := h.sound.delivered hn rfl
      exact ⟨t, h.sound.carried hn rfl, h.sound.registered_of_carried hcarried,
        h.sound.not_mem_tickets hcarried⟩

theorem orderly_run (capacity : Nat) (actions : List Action) :
    Orderly ((start capacity).run actions) := by
  induction actions using List.reverseRecOn with
  | nil => exact orderly_start capacity
  | append_singleton actions a ih =>
      rw [run_concat]
      exact ih.perform a

/-- No id is both answered and in the table. -/
theorem Orderly.unanswered (h : Orderly s) (hapart : s.Apart) (hmem : (id, t) ∈ s.client.waiters) :
    s.client.answered.contains id = false := by
  refine Bool.eq_false_iff.mpr fun hanswered ↦ ?_
  obtain ⟨u, hu, -, hgone⟩ := h.spent hanswered
  obtain rfl := hapart (h.sound.waiting hmem) hu
  exact hgone (List.mem_map_of_mem hmem)

/-! ## Waiters in the table -/

/-- Why a call has a waiter in the table after some actions. -/
inductive Pending (capacity : Nat) (actions : List Action) (t : Nat) (r : Request) : Prop
  | publishing (phase : r.phase = .registered)
  | waiting {due : Millis} (phase : r.phase = .waiting due)
  /-- Its time was up, and its grace period has not ended since. -/
  | late {before after : List Action} {now due : Millis}
      (split : actions = before ++ .advance t now :: after)
      (expired : ((start capacity).run before).calls[t]? = some { r with phase := .waiting due })
      (due_le : due ≤ now) (phase : r.phase = .ended (.error (Client.lateError r)))
      (grace : (r.envelope.requestId, now + waiterGrace) ∈
        ((start capacity).run actions).client.graces)
      (later : ∀ moment, .endGraces moment ∈ after → moment < now + waiterGrace)

/-- A grace period stays until it ends, and with it the waiter goes. -/
theorem graces_perform (hgrace : (id, due) ∈ s.client.graces)
    (hid : id ∈ (s.perform a).client.waiters.map Prod.fst) :
    (id, due) ∈ (s.perform a).client.graces ∧ ∀ moment, a = .endGraces moment → moment < due := by
  have hdue : ∀ moment, a = .endGraces moment → moment < due := by
    rintro moment rfl
    exact Client.lt_of_mem_endGraces hgrace hid
  refine ⟨?_, hdue⟩
  cases a with
  | call _ _ _ | receive _ | forget | bus _ _ => exact hgrace
  | advance u now =>
      rw [perform, Traffic.advance]
      split
      · exact hgrace
      · exact (s.client.kept_advance _ now).2 hgrace
  | deliver n =>
      rw [perform, Traffic.deliver]
      split
      · exact hgrace
      · exact s.client.graces_deliver _ ▸ hgrace
  | endGraces now =>
      rw [perform, Client.graces_endGraces]
      exact List.mem_filter.mpr ⟨hgrace, decide_eq_true (hdue now rfl)⟩
  | discard id' =>
      rw [perform, Client.graces_unregister]
      exact hgrace
  | cancel => cases hid

/-- A call that has not got on is pending for the reason for which it was. -/
theorem Pending.concat (h : Pending capacity actions t r)
    (hid : r.envelope.requestId ∈
      ((start capacity).run (actions ++ [a])).client.waiters.map Prod.fst) :
    Pending capacity (actions ++ [a]) t r := by
  cases h with
  | publishing phase => exact .publishing phase
  | waiting phase => exact .waiting phase
  | late split expired due_le phase grace later =>
      rw [run_concat] at hid
      obtain ⟨hgrace, hmoment⟩ := graces_perform grace hid
      refine .late (by rw [split, List.append_assoc, List.cons_append]) expired due_le phase
        (run_concat _ actions a ▸ hgrace) fun moment hmem ↦ ?_
      rcases List.mem_append.mp hmem with hmem | hmem
      · exact later moment hmem
      · exact hmoment moment (List.mem_singleton.mp hmem).symm

/-- A call that gets its waiter in this step is about to publish. -/
theorem Orderly.registered_of_mem (h : Orderly s) {now : Millis} (hr : s.calls[t]? = some r)
    (hnew : ¬ r.phase.hasRegistered) (hmem : t ∈ (s.client.advance r now).1.tickets) :
    (s.client.advance r now).2.1.phase = .registered := by
  cases hphase : r.phase with
  | fresh =>
      -- the check puts no waiter into the table
      have hsame : (s.client.advance r now).1 = s.client := by
        rw [Client.advance, hphase]
        dsimp only
        split <;> rfl
      rw [hsame] at hmem
      obtain ⟨r', hr', hregistered⟩ := h.sound.registered_of_mem hmem
      obtain rfl : r = r' := Option.some.inj (hr.symm.trans hr')
      exact absurd hregistered hnew
  | checked => rw [Client.advance, hphase]
  | registered | waiting _ | ended _ =>
      rw [hphase] at hnew
      exact absurd rfl hnew

/-- A call that gets on and has a waiter in the table is pending. -/
theorem Orderly.pending_advance (h : Orderly ((start capacity).run actions)) {now : Millis}
    (hr : ((start capacity).run actions).calls[t]? = some r)
    (hmem : t ∈ (((start capacity).run actions).perform (.advance t now)).client.tickets)
    (hstay : (((start capacity).run actions).client.advance r now).2.1 = r →
      Pending capacity (actions ++ [.advance t now]) t r) :
    Pending capacity (actions ++ [.advance t now]) t
      (((start capacity).run actions).client.advance r now).2.1 := by
  have hrun := run_concat (start capacity) actions (.advance t now)
  generalize hs : (start capacity).run actions = s at h hr hmem hstay hrun ⊢
  have hsound : Sound (s.perform (.advance t now)) := h.sound.perform _
  obtain ⟨-, hclient⟩ := advance_calls hr now
  by_cases hregistered : r.phase.hasRegistered
  · have hbefore : t ∈ s.client.tickets := h.sound.tickets_perform ⟨r, hr, hregistered⟩ _ hmem
    have hidle : r.phase.isOpen → s.client.slot r.ticket = .empty :=
      fun hopen ↦ h.sound.tickets hr ▸ h.tended.idle hr hopen hbefore
    obtain ⟨⟨id, _⟩, hid, rfl⟩ := List.mem_map.mp hmem
    have hown : id = r.envelope.requestId := by
      have hidOf : s.idOf _ = some r.envelope.requestId := Option.map_eq_some_iff.mpr ⟨r, hr, rfl⟩
      exact Option.some.inj ((hsound.waiting hid).symm.trans (idOf_perform hidOf _))
    have hkept := List.mem_map_of_mem (f := Prod.fst) hid
    rw [Traffic.perform, hclient, hown] at hkept
    rcases Client.advance_of_mem hregistered hidle hkept with hsame | ⟨due, hwaits⟩ |
      ⟨due, hdue, hphase, hexpired, hlate⟩
    · rw [hsame]
      exact hstay hsame
    · exact hwaits ▸ .waiting rfl
    · rw [hlate]
      refine .late rfl ?_ hdue rfl ?_ fun _ hlater ↦ absurd hlater List.not_mem_nil
      · rw [hs, hr, ← hphase]
      · rw [hrun, Traffic.perform, hclient, hexpired]
        exact List.mem_append_right _ (List.mem_singleton_self _)
  · rw [Traffic.perform, hclient] at hmem
    exact .publishing (h.registered_of_mem hr hregistered hmem)

/-- Whatever is in the table after a run is the waiter of a call that is pending. -/
theorem pending_run (capacity : Nat) (actions : List Action)
    (hmem : (id, t) ∈ ((start capacity).run actions).client.waiters) :
    ∃ r : Request, ((start capacity).run actions).calls[t]? = some r ∧
      r.envelope.requestId = id ∧ Pending capacity actions t r := by
  obtain ⟨r, hr, hid⟩ := Option.map_eq_some_iff.mp
    ((orderly_run capacity actions).sound.waiting hmem)
  refine ⟨r, hr, hid, ?_⟩
  induction actions using List.reverseRecOn generalizing id t r with
  | nil => cases hmem
  | append_singleton actions a ih =>
      have horderly := orderly_run capacity actions
      have hmem' := List.mem_map_of_mem (f := Prod.snd) hmem
      have hids := List.mem_map_of_mem (f := Prod.fst) hmem
      obtain ⟨r', hr', hregistered⟩ :=
        (orderly_run capacity (actions ++ [a])).sound.registered_of_mem hmem'
      obtain rfl : r = r' := Option.some.inj (hr.symm.trans hr')
      rw [run_concat] at hr hmem'
      -- a call that has not got on had its waiter before
      have hstay : ((start capacity).run actions).calls[t]? = some r →
          Pending capacity (actions ++ [a]) t r := by
        intro hr
        have hbefore := horderly.sound.tickets_perform ⟨r, hr, hregistered⟩ a hmem'
        obtain ⟨⟨id', _⟩, hid', rfl⟩ := List.mem_map.mp hbefore
        have hown := horderly.sound.waiting hid'
        rw [idOf, hr] at hown
        cases hown
        exact (ih hid' r hr rfl).concat (hid ▸ hids)
      rcases calls_perform_cases hr with hr | ⟨-, hfresh⟩ | ⟨now, r₀, rfl, hr₀, rfl⟩
      · exact hstay hr
      · rw [hfresh] at hregistered
        cases hregistered
      · exact horderly.pending_advance hr₀ hmem' fun hsame ↦ hsame ▸ hstay (hsame.symm ▸ hr₀)

end Traffic

end BleBridge.Bus
