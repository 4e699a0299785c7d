import BleBridge.Proofs.Bus.Correlation

/-!
# What a disconnection leaves

A disconnection takes two steps: the client throws its waiters away, and then the
transport goes down.  Calls and deliveries get on before, in between and after, as
in `BleBridge.Proofs.Bus.Correlation`.

A request that has registered when the waiters go is released for good: it gets no
other waiter (`Traffic.Sound.tickets_run`), and the end of its wait lies in its slot
or in the hands of a delivery (`Traffic.Tended`).  A request that registers between
the two steps is met by neither.  If it publishes before the transport is down, it
waits until its time is up (`Traffic.overtaking`).
-/

namespace BleBridge.Bus

/-- What becomes of a slot whose waiter is thrown away. -/
def Slot.drop : Slot → Slot
  | .empty => .dropped
  | s => s

theorem Slot.drop_ne_empty (s : Slot) : s.drop ≠ .empty := by
  cases s <;> simp [drop]

@[simp] theorem Slot.drop_eq_left_iff {s : Slot} : s.drop = .left ↔ s = .left := by
  cases s <;> simp [drop]

@[simp] theorem Slot.drop_drop (s : Slot) : s.drop.drop = s.drop := by
  cases s <;> rfl

namespace Client

variable {c c' c'' : Client} {id : String} {ticket t : Nat}

/-- The requests whose waiters are in the table. -/
def tickets (c : Client) : List Nat := c.waiters.map Prod.snd

theorem count_tickets (c : Client) (t : Nat) :
    c.tickets.count t = c.waiters.countP (·.2 == t) := by
  rw [tickets, List.count_eq_countP, List.countP_map]
  rfl

/-! ## Waiters that go with their slots -/

theorem slot_dropSlot (c : Client) (ticket t : Nat) :
    (c.dropSlot ticket).slot t = if t = ticket then (c.slot t).drop else c.slot t := by
  rw [dropSlot]
  split
  · rename_i hslot
    rw [slot_setSlot]
    split
    · rename_i ht
      rw [ht, hslot, Slot.drop]
    · rfl
  · rename_i hslot
    split
    · rename_i ht
      subst ht
      cases h : c.slot t with
      | empty => exact absurd h hslot
      | filled _ | dropped | left => rfl
    · rfl

@[simp] theorem waiters_dropSlot (c : Client) (ticket : Nat) :
    (c.dropSlot ticket).waiters = c.waiters := by
  rw [dropSlot]
  split <;> rfl

theorem slot_foldl_dropSlot (ws : List (String × Nat)) (c : Client) (t : Nat) :
    (ws.foldl (fun c w ↦ c.dropSlot w.2) c).slot t =
      if t ∈ ws.map Prod.snd then (c.slot t).drop else c.slot t := by
  induction ws generalizing c with
  | nil => rfl
  | cons w ws ih =>
      rw [List.foldl_cons, ih, slot_dropSlot, List.map_cons]
      by_cases hw : t = w.2
      · rw [if_pos hw, if_pos (List.mem_cons.mpr (.inl hw)), Slot.drop_drop, ite_self]
      · rw [if_neg hw]
        exact if_congr (List.mem_cons.trans (or_iff_right hw)).symm rfl rfl

/-- Waiters go, each with its slot; that is all that happens to slots. -/
structure Drops (c c' : Client) : Prop where
  waiters : c'.waiters.Sublist c.waiters
  slot : ∀ t, (c'.slot t = c.slot t ∧ (t ∈ c.tickets → t ∈ c'.tickets)) ∨
    (c'.slot t = (c.slot t).drop ∧ t ∉ c'.tickets)

theorem Drops.tickets (h : Drops c c') : c'.tickets.Sublist c.tickets := h.waiters.map _

theorem drops_of_eq (hwaiters : c'.waiters = c.waiters) (hslots : c'.slots = c.slots) :
    Drops c c' := by
  refine ⟨hwaiters ▸ .refl _, fun t ↦ .inl ⟨?_, ?_⟩⟩
  · rw [slot, hslots, slot]
  · rw [Client.tickets, Client.tickets, hwaiters]
    exact id

theorem Drops.refl (c : Client) : Drops c c := drops_of_eq rfl rfl

theorem Drops.trans (h : Drops c c') (h' : Drops c' c'') : Drops c c'' := by
  refine ⟨h'.waiters.trans h.waiters, fun t ↦ ?_⟩
  rcases h.slot t with ⟨hslot, hkept⟩ | ⟨hslot, hgone⟩
  · rcases h'.slot t with ⟨hslot', hkept'⟩ | ⟨hslot', hgone'⟩
    · exact .inl ⟨hslot'.trans hslot, hkept' ∘ hkept⟩
    · exact .inr ⟨hslot'.trans (by rw [hslot]), hgone'⟩
  · have hgone'' : t ∉ c''.tickets := fun hmem ↦ hgone (h'.tickets.subset hmem)
    rcases h'.slot t with ⟨hslot', -⟩ | ⟨hslot', -⟩
    · exact .inr ⟨hslot'.trans hslot, hgone''⟩
    · exact .inr ⟨by rw [hslot', hslot, Slot.drop_drop], hgone''⟩

/-- No id and no request has two waiters. -/
structure Distinct (c : Client) : Prop where
  ids : (c.waiters.map Prod.fst).Nodup
  tickets : c.tickets.Nodup

theorem Distinct.sublist (h : Distinct c) (hwaiters : c'.waiters.Sublist c.waiters) :
    Distinct c' :=
  ⟨h.ids.sublist (hwaiters.map _), h.tickets.sublist (hwaiters.map _)⟩

theorem ids_unregister (c : Client) (id : String) :
    id ∉ (c.unregister id).waiters.map Prod.fst := by
  rw [unregister]
  split
  · simp [withoutWaiter]
  · rename_i hnone
    intro hmem
    obtain ⟨w, hw, rfl⟩ := List.mem_map.mp hmem
    rw [waiter?, Option.map_eq_none_iff, List.find?_eq_none] at hnone
    exact hnone w hw BEq.rfl

theorem drops_unregister (h : Distinct c) (id : String) : Drops c (c.unregister id) := by
  rw [unregister]
  split
  · rename_i ticket hwaiter
    have hmem := (c.waiters_withoutWaiter hwaiter).1
    have hwaiters : ((c.withoutWaiter id).dropSlot ticket).waiters =
        c.waiters.filter (·.1 != id) := waiters_dropSlot _ _
    refine ⟨hwaiters ▸ List.filter_sublist, fun t ↦ ?_⟩
    rw [slot_dropSlot, Client.tickets, Client.tickets, hwaiters]
    by_cases ht : t = ticket
    · subst ht
      refine .inr ⟨if_pos rfl, fun hkept ↦ ?_⟩
      obtain ⟨⟨id', _⟩, hfilter, rfl⟩ := List.mem_map.mp hkept
      obtain ⟨hmem', hne⟩ := List.mem_filter.mp hfilter
      -- a request has one waiter, and that was taken out
      have heq := List.inj_on_of_nodup_map h.tickets hmem' hmem rfl
      cases heq
      simp at hne
    · refine .inl ⟨if_neg ht, fun htickets ↦ ?_⟩
      obtain ⟨⟨id', _⟩, hmem', rfl⟩ := List.mem_map.mp htickets
      refine List.mem_map.mpr ⟨_, List.mem_filter.mpr ⟨hmem', ?_⟩, rfl⟩
      rw [bne_iff_ne]
      intro hid
      have heq := List.inj_on_of_nodup_map h.ids hmem' hmem hid
      cases heq
      exact ht rfl
  · exact .refl c

theorem drops_endGraces (h : Distinct c) (now : Millis) : Drops c (c.endGraces now) := by
  rw [endGraces]
  have hfold : ∀ (gs : List (String × Millis)) (c : Client), Distinct c →
      Drops c (gs.foldl (fun c g ↦ c.unregister g.1) c) := by
    intro gs
    induction gs with
    | nil => exact fun c _ ↦ .refl c
    | cons g gs ih =>
        intro c h
        have hdrops := drops_unregister h g.1
        exact hdrops.trans (ih _ (h.sublist hdrops.waiters))
  have hended : Drops c { c with graces := c.graces.filter (now < ·.2) } := drops_of_eq rfl rfl
  exact hended.trans (hfold _ _ (h.sublist hended.waiters))

theorem drops_cancel (c : Client) : Drops c c.cancel := by
  refine ⟨List.nil_sublist _, fun t ↦ ?_⟩
  have hslot : c.cancel.slot t = if t ∈ c.tickets then (c.slot t).drop else c.slot t :=
    slot_foldl_dropSlot c.waiters c t
  by_cases ht : t ∈ c.tickets
  · exact .inr ⟨hslot.trans (if_pos ht), List.not_mem_nil⟩
  · exact .inl ⟨hslot.trans (if_neg ht), fun hmem ↦ absurd hmem ht⟩

/-- Leaving takes the transport down and does nothing else to the client. -/
theorem exists_of_leave {cancelled : Nat} {events : List Event}
    (h : c.leave cancelled = .ok (c', events)) :
    ∃ transport : Transport, transport.isConnected = false ∧ c' = { c with transport } := by
  rw [leave, Transport.disconnect] at h
  split at h
  · cases h
  · cases h
    exact ⟨_, rfl, rfl⟩

/-! ## The next step of an open request -/

section

variable {r : Request} {e : Envelope} {due now : Millis}

theorem advance_filled (hphase : r.phase = .waiting due) (hslot : c.slot r.ticket = .filled e) :
    (c.advance r now).2.1 = { r with phase := .ended (.ok e) } := by
  rw [advance, hphase]
  simp only [hslot, finish]

theorem advance_dropped (hphase : r.phase = .waiting due) (hslot : c.slot r.ticket = .dropped) :
    (c.advance r now).2.1 =
      { r with phase := .ended (.error (closedError r.envelope.requestId)) } := by
  rw [advance, hphase]
  simp only [hslot, finish]

theorem advance_empty (hphase : r.phase = .waiting due) (hslot : c.slot r.ticket = .empty)
    (hnow : now < due) : c.advance r now = (c, r, []) := by
  rw [advance, hphase]
  simp only [hslot]
  rw [if_neg (Nat.not_le.mpr hnow)]

/-- A request that cannot be published any more takes its waiter back. -/
theorem advance_refused (hphase : r.phase = .registered) (hdown : c.isConnected = false) :
    c.advance r now = ((c.unregister r.envelope.requestId).setSlot r.ticket .left,
      { r with phase := .ended (.error .notConnected) }, []) := by
  have hpublish : c.publish r.topic r.envelope = .error .notConnected := by
    rw [publish, ensureConnected, hdown]
    rfl
  rw [advance, hphase]
  simp only [hpublish, finish]

end

end Client

namespace Traffic

variable {s : Traffic} {c' : Client} {t n : Nat} {r : Request} {e : Envelope} {d d' : Delivery}

/-- A delivery has the waiter of a call. -/
def Carried (s : Traffic) (t : Nat) : Prop := ∃ p ∈ s.receptions, p.2.ticket? = some t

/-- A call has put its waiter into the table at some time. -/
def Registered (s : Traffic) (t : Nat) : Prop :=
  ∃ r : Request, s.calls[t]? = some r ∧ r.phase.hasRegistered

/-- What the slots of open calls say about their waiters. -/
structure Tended (s : Traffic) : Prop where
  ids : (s.client.waiters.map Prod.fst).Nodup
  stays : ∀ {t : Nat} {r : Request}, s.calls[t]? = some r → r.phase.isOpen → s.client.slot t ≠ .left
  /-- A call that waits for its response has its waiter somewhere. -/
  tended : ∀ {t : Nat} {r : Request}, s.calls[t]? = some r → r.phase.isOpen →
    s.client.slot t = .empty → t ∈ s.client.tickets ∨ s.Carried t
  /-- A call whose waiter is in the table has been given nothing. -/
  idle : ∀ {t : Nat} {r : Request}, s.calls[t]? = some r → r.phase.isOpen →
    t ∈ s.client.tickets → s.client.slot t = .empty

/-! ## Waiters of open calls -/

theorem count_tickets_le (s : Traffic) (t : Nat) : s.client.tickets.count t ≤ s.places t := by
  rw [places, Client.count_tickets]
  omega

theorem Sound.distinct (h : Sound s) (htended : Tended s) : s.client.Distinct :=
  ⟨htended.ids, List.nodup_iff_count_le_one.mpr fun t ↦
    Nat.le_trans (s.count_tickets_le t) (h.once t)⟩

theorem Sound.registered_of_places (h : Sound s) (hplaces : 0 < s.places t) : s.Registered t := by
  by_contra hnever
  refine absurd (h.unregistered fun r hr ↦ ?_) (Nat.ne_of_gt hplaces)
  exact Bool.eq_false_iff.mpr fun hphase ↦ hnever ⟨r, hr, hphase⟩

theorem Sound.registered_of_mem (h : Sound s) (hmem : t ∈ s.client.tickets) : s.Registered t :=
  h.registered_of_places (Nat.lt_of_lt_of_le (List.count_pos_iff.mpr hmem) (s.count_tickets_le t))

theorem Carried.countP_pos (h : s.Carried t) :
    0 < s.receptions.countP (·.2.ticket? == some t) := by
  obtain ⟨p, hp, hticket⟩ := h
  exact List.countP_pos_iff.mpr ⟨p, hp, beq_iff_eq.mpr hticket⟩

theorem Sound.registered_of_carried (h : Sound s) (hcarried : s.Carried t) : s.Registered t := by
  refine h.registered_of_places (Nat.lt_of_lt_of_le hcarried.countP_pos ?_)
  rw [places]
  omega

/-- A waiter with a delivery is not in the table. -/
theorem Sound.not_mem_tickets (h : Sound s) (hcarried : s.Carried t) : t ∉ s.client.tickets := by
  intro hmem
  have hcount := List.count_pos_iff.mpr hmem
  have hdelivery := hcarried.countP_pos
  have hplaces := h.once t
  rw [places, ← Client.count_tickets] at hplaces
  omega

theorem tended_start (capacity : Nat) : Tended (start capacity) where
  ids := List.nodup_nil
  stays := nofun
  tended := nofun
  idle := nofun

/-- Waiters may go if their slots go with them. -/
theorem Tended.drop (h : Tended s) (hdrops : s.client.Drops c') :
    Tended { s with client := c' } where
  ids := h.ids.sublist (hdrops.waiters.map _)
  stays := fun {t _} hr hopen hleft ↦ by
    rcases hdrops.slot t with ⟨hslot, -⟩ | ⟨hslot, -⟩
    · exact h.stays hr hopen (hslot ▸ hleft)
    · exact h.stays hr hopen (Slot.drop_eq_left_iff.mp (hslot ▸ hleft))
  tended := fun {t _} hr hopen hempty ↦ by
    rcases hdrops.slot t with ⟨hslot, hkept⟩ | ⟨hslot, -⟩
    · exact (h.tended hr hopen (hslot ▸ hempty)).imp_left hkept
    · exact absurd (hslot ▸ hempty) (Slot.drop_ne_empty _)
  idle := fun {t _} hr hopen hmem ↦ by
    rcases hdrops.slot t with ⟨hslot, -⟩ | ⟨-, hgone⟩
    · exact hslot.trans (h.idle hr hopen (hdrops.tickets.subset hmem))
    · exact absurd hmem hgone

/-- With the same waiters it is enough that the calls that are open were so before, with the slots
they have. -/
theorem Tended.of_opened {s' : Traffic} (h : Tended s)
    (hwaiters : s'.client.waiters = s.client.waiters) (hreceptions : s'.receptions = s.receptions)
    (hopened : ∀ {t : Nat} {r' : Request}, s'.calls[t]? = some r' → r'.phase.isOpen →
      s'.client.slot t = s.client.slot t ∧ ∃ r : Request, s.calls[t]? = some r ∧ r.phase.isOpen) :
    Tended s' := by
  have htickets : s'.client.tickets = s.client.tickets := by
    rw [Client.tickets, hwaiters, Client.tickets]
  exact
    { ids := hwaiters ▸ h.ids
      stays := fun hr hopen ↦ by
        obtain ⟨hslot, _, hr, hopen⟩ := hopened hr hopen
        exact hslot ▸ h.stays hr hopen
      tended := fun {t _} hr hopen hempty ↦ by
        obtain ⟨hslot, _, hr, hopen⟩ := hopened hr hopen
        rw [htickets, Carried, hreceptions]
        exact h.tended hr hopen (hslot ▸ hempty)
      idle := fun hr hopen hmem ↦ by
        obtain ⟨hslot, _, hr, hopen⟩ := hopened hr hopen
        exact hslot.trans (h.idle hr hopen (htickets ▸ hmem)) }

theorem Tended.call (h : Tended s) (topic : String) (request : Envelope) (timeout : Millis) :
    Tended (s.perform (.call topic request timeout)) := by
  refine h.of_opened rfl rfl fun hr hopen ↦ ⟨rfl, ?_⟩
  rcases getElem?_concat_cases hr with hr | ⟨-, rfl⟩
  · exact ⟨_, hr, hopen⟩
  · cases hopen

/-- A call gets on without a change of its waiter or its slot. -/
theorem Tended.setPhase (h : Tended s) {phase : Phase} (ht : s.calls[t]? = some r)
    (hphase : phase.isOpen → r.phase.isOpen) :
    Tended { s with calls := s.calls.set t { r with phase } } := by
  refine h.of_opened rfl rfl fun hr hopen ↦ ⟨rfl, ?_⟩
  rcases getElem?_set_cases hr with ⟨rfl, rfl⟩ | ⟨-, hr⟩
  · exact ⟨r, ht, hphase hopen⟩
  · exact ⟨_, hr, hopen⟩

/-- A call puts its waiter into a table that has none for its id, with an empty slot. -/
theorem Tended.enter (h : Tended s) {phase : Phase} {id : String}
    (hid : id ∉ s.client.waiters.map Prod.fst)
    (hwaiters : c'.waiters = (id, t) :: s.client.waiters)
    (hslots : c'.slots = (s.client.setSlot t .empty).slots) :
    Tended { s with client := c', calls := s.calls.set t { r with phase } } := by
  have hslot : ∀ u, c'.slot u = if u = t then .empty else s.client.slot u := fun u ↦ by
    rw [← s.client.slot_setSlot t .empty u, Client.slot, Client.slot, hslots]
  have htickets : c'.tickets = t :: s.client.tickets := by
    rw [Client.tickets, hwaiters]
    rfl
  -- nothing has changed for the other calls
  exact
    { ids := by
        rw [hwaiters]
        exact List.nodup_cons.mpr ⟨hid, h.ids⟩
      stays := fun {u _} hr hopen hleft ↦ by
        rw [hslot] at hleft
        rcases getElem?_set_cases hr with ⟨rfl, -⟩ | ⟨hne, hr⟩
        · rw [if_pos rfl] at hleft
          cases hleft
        · rw [if_neg (Ne.symm hne)] at hleft
          exact h.stays hr hopen hleft
      tended := fun {u _} hr hopen hempty ↦ by
        rw [htickets]
        rcases getElem?_set_cases hr with ⟨rfl, -⟩ | ⟨hne, hr⟩
        · exact .inl (.head _)
        · rw [hslot, if_neg (Ne.symm hne)] at hempty
          exact (h.tended hr hopen hempty).imp_left (.tail _)
      idle := fun {u _} hr hopen hmem ↦ by
        rw [hslot]
        rcases getElem?_set_cases hr with ⟨rfl, -⟩ | ⟨hne, hr⟩
        · exact if_pos rfl
        · rw [htickets] at hmem
          rw [if_neg (Ne.symm hne)]
          exact h.idle hr hopen ((List.mem_cons.mp hmem).resolve_left (Ne.symm hne)) }

/-- A call ends and leaves its slot. -/
theorem Tended.leave (h : Tended s) {result : Except BridgeError Envelope}
    (hwaiters : c'.waiters = s.client.waiters)
    (hslots : c'.slots = (s.client.setSlot t .left).slots) :
    Tended { s with
      client := c'
      calls := s.calls.set t { r with phase := .ended result } } := by
  refine h.of_opened hwaiters rfl fun {u _} hr hopen ↦ ?_
  rcases getElem?_set_cases hr with ⟨rfl, rfl⟩ | ⟨hne, hr⟩
  · cases hopen
  · have hslot : c'.slot u = (s.client.setSlot t .left).slot u := by
      rw [Client.slot, hslots, Client.slot]
    refine ⟨hslot.trans ?_, _, hr, hopen⟩
    rw [Client.slot_setSlot, if_neg (Ne.symm hne)]

theorem Tended.advance (h : Tended s) (hsound : Sound s) (t : Nat) (now : Millis) :
    Tended (s.advance t now) := by
  rw [Traffic.advance]
  split
  · exact h
  · rename_i r ht
    have hunregister := Client.drops_unregister (hsound.distinct h) r.envelope.requestId
    obtain rfl : r.ticket = t := hsound.tickets ht
    obtain ⟨phase, hr, hstep⟩ := s.client.advances r now
    simp only [hr]
    generalize (s.client.advance r now).1 = c' at hstep ⊢
    cases hstep with
    | registers => exact (h.drop hunregister).enter (s.client.ids_unregister _) rfl rfl
    | aside waiters slots isOpen =>
        exact (h.setPhase ht isOpen).drop (Client.drops_of_eq waiters slots)
    | @ends c₁ _ _ earlier waiters slots =>
        have hearlier : Tended { s with client := c₁ } := by
          rcases earlier with rfl | rfl
          · exact h
          · exact h.drop hunregister
        exact hearlier.leave waiters slots

theorem Tended.receive (h : Tended s) (e : Envelope) : Tended (s.perform (.receive e)) :=
  { ids := h.ids
    stays := h.stays
    tended := fun hr hopen hempty ↦ (h.tended hr hopen hempty).imp_right
      fun ⟨p, hp, hticket⟩ ↦ ⟨p, List.mem_append_left _ hp, hticket⟩
    idle := h.idle }

theorem Carried.set (h : s.Carried t) (hn : s.receptions[n]? = some (e, d))
    (hkept : d.ticket? = some t → d'.ticket? = some t) (client : Client)
    (handed : List (Nat × Nat)) :
    ({ s with client, receptions := s.receptions.set n (e, d'), handed } : Traffic).Carried t := by
  obtain ⟨p, hp, hticket⟩ := h
  obtain ⟨m, hm⟩ := List.getElem?_of_mem hp
  by_cases hmn : n = m
  · subst hmn
    obtain rfl : p = (e, d) := Option.some.inj (hm.symm.trans hn)
    exact ⟨_, List.mem_set (List.getElem?_eq_some_iff.mp hn).1 _, hkept hticket⟩
  · exact ⟨p, List.mem_of_getElem? ((List.getElem?_set_ne hmn).trans hm), hticket⟩

/-- A delivery takes a waiter out of the table. -/
theorem Tended.take (h : Tended s) (hn : s.receptions[n]? = some (e, d))
    (hd : d.ticket? = none) (hwaiter : s.client.waiter? e.requestId = some t) :
    Tended { s with
      client := s.client.withoutWaiter e.requestId
      receptions := s.receptions.set n (e, .taken e t) } := by
  have hmem := (s.client.waiters_withoutWaiter hwaiter).1
  have hsublist := (s.client.fades_withoutWaiter e.requestId).waiters
  exact
    { ids := h.ids.sublist (hsublist.map _)
      stays := h.stays
      tended := fun {u _} hr hopen hempty ↦ by
        rcases h.tended hr hopen hempty with htable | hcarried
        · obtain ⟨⟨id, _⟩, hid, rfl⟩ := List.mem_map.mp htable
          by_cases hheld : id = e.requestId
          · have heq := List.inj_on_of_nodup_map h.ids hid hmem hheld
            cases heq
            exact .inr ⟨_, List.mem_set (List.getElem?_eq_some_iff.mp hn).1 _, rfl⟩
          · exact .inl (List.mem_map.mpr
              ⟨_, List.mem_filter.mpr ⟨hid, bne_iff_ne.mpr hheld⟩, rfl⟩)
        · exact .inr (hcarried.set hn (fun ht ↦ by rw [hd] at ht; cases ht) _ _)
      idle := fun hr hopen htable ↦ h.idle hr hopen ((hsublist.map _).subset htable) }

/-- A delivery fills the slot of the call whose waiter it has. -/
theorem Tended.hand (h : Tended s) (hsound : Sound s) (hn : s.receptions[n]? = some (e, d))
    (hd : d.ticket? = some t) (handed : List (Nat × Nat)) :
    Tended { s with
      client := s.client.setSlot t (.filled e)
      receptions := s.receptions.set n (e, .done)
      handed } := by
  have hcarried : s.Carried t := ⟨_, List.mem_of_getElem? hn, hd⟩
  exact
    { ids := h.ids
      stays := fun {u _} hr hopen hleft ↦ by
        rw [Client.slot_setSlot] at hleft
        split at hleft
        · cases hleft
        · exact h.stays hr hopen hleft
      tended := fun {u _} hr hopen hempty ↦ by
        rw [Client.slot_setSlot] at hempty
        split at hempty
        · cases hempty
        · rename_i hu
          refine (h.tended hr hopen hempty).imp_right fun hcarried ↦ hcarried.set hn ?_ _ _
          rw [hd]
          rintro ⟨⟩
          exact absurd rfl hu
      idle := fun {u _} hr hopen htable ↦ by
        have hu : u ≠ t := by
          rintro rfl
          exact hsound.not_mem_tickets hcarried htable
        exact (s.client.slot_setSlot t _ u).trans ((if_neg hu).trans (h.idle hr hopen htable)) }

theorem Tended.deliver (h : Tended s) (hsound : Sound s) (n : Nat) : Tended (s.deliver n) := by
  rw [Traffic.deliver]
  split
  · exact h
  · rename_i e d hn
    have hstep := s.client.delivers d
    generalize hd : s.client.deliver d = step at hstep
    obtain ⟨c', d', events⟩ := step
    dsimp only at hstep ⊢
    cases hstep with
    | aside waiters slots handing _ kept =>
        have hdrop := h.drop (Client.drops_of_eq waiters slots)
        have hslot : ∀ u, c'.slot u = s.client.slot u := fun u ↦ by
          rw [Client.slot, slots, Client.slot]
        exact
          { ids := hdrop.ids
            stays := hdrop.stays
            tended := fun hr hopen hempty ↦ (hdrop.tended hr hopen hempty).imp_right
              fun hcarried ↦ Carried.set (s := s) hcarried hn
                (fun ht ↦ kept _ ht (hslot _ ▸ hempty)) _ _
            idle := hdrop.idle }
    | takes waiter =>
        obtain rfl := hsound.delivered hn rfl
        have htake := h.take hn rfl waiter
        simpa only [Client.handing, Option.toList_none, List.map_nil, List.append_nil] using htake
    | hands handing =>
        obtain rfl := hsound.delivered hn rfl
        exact h.hand hsound hn rfl _

theorem Tended.perform (h : Tended s) (hsound : Sound s) (a : Action) : Tended (s.perform a) := by
  have hdistinct := hsound.distinct h
  cases a with
  | call topic request timeout => exact h.call topic request timeout
  | advance t now => exact h.advance hsound t now
  | receive e => exact h.receive e
  | deliver n => exact h.deliver hsound n
  | endGraces now => exact h.drop (Client.drops_endGraces hdistinct now)
  | discard id => exact h.drop (Client.drops_unregister hdistinct id)
  | forget => exact h.drop (Client.drops_of_eq rfl rfl)
  | cancel => exact h.drop (Client.drops_cancel _)
  | bus transport responseTopics => exact h.drop (Client.drops_of_eq rfl rfl)

theorem Tended.run (h : Tended s) (hsound : Sound s) (actions : List Action) :
    Tended (s.run actions) := by
  induction actions generalizing s with
  | nil => exact h
  | cons a actions ih => exact ih (h.perform hsound a) (hsound.perform a)

/-! ## Calls that have registered -/

theorem advance_eq (ht : s.calls[t]? = some r) (now : Millis) :
    s.advance t now = { s with
      client := (s.client.advance r now).1
      calls := s.calls.set t (s.client.advance r now).2.1 } := by
  rw [Traffic.advance, ht]

theorem advance_calls (ht : s.calls[t]? = some r) (now : Millis) :
    (s.advance t now).calls[t]? = some (s.client.advance r now).2.1 ∧
      (s.advance t now).client = (s.client.advance r now).1 := by
  rw [advance_eq ht]
  exact ⟨List.getElem?_set_self (List.getElem?_eq_some_iff.mp ht).1, rfl⟩

/-- A call only gets further. -/
theorem rank_perform (hr : s.calls[t]? = some r) (a : Action) :
    ∃ r' : Request, (s.perform a).calls[t]? = some r' ∧ r.phase.rank ≤ r'.phase.rank := by
  cases a with
  | call topic request timeout => exact ⟨r, getElem?_concat _ hr, Nat.le_refl _⟩
  | advance u now =>
      by_cases hu : u = t
      · subst hu
        exact ⟨_, (advance_calls hr now).1, s.client.rank_advance r now⟩
      · rw [Traffic.perform, Traffic.advance]
        split
        · exact ⟨r, hr, Nat.le_refl _⟩
        · exact ⟨r, (List.getElem?_set_ne hu).trans hr, Nat.le_refl _⟩
  | deliver n =>
      rw [Traffic.perform, Traffic.deliver]
      split
      · exact ⟨r, hr, Nat.le_refl _⟩
      · exact ⟨r, hr, Nat.le_refl _⟩
  | receive _ | endGraces _ | discard _ | forget | cancel | bus _ _ => exact ⟨r, hr, Nat.le_refl _⟩

theorem Registered.perform (h : s.Registered t) (a : Action) : (s.perform a).Registered t := by
  obtain ⟨r, hr, hphase⟩ := h
  obtain ⟨r', hr', hle⟩ := rank_perform hr a
  exact ⟨r', hr',
    Phase.hasRegistered_iff.mpr (Nat.le_trans (Phase.hasRegistered_iff.mp hphase) hle)⟩

/-- The only waiters that come into the table are those of calls that register. -/
theorem Sound.tickets_perform (h : Sound s) (ht : s.Registered t) (a : Action)
    (hmem : t ∈ (s.perform a).client.tickets) : t ∈ s.client.tickets := by
  have hfades : ∀ {c'}, Client.Fades s.client c' → t ∈ c'.tickets → t ∈ s.client.tickets :=
    fun hfades hmem ↦ (hfades.waiters.map _).subset hmem
  cases a with
  | call _ _ _ | receive _ | forget | bus _ _ => exact hmem
  | advance u now =>
      rw [Traffic.perform, Traffic.advance] at hmem
      split at hmem
      · exact hmem
      · rename_i r hu
        change t ∈ (s.client.advance r now).1.tickets at hmem
        obtain ⟨hphase, hclient, -⟩ | ⟨phase, -, hages⟩ := s.client.advance_cases r now
        · obtain ⟨earlier, hwaiters, hearlier, -⟩ :=
            s.client.waiters_register r.envelope.requestId r.ticket
          rw [hclient, Client.tickets, hwaiters, List.map_cons, h.tickets hu] at hmem
          refine (hearlier.map _).subset ((List.mem_cons.mp hmem).resolve_left ?_)
          -- a call that is about to register has not done so
          rintro rfl
          obtain ⟨r', hr', hregistered⟩ := ht
          obtain rfl : r = r' := Option.some.inj (hu.symm.trans hr')
          rw [hphase] at hregistered
          cases hregistered
        · exact hfades hages.fades hmem
  | deliver n =>
      rw [Traffic.perform, Traffic.deliver] at hmem
      split at hmem
      · exact hmem
      · rename_i e d hn
        have hstep := s.client.delivers d
        generalize hd : s.client.deliver d = step at hstep hmem
        obtain ⟨c', d', events⟩ := step
        cases hstep with
        | aside waiters slots => exact hfades (Client.fades_of_eq waiters slots) hmem
        | takes => exact hfades (Client.fades_withoutWaiter _ _) hmem
        | hands => exact hmem
  | endGraces now => exact hfades (Client.fades_endGraces _ now) hmem
  | discard id => exact hfades (Client.fades_unregister _ id) hmem
  | cancel => exact hfades (Client.fades_cancel _) hmem

/-- A call that has registered and has no waiter in the table gets none. -/
theorem Sound.tickets_run (h : Sound s) (ht : s.Registered t) (hgone : t ∉ s.client.tickets)
    (actions : List Action) : t ∉ (s.run actions).client.tickets := by
  induction actions generalizing s with
  | nil => exact hgone
  | cons a actions ih =>
      exact ih (h.perform a) (ht.perform a) (mt (h.tickets_perform ht a) hgone)

/-! ## Disconnections -/

/-- What a call that is released ends with. -/
inductive Release (s : Traffic) (t : Nat) (r : Request) : Except BridgeError Envelope → Prop
  | answered {e : Envelope} (given : s.Given t e) : Release s t r (.ok e)
  | closed : Release s t r (.error (Client.closedError r.envelope.requestId))
  | refused : Release s t r (.error .notConnected)

/-- What a disconnection that has returned makes sure of, if `cleared` is what it left when it had
thrown the waiters away. -/
structure Disconnected (cleared returned : Traffic) : Prop where
  /-- Only calls that have registered since then have waiters. -/
  late : ∀ {t}, t ∈ returned.client.tickets → returned.Registered t ∧ ¬ cleared.Registered t
  /-- A call without a waiter is about to end, or a delivery brings its response. -/
  released : ∀ {t : Nat} {r : Request}, returned.calls[t]? = some r → r.phase.isOpen →
    t ∉ returned.client.tickets →
      (∃ result, returned.Release t r result ∧ ∀ now,
        (returned.advance t now).calls[t]? = some { r with phase := .ended result }) ∨
      (returned.Carried t ∧ returned.client.slot t = .empty)
  /-- A call that has not published is about to end, whether it has a waiter or not. -/
  refused : ∀ {t : Nat} {r : Request}, returned.calls[t]? = some r → r.phase = .registered → ∀ now,
    (returned.advance t now).calls[t]? = some { r with phase := .ended (.error .notConnected) } ∧
      t ∉ (returned.advance t now).client.tickets
  /-- A call that has published and has a waiter waits until its time is up. -/
  stranded : ∀ {t : Nat} {r : Request} {due now : Millis}, returned.calls[t]? = some r →
    r.phase = .waiting due → t ∈ returned.client.tickets → now < due →
      returned.advance t now = returned

theorem Sound.released_or_carried (h : Sound s) (htended : Tended s)
    (hdown : s.client.isConnected = false) (hr : s.calls[t]? = some r) (hopen : r.phase.isOpen)
    (hgone : t ∉ s.client.tickets) :
    (∃ result, s.Release t r result ∧ ∀ now,
      (s.advance t now).calls[t]? = some { r with phase := .ended result }) ∨
    (s.Carried t ∧ s.client.slot t = .empty) := by
  have hticket : r.ticket = t := h.tickets hr
  cases hphase : r.phase with
  | fresh | checked | ended _ =>
      rw [hphase] at hopen
      cases hopen
  | registered =>
      refine .inl ⟨_, .refused, fun now ↦ ?_⟩
      rw [(advance_calls hr now).1, Client.advance_refused hphase hdown]
  | waiting due =>
      cases hslot : s.client.slot t with
      | empty =>
          exact .inr ⟨(htended.tended hr hopen hslot).resolve_left hgone, rfl⟩
      | filled e =>
          refine .inl ⟨_, .answered (h.filled hslot), fun now ↦ ?_⟩
          rw [(advance_calls hr now).1, Client.advance_filled hphase (hticket ▸ hslot)]
      | dropped =>
          refine .inl ⟨_, .closed, fun now ↦ ?_⟩
          rw [(advance_calls hr now).1, Client.advance_dropped hphase (hticket ▸ hslot)]
      | left => exact absurd hslot (htended.stays hr hopen)

theorem Sound.refused (h : Sound s) (hdown : s.client.isConnected = false)
    (hr : s.calls[t]? = some r) (hphase : r.phase = .registered) (now : Millis) :
    (s.advance t now).calls[t]? = some { r with phase := .ended (.error .notConnected) } ∧
      t ∉ (s.advance t now).client.tickets := by
  rw [(advance_calls hr now).1, (advance_calls hr now).2, Client.advance_refused hphase hdown]
  refine ⟨rfl, fun hmem ↦ ?_⟩
  obtain ⟨⟨id, _⟩, hid, rfl⟩ := List.mem_map.mp hmem
  -- a waiter is in the table under the id of its request, and that has just been taken out
  have hown := h.waiting ((Client.fades_unregister _ _).waiters.subset hid)
  rw [idOf, hr] at hown
  cases hown
  exact s.client.ids_unregister _ (List.mem_map.mpr ⟨_, hid, rfl⟩)

theorem Sound.stranded (h : Sound s) (htended : Tended s) {due now : Millis}
    (hr : s.calls[t]? = some r) (hphase : r.phase = .waiting due) (hmem : t ∈ s.client.tickets)
    (hnow : now < due) : s.advance t now = s := by
  have hopen : r.phase.isOpen := by
    rw [hphase]
    rfl
  have hslot := htended.idle hr hopen hmem
  rw [← h.tickets hr] at hslot
  rw [Traffic.advance, hr]
  simp only [Client.advance_empty hphase hslot hnow]
  obtain ⟨ht, rfl⟩ := List.getElem?_eq_some_iff.mp hr
  rw [List.set_getElem_self]

/-- Whatever goes on before a disconnection and between its two steps, it leaves nobody waiting but
calls that register in between. -/
theorem disconnected_of_leave (capacity : Nat) (before between : List Action) {cancelled : Nat}
    {events : List Event} {cleared : Traffic}
    (hcleared : ((start capacity).run before).perform .cancel = cleared)
    (hleave : (cleared.run between).client.leave cancelled = .ok (c', events)) :
    Disconnected cleared { cleared.run between with client := c' } := by
  obtain ⟨transport, hdown, rfl⟩ := Client.exists_of_leave hleave
  have hbefore : Sound ((start capacity).run before) := (sound_start capacity).run before
  have hsound : Sound cleared := hcleared ▸ hbefore.perform .cancel
  have htended : Tended cleared :=
    hcleared ▸ ((tended_start capacity).run (sound_start capacity) before).perform hbefore .cancel
  have hempty : cleared.client.tickets = [] := hcleared ▸ rfl
  have hreturned : Sound { cleared.run between with client.transport := transport } :=
    (hsound.run between).perform (.bus transport _)
  have htendedReturned : Tended { cleared.run between with client.transport := transport } :=
    (htended.run hsound between).perform (hsound.run between) (.bus transport _)
  refine ⟨fun {t} hmem ↦ ⟨?_, fun hregistered ↦ ?_⟩, fun hr hopen hgone ↦ ?_, fun hr hphase ↦ ?_,
    fun hr hphase hmem ↦ ?_⟩
  · exact hreturned.registered_of_mem hmem
  · exact hsound.tickets_run hregistered (hempty ▸ List.not_mem_nil) between hmem
  · exact hreturned.released_or_carried htendedReturned hdown hr hopen hgone
  · exact hreturned.refused hdown hr hphase
  · exact hreturned.stranded htendedReturned hr hphase hmem

/-- A disconnection amid which nobody registers leaves no waiter. -/
theorem Disconnected.pending_eq_zero {cleared returned : Traffic}
    (h : Disconnected cleared returned)
    (hnone : ∀ t, returned.Registered t → cleared.Registered t) : returned.client.pending = 0 := by
  refine List.length_eq_zero_iff.mpr (List.eq_nil_iff_forall_not_mem.mpr fun w hw ↦ ?_)
  obtain ⟨hreturned, hcleared⟩ := h.late (List.mem_map_of_mem hw)
  exact hcleared (hnone _ hreturned)

/-- A call finds the bus connected. -/
def checking : List Action :=
  [.bus { broker := { connected := true } } [], .call "q" (.new "a" "" .null) 300, .advance 0 0]

/-- The call registers and publishes. -/
def overtaking : List Action := [.advance 0 0, .advance 0 0]

/-- What a call leaves that overtakes the second step of a disconnection: its waiter is in the
table, and the call waits until its time is up. -/
theorem waiting_overtaking :
    ∃ (c : Client) (events : List Event) (overtaken : Traffic),
      ((((start 1).run checking).perform .cancel).run overtaking).client.leave 0 =
        .ok (c, events) ∧
      overtaken = { (((start 1).run checking).perform .cancel).run overtaking with client := c } ∧
      overtaken.client.pending = 1 ∧ ∀ now < 300, overtaken.advance 0 now = overtaken := by
  refine ⟨_, _, _, rfl, rfl, rfl, fun now hnow ↦ ?_⟩
  have hdisconnected := disconnected_of_leave 1 checking overtaking rfl
    (show Client.leave _ 0 = _ from rfl)
  exact hdisconnected.stranded rfl rfl (by decide) hnow

end Traffic

end BleBridge.Bus
