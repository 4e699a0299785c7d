import BleBridge.Proofs.Bus.Pending
import Mathlib.Data.List.Forall2

/-!
# Calls that are turned away

A call that finds no connection, or whose request cannot be published, leaves the
table of waiters as if it had never been made.  To say so, a run is compared with
the run that lacks the steps of the call: before its first step a call does nothing.

Between the two runs the waiter and the slot of the call differ while it is under
way (`Client.Without`), and so do the answered ids: a response may take the waiter
of the call before that is taken back.  An id that is answered in one of the runs
only makes a response go one step further in the other, where it finds no waiter
(`Traffic.Alike`).
-/

namespace BleBridge.Bus

namespace Client

variable {c c' : Client} {id : String} {t u : Nat} {r : Request} {e : Envelope} {d : Delivery}

/-! ## Waiters by id -/

theorem waiter?_eq_some_iff (hids : (c.waiters.map Prod.fst).Nodup) :
    c.waiter? id = some u ↔ (id, u) ∈ c.waiters := by
  constructor
  · exact fun h ↦ (c.waiters_withoutWaiter h).1
  · intro hmem
    obtain ⟨w, hw⟩ : ∃ w, c.waiters.find? (·.1 == id) = some w :=
      Option.isSome_iff_exists.mp (List.find?_isSome.mpr ⟨_, hmem, BEq.rfl⟩)
    obtain ⟨id', v⟩ := w
    obtain rfl : id' = id := by simpa using List.find?_some hw
    have heq := List.inj_on_of_nodup_map hids (List.mem_of_find?_eq_some hw) hmem rfl
    rw [waiter?, hw, heq]
    rfl

theorem waiter?_eq_none_iff (hids : (c.waiters.map Prod.fst).Nodup) :
    c.waiter? id = none ↔ ∀ u, (id, u) ∉ c.waiters := by
  rw [Option.eq_none_iff_forall_ne_some]
  exact forall_congr' fun u ↦ not_congr (waiter?_eq_some_iff hids)

/-! ## A client without one of its requests -/

/-- What a client would be like without one of its requests: all is the same but its waiter and its
slot. Nothing is said about the answered ids. -/
structure Without (t : Nat) (c c' : Client) : Prop where
  transport : c'.transport = c.transport
  waiters : c'.waiters = c.waiters.filter (·.2 != t)
  slot : ∀ u ≠ t, c'.slot u = c.slot u
  graces : c'.graces = c.graces

theorem Without.mem_iff (h : Without t c c') :
    (id, u) ∈ c'.waiters ↔ (id, u) ∈ c.waiters ∧ u ≠ t := by
  rw [h.waiters, List.mem_filter, bne_iff_ne]

theorem Without.ids (h : Without t c c') (hids : (c.waiters.map Prod.fst).Nodup) :
    (c'.waiters.map Prod.fst).Nodup :=
  hids.sublist ((h.waiters ▸ List.filter_sublist).map _)

theorem Without.setSlot (h : Without t c c') (u : Nat) (s : Slot) :
    Without t (c.setSlot u s) (c'.setSlot u s) where
  transport := h.transport
  waiters := h.waiters
  slot := fun v hv ↦ by rw [slot_setSlot, slot_setSlot, h.slot v hv]
  graces := h.graces

/-- The slot of the request itself does not matter. -/
theorem Without.setSlot_own (h : Without t c c') (s : Slot) : Without t (c.setSlot t s) c' where
  transport := h.transport
  waiters := h.waiters
  slot := fun v hv ↦ by rw [slot_setSlot, if_neg hv, h.slot v hv]
  graces := h.graces

theorem Without.dropSlot (h : Without t c c') (hu : u ≠ t) :
    Without t (c.dropSlot u) (c'.dropSlot u) := by
  rw [Client.dropSlot, Client.dropSlot, h.slot u hu]
  split
  · exact h.setSlot u .dropped
  · exact h

theorem Without.dropSlot_own (h : Without t c c') : Without t (c.dropSlot t) c' := by
  rw [Client.dropSlot]
  split
  · exact h.setSlot_own .dropped
  · exact h

theorem Without.withoutWaiter (h : Without t c c') (id : String) :
    Without t (c.withoutWaiter id) (c'.withoutWaiter id) where
  transport := h.transport
  waiters := by
    rw [Client.withoutWaiter, Client.withoutWaiter, h.waiters]
    exact List.filter_comm _ _ _
  slot := h.slot
  graces := h.graces

/-- The waiter of the request itself does not matter. -/
theorem Without.withoutWaiter_own (h : Without t c c') (hown : ∀ u, (id, u) ∈ c.waiters → u = t) :
    Without t (c.withoutWaiter id) c' where
  transport := h.transport
  waiters := by
    rw [h.waiters, Client.withoutWaiter, List.filter_filter]
    refine List.filter_congr fun w hw ↦ ?_
    by_cases hid : w.1 = id
    · subst hid
      simp [hown w.2 hw]
    · simp [hid]
  slot := h.slot
  graces := h.graces

theorem Without.unregister_own (h : Without t c c') (hown : ∀ u, (id, u) ∈ c.waiters → u = t) :
    Without t (c.unregister id) c' := by
  rw [Client.unregister]
  split
  · rename_i u hwaiter
    obtain rfl := hown u (c.waiters_withoutWaiter hwaiter).1
    exact (h.withoutWaiter_own hown).dropSlot_own
  · exact h

theorem Without.waiter?_of_ne (h : Without t c c') (hids : (c.waiters.map Prod.fst).Nodup)
    (hne : c.waiter? id ≠ some t) : c'.waiter? id = c.waiter? id := by
  refine Option.ext fun u ↦ ?_
  rw [waiter?_eq_some_iff (h.ids hids), h.mem_iff, waiter?_eq_some_iff hids]
  refine and_iff_left_of_imp fun hmem hu ↦ hne ?_
  exact hu ▸ (waiter?_eq_some_iff hids).mpr hmem

theorem Without.waiter?_own (h : Without t c c') (hids : (c.waiters.map Prod.fst).Nodup)
    (hown : ∀ u, (id, u) ∈ c.waiters → u = t) : c'.waiter? id = none := by
  refine (waiter?_eq_none_iff (h.ids hids)).mpr fun u hu ↦ ?_
  obtain ⟨hmem, hne⟩ := h.mem_iff.mp hu
  exact hne (hown u hmem)

theorem Without.unregister (h : Without t c c') (hids : (c.waiters.map Prod.fst).Nodup)
    (id : String) : Without t (c.unregister id) (c'.unregister id) := by
  by_cases hwaiter : c.waiter? id = some t
  · have hmem := (waiter?_eq_some_iff hids).mp hwaiter
    have hown : ∀ u, (id, u) ∈ c.waiters → u = t := fun u hu ↦
      congrArg Prod.snd (List.inj_on_of_nodup_map hids hu hmem rfl)
    have hsame : c'.unregister id = c' := by rw [Client.unregister, h.waiter?_own hids hown]
    rw [hsame]
    exact h.unregister_own hown
  · rw [Client.unregister, Client.unregister, h.waiter?_of_ne hids hwaiter]
    split
    · rename_i u hu
      exact (h.withoutWaiter id).dropSlot fun hut ↦ hwaiter (hut ▸ hu)
    · exact h

/-- Another request puts its waiter into the table. -/
theorem Without.enter (h : Without t c c') (hu : u ≠ t) (id : String) :
    Without t { c with waiters := (id, u) :: c.waiters }
      { c' with waiters := (id, u) :: c'.waiters } where
  transport := h.transport
  waiters := by
    dsimp only
    rw [List.filter_cons, if_pos (bne_iff_ne.mpr hu), h.waiters]
  slot := h.slot
  graces := h.graces

/-- The request itself puts its waiter into the table. -/
theorem Without.enter_own (h : Without t c c') (id : String) :
    Without t { c with waiters := (id, t) :: c.waiters } c' where
  transport := h.transport
  waiters := by
    dsimp only
    rw [List.filter_cons_of_neg (by simp), h.waiters]
  slot := h.slot
  graces := h.graces

theorem Without.foldl_unregister (h : Without t c c') (hids : (c.waiters.map Prod.fst).Nodup)
    (gs : List (String × Millis)) :
    Without t (gs.foldl (fun c g ↦ c.unregister g.1) c)
      (gs.foldl (fun c g ↦ c.unregister g.1) c') := by
  induction gs generalizing c c' with
  | nil => exact h
  | cons g gs ih =>
      exact ih (h.unregister hids g.1) (hids.sublist ((fades_unregister c g.1).waiters.map _))

theorem Without.endGraces (h : Without t c c') (hids : (c.waiters.map Prod.fst).Nodup)
    (now : Millis) : Without t (c.endGraces now) (c'.endGraces now) := by
  have hended : Without t { c with graces := c.graces.filter (now < ·.2) }
      { c' with graces := c.graces.filter (now < ·.2) } :=
    ⟨h.transport, h.waiters, h.slot, rfl⟩
  rw [Client.endGraces, Client.endGraces, h.graces]
  exact hended.foldl_unregister hids _

theorem exists_of_cancel (c : Client) : ∃ slots answered responseTopics round,
    c.cancel = { c with waiters := [], slots, answered, responseTopics, round } := by
  have hdropped : ∀ (ws : List (String × Nat)) (c : Client),
      ∃ slots, ws.foldl (fun c w ↦ c.dropSlot w.2) c = { c with slots } := by
    intro ws
    induction ws with
    | nil => exact fun c ↦ ⟨_, rfl⟩
    | cons w ws ih =>
        intro c
        obtain ⟨_, hfirst⟩ := exists_of_dropSlot c w.2
        obtain ⟨_, hlater⟩ := ih (c.dropSlot w.2)
        exact ⟨_, hlater.trans (by rw [hfirst])⟩
  obtain ⟨_, h⟩ := hdropped c.waiters c
  rw [cancel, h]
  exact ⟨_, _, _, _, rfl⟩

theorem Without.cancel (h : Without t c c') : Without t c.cancel c'.cancel := by
  have hslot : ∀ (c : Client) (u : Nat),
      c.cancel.slot u = if u ∈ c.tickets then (c.slot u).drop else c.slot u :=
    fun c ↦ slot_foldl_dropSlot c.waiters c
  have htickets : ∀ u ≠ t, (u ∈ c'.tickets ↔ u ∈ c.tickets) := by
    intro u hu
    simp only [tickets, List.mem_map, Prod.exists, exists_eq_right, h.mem_iff, and_iff_left hu]
  obtain ⟨_, _, _, _, hc⟩ := exists_of_cancel c
  obtain ⟨_, _, _, _, hc'⟩ := exists_of_cancel c'
  refine ⟨?_, rfl, fun u hu ↦ ?_, ?_⟩
  · rw [hc, hc', h.transport]
  · rw [hslot, hslot, h.slot u hu]
    exact if_congr (htickets u hu) rfl rfl
  · rw [hc, hc', h.graces]

/-! ## Steps of requests -/

theorem Without.ensureConnected (h : Without t c c') : c'.ensureConnected = c.ensureConnected := by
  rw [Client.ensureConnected, Client.ensureConnected, isConnected, isConnected, h.transport]

theorem Without.publish (h : Without t c c') (topic : String) (e : Envelope) :
    c'.publish topic e = (c.publish topic e).map fun p ↦
      ({ c' with transport := p.1.transport }, p.2) := by
  rw [Client.publish, Client.publish, h.ensureConnected, h.transport]
  cases c.ensureConnected with
  | error fault => rfl
  | ok _ =>
      cases hpublish : c.transport.publish ⟨topic, e.toBytes⟩ with
      | error fault => rfl
      | ok published => rfl

/-- Another request gets on in the same way. -/
theorem Without.advance (h : Without t c c') (hids : (c.waiters.map Prod.fst).Nodup)
    (hr : r.ticket ≠ t) (now : Millis) :
    Without t (c.advance r now).1 (c'.advance r now).1 ∧
      (c'.advance r now).2 = (c.advance r now).2 := by
  rw [Client.advance, Client.advance]
  cases r.phase with
  | fresh =>
      dsimp only
      rw [h.ensureConnected]
      split
      · exact ⟨h, rfl⟩
      · exact ⟨h, rfl⟩
  | checked => exact ⟨((h.unregister hids _).setSlot _ _).enter hr _, rfl⟩
  | registered =>
      dsimp only
      rw [h.publish]
      cases hpublish : c.publish r.topic r.envelope with
      | error fault => exact ⟨(h.unregister hids _).setSlot _ _, rfl⟩
      | ok published =>
          obtain ⟨c₁, events⟩ := published
          obtain ⟨_, _, -, rfl⟩ := exists_of_publish hpublish
          exact ⟨⟨rfl, h.waiters, h.slot, h.graces⟩, rfl⟩
  | waiting due =>
      dsimp only
      rw [h.slot _ hr]
      have hleft := h.setSlot r.ticket .left
      have hexpired : Without t (c.expire r now).1 (c'.expire r now).1 :=
        ⟨hleft.transport, hleft.waiters, hleft.slot, congrArg (· ++ _) h.graces⟩
      cases c.slot r.ticket with
      | filled e => exact ⟨hleft, rfl⟩
      | dropped => exact ⟨hleft, rfl⟩
      | empty | left =>
          dsimp only
          split
          · exact ⟨hexpired, rfl⟩
          · exact ⟨h, rfl⟩
  | ended result => exact ⟨h, rfl⟩

/-- The request itself gets on, and neither waits before nor after. -/
theorem Without.advance_own (h : Without t c c') (hr : r.ticket = t)
    (hown : ∀ u, (r.envelope.requestId, u) ∈ c.waiters → u = t) {now : Millis}
    (hbefore : ∀ due, r.phase ≠ .waiting due)
    (hafter : ∀ due, (c.advance r now).2.1.phase ≠ .waiting due) :
    Without t (c.advance r now).1 c' := by
  subst hr
  rw [Client.advance] at hafter ⊢
  cases hphase : r.phase with
  | fresh =>
      dsimp only
      split
      · exact h
      · exact h
  | checked => exact ((h.unregister_own hown).setSlot_own _).enter_own _
  | registered =>
      rw [hphase] at hafter
      dsimp only at hafter ⊢
      cases hpublish : c.publish r.topic r.envelope with
      | error fault => exact (h.unregister_own hown).setSlot_own _
      | ok published =>
          rw [hpublish] at hafter
          exact absurd rfl (hafter _)
  | waiting due => exact absurd hphase (hbefore due)
  | ended result => exact h

/-! ## Steps of deliveries -/

/-- A delivery that finds no waiter and has none does nothing to the client. -/
theorem deliver_idle (hnone : ∀ e, d = .unanswered e → c.waiter? e.requestId = none)
    (hticket : d.ticket? = none) :
    (c.deliver d).1 = c ∧ (c.deliver d).2.1.ticket? = none := by
  cases d with
  | arrived e =>
      rw [deliver]
      split
      · exact ⟨rfl, rfl⟩
      · exact ⟨rfl, rfl⟩
  | unanswered e =>
      rw [deliver, hnone e rfl]
      exact ⟨rfl, rfl⟩
  | taken _ _ | noted _ _ => cases hticket
  | done => exact ⟨rfl, rfl⟩

/-- A delivery that can have the waiter of the request only makes no difference to the others. -/
theorem Without.deliver_own (h : Without t c c')
    (hown : ∀ e, d = .unanswered e → ∀ u, (e.requestId, u) ∈ c.waiters → u = t)
    (hticket : ∀ u, d.ticket? = some u → u = t) :
    Without t (c.deliver d).1 c' ∧ ∀ u, (c.deliver d).2.1.ticket? = some u → u = t := by
  cases d with
  | arrived e =>
      rw [deliver]
      split
      · exact ⟨h, by simp⟩
      · exact ⟨h, by simp⟩
  | unanswered e =>
      rw [deliver]
      split
      · rename_i u hwaiter
        refine ⟨h.withoutWaiter_own (hown e rfl), fun v hv ↦ ?_⟩
        cases hv
        exact hown e rfl _ (c.waiters_withoutWaiter hwaiter).1
      · exact ⟨h, by simp⟩
  | taken e u => exact ⟨⟨h.transport, h.waiters, h.slot, h.graces⟩, hticket⟩
  | noted e u =>
      obtain rfl := hticket u rfl
      rw [deliver]
      split
      · exact ⟨h.setSlot_own _, by simp⟩
      · exact ⟨h, by simp⟩
  | done => exact ⟨h, hticket⟩

end Client

/-- What a call would be if the call `t` had never been made. -/
def Request.without (t : Nat) (r : Request) : Request :=
  if r.ticket = t then { r with phase := .fresh } else r

theorem Request.without_of_fresh (t : Nat) {r : Request} (h : r.phase = .fresh) :
    r.without t = r := by
  rw [without]
  split
  · rw [← h]
  · rfl

theorem Request.without_of_ne {t : Nat} {r : Request} (h : r.ticket ≠ t) : r.without t = r :=
  if_neg h

@[simp] theorem Request.envelope_without (t : Nat) (r : Request) :
    (r.without t).envelope = r.envelope := by
  rw [without]
  split <;> rfl

/-- Whether an action is a step of a call. -/
def Action.moves (t : Nat) : Action → Bool
  | .advance u _ => u == t
  | _ => false

namespace Traffic

variable {s s' : Traffic} {t n : Nat} {r : Request} {id : String} {a : Action}
  {actions : List Action} {capacity : Nat} {e : Envelope} {d d' : Delivery}

/-! ## Responses that nobody else waits for -/

/-- A response with this id finds at most the waiter of the call `t`. -/
def Off (s : Traffic) (t : Nat) (id : String) : Prop := s.idOf t = some id ∨ s.Spent id

theorem Orderly.eq_of_off (h : Orderly s) (hapart : s.Apart) (hoff : s.Off t id) (u : Nat)
    (hmem : (id, u) ∈ s.client.waiters) : u = t := by
  have hu := h.sound.waiting hmem
  rcases hoff with ht | ⟨v, hv, -, hgone⟩
  · exact hapart hu ht
  · obtain rfl := hapart hu hv
    exact absurd (List.mem_map_of_mem hmem) hgone

/-- How far a delivery is, and how far it would be without the call `t`. -/
inductive Alike (s : Traffic) (t : Nat) : Envelope × Delivery → Envelope × Delivery → Prop
  | same {e : Envelope} {d : Delivery} (ticket : d.ticket? ≠ some t) : Alike s t (e, d) (e, d)
  /-- Nobody gets the response but the call `t`. -/
  | idle {e : Envelope} {d d' : Delivery} (off : s.Off t e.requestId)
      (ticket : ∀ u, d.ticket? = some u → u = t) (ticket' : d'.ticket? = none) :
      Alike s t (e, d) (e, d')

theorem Alike.of_none (h : d.ticket? = none) (e : Envelope) : s.Alike t (e, d) (e, d) :=
  .same fun ht ↦ Option.some_ne_none t (ht.symm.trans h)

theorem Sound.off_perform (h : Sound s) (hoff : s.Off t id) (a : Action) :
    (s.perform a).Off t id :=
  hoff.imp (idOf_perform · a) (h.spent_perform · a)

theorem Sound.alike_perform (h : Sound s) {p p' : Envelope × Delivery} (halike : s.Alike t p p')
    (a : Action) : (s.perform a).Alike t p p' := by
  cases halike with
  | same ticket => exact .same ticket
  | idle off ticket ticket' => exact .idle (h.off_perform off a) ticket ticket'

/-! ## A run without one of its calls -/

/-- What the traffic would be if the call `t` had never been made. -/
structure Unmade (t : Nat) (s s' : Traffic) : Prop where
  client : s.client.Without t s'.client
  calls : s'.calls = s.calls.map (Request.without t)
  receptions : List.Forall₂ (s.Alike t) s.receptions s'.receptions

section

variable {α β : Type} {R : α → β → Prop} {xs : List α} {ys : List β}

theorem exists_of_forall₂_getElem? (h : List.Forall₂ R xs ys) {i : Nat} {x : α}
    (hx : xs[i]? = some x) : ∃ y, ys[i]? = some y ∧ R x y := by
  induction h generalizing i with
  | nil => cases hx
  | cons hxy _ ih =>
      cases i with
      | zero =>
          cases hx
          exact ⟨_, rfl, hxy⟩
      | succ i => exact ih hx

theorem forall₂_set (h : List.Forall₂ R xs ys) {x : α} {y : β} (hxy : R x y) (i : Nat) :
    List.Forall₂ R (xs.set i x) (ys.set i y) := by
  induction h generalizing i with
  | nil => exact .nil
  | cons hhead htail ih =>
      cases i with
      | zero => exact .cons hxy htail
      | succ i => exact .cons hhead (ih i)

end

theorem unmade_start (t : Nat) (capacity : Nat) : Unmade t (start capacity) (start capacity) where
  client := ⟨rfl, rfl, fun _ _ ↦ rfl, rfl⟩
  calls := rfl
  receptions := .nil

theorem Unmade.idOf (h : Unmade t s s') (u : Nat) : s'.idOf u = s.idOf u := by
  rw [Traffic.idOf, Traffic.idOf, h.calls, List.getElem?_map, Option.map_map]
  exact congrArg (Option.map · _) (funext fun r ↦ by simp)

/-- An id that is spent in the run without the call is of no use to others in the run with it. -/
theorem Unmade.off_of_spent (h : Unmade t s s') (hspent : s'.Spent id) : s.Off t id := by
  obtain ⟨u, hid, ⟨r', hr', hregistered⟩, hgone⟩ := hspent
  rw [h.idOf] at hid
  by_cases hu : u = t
  · exact .inl (hu ▸ hid)
  · rw [h.calls, List.getElem?_map] at hr'
    obtain ⟨r, hr, rfl⟩ := Option.map_eq_some_iff.mp hr'
    refine .inr ⟨u, hid, ⟨r, hr, ?_⟩, fun hmem ↦ hgone ?_⟩
    · rw [Request.without] at hregistered
      split at hregistered
      · cases hregistered
      · exact hregistered
    · obtain ⟨⟨id', _⟩, hw, rfl⟩ := List.mem_map.mp hmem
      exact List.mem_map_of_mem (h.client.mem_iff.mpr ⟨hw, hu⟩)

/-- A delivery gets on that brings its response to nobody but the call. -/
theorem Unmade.deliver_off (h : Unmade t s s') (hs : Orderly s) (hs' : Orderly s')
    (hapart : s.Apart) (hn : s.receptions[n]? = some (e, d))
    (hn' : s'.receptions[n]? = some (e, d')) (hoff : s.Off t e.requestId)
    (hticket : ∀ u, d.ticket? = some u → u = t) (hticket' : d'.ticket? = none) :
    Client.Without t (s.client.deliver d).1 (s'.client.deliver d').1 ∧
      s.Alike t (e, (s.client.deliver d).2.1) (e, (s'.client.deliver d').2.1) := by
  have hown := hs.eq_of_off hapart hoff
  have hwaits : ∀ e', d = .unanswered e' → ∀ u, (e'.requestId, u) ∈ s.client.waiters → u = t := by
    rintro e' rfl
    obtain rfl := hs.sound.delivered hn rfl
    exact hown
  have hnone : ∀ e', d' = .unanswered e' → s'.client.waiter? e'.requestId = none := by
    rintro e' rfl
    obtain rfl := hs'.sound.delivered hn' rfl
    exact h.client.waiter?_own hs.tended.ids hown
  obtain ⟨hclient, hafter⟩ := h.client.deliver_own hwaits hticket
  obtain ⟨hsame, hafter'⟩ := Client.deliver_idle hnone hticket'
  rw [hsame]
  exact ⟨hclient, .idle hoff hafter hafter'⟩

/-- A delivery gets on that is as far without the call. -/
theorem Unmade.deliver_same (h : Unmade t s s') (hs : Orderly s) (hs' : Orderly s')
    (hapart : s.Apart) (hn : s.receptions[n]? = some (e, d))
    (hn' : s'.receptions[n]? = some (e, d)) (hticket : d.ticket? ≠ some t) :
    Client.Without t (s.client.deliver d).1 (s'.client.deliver d).1 ∧
      s.Alike t (e, (s.client.deliver d).2.1) (e, (s'.client.deliver d).2.1) := by
  by_cases hoff : d.ticket? = none ∧ s.Off t e.requestId
  · obtain ⟨hnone, hoff⟩ := hoff
    exact h.deliver_off hs hs' hapart hn hn' hoff (by simp [hnone]) hnone
  · cases d with
    | arrived e' =>
        obtain rfl := hs.sound.delivered hn rfl
        have hanswered : ¬ s.client.answered.contains e'.requestId :=
          fun hanswered ↦ hoff ⟨rfl, .inr (hs.spent hanswered)⟩
        have hanswered' : ¬ s'.client.answered.contains e'.requestId :=
          fun hanswered ↦ hoff ⟨rfl, h.off_of_spent (hs'.spent hanswered)⟩
        rw [Client.deliver, if_neg hanswered, Client.deliver, if_neg hanswered']
        exact ⟨h.client, .of_none rfl _⟩
    | unanswered e' =>
        obtain rfl := hs.sound.delivered hn rfl
        have hne : s.client.waiter? e'.requestId ≠ some t := fun hwaiter ↦
          hoff ⟨rfl, .inl (hs.sound.waiting (s.client.waiters_withoutWaiter hwaiter).1)⟩
        rw [Client.deliver, Client.deliver, h.client.waiter?_of_ne hs.tended.ids hne]
        split
        · rename_i u hwaiter
          exact ⟨h.client.withoutWaiter _, .same fun hu ↦ hne (hu ▸ hwaiter)⟩
        · exact ⟨h.client, .of_none rfl _⟩
    | taken e' u =>
        exact ⟨⟨h.client.transport, h.client.waiters, h.client.slot, h.client.graces⟩,
          .same hticket⟩
    | noted e' u =>
        have hu : u ≠ t := fun hu ↦ hticket (congrArg some hu)
        rw [Client.deliver, Client.deliver, h.client.slot u hu]
        split
        · exact ⟨h.client.setSlot _ _, .of_none rfl _⟩
        · exact ⟨h.client, .of_none rfl _⟩
    | done => exact ⟨h.client, .of_none rfl _⟩

theorem Unmade.deliver (h : Unmade t s s') (hs : Orderly s) (hs' : Orderly s') (hapart : s.Apart)
    (n : Nat) : Unmade t (s.deliver n) (s'.deliver n) := by
  have hreceptions := h.receptions.imp fun _ _ halike ↦ hs.sound.alike_perform halike (.deliver n)
  cases hn : s.receptions[n]? with
  | none =>
      have hn' : s'.receptions[n]? = none := by
        rw [List.getElem?_eq_none_iff] at hn ⊢
        exact h.receptions.length_eq ▸ hn
      rw [Traffic.deliver, hn, Traffic.deliver, hn']
      exact h
  | some p =>
      obtain ⟨p', hn', halike⟩ := exists_of_forall₂_getElem? h.receptions hn
      have hstep : ∀ {e : Envelope} {d d' : Delivery}, p = (e, d) → p' = (e, d') →
          Client.Without t (s.client.deliver d).1 (s'.client.deliver d').1 ∧
            s.Alike t (e, (s.client.deliver d).2.1) (e, (s'.client.deliver d').2.1) := by
        rintro e d d' rfl rfl
        cases halike with
        | same ticket => exact h.deliver_same hs hs' hapart hn hn' ticket
        | idle off ticket ticket' => exact h.deliver_off hs hs' hapart hn hn' off ticket ticket'
      obtain ⟨e, d⟩ := p
      obtain ⟨e', d'⟩ := p'
      obtain rfl : e = e' := by cases halike <;> rfl
      obtain ⟨hclient, hafter⟩ := hstep rfl rfl
      have hset := forall₂_set hreceptions (hs.sound.alike_perform hafter (.deliver n)) n
      simp only [Traffic.perform, Traffic.deliver, hn] at hset
      rw [Traffic.deliver, hn, Traffic.deliver, hn']
      exact ⟨hclient, h.calls, hset⟩

theorem Unmade.advance (h : Unmade t s s') (hs : Orderly s) {u : Nat} (hu : u ≠ t)
    (now : Millis) : Unmade t (s.advance u now) (s'.advance u now) := by
  have hreceptions := h.receptions.imp fun _ _ halike ↦
    hs.sound.alike_perform halike (.advance u now)
  cases hr : s.calls[u]? with
  | none =>
      have hr' : s'.calls[u]? = none := by rw [h.calls, List.getElem?_map, hr, Option.map_none]
      rw [Traffic.advance, hr, Traffic.advance, hr']
      exact h
  | some r =>
      have hticket : r.ticket ≠ t := hs.sound.tickets hr ▸ hu
      have hr' : s'.calls[u]? = some r := by
        rw [h.calls, List.getElem?_map, hr, Option.map_some, Request.without_of_ne hticket]
      obtain ⟨hclient, hsame⟩ := h.client.advance hs.tended.ids hticket now
      obtain ⟨phase, hphase, -⟩ := s.client.advances r now
      rw [Traffic.perform, advance_eq hr] at hreceptions
      rw [advance_eq hr, advance_eq hr']
      have hother : Request.without t { r with phase } = { r with phase } :=
        Request.without_of_ne hticket
      refine ⟨hclient, ?_, hreceptions⟩
      dsimp only
      rw [hsame, h.calls, List.map_set, hphase, hother]

/-- The call itself gets on, and neither waits before nor after. -/
theorem Unmade.advance_own (h : Unmade t s s') (hs : Orderly s) (hapart : s.Apart) {now : Millis}
    (hbefore : ∀ r : Request, s.calls[t]? = some r → ∀ due, r.phase ≠ .waiting due)
    (hafter : ∀ r : Request, (s.advance t now).calls[t]? = some r → ∀ due,
      r.phase ≠ .waiting due) : Unmade t (s.advance t now) s' := by
  have hreceptions := h.receptions.imp fun _ _ halike ↦
    hs.sound.alike_perform halike (.advance t now)
  cases hr : s.calls[t]? with
  | none =>
      rw [Traffic.advance, hr]
      exact h
  | some r =>
      have hticket : r.ticket = t := hs.sound.tickets hr
      have hid : s.idOf t = some r.envelope.requestId := Option.map_eq_some_iff.mpr ⟨r, hr, rfl⟩
      have hclient := h.client.advance_own hticket (hs.eq_of_off hapart (.inl hid))
        (hbefore r hr) (hafter _ (advance_calls hr now).1)
      obtain ⟨phase, hphase, -⟩ := s.client.advances r now
      rw [Traffic.perform, advance_eq hr] at hreceptions
      rw [advance_eq hr]
      refine ⟨hclient, ?_, hreceptions⟩
      have hsame : Request.without t { r with phase } = r.without t := by
        simp only [Request.without, hticket, if_true]
      have hset : (s.calls.map (Request.without t))[t]? = some (r.without t) := by
        rw [List.getElem?_map, hr, Option.map_some]
      dsimp only
      obtain ⟨ht, hget⟩ := List.getElem?_eq_some_iff.mp hset
      rw [h.calls, List.map_set, hphase, hsame, ← hget, List.set_getElem_self]

/-- Whatever happens besides the steps of the call happens without it as well. -/
theorem Unmade.perform (h : Unmade t s s') (hs : Orderly s) (hs' : Orderly s')
    (hapart : s.Apart) (ha : a.moves t = false) : Unmade t (s.perform a) (s'.perform a) := by
  have hids := hs.tended.ids
  have hreceptions := h.receptions.imp fun _ _ halike ↦ hs.sound.alike_perform halike a
  cases a with
  | call topic request timeout =>
      refine ⟨h.client, ?_, hreceptions⟩
      simp only [Traffic.perform]
      rw [List.map_append, List.map_singleton, Request.without_of_fresh t rfl, h.calls,
        List.length_map]
  | advance u now =>
      have hu : u ≠ t := fun hu ↦ by simp [Action.moves, hu] at ha
      exact h.advance hs hu now
  | receive response =>
      exact ⟨h.client, h.calls, List.rel_append hreceptions (.cons (.of_none rfl _) .nil)⟩
  | deliver n => exact h.deliver hs hs' hapart n
  | endGraces now => exact ⟨h.client.endGraces hids now, h.calls, hreceptions⟩
  | discard id => exact ⟨h.client.unregister hids id, h.calls, hreceptions⟩
  | forget =>
      exact ⟨⟨h.client.transport, h.client.waiters, h.client.slot, h.client.graces⟩, h.calls,
        hreceptions⟩
  | cancel => exact ⟨h.client.cancel, h.calls, hreceptions⟩
  | bus transport responseTopics =>
      exact ⟨⟨rfl, h.client.waiters, h.client.slot, h.client.graces⟩, h.calls, hreceptions⟩

/-! ## Rejections -/

theorem rank_run (hr : s.calls[t]? = some r) (actions : List Action) :
    ∃ r' : Request, (s.run actions).calls[t]? = some r' ∧ r.phase.rank ≤ r'.phase.rank := by
  induction actions generalizing s r with
  | nil => exact ⟨r, hr, Nat.le_refl _⟩
  | cons a actions ih =>
      obtain ⟨r₁, hr₁, hle⟩ := rank_perform hr a
      obtain ⟨r₂, hr₂, hle'⟩ := ih hr₁
      exact ⟨r₂, hr₂, Nat.le_trans hle hle'⟩

/-- Some time in a run a call was turned away. -/
inductive Rejected (capacity : Nat) (actions : List Action) (t : Nat) : Prop
  /-- The call found no connection. -/
  | unconnected {before after : List Action} {now : Millis} {r : Request} {fault : BridgeError}
      (split : actions = before ++ .advance t now :: after)
      (call : ((start capacity).run before).calls[t]? = some r) (phase : r.phase = .fresh)
      (check : ((start capacity).run before).client.ensureConnected = .error fault)
  /-- The request could not be published. -/
  | unpublished {before after : List Action} {now : Millis} {r : Request} {fault : BridgeError}
      (split : actions = before ++ .advance t now :: after)
      (call : ((start capacity).run before).calls[t]? = some r) (phase : r.phase = .registered)
      (publish : ((start capacity).run before).client.publish r.topic r.envelope = .error fault)

/-- A call that was turned away has not waited before, and has ended with the error. -/
theorem Rejected.exists_split (h : Rejected capacity actions t) :
    ∃ (before after : List Action) (now : Millis) (r : Request) (fault : BridgeError),
      actions = before ++ .advance t now :: after ∧
        ((start capacity).run before).calls[t]? = some r ∧ r.phase.rank < 3 ∧
          ((start capacity).run (before ++ [.advance t now])).calls[t]? =
            some { r with phase := .ended (.error fault) } := by
  cases h with
  | @unconnected before after now r fault split call phase check =>
      refine ⟨before, after, now, r, fault, split, call, by rw [phase]; decide, ?_⟩
      rw [run_concat, Traffic.perform, (advance_calls call now).1, Client.advance, phase]
      dsimp only
      rw [check]
  | @unpublished before after now r fault split call phase publish =>
      refine ⟨before, after, now, r, fault, split, call, by rw [phase]; decide, ?_⟩
      rw [run_concat, Traffic.perform, (advance_calls call now).1, Client.advance, phase]
      dsimp only
      rw [publish]
      rfl

/-- A call that was turned away never waits. -/
theorem Rejected.never_waits (h : Rejected capacity actions t) {actions' : List Action}
    (hpast : actions' <+: actions) (hr : ((start capacity).run actions').calls[t]? = some r)
    (due : Millis) : r.phase ≠ .waiting due := by
  intro hphase
  obtain ⟨before, after, now, r₀, fault, rfl, hbefore, hrank, hafter⟩ := h.exists_split
  have hsplit : before ++ [.advance t now] <+: before ++ .advance t now :: after :=
    ⟨after, by simp⟩
  rcases List.prefix_or_prefix_of_prefix hpast hsplit with hupto | ⟨more, rfl⟩
  · rcases List.prefix_concat_iff.mp hupto with rfl | ⟨more, rfl⟩
    · obtain rfl := Option.some.inj (hr.symm.trans hafter)
      cases hphase
    · obtain ⟨r', hr', hle⟩ := rank_run hr more
      rw [← run_append, hbefore] at hr'
      cases hr'
      rw [hphase] at hle
      exact absurd hrank (Nat.not_lt.mpr hle)
  · obtain ⟨r', hr', hle⟩ := rank_run hafter more
    rw [← run_append, hr] at hr'
    cases hr'
    rw [hphase] at hle
    exact Nat.not_succ_le_self 3 hle

/-- A call that has never waited might as well not have been made. -/
theorem unmade_run (capacity : Nat) (actions : List Action)
    (hnever : ∀ {actions' : List Action}, actions' <+: actions → ∀ {r : Request},
      ((start capacity).run actions').calls[t]? = some r → ∀ due, r.phase ≠ .waiting due)
    (hapart : ((start capacity).run actions).Apart) :
    Unmade t ((start capacity).run actions)
      ((start capacity).run (actions.filter (!·.moves t))) := by
  induction actions using List.reverseRecOn with
  | nil => exact unmade_start t capacity
  | append_singleton actions a ih =>
      rw [run_concat] at hapart
      have horderly := orderly_run capacity actions
      have h := ih (fun hpast ↦ hnever (hpast.trans (List.prefix_append _ _))) hapart.of_perform
      rw [List.filter_append, run_concat]
      cases hmoves : a.moves t with
      | false =>
          have hfilter : [a].filter (!·.moves t) = [a] := by simp [hmoves]
          rw [hfilter, run_concat]
          exact h.perform horderly (orderly_run capacity _) hapart.of_perform hmoves
      | true =>
          have hfilter : [a].filter (!·.moves t) = [] := by simp [hmoves]
          rw [hfilter, List.append_nil]
          cases a with
          | advance u now =>
              obtain rfl : u = t := by simpa [Action.moves] using hmoves
              refine h.advance_own horderly hapart.of_perform
                (fun r hr ↦ hnever (List.prefix_append _ _) hr)
                (fun r hr ↦ hnever (List.prefix_refl _) ?_)
              rwa [run_concat]
          | _ => cases hmoves

theorem Rejected.not_mem_tickets (h : Rejected capacity actions t) :
    t ∉ ((start capacity).run actions).client.tickets := by
  intro hmem
  obtain ⟨⟨id, _⟩, hw, rfl⟩ := List.mem_map.mp hmem
  obtain ⟨r, hr, -, hpending⟩ := pending_run capacity actions hw
  cases hpending with
  | publishing phase =>
      obtain ⟨before, after, now, r₀, fault, rfl, -, -, hafter⟩ := h.exists_split
      obtain ⟨r', hr', hle⟩ := rank_run hafter after
      rw [← run_append, List.append_assoc] at hr'
      obtain rfl := Option.some.inj (hr.symm.trans hr')
      rw [phase] at hle
      exact absurd hle (Nat.not_le.mpr (Nat.lt_add_of_pos_right Nat.two_pos))
  | waiting phase => exact h.never_waits (List.prefix_refl _) hr _ phase
  | late split expired => exact h.never_waits ⟨_, split.symm⟩ expired _ rfl

/-- The table is as if a call that was turned away had not been made. -/
theorem Rejected.waiters_eq (h : Rejected capacity actions t)
    (hapart : ((start capacity).run actions).Apart) :
    ((start capacity).run actions).client.waiters =
      ((start capacity).run (actions.filter (!·.moves t))).client.waiters := by
  have hunmade := unmade_run capacity actions (fun hpast _ hr ↦ h.never_waits hpast hr) hapart
  rw [hunmade.client.waiters]
  refine (List.filter_eq_self.mpr fun w hw ↦ bne_iff_ne.mpr ?_).symm
  rintro rfl
  exact h.not_mem_tickets (List.mem_map_of_mem hw)

/-! ## What the table of waiters never keeps -/

/-- What a run makes sure of: nothing stays in the table of waiters. -/
structure Leakless (capacity : Nat) (actions : List Action) : Prop where
  /-- A waiter is that of a call which is about to publish, waits, or has run out of time within the
  last grace period. -/
  pending : ∀ {id t}, (id, t) ∈ ((start capacity).run actions).client.waiters →
    ∃ r : Request, ((start capacity).run actions).calls[t]? = some r ∧
      r.envelope.requestId = id ∧ Pending capacity actions t r
  /-- No id is both in the table and answered. -/
  unanswered : ∀ {id t}, (id, t) ∈ ((start capacity).run actions).client.waiters →
    ((start capacity).run actions).client.answered.contains id = false
  /-- A call that was turned away has left the table as it is if the call takes none of its
  steps. -/
  rejected : ∀ {t}, Rejected capacity actions t →
    ((start capacity).run actions).client.waiters =
      ((start capacity).run (actions.filter (!·.moves t))).client.waiters
  /-- The table is empty when all calls have returned and no grace period is left. -/
  returned : (∀ r ∈ ((start capacity).run actions).calls, ∃ result, r.phase = .ended result) →
    ((start capacity).run actions).client.graces = [] →
    ((start capacity).run actions).client.waiters = []

/-- However calls, deliveries, timeouts, grace periods and disconnections come in between each
other, the waiter of a call goes with the call, or with its grace period. -/
theorem leakless_run (capacity : Nat) (actions : List Action)
    (hids : (((start capacity).run actions).calls.map (·.envelope.requestId)).Nodup) :
    Leakless capacity actions where
  pending := pending_run capacity actions
  unanswered := (orderly_run capacity actions).unanswered (apart_of_nodup hids)
  rejected := fun h ↦ h.waiters_eq (apart_of_nodup hids)
  returned := fun hreturned hgraces ↦ by
    refine List.eq_nil_iff_forall_not_mem.mpr fun ⟨id, t⟩ hmem ↦ ?_
    obtain ⟨r, hr, -, hpending⟩ := pending_run capacity actions hmem
    obtain ⟨result, hresult⟩ := hreturned r (List.mem_of_getElem? hr)
    cases hpending with
    | publishing phase => cases hresult.symm.trans phase
    | waiting phase => cases hresult.symm.trans phase
    | late split expired due_le phase grace later =>
        rw [hgraces] at grace
        cases grace

/-- A call for each way out: the first is answered, the second cannot be published, just when a
response has taken its waiter, the third finds no connection, the fourth meets a disconnection, and
the time of the last is up. -/
def exits : List Action :=
  [.bus { broker := { connected := true } } [], .call "q" (.new "a" "" .null) 300,
    .call "q" (.new "b" "" .null) 300, .call "q" (.new "c" "" .null) 300,
    .call "q" (.new "d" "" .null) 300, .call "q" (.new "e" "" .null) 300,
    .advance 0 0, .advance 0 0, .advance 0 0, .receive (.new "a" "" .null), .deliver 0, .deliver 0,
    .deliver 0, .deliver 0, .advance 0 10, .advance 1 10, .advance 1 10,
    .receive (.new "b" "" .null), .deliver 1, .deliver 1,
    .bus { broker := { connected := true }, refusing := [.publish] } [], .advance 1 10, .deliver 1,
    .bus {} [], .advance 2 10, .bus { broker := { connected := true } } [], .advance 3 10,
    .advance 3 10, .advance 3 10, .cancel, .advance 3 20, .advance 4 20, .advance 4 20,
    .advance 4 20, .advance 4 320]

theorem leakless_exits :
    Leakless 1 exits ∧ ((start 1).run exits).client.waiters = [("e", 4)] ∧
      ((start 1).run (exits ++ [.endGraces 370])).client.waiters = [] :=
  ⟨leakless_run 1 exits (by decide), by decide, by decide⟩

end Traffic

end BleBridge.Bus
