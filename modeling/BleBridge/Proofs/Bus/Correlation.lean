import BleBridge.Proofs.Bus.Waiters
import Mathlib.Data.List.Nodup

/-!
# Responses and the calls they are handed to

Any number of calls and of deliveries get on in any order, a step at a time, amid
timeouts, grace periods and disconnections, and nothing is said about which
responses come: they may be lost, doubled, late or answers to nothing.

The waiter of a call is in one place at a time: in the table, in the hands of one
delivery, or spent on a response that was handed over (`Traffic.places`).  That
alone keeps a call from being handed a second response.  The ids that were
answered serve to tell duplicates from responses nobody waits for; how many of
them are remembered does not matter.
-/

namespace BleBridge.Bus

/-- A client with all that is under way at it. -/
structure Traffic where
  client : Client
  /-- The calls that were made; the ticket of each is its number. -/
  calls : List Request := []
  /-- The responses that subscriptions have read, each with how far its delivery is. -/
  receptions : List (Envelope × Delivery) := []
  /-- Which reception was handed to which call. -/
  handed : List (Nat × Nat) := []

/-- What can happen next. -/
inductive Action
  | call (topic : String) (request : Envelope) (timeout : Millis)
  | advance (call : Nat) (now : Millis)
  | receive (response : Envelope)
  | deliver (reception : Nat)
  | endGraces (now : Millis)
  /-- One waiter is thrown away, by itself or amid a disconnection. -/
  | discard (id : String)
  /-- The ids that were answered are forgotten, amid a disconnection. -/
  | forget
  | cancel
  /-- Something happens to the bus or to the subscriptions. -/
  | bus (transport : Transport) (responseTopics : List String)

namespace Traffic

def start (capacity : Nat) : Traffic := { client := { answered := .new capacity } }

def advance (s : Traffic) (call : Nat) (now : Millis) : Traffic :=
  match s.calls[call]? with
  | none => s
  | some r =>
      let (client, r, _) := s.client.advance r now
      { s with client, calls := s.calls.set call r }

def deliver (s : Traffic) (reception : Nat) : Traffic :=
  match s.receptions[reception]? with
  | none => s
  | some (e, d) =>
      let (client, d', _) := s.client.deliver d
      { s with
        client
        receptions := s.receptions.set reception (e, d')
        handed := s.handed ++ (s.client.handing d).toList.map (reception, ·) }

def perform (s : Traffic) : Action → Traffic
  | .call topic request timeout =>
      { s with calls := s.calls ++ [⟨s.calls.length, topic, request, timeout, .fresh⟩] }
  | .advance call now => s.advance call now
  | .receive response => { s with receptions := s.receptions ++ [(response, .arrived response)] }
  | .deliver reception => s.deliver reception
  | .endGraces now => { s with client := s.client.endGraces now }
  | .discard id => { s with client := s.client.unregister id }
  | .forget => { s with client := { s.client with answered := s.client.answered.clear } }
  | .cancel => { s with client := s.client.cancel }
  | .bus transport responseTopics =>
      { s with client := { s.client with transport, responseTopics } }

def run (s : Traffic) (actions : List Action) : Traffic := actions.foldl perform s

/-- The id of the request that a call has made. -/
def idOf (s : Traffic) (call : Nat) : Option String :=
  (s.calls[call]?).map (·.envelope.requestId)

/-- The response that was received. -/
def response (s : Traffic) (reception : Nat) : Option Envelope :=
  (s.receptions[reception]?).map Prod.fst

/-- A call has been handed a response. -/
def Given (s : Traffic) (call : Nat) (e : Envelope) : Prop :=
  ∃ reception, (reception, call) ∈ s.handed ∧ s.response reception = some e

/-- In how many places the waiter of a call is. -/
def places (s : Traffic) (call : Nat) : Nat :=
  s.client.waiters.countP (·.2 == call) + s.receptions.countP (·.2.ticket? == some call) +
    s.handed.countP (·.2 == call)

/-- What holds of a client and all that is under way at it, whatever has happened. -/
structure Sound (s : Traffic) : Prop where
  tickets : ∀ {t : Nat} {r : Request}, s.calls[t]? = some r → r.ticket = t
  /-- A waiter is in one place at a time. -/
  once : ∀ t, s.places t ≤ 1
  /-- A call that has not registered has no waiter. -/
  unregistered : ∀ {t : Nat},
    (∀ r : Request, s.calls[t]? = some r → r.phase.hasRegistered = false) → s.places t = 0
  waiting : ∀ {id t}, (id, t) ∈ s.client.waiters → s.idOf t = some id
  carried : ∀ {n t : Nat} {e : Envelope} {d : Delivery}, s.receptions[n]? = some (e, d) →
    d.ticket? = some t → s.idOf t = some e.requestId
  /-- A delivery is about the response that was received. -/
  delivered : ∀ {n : Nat} {e e' : Envelope} {d : Delivery}, s.receptions[n]? = some (e, d) →
    d.envelope? = some e' → e' = e
  given : ∀ {n t}, (n, t) ∈ s.handed →
    ∃ e, s.response n = some e ∧ s.idOf t = some e.requestId
  /-- The delivery of what was handed over is done. -/
  spent : ∀ {n t : Nat} {e : Envelope} {d : Delivery}, (n, t) ∈ s.handed →
    s.receptions[n]? = some (e, d) → d.envelope? = none
  receptions_once : (s.handed.map Prod.fst).Nodup
  filled : ∀ {t e}, s.client.slot t = .filled e → s.Given t e
  result : ∀ {t : Nat} {e : Envelope} {r : Request}, s.calls[t]? = some r →
    r.phase = .ended (.ok e) → s.Given t e

variable {s : Traffic} {c' : Client} {t n : Nat} {r : Request} {e : Envelope} {d d' : Delivery}
  {phase : Phase} {id : String}

/-! ## Changes of lists -/

theorem countP_set_add {α : Type} {p : α → Bool} {xs : List α} {i : Nat} {x : α} (y : α)
    (h : xs[i]? = some x) :
    (xs.set i y).countP p + (if p x then 1 else 0) = xs.countP p + if p y then 1 else 0 := by
  obtain ⟨hi, rfl⟩ := List.getElem?_eq_some_iff.mp h
  have hle := List.boole_getElem_le_countP (p := p) hi
  rw [List.countP_set hi]
  omega

theorem getElem?_set_cases {α : Type} {xs : List α} {i j : Nat} {x y : α}
    (h : (xs.set i x)[j]? = some y) : (i = j ∧ y = x) ∨ (i ≠ j ∧ xs[j]? = some y) := by
  by_cases hij : i = j
  · subst hij
    have hi := (List.getElem?_eq_some_iff.mp h).1
    rw [List.getElem?_set_self (by simpa using hi)] at h
    exact .inl ⟨rfl, (Option.some.inj h).symm⟩
  · rw [List.getElem?_set_ne hij] at h
    exact .inr ⟨hij, h⟩

theorem getElem?_concat_cases {α : Type} {xs : List α} {j : Nat} {x y : α}
    (h : (xs ++ [x])[j]? = some y) : xs[j]? = some y ∨ (j = xs.length ∧ y = x) := by
  rw [List.getElem?_append] at h
  split at h
  · exact .inl h
  · rename_i hj
    obtain ⟨hlength, rfl⟩ := List.getElem?_eq_some_iff.mp h
    rw [List.length_singleton] at hlength
    exact .inr ⟨by omega, by simp⟩

theorem getElem?_concat {α : Type} {xs : List α} {j : Nat} {y : α} (x : α)
    (h : xs[j]? = some y) : (xs ++ [x])[j]? = some y := by
  rwa [List.getElem?_append_left (List.getElem?_eq_some_iff.mp h).1]

theorem map_getElem?_set {α β : Type} (f : α → β) {xs : List α} {i : Nat} {x : α} (y : α)
    (h : xs[i]? = some x) (heq : f y = f x) (j : Nat) :
    ((xs.set i y)[j]?).map f = (xs[j]?).map f := by
  by_cases hij : i = j
  · subst hij
    rw [List.getElem?_set_self (List.getElem?_eq_some_iff.mp h).1, h]
    exact congrArg some heq
  · rw [List.getElem?_set_ne hij]

/-! ## Steps of calls -/

theorem sound_start (capacity : Nat) : Sound (start capacity) where
  tickets := nofun
  once _ := Nat.zero_le 1
  unregistered _ := rfl
  waiting := nofun
  carried := nofun
  delivered := nofun
  given := nofun
  spent := nofun
  receptions_once := List.nodup_nil
  filled := nofun
  result := nofun

/-- A client at which waiters go and no slot is filled stays sound. -/
theorem Sound.fade (h : Sound s) (hfades : Client.Fades s.client c') :
    Sound { s with client := c' } := by
  have hplaces : ∀ t, places { s with client := c' } t ≤ s.places t := by
    intro t
    have := hfades.waiters.countP_le (p := (·.2 == t))
    simp only [places]
    omega
  exact
    { h with
      once := fun t ↦ Nat.le_trans (hplaces t) (h.once t)
      unregistered := fun hr ↦ Nat.le_zero.mp (h.unregistered hr ▸ hplaces _)
      waiting := fun hmem ↦ h.waiting (hfades.waiters.subset hmem)
      filled := fun hslot ↦ h.filled (hfades.filled _ _ hslot) }

theorem Sound.call (h : Sound s) (topic : String) (request : Envelope) (timeout : Millis) :
    Sound (s.perform (.call topic request timeout)) := by
  have hid : ∀ {u id}, s.idOf u = some id →
      (s.perform (.call topic request timeout)).idOf u = some id := by
    intro u id hu
    obtain ⟨r, hr, hrid⟩ := Option.map_eq_some_iff.mp hu
    exact Option.map_eq_some_iff.mpr ⟨r, getElem?_concat _ hr, hrid⟩
  exact
    { h with
      tickets := fun hr ↦ by
        rcases getElem?_concat_cases hr with hr | ⟨rfl, rfl⟩
        · exact h.tickets hr
        · rfl
      unregistered := fun hphase ↦ h.unregistered fun r hr ↦ hphase r (getElem?_concat _ hr)
      waiting := fun hmem ↦ hid (h.waiting hmem)
      carried := fun hreception hticket ↦ hid (h.carried hreception hticket)
      given := fun hmem ↦ by
        obtain ⟨e, hresponse, hu⟩ := h.given hmem
        exact ⟨e, hresponse, hid hu⟩
      result := fun hr hphase ↦ by
        rcases getElem?_concat_cases hr with hr | ⟨-, rfl⟩
        · exact h.result hr hphase
        · cases hphase }

/-- A call gets on in a sound state, if it ends with a response only out of its slot. -/
theorem Sound.setPhase (h : Sound s) (ht : s.calls[t]? = some r)
    (hregistered : r.phase.hasRegistered → phase.hasRegistered)
    (hanswered : ∀ e, phase = .ended (.ok e) →
      r.phase = .ended (.ok e) ∨ s.client.slot r.ticket = .filled e) :
    Sound { s with calls := s.calls.set t { r with phase } } := by
  have hid : ∀ u,
      ({ s with calls := s.calls.set t { r with phase } } : Traffic).idOf u = s.idOf u :=
    map_getElem?_set (fun r : Request ↦ r.envelope.requestId) _ ht rfl
  exact
    { h with
      tickets := fun hr ↦ by
        rcases getElem?_set_cases hr with ⟨rfl, rfl⟩ | ⟨-, hr⟩
        · have hticket : r.ticket = t := h.tickets ht
          exact hticket
        · exact h.tickets hr
      unregistered := fun {u} hphase ↦ h.unregistered fun r' hr' ↦ by
        by_cases htu : t = u
        · subst htu
          obtain rfl : r = r' := Option.some.inj (ht.symm.trans hr')
          have hset := hphase _ (List.getElem?_set_self (List.getElem?_eq_some_iff.mp ht).1)
          cases hr : r.phase.hasRegistered with
          | false => rfl
          | true => exact (hregistered hr).symm.trans hset
        · exact hphase r' ((List.getElem?_set_ne htu).trans hr')
      waiting := fun hmem ↦ (hid _).trans (h.waiting hmem)
      carried := fun hreception hticket ↦ (hid _).trans (h.carried hreception hticket)
      given := fun hmem ↦ by
        obtain ⟨e, hresponse, hu⟩ := h.given hmem
        exact ⟨e, hresponse, (hid _).trans hu⟩
      result := fun hr hphase ↦ by
        rcases getElem?_set_cases hr with ⟨rfl, rfl⟩ | ⟨-, hr⟩
        · rcases hanswered _ hphase with hended | hslot
          · exact h.result ht hended
          · exact h.filled (h.tickets ht ▸ hslot)
        · exact h.result hr hphase }

/-- A call without a waiter puts one into the table. -/
theorem Sound.register (h : Sound s) (hplaces : s.places t = 0) (ht : s.calls[t]? = some r)
    (hphase : r.phase.hasRegistered) :
    Sound { s with client := s.client.register r.envelope.requestId t } := by
  obtain ⟨earlier, hwaiters, hearlier, hfilled⟩ :=
    s.client.waiters_register r.envelope.requestId t
  have hcount : ∀ u,
      places { s with client := s.client.register r.envelope.requestId t } u ≤
        s.places u + if t = u then 1 else 0 := by
    intro u
    have := hearlier.countP_le (p := (·.2 == u))
    simp only [places, hwaiters, List.countP_cons, beq_iff_eq]
    omega
  exact
    { h with
      once := fun u ↦ by
        have hu := hcount u
        have honce := h.once u
        split at hu
        · rename_i htu
          subst htu
          omega
        · omega
      unregistered := fun {u} hr ↦ by
        have hu := hcount u
        rw [h.unregistered hr] at hu
        split at hu
        · rename_i htu
          subst htu
          rw [hr r ht] at hphase
          cases hphase
        · omega
      waiting := fun {id u} hmem ↦ by
        rw [hwaiters] at hmem
        rcases List.mem_cons.mp hmem with heq | hmem
        · cases heq
          exact Option.map_eq_some_iff.mpr ⟨r, ht, rfl⟩
        · exact h.waiting (hearlier.subset hmem)
      filled := fun hslot ↦ h.filled (hfilled _ _ hslot) }

theorem Sound.advance (h : Sound s) (t : Nat) (now : Millis) : Sound (s.advance t now) := by
  rw [Traffic.advance]
  split
  · exact h
  · rename_i r ht
    obtain ⟨hphase, hclient, hr⟩ | ⟨phase, hr, hages⟩ := s.client.advance_cases r now
    · have hplaces : s.places t = 0 := h.unregistered fun r' hr' ↦ by
        obtain rfl : r = r' := Option.some.inj (ht.symm.trans hr')
        rw [hphase]
        rfl
      have hset : Sound { s with calls := s.calls.set t { r with phase := .registered } } :=
        h.setPhase ht (fun _ ↦ rfl) nofun
      have hregister := hset.register hplaces
        (List.getElem?_set_self (List.getElem?_eq_some_iff.mp ht).1) rfl
      rw [← h.tickets ht] at hregister ⊢
      simpa only [hclient, hr] using hregister
    · have hset := (h.setPhase ht hages.registered hages.answered).fade hages.fades
      simpa only [hr] using hset

/-! ## Steps of deliveries -/

theorem Sound.receive (h : Sound s) (e : Envelope) : Sound (s.perform (.receive e)) := by
  have hresponse : ∀ {n e'}, s.response n = some e' →
      (s.perform (.receive e)).response n = some e' := by
    intro n e' hn
    obtain ⟨p, hp, hpe⟩ := Option.map_eq_some_iff.mp hn
    exact Option.map_eq_some_iff.mpr ⟨p, getElem?_concat _ hp, hpe⟩
  have hgiven : ∀ {t e'}, s.Given t e' → (s.perform (.receive e)).Given t e' := by
    rintro t e' ⟨n, hmem, hn⟩
    exact ⟨n, hmem, hresponse hn⟩
  have hplaces : ∀ t, (s.perform (.receive e)).places t = s.places t := by
    intro t
    simp [perform, places, Delivery.ticket?]
  exact
    { h with
      once := fun t ↦ (hplaces t).symm ▸ h.once t
      unregistered := fun hr ↦ (hplaces _).trans (h.unregistered hr)
      carried := fun hreception hticket ↦ by
        rcases getElem?_concat_cases hreception with hreception | ⟨-, heq⟩
        · exact h.carried hreception hticket
        · cases heq
          cases hticket
      delivered := fun hreception henvelope ↦ by
        rcases getElem?_concat_cases hreception with hreception | ⟨-, heq⟩
        · exact h.delivered hreception henvelope
        · cases heq
          exact (Option.some.inj henvelope).symm
      given := fun hmem ↦ by
        obtain ⟨e', hn, hid⟩ := h.given hmem
        exact ⟨e', hresponse hn, hid⟩
      spent := fun hmem hreception ↦ by
        rcases getElem?_concat_cases hreception with hreception | ⟨rfl, -⟩
        · exact h.spent hmem hreception
        · -- a reception that was handed over is no new one
          obtain ⟨e', hn, -⟩ := h.given hmem
          simp [response] at hn
      filled := fun hslot ↦ hgiven (h.filled hslot)
      result := fun hr hphase ↦ hgiven (h.result hr hphase) }

/-- A step of a delivery leaves the response that was received what it is. -/
theorem response_set (hn : s.receptions[n]? = some (e, d)) (d' : Delivery) (client : Client)
    (handed : List (Nat × Nat)) (m : Nat) :
    ({ s with client, receptions := s.receptions.set n (e, d'), handed } : Traffic).response m =
      s.response m :=
  map_getElem?_set Prod.fst (e, d') hn rfl m

/-- A delivery comes to nothing, or gets on with what it has. -/
theorem Sound.setDelivery (h : Sound s) (hn : s.receptions[n]? = some (e, d))
    (hticket : ∀ t, d'.ticket? = some t → d.ticket? = some t)
    (henvelope : ∀ e, d'.envelope? = some e → d.envelope? = some e) :
    Sound { s with receptions := s.receptions.set n (e, d') } := by
  have hresponse := response_set hn d' s.client s.handed
  have hgiven : ∀ {t e'}, s.Given t e' →
      ({ s with receptions := s.receptions.set n (e, d') } : Traffic).Given t e' := by
    rintro t e' ⟨m, hmem, hm⟩
    exact ⟨m, hmem, (hresponse m).trans hm⟩
  have hplaces : ∀ t,
      places { s with receptions := s.receptions.set n (e, d') } t ≤ s.places t := by
    intro t
    have hcount := countP_set_add (p := (·.2.ticket? == some t)) (e, d') hn
    simp only [places, beq_iff_eq] at hcount ⊢
    by_cases ht : d'.ticket? = some t
    · rw [if_pos ht, if_pos (hticket t ht)] at hcount
      omega
    · rw [if_neg ht] at hcount
      omega
  exact
    { h with
      once := fun t ↦ Nat.le_trans (hplaces t) (h.once t)
      unregistered := fun hr ↦ Nat.le_zero.mp (h.unregistered hr ▸ hplaces _)
      carried := fun hreception ht ↦ by
        rcases getElem?_set_cases hreception with ⟨-, heq⟩ | ⟨-, hreception⟩
        · cases heq
          exact h.carried hn (hticket _ ht)
        · exact h.carried hreception ht
      delivered := fun hreception he ↦ by
        rcases getElem?_set_cases hreception with ⟨-, heq⟩ | ⟨-, hreception⟩
        · cases heq
          exact h.delivered hn (henvelope _ he)
        · exact h.delivered hreception he
      given := fun hmem ↦ by
        obtain ⟨e', hm, hid⟩ := h.given hmem
        exact ⟨e', (hresponse _).trans hm, hid⟩
      spent := fun hmem hreception ↦ by
        rcases getElem?_set_cases hreception with ⟨rfl, heq⟩ | ⟨-, hreception⟩
        · cases heq
          have hspent := h.spent hmem hn
          rw [Option.eq_none_iff_forall_ne_some] at hspent ⊢
          exact fun e' he' ↦ hspent e' (henvelope e' he')
        · exact h.spent hmem hreception
      filled := fun hslot ↦ hgiven (h.filled hslot)
      result := fun hr hphase ↦ hgiven (h.result hr hphase) }

/-- A delivery takes the waiter for its response out of the table. -/
theorem Sound.take (h : Sound s) (hn : s.receptions[n]? = some (e, .unanswered e))
    (hwaiter : s.client.waiter? e.requestId = some t) :
    Sound { s with
      client := s.client.withoutWaiter e.requestId
      receptions := s.receptions.set n (e, .taken e t) } := by
  obtain ⟨hmem, hcount⟩ := s.client.waiters_withoutWaiter hwaiter
  have hresponse := response_set hn (.taken e t) (s.client.withoutWaiter e.requestId) s.handed
  have hgiven : ∀ {u e'}, s.Given u e' →
      ({ s with
        client := s.client.withoutWaiter e.requestId
        receptions := s.receptions.set n (e, .taken e t) } : Traffic).Given u e' := by
    rintro u e' ⟨m, hm, hme⟩
    exact ⟨m, hm, (hresponse m).trans hme⟩
  have hplaces : ∀ u, places
      { s with
        client := s.client.withoutWaiter e.requestId
        receptions := s.receptions.set n (e, .taken e t) } u ≤ s.places u := by
    intro u
    -- the waiter has only changed hands
    have hset := countP_set_add (p := (·.2.ticket? == some u)) (e, .taken e t) hn
    have hwithout := hcount u
    simp only [Delivery.ticket?_unanswered, Delivery.ticket?_taken, beq_iff_eq, reduceCtorEq,
      if_false, Option.some.injEq] at hset
    simp only [places]
    omega
  exact
    { h with
      once := fun u ↦ Nat.le_trans (hplaces u) (h.once u)
      unregistered := fun hr ↦ Nat.le_zero.mp (h.unregistered hr ▸ hplaces _)
      waiting := fun hm ↦ h.waiting ((s.client.fades_withoutWaiter _).waiters.subset hm)
      carried := fun hreception ht ↦ by
        rcases getElem?_set_cases hreception with ⟨-, heq⟩ | ⟨-, hreception⟩
        · cases heq
          cases ht
          exact h.waiting hmem
        · exact h.carried hreception ht
      delivered := fun hreception he ↦ by
        rcases getElem?_set_cases hreception with ⟨-, heq⟩ | ⟨-, hreception⟩
        · cases heq
          exact (Option.some.inj he).symm
        · exact h.delivered hreception he
      given := fun hm ↦ by
        obtain ⟨e', hme, hid⟩ := h.given hm
        exact ⟨e', (hresponse _).trans hme, hid⟩
      spent := fun hm hreception ↦ by
        rcases getElem?_set_cases hreception with ⟨rfl, -⟩ | ⟨-, hreception⟩
        · cases h.spent hm hn
        · exact h.spent hm hreception
      filled := fun hslot ↦ hgiven (h.filled hslot)
      result := fun hr hphase ↦ hgiven (h.result hr hphase) }

/-- A delivery hands its response over. -/
theorem Sound.hand (h : Sound s) (hn : s.receptions[n]? = some (e, .noted e t)) :
    Sound { s with
      client := s.client.setSlot t (.filled e)
      receptions := s.receptions.set n (e, .done)
      handed := s.handed ++ [(n, t)] } := by
  have hresponse := response_set hn .done (s.client.setSlot t (.filled e))
    (s.handed ++ [(n, t)])
  have hgiven : ∀ {u e'}, s.Given u e' →
      ({ s with
        client := s.client.setSlot t (.filled e)
        receptions := s.receptions.set n (e, .done)
        handed := s.handed ++ [(n, t)] } : Traffic).Given u e' := by
    rintro u e' ⟨m, hm, hme⟩
    exact ⟨m, List.mem_append_left _ hm, (hresponse m).trans hme⟩
  have hplaces : ∀ u, places
      { s with
        client := s.client.setSlot t (.filled e)
        receptions := s.receptions.set n (e, .done)
        handed := s.handed ++ [(n, t)] } u = s.places u := by
    intro u
    have hset := countP_set_add (p := (·.2.ticket? == some u)) (e, .done) hn
    simp only [Delivery.ticket?_noted, Delivery.ticket?_done, beq_iff_eq, reduceCtorEq, if_false,
      Option.some.injEq] at hset
    simp only [places, Client.waiters_setSlot, List.countP_append, List.countP_singleton,
      beq_iff_eq]
    omega
  have hfirst : s.response n = some e := Option.map_eq_some_iff.mpr ⟨_, hn, rfl⟩
  exact
    { h with
      once := fun u ↦ (hplaces u).symm ▸ h.once u
      unregistered := fun hr ↦ (hplaces _).trans (h.unregistered hr)
      carried := fun hreception ht ↦ by
        rcases getElem?_set_cases hreception with ⟨-, heq⟩ | ⟨-, hreception⟩
        · cases heq
          cases ht
        · exact h.carried hreception ht
      delivered := fun hreception he ↦ by
        rcases getElem?_set_cases hreception with ⟨-, heq⟩ | ⟨-, hreception⟩
        · cases heq
          cases he
        · exact h.delivered hreception he
      given := fun hm ↦ by
        rcases List.mem_append.mp hm with hm | hm
        · obtain ⟨e', hme, hid⟩ := h.given hm
          exact ⟨e', (hresponse _).trans hme, hid⟩
        · cases List.mem_singleton.mp hm
          exact ⟨e, (hresponse n).trans hfirst, h.carried hn rfl⟩
      spent := fun hm hreception ↦ by
        rcases getElem?_set_cases hreception with ⟨-, heq⟩ | ⟨hne, hreception⟩
        · cases heq
          rfl
        · rcases List.mem_append.mp hm with hm | hm
          · exact h.spent hm hreception
          · cases List.mem_singleton.mp hm
            exact absurd rfl hne
      receptions_once := by
        rw [List.map_append, List.nodup_append]
        refine ⟨h.receptions_once, List.nodup_singleton n, ?_⟩
        rintro m hm _ hn' rfl
        obtain ⟨⟨m', u⟩, hmem, rfl⟩ := List.mem_map.mp hm
        obtain rfl : m' = n := List.mem_singleton.mp hn'
        cases h.spent hmem hn
      filled := fun {u e'} hslot ↦ by
        rw [Client.slot_setSlot] at hslot
        split at hslot
        · rename_i hu
          cases hslot
          exact ⟨n, by simp [hu], (hresponse n).trans hfirst⟩
        · exact hgiven (h.filled hslot)
      result := fun hr hphase ↦ hgiven (h.result hr hphase) }

theorem Sound.deliver (h : Sound s) (n : Nat) : Sound (s.deliver n) := by
  rw [Traffic.deliver]
  split
  · exact h
  · rename_i e d hn
    have hstep := s.client.delivers d
    generalize hd : s.client.deliver d = step at hstep
    obtain ⟨c', d', events⟩ := step
    dsimp only at hstep ⊢
    cases hstep with
    | aside waiters slots handing ticket _ envelope =>
        have hset := (h.setDelivery hn ticket envelope).fade (Client.fades_of_eq waiters slots)
        simpa only [handing, Option.toList_none, List.map_nil, List.append_nil] using hset
    | takes waiter =>
        obtain rfl := h.delivered hn rfl
        have htake := h.take hn waiter
        simpa only [Client.handing, Option.toList_none, List.map_nil, List.append_nil] using htake
    | hands handing =>
        obtain rfl := h.delivered hn rfl
        have hhand := h.hand hn
        simpa only [handing, Option.toList_some, List.map_cons, List.map_nil] using hhand

/-! ## Runs -/

theorem Sound.perform (h : Sound s) (a : Action) : Sound (s.perform a) := by
  cases a with
  | call topic request timeout => exact h.call topic request timeout
  | advance t now => exact h.advance t now
  | receive e => exact h.receive e
  | deliver n => exact h.deliver n
  | endGraces now => exact h.fade (Client.fades_endGraces _ now)
  | discard id => exact h.fade (Client.fades_unregister _ id)
  | forget => exact h.fade (Client.fades_of_eq rfl rfl)
  | cancel => exact h.fade (Client.fades_cancel _)
  | bus transport responseTopics => exact h.fade (Client.fades_of_eq rfl rfl)

theorem Sound.run (h : Sound s) (actions : List Action) : Sound (s.run actions) := by
  induction actions generalizing s with
  | nil => exact h
  | cons a actions ih => exact ih (h.perform a)

/-- What a client makes sure of: which responses its calls get. -/
structure Correlated (s : Traffic) : Prop where
  /-- A call ends with a response only if it was handed that response. -/
  result : ∀ {t : Nat} {r : Request} {e : Envelope}, s.calls[t]? = some r →
    r.phase = .ended (.ok e) → s.Given t e
  /-- What a call is handed bears the id of its own request. -/
  own : ∀ {n t}, (n, t) ∈ s.handed → ∃ e, s.response n = some e ∧ s.idOf t = some e.requestId
  /-- The waiter of a call is in the table, with one delivery, or spent. -/
  waiter_once : ∀ t, s.places t ≤ 1
  /-- No call is handed two responses. -/
  calls_once : (s.handed.map Prod.snd).Nodup
  /-- No response is handed to two calls. -/
  receptions_once : (s.handed.map Prod.fst).Nodup
  /-- Of all the copies of a response that are received one is handed over at most. -/
  copies_once : ∀ {n n' t t'} {e e' : Envelope}, (n, t) ∈ s.handed → (n', t') ∈ s.handed →
    s.response n = some e → s.response n' = some e' → e.requestId = e'.requestId → n = n' ∧ t = t'

theorem Sound.calls_once (h : Sound s) : (s.handed.map Prod.snd).Nodup := by
  refine List.nodup_iff_count_le_one.mpr fun t ↦ ?_
  have hplaces := h.once t
  have hcount : (s.handed.map Prod.snd).count t = s.handed.countP (·.2 == t) := by
    rw [List.count_eq_countP, List.countP_map]
    rfl
  rw [places] at hplaces
  omega

/-- However calls, deliveries, timeouts and disconnections come in between each other, and however
few answered ids are remembered, a call gets one response at most, that of its own request, and no
response gets to two calls. -/
theorem correlated_run (capacity : Nat) (actions : List Action)
    (hids : (((start capacity).run actions).calls.map (·.envelope.requestId)).Nodup) :
    Correlated ((start capacity).run actions) := by
  have h : Sound ((start capacity).run actions) := (sound_start capacity).run actions
  refine ⟨h.result, h.given, h.once, h.calls_once, h.receptions_once, ?_⟩
  intro n n' t t' e e' hn hn' he he' hid
  obtain ⟨_, hresponse, ht⟩ := h.given hn
  obtain ⟨_, hresponse', ht'⟩ := h.given hn'
  obtain rfl := Option.some.inj (he.symm.trans hresponse)
  obtain rfl := Option.some.inj (he'.symm.trans hresponse')
  rw [idOf, ← List.getElem?_map] at ht ht'
  have heq : t = t' :=
    (List.getElem?_inj (List.getElem?_eq_some_iff.mp ht).1 hids).mp (by rw [ht, ht', hid])
  subst heq
  have hpair := List.inj_on_of_nodup_map h.calls_once hn hn' rfl
  exact ⟨congrArg Prod.fst hpair, rfl⟩

/-- Two calls whose responses come, the first one three times: twice at the same time, and once more
when its id was forgotten. -/
def tripled : List Action :=
  [.bus { broker := { connected := true } } [], .call "q" (.new "a" "" .null) 300,
    .call "q" (.new "b" "" .null) 300, .advance 0 0, .advance 1 0, .advance 0 0, .advance 1 0,
    .advance 1 0, .advance 0 0, .receive (.new "a" "" .null), .receive (.new "a" "" .null),
    .deliver 0, .deliver 1, .deliver 1, .deliver 0, .deliver 1, .deliver 1, .advance 0 10,
    .receive (.new "b" "" .null), .deliver 2, .deliver 2, .deliver 2, .deliver 2, .advance 1 20,
    .receive (.new "a" "" .null), .deliver 3, .deliver 3]

theorem correlated_tripled :
    Correlated ((start 1).run tripled) ∧ ((start 1).run tripled).handed = [(1, 0), (2, 1)] ∧
      ((start 1).run tripled).client.answered.order = ["b"] :=
  ⟨correlated_run 1 tripled (by decide), by decide, by decide⟩

end Traffic

end BleBridge.Bus
