import BleBridge.Proofs.Bench.Subscriptions
import Mathlib.Data.List.Nodup

/-!
# Live subscriptions to responses

A subscription to responses lasts while its channel is alive, nothing has cancelled
it and its task has not ended; a topic is live while such a subscription is there.
On a bench that is `Tidy`, where no two subscriptions share a channel, only somebody
who begins to listen makes a topic live (`Begins.live_iff`), and only a cancellation
or a disconnection ends that (`Tidy.not_live_of_round`, `not_live_of_leave`).  All
the rest passes by (`Passes`), a subscription that ends included, for only those end
that do not last.

What is published on a live topic goes to the waiters of the client, behind the
messages that came before it, unless the channel is full (`Tidy.hears_iff`).
-/

namespace BleBridge.Bench.World

open Bus (Broker Channel Client Message)

variable {w w' w'' : World} {topic filter : String} {l l' : Listener} {ch : Channel} {m : Message}
  {k n : Nat}

/-- The channel of that number on the bus of the client. -/
abbrev Lives (w : World) (n : Nat) (topic : String) : Prop :=
  w.client.transport.broker.Lives n topic

/-- How many channels the bus has given. -/
abbrev given (w : World) : Nat := w.client.transport.broker.channels.length

/-- Nothing has ended the subscription. -/
structure Lasts (w : World) (topic : String) (l : Listener) : Prop where
  use : l.use = .responses
  named : l.filter = topic
  round : l.round = w.client.round
  running : l.stopped = false
  idle : l.task = none
  alive : w.Lives l.channel topic

def Live (w : World) (topic : String) : Prop := ∃ l ∈ w.listeners, Lasts w topic l

/-- No two subscriptions have one channel, and none is ahead of its client. -/
structure Tidy (w : World) : Prop where
  apart : (w.listeners.map Listener.channel).Nodup
  owned : ∀ l ∈ w.listeners, l.channel < w.given
  begun : ∀ l ∈ w.listeners, l.round ≤ w.client.round
  idle : ∀ l ∈ w.listeners, l.use = .responses → l.task = none
  bounded : w.client.transport.broker.Bounded

theorem tidy_new (settings : Config.Mux) (device : Device) : Tidy (.new settings device) where
  apart := List.nodup_nil
  owned l hl := by cases hl
  begun l hl := by cases hl
  idle l hl := by cases hl
  bounded ch hch := by cases hch

theorem lasts_iff_of (hround : w'.client.round = w.client.round)
    (hlives : w'.Lives l.channel topic ↔ w.Lives l.channel topic) :
    Lasts w' topic l ↔ Lasts w topic l :=
  ⟨fun h ↦ ⟨h.use, h.named, h.round.trans hround, h.running, h.idle, hlives.mp h.alive⟩,
    fun h ↦ ⟨h.use, h.named, h.round.trans hround.symm, h.running, h.idle, hlives.mpr h.alive⟩⟩

/-! ## Channels that come, and subscriptions that begin -/

theorem Alike.live_iff (h : Alike w w') : w'.Live topic ↔ w.Live topic := by
  simp only [Live, h.listeners, lasts_iff_of h.round (h.broker.lives _ _)]

theorem Tidy.alike (h : Tidy w) (halike : Alike w w') : Tidy w' where
  apart := halike.listeners ▸ h.apart
  owned l hl := Nat.lt_of_lt_of_eq (h.owned l (halike.listeners ▸ hl)) halike.broker.length.symm
  begun l hl := halike.round ▸ h.begun l (halike.listeners ▸ hl)
  idle l hl := h.idle l (halike.listeners ▸ hl)
  bounded := halike.broker.bounded h.bounded

theorem Attaches.given_eq (h : Attaches w w' filter) : w'.given = w.given + 1 := by
  rw [given, h.channels, List.length_append, List.length_singleton]

/-- The new channel is alive, and nobody listens to it. -/
theorem Attaches.lives_iff (h : Attaches w w' filter) :
    w'.Lives n topic ↔ w.Lives n topic ∨ n = w.given ∧ filter = topic :=
  Broker.lives_append_iff h.channels

theorem Attaches.lives_iff_of_lt (h : Attaches w w' filter) (hn : n < w.given) :
    w'.Lives n topic ↔ w.Lives n topic := by
  rw [h.lives_iff]
  exact or_iff_left fun hnew ↦ Nat.ne_of_lt hn hnew.1

theorem Attaches.live_iff (h : Attaches w w' filter) (htidy : Tidy w) :
    w'.Live topic ↔ w.Live topic := by
  rw [Live, Live, h.listeners]
  refine exists_congr fun l ↦ and_congr_right fun hl ↦ ?_
  exact lasts_iff_of h.round (h.lives_iff_of_lt (htidy.owned l hl))

theorem Tidy.attaches (h : Tidy w) (hattaches : Attaches w w' filter) : Tidy w' where
  apart := hattaches.listeners ▸ h.apart
  owned l hl := by
    rw [hattaches.given_eq]
    exact Nat.lt_succ_of_lt (h.owned l (hattaches.listeners ▸ hl))
  begun l hl := hattaches.round ▸ h.begun l (hattaches.listeners ▸ hl)
  idle l hl := h.idle l (hattaches.listeners ▸ hl)
  bounded := h.bounded.append hattaches.channels

theorem Begins.given_eq (h : Begins w w' l) : w'.given = w.given :=
  congrArg List.length h.channels

theorem Begins.lives_iff (h : Begins w w' l) : w'.Lives n topic ↔ w.Lives n topic := by
  rw [Lives, Lives, Broker.Lives, Broker.Lives, h.channels]

/-- Who begins to listen to a channel that is alive makes its topic live. -/
theorem Begins.live_iff (h : Begins w w' l) : w'.Live topic ↔
    w.Live topic ∨ l.use = .responses ∧ l.filter = topic ∧ w.Lives l.channel topic := by
  simp only [Live, h.listeners, List.mem_append, List.mem_singleton, or_and_right, exists_or,
    exists_eq_left, lasts_iff_of h.round h.lives_iff]
  refine or_congr_right ⟨fun hl ↦ ⟨hl.use, hl.named, hl.alive⟩, ?_⟩
  rintro ⟨huse, hnamed, halive⟩
  exact ⟨huse, hnamed, h.begun, h.running, h.idle, halive⟩

theorem Tidy.begins (h : Tidy w) (hbegins : Begins w w' l)
    (hfree : ∀ l' ∈ w.listeners, l'.channel ≠ l.channel) (howned : l.channel < w.given) :
    Tidy w' where
  apart := by
    rw [hbegins.listeners, List.map_append]
    refine List.nodup_append.mpr ⟨h.apart, by simp, fun n hn n' hn' ↦ ?_⟩
    obtain ⟨l', hl', rfl⟩ := List.mem_map.mp hn
    rw [List.mem_singleton.mp hn']
    exact hfree l' hl'
  owned l' hl' := by
    rw [hbegins.given_eq]
    rcases List.mem_append.mp (hbegins.listeners ▸ hl') with hold | hnew
    · exact h.owned l' hold
    · exact List.mem_singleton.mp hnew ▸ howned
  begun l' hl' := by
    rw [hbegins.round]
    rcases List.mem_append.mp (hbegins.listeners ▸ hl') with hold | hnew
    · exact h.begun l' hold
    · exact List.mem_singleton.mp hnew ▸ Nat.le_of_eq hbegins.begun
  idle l' hl' huse := by
    rcases List.mem_append.mp (hbegins.listeners ▸ hl') with hold | hnew
    · exact h.idle l' hold huse
    · exact List.mem_singleton.mp hnew ▸ hbegins.idle
  bounded ch hch := h.bounded ch (hbegins.channels ▸ hch)

/-! ## What a disconnection ends -/

/-- In a later round no subscription of an earlier one lasts. -/
theorem Tidy.not_live_of_round (h : Tidy w) (hlisteners : w'.listeners = w.listeners)
    (hround : w.client.round < w'.client.round) : ¬ w'.Live topic := by
  rintro ⟨l, hl, hlasts⟩
  have hbegun := h.begun l (hlisteners ▸ hl)
  exact Nat.not_lt.mpr hbegun (hlasts.round ▸ hround)

/-- The first step of a disconnection. -/
def cancel (w : World) : World := w.setClient w.client.cancel

theorem round_cancel (w : World) : w.cancel.client.round = w.client.round + 1 :=
  w.client.round_cancel

theorem not_live_cancel (h : Tidy w) : ¬ w.cancel.Live topic :=
  h.not_live_of_round rfl (w.round_cancel ▸ Nat.lt_succ_self _)

theorem Tidy.cancel (h : Tidy w) : Tidy w.cancel where
  apart := h.apart
  owned l hl := Nat.lt_of_lt_of_eq (h.owned l hl) w.client.keeps_broker_cancel.length.symm
  begun l hl := by
    rw [round_cancel]
    exact Nat.le_succ_of_le (h.begun l hl)
  idle := h.idle
  bounded := w.client.keeps_broker_cancel.bounded h.bounded

/-- The bus can be left. -/
def CanLeave (w : World) : Prop := ∃ t, w.client.transport.disconnect = .ok t

instance (w : World) : Decidable w.CanLeave :=
  match hdisconnect : w.client.transport.disconnect with
  | .ok t => .isTrue ⟨t, hdisconnect⟩
  | .error _ => .isFalse fun ⟨_, hok⟩ ↦ by cases hdisconnect.symm.trans hok

/-- The second step of a disconnection takes all channels away, or fails and does nothing. -/
theorem leave_cases (w : World) (cancelled : Nat) :
    ¬ w.CanLeave ∧ (w.leave cancelled).1 = w ∨
      w.CanLeave ∧ ∃ t, (w.leave cancelled).1.client = { w.client with transport := t } ∧
        t.broker = w.client.transport.broker.disconnect ∧
        (w.leave cancelled).1.listeners = w.listeners := by
  cases hdisconnect : w.client.transport.disconnect with
  | error fault =>
      refine .inl ⟨fun ⟨_, hok⟩ ↦ (by simp [hdisconnect] at hok), ?_⟩
      rw [leave, Client.leave, hdisconnect]
      rfl
  | ok t =>
      refine .inr ⟨⟨t, hdisconnect⟩, t, ?_, Bus.Transport.disconnect_eq_ok hdisconnect, ?_⟩
      · rw [leave, Client.leave, hdisconnect]
        rfl
      · rw [leave, Client.leave, hdisconnect]
        rfl

theorem flag_leave (w : World) (cancelled : Nat) :
    (w.leave cancelled).1.responseSubscribed = w.responseSubscribed := by
  rw [leave, tryClient.eq_def]
  split <;> rfl

theorem not_lives_leave (h : w.CanLeave) (cancelled : Nat) :
    ¬ (w.leave cancelled).1.Lives n topic := by
  rcases w.leave_cases cancelled with ⟨hno, -⟩ | ⟨-, t, hclient, hbroker, -⟩
  · exact absurd h hno
  · rw [Lives, hclient]
    exact hbroker ▸ Broker.not_lives_disconnect _ topic

theorem not_live_leave (h : w.CanLeave) (cancelled : Nat) :
    ¬ (w.leave cancelled).1.Live topic := by
  rintro ⟨l, -, hlasts⟩
  exact not_lives_leave h cancelled hlasts.alive

theorem given_leave (w : World) (cancelled : Nat) : (w.leave cancelled).1.given = w.given := by
  rcases w.leave_cases cancelled with ⟨-, hsame⟩ | ⟨-, t, hclient, hbroker, -⟩
  · rw [hsame]
  · rw [given, hclient]
    exact (congrArg (·.channels.length) hbroker).trans (List.length_map _)

theorem Tidy.leave (h : Tidy w) (cancelled : Nat) : Tidy (w.leave cancelled).1 := by
  have hgiven := w.given_leave cancelled
  rcases w.leave_cases cancelled with ⟨-, hsame⟩ | ⟨-, t, hclient, hbroker, hlisteners⟩
  · rw [hsame]
    exact h
  · refine ⟨hlisteners ▸ h.apart, fun l hl ↦ ?_, fun l hl ↦ ?_, fun l hl ↦ ?_, ?_⟩
    · rw [hgiven]
      exact h.owned l (hlisteners ▸ hl)
    · rw [hclient]
      exact h.begun l (hlisteners ▸ hl)
    · exact h.idle l (hlisteners ▸ hl)
    · rw [hclient]
      exact hbroker ▸ h.bounded.disconnect

/-! ## Ends of subscriptions -/

theorem stopListener_snd (w : World) (l : Listener) :
    (w.stopListener l).2 = { l with stopped := true } := by
  rw [stopListener]
  split <;> rfl

theorem client_stopListener (w : World) (l : Listener) :
    (w.stopListener l).1.client = w.client.dropChannel l.channel := by
  rw [stopListener]
  split <;> rfl

theorem listeners_stopListener (w : World) (l : Listener) :
    (w.stopListener l).1.listeners = w.listeners := by
  rw [stopListener]
  split <;> rfl

theorem flag_stopListener (w : World) (l : Listener) :
    (w.stopListener l).1.responseSubscribed = w.responseSubscribed := by
  rw [stopListener]
  split <;> rfl

/-- The bench after the end of a subscription. -/
def stopped (w : World) (k : Nat) (l : Listener) : World :=
  { (w.stopListener l).1 with
    listeners := (w.stopListener l).1.listeners.set k (w.stopListener l).2 }

theorem map_channel_set {ls : List Listener} (hk : ls[k]? = some l) :
    (ls.set k { l with stopped := true }).map Listener.channel = ls.map Listener.channel := by
  obtain ⟨hlt, rfl⟩ := List.getElem?_eq_some_iff.mp hk
  have hlt' : k < (ls.map Listener.channel).length := by simpa using hlt
  have hself : ls[k].channel = (ls.map Listener.channel)[k] := (List.getElem_map _).symm
  rw [List.map_set, hself, List.set_getElem_self hlt']

theorem client_stopped (w : World) (k : Nat) (l : Listener) :
    (w.stopped k l).client = w.client.dropChannel l.channel :=
  client_stopListener w l

theorem listeners_stopped (w : World) (k : Nat) (l : Listener) :
    (w.stopped k l).listeners = w.listeners.set k { l with stopped := true } := by
  rw [stopped, listeners_stopListener, stopListener_snd]

theorem mem_set_of_ne {α : Type} {xs : List α} {x y z : α} (hk : xs[k]? = some x) (hy : y ∈ xs)
    (hne : x ≠ y) : y ∈ xs.set k z := by
  obtain ⟨j, hj⟩ := List.getElem?_of_mem hy
  have hkj : k ≠ j := fun heq ↦ hne (Option.some.inj (hk.symm.trans (heq ▸ hj)))
  exact List.mem_of_getElem? ((List.getElem?_set_ne hkj).trans hj)

/-- Two subscriptions have two channels. -/
theorem Tidy.channel_ne (h : Tidy w) (hl : l ∈ w.listeners) (hl' : l' ∈ w.listeners)
    (hne : l ≠ l') : l.channel ≠ l'.channel := fun heq ↦
  hne (List.inj_on_of_nodup_map h.apart hl hl' heq)

theorem lives_stopped_iff (w : World) (k : Nat) (hne : l.channel ≠ n) :
    (w.stopped k l).Lives n topic ↔ w.Lives n topic := by
  rw [Lives, client_stopped]
  exact Broker.lives_drop_iff_of_ne _ hne topic

theorem lives_of_stopped (h : (w.stopped k l).Lives n topic) : w.Lives n topic := by
  rw [Lives, client_stopped] at h
  exact Broker.lives_of_drop h

/-- The end of a subscription leaves all topics live that were so, if the subscription did not
last. -/
theorem Tidy.live_stopped_iff (h : Tidy w) (hk : w.listeners[k]? = some l)
    (hdead : ∀ topic, ¬ Lasts w topic l) : (w.stopped k l).Live topic ↔ w.Live topic := by
  have hround : (w.stopped k l).client.round = w.client.round := by
    rw [client_stopped]
    rfl
  rw [Live, Live, listeners_stopped]
  constructor
  · rintro ⟨l', hl', hlasts⟩
    rcases List.mem_or_eq_of_mem_set hl' with hold | rfl
    · exact ⟨l', hold, hlasts.use, hlasts.named, hlasts.round.trans hround, hlasts.running,
        hlasts.idle, lives_of_stopped hlasts.alive⟩
    · cases hlasts.running
  · rintro ⟨l', hl', hlasts⟩
    have hne : l ≠ l' := fun heq ↦ hdead topic (heq ▸ hlasts)
    have hchannel := h.channel_ne (List.mem_of_getElem? hk) hl' hne
    exact ⟨l', mem_set_of_ne hk hl' hne,
      (lasts_iff_of hround (lives_stopped_iff w k hchannel)).mpr hlasts⟩

theorem Tidy.stopped (h : Tidy w) (hk : w.listeners[k]? = some l) : Tidy (w.stopped k l) := by
  have hmem := List.mem_of_getElem? hk
  have hset : ∀ {l'}, l' ∈ (w.stopped k l).listeners →
      l' ∈ w.listeners ∨ l' = { l with stopped := true } := fun hl' ↦
    List.mem_or_eq_of_mem_set (w.listeners_stopped k l ▸ hl')
  refine ⟨?_, fun l' hl' ↦ ?_, fun l' hl' ↦ ?_, fun l' hl' huse ↦ ?_, ?_⟩
  · rw [listeners_stopped, map_channel_set hk]
    exact h.apart
  · rw [given, client_stopped, Client.dropChannel, Broker.drop, Broker.modify, List.length_modify]
    rcases hset hl' with hold | rfl
    · exact h.owned l' hold
    · exact h.owned l hmem
  · rw [client_stopped]
    rcases hset hl' with hold | rfl
    · exact h.begun l' hold
    · exact h.begun l hmem
  · rcases hset hl' with hold | rfl
    · exact h.idle l' hold huse
    · exact h.idle l hmem huse
  · rw [client_stopped]
    exact h.bounded.drop l.channel

/-! ## Runs of a subscription to responses -/

/-- A response is given to the waiters, and nothing is left to wait for. -/
theorem handle_responses (w : World) (huse : l.use = .responses) (m : Message) :
    ∃ events, w.handle l m = ((w.setClient (w.client.heed m)).note events, none) := by
  rw [handle, huse]
  dsimp only
  cases hdecoded : Bus.Envelope.ofBytes m.topic m.payload with
  | ok e => exact ⟨(w.client.deliverAll e).2, by rw [Client.heed_of_ok hdecoded]⟩
  | error e =>
      have hheed : w.client.heed m = w.client := by rw [Client.heed, hdecoded]
      exact ⟨[Client.undecodedEvent e], by rw [hheed]; rfl⟩

/-- The outcome of a run of a subscription. -/
def outcome (fuel : Nat) (w : World) (l : Listener) : World × Listener :=
  ((runListener fuel w l).1, (runListener fuel w l).2.1)

/-- One step of a run: the subscription ends, or has nothing to do, or heeds a message. -/
theorem outcome_succ (w : World) (fuel : Nat) (huse : l.use = .responses)
    (hidle : l.task = none) (hrunning : l.stopped = false) :
    ((w.isCancelled l = true ∨ w.client.transport.broker.isOver l.channel = true) ∧
        outcome (fuel + 1) w l = w.stopListener l) ∨
      (w.client.receive l.channel = none ∧ outcome (fuel + 1) w l = (w, l)) ∨
      ∃ m c events, w.client.receive l.channel = some (m, c) ∧
        outcome (fuel + 1) w l = outcome fuel ((w.setClient (c.heed m)).note events) l := by
  simp only [outcome, runListener, hrunning, hidle, Bool.false_eq_true, if_false]
  split
  · rename_i hcancelled
    exact .inl ⟨.inl hcancelled, rfl⟩
  · split
    · rename_i m c hreceive
      obtain ⟨events, hhandle⟩ := (w.setClient c).handle_responses huse m
      have hkept : (⟨l.filter, l.channel, l.round, l.use, none, false⟩ : Listener) = l := by
        rw [← hidle, ← hrunning]
      rw [hhandle, hkept]
      exact .inr (.inr ⟨m, c, events, hreceive, rfl⟩)
    · rename_i hreceive
      split
      · rename_i hover
        exact .inl ⟨.inr hover, rfl⟩
      · exact .inr (.inl ⟨hreceive, rfl⟩)

/-- A run heeds messages, and may end the subscription when it was cancelled or is over. -/
theorem outcome_cases (w : World) (fuel : Nat) (huse : l.use = .responses)
    (hidle : l.task = none) :
    ∃ w₁, Keeps w w₁ ∧ (outcome fuel w l = (w₁, l) ∨
      outcome fuel w l = w₁.stopListener l ∧
        (w₁.isCancelled l = true ∨ w₁.client.transport.broker.isOver l.channel = true)) := by
  cases hrunning : l.stopped with
  | true =>
      refine ⟨w, .refl w, .inl ?_⟩
      cases fuel with
      | zero => rfl
      | succ fuel => simp [outcome, runListener, hrunning]
  | false =>
      induction fuel generalizing w with
      | zero => exact ⟨w, .refl w, .inl rfl⟩
      | succ fuel ih =>
          rcases w.outcome_succ fuel huse hidle hrunning with
            ⟨hends, houtcome⟩ | ⟨-, houtcome⟩ | ⟨m, c, events, hreceive, houtcome⟩
          · exact ⟨w, .refl w, .inr ⟨houtcome, hends⟩⟩
          · exact ⟨w, .refl w, .inl houtcome⟩
          · obtain ⟨w₁, hkeeps, hcases⟩ := ih ((w.setClient (c.heed m)).note events)
            have hclient : Client.Keeps w.client (c.heed m) :=
              (Client.keeps_receive hreceive).trans (c.keeps_heed m)
            refine ⟨w₁, (keeps_setClient hclient).trans ((keeps_note _ events).trans hkeeps), ?_⟩
            rwa [houtcome]

/-- A subscription that lasts does not end. -/
theorem Lasts.goes_on (h : Lasts w topic l) :
    w.isCancelled l = false ∧ w.client.transport.broker.isOver l.channel = false := by
  obtain ⟨ch, hch, -, halive⟩ := h.alive
  constructor
  · rw [isCancelled, h.use]
    simp [h.round]
  · rw [Broker.isOver, hch]
    simp [halive.attached]

/-- The bench after a run of the subscription at `k`. -/
theorem runListeners_one (w : World) (hk : w.listeners[k]? = some l) :
    (runListeners 1 k w).1 = { (outcome listenerFuel w l).1 with
      listeners := (outcome listenerFuel w l).1.listeners.set k (outcome listenerFuel w l).2 } := by
  simp [runListeners, hk, outcome]

/-- A run of a subscription to responses may end it, but only when it does not last. -/
theorem Tidy.listen_cases (h : Tidy w) (hk : w.listeners[k]? = some l)
    (huse : l.use = .responses) :
    ∃ w₁, Keeps w w₁ ∧ ((runListeners 1 k w).1 = w₁ ∨
      (runListeners 1 k w).1 = w₁.stopped k l ∧ ∀ topic, ¬ Lasts w₁ topic l) := by
  have hidle := h.idle l (List.mem_of_getElem? hk) huse
  obtain ⟨w₁, hkeeps, hcases⟩ := w.outcome_cases listenerFuel huse hidle
  refine ⟨w₁, hkeeps, ?_⟩
  rw [runListeners_one w hk]
  rcases hcases with houtcome | ⟨houtcome, hends⟩
  · have hk₁ : w₁.listeners[k]? = some l := hkeeps.listeners ▸ hk
    have hset : w₁.listeners.set k l = w₁.listeners := by
      obtain ⟨hlt, rfl⟩ := List.getElem?_eq_some_iff.mp hk₁
      exact List.set_getElem_self hlt
    refine .inl ?_
    rw [houtcome]
    show { w₁ with listeners := w₁.listeners.set k l } = w₁
    rw [hset]
  · rw [houtcome]
    refine .inr ⟨rfl, fun topic hlasts ↦ ?_⟩
    obtain ⟨hcancelled, hover⟩ := hlasts.goes_on
    simp [hcancelled, hover] at hends

/-! ## What passes by -/

/-- The bus has given the channel, and nobody listens to it yet. -/
structure Free (w : World) (n : Nat) : Prop where
  given : n < w.given
  unheard : ∀ l ∈ w.listeners, l.channel ≠ n

/-- No topic becomes live, and none ceases to be; nobody listens to a channel that was free. -/
structure Passes (w w' : World) : Prop where
  tidy : Tidy w'
  live : ∀ topic, w'.Live topic ↔ w.Live topic
  free : ∀ n, w.Free n → w'.Free n
  lives : ∀ n topic, w.Free n → (w'.Lives n topic ↔ w.Lives n topic)

theorem Tidy.passes_refl (h : Tidy w) : Passes w w :=
  ⟨h, fun _ ↦ .rfl, fun _ ↦ id, fun _ _ _ ↦ .rfl⟩

theorem Passes.trans (h : Passes w w') (h' : Passes w' w'') : Passes w w'' where
  tidy := h'.tidy
  live topic := (h'.live topic).trans (h.live topic)
  free n hn := h'.free n (h.free n hn)
  lives n topic hn := (h'.lives n topic (h.free n hn)).trans (h.lives n topic hn)

theorem Tidy.passes_alike (h : Tidy w) (halike : Alike w w') : Passes w w' where
  tidy := h.alike halike
  live _ := halike.live_iff
  free _ hn := ⟨Nat.lt_of_lt_of_eq hn.given halike.broker.length.symm,
    fun l hl ↦ hn.unheard l (halike.listeners ▸ hl)⟩
  lives n topic _ := halike.broker.lives n topic

theorem Tidy.passes_joins (h : Tidy w) (hjoins : Joins w w' l) : Passes w w' := by
  obtain ⟨w₁, hattaches, hbegins⟩ := hjoins.attaches
  have hchannel := hjoins.channel
  have htidy := h.attaches hattaches
  have howned : l.channel < w₁.given := by
    rw [hattaches.given_eq, hchannel]
    exact Nat.lt_succ_self _
  refine ⟨htidy.begins hbegins (fun l' hl' ↦ ?_) howned, fun topic ↦ ?_, fun n hn ↦ ?_,
    fun n topic hn ↦ ?_⟩
  · rw [hchannel]
    exact Nat.ne_of_lt (h.owned l' (hattaches.listeners ▸ hl'))
  · rw [hbegins.live_iff, hattaches.live_iff h]
    exact or_iff_left fun hnew ↦ hjoins.use hnew.1
  · refine ⟨?_, fun l' hl' ↦ ?_⟩
    · rw [hbegins.given_eq, hattaches.given_eq]
      exact Nat.lt_succ_of_lt hn.given
    · rcases List.mem_append.mp (hbegins.listeners ▸ hl') with hold | hnew
      · exact hn.unheard l' (hattaches.listeners ▸ hold)
      · rw [List.mem_singleton.mp hnew, hchannel]
        exact (Nat.ne_of_lt hn.given).symm
  · rw [hbegins.lives_iff, hattaches.lives_iff_of_lt hn.given]

theorem Tidy.passes_stopped (h : Tidy w) (hk : w.listeners[k]? = some l)
    (hdead : ∀ topic, ¬ Lasts w topic l) : Passes w (w.stopped k l) := by
  have hmem := List.mem_of_getElem? hk
  refine ⟨h.stopped hk, fun topic ↦ h.live_stopped_iff hk hdead, fun n hn ↦ ⟨?_, fun l' hl' ↦ ?_⟩,
    fun n topic hn ↦ lives_stopped_iff w k (hn.unheard l hmem)⟩
  · rw [given, client_stopped, Client.dropChannel, Broker.drop, Broker.modify, List.length_modify]
    exact hn.given
  · rcases List.mem_or_eq_of_mem_set (w.listeners_stopped k l ▸ hl') with hold | rfl
    · exact hn.unheard l' hold
    · exact hn.unheard l hmem

/-! ## The way of a response to the waiters -/

/-- The subscription lasts, on that channel. -/
structure Listens (w : World) (topic : String) (l : Listener) (ch : Channel) : Prop where
  lasts : Lasts w topic l
  channel : w.client.transport.broker.channels[l.channel]? = some ch

theorem Lasts.listens (h : Lasts w topic l) : ∃ ch, Listens w topic l ch := by
  obtain ⟨ch, hch, -⟩ := h.alive
  exact ⟨ch, h, hch⟩

theorem Listens.alive (h : Listens w topic l ch) : ch.filter = topic ∧ ch.Alive := by
  obtain ⟨ch', hch', halive⟩ := h.lasts.alive
  rw [h.channel] at hch'
  exact Option.some.inj hch' ▸ halive

theorem Lasts.keeps (h : Lasts w topic l) (hkeeps : Keeps w w') : Lasts w' topic l :=
  (lasts_iff_of hkeeps.client.round (hkeeps.client.broker.lives _ _)).mpr h

/-- A subscription lasts past its oldest message. -/
theorem Listens.past (h : Listens w topic l ch) {later : List Message}
    (hunread : ch.unread = m :: later) :
    ∃ t, w.client.receive l.channel = some (m, { w.client with transport := t }) ∧
      ∀ events, Listens ((w.setClient ({ w.client with transport := t }.heed m)).note events)
        topic l { ch with unread := later } := by
  have hreceive := Broker.receive_cons h.channel hunread
  generalize hbroker : w.client.transport.broker.modify l.channel _ = broker at hreceive
  have htaken : w.client.receive l.channel =
      some (m, { w.client with transport := { w.client.transport with broker } }) := by
    rw [Client.receive, hreceive]
    rfl
  have hkeeps := (Client.keeps_receive htaken).trans (Client.keeps_heed _ m)
  refine ⟨_, htaken, fun events ↦ ?_⟩
  refine ⟨h.lasts.keeps ((keeps_setClient hkeeps).trans (keeps_note _ events)), ?_⟩
  rw [note, setClient, Client.transport_heed, ← hbroker]
  simp [Broker.modify, h.channel]

/-- A subscription that lasts heeds all its messages, in the order in which they came. -/
theorem Listens.client_outcome {ms : List Message} {fuel : Nat} (h : Listens w topic l ch)
    (hunread : ch.unread = ms) (hfuel : ms.length < fuel) :
    ∃ t, (outcome fuel w l).1.client = { ms.foldl Client.heed w.client with transport := t } := by
  induction ms generalizing w ch fuel with
  | nil =>
      obtain ⟨fuel, rfl⟩ := Nat.exists_eq_add_one_of_ne_zero (Nat.ne_of_gt hfuel)
      rcases w.outcome_succ fuel h.lasts.use h.lasts.idle h.lasts.running with
        ⟨hends, -⟩ | ⟨-, houtcome⟩ | ⟨m, c, events, hreceive, -⟩
      · obtain ⟨hcancelled, hover⟩ := h.lasts.goes_on
        simp [hcancelled, hover] at hends
      · exact ⟨w.client.transport, by rw [houtcome]; rfl⟩
      · rw [Client.receive, Bus.Broker.receive_nil h.channel hunread] at hreceive
        cases hreceive
  | cons m ms ih =>
      have hpositive := Nat.zero_lt_of_lt hfuel
      obtain ⟨fuel, rfl⟩ := Nat.exists_eq_add_one_of_ne_zero (Nat.ne_of_gt hpositive)
      obtain ⟨t, hreceive, hlistens⟩ := h.past hunread
      rcases w.outcome_succ fuel h.lasts.use h.lasts.idle h.lasts.running with
        ⟨hends, -⟩ | ⟨hnone, -⟩ | ⟨m', c, events, hreceive', houtcome⟩
      · obtain ⟨hcancelled, hover⟩ := h.lasts.goes_on
        simp [hcancelled, hover] at hends
      · simp [hreceive] at hnone
      · cases hreceive.symm.trans hreceive'
        obtain ⟨t', hclient⟩ := ih (hlistens events) rfl (Nat.lt_of_succ_lt_succ hfuel)
        refine ⟨t', ?_⟩
        rw [houtcome, hclient, List.foldl_cons]
        simp only [note, setClient, Client.heed_transport, Client.foldl_heed_transport]

/-- A subscription lasts when a message is published. -/
theorem Listens.broadcast (h : Listens w topic l ch) (m : Message)
    (hconnected : w.client.isConnected) :
    ∃ t, (w.broadcast m.topic m.payload).1.client = { w.client with transport := t } ∧
      Listens (w.broadcast m.topic m.payload).1 topic l (ch.offer m) := by
  have hlasts := h.lasts.keeps (w.keeps_broadcast m.topic m.payload)
  have hpublish : w.client.transport.broker.publish ⟨m.topic, m.payload⟩ = .ok _ :=
    if_pos hconnected
  rw [World.broadcast, hpublish] at hlasts ⊢
  exact ⟨_, rfl, hlasts, by simp [note, Broker.dispatch, h.channel]⟩

/-- What is published goes to the waiters, behind the messages that lie in the channel. -/
theorem Listens.heeds (h : Listens w topic l ch) (hbounded : w.client.transport.broker.Bounded)
    (htopic : Bus.topicMatches topic m.topic) (hconnected : w.client.isConnected) :
    ∃ t, (outcome listenerFuel (w.broadcast m.topic m.payload).1 l).1.client =
      { (ch.behind m).foldl Client.heed w.client with transport := t } := by
  obtain ⟨hfilter, halive⟩ := h.alive
  obtain ⟨t, hclient, hlistens⟩ := h.broadcast m hconnected
  have hunread := halive.unread_offer (hfilter ▸ htopic)
  have hfuel : (ch.behind m).length < listenerFuel := by
    have hlength := (ch.keeps_offer m).bounded (hbounded ch (List.mem_of_getElem? h.channel))
    rw [hunread] at hlength
    exact Nat.lt_of_le_of_lt hlength (by decide)
  obtain ⟨t', houtcome⟩ := hlistens.client_outcome hunread hfuel
  exact ⟨t', by rw [houtcome, hclient, Client.foldl_heed_transport]⟩

/-- The topic is live, and what is published on it goes to the waiters, behind the messages that lie
in the channel; only what finds the channel full is lost. -/
def Hears (w : World) (topic : String) : Prop :=
  ∃ l ∈ w.listeners, ∃ ch, Listens w topic l ch ∧
    ∀ m, Bus.topicMatches topic m.topic → w.client.isConnected →
      ∃ t, (outcome listenerFuel (w.broadcast m.topic m.payload).1 l).1.client =
        { (ch.behind m).foldl Client.heed w.client with transport := t }

theorem Tidy.hears_iff (h : Tidy w) : w.Hears topic ↔ w.Live topic := by
  constructor
  · rintro ⟨l, hl, ch, hlistens, -⟩
    exact ⟨l, hl, hlistens.lasts⟩
  · rintro ⟨l, hl, hlasts⟩
    obtain ⟨ch, hlistens⟩ := hlasts.listens
    exact ⟨l, hl, ch, hlistens, fun m htopic ↦ hlistens.heeds h.bounded htopic⟩

end BleBridge.Bench.World
