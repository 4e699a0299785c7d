import BleBridge.Proofs.Bus.Waiters

/-!
# Channels that stay

A channel that is attached and listened to gets the messages for it: it is alive.
Of all that a client and its bus do, only a subscription makes a channel alive, and
only a disconnection and the end of a subscription take that away again; everything
else leaves it as it is (`Client.Keeps`).  What comes through the channel of a
response subscription goes to the waiters (`Client.heed`), on a way that does not
touch the bus.
-/

namespace BleBridge.Bus

/-- A channel that gets the messages for it. -/
structure Channel.Alive (ch : Channel) : Prop where
  attached : ch.attached = true
  listening : ch.listening = true

namespace Channel

variable {ch : Channel}

/-- The channel is asked for the same topic and as much alive as before, and holds too many messages
only if it did. -/
structure Keeps (ch ch' : Channel) : Prop where
  filter : ch'.filter = ch.filter
  alive : ch'.Alive ↔ ch.Alive
  bounded : ch.unread.length ≤ channelCapacity → ch'.unread.length ≤ channelCapacity

theorem Keeps.refl (ch : Channel) : Keeps ch ch := ⟨rfl, .rfl, id⟩

theorem alive_iff_of_eq {ch' : Channel} (hattached : ch'.attached = ch.attached)
    (hlistening : ch'.listening = ch.listening) : ch'.Alive ↔ ch.Alive :=
  ⟨fun h ↦ ⟨hattached ▸ h.attached, hlistening ▸ h.listening⟩,
    fun h ↦ ⟨hattached ▸ h.attached, hlistening ▸ h.listening⟩⟩

theorem keeps_offer (m : Message) (ch : Channel) : Keeps ch (ch.offer m) := by
  rw [offer]
  split
  · rename_i htakes
    refine ⟨rfl, alive_iff_of_eq rfl rfl, fun _ ↦ ?_⟩
    simp only [takes, isFull, Bool.and_eq_true, Bool.not_eq_true', decide_eq_false_iff_not,
      Nat.not_le] at htakes
    rw [List.length_append, List.length_singleton]
    exact htakes.2
  · split
    · exact .refl ch
    · rename_i hdeaf
      exact ⟨rfl, ⟨fun h ↦ absurd h.listening hdeaf, fun h ↦ absurd h.listening hdeaf⟩, id⟩

/-- What lies in the channel once a message for it has come: one for which there is no room is
lost. -/
def behind (ch : Channel) (m : Message) : List Message :=
  if ch.isFull then ch.unread else ch.unread ++ [m]

theorem Alive.unread_offer (h : ch.Alive) {m : Message} (htopic : topicMatches ch.filter m.topic) :
    (ch.offer m).unread = ch.behind m := by
  rw [offer, behind]
  cases hfull : ch.isFull with
  | true =>
      have hrefuses : ¬ ch.takes m := by simp [takes, hfull]
      rw [if_neg hrefuses, if_pos h.listening, if_pos rfl]
  | false =>
      have htakes : ch.takes m := by simp [takes, hfull, h.attached, h.listening, htopic]
      rw [if_pos htakes, if_neg Bool.false_ne_true]

end Channel

/-! ## Brokers -/

namespace Broker

variable {b b' b'' : Broker} {n m : Nat} {ch : Channel}

/-- The channel of that number gets the messages for the topic it was asked for. -/
def Lives (b : Broker) (n : Nat) (topic : String) : Prop :=
  ∃ ch, b.channels[n]? = some ch ∧ ch.filter = topic ∧ ch.Alive

/-- No channel holds too many messages. -/
def Bounded (b : Broker) : Prop := ∀ ch ∈ b.channels, ch.unread.length ≤ channelCapacity

/-- No channel comes or goes, and the same ones are alive. -/
structure Keeps (b b' : Broker) : Prop where
  length : b'.channels.length = b.channels.length
  lives : ∀ n topic, b'.Lives n topic ↔ b.Lives n topic
  bounded : b.Bounded → b'.Bounded

theorem Keeps.refl (b : Broker) : Keeps b b := ⟨rfl, fun _ _ ↦ .rfl, id⟩

theorem Keeps.trans (h : Keeps b b') (h' : Keeps b' b'') : Keeps b b'' :=
  ⟨h'.length.trans h.length, fun n topic ↦ (h'.lives n topic).trans (h.lives n topic),
    h'.bounded ∘ h.bounded⟩

theorem keeps_of_eq (h : b'.channels = b.channels) : Keeps b b' :=
  ⟨congrArg List.length h, fun n topic ↦ by rw [Lives, Lives, h], fun hb ch hch ↦ hb ch (h ▸ hch)⟩

theorem keeps_of_map {f : Nat → Channel → Channel}
    (hmap : ∀ n, b'.channels[n]? = b.channels[n]?.map (f n))
    (hlength : b'.channels.length = b.channels.length)
    (hf : ∀ n ch, b.channels[n]? = some ch → Channel.Keeps ch (f n ch)) : Keeps b b' := by
  refine ⟨hlength, fun n topic ↦ ?_, fun hbounded ch' hch' ↦ ?_⟩
  · rw [Lives, Lives, hmap]
    constructor
    · rintro ⟨_, hn, hfilter, halive⟩
      obtain ⟨ch, hch, rfl⟩ := Option.map_eq_some_iff.mp hn
      have hkeeps := hf n ch hch
      exact ⟨ch, hch, hkeeps.filter.symm.trans hfilter, hkeeps.alive.mp halive⟩
    · rintro ⟨ch, hch, hfilter, halive⟩
      have hkeeps := hf n ch hch
      exact ⟨f n ch, by rw [hch]; rfl, hkeeps.filter.trans hfilter, hkeeps.alive.mpr halive⟩
  · obtain ⟨n, hn⟩ := List.getElem?_of_mem hch'
    obtain ⟨ch, hch, rfl⟩ := Option.map_eq_some_iff.mp ((hmap n).symm.trans hn)
    exact (hf n ch hch).bounded (hbounded ch (List.mem_of_getElem? hch))

theorem keeps_dispatch (b : Broker) (m : Message) : Keeps b (b.dispatch m) :=
  keeps_of_map (fun _ ↦ List.getElem?_map) (List.length_map _) fun _ ch _ ↦ ch.keeps_offer m

theorem keeps_publish {m : Message} {events : List Event} (h : b.publish m = .ok (b', events)) :
    Keeps b b' := by
  rw [publish] at h
  split at h
  · cases h
    have hnoted : Keeps b { b with history := b.history ++ [m] } := keeps_of_eq rfl
    exact hnoted.trans (keeps_dispatch _ m)
  · cases h

theorem keeps_receive {m : Message} (h : b.receive n = some (m, b')) : Keeps b b' := by
  rw [receive] at h
  split at h
  · rename_i hunread
    cases h
    refine keeps_of_map (fun _ ↦ List.getElem?_modify ..) (List.length_modify ..) fun k ch hk ↦ ?_
    split
    · rename_i hnk
      rw [hnk, hk] at hunread
      have hunread' : ch.unread = _ := Option.some.inj hunread
      refine ⟨rfl, Channel.alive_iff_of_eq rfl rfl, fun hbounded ↦ ?_⟩
      rw [hunread', List.length_cons] at hbounded
      exact Nat.le_of_succ_le hbounded
    · exact .refl ch
  · cases h

/-- The channels of a broker with a new one: that one is alive, and the others stay as they are. -/
theorem lives_append_iff {filter topic : String}
    (h : b'.channels = b.channels ++ [⟨filter, [], true, true⟩]) :
    b'.Lives n topic ↔ b.Lives n topic ∨ n = b.channels.length ∧ filter = topic := by
  rw [Lives, Lives, h]
  rcases Nat.lt_trichotomy n b.channels.length with hlt | rfl | hgt
  · rw [List.getElem?_append_left hlt]
    simp [Nat.ne_of_lt hlt]
  · simp only [List.getElem?_concat_length, Option.some.injEq, exists_eq_left', true_and,
      List.getElem?_eq_none (Nat.le_refl _), reduceCtorEq, false_and, exists_false, false_or,
      and_iff_left_iff_imp]
    exact fun _ ↦ ⟨rfl, rfl⟩
  · have hbehind : b.channels.length + 1 ≤ n := hgt
    rw [List.getElem?_eq_none (Nat.le_of_lt hgt), List.getElem?_eq_none (by simpa using hbehind)]
    simp [Nat.ne_of_gt hgt]

theorem Bounded.append {filter : String} (h : b.Bounded)
    (hchannels : b'.channels = b.channels ++ [⟨filter, [], true, true⟩]) : b'.Bounded := by
  intro ch hch
  rw [hchannels, List.mem_append, List.mem_singleton] at hch
  rcases hch with hold | rfl
  · exact h ch hold
  · exact Nat.zero_le _

/-- Behind a disconnection no channel is alive. -/
theorem not_lives_disconnect (b : Broker) (topic : String) : ¬ b.disconnect.Lives n topic := by
  rintro ⟨ch, hn, -, halive⟩
  rw [disconnect, List.getElem?_map] at hn
  obtain ⟨_, -, rfl⟩ := Option.map_eq_some_iff.mp hn
  cases halive.attached

theorem Bounded.disconnect (h : b.Bounded) : b.disconnect.Bounded := by
  intro ch hch
  obtain ⟨ch, hold, rfl⟩ := List.mem_map.mp hch
  exact h ch hold

theorem Bounded.drop (h : b.Bounded) (m : Nat) : (b.drop m).Bounded := by
  intro ch hch
  obtain ⟨n, hn⟩ := List.getElem?_of_mem hch
  rw [Broker.drop, modify, List.getElem?_modify] at hn
  obtain ⟨ch, hold, rfl⟩ := Option.map_eq_some_iff.mp hn
  have hbounded := h ch (List.mem_of_getElem? hold)
  split <;> exact hbounded

theorem lives_drop_iff_of_ne (b : Broker) (h : m ≠ n) (topic : String) :
    (b.drop m).Lives n topic ↔ b.Lives n topic := by
  have hchannel : (b.drop m).channels[n]? = b.channels[n]? := by simp [drop, modify, h]
  rw [Lives, Lives, hchannel]

theorem lives_of_drop {topic : String} (h : (b.drop m).Lives n topic) : b.Lives n topic := by
  obtain ⟨_, hn, hfilter, halive⟩ := h
  rw [drop, modify, List.getElem?_modify] at hn
  obtain ⟨ch, hch, rfl⟩ := Option.map_eq_some_iff.mp hn
  refine ⟨ch, hch, ?_⟩
  split at halive
  · cases halive.listening
  · rename_i hne
    rw [if_neg hne] at hfilter
    exact ⟨hfilter, halive⟩

theorem receive_nil (hn : b.channels[n]? = some ch) (hunread : ch.unread = []) :
    b.receive n = none := by
  simp [receive, hn, hunread]

theorem receive_cons {msg : Message} {later : List Message} (hn : b.channels[n]? = some ch)
    (hunread : ch.unread = msg :: later) :
    b.receive n = some (msg, b.modify n fun ch ↦ { ch with unread := later }) := by
  simp [receive, hn, hunread]

end Broker

/-! ## Transports -/

namespace Transport

variable {t t' : Transport}

theorem keeps_publish {m : Message} {events : List Event} (h : t.publish m = .ok (t', events)) :
    Broker.Keeps t.broker t'.broker := by
  rw [publish] at h
  split at h
  · cases h
  · cases hpublish : t.broker.publish m with
    | error fault =>
        rw [hpublish] at h
        cases h
    | ok published =>
        rw [hpublish] at h
        cases h
        exact Broker.keeps_publish hpublish

theorem keeps_connect (h : t.connect = .ok t') : Broker.Keeps t.broker t'.broker := by
  rw [connect] at h
  split at h
  · cases h
  · cases h
    exact Broker.keeps_of_eq rfl

theorem disconnect_eq_ok (h : t.disconnect = .ok t') : t'.broker = t.broker.disconnect := by
  rw [disconnect] at h
  split at h
  · cases h
  · cases h
    rfl

/-- A subscription gets a channel of its own, behind all others. -/
theorem subscribe_eq_ok {filter : String} {channel : Nat}
    (h : t.subscribe filter = .ok (t', channel)) :
    channel = t.broker.channels.length ∧ t'.broker =
      { t.broker with channels := t.broker.channels ++ [⟨filter, [], true, true⟩] } := by
  rw [subscribe] at h
  split at h
  · cases h
  · rw [Broker.subscribe] at h
    split at h
    · cases h
      exact ⟨rfl, rfl⟩
    · cases h

end Transport

/-! ## Clients -/

namespace Client

variable {c c' c'' : Client} {topic : String} {e : Envelope}

/-- No subscription of the client is touched. -/
structure Keeps (c c' : Client) : Prop where
  broker : Broker.Keeps c.transport.broker c'.transport.broker
  round : c'.round = c.round
  topics : c'.responseTopics = c.responseTopics

theorem Keeps.refl (c : Client) : Keeps c c := ⟨.refl _, rfl, rfl⟩

theorem Keeps.trans (h : Keeps c c') (h' : Keeps c' c'') : Keeps c c'' :=
  ⟨h.broker.trans h'.broker, h'.round.trans h.round, h'.topics.trans h.topics⟩

theorem keeps_of_eq (htransport : c'.transport = c.transport) (hround : c'.round = c.round)
    (htopics : c'.responseTopics = c.responseTopics) : Keeps c c' :=
  ⟨htransport ▸ .refl _, hround, htopics⟩

theorem keeps_setSlot (c : Client) (ticket : Nat) (s : Slot) : Keeps c (c.setSlot ticket s) :=
  keeps_of_eq rfl rfl rfl

theorem keeps_dropSlot (c : Client) (ticket : Nat) : Keeps c (c.dropSlot ticket) := by
  rw [dropSlot]
  split
  · exact keeps_setSlot c ticket _
  · exact .refl c

theorem keeps_unregister (c : Client) (id : String) : Keeps c (c.unregister id) := by
  rw [unregister]
  split
  · have hwithout : Keeps c (c.withoutWaiter id) := keeps_of_eq rfl rfl rfl
    exact hwithout.trans (keeps_dropSlot _ _)
  · exact .refl c

theorem keeps_register (c : Client) (id : String) (ticket : Nat) :
    Keeps c (c.register id ticket) :=
  (keeps_unregister c id).trans (keeps_of_eq rfl rfl rfl)

theorem keeps_publish {events : List Event} (h : c.publish topic e = .ok (c', events)) :
    Keeps c c' := by
  obtain ⟨transport, told, hpublish, rfl⟩ := exists_of_publish h
  exact ⟨Transport.keeps_publish hpublish, rfl, rfl⟩

theorem keeps_advance (c : Client) (r : Request) (now : Millis) :
    Keeps c (c.advance r now).1 := by
  have hfinished : ∀ (c : Client), Keeps c (c.setSlot r.ticket .left) := fun c ↦
    keeps_setSlot c r.ticket .left
  rw [advance]
  split
  · split <;> exact .refl c
  · exact keeps_register c _ _
  · split
    · rename_i hpublish
      exact keeps_publish hpublish
    · exact (keeps_unregister c _).trans (hfinished _)
  · split
    · exact hfinished c
    · exact hfinished c
    · split
      · exact (hfinished c).trans (keeps_of_eq rfl rfl rfl)
      · exact .refl c
    · split
      · exact (hfinished c).trans (keeps_of_eq rfl rfl rfl)
      · exact .refl c
  · exact .refl c

theorem keeps_deliver (c : Client) (d : Delivery) : Keeps c (c.deliver d).1 := by
  cases d with
  | arrived e =>
      rw [deliver]
      split <;> exact .refl c
  | unanswered e =>
      rw [deliver]
      split
      · exact keeps_of_eq rfl rfl rfl
      · exact .refl c
  | taken e ticket => exact keeps_of_eq rfl rfl rfl
  | noted e ticket =>
      rw [deliver]
      split
      · exact keeps_setSlot c ticket _
      · exact .refl c
  | done => exact .refl c

theorem keeps_deliverAll (c : Client) (e : Envelope) : Keeps c (c.deliverAll e).1 := by
  have h₁ := keeps_deliver c (.arrived e)
  rw [deliverAll]
  generalize c.deliver (.arrived e) = step at h₁ ⊢
  obtain ⟨c₁, d₁, e₁⟩ := step
  have h₂ := keeps_deliver c₁ d₁
  dsimp only at h₁ ⊢
  generalize c₁.deliver d₁ = step at h₂ ⊢
  obtain ⟨c₂, d₂, e₂⟩ := step
  have h₃ := keeps_deliver c₂ d₂
  dsimp only at h₂ ⊢
  generalize c₂.deliver d₂ = step at h₃ ⊢
  obtain ⟨c₃, d₃, e₃⟩ := step
  exact h₁.trans (h₂.trans (h₃.trans (keeps_deliver c₃ d₃)))

theorem keeps_foldl {α : Type} {f : Client → α → Client} (hf : ∀ c x, Keeps c (f c x))
    (xs : List α) (c : Client) : Keeps c (xs.foldl f c) := by
  induction xs generalizing c with
  | nil => exact .refl c
  | cons x xs ih => exact (hf c x).trans (ih _)

theorem keeps_endGraces (c : Client) (now : Millis) : Keeps c (c.endGraces now) := by
  have hended : Keeps c { c with graces := c.graces.filter (now < ·.2) } :=
    keeps_of_eq rfl rfl rfl
  exact hended.trans (keeps_foldl (fun c (g : String × Millis) ↦ keeps_unregister c g.1) _ _)

theorem keeps_connect {events : List Event} (h : c.connect = .ok (c', events)) : Keeps c c' := by
  rw [connect] at h
  cases hconnect : c.transport.connect with
  | error fault =>
      rw [hconnect] at h
      cases h
  | ok transport =>
      rw [hconnect] at h
      cases h
      exact ⟨Transport.keeps_connect hconnect, rfl, rfl⟩

theorem keeps_receive {channel : Nat} {m : Message} (h : c.receive channel = some (m, c')) :
    Keeps c c' := by
  obtain ⟨⟨m', broker⟩, hreceive, heq⟩ := Option.map_eq_some_iff.mp h
  cases heq
  exact ⟨Broker.keeps_receive hreceive, rfl, rfl⟩

/-- A subscription changes the client by a channel of its bus only. -/
theorem exists_of_subscribe {channel : Nat} {events : List Event}
    (h : c.subscribe topic = .ok (c', channel, events)) :
    ∃ transport, c.transport.subscribe topic = .ok (transport, channel) ∧
      c' = { c with transport } := by
  rw [subscribe] at h
  cases hconnected : c.ensureConnected with
  | error fault =>
      rw [hconnected] at h
      cases h
  | ok _ =>
      rw [hconnected] at h
      cases hsubscribe : c.transport.subscribe topic with
      | error fault =>
          rw [hsubscribe] at h
          cases h
      | ok subscribed =>
          rw [hsubscribe] at h
          cases h
          exact ⟨_, rfl, rfl⟩

/-! ## Disconnections -/

/-- To give up all subscriptions touches no channel; a new round begins. -/
theorem keeps_broker_cancel (c : Client) :
    Broker.Keeps c.transport.broker c.cancel.transport.broker :=
  (keeps_foldl (fun c (w : String × Nat) ↦ keeps_dropSlot c w.2) c.waiters c).broker

theorem round_cancel (c : Client) : c.cancel.round = c.round + 1 :=
  congrArg (· + 1) (keeps_foldl (fun c (w : String × Nat) ↦ keeps_dropSlot c w.2) c.waiters c).round

/-! ## Messages -/

/-- A message of a response subscription goes to the waiters. -/
def heed (c : Client) (m : Message) : Client :=
  match Envelope.ofBytes m.topic m.payload with
  | .ok e => (c.deliverAll e).1
  | .error _ => c

theorem heed_of_ok {m : Message} (h : Envelope.ofBytes m.topic m.payload = .ok e) :
    c.heed m = (c.deliverAll e).1 := by
  rw [heed, h]

theorem keeps_heed (c : Client) (m : Message) : Keeps c (c.heed m) := by
  rw [heed]
  split
  · exact keeps_deliverAll c _
  · exact .refl c

/-- The way of a response does not go through the bus. -/
theorem deliver_transport (c : Client) (t : Transport) (d : Delivery) :
    ({ c with transport := t } : Client).deliver d =
      ({ (c.deliver d).1 with transport := t }, (c.deliver d).2) := by
  cases d with
  | arrived e =>
      rw [deliver, deliver]
      split <;> rfl
  | unanswered e =>
      have hwaiter : ({ c with transport := t } : Client).waiter? e.requestId =
          c.waiter? e.requestId := rfl
      rw [deliver, deliver, hwaiter]
      split <;> rfl
  | taken e ticket => rfl
  | noted e ticket =>
      have hslot : ({ c with transport := t } : Client).slot ticket = c.slot ticket := rfl
      rw [deliver, deliver, hslot]
      split <;> rfl
  | done => rfl

theorem deliverAll_transport (c : Client) (t : Transport) (e : Envelope) :
    ({ c with transport := t } : Client).deliverAll e =
      ({ (c.deliverAll e).1 with transport := t }, (c.deliverAll e).2) := by
  simp only [deliverAll, deliver_transport]

theorem heed_transport (c : Client) (t : Transport) (m : Message) :
    ({ c with transport := t } : Client).heed m = { c.heed m with transport := t } := by
  rw [heed, heed]
  split
  · rw [deliverAll_transport]
  · rfl

theorem transport_heed (c : Client) (m : Message) : (c.heed m).transport = c.transport := by
  have h := congrArg transport (heed_transport c c.transport m)
  exact h

theorem foldl_heed_transport (c : Client) (t : Transport) (ms : List Message) :
    ms.foldl heed { c with transport := t } = { ms.foldl heed c with transport := t } := by
  induction ms generalizing c with
  | nil => rfl
  | cons m ms ih => rw [List.foldl_cons, heed_transport, ih, List.foldl_cons]

end Client

end BleBridge.Bus
