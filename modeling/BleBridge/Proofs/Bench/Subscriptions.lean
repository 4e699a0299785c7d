import BleBridge.Bench.Settle
import BleBridge.Proofs.Bus.Channels

/-!
# What happens to subscriptions on the bench

Most of what happens on the bench keeps all subscriptions and begins none
(`Keeps`).  A subscription takes two steps: the bus gives a channel (`Attaches`),
and somebody begins to listen to it, in the round of the client at that moment
(`Begins`).  For most uses the one is not without the other (`Joins`); between the
two steps of a subscription to responses anything can happen.  `begin_cases`,
`keeps_lookAgain` and `enlists` say which calls do what; what comes later refers to
them and never opens a call again.
-/

namespace BleBridge.Bench.World

open Bus (Client)

variable {w w' w'' : World} {topic : String} {k : Nat} {l : Listener}

/-! ## What keeps all subscriptions -/

/-- No subscription is touched, and none begins. -/
structure Keeps (w w' : World) : Prop where
  client : Client.Keeps w.client w'.client
  listeners : w'.listeners = w.listeners
  flag : w'.responseSubscribed = w.responseSubscribed

theorem Keeps.refl (w : World) : Keeps w w := ⟨.refl _, rfl, rfl⟩

theorem Keeps.trans (h : Keeps w w') (h' : Keeps w' w'') : Keeps w w'' :=
  ⟨h.client.trans h'.client, h'.listeners.trans h.listeners, h'.flag.trans h.flag⟩

theorem keeps_of_eq (hclient : w'.client = w.client) (hlisteners : w'.listeners = w.listeners)
    (hflag : w'.responseSubscribed = w.responseSubscribed) : Keeps w w' :=
  ⟨hclient ▸ .refl _, hlisteners, hflag⟩

theorem keeps_setClient {c : Client} (h : Client.Keeps w.client c) : Keeps w (w.setClient c) :=
  ⟨h, rfl, rfl⟩

theorem keeps_note (w : World) (events : List Event) : Keeps w (w.note events) :=
  keeps_of_eq rfl rfl rfl

theorem keeps_perform (w : World) (a : Mux.Action) : Keeps w (w.perform a) := by
  rw [perform]
  split <;> exact keeps_of_eq rfl rfl rfl

theorem keeps_seekRoom (w : World) (o : Mux.Order) (ticket : Nat) (due : Millis) (left : Nat) :
    Keeps w (w.seekRoom o ticket due left).1 := by
  induction left generalizing w due with
  | zero =>
      rw [seekRoom]
      split
      · exact keeps_perform w _
      · split
        · exact keeps_perform w (.leaveLine ticket)
        · split
          · exact (keeps_perform w _).trans (keeps_of_eq rfl rfl rfl)
          · exact .refl w
  | succ left ih =>
      rw [seekRoom]
      split
      · exact keeps_perform w _
      · split
        · exact keeps_perform w (.leaveLine ticket)
        · split
          · exact (keeps_perform w _).trans
              ((keeps_note _ _).trans ((keeps_perform _ _).trans (ih _ _)))
          · exact .refl w

theorem keeps_seekReply (w : World) (o : Mux.Order) (ticket : Nat) (due : Millis) :
    Keeps w (w.seekReply o ticket due).1 := by
  rw [seekReply]
  split
  · exact .refl w
  · split <;> exact .refl w

/-- Behind a look for room there may be a look for the reply. -/
theorem keeps_seekOn (w : World) (o : Mux.Order) (ticket : Nat) (due : Millis) (left : Nat) :
    Keeps w
      (match w.seekRoom o ticket due left with
        | (w, .wait (.reply ticket due)) => w.seekReply o ticket due
        | outcome => outcome).1 := by
  have hroom := w.keeps_seekRoom o ticket due left
  generalize w.seekRoom o ticket due left = outcome at hroom
  split
  · exact hroom.trans (keeps_seekReply _ o _ _)
  · exact hroom

theorem keeps_seek (w : World) (o : Mux.Order) : Keeps w (w.seek o).1 := by
  rw [seek]
  split
  · exact .refl w
  · have hticket : Keeps w w.ticket.2 := keeps_of_eq rfl rfl rfl
    refine hticket.trans (.trans ?_ (keeps_seekOn _ o _ _ _))
    split
    · exact .refl _
    · exact keeps_perform _ _

theorem keeps_seekResponse (w : World) (r : Bus.Request) (fuel : Nat) :
    Keeps w (w.seekResponse r fuel).1 := by
  induction fuel generalizing w r with
  | zero => exact .refl w
  | succ fuel ih =>
      have hadvance := w.client.keeps_advance r w.now
      rw [seekResponse]
      generalize w.client.advance r w.now = step at hadvance ⊢
      obtain ⟨client, r', events⟩ := step
      have hstep : Keeps w (({ w with client } : World).note events) :=
        (keeps_setClient hadvance).trans (keeps_note _ events)
      dsimp only
      split
      · exact hstep
      · exact hstep.trans (ih _ _)

theorem keeps_tryClient {r : Except BridgeError (Client × List Event)}
    (h : ∀ c events, r = .ok (c, events) → Client.Keeps w.client c) :
    Keeps w (w.tryClient r).1 := by
  cases r with
  | error e => exact .refl w
  | ok p => exact (keeps_setClient (h _ _ rfl)).trans (keeps_note _ _)

theorem keeps_broadcast (w : World) (topic : String) (payload : Bytes) :
    Keeps w (w.broadcast topic payload).1 := by
  rw [broadcast]
  split
  · rename_i hpublish
    exact ⟨⟨Bus.Broker.keeps_publish hpublish, rfl, rfl⟩, rfl, rfl⟩
  · exact .refl w

theorem keeps_abandon {α : Type} (w : World) (t : Task α) : Keeps w (w.abandon t) := by
  rw [abandon.eq_def]
  split
  · exact keeps_perform w _
  · exact keeps_setClient (w.client.keeps_setSlot _ _)
  · exact .refl w

theorem keeps_stopPump (w : World) (s : Sink) : Keeps w (w.stopPump s).1 := by
  rw [stopPump.eq_def]
  split
  · split
    · exact keeps_abandon w _
    · exact .refl w
  · exact .refl w

theorem keeps_stopPumps (w : World) : Keeps w w.stopPumps := by
  have hreport := w.keeps_stopPump w.reportSink
  rw [stopPumps]
  generalize w.stopPump w.reportSink = step at hreport ⊢
  obtain ⟨w', reportSink⟩ := step
  have hraw := w'.keeps_stopPump w'.rawSink
  dsimp only at hreport ⊢
  generalize w'.stopPump w'.rawSink = step at hraw ⊢
  exact hreport.trans (hraw.trans (keeps_of_eq rfl rfl rfl))

/-! ## What begins and ends subscriptions -/

/-- The same channels are alive, and the same subscriptions are there, in the same round. -/
structure Alike (w w' : World) : Prop where
  broker : Bus.Broker.Keeps w.client.transport.broker w'.client.transport.broker
  round : w'.client.round = w.client.round
  listeners : w'.listeners = w.listeners

theorem Keeps.alike (h : Keeps w w') : Alike w w' :=
  ⟨h.client.broker, h.client.round, h.listeners⟩

/-- The bus gives a channel. -/
structure Attaches (w w' : World) (topic : String) : Prop where
  channels : w'.client.transport.broker.channels =
    w.client.transport.broker.channels ++ [⟨topic, [], true, true⟩]
  round : w'.client.round = w.client.round
  listeners : w'.listeners = w.listeners

theorem attaches_of_subscribe {t : Bus.Transport} {n : Nat}
    (h : w.client.transport.subscribe topic = .ok (t, n)) :
    Attaches w (w.setClient { w.client with transport := t }) topic :=
  ⟨congrArg _ (Bus.Transport.subscribe_eq_ok h).2, rfl, rfl⟩

/-- A subscription begins on a channel that is there. -/
structure Begins (w w' : World) (l : Listener) : Prop where
  channels : w'.client.transport.broker.channels = w.client.transport.broker.channels
  round : w'.client.round = w.client.round
  listeners : w'.listeners = w.listeners ++ [l]
  begun : l.round = w.client.round
  idle : l.task = none
  running : l.stopped = false

/-- A subscription of another use than responses begins, on a channel of its own. -/
structure Joins (w w' : World) (l : Listener) : Prop where
  attaches : ∃ between, Attaches w between l.filter ∧ Begins between w' l
  channel : l.channel = w.client.transport.broker.channels.length
  use : l.use ≠ .responses
  topics : w'.client.responseTopics = w.client.responseTopics
  flag : w'.responseSubscribed = w.responseSubscribed

theorem subscribe_cases (w : World) (topic : String) {use : Use} (huse : use ≠ .responses) :
    Keeps w (w.subscribe topic use).1 ∨ ∃ l, Joins w (w.subscribe topic use).1 l := by
  rw [subscribe]
  cases hsubscribe : w.client.subscribe topic with
  | error e => exact .inl (.refl w)
  | ok subscribed =>
      obtain ⟨c, channel, events⟩ := subscribed
      obtain ⟨t, htransport, rfl⟩ := Client.exists_of_subscribe hsubscribe
      obtain ⟨rfl, -⟩ := Bus.Transport.subscribe_eq_ok htransport
      refine .inr ⟨⟨topic, _, w.client.round, use, none, false⟩,
        ⟨_, attaches_of_subscribe htransport, ?_⟩, rfl, huse, rfl, rfl⟩
      exact ⟨rfl, rfl, rfl, rfl, rfl, rfl⟩

theorem tap_cases (w : World) (filter : String) (number : Nat) :
    Keeps w (w.tap filter number).1 ∨ ∃ l, Joins w (w.tap filter number).1 l := by
  rw [tap]
  cases hsubscribe : w.client.transport.broker.subscribe filter with
  | error e => exact .inl (.refl w)
  | ok subscribed =>
      obtain ⟨broker, channel⟩ := subscribed
      rw [Bus.Broker.subscribe] at hsubscribe
      split at hsubscribe
      · cases hsubscribe
        let between : World := { w with client := { w.client with transport :=
          { w.client.transport with broker := { w.client.transport.broker with channels :=
            w.client.transport.broker.channels ++ [⟨filter, [], true, true⟩] } } } }
        have hattaches : Attaches w between filter := ⟨rfl, rfl, rfl⟩
        refine .inr ⟨⟨filter, _, w.client.round, .tap number, none, false⟩,
          ⟨between, hattaches, ?_⟩, rfl, by simp, rfl, rfl⟩
        exact ⟨rfl, rfl, rfl, rfl, rfl, rfl⟩
      · cases hsubscribe

/-- Begin with a call. One that takes several steps in the client waits before each of them. The
flag of the service is raised by nobody else. -/
def begin (w : World) (own : Bool) : (c : Call) → World × Look c
  | .markResponseSubscribed =>
      ({ w with responseSubscribed := w.responseSubscribed || own }, .answer ())
  | .request topic e timeout =>
      let (ticket, w) := w.ticket
      (w, .wait (.response ⟨ticket, topic, e, timeout.getD w.client.timeout, .fresh⟩))
  | .subscribeResponse _ => (w, .wait (.enlisting .fresh))
  | .disconnect => (w.setClient w.client.cancel, .wait (.leaving w.client.pending))
  | c => w.look c

/-- No call begins with a subscription to responses, and only a disconnection cancels any. -/
theorem begin_cases (w : World) (own : Bool) {c : Call} (hdisconnect : c ≠ .disconnect)
    (hmark : c ≠ .markResponseSubscribed) :
    Keeps w (w.begin own c).1 ∨ ∃ l, Joins w (w.begin own c).1 l := by
  cases c with
  | log e => exact .inl (keeps_note w _)
  | drawId => exact .inl (keeps_of_eq rfl rfl rfl)
  | wallClock => exact .inl (.refl w)
  | enqueue o => exact .inl (keeps_seek w o)
  | closeMux =>
      refine .inl ?_
      show Keeps w (w.look .closeMux).1
      rw [look]
      split
      · exact .refl w
      · exact keeps_perform w .close
  | request topic e timeout => exact .inl (keeps_of_eq rfl rfl rfl)
  | publish topic e => exact .inl (keeps_tryClient fun c events h ↦ Client.keeps_publish h)
  | broadcast topic payload => exact .inl (keeps_broadcast w topic payload)
  | subscribeResponse topic => exact .inl (.refl w)
  | subscribe topic handler => exact w.subscribe_cases topic (by simp)
  | isResponseSubscribed => exact .inl (.refl w)
  | markResponseSubscribed => exact absurd rfl hmark
  | connect => exact .inl (keeps_tryClient fun c events h ↦ Client.keeps_connect h)
  | disconnect => exact absurd rfl hdisconnect
  | stopPumps => exact .inl (keeps_stopPumps w)
  | hand v => exact .inl (keeps_of_eq rfl rfl rfl)

/-- Of the calls that wait, only those that subscribe to responses or leave the bus have to do with
subscriptions. -/
theorem keeps_lookAgain (w : World) {c : Call} (wait : Wait c)
    (hsubscribe : ∀ topic, c ≠ .subscribeResponse topic) (hdisconnect : c ≠ .disconnect) :
    Keeps w (w.lookAgain wait).1 := by
  cases wait with
  | admission ticket left due => exact keeps_seekOn w _ ticket due left
  | reply ticket due => exact keeps_seekReply w _ ticket due
  | response r => exact keeps_seekResponse w r 1
  | enlisting e => exact absurd rfl (hsubscribe _)
  | leaving cancelled => exact absurd rfl hdisconnect
  | closing =>
      rw [lookAgain]
      split
      · exact keeps_note w _
      · exact .refl w

/-! ## The steps of a subscription to responses -/

/-- What one step of a subscription to responses comes to. -/
inductive Enlists (w : World) (topic : String) : Bus.Enlisting → World × Bus.Enlisting → Prop where
  | connected : Enlists w topic .fresh (w, .checked)
  | unconnected (fault : BridgeError) : Enlists w topic .fresh (w, .ended (.error fault))
  /-- Somebody else has noted the topic. -/
  | found (hmem : topic ∈ w.client.responseTopics) (events : List Event) :
      Enlists w topic .checked (w.note events, .ended (.ok ()))
  | notes : Enlists w topic .checked
      (w.setClient { w.client with responseTopics := topic :: w.client.responseTopics }, .noted)
  | attaches {t : Bus.Transport} {n : Nat}
      (hsubscribe : w.client.transport.subscribe topic = .ok (t, n)) :
      Enlists w topic .noted (w.setClient { w.client with transport := t }, .attached n)
  | refuses {fault : BridgeError}
      (hsubscribe : w.client.transport.subscribe topic = .error fault) :
      Enlists w topic .noted (w, .refused fault)
  /-- The topic is struck off. -/
  | strikes (fault : BridgeError) : Enlists w topic (.refused fault)
      (w.setClient { w.client with
        responseTopics := w.client.responseTopics.filter (· != topic) }, .ended (.error fault))
  | begins (n : Nat) (events : List Event) :
      Enlists w topic (.attached n) ((w.note events).listen topic n .responses, .ended (.ok ()))
  | rests (r : Except BridgeError Unit) : Enlists w topic (.ended r) (w, .ended r)

theorem enlists (w : World) (topic : String) (e : Bus.Enlisting) :
    Enlists w topic e (w.enlist topic e) := by
  cases e with
  | fresh =>
      rw [enlist, Client.enlist]
      cases w.client.ensureConnected with
      | ok _ => exact .connected
      | error fault => exact .unconnected fault
  | checked =>
      rw [enlist, Client.enlist]
      by_cases hmem : topic ∈ w.client.responseTopics
      · rw [if_pos hmem]
        exact .found hmem _
      · rw [if_neg hmem]
        exact .notes
  | noted =>
      rw [enlist, Client.enlist]
      cases hsubscribe : w.client.transport.subscribe topic with
      | ok subscribed => exact .attaches hsubscribe
      | error fault => exact .refuses hsubscribe
  | refused fault => exact .strikes fault
  | attached n => exact .begins n _
  | ended r => exact .rests r

theorem flag_enlist (w : World) (topic : String) (e : Bus.Enlisting) :
    (w.enlist topic e).1.responseSubscribed = w.responseSubscribed := by
  have henlists := w.enlists topic e
  generalize w.enlist topic e = o at henlists ⊢
  cases henlists <;> rfl

end BleBridge.Bench.World
