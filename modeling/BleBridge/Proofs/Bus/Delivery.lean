import BleBridge.Bus.Broker
import Mathlib.Data.List.Basic
import Mathlib.Data.List.Induction

/-!
# What a bus in memory delivers

A bus is used by many at once: some publish, others subscribe, and each
subscriber reads its channel at its own pace until it stops listening.  A use
does to a channel what `Use.effect` says, and that does not hang on any other
channel.  So a subscriber's messages are settled by what is published and by what
it does itself (`run_filter`), and they are those that find room in its channel
while it listens and the bus stays connected (`Accepts`).

The invariant of a run is that what a subscriber has received, followed by what it
has not read yet, are the messages that its channel has taken (`Subscribed`).
-/

namespace BleBridge.Bus

/-- What is done with a bus. Channels are told apart by their places. -/
inductive Use where
  | connect
  | disconnect
  | subscribe (filter : String)
  | publish (m : Message)
  /-- The subscriber takes its oldest unread message, if there is one. -/
  | receive (channel : Nat)
  /-- The subscriber stops listening. -/
  | drop (channel : Nat)
deriving DecidableEq

/-- A bus, and the messages that its subscribers have received, with their channels. -/
structure Session where
  broker : Broker := {}
  received : List (Nat × Message) := []
deriving DecidableEq

namespace Session

variable {s s' : Session} {n : Nat} {m : Message} {u : Use} {ch : Channel}

/-! ## Runs -/

def listens (s : Session) (n : Nat) : Bool := (s.broker.channels[n]?).any (·.listening)

def perform (s : Session) : Use → Session
  | .connect => { s with broker := s.broker.connect }
  | .disconnect => { s with broker := s.broker.disconnect }
  | .subscribe filter =>
      match s.broker.subscribe filter with
      | .ok (broker, _) => { s with broker }
      | .error _ => s
  | .publish m =>
      match s.broker.publish m with
      | .ok (broker, _) => { s with broker }
      | .error _ => s
  | .receive n =>
      if s.listens n then
        match s.broker.receive n with
        | some (m, broker) => { broker, received := s.received ++ [(n, m)] }
        | none => s
      else s
  | .drop n => { s with broker := s.broker.drop n }

def performAll (s : Session) (uses : List Use) : Session := uses.foldl perform s

/-- A new bus behind some uses. -/
def run (uses : List Use) : Session := performAll {} uses

theorem run_append (uses later : List Use) : run (uses ++ later) = (run uses).performAll later :=
  List.foldl_append

theorem run_concat (uses : List Use) (u : Use) : run (uses ++ [u]) = (run uses).perform u :=
  run_append uses [u]

/-- What a subscriber has received, oldest first. -/
def got (s : Session) (n : Nat) : List Message :=
  s.received.filterMap fun r ↦ if r.1 = n then some r.2 else none

/-- What a subscriber has not read yet, oldest first. -/
def unread (s : Session) (n : Nat) : List Message :=
  ((s.broker.channels[n]?).map (·.unread)).getD []

theorem unread_of_getElem? (h : s.broker.channels[n]? = some ch) : s.unread n = ch.unread := by
  rw [unread, h]
  rfl

end Session

/-! ## One use -/

namespace Use

/-- What a use does to the channel at `n`. -/
def effect (connected : Bool) (n : Nat) (ch : Channel) : Use → Channel
  | .disconnect => { ch with attached := false }
  | .publish m => if connected then ch.offer m else ch
  | .receive k => if k = n ∧ ch.listening then { ch with unread := ch.unread.tail } else ch
  | .drop k => if k = n then { ch with listening := false } else ch
  | .connect | .subscribe _ => ch

/-- What the subscriber of the channel at `n` receives by a use. -/
def taken (n : Nat) (ch : Channel) : Use → List Message
  | .receive k => if k = n ∧ ch.listening then ch.unread.take 1 else []
  | _ => []

/-- Whether the bus is connected behind a use. -/
def connects (connected : Bool) : Use → Bool
  | .connect => true
  | .disconnect => false
  | _ => connected

/-- The channel that a use adds. -/
def adds (connected : Bool) : Use → Option Channel
  | .subscribe filter => if connected then some ⟨filter, [], true, true⟩ else none
  | _ => none

/-- What goes into a channel by a use. -/
def given (connected : Bool) (ch : Channel) : Use → List Message
  | .publish m => if connected ∧ ch.takes m then [m] else []
  | _ => []

variable {connected : Bool} {n : Nat} {ch : Channel}

theorem filter_effect (u : Use) : (u.effect connected n ch).filter = ch.filter := by
  cases u with
  | publish m =>
      rw [effect, Channel.offer]
      split
      · split
        · rfl
        · split <;> rfl
      · rfl
  | receive k =>
      rw [effect]
      split <;> rfl
  | drop k =>
      rw [effect]
      split <;> rfl
  | _ => rfl

theorem listening_effect (u : Use) :
    (u.effect connected n ch).listening = true ↔ ch.listening = true ∧ u ≠ .drop n := by
  cases u with
  | publish m =>
      rw [effect, Channel.offer]
      split
      · split
        · simp
        · split <;> simp
      · simp
  | receive k =>
      rw [effect]
      split <;> simp
  | drop k =>
      rw [effect]
      split
      · simp_all
      · simp_all
  | _ => simp [effect]

/-- Only a subscriber that does not listen loses its channel otherwise than by a disconnection. -/
theorem attached_effect (u : Use) (h : ch.listening = true) :
    (u.effect connected n ch).attached = true ↔ ch.attached = true ∧ u ≠ .disconnect := by
  cases u with
  | publish m =>
      rw [effect, Channel.offer, if_pos h]
      split
      · split <;> simp
      · simp
  | receive k =>
      rw [effect]
      split <;> simp
  | drop k =>
      rw [effect]
      split <;> simp
  | _ => simp [effect]

/-- What is received was unread before, and what goes in is read last. -/
theorem taken_append_unread (u : Use) :
    u.taken n ch ++ (u.effect connected n ch).unread = ch.unread ++ u.given connected ch := by
  cases u with
  | publish m =>
      simp only [effect, given, taken, List.nil_append]
      by_cases hconnected : connected
      · by_cases htakes : ch.takes m
        · simp [hconnected, Channel.offer, htakes]
        · simp only [hconnected, if_true, Channel.offer, htakes, true_and, if_false,
            List.append_nil, Bool.false_eq_true]
          split <;> rfl
      · simp [hconnected]
  | receive k =>
      simp only [effect, given, taken]
      split
      · cases ch.unread <;> simp
      · simp
  | drop k =>
      simp only [effect, given, taken]
      split <;> simp
  | _ => simp [effect, given, taken]

end Use

namespace Session

variable {s s' : Session} {n : Nat} {m : Message} {u : Use} {ch : Channel}

theorem perform_subscribe (s : Session) (filter : String) :
    s.perform (.subscribe filter) = if s.broker.connected then
      { s with broker := { s.broker with
        channels := s.broker.channels ++ [⟨filter, [], true, true⟩] } } else s := by
  rw [perform, Broker.subscribe]
  by_cases h : s.broker.connected <;> simp [h]

theorem perform_publish (s : Session) (m : Message) :
    s.perform (.publish m) = if s.broker.connected then
      { s with broker := { s.broker with
        history := s.broker.history ++ [m]
        channels := s.broker.channels.map (Channel.offer m) } } else s := by
  rw [perform, Broker.publish]
  by_cases h : s.broker.connected <;> simp [h, Broker.dispatch]

/-- A subscriber that listens and has unread messages takes the oldest of them. -/
theorem perform_receive_cases (s : Session) (n : Nat) :
    (s.perform (.receive n) = s ∧
      ∀ ch, s.broker.channels[n]? = some ch → ch.listening = true → ch.unread = []) ∨
    ∃ ch m later, s.broker.channels[n]? = some ch ∧ ch.listening = true ∧ ch.unread = m :: later ∧
      s.perform (.receive n) =
        { broker := s.broker.modify n fun ch ↦ { ch with unread := later }
          received := s.received ++ [(n, m)] } := by
  rw [perform, listens, Broker.receive]
  cases hn : s.broker.channels[n]? with
  | none => exact .inl ⟨rfl, nofun⟩
  | some ch =>
      by_cases hlistening : ch.listening
      · cases hunread : ch.unread with
        | nil =>
            refine .inl ⟨by simp [hlistening, hunread], fun ch' hch _ ↦ ?_⟩
            cases hch
            exact hunread
        | cons m later =>
            exact .inr ⟨ch, m, later, rfl, hlistening, hunread, by simp [hlistening, hunread]⟩
      · refine .inl ⟨by simp [hlistening], fun ch' hch hlistening' ↦ ?_⟩
        cases hch
        exact absurd hlistening' hlistening

theorem connected_perform (s : Session) (u : Use) :
    (s.perform u).broker.connected = u.connects s.broker.connected := by
  cases u with
  | connect => rfl
  | disconnect => rfl
  | subscribe filter =>
      rw [perform_subscribe]
      split <;> rfl
  | publish m =>
      rw [perform_publish]
      split <;> rfl
  | receive k =>
      obtain ⟨hsame, -⟩ | ⟨ch, m, later, -, -, -, hnext⟩ := s.perform_receive_cases k
      · rw [hsame]
        rfl
      · rw [hnext]
        rfl
  | drop k => rfl

/-- Each channel changes by itself, and a new one goes behind all others. -/
theorem getElem?_perform (s : Session) (u : Use) (n : Nat) :
    (s.perform u).broker.channels[n]? =
      ((s.broker.channels[n]?).map fun ch ↦ u.effect s.broker.connected n ch).or
        (if n = s.broker.channels.length then u.adds s.broker.connected else none) := by
  cases u with
  | connect => simp [perform, Broker.connect, Use.effect, Use.adds]
  | disconnect => simp [perform, Broker.disconnect, Use.effect, Use.adds]
  | subscribe filter =>
      rw [perform_subscribe]
      by_cases hconnected : s.broker.connected
      · simp only [hconnected, if_true, Use.effect, Use.adds, Option.map_id_fun', id]
        rw [List.getElem?_append, List.getElem?_singleton]
        by_cases hlt : n < s.broker.channels.length
        · rw [if_pos hlt, List.getElem?_eq_getElem hlt, Option.some_or]
        · rw [if_neg hlt, List.getElem?_eq_none (Nat.le_of_not_lt hlt), Option.none_or]
          by_cases heq : n = s.broker.channels.length
          · rw [if_pos heq, if_pos (by omega)]
          · rw [if_neg heq, if_neg (by omega)]
      · simp [hconnected, Use.effect, Use.adds]
  | publish m =>
      rw [perform_publish]
      by_cases hconnected : s.broker.connected
      · simp [hconnected, Use.effect, Use.adds]
      · simp [hconnected, Use.effect, Use.adds]
  | receive k =>
      simp only [Use.effect, Use.adds, ite_self, Option.or_none]
      obtain ⟨hsame, hnil⟩ | ⟨ch, m, later, hk, hlistening, hunread, hnext⟩ :=
        s.perform_receive_cases k
      · rw [hsame]
        cases hn : s.broker.channels[n]? with
        | none => rfl
        | some ch =>
            rw [Option.map_some]
            split
            · rename_i hown
              obtain ⟨rfl, hlistening⟩ := hown
              have hunread := hnil ch hn hlistening
              cases ch
              cases hunread
              rfl
            · rfl
      · rw [hnext]
        by_cases hkn : k = n
        · subst hkn
          simp [Broker.modify, hk, hlistening, hunread]
        · simp [Broker.modify, hkn]
  | drop k =>
      by_cases hkn : k = n
      · subst hkn
        simp [perform, Broker.drop, Broker.modify, Use.effect, Use.adds]
      · simp [perform, Broker.drop, Broker.modify, Use.effect, Use.adds, hkn]

/-- What a subscriber receives by a use comes from its channel. -/
theorem got_perform (s : Session) (u : Use) (n : Nat) :
    (s.perform u).got n = s.got n ++ (s.broker.channels[n]?).elim [] fun ch ↦ u.taken n ch := by
  have hkept : ∀ {s' : Session}, s'.received = s.received → s'.got n = s.got n := fun h ↦ by
    rw [got, got, h]
  have hnone : (s.broker.channels[n]?).elim ([] : List Message) (fun _ ↦ []) = [] := by
    cases s.broker.channels[n]? <;> rfl
  cases u with
  | connect => exact (hkept rfl).trans (by simp [Use.taken, hnone])
  | disconnect => exact (hkept rfl).trans (by simp [Use.taken, hnone])
  | subscribe filter =>
      rw [perform_subscribe]
      split <;> exact (hkept rfl).trans (by simp [Use.taken, hnone])
  | publish m =>
      rw [perform_publish]
      split <;> exact (hkept rfl).trans (by simp [Use.taken, hnone])
  | receive k =>
      obtain ⟨hsame, hnil⟩ | ⟨ch, m, later, hk, hlistening, hunread, hnext⟩ :=
        s.perform_receive_cases k
      · rw [hsame]
        cases hn : s.broker.channels[n]? with
        | none => exact (List.append_nil _).symm
        | some ch =>
            rw [Option.elim_some, Use.taken]
            split
            · rename_i hown
              obtain ⟨rfl, hlistening⟩ := hown
              rw [hnil ch hn hlistening, List.take_nil, List.append_nil]
            · rw [List.append_nil]
      · rw [hnext, got, got, List.filterMap_append]
        by_cases hkn : k = n
        · subst hkn
          simp [hk, Use.taken, hlistening, hunread]
        · simp [Use.taken, hkn, hnone]
  | drop k => exact (hkept rfl).trans (by simp [Use.taken, hnone])

theorem length_perform (s : Session) (u : Use) : (s.perform u).broker.channels.length =
    s.broker.channels.length + (u.adds s.broker.connected).toList.length := by
  cases u with
  | connect => rfl
  | disconnect => exact List.length_map _
  | subscribe filter =>
      rw [perform_subscribe]
      by_cases hconnected : s.broker.connected <;> simp [hconnected, Use.adds]
  | publish m =>
      rw [perform_publish]
      by_cases hconnected : s.broker.connected <;> simp [hconnected, Use.adds]
  | receive k =>
      obtain ⟨hsame, -⟩ | ⟨ch, m, later, -, -, -, hnext⟩ := s.perform_receive_cases k
      · rw [hsame]
        rfl
      · rw [hnext]
        exact List.length_modify _ _ _
  | drop k => exact List.length_modify _ _ _

/-! ## One subscriber among others -/

/-- Two buses that are the same to the subscriber of the channel at `n`. -/
structure Alike (n : Nat) (s s' : Session) : Prop where
  connected : s.broker.connected = s'.broker.connected
  length : s.broker.channels.length = s'.broker.channels.length
  channel : s.broker.channels[n]? = s'.broker.channels[n]?
  got : s.got n = s'.got n

theorem Alike.refl (n : Nat) (s : Session) : Alike n s s := ⟨rfl, rfl, rfl, rfl⟩

theorem Alike.trans {s'' : Session} (h : Alike n s s') (h' : Alike n s' s'') : Alike n s s'' :=
  ⟨h.connected.trans h'.connected, h.length.trans h'.length, h.channel.trans h'.channel,
    h.got.trans h'.got⟩

theorem Alike.symm (h : Alike n s s') : Alike n s' s :=
  ⟨h.connected.symm, h.length.symm, h.channel.symm, h.got.symm⟩

theorem Alike.perform (h : Alike n s s') (u : Use) : Alike n (s.perform u) (s'.perform u) := by
  obtain ⟨hconnected, hlength, hchannel, hgot⟩ := h
  refine ⟨?_, ?_, ?_, ?_⟩
  · rw [connected_perform, connected_perform, hconnected]
  · rw [length_perform, length_perform, hlength, hconnected]
  · rw [getElem?_perform, getElem?_perform, hchannel, hlength, hconnected]
  · rw [got_perform, got_perform, hgot, hchannel]

end Session

/-- Whether a use is of all channels or of the one at `n`. -/
def Use.concerns (n : Nat) : Use → Bool
  | .receive k | .drop k => k == n
  | _ => true

namespace Session

variable {s s' : Session} {n : Nat} {m : Message} {u : Use} {ch : Channel} {uses uses' : List Use}

/-- What another subscriber does makes no difference. -/
theorem alike_perform (s : Session) (h : u.concerns n = false) : Alike n (s.perform u) s := by
  have hframe : u.connects s.broker.connected = s.broker.connected ∧
      u.adds s.broker.connected = none ∧
      ∀ ch, u.effect s.broker.connected n ch = ch ∧ u.taken n ch = [] := by
    cases u with
    | receive k =>
        have hne : k ≠ n := by simpa [Use.concerns] using h
        exact ⟨rfl, rfl, fun ch ↦ ⟨if_neg (hne ·.1), if_neg (hne ·.1)⟩⟩
    | drop k =>
        have hne : k ≠ n := by simpa [Use.concerns] using h
        exact ⟨rfl, rfl, fun ch ↦ ⟨if_neg hne, rfl⟩⟩
    | _ => cases h
  obtain ⟨hconnects, hadds, hchannel⟩ := hframe
  refine ⟨?_, ?_, ?_, ?_⟩
  · rw [connected_perform, hconnects]
  · rw [length_perform, hadds]
    rfl
  · rw [getElem?_perform, hadds, ite_self, Option.or_none]
    cases s.broker.channels[n]? with
    | none => rfl
    | some ch => rw [Option.map_some, (hchannel ch).1]
  · rw [got_perform]
    cases s.broker.channels[n]? with
    | none => exact List.append_nil _
    | some ch => rw [Option.elim_some, (hchannel ch).2, List.append_nil]

theorem run_filter (n : Nat) (uses : List Use) :
    Alike n (run uses) (run (uses.filter (Use.concerns n))) := by
  induction uses using List.reverseRecOn with
  | nil => exact .refl n _
  | append_singleton uses u ih =>
      rw [List.filter_append, run_concat]
      by_cases hu : u.concerns n
      · rw [List.filter_cons_of_pos hu, List.filter_nil, run_concat]
        exact ih.perform u
      · rw [List.filter_cons_of_neg hu, List.filter_nil, List.append_nil]
        exact (alike_perform _ (Bool.eq_false_iff.mpr hu)).trans ih

theorem run_alike (h : uses.filter (Use.concerns n) = uses'.filter (Use.concerns n)) :
    Alike n (run uses) (run uses') :=
  (run_filter n uses).trans (h ▸ (run_filter n uses').symm)

/-! ## What a channel takes -/

/-- The place of the next channel. -/
def place (before : List Use) : Nat := (run before).broker.channels.length

/-- A message that is published now goes to the subscription that was made behind `before`, since
when `after` has been done. -/
structure Accepts (before : List Use) (filter : String) (after : List Use) (m : Message) :
    Prop where
  connected : (run (before ++ .subscribe filter :: after)).broker.connected = true
  lasting : .disconnect ∉ after
  listening : .drop (place before) ∉ after
  topic : topicMatches filter m.topic = true
  room : ((run (before ++ .subscribe filter :: after)).unread (place before)).length <
    channelCapacity

theorem accepts_iff {before after : List Use} {filter : String} :
    Accepts before filter after m ↔
      (run (before ++ .subscribe filter :: after)).broker.connected = true ∧
        .disconnect ∉ after ∧ .drop (place before) ∉ after ∧ topicMatches filter m.topic = true ∧
          ((run (before ++ .subscribe filter :: after)).unread (place before)).length <
            channelCapacity :=
  ⟨fun ⟨h₁, h₂, h₃, h₄, h₅⟩ ↦ ⟨h₁, h₂, h₃, h₄, h₅⟩, fun ⟨h₁, h₂, h₃, h₄, h₅⟩ ↦ ⟨h₁, h₂, h₃, h₄, h₅⟩⟩

instance (before : List Use) (filter : String) (after : List Use) (m : Message) :
    Decidable (Accepts before filter after m) :=
  decidable_of_iff' _ accepts_iff

/-- The message of a use, if it goes to the subscription. -/
def accepts? (before : List Use) (filter : String) (after : List Use) : Use → Option Message
  | .publish m => if Accepts before filter after m then some m else none
  | _ => none

/-- The messages that are published behind a subscription and go to it, in their order. -/
def accepted (before : List Use) (filter : String) (after : List Use) : List Message :=
  (List.range after.length).filterMap fun k ↦
    (after[k]?).bind (accepts? before filter (after.take k))

section Subscription

variable {before after : List Use} {filter : String}

theorem accepted_concat (before : List Use) (filter : String) (after : List Use) (u : Use) :
    accepted before filter (after ++ [u]) =
      accepted before filter after ++ (accepts? before filter after u).toList := by
  rw [accepted, List.length_append, List.length_singleton, List.range_succ, List.filterMap_append]
  congr 1
  · refine List.filterMap_congr fun k hk ↦ ?_
    have hlt := List.mem_range.mp hk
    rw [List.getElem?_append_left hlt, List.take_append_of_le_length (Nat.le_of_lt hlt)]
  · rw [List.filterMap_cons, List.getElem?_concat_length, List.take_left, List.filterMap_nil,
      Option.bind_some]
    cases accepts? before filter after u <;> rfl

/-- The channel of a subscription: what was received from it and what is unread are the messages
that it has taken, and it is attached and listened to as long as nothing speaks against it. -/
structure Subscribed (before : List Use) (filter : String) (after : List Use) (s : Session)
    (ch : Channel) : Prop where
  channel : s.broker.channels[place before]? = some ch
  sameFilter : ch.filter = filter
  listening : ch.listening = true ↔ .drop (place before) ∉ after
  attached : ch.listening = true → (ch.attached = true ↔ .disconnect ∉ after)
  connected : .disconnect ∉ after → s.broker.connected = true
  messages : s.got (place before) ++ ch.unread = accepted before filter after

/-- A channel takes what the subscription accepts. -/
theorem Subscribed.takes_iff
    (h : Subscribed before filter after (run (before ++ .subscribe filter :: after)) ch)
    (hconnected : (run (before ++ .subscribe filter :: after)).broker.connected = true)
    (m : Message) : ch.takes m = true ↔ Accepts before filter after m := by
  rw [accepts_iff, unread_of_getElem? h.channel, Channel.takes, Channel.isFull, h.sameFilter]
  simp only [Bool.and_eq_true, Bool.not_eq_true', decide_eq_false_iff_not, Nat.not_le]
  constructor
  · rintro ⟨⟨⟨hattached, hlistening⟩, htopic⟩, hroom⟩
    exact ⟨hconnected, (h.attached hlistening).mp hattached, h.listening.mp hlistening, htopic,
      hroom⟩
  · rintro ⟨-, hlasting, hlistening, htopic, hroom⟩
    have hlistens := h.listening.mpr hlistening
    exact ⟨⟨⟨(h.attached hlistens).mpr hlasting, hlistens⟩, htopic⟩, hroom⟩

theorem getElem?_perform_of_some (hn : s.broker.channels[n]? = some ch) (u : Use) :
    (s.perform u).broker.channels[n]? = some (u.effect s.broker.connected n ch) := by
  rw [getElem?_perform, hn]
  rfl

theorem got_perform_of_some (hn : s.broker.channels[n]? = some ch) (u : Use) :
    (s.perform u).got n = s.got n ++ u.taken n ch := by
  rw [got_perform, hn]
  rfl

/-- Nothing was received from a channel that is not there yet. -/
theorem got_of_place_le (h : place uses ≤ n) : (run uses).got n = [] := by
  induction uses using List.reverseRecOn with
  | nil => rfl
  | append_singleton uses u ih =>
      have hle : place uses ≤ n := by
        rw [place, run_concat, length_perform] at h
        exact Nat.le_of_add_right_le h
      rw [run_concat, got_perform, ih hle, List.getElem?_eq_none hle]
      rfl

theorem subscribed_nil (hconnected : (run before).broker.connected = true) (filter : String) :
    Subscribed before filter [] (run (before ++ [.subscribe filter])) ⟨filter, [], true, true⟩ := by
  have hnone : (run before).broker.channels[place before]? = none :=
    List.getElem?_eq_none (Nat.le_refl _)
  rw [run_concat]
  refine ⟨?_, rfl, by simp, by simp, fun _ ↦ ?_, ?_⟩
  · have hplace : place before = (run before).broker.channels.length := rfl
    rw [getElem?_perform, hnone, if_pos hplace, Use.adds, if_pos hconnected]
    rfl
  · rw [connected_perform]
    exact hconnected
  · rw [got_perform, hnone, got_of_place_le (Nat.le_refl _)]
    rfl

theorem Subscribed.accepts?_eq
    (h : Subscribed before filter after (run (before ++ .subscribe filter :: after)) ch) (u : Use) :
    (accepts? before filter after u).toList =
      u.given (run (before ++ .subscribe filter :: after)).broker.connected ch := by
  cases u with
  | publish m =>
      rw [accepts?, Use.given]
      by_cases haccepts : Accepts before filter after m
      · rw [if_pos haccepts, if_pos]
        · rfl
        · exact ⟨haccepts.connected, (h.takes_iff haccepts.connected m).mpr haccepts⟩
      · rw [if_neg haccepts, if_neg]
        · rfl
        · exact fun ⟨hconnected, htakes⟩ ↦ haccepts ((h.takes_iff hconnected m).mp htakes)
  | _ => rfl

theorem Subscribed.perform
    (h : Subscribed before filter after (run (before ++ .subscribe filter :: after)) ch) (u : Use) :
    ∃ ch', Subscribed before filter (after ++ [u])
      (run (before ++ .subscribe filter :: (after ++ [u]))) ch' := by
  rw [← List.cons_append, ← List.append_assoc, run_concat]
  have hnot : ∀ v, v ∉ after ++ [u] ↔ v ∉ after ∧ u ≠ v := fun v ↦ by
    rw [List.mem_append, List.mem_singleton, not_or, ne_comm]
  refine ⟨_, ⟨getElem?_perform_of_some h.channel u, ?_, ?_, ?_, ?_, ?_⟩⟩
  · rw [Use.filter_effect, h.sameFilter]
  · rw [Use.listening_effect, h.listening, hnot]
  · intro hlistening
    have hlistens := ((Use.listening_effect u).mp hlistening).1
    rw [Use.attached_effect u hlistens, h.attached hlistens, hnot]
  · rw [hnot, connected_perform]
    rintro ⟨hlasting, hother⟩
    cases u with
    | connect => rfl
    | disconnect => exact absurd rfl hother
    | _ => exact h.connected hlasting
  · rw [got_perform_of_some h.channel, List.append_assoc, Use.taken_append_unread,
      ← List.append_assoc, h.messages, accepted_concat, h.accepts?_eq]

theorem exists_subscribed (hconnected : (run before).broker.connected = true) (filter : String)
    (after : List Use) :
    ∃ ch, Subscribed before filter after (run (before ++ .subscribe filter :: after)) ch := by
  induction after using List.reverseRecOn with
  | nil => exact ⟨_, subscribed_nil hconnected filter⟩
  | append_singleton after u ih =>
      obtain ⟨ch, hch⟩ := ih
      exact hch.perform u

end Subscription

/-- A subscriber that reads on gets all that is unread. -/
theorem got_performAll_receive (hn : s.broker.channels[n]? = some ch)
    (hlistening : ch.listening = true) :
    (s.performAll (List.replicate ch.unread.length (.receive n))).got n =
      s.got n ++ ch.unread := by
  generalize hunread : ch.unread = unread
  induction unread generalizing s ch with
  | nil => exact (List.append_nil _).symm
  | cons m later ih =>
      have hown : n = n ∧ ch.listening = true := ⟨rfl, hlistening⟩
      have hnext := getElem?_perform_of_some hn (.receive n)
      rw [Use.effect, if_pos hown] at hnext
      have hrest := ih hnext hlistening (by rw [hunread, List.tail_cons])
      rw [got_perform_of_some hn, Use.taken, if_pos hown, hunread] at hrest
      rw [List.length_cons, List.replicate_succ, performAll, List.foldl_cons]
      exact hrest.trans (List.append_assoc _ _ _)

/-! ## Publishing -/

/-- In how many channels a message is found that was not there before. -/
def reached (s : Session) (m : Message) : Nat :=
  (List.range s.broker.channels.length).countP fun n ↦
    (s.perform (.publish m)).unread n = s.unread n ++ [m]

theorem countP_eq_countP_range {α : Type} (l : List α) (p : α → Bool) :
    l.countP p = (List.range l.length).countP fun n ↦ (l[n]?).any p := by
  induction l using List.reverseRecOn with
  | nil => rfl
  | append_singleton l a ih =>
      rw [List.countP_append, List.length_append, List.length_singleton, List.range_succ,
        List.countP_append, ih]
      congr 1
      · refine List.countP_congr fun n hn ↦ ?_
        rw [List.getElem?_append_left (List.mem_range.mp hn)]
      · rw [List.countP_singleton, List.countP_singleton, List.getElem?_concat_length,
          Option.any_some]

theorem reach_eq_reached (hconnected : s.broker.connected = true) (m : Message) :
    s.broker.reach m = s.reached m := by
  rw [Broker.reach, countP_eq_countP_range, reached]
  refine List.countP_congr fun n hn ↦ ?_
  obtain ⟨ch, hget⟩ : ∃ ch, s.broker.channels[n]? = some ch :=
    ⟨_, List.getElem?_eq_getElem (List.mem_range.mp hn)⟩
  have hnext := getElem?_perform_of_some hget (.publish m)
  rw [Use.effect, if_pos hconnected] at hnext
  rw [unread_of_getElem? hget, unread_of_getElem? hnext, hget, Option.any_some,
    decide_eq_true_eq, Channel.offer]
  by_cases htakes : ch.takes m
  · simp [htakes]
  · simp only [htakes, if_false, Bool.false_eq_true, false_iff]
    split <;> simp

/-- What subscribers and publishers can rely on, whatever has been done with the bus. -/
structure Serves (uses : List Use) : Prop where
  /-- A subscription brings the messages that it accepts, each once and in their order. -/
  messages : ∀ before filter after, uses = before ++ .subscribe filter :: after →
    (run before).broker.connected = true →
      (run uses).got (place before) ++ (run uses).unread (place before) =
        accepted before filter after
  /-- All of them come if the subscriber reads on. -/
  reading : ∀ before filter after, uses = before ++ .subscribe filter :: after →
    (run before).broker.connected = true → .drop (place before) ∉ after →
      (run (uses ++ List.replicate ((run uses).unread (place before)).length
        (.receive (place before)))).got (place before) = accepted before filter after
  /-- What other subscribers do makes no difference. -/
  apart : ∀ n others, uses.filter (Use.concerns n) = others.filter (Use.concerns n) →
    (run uses).got n = (run others).got n ∧ (run uses).unread n = (run others).unread n
  refused : (run uses).broker.connected = false → ∀ m,
    (run uses).broker.publish m = .error .notConnected ∧ run (uses ++ [.publish m]) = run uses
  published : (run uses).broker.connected = true → ∀ m, ∃ events,
    (run uses).broker.publish m = .ok ((run (uses ++ [.publish m])).broker, events) ∧
      (run (uses ++ [.publish m])).broker.history = (run uses).broker.history ++ [m] ∧
      (run uses).broker.reach m = (run uses).reached m ∧
      events.getLast? = some (.debug "MemoryBus"
        s!"{m.topic} delivered to {(run uses).reached m} subscribers")

theorem serves_subscribers (uses : List Use) : Serves uses := by
  refine ⟨?messages, ?reading, ?apart, ?refused, ?published⟩
  case messages =>
    rintro before filter after rfl hconnected
    obtain ⟨ch, hch⟩ := exists_subscribed hconnected filter after
    rw [unread_of_getElem? hch.channel, hch.messages]
  case reading =>
    rintro before filter after rfl hconnected hlistening
    obtain ⟨ch, hch⟩ := exists_subscribed hconnected filter after
    have hlistens := hch.listening.mpr hlistening
    rw [unread_of_getElem? hch.channel, run_append, got_performAll_receive hch.channel hlistens,
      hch.messages]
  case apart =>
    intro n others hsame
    have halike := run_alike hsame
    exact ⟨halike.got, by rw [unread, unread, halike.channel]⟩
  case refused =>
    intro hdisconnected m
    refine ⟨?_, ?_⟩
    · simp [Broker.publish, hdisconnected]
    · rw [run_concat, perform_publish, hdisconnected]
      rfl
  case published =>
    intro hconnected m
    have hnext : (run (uses ++ [.publish m])).broker = { (run uses).broker with
        history := (run uses).broker.history ++ [m]
        channels := (run uses).broker.channels.map (Channel.offer m) } := by
      rw [run_concat, perform_publish, if_pos hconnected]
    refine ⟨(run uses).broker.dispatchEvents m, ?_, ?_, reach_eq_reached hconnected m, ?_⟩
    · rw [Broker.publish, if_pos hconnected, hnext]
      rfl
    · rw [hnext]
    · rw [Broker.dispatchEvents, List.getLast?_concat, reach_eq_reached hconnected]

/-- One message on another topic, and one that comes when nobody listens any more. -/
example : accepted [.connect] "a/+" [.publish ⟨"a/b", []⟩, .publish ⟨"c", []⟩, .drop 0,
    .publish ⟨"a/d", []⟩] = [⟨"a/b", []⟩] := by
  decide +kernel

end Session

end BleBridge.Bus
