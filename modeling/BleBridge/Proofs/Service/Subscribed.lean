import BleBridge.Proofs.Service.Settled

/-!
# Requests and the subscription to their responses

Behind every request of the service stands a grant of a subscription to its response
topic.  Responses reach the waiters if and only if there is an unbroken subscription
to it; on a calm run a grant is as good as that (`hears_iff_unbroken`).

On other runs it is not (`asks_unheard`).  The flag of the service outlives a
disconnection, and the subscription does not; and a topic counts as subscribed to
while the bus is still asked for its channel, which it may refuse.
-/

namespace BleBridge.Bench

/-- The request is published next. -/
def Wait.asks : {c : Call} → Wait c → Bool
  | .request _ _ _, .response r =>
      match r.phase with
      | .registered => true
      | _ => false
  | .enqueue _, _ | .subscribeResponse _, _ | .disconnect, _ | .closeMux, _ => false

def Errand.asks : Errand → Bool
  | .going _ => false
  | .waiting _ wait _ => wait.asks

theorem Errand.presumes_of_asks {x : Errand} (h : x.asks) :
    ∃ c wait next, x = .waiting c wait next ∧ c.presumes := by
  cases x with
  | going p => cases h
  | waiting c wait next =>
      refine ⟨c, wait, next, rfl, ?_⟩
      cases wait with
      | response r => rfl
      | _ => cases h

end BleBridge.Bench

namespace BleBridge.Service

open Bench (Device)
open Site (Calm Granted Informed Unbroken)

variable {c : Commands} {s : Site} {topic : String} {known : Prop} {n : Nat}

/-- The service is about to publish the request of the segment at `n`. -/
def Site.asks (s : Site) (n : Nat) : Bool :=
  s.chores[n]?.any fun x ↦ x.own && x.errand.asks

theorem Site.Informed.known_of_asks (h : Informed topic known s) (hasks : s.asks n) : known := by
  obtain ⟨x, hn, hx⟩ := (Option.any_eq_true _ _).mp hasks
  obtain ⟨hown, hasks⟩ := Bool.and_eq_true_iff.mp hx
  have hcareful := h.careful x (List.mem_of_getElem? hn) hown
  obtain ⟨call, wait, next, hwaits, hpresumes⟩ := Bench.Errand.presumes_of_asks hasks
  rw [hwaits] at hcareful
  exact hcareful.1 hpresumes

/-- When the service publishes a request, a subscription to its response topic has been granted to
it. From then on responses are heard if and only if there is an unbroken subscription to the topic,
as there is while nothing disturbs the run. The sending of values asks for nothing behind the
service's back, as over the link of the driver (`Driver.careful_outlet`). -/
theorem hears_iff_unbroken (c : Commands)
    (houtlet : ∀ v, (c.outlet v).run.Careful c.topics.response False)
    (settings : Config.Mux) (device : Device) (before after : List Act) {n : Nat}
    (hasks : ((Site.new settings device).run c before).asks n) :
    Granted c (.new settings device) c.topics.response before ∧
      (((Site.new settings device).run c (before ++ after)).world.Hears c.topics.response ↔
        Unbroken c (.new settings device) c.topics.response (before ++ after)) ∧
      (Calm c c.topics.response (.new settings device) (before ++ after) →
        ((Site.new settings device).run c (before ++ after)).world.Hears c.topics.response) := by
  have hgranted := (Site.informed_run houtlet settings device before).known_of_asks hasks
  have horderly := (Site.orderly_new settings device).run c (before ++ after)
  refine ⟨hgranted, horderly.tidy.hears_iff.trans Site.unbroken_iff.symm, fun hcalm ↦ ?_⟩
  have hlive := (Site.settled_run hcalm).live (hgranted.append after)
  exact horderly.tidy.hears_iff.mpr hlive

/-- A service that hands its values out. -/
def handing : Commands := ⟨{ allStatusRequest := "q", response := "r" }, fun v ↦ Routine.hand v⟩

theorem careful_handing (v : Json) :
    (handing.outlet v).run.Careful handing.topics.response False :=
  Routine.careful_call rfl fun _ ↦ ⟨trivial⟩

/-- The bus refuses the subscription for a first segment. A second one is handled up to its
request. -/
def retrying : List Act :=
  [.engage (Routine.perform .connect), .proceed 0, .happen (.refuse [.subscribe]),
      .receive "allstatus"] ++
    List.replicate 7 (.proceed 1) ++ [.happen (.refuse []), .receive "allstatus"] ++
    List.replicate 13 (.proceed 2)

/-- Once the request is published, the response is heard. -/
theorem hears_retrying :
    ((Site.new {} .mute).run handing retrying).asks 2 ∧
      ((Site.new {} .mute).run handing (retrying ++ [.proceed 2])).world.Hears
        handing.topics.response := by
  have hasks : ((Site.new {} .mute).run handing retrying).asks 2 := by decide +kernel
  obtain ⟨-, -, hhears⟩ :=
    hears_iff_unbroken handing careful_handing {} .mute retrying [.proceed 2] hasks
  exact ⟨hasks, hhears (by decide +kernel)⟩

/-! ## Requests without a subscription -/

/-- A request is about to be published on a connected bus, and its response will not be heard. -/
structure Unheard (acts : List Act) (n : Nat) : Prop where
  asks : ((Site.new {} .mute).run handing acts).asks n
  connected : ((Site.new {} .mute).run handing acts).world.client.isConnected
  unheard : ¬ ((Site.new {} .mute).run handing acts).world.Hears handing.topics.response

/-- The service subscribes for a first segment.  Then the bus is left and joined again, and a second
segment comes in. -/
def rejoining : List Act :=
  [.engage (Routine.perform .connect), .proceed 0, .receive "allstatus"] ++
    List.replicate 8 (.proceed 1) ++
    [.engage (Routine.perform .disconnect), .proceed 2, .proceed 2,
      .engage (Routine.perform .connect), .proceed 3, .receive "allstatus"] ++
    List.replicate 7 (.proceed 4)

/-- Two segments come in while the bus refuses subscriptions. The second one finds the topic noted
by the first, which gets no channel and strikes the topic off again. -/
def overlapping : List Act :=
  [.engage (Routine.perform .connect), .proceed 0, .happen (.refuse [.subscribe]),
      .receive "allstatus", .receive "allstatus"] ++
    List.replicate 5 (.proceed 1) ++ List.replicate 6 (.proceed 2) ++
    List.replicate 2 (.proceed 1) ++ List.replicate 5 (.proceed 2)

theorem asks_unheard : Unheard rejoining 4 ∧ Unheard overlapping 2 := by
  have hnone : ∀ {acts : List Act}, (∀ l ∈ ((Site.new {} .mute).run handing acts).world.listeners,
      l.round ≠ ((Site.new {} .mute).run handing acts).world.client.round) →
        ¬ ((Site.new {} .mute).run handing acts).world.Hears handing.topics.response := by
    rintro acts hpast ⟨l, hl, ch, hlistens, -⟩
    exact hpast l hl hlistens.lasts.round
  constructor
  · exact ⟨by decide +kernel, by decide +kernel, hnone (by decide +kernel)⟩
  · exact ⟨by decide +kernel, by decide +kernel, hnone (by decide +kernel)⟩

end BleBridge.Service
