import BleBridge.Proofs.Bus.Topics
import BleBridge.Proofs.Routine.Runs
import BleBridge.Proofs.Service.Monitoring
import BleBridge.Service.Driver

/-!
# The topic of a reading request

The names in a segment that asks to monitor are written into a topic as they are.
A slash in a name makes levels of its own there, so the request stays three levels
below its base just if neither name has a slash in it (`below_readingTopic_iff`), and
then no other pair of names leads to its topic (`readingTopic_eq_iff`).
-/

namespace BleBridge

namespace Bus

variable {topic base : String}

/-- Stands for other levels in a filter. -/
def IsWildcard (level : String) : Prop := level = "+" ∨ level = "#"

instance : DecidablePred IsWildcard := fun level ↦
  inferInstanceAs (Decidable (level = "+" ∨ level = "#"))

/-- The topic has three levels behind those of its base, and none of the three is a wildcard. -/
def Below (base topic : String) : Prop :=
  ∃ added, levels topic = levels base ++ added ∧ added.length = 3 ∧
    ∀ level ∈ added, ¬ IsWildcard level

end Bus

namespace Routine

/-- The topic that a call asks on. -/
def asked : Exchange → Option String
  | ⟨.request topic _ _, _⟩ => some topic
  | _ => none

end Routine

namespace Attempt

open Routine (Exchange asked)

variable {α β : Type} {p : Attempt α} {f : α → Attempt β}

/-- Nothing is asked on the bus. -/
def Quiet (p : Attempt α) : Prop := ∀ t result, p.run.Runs t result → t.filterMap asked = []

/-- One topic is asked on, or none if the subscription to the responses fails. -/
def AsksOn (p : Attempt α) (topic response : String) : Prop :=
  ∀ t result, p.run.Runs t result → t.filterMap asked = [topic] ∨
    t.filterMap asked = [] ∧ ∃ e, result = .error e ∧
      (⟨.subscribeResponse response, .error e⟩ : Exchange) ∈ t

theorem Quiet.bind (hp : p.Quiet) (hf : ∀ a, (f a).Quiet) : (p >>= f).Quiet := by
  intro t result h
  rcases runs_bind_iff.mp h with ⟨e, hfailed, -⟩ | ⟨t₁, t₂, a, rfl, hfirst, hsecond⟩
  · exact hp t _ hfailed
  · rw [List.filterMap_append, hp t₁ _ hfirst, hf a t₂ _ hsecond]
    rfl

theorem quiet_log (e : Event) : (log e).Quiet := by
  rintro t result ⟨_, t', rfl, rfl, -⟩
  rfl

theorem quiet_ofExcept (r : Except BridgeError α) : (ofExcept r).Quiet := by
  rintro t result ⟨rfl, -⟩
  rfl

theorem asked_request {topic : String} {payload : Json} {timeout : Option Millis}
    {t : List Exchange} {reply : Except BridgeError Bus.Envelope}
    (h : (request topic payload timeout).run.Runs t reply) : t.filterMap asked = [topic] := by
  obtain ⟨_, _, rfl, _, _, rfl, _, _, rfl, rfl, -⟩ := h
  rfl

end Attempt

/-! ## Values over the link -/

namespace Link.Sender

open Attempt (Quiet)

theorem quiet_sendPackets (s : Sender) (tag : String) (packets : List Frame.Packet) :
    Quiet (s.sendPackets tag packets) := by
  induction packets with
  | nil => exact Attempt.quiet_ofExcept (.ok ())
  | cons p rest ih =>
      rintro t result ⟨reply, t, rfl, h⟩
      cases reply with
      | ok _ =>
          obtain ⟨_, t, rfl, hrest⟩ := h
          exact ih t result hrest
      | error e =>
          obtain ⟨_, t, rfl, rfl, -⟩ := h
          rfl

theorem quiet_sendValue (s : Sender) (v : Json) : (s.sendValue v).Quiet := by
  have hid : Quiet (liftM Routine.drawId : Attempt String) := by
    rintro t result ⟨_, t, rfl, rfl, -⟩
    rfl
  refine hid.bind fun tag ↦ (Attempt.quiet_ofExcept _).bind fun packets ↦ ?_
  refine (Attempt.quiet_log _).bind fun _ ↦ ?_
  split
  · exact Attempt.quiet_log _
  · exact (quiet_sendPackets s tag packets).bind fun _ ↦ Attempt.quiet_log _

end Link.Sender

theorem Service.Driver.quiet_outlet (d : Driver) (v : Json) : (d.outlet v).Quiet :=
  d.link.quiet_sendValue v

namespace Service.Commands

open Bus (Below IsWildcard levels)
open Routine (Exchange Runs asked)

variable {c : Commands} {topics : Config.Topics}
  {device resource device' resource' segment : String} {t : List Exchange} {result : Except BridgeError Unit}

/-! ## Levels -/

/-- One level of a topic, and no wildcard. -/
structure IsLevel (name : String) : Prop where
  slashless : '/' ∉ name.toList
  plain : ¬ IsWildcard name

theorem levels_readingTopic (topics : Config.Topics) (device resource : String) :
    levels (readingTopic topics device resource) =
      levels topics.readingRequest ++ (levels device ++ (levels resource ++ ["get"])) := by
  have htopic : readingTopic topics device resource =
      topics.readingRequest ++ "/" ++ (device ++ "/" ++ (resource ++ "/" ++ "get")) := by
    simp only [readingTopic, String.append_assoc]
    rfl
  have hget : levels "get" = ["get"] := Bus.levels_of_slashless (by decide)
  rw [htopic, Bus.levels_join, Bus.levels_join, Bus.levels_join, hget]

theorem below_readingTopic_iff :
    Below topics.readingRequest (readingTopic topics device resource) ↔
      IsLevel device ∧ IsLevel resource := by
  have hget : ¬ IsWildcard "get" := by decide
  rw [Below, levels_readingTopic]
  constructor
  · rintro ⟨added, hadded, hlength, hplain⟩
    obtain rfl := List.append_cancel_left hadded
    simp only [List.length_append, Bus.length_levels, List.length_singleton] at hlength
    have hdevice : '/' ∉ device.toList := List.count_eq_zero.mp (by omega)
    have hresource : '/' ∉ resource.toList := List.count_eq_zero.mp (by omega)
    rw [Bus.levels_of_slashless hdevice, Bus.levels_of_slashless hresource] at hplain
    exact ⟨⟨hdevice, hplain device (by simp)⟩, ⟨hresource, hplain resource (by simp)⟩⟩
  · rintro ⟨hdevice, hresource⟩
    refine ⟨_, rfl, ?_⟩
    rw [Bus.levels_of_slashless hdevice.slashless, Bus.levels_of_slashless hresource.slashless]
    simp [hdevice.plain, hresource.plain, hget]

/-! ## Names -/

theorem readingTopic_eq_iff :
    readingTopic topics device resource = readingTopic topics device' resource' ↔
      device ++ "/" ++ resource = device' ++ "/" ++ resource' := by
  constructor
  · intro h
    have hlist := congrArg String.toList h
    simp only [readingTopic, String.toList_append] at hlist
    have hrest := List.append_cancel_right hlist
    simp only [List.append_assoc] at hrest
    apply String.toList_inj.mp
    simp only [String.toList_append, List.append_assoc]
    exact List.append_cancel_left (List.append_cancel_left hrest)
  · intro h
    have htopic (device resource : String) : readingTopic topics device resource =
        topics.readingRequest ++ "/" ++ (device ++ "/" ++ resource) ++ "/get" := by
      simp only [readingTopic, String.append_assoc]
    rw [htopic, htopic, h]

/-- Behind devices without a slash, the topic tells the names. -/
theorem eq_of_readingTopic_eq (hdevice : '/' ∉ device.toList) (hdevice' : '/' ∉ device'.toList)
    (h : readingTopic topics device resource = readingTopic topics device' resource') :
    device = device' ∧ resource = resource' := by
  have hcut (name rest : String) (hname : '/' ∉ name.toList) :
      Text.cut? ['/'] (name ++ "/" ++ rest).toList = some (name.toList, rest.toList) := by
    simp only [String.toList_append, List.append_assoc]
    exact Text.cut?_singleton hname rest.toList
  have hpair := hcut device resource hdevice
  rw [readingTopic_eq_iff.mp h, hcut device' resource' hdevice'] at hpair
  simp only [Option.some.injEq, Prod.mk.injEq, String.toList_inj] at hpair
  exact ⟨hpair.1.symm, hpair.2.symm⟩

/-! ## What is asked -/

theorem asked_ensureSubscribed (h : c.ensureSubscribed.run.Runs t result) :
    t.filterMap asked = [] ∧ ∀ e, result = .error e →
      (⟨.subscribeResponse c.topics.response, .error e⟩ : Exchange) ∈ t := by
  obtain ⟨subscribed, t, rfl, h⟩ := h
  cases subscribed with
  | true =>
      obtain ⟨rfl, rfl⟩ := h
      exact ⟨rfl, fun e he ↦ by cases he⟩
  | false =>
      obtain ⟨reply, t, rfl, h⟩ := h
      cases reply with
      | error e =>
          obtain ⟨rfl, rfl⟩ := h
          refine ⟨rfl, fun e he ↦ ?_⟩
          cases he
          exact List.mem_cons_of_mem _ (List.mem_singleton_self _)
      | ok _ =>
          obtain ⟨_, t, rfl, rfl, rfl⟩ := h
          exact ⟨rfl, fun e he ↦ by cases he⟩

theorem asksOn_handle (hquiet : ∀ v, (c.outlet v).Quiet)
    (hparse : Instruction.parse segment = .ok (.monitor device resource)) :
    (c.handle segment).AsksOn (readingTopic c.topics device resource) c.topics.response := by
  rw [Attempt.AsksOn, c.handle_of_parse hparse]
  rintro _ result ⟨_, t, rfl, hfollow⟩
  rcases Attempt.runs_bind_iff.mp hfollow with ⟨e, hfailed, rfl⟩ | ⟨t₁, t₂, _, rfl, hfirst, hask⟩
  · obtain ⟨hasked, hsubscribe⟩ := asked_ensureSubscribed hfailed
    exact .inr ⟨hasked, e, rfl, List.mem_cons_of_mem _ (hsubscribe e rfl)⟩
  left
  show (t₁ ++ t₂).filterMap asked = _
  rw [List.filterMap_append, (asked_ensureSubscribed hfirst).1, List.nil_append]
  rcases Attempt.runs_bind_iff.mp hask with ⟨e, hrequest, rfl⟩ | ⟨t₂, t₃, _, rfl, hrequest, hrest⟩
  · exact Attempt.asked_request hrequest
  · have htail := (Attempt.quiet_ofExcept _).bind
      (fun r ↦ (Attempt.quiet_log (readingEvent device resource r)).bind
        fun _ ↦ hquiet r.toJson) t₃ result hrest
    rw [List.filterMap_append, Attempt.asked_request hrequest, htail]
    rfl

/-- The request of a segment stays where it belongs if the names are levels. -/
theorem asked_below_iff (hquiet : ∀ v, (c.outlet v).Quiet)
    (hparse : Instruction.parse segment = .ok (.monitor device resource)) :
    (c.handle segment).AsksOn (readingTopic c.topics device resource) c.topics.response ∧
      (Below c.topics.readingRequest (readingTopic c.topics device resource) ↔
        IsLevel device ∧ IsLevel resource) ∧
      ∀ device' resource',
        (readingTopic c.topics device resource = readingTopic c.topics device' resource' ↔
          device ++ "/" ++ resource = device' ++ "/" ++ resource') ∧
        (IsLevel device → IsLevel device' →
          readingTopic c.topics device resource = readingTopic c.topics device' resource' →
            device = device' ∧ resource = resource') := by
  refine ⟨asksOn_handle hquiet hparse, below_readingTopic_iff, fun device' resource' ↦ ?_⟩
  refine ⟨readingTopic_eq_iff, fun hdevice hdevice' htopic ↦ ?_⟩
  exact eq_of_readingTopic_eq hdevice.slashless hdevice'.slashless htopic

theorem asked_below_of_levels : ∃ d : Driver, Driver.ofConfig {} = .ok d ∧
    Instruction.parse "monitor,Random-Integer-Device,Int8" =
      .ok (.monitor "Random-Integer-Device" "Int8") ∧
    (d.commands.handle "monitor,Random-Integer-Device,Int8").AsksOn
      "edgex/core/command/request/Random-Integer-Device/Int8/get" "edgex/response/#" ∧
    Below "edgex/core/command/request"
      "edgex/core/command/request/Random-Integer-Device/Int8/get" := by
  have hparse : Instruction.parse "monitor,Random-Integer-Device,Int8" =
      .ok (.monitor "Random-Integer-Device" "Int8") :=
    Instruction.parse_joined "Random-Integer-Device" "Int8" (by decide) (by decide) (by decide)
      (by decide)
  obtain ⟨d, hd⟩ : ∃ d, Driver.ofConfig {} = .ok d := ⟨_, rfl⟩
  have hconfig : d.config = {} := by
    cases hd
    rfl
  obtain ⟨hasks, hbelow, -⟩ := asked_below_iff (c := d.commands) d.quiet_outlet hparse
  rw [Driver.commands, hconfig] at hasks hbelow
  refine ⟨d, hd, hparse, ?_, ?_⟩
  · rw [Driver.commands, hconfig]
    exact hasks
  · exact hbelow.mpr ⟨⟨by decide, by decide⟩, ⟨by decide, by decide⟩⟩

/-- A device can be named so that its request takes the topic of another, or holds wildcards. -/
theorem steered_elsewhere :
    Instruction.parse "monitor,a/b,c" = .ok (.monitor "a/b" "c") ∧
      Instruction.parse "monitor,a,b/c" = .ok (.monitor "a" "b/c") ∧
      readingTopic {} "a/b" "c" = readingTopic {} "a" "b/c" ∧
      ¬ Below "edgex/core/command/request" (readingTopic {} "a/b" "c") ∧
      Instruction.parse "monitor,+,#" = .ok (.monitor "+" "#") ∧
      ¬ Below "edgex/core/command/request" (readingTopic {} "+" "#") := by
  refine ⟨?_, ?_, by decide, fun hbelow ↦ ?_, ?_, fun hbelow ↦ ?_⟩
  · exact Instruction.parse_joined "a/b" "c" (by decide) (by decide) (by decide) (by decide)
  · exact Instruction.parse_joined "a" "b/c" (by decide) (by decide) (by decide) (by decide)
  · exact absurd (below_readingTopic_iff.mp hbelow).1.slashless (by decide)
  · exact Instruction.parse_joined "+" "#" (by decide) (by decide) (by decide) (by decide)
  · exact absurd (below_readingTopic_iff.mp hbelow).1.plain (by decide)

end Service.Commands

end BleBridge
