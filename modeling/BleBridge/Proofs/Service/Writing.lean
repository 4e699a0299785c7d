import BleBridge.Proofs.Modem.Accepted
import BleBridge.Proofs.Modem.Policies
import BleBridge.Proofs.Modem.Refused
import BleBridge.Proofs.Mux.Answers
import BleBridge.Proofs.Text.Ascii
import BleBridge.Service.Driver

/-!
# Writes

A value that is written to a resource stands for lines that builders make of it
(`Builds`).  All of them are built before the first one goes out, so a write that is
invalid sends nothing.  No line is ever refused as invalid once it is sent: it has a
command, and what the module says of a command is another kind of failure
(`write_validated_first`).
-/

namespace BleBridge

/-! ## Checks -/

section Checks

variable {α β : Type} {r : Except BridgeError α}

/-- A check fails only since the request is invalid. -/
def Checks (r : Except BridgeError α) : Prop :=
  (∃ reason, r = .error (.validation reason)) ∨ ∃ a, r = .ok a

theorem checks_ok (a : α) : Checks (.ok a) := .inr ⟨a, rfl⟩

theorem checks_invalid (reason : String) : Checks (.error (.validation reason) : Except _ α) :=
  .inl ⟨reason, rfl⟩

theorem Checks.bind (h : Checks r) {f : α → Except BridgeError β} (hf : ∀ a, Checks (f a)) :
    Checks (r >>= f) := by
  rcases h with ⟨reason, rfl⟩ | ⟨a, rfl⟩
  · exact checks_invalid reason
  · exact hf a

theorem Checks.ite {p : Prop} [Decidable p] {x y : Except BridgeError α} (hx : Checks x)
    (hy : Checks y) : Checks (if p then x else y) := by
  split
  · exact hx
  · exact hy

/-- To the bridge, a command that is refused is an invalid request. -/
theorem checks_bridged {r : Except Fault α} (h : Modem.Command.Refuses r) :
    Checks (bridged r) := by
  cases r with
  | ok a => exact checks_ok a
  | error fault =>
      obtain ⟨p, rfl⟩ := h fault rfl
      exact checks_invalid _

theorem bridged_eq_ok_iff {r : Except Fault α} {a : α} : bridged r = .ok a ↔ r = .ok a := by
  cases r <;> simp [bridged]

end Checks

namespace Service.Driver

open Modem.Command
open Modem.Controller
open Routine (Exchange Runs orders replies)

variable {d : Driver} {resource : String} {value : Json} {lines : List String}

/-! ## What is built -/

/-- The lines that the builders make of a value for a resource. -/
inductive Builds (d : Driver) : String → Json → List String → Prop where
  | peripheralInit {value : Json} {name : String} {lines : List String}
      (named : (value.get? "BleName").bind Json.asString? = some name)
      (built : peripheralInit name d.config.ble.service d.config.ble.characteristic = .ok lines) :
      Builds d Resource.peripheralInit value lines
  | txPower {value : Json} {dbm : Int} {line : String} (number : wholeValue? value = some dbm)
      (small : -128 ≤ dbm ∧ dbm ≤ 127) (built : setTxPower dbm = .ok line) :
      Builds d Resource.txPower value [line]
  | baud {value : Json} {rate : Int} {line : String} (number : wholeValue? value = some rate)
      (built : setBaud rate = .ok line) : Builds d Resource.baud value [line]
  | sendString {value : Json} {text line : String} (string : value.asString? = some text)
      (built : sendNotify d.config.link.handle text = .ok line) :
      Builds d Resource.sendString value [line]

theorem textValue_eq_ok_iff {member : Option Json} {complaint s : String} :
    textValue member complaint = .ok s ↔ member.bind Json.asString? = some s := by
  rw [textValue]
  cases member.bind Json.asString? <;> simp

theorem intValue_eq_ok_iff {n : Int} :
    intValue resource value = .ok n ↔ wholeValue? value = some n := by
  rw [intValue]
  cases wholeValue? value <;> simp

theorem byteValue_eq_ok_iff {n : Int} : byteValue resource value = .ok n ↔
    wholeValue? value = some n ∧ -128 ≤ n ∧ n ≤ 127 := by
  simp only [byteValue, bind_eq_ok_iff, intValue_eq_ok_iff]
  constructor
  · rintro ⟨m, hm, h⟩
    rw [inRange] at h
    by_cases hsmall : -128 ≤ m ∧ m ≤ 127
    · rw [if_pos hsmall] at h
      cases h
      exact ⟨hm, hsmall⟩
    · rw [if_neg hsmall] at h
      cases h
  · rintro ⟨hn, hsmall⟩
    refine ⟨n, hn, ?_⟩
    rw [inRange, if_pos hsmall]
    rfl

theorem checks_textValue (member : Option Json) (complaint : String) :
    Checks (textValue member complaint) := by
  rw [textValue]
  split
  · exact checks_ok _
  · exact checks_invalid _

theorem checks_intValue (resource : String) (value : Json) : Checks (intValue resource value) := by
  rw [intValue]
  split
  · exact checks_ok _
  · exact checks_invalid _

theorem checks_byteValue (resource : String) (value : Json) :
    Checks (byteValue resource value) := by
  refine (checks_intValue resource value).bind fun n ↦ ?_
  split
  · exact checks_ok _
  · exact checks_invalid _

theorem checks_linesFor (d : Driver) (resource : String) (value : Json) :
    Checks (d.linesFor resource value) := by
  refine .ite ?_ (.ite ?_ (.ite ?_ (.ite ?_ (checks_invalid _))))
  · exact (checks_textValue _ _).bind fun _ ↦ checks_bridged (refuses_peripheralInit _ _ _)
  · exact (checks_byteValue _ _).bind fun _ ↦
      (checks_bridged (refuses_setTxPower _)).bind fun _ ↦ checks_ok _
  · exact (checks_intValue _ _).bind fun _ ↦
      (checks_bridged (refuses_setBaud _)).bind fun _ ↦ checks_ok _
  · exact (checks_textValue _ _).bind fun _ ↦
      (checks_bridged (refuses_sendNotify _ _)).bind fun _ ↦ checks_ok _

/-- A single line that was built. -/
theorem single_eq_ok_iff {r : Except Fault String} :
    (bridged r >>= fun line ↦ pure [line]) = .ok lines ↔ ∃ line, r = .ok line ∧ lines = [line] := by
  rw [bind_eq_ok_iff]
  constructor
  · rintro ⟨line, hline, ⟨⟩⟩
    exact ⟨line, bridged_eq_ok_iff.mp hline, rfl⟩
  · rintro ⟨line, hline, rfl⟩
    exact ⟨line, bridged_eq_ok_iff.mpr hline, rfl⟩

theorem linesFor_eq_ok_iff :
    d.linesFor resource value = .ok lines ↔ Builds d resource value lines := by
  constructor
  · intro h
    rw [linesFor] at h
    split at h
    · rename_i hresource
      subst hresource
      obtain ⟨name, hname, hbuilt⟩ := bind_eq_ok_iff.mp h
      exact .peripheralInit (textValue_eq_ok_iff.mp hname) (bridged_eq_ok_iff.mp hbuilt)
    split at h
    · rename_i hresource
      subst hresource
      obtain ⟨dbm, hdbm, h⟩ := bind_eq_ok_iff.mp h
      obtain ⟨line, hbuilt, rfl⟩ := single_eq_ok_iff.mp h
      obtain ⟨hnumber, hsmall⟩ := byteValue_eq_ok_iff.mp hdbm
      exact .txPower hnumber hsmall hbuilt
    split at h
    · rename_i hresource
      subst hresource
      obtain ⟨rate, hrate, h⟩ := bind_eq_ok_iff.mp h
      obtain ⟨line, hbuilt, rfl⟩ := single_eq_ok_iff.mp h
      exact .baud (intValue_eq_ok_iff.mp hrate) hbuilt
    split at h
    · rename_i hresource
      subst hresource
      obtain ⟨text, htext, h⟩ := bind_eq_ok_iff.mp h
      obtain ⟨line, hbuilt, rfl⟩ := single_eq_ok_iff.mp h
      exact .sendString (textValue_eq_ok_iff.mp htext) hbuilt
    · cases h
  · intro h
    cases h with
    | peripheralInit named built =>
        exact bind_eq_ok_iff.mpr ⟨_, textValue_eq_ok_iff.mpr named, bridged_eq_ok_iff.mpr built⟩
    | txPower number small built =>
        exact bind_eq_ok_iff.mpr ⟨_, byteValue_eq_ok_iff.mpr ⟨number, small⟩,
          single_eq_ok_iff.mpr ⟨_, built, rfl⟩⟩
    | baud number built =>
        exact bind_eq_ok_iff.mpr ⟨_, intValue_eq_ok_iff.mpr number,
          single_eq_ok_iff.mpr ⟨_, built, rfl⟩⟩
    | sendString string built =>
        exact bind_eq_ok_iff.mpr ⟨_, textValue_eq_ok_iff.mpr string,
          single_eq_ok_iff.mpr ⟨_, built, rfl⟩⟩

theorem Builds.eq_line (h : Builds d resource value lines) :
    ∀ l ∈ lines, ∃ body, l = line body := by
  cases h with
  | peripheralInit named built =>
      obtain ⟨-, rfl⟩ := peripheralInit_eq_ok_iff.mp built
      simp only [List.forall_mem_cons]
      exact ⟨⟨_, rfl⟩, ⟨_, rfl⟩, ⟨_, rfl⟩, ⟨_, rfl⟩, ⟨_, rfl⟩, ⟨_, rfl⟩, ⟨_, rfl⟩, ⟨_, rfl⟩, nofun⟩
  | txPower number small built =>
      obtain ⟨-, rfl⟩ := setTxPower_eq_ok_iff.mp built
      exact List.forall_mem_singleton.mpr ⟨_, rfl⟩
  | baud number built =>
      obtain ⟨-, rfl⟩ := setBaud_eq_ok_iff.mp built
      exact List.forall_mem_singleton.mpr ⟨_, rfl⟩
  | sendString string built =>
      obtain ⟨-, rfl⟩ := sendNotify_eq_ok_iff.mp built
      exact List.forall_mem_singleton.mpr ⟨_, rfl⟩

theorem Builds.length_eq (h : Builds d resource value lines) :
    lines.length = if resource = Resource.peripheralInit then 8 else 1 := by
  cases h with
  | peripheralInit named built =>
      obtain ⟨-, rfl⟩ := peripheralInit_eq_ok_iff.mp built
      rfl
  | txPower | baud | sendString => rfl

theorem Builds.isKnown (h : Builds d resource value lines) : isKnown resource := by
  cases h <;> rfl

/-! ## What is sent -/

/-- A write is given up before it has sent anything, or sends lines that were built. -/
theorem runs_write_cases {t : List Exchange} {result : Except BridgeError Unit}
    (h : (d.write resource value).run.Runs t result) :
    (orders t = [] ∧ ∃ e, d.linesFor resource value = .error e ∧ result = .error e) ∨
      ∃ lines, Builds d resource value lines ∧
        (d.sendLines resource value lines).run.Runs t result := by
  by_cases hknown : isKnown resource
  · rw [write, hknown] at h
    rcases Attempt.runs_ofExcept_bind_iff.mp h with ⟨e, he, rfl, rfl⟩ | ⟨lines, hlines, hsent⟩
    · exact .inl ⟨rfl, e, he, rfl⟩
    · exact .inr ⟨lines, linesFor_eq_ok_iff.mp hlines, hsent⟩
  · rw [write, eq_false_of_ne_true hknown] at h
    rcases Attempt.runs_bind_iff.mp h with ⟨_, ⟨_, _, _, _, ⟨⟩⟩, _⟩ | ⟨_, t, _, rfl, hlogged, hrest⟩
    obtain ⟨_, _, rfl, rfl, -⟩ := hlogged
    rcases Attempt.runs_ofExcept_bind_iff.mp hrest with ⟨e, he, rfl, rfl⟩ | ⟨lines, hlines, -⟩
    · exact .inl ⟨rfl, e, he, rfl⟩
    · exact absurd (linesFor_eq_ok_iff.mp hlines).isKnown hknown

theorem sends_sendLines {t : List Exchange} {result : Except BridgeError Unit}
    (hbuilds : Builds d resource value lines)
    (h : (d.sendLines resource value lines).run.Runs t result) :
    Sends d.controller lines (.ok ()) t result := by
  by_cases hresource : resource = Resource.peripheralInit
  · rw [sendLines, if_pos hresource] at h
    rcases Attempt.runs_bind_iff.mp h with ⟨_, hfailed, rfl⟩ | ⟨t, _, _, rfl, hsent, hlogged⟩
    · exact sends_replayFrom hfailed
    · obtain ⟨_, _, rfl, rfl, rfl⟩ := hlogged
      exact (sends_replayFrom hsent).log _
  · have hone := hbuilds.length_eq
    rw [if_neg hresource] at hone
    obtain ⟨line, rfl⟩ := List.length_eq_one_iff.mp hone
    rw [sendLines, if_neg hresource] at h
    have hsent : ∃ r, (d.controller.sendSingle line).run.Runs t r ∧
        result = r.map fun _ ↦ () := by
      rcases Attempt.runs_bind_iff.mp h with ⟨e, hline, rfl⟩ | ⟨t, _, _, rfl, hline, rfl, rfl⟩
      · rcases Attempt.runs_bind_iff.mp hline with ⟨_, hline, ⟨⟩⟩ | ⟨_, _, _, _, _, _, ⟨⟩⟩
        exact ⟨.error e, hline, rfl⟩
      · rcases Attempt.runs_bind_iff.mp hline with
          ⟨_, _, ⟨⟩⟩ | ⟨_, _, response, rfl, hsingle, rfl, _⟩
        rw [List.append_nil, List.append_nil]
        exact ⟨.ok response, hsingle, rfl⟩
    obtain ⟨_, hline, rfl⟩ := hsent
    obtain ⟨reply, rfl, rfl⟩ := runs_sendSingle_iff.mp hline
    exact sends_exchanges d.controller line reply

/-- A command that fails is not an invalid request, whatever the module says of it. -/
theorem wasInvalid_of_failure? {reply : Except BridgeError String} {e : BridgeError}
    (hvalid : wasInvalid reply = false) (h : Modem.Controller.failure? reply = some e) :
    ∀ reason, e ≠ .validation reason := by
  rintro reason rfl
  cases reply with
  | error e =>
      cases h
      cases hvalid
  | ok response =>
      cases hcheck : Modem.checkResponse response with
      | ok u =>
          rw [failure?_eq_none_iff.mpr ⟨response, rfl, hcheck⟩] at h
          cases h
      | error fault =>
          have hfault := isDeviceFailure_of_checkResponse hcheck
          rw [failure?_of_error hcheck] at h
          cases fault with
          | commandFailed | moduleError | unexpected => cases h
          | _ => cases hfault

theorem command_ne_nil (c : Modem.Controller) (body : String) :
    (c.order (line body)).command ≠ [] := by
  change Text.bytes (body ++ terminator) ≠ []
  rw [Text.bytes_append]
  exact List.append_ne_nil_of_right_ne_nil _ (by decide)

/-- Lines that were built may fail in many ways, but not as invalid. -/
theorem wasInvalid_eq_false_of_sends {t : List Exchange} {result : Except BridgeError Unit}
    (hbuilds : Builds d resource value lines) (h : Sends d.controller lines (.ok ()) t result)
    (hanswers : ∀ o reply, (⟨.enqueue o, reply⟩ : Exchange) ∈ t → Mux.Answers o reply) :
    wasInvalid result = false := by
  cases result with
  | ok _ => rfl
  | error e =>
      rcases h.failed e rfl with ⟨⟨⟩⟩ | ⟨reply, hreply, hfailure⟩
      obtain ⟨o, ho, hmem⟩ := Routine.exists_of_mem_replies hreply
      obtain ⟨l, hl, rfl⟩ := List.mem_map.mp (h.inOrder.subset ho)
      obtain ⟨body, rfl⟩ := hbuilds.eq_line l hl
      have hvalid := (hanswers _ reply hmem).wasInvalid_eq_false (command_ne_nil _ body)
      have hother := wasInvalid_of_failure? hvalid hfailure
      cases e with
      | validation reason => exact absurd rfl (hother reason)
      | _ => rfl

/-- A write is invalid if and only if nothing is built of its value, and then nothing is sent,
however the module answers.  Otherwise a front of the lines is sent, in their order and at least
one of them, and the write succeeds only if all of them were accepted. -/
theorem write_validated_first {t : List Exchange} {result : Except BridgeError Unit}
    (h : (d.write resource value).run.Runs t result)
    (hanswers : ∀ o reply, (⟨.enqueue o, reply⟩ : Exchange) ∈ t → Mux.Answers o reply) :
    (wasInvalid result ↔ ¬ ∃ lines, Builds d resource value lines) ∧
    (wasInvalid result → orders t = []) ∧
    (¬ wasInvalid result → ∃ lines, Builds d resource value lines ∧
      lines.length = (if resource = Resource.peripheralInit then 8 else 1) ∧
      orders t ≠ [] ∧ orders t <+: lines.map d.controller.order) ∧
    (result = .ok () → ∃ lines, Builds d resource value lines ∧
      orders t = lines.map d.controller.order ∧
      ∀ reply ∈ replies t,
        ∃ response, reply = .ok response ∧ Modem.checkResponse response = .ok ()) := by
  rcases runs_write_cases h with ⟨hnone, e, he, rfl⟩ | ⟨lines, hbuilds, hsent⟩
  · have hnothing : ¬ ∃ lines, Builds d resource value lines := by
      rintro ⟨lines, hbuilds⟩
      rw [linesFor_eq_ok_iff.mpr hbuilds] at he
      cases he
    have hinvalid : wasInvalid (.error e : Except BridgeError Unit) := by
      rcases checks_linesFor d resource value with ⟨reason, hreason⟩ | ⟨lines, hlines⟩
      · rw [hreason] at he
        cases he
        rfl
      · exact absurd ⟨lines, linesFor_eq_ok_iff.mp hlines⟩ hnothing
    exact ⟨⟨fun _ ↦ hnothing, fun _ ↦ hinvalid⟩, fun _ ↦ hnone, absurd hinvalid, nofun⟩
  · have hsends := sends_sendLines hbuilds hsent
    have hvalid : ¬ wasInvalid result := by
      rw [wasInvalid_eq_false_of_sends hbuilds hsends hanswers]
      exact Bool.false_ne_true
    have hlines : lines ≠ [] := by
      rw [← List.length_pos_iff, hbuilds.length_eq]
      split <;> decide
    refine ⟨⟨fun hinvalid ↦ absurd hinvalid hvalid,
        fun hnothing ↦ absurd ⟨lines, hbuilds⟩ hnothing⟩,
      fun hinvalid ↦ absurd hinvalid hvalid,
      fun _ ↦ ⟨lines, hbuilds, hbuilds.length_eq, hsends.begun hlines, hsends.inOrder⟩, ?_⟩
    intro hok
    obtain ⟨-, hall, haccepted⟩ := hsends.whole hok
    exact ⟨lines, hbuilds, hall, fun reply hreply ↦
      failure?_eq_none_iff.mp (haccepted reply hreply)⟩

/-- A driver with the standard settings. -/
def plain : Driver := ⟨{}, ⟨⟨40, [], [0x0D], by decide, by decide⟩, 0, 0, 0⟩⟩

/-- The exchanges of a write to which the module says that all is well. -/
def settled : List Exchange :=
  [⟨.enqueue (plain.controller.order "AT+QBLETXPWR=4\r\n"), .ok "OK"⟩,
    ⟨.log (Modem.Controller.replyEvent "AT+QBLETXPWR=4\r\n" "OK"), ()⟩]

theorem answers_settled (o : Mux.Order) (reply : Except BridgeError String)
    (h : (⟨.enqueue o, reply⟩ : Exchange) ∈ settled) : Mux.Answers o reply := by
  have hrun : (Mux.State.follow [] (Mux.new {})
      [(0, .enter (plain.controller.order "AT+QBLETXPWR=4\r\n") 0), (1, .take), (2, .wrote),
        (3, .handOff), (4, .receive (Text.bytes "OK\r\n")), (5, .readLine), (6, .delayEnds)]).any
      (fun (_, s) ↦ s.resultOf 0 = some (.ok "OK")) = true := by
    decide +kernel
  obtain ⟨⟨_, s⟩, hfollow, hs⟩ := (Option.any_eq_true _ _).mp hrun
  rcases List.mem_cons.mp h with heq | h
  · cases heq
    exact (Mux.Run.start.follow hfollow).answers (of_decide_eq_true hs) _
  · cases List.mem_singleton.mp h

theorem write_validated_first_of_text :
    (plain.write Resource.txPower (.string " +4 ")).run.Runs settled (.ok ()) ∧
      (∃ lines, Builds plain Resource.txPower (.string " +4 ") lines ∧
        orders settled = lines.map plain.controller.order) ∧
      (plain.write Resource.txPower (.string "128")).run.Runs []
        (.error (.validation "SetTxPower value \"128\" out of range")) ∧
      ¬ ∃ lines, Builds plain Resource.txPower (.string "128") lines := by
  have hruns : (plain.write Resource.txPower (.string " +4 ")).run.Runs settled (.ok ()) :=
    ⟨_, _, rfl, _, _, rfl, rfl, rfl⟩
  have hrefused : (plain.write Resource.txPower (.string "128")).run.Runs []
      (.error (.validation "SetTxPower value \"128\" out of range")) := ⟨rfl, rfl⟩
  obtain ⟨-, -, -, hwhole⟩ := write_validated_first hruns answers_settled
  obtain ⟨hinvalid, -⟩ := write_validated_first hrefused nofun
  obtain ⟨lines, hbuilds, hall, -⟩ := hwhole rfl
  exact ⟨hruns, ⟨lines, hbuilds, hall⟩, hrefused, hinvalid.mp rfl⟩

end Service.Driver

end BleBridge
