import BleBridge.Proofs.Bench.Hearing
import BleBridge.Proofs.Modem.Accepted
import BleBridge.Proofs.Text.Ascii
import BleBridge.Proofs.Text.Lines
import BleBridge.Proofs.Text.Separated
import BleBridge.Proofs.Text.Visible
import Std.Data.String.ToInt

/-!
# What a command line asks for

A builder writes a keyword, an equals sign and the values it was given.  Its checks
keep line breaks out of all values and commas out of all but the last, so nothing in
an argument can end the line or pass for another argument: a line is one command
(`OneEach`), and what was asked for is read back from it (`ofLine?_line`).
-/

namespace BleBridge.Modem

namespace Command

open Bench (Peripheral)

variable {s t written : String} {bodies : List String}

/-! ## Texts without line breaks -/

theorem unbroken_append : Unbroken (s ++ t) ↔ Unbroken s ∧ Unbroken t := by
  rw [Unbroken, String.toList_append, List.forall_mem_append]
  rfl

theorem unbroken_of_allVisible (h : AllVisible s.toList) : Unbroken s := by
  intro c hc
  have hvisible : Visible c := h c hc
  constructor <;>
    · rintro rfl
      revert hvisible
      decide

theorem IsUuid.unbroken (h : IsUuid s) : Unbroken s :=
  unbroken_of_allVisible fun c hc ↦ Nat.le_trans (by decide) (le_of_isHexDigit (h.digits c hc))

theorem IsName.unbroken (h : IsName s) : Unbroken s := by
  apply unbroken_of_allVisible
  intro c hc
  have hchar := h.chars c hc
  simp only [isNameChar, Bool.and_eq_true, decide_eq_true_eq] at hchar
  exact hchar.1.1.1

theorem unbordered_terminator : Text.Unbordered terminator.toList := by
  have honce : Text.Unbordered ([] ++ '\r' :: ([] ++ ['\n'])) :=
    Text.unbordered_of_once List.not_mem_nil List.not_mem_nil List.not_mem_nil (by decide)
  exact honce

theorem no_terminator (h : Unbroken written) : ¬ terminator.toList <:+: written.toList :=
  fun hpart ↦ (h '\r' (hpart.subset List.mem_cons_self)).1 rfl

theorem no_lineEnd (h : Unbroken written) :
    ¬ Peripheral.lineEnd <:+: Text.bytes written := by
  intro hpart
  refine Text.notMem_bytes (b := 0x0D) (by decide) (fun c hc heq ↦ ?_)
    (hpart.subset List.mem_cons_self)
  exact (h c hc).1 (Char.toNat_inj.mp heq)

/-! ## One command for each line -/

/-- Lines that reach the device as one command each, in whatever chunks their bytes come. -/
structure OneEach (lines bodies : List String) : Prop where
  eq : lines = bodies.map Command.line
  unbroken : ∀ body ∈ bodies, Unbroken body
  heard : ∀ (p : Peripheral) (chunks : List Bytes), p.pending = [] →
    chunks.flatten = lines.flatMap Text.bytes → p.HearsEach (bodies.map Text.bytes) chunks

theorem oneEach_lines (h : ∀ body ∈ bodies, Unbroken body) :
    OneEach (bodies.map Command.line) bodies := by
  refine ⟨rfl, h, fun p chunks hpending hchunks ↦ ?_⟩
  have hstream : (bodies.map Command.line).flatMap Text.bytes =
      (bodies.map Text.bytes).flatMap (· ++ Peripheral.lineEnd) := by
    simp only [List.flatMap_map, Command.line, Text.bytes_append]
    rfl
  rw [Peripheral.hearsEach_iff hpending (hchunks.trans hstream)]
  intro command hcommand
  obtain ⟨body, hbody, rfl⟩ := List.mem_map.mp hcommand
  exact no_lineEnd (h body hbody)

end Command

open Command

/-- What a builder can be asked for. -/
inductive Intent where
  | init (role : Nat)
  | deviceName (name : String)
  | advertising (min max : Nat)
  | service (uuid : String)
  | characteristic (uuid : String)
  | txPower (dbm : Int)
  | baud (rate : Int)
  | notify (handle text : String)
deriving DecidableEq, Repr

namespace Intent

variable {i j : Intent} {l : String} {c : Char}

/-- The line that the builder gives. -/
def line : Intent → Except Fault String
  | .init role => Command.init role
  | .deviceName name => setDeviceName name
  | .advertising min max => setAdvertisingParams min max
  | .service uuid => addService uuid
  | .characteristic uuid => addCharacteristic uuid
  | .txPower dbm => setTxPower dbm
  | .baud rate => setBaud rate
  | .notify handle text => sendNotify handle text

def keyword : Intent → String
  | .init _ => "AT+QBLEINIT"
  | .deviceName _ => "AT+QBLENAME"
  | .advertising _ _ => "AT+QBLEADVPARAM"
  | .service _ => "AT+QBLEGATTSSRV"
  | .characteristic _ => "AT+QBLEGATTSCHAR"
  | .txPower _ => "AT+QBLETXPWR"
  | .baud _ => "AT+IPR"
  | .notify _ _ => "AT+QBLEGATTSNTFY"

/-- What stands behind the equals sign. -/
def value : Intent → String
  | .init role => toString role
  | .deviceName name => name
  | .advertising min max => toString min ++ "," ++ toString max
  | .service uuid => uuid
  | .characteristic uuid => uuid
  | .txPower dbm => toString dbm
  | .baud rate => toString rate
  | .notify handle text => "0," ++ handle ++ "," ++ text

/-- The line without its end. -/
def body (i : Intent) : String := i.keyword ++ "=" ++ i.value

/-- The arguments meet the checks of the builder. -/
def Accepted : Intent → Prop
  | .init role => ∃ r : Role, r.code = role
  | .deviceName name => IsName name
  | .advertising min max => leastInterval ≤ min ∧ min ≤ max ∧ max ≤ mostInterval
  | .service uuid => IsUuid uuid
  | .characteristic uuid => IsUuid uuid
  | .txPower dbm => leastTxPower ≤ dbm ∧ dbm ≤ mostTxPower
  | .baud rate => rate ∈ supportedRates.map Int.ofNat
  | .notify handle text => IsUuid handle ∧ IsText text

theorem line_eq_ok_iff :
    i.line = .ok l ↔ i.Accepted ∧ l = Command.line i.body := by
  cases i with
  | init role => exact init_eq_ok_iff
  | deviceName name => exact setDeviceName_eq_ok_iff
  | advertising min max =>
      refine setAdvertisingParams_eq_ok_iff.trans (and_congr_right fun _ ↦ ?_)
      simp [body, keyword, value, ← String.append_assoc]
  | service uuid => exact addService_eq_ok_iff
  | characteristic uuid => exact addCharacteristic_eq_ok_iff
  | txPower dbm => exact setTxPower_eq_ok_iff
  | baud rate => exact setBaud_eq_ok_iff
  | notify handle text =>
      refine sendNotify_eq_ok_iff.trans (and_congr_right fun _ ↦ ?_)
      simp [body, keyword, value, ← String.append_assoc]

/-! ## What the builders write -/

theorem unbroken_value (h : i.Accepted) : Unbroken i.value := by
  have hnat (n : Nat) : Unbroken (toString n) := unbroken_of_allVisible (allVisible_nat n)
  have hint (n : Int) : Unbroken (toString n) := unbroken_of_allVisible (allVisible_int n)
  have hmarks : Unbroken "," ∧ Unbroken "0," := by
    constructor <;>
      · apply unbroken_of_allVisible
        decide
  cases i with
  | init role => exact hnat role
  | deviceName name => exact h.unbroken
  | advertising min max =>
      simp only [value, unbroken_append]
      exact ⟨⟨hnat min, hmarks.1⟩, hnat max⟩
  | service uuid => exact h.unbroken
  | characteristic uuid => exact h.unbroken
  | txPower dbm => exact hint dbm
  | baud rate => exact hint rate
  | notify handle text =>
      obtain ⟨hhandle, htext⟩ := h
      simp only [value, unbroken_append]
      exact ⟨⟨⟨hmarks.2, hhandle.unbroken⟩, hmarks.1⟩, htext.unbroken⟩

theorem keyword_chars (i : Intent) : ∀ c ∈ i.keyword.toList, Visible c ∧ c ≠ '=' := by
  cases i <;> simp [keyword, Visible]

theorem unbroken_body (h : i.Accepted) : Unbroken i.body := by
  have hkeyword : Unbroken i.keyword := unbroken_of_allVisible fun c hc ↦ (i.keyword_chars c hc).1
  have hequals : Unbroken "=" := by
    apply unbroken_of_allVisible
    decide
  exact unbroken_append.mpr ⟨unbroken_append.mpr ⟨hkeyword, hequals⟩, unbroken_value h⟩

/-! ## Reading a line -/

/-- What a value behind a keyword stands for. -/
def ofValue? (keyword : String) (value : List Char) : Option Intent :=
  match keyword with
  | "AT+QBLEINIT" => (String.ofList value).toNat?.map .init
  | "AT+QBLENAME" => some (.deviceName (String.ofList value))
  | "AT+QBLEADVPARAM" => do
      let (min, max) ← Text.cut? [','] value
      return .advertising (← (String.ofList min).toNat?) (← (String.ofList max).toNat?)
  | "AT+QBLEGATTSSRV" => some (.service (String.ofList value))
  | "AT+QBLEGATTSCHAR" => some (.characteristic (String.ofList value))
  | "AT+QBLETXPWR" => (String.ofList value).toInt?.map .txPower
  | "AT+IPR" => (String.ofList value).toInt?.map .baud
  | "AT+QBLEGATTSNTFY" => do
      let (_, rest) ← Text.cut? [','] value
      let (handle, text) ← Text.cut? [','] rest
      return .notify (String.ofList handle) (String.ofList text)
  | _ => none

/-- What a line asks for. -/
def ofLine? (l : String) : Option Intent := do
  let (body, _) ← Text.cut? terminator.toList l.toList
  let (keyword, value) ← Text.cut? ['='] body
  ofValue? (String.ofList keyword) value

theorem notMem_toString {n : Nat} (hc : ¬ c.isDigit) : c ∉ (toString n).toList :=
  fun h ↦ hc (isDigit_of_mem_toString h)

theorem notMem_of_isUuid {uuid : String} (huuid : IsUuid uuid) (hc : ¬ isHexDigit c) :
    c ∉ uuid.toList :=
  fun h ↦ hc (huuid.digits c h)

/-- A line is read back from its values: all but the last are without a comma. -/
theorem ofValue?_value (h : i.Accepted) : ofValue? i.keyword i.value.toList = some i := by
  cases i with
  | init role =>
      simp only [ofValue?, keyword, value, String.ofList_toList, Nat.toString_eq_repr,
        Nat.toNat?_repr]
      rfl
  | deviceName name => exact congrArg (some ∘ deviceName) String.ofList_toList
  | advertising min max =>
      have hvalue : (toString min ++ "," ++ toString max).toList =
          (toString min).toList ++ ',' :: (toString max).toList := by
        simp only [String.toList_append, List.append_assoc]
        rfl
      have hmin : (toString min).toNat? = some min := Nat.toNat?_repr min
      have hmax : (toString max).toNat? = some max := Nat.toNat?_repr max
      have hcut := Text.cut?_singleton (notMem_toString (n := min) (c := ',') (by decide))
        (toString max).toList
      simp only [ofValue?, keyword, value, hvalue, hcut, Option.bind_eq_bind, Option.bind_some,
        String.ofList_toList, hmin, hmax]
      rfl
  | service uuid => exact congrArg (some ∘ service) String.ofList_toList
  | characteristic uuid => exact congrArg (some ∘ characteristic) String.ofList_toList
  | txPower dbm =>
      simp only [ofValue?, keyword, value, String.ofList_toList, Int.toString_eq_repr,
        Int.toInt?_repr]
      rfl
  | baud rate =>
      simp only [ofValue?, keyword, value, String.ofList_toList, Int.toString_eq_repr,
        Int.toInt?_repr]
      rfl
  | notify handle text =>
      have hvalue : ("0," ++ handle ++ "," ++ text).toList =
          ['0'] ++ ',' :: (handle.toList ++ ',' :: text.toList) := by
        simp only [String.toList_append, List.append_assoc]
        rfl
      have hnumber : ',' ∉ ['0'] := by decide
      have hzero := Text.cut?_singleton hnumber (handle.toList ++ ',' :: text.toList)
      have hhandle := Text.cut?_singleton (notMem_of_isUuid (c := ',') h.1 (by decide)) text.toList
      simp only [ofValue?, keyword, value, hvalue, hzero, hhandle, Option.bind_eq_bind,
        Option.bind_some, String.ofList_toList]
      rfl

theorem ofLine?_line (h : i.line = .ok l) : ofLine? l = some i := by
  obtain ⟨haccepted, rfl⟩ := line_eq_ok_iff.mp h
  have hkeyword : '=' ∉ i.keyword.toList := fun hc ↦ (i.keyword_chars '=' hc).2 rfl
  have hbody : i.body.toList = i.keyword.toList ++ '=' :: i.value.toList := by
    simp only [body, String.toList_append, List.append_assoc]
    rfl
  have hcut := Text.cut?_append_mark unbordered_terminator
    (no_terminator (unbroken_body haccepted))
  rw [hbody] at hcut
  simp only [ofLine?, Command.line, String.toList_append, hbody, hcut,
    Text.cut?_singleton hkeyword, Option.bind_eq_bind, Option.bind_some, String.ofList_toList]
  exact ofValue?_value haccepted

/-- The builder and its arguments are told by the line. -/
theorem eq_of_line_eq (hi : i.line = .ok l) (hj : j.line = .ok l) : j = i := by
  have hread := ofLine?_line hi
  rw [ofLine?_line hj] at hread
  exact Option.some.inj hread

/-- Eight commands bring the module up. -/
theorem oneEach_peripheralInit {name service characteristic : String} {lines : List String}
    (h : peripheralInit name service characteristic = .ok lines) :
    ∃ bodies, bodies.length = 8 ∧ OneEach lines bodies := by
  obtain ⟨⟨hservice, hcharacteristic, hname⟩, rfl⟩ := peripheralInit_eq_ok_iff.mp h
  have hfixed : ∀ text ∈ ["AT+QRST", "AT+QBLEGATTSSRVDONE", "AT+QBLEADVSTART"], Unbroken text := by
    intro text htext
    apply unbroken_of_allVisible
    revert text
    decide
  have hasked : ∀ i ∈ [init 2, advertising 150 150, .service service,
      .characteristic characteristic, deviceName name], Unbroken i.body := by
    intro i hi
    apply unbroken_body
    simp only [List.mem_cons, List.not_mem_nil, or_false] at hi
    rcases hi with rfl | rfl | rfl | rfl | rfl
    · exact ⟨.peripheral, rfl⟩
    · exact ⟨by decide, by decide, by decide⟩
    · exact hservice
    · exact hcharacteristic
    · exact hname
  simp only [List.forall_mem_cons] at hfixed hasked
  obtain ⟨hrestart, hfinish, hstart, -⟩ := hfixed
  obtain ⟨hinit, hparams, hservice, hcharacteristic, hname, -⟩ := hasked
  have hbodies : ∀ body ∈ ["AT+QRST", (init 2).body, (advertising 150 150).body,
      (Intent.service service).body, (Intent.characteristic characteristic).body,
      "AT+QBLEGATTSSRVDONE", (deviceName name).body, "AT+QBLEADVSTART"], Unbroken body := by
    simp only [List.forall_mem_cons]
    exact ⟨hrestart, hinit, hparams, hservice, hcharacteristic, hfinish, hname, hstart,
      List.forall_mem_nil _⟩
  exact ⟨_, rfl, oneEach_lines hbodies⟩

/-- No argument adds a command to a line or passes for another argument. -/
theorem lines_unambiguous :
    (∀ (i : Intent) (l : String), i.line = .ok l →
      (∃ body, OneEach [l] [body]) ∧ ofLine? l = some i ∧ ∀ j : Intent, j.line = .ok l → j = i) ∧
    ∀ (name service characteristic : String) (lines : List String),
      peripheralInit name service characteristic = .ok lines →
        ∃ bodies, bodies.length = 8 ∧ OneEach lines bodies := by
  constructor
  · intro i l hi
    obtain ⟨haccepted, hl⟩ := line_eq_ok_iff.mp hi
    refine ⟨⟨i.body, ?_⟩, ofLine?_line hi, fun j hj ↦ eq_of_line_eq hi hj⟩
    rw [hl]
    exact oneEach_lines (List.forall_mem_singleton.mpr (unbroken_body haccepted))
  · intro name service characteristic lines hlines
    exact oneEach_peripheralInit hlines

/-- A text may hold commas, equals signs and keywords. -/
theorem lines_unambiguous_of_commas :
    (notify "fff2" "0,AT+IPR=9600,").line = .ok "AT+QBLEGATTSNTFY=0,fff2,0,AT+IPR=9600,\r\n" ∧
      (∃ body, OneEach ["AT+QBLEGATTSNTFY=0,fff2,0,AT+IPR=9600,\r\n"] [body]) ∧
      ofLine? "AT+QBLEGATTSNTFY=0,fff2,0,AT+IPR=9600,\r\n" =
        some (notify "fff2" "0,AT+IPR=9600,") ∧
      ∃ lines bodies, peripheralInit "AT+QRST" "fff1" "FFF2" = .ok lines ∧ bodies.length = 8 ∧
        OneEach lines bodies := by
  have hnotify : (notify "fff2" "0,AT+IPR=9600,").line =
      .ok "AT+QBLEGATTSNTFY=0,fff2,0,AT+IPR=9600,\r\n" := by rfl
  obtain ⟨hline, hread, -⟩ := lines_unambiguous.1 _ _ hnotify
  obtain ⟨bodies, hlength, hbodies⟩ := lines_unambiguous.2 "AT+QRST" "fff1" "FFF2" _ rfl
  exact ⟨hnotify, hline, hread, _, bodies, rfl, hlength, hbodies⟩

end Intent

end BleBridge.Modem
