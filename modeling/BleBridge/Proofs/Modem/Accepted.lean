import BleBridge.Modem.Command
import Mathlib.Data.List.Basic

/-!
# What the builders of command lines accept

Each builder checks its arguments and then writes its line.  The checks are told
here once, as a condition on the arguments alone (`IsUuid`, `IsName`, `IsText`), and
each builder gives a line if and only if its arguments meet them.  So do all
builders of the lines that bring the module up (`peripheralInit_eq_ok_iff`).
-/

namespace BleBridge

/-- A step behind another one succeeds if both do. -/
theorem bind_eq_ok_iff {ε α β : Type} {x : Except ε α} {f : α → Except ε β} {b : β} :
    (x >>= f) = .ok b ↔ ∃ a, x = .ok a ∧ f a = .ok b := by
  cases x with
  | error e =>
      constructor
      · intro h
        cases h
      · rintro ⟨a, h, -⟩
        cases h
  | ok a =>
      constructor
      · exact fun h ↦ ⟨a, rfl, h⟩
      · rintro ⟨_, ⟨⟩, h⟩
        exact h

/-- What stands behind a check. -/
theorem check_bind_eq_ok_iff {ε β : Type} {x : Except ε Unit} {y : Except ε β} {b : β} :
    (x >>= fun _ ↦ y) = .ok b ↔ x = .ok () ∧ y = .ok b := by
  rw [bind_eq_ok_iff]
  constructor
  · rintro ⟨_, hx, hy⟩
    exact ⟨hx, hy⟩
  · rintro ⟨hx, hy⟩
    exact ⟨(), hx, hy⟩

namespace Modem

variable {kind uuid handle name text l : String} {role min max value : Nat} {dbm rate : Int}

theorem Role.ofCode_eq_ok_iff {r : Role} : Role.ofCode role = .ok r ↔ r.code = role := by
  constructor
  · intro h
    rw [Role.ofCode.eq_def] at h
    split at h <;> cases h <;> rfl
  · rintro rfl
    exact r.ofCode_code

namespace Command

/-! ## Arguments -/

/-- Four or 32 hexadecimal digits. -/
structure IsUuid (uuid : String) : Prop where
  size : Text.size uuid = 4 ∨ Text.size uuid = 32
  digits : ∀ c ∈ uuid.toList, isHexDigit c

/-- A name that the module can be given. -/
structure IsName (name : String) : Prop where
  ne_empty : name ≠ ""
  size : Text.size name ≤ maxNameSize
  chars : ∀ c ∈ name.toList, isNameChar c

/-- No character of the text ends a line. -/
def Unbroken (text : String) : Prop := ∀ c ∈ text.toList, c ≠ '\r' ∧ c ≠ '\n'

/-- A text that fits into one notification. -/
structure IsText (text : String) : Prop where
  ne_empty : text ≠ ""
  size : Text.size text ≤ maxNotifySize
  unbroken : Unbroken text

theorem checkUuid_eq_ok_iff : checkUuid kind uuid = .ok () ↔ IsUuid uuid := by
  simp only [checkUuid, ite_eq_iff, refuse_eq_ok_iff, and_false, false_or, or_false, and_true,
    List.all_eq_true]
  constructor
  · rintro ⟨-, hsize, hdigits⟩
    exact ⟨by omega, hdigits⟩
  · rintro ⟨hsize, hdigits⟩
    refine ⟨?_, by omega, hdigits⟩
    rintro rfl
    have hzero : Text.size "" = 0 := rfl
    omega

theorem checkInterval_eq_ok_iff :
    checkInterval value = .ok () ↔ leastInterval ≤ value ∧ value ≤ mostInterval := by
  simp [checkInterval]

/-- A text that is written behind a checked handle. -/
theorem checked_eq_ok_iff {written : String} :
    (checkUuid kind uuid >>= fun _ ↦ pure written) = .ok l ↔ IsUuid uuid ∧ l = written := by
  rw [check_bind_eq_ok_iff, checkUuid_eq_ok_iff]
  constructor
  · rintro ⟨huuid, ⟨⟩⟩
    exact ⟨huuid, rfl⟩
  · rintro ⟨huuid, rfl⟩
    exact ⟨huuid, rfl⟩

/-- A hexadecimal digit is an ASCII character behind the signs and the control characters. -/
theorem le_of_isHexDigit {c : Char} (h : isHexDigit c) : 0x30 ≤ c.toNat := by
  simp only [isHexDigit, Bool.or_eq_true, Bool.and_eq_true, decide_eq_true_eq, Char.le_def,
    UInt32.le_iff_toNat_le] at h
  rcases h with (⟨hlow, -⟩ | ⟨hlow, -⟩) | ⟨hlow, -⟩
  · exact hlow
  · exact Nat.le_trans (by decide) hlow
  · exact Nat.le_trans (by decide) hlow

/-! ## Lines -/

theorem init_eq_ok_iff : init role = .ok l ↔
    (∃ r : Role, r.code = role) ∧ l = line ("AT+QBLEINIT=" ++ toString role) := by
  simp only [init, bind_eq_ok_iff, Role.ofCode_eq_ok_iff]
  constructor
  · rintro ⟨r, rfl, h⟩
    cases h
    exact ⟨⟨r, rfl⟩, rfl⟩
  · rintro ⟨⟨r, rfl⟩, rfl⟩
    exact ⟨r, rfl, rfl⟩

theorem setDeviceName_eq_ok_iff :
    setDeviceName name = .ok l ↔ IsName name ∧ l = line ("AT+QBLENAME=" ++ name) := by
  simp only [setDeviceName, ite_eq_iff, refuse_eq_ok_iff, and_false, false_or, Nat.not_lt]
  cases hfound : name.toList.find? (!isNameChar ·) with
  | none =>
      have hchars : ∀ c ∈ name.toList, isNameChar c := by simpa using hfound
      constructor
      · rintro ⟨hne, hsize, h⟩
        cases h
        exact ⟨⟨hne, hsize, hchars⟩, rfl⟩
      · rintro ⟨⟨hne, hsize, -⟩, rfl⟩
        exact ⟨hne, hsize, rfl⟩
  | some c =>
      have hc : ¬ isNameChar c := by simpa using List.find?_some hfound
      constructor
      · rintro ⟨-, -, h⟩
        cases h
      · rintro ⟨hname, -⟩
        exact absurd (hname.chars c (List.mem_of_find?_eq_some hfound)) hc

theorem setAdvertisingParams_eq_ok_iff : setAdvertisingParams min max = .ok l ↔
    (leastInterval ≤ min ∧ min ≤ max ∧ max ≤ mostInterval) ∧
      l = line ("AT+QBLEADVPARAM=" ++ toString min ++ "," ++ toString max) := by
  simp only [setAdvertisingParams, check_bind_eq_ok_iff, checkInterval_eq_ok_iff, ite_eq_iff,
    refuse_eq_ok_iff, and_false, false_or, Nat.not_lt]
  constructor
  · rintro ⟨⟨hmin, -⟩, ⟨-, hmax⟩, horder, ⟨⟩⟩
    exact ⟨⟨hmin, horder, hmax⟩, rfl⟩
  · rintro ⟨⟨hmin, horder, hmax⟩, rfl⟩
    exact ⟨⟨hmin, Nat.le_trans horder hmax⟩, ⟨Nat.le_trans hmin horder, hmax⟩, horder, rfl⟩

theorem addService_eq_ok_iff :
    addService uuid = .ok l ↔ IsUuid uuid ∧ l = line ("AT+QBLEGATTSSRV=" ++ uuid) :=
  checked_eq_ok_iff

theorem addCharacteristic_eq_ok_iff :
    addCharacteristic uuid = .ok l ↔ IsUuid uuid ∧ l = line ("AT+QBLEGATTSCHAR=" ++ uuid) :=
  checked_eq_ok_iff

theorem setTxPower_eq_ok_iff : setTxPower dbm = .ok l ↔
    (leastTxPower ≤ dbm ∧ dbm ≤ mostTxPower) ∧ l = line ("AT+QBLETXPWR=" ++ toString dbm) := by
  simp only [setTxPower, ite_eq_iff, refuse_eq_ok_iff, and_false, or_false, Except.ok.injEq,
    eq_comm (b := l)]
  exact Iff.rfl

theorem setBaud_eq_ok_iff : setBaud rate = .ok l ↔
    rate ∈ supportedRates.map Int.ofNat ∧ l = line ("AT+IPR=" ++ toString rate) := by
  simp only [setBaud, ite_eq_iff, refuse_eq_ok_iff, and_false, or_false, Except.ok.injEq,
    eq_comm (b := l)]
  exact Iff.rfl

theorem notifyLead_eq_ok_iff :
    notifyLead handle = .ok l ↔ IsUuid handle ∧ l = "AT+QBLEGATTSNTFY=0," ++ handle ++ "," :=
  checked_eq_ok_iff

theorem sendNotify_eq_ok_iff : sendNotify handle text = .ok l ↔
    (IsUuid handle ∧ IsText text) ∧
      l = line ("AT+QBLEGATTSNTFY=0," ++ handle ++ "," ++ text) := by
  simp only [sendNotify, ite_eq_iff, refuse_eq_ok_iff, and_false, false_or, Nat.not_lt,
    bind_eq_ok_iff, notifyLead_eq_ok_iff]
  constructor
  · rintro ⟨hne, hsize, hbreak, lead, ⟨huuid, rfl⟩, h⟩
    cases h
    refine ⟨⟨huuid, hne, hsize, ?_⟩, rfl⟩
    simpa [Unbroken] using hbreak
  · rintro ⟨⟨huuid, hne, hsize, hunbroken⟩, rfl⟩
    refine ⟨hne, hsize, ?_, _, ⟨huuid, rfl⟩, rfl⟩
    simpa [Unbroken] using hunbroken

/-! ## The lines that bring the module up -/

theorem peripheralInit_eq_ok_iff {service characteristic : String} {lines : List String} :
    peripheralInit name service characteristic = .ok lines ↔
      (IsUuid service ∧ IsUuid characteristic ∧ IsName name) ∧
        lines = [restart, line "AT+QBLEINIT=2", line "AT+QBLEADVPARAM=150,150",
          line ("AT+QBLEGATTSSRV=" ++ service), line ("AT+QBLEGATTSCHAR=" ++ characteristic),
          finishGattServer, line ("AT+QBLENAME=" ++ name), startAdvertising] := by
  simp only [peripheralInit, bind_eq_ok_iff, addService_eq_ok_iff, addCharacteristic_eq_ok_iff,
    setDeviceName_eq_ok_iff]
  constructor
  · rintro ⟨_, hinit, _, hparams, _, ⟨hservice, rfl⟩, _, ⟨hcharacteristic, rfl⟩, _, ⟨hname, rfl⟩, h⟩
    cases hinit
    cases hparams
    cases h
    exact ⟨⟨hservice, hcharacteristic, hname⟩, rfl⟩
  · rintro ⟨⟨hservice, hcharacteristic, hname⟩, rfl⟩
    exact ⟨_, rfl, _, rfl, _, ⟨hservice, rfl⟩, _, ⟨hcharacteristic, rfl⟩, _, ⟨hname, rfl⟩, rfl⟩

end Command

end Modem

end BleBridge
