import BleBridge.Modem.Command

/-!
# Commands that are refused

A builder that fails blames what it was to build from, and nothing else (`Refuses`).
That holds of the checks, and of whatever is put together from checks.
-/

namespace BleBridge.Modem.Command

variable {α β : Type} {r : Except Fault α}

/-- What was not built was refused for what it was to be built from. -/
def Refuses (r : Except Fault α) : Prop := ∀ fault, r = .error fault → ∃ p, fault = .parameter p

theorem refuses_ok (a : α) : Refuses (.ok a : Except Fault α) := nofun

theorem refuses_refuse (fault : ParameterFault) : Refuses (refuse fault : Except Fault α) := by
  rintro _ ⟨⟩
  exact ⟨fault, rfl⟩

theorem Refuses.bind (h : Refuses r) {f : α → Except Fault β} (hf : ∀ a, Refuses (f a)) :
    Refuses (r >>= f) := by
  cases r with
  | ok a => exact hf a
  | error fault =>
      rintro _ ⟨⟩
      exact h fault rfl

theorem Refuses.ite {p : Prop} [Decidable p] {x y : Except Fault α} (hx : Refuses x)
    (hy : Refuses y) : Refuses (if p then x else y) := by
  split
  · exact hx
  · exact hy

theorem refuses_checkUuid (kind uuid : String) : Refuses (checkUuid kind uuid) :=
  .ite (refuses_refuse _) (.ite (refuses_refuse _) (.ite (refuses_ok _) (refuses_refuse _)))

theorem refuses_init (role : Nat) : Refuses (init role) := by
  refine Refuses.bind ?_ fun _ ↦ refuses_ok _
  rw [Role.ofCode.eq_def]
  split
  · exact refuses_ok _
  · exact refuses_ok _
  · exact refuses_ok _
  · exact refuses_refuse _

theorem refuses_setDeviceName (name : String) : Refuses (setDeviceName name) := by
  refine .ite (refuses_refuse _) (.ite (refuses_refuse _) ?_)
  split
  · exact refuses_refuse _
  · exact refuses_ok _

theorem refuses_checkInterval (value : Nat) : Refuses (checkInterval value) :=
  .ite (refuses_ok _) (refuses_refuse _)

theorem refuses_setAdvertisingParams (min max : Nat) : Refuses (setAdvertisingParams min max) :=
  (refuses_checkInterval min).bind fun _ ↦ (refuses_checkInterval max).bind fun _ ↦
    .ite (refuses_refuse _) (refuses_ok _)

theorem refuses_setTxPower (dbm : Int) : Refuses (setTxPower dbm) :=
  .ite (refuses_ok _) (refuses_refuse _)

theorem refuses_setBaud (rate : Int) : Refuses (setBaud rate) :=
  .ite (refuses_ok _) (refuses_refuse _)

theorem refuses_sendNotify (handle text : String) : Refuses (sendNotify handle text) :=
  .ite (refuses_refuse _) (.ite (refuses_refuse _) (.ite (refuses_refuse _)
    (((refuses_checkUuid _ handle).bind fun _ ↦ refuses_ok _).bind fun _ ↦ refuses_ok _)))

theorem refuses_peripheralInit (name service characteristic : String) :
    Refuses (peripheralInit name service characteristic) :=
  (refuses_init _).bind fun _ ↦ (refuses_setAdvertisingParams _ _).bind fun _ ↦
    ((refuses_checkUuid _ service).bind fun _ ↦ refuses_ok _).bind fun _ ↦
      ((refuses_checkUuid _ characteristic).bind fun _ ↦ refuses_ok _).bind fun _ ↦
        (refuses_setDeviceName name).bind fun _ ↦ refuses_ok _

end BleBridge.Modem.Command
