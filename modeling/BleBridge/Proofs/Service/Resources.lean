import BleBridge.Service.Summary
import Mathlib.Data.List.Forall2

/-!
# Resources of devices

A response lists devices, their commands and the parameters of these, and any of them may
have the wrong shape.  What is kept of a response are the parameters that name a resource,
with the names of the command and the device above them: none of them is lost or moved
because of what stands beside it (`listings_resourceInfos`).  What is left out are commands
and devices without any (`commandInfo?_eq`, `resourceInfo?_eq`).
-/

namespace BleBridge

namespace Bus.Envelope

variable {e : Envelope} {payload : Json} {devices : List Json}

/-- The payload is the value, or a string that holds the text of the value. -/
def Carries (e : Envelope) (payload : Json) : Prop :=
  e.payload = payload ∨ ∃ text, e.payload = .string text ∧ Json.parseText text = some payload

theorem Carries.payloadJson_eq (h : e.Carries payload) {key : String} {member : Json}
    (hmember : payload.get? key = some member) : e.payloadJson = .ok payload := by
  rcases h with rfl | ⟨text, htext, hparse⟩
  · rw [payloadJson]
    split
    · rename_i text htext
      rw [htext] at hmember
      cases hmember
    · rfl
  · rw [payloadJson, htext]
    dsimp only
    rw [hparse]

end Bus.Envelope

namespace Service

open Bus (Envelope)

/-! ## What stands in a response -/

/-- The items of the list under a key.  Other values have none. -/
def itemsUnder (v : Json) (key : String) : List Json :=
  match v.get? key with
  | some (.array items) => items
  | _ => []

def stringUnder? (v : Json) (key : String) : Option String :=
  match v.get? key with
  | some (.string s) => some s
  | _ => none

/-- The string under a key.  Other values count as the empty string. -/
def nameUnder (v : Json) (key : String) : String := (stringUnder? v key).getD ""

/-- The resources that the parameters of a command name. -/
def resourcesOf (command : Json) : List String :=
  (itemsUnder command "parameters").filterMap (stringUnder? · "resourceName")

/-- A resource with the names above it. -/
structure Listing where
  deviceName : String
  profileName : String
  commandName : String
  resourceName : String
deriving DecidableEq, Repr

def listings (devices : List Json) : List Listing :=
  devices.flatMap fun device =>
    (itemsUnder device "coreCommands").flatMap fun command =>
      (resourcesOf command).map (Listing.mk (nameUnder device "deviceName")
        (nameUnder device "profileName") (nameUnder command "name"))

/-! ## What is kept of it -/

def ResourceInfo.listings (info : ResourceInfo) : List Listing :=
  info.commands.flatMap fun c =>
    c.resourceNames.map (Listing.mk info.deviceName info.profileName c.name)

/-- Made from this command. -/
structure CommandInfo.Tells (info : CommandInfo) (command : Json) : Prop where
  name_eq : info.name = nameUnder command "name"
  resourceNames_eq : info.resourceNames = resourcesOf command

/-- Made from this device, and the commands from its commands: in their order, and no two from the
same. -/
structure ResourceInfo.Tells (info : ResourceInfo) (device : Json) : Prop where
  deviceName_eq : info.deviceName = nameUnder device "deviceName"
  profileName_eq : info.profileName = nameUnder device "profileName"
  commands : List.SublistForall₂ CommandInfo.Tells info.commands (itemsUnder device "coreCommands")

variable {device command : Json} {devices : List Json} {e : Envelope}

theorem items?_getD (v : Json) (key : String) : (v.items? key).getD [] = itemsUnder v key := by
  rw [Json.items?, itemsUnder]
  cases v.get? key with
  | none => rfl
  | some member => cases member <;> rfl

theorem text?_eq (v : Json) (key : String) : v.text? key = stringUnder? v key := by
  rw [Json.text?, stringUnder?]
  cases v.get? key with
  | none => rfl
  | some member => cases member <;> rfl

theorem textMember_eq (v : Json) (key : String) : textMember v key = nameUnder v key := by
  rw [textMember, text?_eq, nameUnder]

theorem resourceNames_getD (command : Json) :
    (resourceNames command).getD [] = resourcesOf command := by
  simp only [resourceNames, resourcesOf, ← items?_getD, text?_eq]
  cases command.items? "parameters" with
  | none => rfl
  | some parameters => rfl

/-- A command is kept if its parameters name a resource. -/
theorem commandInfo?_eq (command : Json) : commandInfo? command =
    if resourcesOf command = [] then none
    else some ⟨nameUnder command "name", resourcesOf command⟩ := by
  rw [commandInfo?, textMember_eq, ← resourceNames_getD]
  cases resourceNames command with
  | none => rfl
  | some names =>
      cases names with
      | nil => rfl
      | cons name names => rfl

/-- The commands of a device that are kept. -/
def commandInfos (device : Json) : List CommandInfo :=
  (itemsUnder device "coreCommands").filterMap commandInfo?

/-- A device is kept if one of its commands is. -/
theorem resourceInfo?_eq (device : Json) : resourceInfo? device =
    if commandInfos device = [] then none
    else some ⟨nameUnder device "deviceName", nameUnder device "profileName",
      commandInfos device⟩ := by
  have hcommands : ((device.items? "coreCommands").map (List.filterMap commandInfo?)).getD [] =
      commandInfos device := by
    rw [commandInfos, ← items?_getD]
    cases device.items? "coreCommands" with
    | none => rfl
    | some commands => rfl
  rw [resourceInfo?, textMember_eq, textMember_eq, ← hcommands]
  cases (device.items? "coreCommands").map (List.filterMap commandInfo?) with
  | none => rfl
  | some commands =>
      cases commands with
      | nil => rfl
      | cons command commands => rfl

/-! ## Resource by resource -/

theorem flatMap_filterMap {α β γ : Type} (f : α → Option β) (g : β → List γ) (xs : List α) :
    (xs.filterMap f).flatMap g = xs.flatMap fun x => (f x).toList.flatMap g := by
  rw [List.filterMap_eq_flatMap_toList, List.flatMap_assoc]

theorem listings_commandInfos (device : Json) (deviceName profileName : String) :
    (commandInfos device).flatMap (fun c =>
        c.resourceNames.map (Listing.mk deviceName profileName c.name)) =
      (itemsUnder device "coreCommands").flatMap fun command =>
        (resourcesOf command).map
          (Listing.mk deviceName profileName (nameUnder command "name")) := by
  rw [commandInfos, flatMap_filterMap]
  refine List.flatMap_congr fun command _ ↦ ?_
  rw [commandInfo?_eq]
  split
  · rename_i hnone
    rw [hnone]
    rfl
  · exact List.flatMap_singleton _ _

theorem listings_resourceInfos (devices : List Json) :
    (devices.filterMap resourceInfo?).flatMap ResourceInfo.listings = listings devices := by
  rw [listings, flatMap_filterMap]
  refine List.flatMap_congr fun device _ ↦ ?_
  rw [← listings_commandInfos, resourceInfo?_eq]
  split
  · rename_i hnone
    rw [hnone]
    rfl
  · exact List.flatMap_singleton _ _

/-! ## Where it comes from -/

theorem sublistForall₂_filterMap {α β : Type} {R : β → α → Prop} {f : α → Option β}
    (h : ∀ x y, f x = some y → R y x) (xs : List α) :
    List.SublistForall₂ R (xs.filterMap f) xs := by
  induction xs with
  | nil => exact .nil
  | cons x xs ih =>
      cases hx : f x with
      | none =>
          rw [List.filterMap_cons_none hx]
          exact .cons_right ih
      | some y =>
          rw [List.filterMap_cons_some hx]
          exact .cons (h x y hx) ih

theorem commandInfo?_eq_some {info : CommandInfo} (h : commandInfo? command = some info) :
    info.Tells command ∧ info.resourceNames ≠ [] := by
  rw [commandInfo?_eq] at h
  split at h
  · cases h
  · rename_i hsome
    cases h
    exact ⟨⟨rfl, rfl⟩, hsome⟩

theorem resourceInfo?_eq_some {info : ResourceInfo} (h : resourceInfo? device = some info) :
    info.Tells device ∧ info.commands ≠ [] ∧ ∀ c ∈ info.commands, c.resourceNames ≠ [] := by
  rw [resourceInfo?_eq] at h
  split at h
  · cases h
  · rename_i hsome
    cases h
    refine ⟨⟨rfl, rfl, ?_⟩, hsome, ?_⟩
    · exact sublistForall₂_filterMap (fun _ _ h ↦ (commandInfo?_eq_some h).1) _
    · intro c hc
      obtain ⟨command, -, hcommand⟩ := List.mem_filterMap.mp hc
      exact (commandInfo?_eq_some hcommand).2

theorem resourceInfos_eq {payload : Json} (hpayload : e.Carries payload)
    (hdevices : payload.get? "deviceCoreCommands" = some (.array devices)) :
    resourceInfos e = .ok (devices.filterMap resourceInfo?) := by
  have hitems : payload.items? "deviceCoreCommands" = some devices := by
    rw [Json.items?, hdevices]
    rfl
  rw [resourceInfos, hpayload.payloadJson_eq hdevices]
  simp only [bind, Except.bind, hitems]
  rfl

/-- Whatever stands in the list of devices, the response is read: the resources that are kept are
those that the parameters name, in their order, each under the names of its command and its device;
no device and no command is kept for nothing, and none is made from the same one as another. -/
theorem resourceInfos_lossless {payload : Json} (hpayload : e.Carries payload)
    (hdevices : payload.get? "deviceCoreCommands" = some (.array devices)) :
    ∃ infos, resourceInfos e = .ok infos ∧
      (∀ info ∈ infos, info.commands ≠ [] ∧ ∀ c ∈ info.commands, c.resourceNames ≠ []) ∧
      infos.flatMap ResourceInfo.listings = listings devices ∧
      List.SublistForall₂ ResourceInfo.Tells infos devices := by
  refine ⟨devices.filterMap resourceInfo?, resourceInfos_eq hpayload hdevices, ?_,
    listings_resourceInfos devices, ?_⟩
  · intro info hinfo
    obtain ⟨device, -, hdevice⟩ := List.mem_filterMap.mp hinfo
    exact (resourceInfo?_eq_some hdevice).2
  · exact sublistForall₂_filterMap (fun _ _ h ↦ (resourceInfo?_eq_some h).1) devices

/-- Devices of which one is no device, one has a command of the wrong shape, and one has nothing. -/
def mixedDevices : List Json :=
  [.string "not-a-device",
    .object [("coreCommands", .array [.null, .object [("name", .int 8), ("parameters",
      .array [.object [("resourceName", .string "Int8")], .object [("resourceName", .null)],
        .object [("resourceName", .string "Int8")]])]]), ("deviceName", .string "Random")],
    .object [("coreCommands", .array [.object [("name", .string "Bare")]])]]

def mixedResponse : Json := .object [("deviceCoreCommands", .array mixedDevices)]

theorem resourceInfos_lossless_mixed : ∃ infos,
    resourceInfos { Envelope.blank with payload := mixedResponse } = .ok infos ∧
    infos.flatMap ResourceInfo.listings =
      [⟨"Random", "", "", "Int8"⟩, ⟨"Random", "", "", "Int8"⟩] ∧
    List.SublistForall₂ ResourceInfo.Tells infos mixedDevices := by
  have hcarries : Envelope.Carries { Envelope.blank with payload := mixedResponse } mixedResponse :=
    .inl rfl
  have hlisted : listings mixedDevices =
      [⟨"Random", "", "", "Int8"⟩, ⟨"Random", "", "", "Int8"⟩] := by decide
  obtain ⟨infos, hok, -, hlistings, htells⟩ := resourceInfos_lossless hcarries rfl
  exact ⟨infos, hok, hlistings.trans hlisted, htells⟩

end Service

end BleBridge
