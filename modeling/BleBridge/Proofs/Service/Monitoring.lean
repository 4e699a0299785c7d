import BleBridge.Proofs.Text.Padded
import BleBridge.Proofs.Text.Separated
import BleBridge.Service.Instruction

/-!
# Segments that ask to monitor

A segment asks to monitor with the word `monitor`, a device and a resource between
commas, and blanks around each of them (`Asks`).  It is read so if neither name has
`allstatus` in it, and otherwise as a request for all devices (`parse_asks`): the
words are searched for in the whole segment.
-/

namespace BleBridge.Service.Instruction

variable {segment device resource text : String}

/-- A part of a segment as it is handed on. -/
structure IsPart (part : String) : Prop where
  nonempty : part ≠ ""
  commaless : ',' ∉ part.toList
  trimmed : Text.trimChars part.toList = part.toList

instance (part : String) : Decidable (IsPart part) :=
  decidable_of_iff
    (part ≠ "" ∧ ',' ∉ part.toList ∧ Text.trimChars part.toList = part.toList)
    ⟨fun h ↦ ⟨h.1, h.2.1, h.2.2⟩, fun h ↦ ⟨h.nonempty, h.commaless, h.trimmed⟩⟩

/-- `monitor`, the device and the resource between commas, with blanks around them. -/
def Asks (device resource segment : String) : Prop :=
  ∃ word name value, segment.toList = word ++ ',' :: (name ++ ',' :: value) ∧
    Text.Padded "monitor".toList word ∧ Text.Padded device.toList name ∧
    Text.Padded resource.toList value

theorem asks_joined (device resource : String) :
    Asks device resource ("monitor" ++ "," ++ device ++ "," ++ resource) := by
  refine ⟨_, _, _, ?_, Text.padded_self _, Text.padded_self _, Text.padded_self _⟩
  simp only [String.toList_append, List.append_assoc]
  rfl

/-! ## Parts -/

theorem parts_eq (text : String) : parts text =
    (text.toList.splitOn ',').map fun piece ↦ String.ofList (Text.trimChars piece) := by
  rw [parts, Text.splitAt_singleton]

theorem ofList_trimChars {part : String} {written : List Char} (hpart : IsPart part)
    (h : Text.Padded part.toList written) : String.ofList (Text.trimChars written) = part := by
  rw [h.trimChars_eq, hpart.trimmed, String.ofList_toList]

theorem isPart_monitor : IsPart "monitor" := by decide

theorem parse_eq_monitor_iff : parse segment = .ok (.monitor device resource) ↔
    ¬ Text.contains (Text.trim segment) "allstatus" ∧ Text.contains (Text.trim segment) "monitor" ∧
      (device ≠ "" ∧ resource ≠ "") ∧
      ∃ word later, parts (Text.trim segment) = word :: device :: resource :: later := by
  by_cases hall : Text.contains (Text.trim segment) "allstatus"
  · rw [parse, if_pos hall]
    simp [hall]
  by_cases hmonitor : Text.contains (Text.trim segment) "monitor"
  · rw [parse, if_neg hall, if_pos hmonitor]
    simp only [hall, hmonitor, true_and]
    split
    · rename_i word name value later hparts
      rw [hparts]
      split
      · rename_i hne
        constructor
        · rintro ⟨⟩
          exact ⟨by decide, hne, word, later, rfl⟩
        · rintro ⟨-, -, _, _, ⟨⟩⟩
          rfl
      · rename_i hempty
        constructor
        · rintro ⟨⟩
        · rintro ⟨-, hne, _, _, ⟨⟩⟩
          exact absurd hne hempty
    · rename_i hparts
      constructor
      · rintro ⟨⟩
      · rintro ⟨-, -, word, later, heq⟩
        exact absurd heq (hparts word device resource later)
  · rw [parse, if_neg hall, if_neg hmonitor]
    simp [hmonitor]

section Asks

variable (hdevice : IsPart device) (hresource : IsPart resource)
  (hasks : Asks device resource segment)

include hdevice hresource hasks

theorem Asks.parts_eq : parts segment = ["monitor", device, resource] := by
  obtain ⟨word, name, value, hsegment, hword, hname, hvalue⟩ := hasks
  have hcomma : ¬ Text.isBlank ',' := by decide
  rw [Instruction.parts_eq, hsegment,
    List.splitOn_append_cons_self_of_not_mem (hword.notMem isPart_monitor.commaless hcomma),
    List.splitOn_append_cons_self_of_not_mem (hname.notMem hdevice.commaless hcomma),
    List.splitOn_eq_singleton (hvalue.notMem hresource.commaless hcomma)]
  simp only [List.map_cons, List.map_nil, ofList_trimChars isPart_monitor hword,
    ofList_trimChars hdevice hname, ofList_trimChars hresource hvalue]

omit hdevice in
theorem Asks.trim : Asks device resource (Text.trim segment) := by
  obtain ⟨word, name, value, hsegment, ⟨front, middle, hfront, hmiddle, rfl⟩, hname,
    ⟨inner, back, hinner, hback, rfl⟩⟩ := hasks
  have hpadded : Text.Padded ("monitor".toList ++
      (middle ++ ',' :: (name ++ ',' :: inner)) ++ resource.toList) segment.toList :=
    ⟨front, back, hfront, hback, by simp [hsegment]⟩
  have hne : resource.toList ≠ [] := fun h ↦ hresource.nonempty (String.toList_eq_nil_iff.mp h)
  have htrimmed := Text.trimChars_between isPart_monitor.trimmed (by decide) hresource.trimmed hne
    (middle ++ ',' :: (name ++ ',' :: inner))
  have hblank : Text.AllBlank [] := fun _ hc ↦ absurd hc List.not_mem_nil
  refine ⟨"monitor".toList ++ middle, name, inner ++ resource.toList, ?_,
    ⟨[], middle, hblank, hmiddle, rfl⟩, hname, ⟨inner, [], hinner, hblank, by simp⟩⟩
  rw [Text.toList_trim, hpadded.trimChars_eq, htrimmed]
  simp

omit hdevice hresource in
/-- A word without commas and blanks stands in the segment if it stands in one of the parts. -/
theorem Asks.contains_iff {mark : String}
    (hmark : mark.toList.all fun c ↦ c != ',' && !Text.isBlank c) (hne : mark.toList ≠ []) :
    Text.contains segment mark ↔
      Text.contains "monitor" mark ∨ Text.contains device mark ∨ Text.contains resource mark := by
  obtain ⟨word, name, value, hsegment, hword, hname, hvalue⟩ := hasks
  have hchars : ∀ c ∈ mark.toList, c ≠ ',' ∧ ¬ Text.isBlank c := by simpa using hmark
  have hcomma : ',' ∉ mark.toList := fun hc ↦ (hchars ',' hc).1 rfl
  have hblank : ∀ c ∈ mark.toList, ¬ Text.isBlank c := fun c hc ↦ (hchars c hc).2
  simp only [Text.contains_iff]
  rw [hsegment, Text.infix_append_cons_iff hcomma hne, Text.infix_append_cons_iff hcomma hne,
    hword.infix_iff hblank hne, hname.infix_iff hblank hne, hvalue.infix_iff hblank hne]

omit hdevice in
theorem Asks.contains_allstatus_iff : Text.contains (Text.trim segment) "allstatus" ↔
    Text.contains device "allstatus" ∨ Text.contains resource "allstatus" := by
  have hword : ¬ Text.contains "monitor" "allstatus" := by decide
  rw [(hasks.trim hresource).contains_iff (by decide) (by decide), or_iff_right hword]

theorem Asks.parse_eq_monitor (hdevice' : ¬ Text.contains device "allstatus")
    (hresource' : ¬ Text.contains resource "allstatus") :
    parse segment = .ok (.monitor device resource) := by
  have htrim := hasks.trim hresource
  have hmonitor : Text.contains (Text.trim segment) "monitor" :=
    (htrim.contains_iff (by decide) (by decide)).mpr (.inl (by decide))
  rw [parse_eq_monitor_iff, hasks.contains_allstatus_iff hresource, not_or]
  exact ⟨⟨hdevice', hresource'⟩, hmonitor, ⟨hdevice.nonempty, hresource.nonempty⟩, "monitor", [],
    htrim.parts_eq hdevice hresource⟩

end Asks

theorem parse_joined (device resource : String) (hdevice : IsPart device)
    (hresource : IsPart resource) (hdevice' : ¬ Text.contains device "allstatus")
    (hresource' : ¬ Text.contains resource "allstatus") :
    parse ("monitor" ++ "," ++ device ++ "," ++ resource) = .ok (.monitor device resource) :=
  (asks_joined device resource).parse_eq_monitor hdevice hresource hdevice' hresource'

/-- What a segment that asks to monitor is read as. -/
theorem parse_asks (hdevice : IsPart device) (hresource : IsPart resource)
    (hasks : Asks device resource segment) :
    (parse segment = .ok (.monitor device resource) ↔
      ¬ Text.contains device "allstatus" ∧ ¬ Text.contains resource "allstatus") ∧
    (Text.contains device "allstatus" ∨ Text.contains resource "allstatus" →
      parse segment = .ok .allStatus) := by
  have hall := hasks.contains_allstatus_iff hresource
  constructor
  · constructor
    · intro h
      have hnone := (parse_eq_monitor_iff.mp h).1
      rwa [hall, not_or] at hnone
    · rintro ⟨hdevice', hresource'⟩
      exact hasks.parse_eq_monitor hdevice hresource hdevice' hresource'
  · intro h
    rw [parse, if_pos (hall.mpr h)]

theorem parse_asks_of_blanks :
    IsPart "Random-Integer-Device" ∧ IsPart "Int 8" ∧
      Asks "Random-Integer-Device" "Int 8" "\tmonitor ,Random-Integer-Device , Int 8 \n" ∧
      parse "\tmonitor ,Random-Integer-Device , Int 8 \n" =
        .ok (.monitor "Random-Integer-Device" "Int 8") := by
  have hdevice : IsPart "Random-Integer-Device" := by decide
  have hresource : IsPart "Int 8" := by decide
  have hasks : Asks "Random-Integer-Device" "Int 8"
      "\tmonitor ,Random-Integer-Device , Int 8 \n" := by
    refine ⟨"\tmonitor ".toList, "Random-Integer-Device ".toList, " Int 8 \n".toList, rfl, ?_⟩
    refine ⟨?_, ?_, ?_⟩
    · exact ⟨['\t'], [' '], by decide, by decide, rfl⟩
    · exact ⟨[], [' '], by decide, by decide, rfl⟩
    · exact ⟨[' '], [' ', '\n'], by decide, by decide, rfl⟩
  exact ⟨hdevice, hresource, hasks,
    (parse_asks hdevice hresource hasks).1.mpr ⟨by decide, by decide⟩⟩

/-- A device with `allstatus` in its name cannot be monitored. -/
theorem device_misread :
    IsPart "allstatus-panel" ∧ IsPart "Int8" ∧
      Asks "allstatus-panel" "Int8" "monitor,allstatus-panel,Int8" ∧
      parse "monitor,allstatus-panel,Int8" = .ok .allStatus := by
  exact ⟨by decide, by decide, asks_joined "allstatus-panel" "Int8", by rfl⟩

end BleBridge.Service.Instruction
