import BleBridge.Proofs.Frame.AtOnce
import BleBridge.Proofs.Frame.Checked

/-!
# Complete packet sets

`Collected` tells from a list of packets alone what is to be made of them.  There
is one rule for each outcome, and `collect` comes to an outcome just when a rule
gives it (`collect_eq_iff`).

`collect` looks at the packets as a whole.  `collectInTurn` goes through them once
and puts each payload on a tray of slots, which gets its length with the first
packet.  Behind packets that fit together the tray is the one that they fill
(`Tray.filled`), so the slot of a further one is there.
-/

namespace BleBridge.Frame

variable {packets others : List Packet} {p first : Packet} {total i : UInt16} {fault : FrameFault}
  {result : Except Fault Bytes}

/-! ## Outcomes -/

/-- The first packet that is not one of a message of `total` packets. -/
structure FirstStray (total : UInt16) (packets : List Packet) (p : Packet) : Prop where
  place : ∃ before after, packets = before ++ p :: after ∧ ∀ q ∈ before, q.Fits total
  not_fits : ¬ p.Fits total

/-- The payload of the first packet under an index. -/
def FirstUnder (packets : List Packet) (i : UInt16) (payload : Bytes) : Prop :=
  ∃ before p after, packets = before ++ p :: after ∧ (∀ q ∈ before, q.index ≠ i) ∧
    p.index = i ∧ p.payload = payload

/-- What is to be made of a list of packets.  The first one tells the total. -/
inductive Collected : List Packet → Except Fault Bytes → Prop
  | nothing : Collected [] (.ok [])
  | foreign {packets : List Packet} {first p : Packet} (head : packets.head? = some first)
      (stray : FirstStray first.total packets p) (total : p.total ≠ first.total) :
      Collected packets (.error (.frame (.total p.index p.total first.total)))
  | outside {packets : List Packet} {first p : Packet} (head : packets.head? = some first)
      (stray : FirstStray first.total packets p) (total : p.total = first.total) :
      Collected packets (.error (.frame (.outside p.index first.total)))
  | missing {packets : List Packet} {first : Packet} {i : UInt16}
      (head : packets.head? = some first) (fits : ∀ p ∈ packets, p.Fits first.total)
      (lt : i < first.total) (absent : ∀ p ∈ packets, p.index ≠ i)
      (least : ∀ j < i, ∃ p ∈ packets, p.index = j) :
      Collected packets (.error (.missingPacket i first.total))
  | complete {packets : List Packet} {first : Packet} {payloads : List Bytes}
      (head : packets.head? = some first) (fits : ∀ p ∈ packets, p.Fits first.total)
      (length : payloads.length = first.total.toNat)
      (each : ∀ k (hk : k < payloads.length), FirstUnder packets (UInt16.ofNat k) payloads[k]) :
      Collected packets (.ok payloads.flatten)

/-- What is said of a packet that is not one of a message of `total` packets. -/
def refusal (total : UInt16) (p : Packet) : String :=
  "Invalid frame: " ++
    if p.total ≠ total then s!"packet {p.index} reports total {p.total}, expected {total}"
    else s!"packet index {p.index} outside 0..{total}"

/-! ### Strays -/

theorem findSome?_misfit_of_stray (h : FirstStray total packets p) :
    packets.findSome? (misfit total) = misfit total p := by
  obtain ⟨⟨before, after, rfl, hbefore⟩, hnot⟩ := h
  have hnone : before.findSome? (misfit total) = none :=
    List.findSome?_eq_none_iff.mpr fun q hq ↦ misfit_eq_none_iff.mpr (hbefore q hq)
  obtain ⟨fault, hfault⟩ := Option.ne_none_iff_exists'.mp (mt misfit_eq_none_iff.mp hnot)
  rw [List.findSome?_append, hnone, Option.none_or, List.findSome?_cons, hfault]

theorem exists_stray (h : ¬ ∀ p ∈ packets, p.Fits total) : ∃ p, FirstStray total packets p := by
  have hsome : packets.findSome? (misfit total) ≠ none := by
    intro hnone
    apply h
    intro p hp
    exact misfit_eq_none_iff.mp (List.findSome?_eq_none_iff.mp hnone p hp)
  obtain ⟨fault, hfault⟩ := Option.ne_none_iff_exists'.mp hsome
  obtain ⟨before, p, after, rfl, hp, hbefore⟩ := List.findSome?_eq_some_iff.mp hfault
  refine ⟨p, ⟨before, after, rfl, fun q hq ↦ misfit_eq_none_iff.mp (hbefore q hq)⟩, ?_⟩
  intro hfits
  rw [misfit_eq_none_iff.mpr hfits] at hp
  cases hp

theorem ne_nil_of_head? (head : packets.head? = some first) : packets ≠ [] :=
  List.ne_nil_of_mem (List.mem_of_head? head)

theorem collect_of_stray (head : packets.head? = some first)
    (stray : FirstStray first.total packets p) (hfault : misfit first.total p = some fault) :
    collect packets = .error (.frame fault) := by
  have hfind := findSome?_misfit_of_stray stray
  obtain ⟨rest, rfl⟩ := List.head?_eq_some_iff.mp head
  rw [collect, hfind, hfault]

theorem misfit_of_foreign (h : p.total ≠ total) :
    misfit total p = some (.total p.index p.total total) :=
  if_pos h

theorem misfit_of_outside (hnot : ¬ p.Fits total) (h : p.total = total) :
    misfit total p = some (.outside p.index total) := by
  have hle : total ≤ p.index := UInt16.not_lt.mp fun hlt ↦ hnot ⟨h, hlt⟩
  rw [misfit, if_neg (not_not.mpr h), if_pos hle]

/-! ### First payloads -/

theorem firstPayload_eq_some_iff {payload : Bytes} :
    firstPayload packets i = some payload ↔ FirstUnder packets i payload := by
  rw [firstPayload, Option.map_eq_some_iff]
  constructor
  · rintro ⟨p, hfind, rfl⟩
    obtain ⟨hindex, before, after, rfl, hbefore⟩ := List.find?_eq_some_iff_append.mp hfind
    exact ⟨before, p, after, rfl, fun q hq ↦ by simpa using hbefore q hq, by simpa using hindex,
      rfl⟩
  · rintro ⟨before, p, after, rfl, hbefore, rfl, rfl⟩
    refine ⟨p, List.find?_eq_some_iff_append.mpr ⟨by simp, before, after, rfl, ?_⟩, rfl⟩
    intro q hq
    simpa using hbefore q hq

/-! ## The answer of `collect` -/

theorem collect_of_collected (h : Collected packets result) : collect packets = result := by
  cases h with
  | nothing => rfl
  | foreign head stray total => exact collect_of_stray head stray (misfit_of_foreign total)
  | outside head stray total =>
      exact collect_of_stray head stray (misfit_of_outside stray.not_fits total)
  | @missing packets first i head fits lt absent least =>
      rw [collect_of_fits (ne_nil_of_head? head) fits]
      exact assemble_of_least lt (firstPayload_eq_none_iff.mpr absent)
        fun j hj ↦ isSome_firstPayload_iff.mpr (least j hj)
  | @complete packets first payloads head fits length each =>
      have hgo : Slots.assemble.go first.total (firstPayload packets) payloads.length 0 =
          .ok payloads.flatten := by
        apply Slots.assemble_go_eq_ok
        intro k hk
        rw [Nat.zero_add]
        exact firstPayload_eq_some_iff.mpr (each k hk)
      rw [collect_of_fits (ne_nil_of_head? head) fits]
      rw [length] at hgo
      exact hgo

/-- One of the rules applies to any packets. -/
theorem collected_collect (packets : List Packet) : Collected packets (collect packets) := by
  cases hhead : packets.head? with
  | none =>
      obtain rfl := List.head?_eq_none_iff.mp hhead
      exact .nothing
  | some first =>
      by_cases hfits : ∀ p ∈ packets, p.Fits first.total
      · rw [collect_of_fits (ne_nil_of_head? hhead) hfits]
        by_cases hall : ∀ i < first.total, (firstPayload packets i).isSome
        · rw [Slots.assemble_eq_ok hall, Slots.contents]
          refine .complete hhead hfits (by simp) fun k hk ↦ ?_
          rw [List.length_map, List.length_range] at hk
          obtain ⟨payload, hpayload⟩ := Option.isSome_iff_exists.mp (hall _ (Slots.ofNat_lt hk))
          rw [← firstPayload_eq_some_iff]
          simp [hpayload]
        · obtain ⟨i, hi, hnone, hleast, hassemble⟩ := assemble_eq_error hall
          rw [hassemble]
          exact .missing hhead hfits hi (firstPayload_eq_none_iff.mp hnone)
            fun j hj ↦ isSome_firstPayload_iff.mp (hleast j hj)
      · obtain ⟨p, hstray⟩ := exists_stray hfits
        by_cases htotal : p.total = first.total
        · rw [collect_of_stray hhead hstray (misfit_of_outside hstray.not_fits htotal)]
          exact .outside hhead hstray htotal
        · rw [collect_of_stray hhead hstray (misfit_of_foreign htotal)]
          exact .foreign hhead hstray htotal

theorem collect_eq_iff : collect packets = result ↔ Collected packets result := by
  constructor
  · rintro rfl
    exact collected_collect packets
  · exact collect_of_collected

theorem message_collect_of_stray (head : packets.head? = some first)
    (stray : FirstStray first.total packets p) :
    (collect packets).mapError Fault.message = .error (refusal first.total p) := by
  by_cases htotal : p.total = first.total
  · rw [collect_of_stray head stray (misfit_of_outside stray.not_fits htotal), refusal,
      if_neg (not_not.mpr htotal)]
    rfl
  · rw [collect_of_stray head stray (misfit_of_foreign htotal), refusal, if_pos htotal]
    rfl

theorem eq_nil_of_firstPayload (hsame : firstPayload packets = firstPayload []) :
    packets = [] := by
  rw [List.eq_nil_iff_forall_not_mem]
  intro p hp
  have hnone : firstPayload packets p.index = none := congrFun hsame p.index
  exact firstPayload_eq_none_iff.mp hnone p hp rfl

/-- Of packets that fit together, only the first payload under each index counts. -/
theorem collect_congr (hpackets : ∀ p ∈ packets, p.Fits total)
    (hothers : ∀ p ∈ others, p.Fits total)
    (hfirst : ∀ i, firstPayload packets i = firstPayload others i) :
    collect packets = collect others := by
  have hsame : firstPayload packets = firstPayload others := funext hfirst
  by_cases hnil : others = []
  · subst hnil
    rw [eq_nil_of_firstPayload hsame]
  · have hsome : packets ≠ [] := by
      rintro rfl
      exact hnil (eq_nil_of_firstPayload hsame.symm)
    rw [collect_of_fits hsome hpackets, collect_of_fits hnil hothers, hsame]

/-! ## One packet after the other -/

/-- A slot for each packet of a message, once its total is known. -/
structure Tray where
  expected : Option UInt16
  slots : List (Option Bytes)

namespace Tray

def empty : Tray := ⟨none, []⟩

/-- The slots, which are all empty at first. -/
def opened (total : UInt16) (tray : Tray) : List (Option Bytes) :=
  if tray.slots = [] then List.replicate total.toNat none else tray.slots

/-- Put a payload into its slot, unless there is one. -/
def put (tray : Tray) (p : Packet) : Except Halt Tray :=
  let total := tray.expected.getD p.total
  match misfit total p with
  | some fault => .error (.fault (.frame fault))
  | none =>
      let slots := tray.opened total
      match slots[p.index.toNat]? with
      | none => .error .beyond
      | some slot => .ok ⟨some total, slots.set p.index.toNat (slot.or (some p.payload))⟩

/-- The payloads from the slot at `i` on in a row, or the first slot that is empty. -/
def gather (total : UInt16) : List (Option Bytes) → Nat → Except Fault Bytes
  | [], _ => .ok []
  | none :: _, i => .error (.missingPacket (UInt16.ofNat i) total)
  | some payload :: rest, i => (gather total rest (i + 1)).map (payload ++ ·)

def message (tray : Tray) : Except Fault Bytes := gather (tray.expected.getD 0) tray.slots 0

end Tray

/-- `collect` as a loop over the packets. -/
def collectInTurn (packets : List Packet) : Except Halt Bytes := do
  let tray ← packets.foldlM Tray.put Tray.empty
  tray.message.mapError Halt.fault

namespace Tray

/-- The tray behind packets that fit together. -/
def filled (total : UInt16) (packets : List Packet) : Tray :=
  ⟨some total, (List.range total.toNat).map fun k ↦ firstPayload packets (UInt16.ofNat k)⟩

theorem length_filled (total : UInt16) (packets : List Packet) :
    (filled total packets).slots.length = total.toNat := by
  simp [filled]

theorem opened_filled (total : UInt16) (packets : List Packet) :
    (filled total packets).opened total = (filled total packets).slots := by
  have hlength := length_filled total packets
  rw [opened]
  split
  · -- a filled tray without slots is one of total zero
    rename_i hnil
    rw [hnil] at hlength ⊢
    rw [← hlength]
    rfl
  · rfl

theorem put_empty (p : Packet) : empty.put p = (filled p.total []).put p := by
  have hopened : (filled p.total []).opened p.total = empty.opened p.total := by
    rw [opened_filled]
    show (List.range p.total.toNat).map (fun _ ↦ none) = List.replicate p.total.toNat none
    rw [List.map_const', List.length_range]
  have hexpected : (filled p.total []).expected.getD p.total = p.total := rfl
  rw [put, put, hexpected, hopened]
  rfl

theorem set_filled (total : UInt16) (packets : List Packet) (p : Packet) :
    (filled total packets).slots.set p.index.toNat
        ((firstPayload packets p.index).or (some p.payload)) =
      (filled total (packets ++ [p])).slots := by
  refine List.ext_getElem? fun k ↦ ?_
  by_cases hk : k < total.toNat
  · have hword : (UInt16.ofNat k).toNat = k :=
      UInt16.toNat_ofNat_of_lt' (lt_trans hk total.toNat_lt_size)
    have hplace : p.index.toNat = k ↔ p.index = UInt16.ofNat k := by
      rw [← UInt16.toNat_inj, hword]
    rw [List.getElem?_set, length_filled]
    simp only [filled, List.getElem?_map, List.getElem?_range hk, Option.map_some, hplace]
    rw [firstPayload_concat]
    by_cases hindex : p.index = UInt16.ofNat k
    · rw [if_pos hindex, if_pos hindex, if_pos (hindex ▸ Slots.ofNat_lt hk), hindex]
    · rw [if_neg hindex, if_neg hindex, Option.or_none]
  · rw [List.getElem?_eq_none (by rw [List.length_set, length_filled]; omega),
      List.getElem?_eq_none (by rw [length_filled]; omega)]

theorem put_filled (total : UInt16) (packets : List Packet) (p : Packet) :
    (filled total packets).put p =
      match misfit total p with
      | some fault => .error (.fault (.frame fault))
      | none => .ok (filled total (packets ++ [p])) := by
  rw [put, filled, Option.getD_some, ← filled, opened_filled]
  cases hmisfit : misfit total p with
  | some fault => rfl
  | none =>
      obtain ⟨-, hlt⟩ := misfit_eq_none_iff.mp hmisfit
      have hindex : p.index.toNat < total.toNat := UInt16.lt_iff_toNat_lt.mp hlt
      have hslot : (filled total packets).slots[p.index.toNat]? =
          some (firstPayload packets p.index) := by
        simp [filled, List.getElem?_range hindex]
      dsimp only
      rw [hslot]
      dsimp only
      rw [set_filled]
      rfl

theorem foldlM_put (total : UInt16) (packets more : List Packet) :
    more.foldlM put (filled total packets) =
      match more.findSome? (misfit total) with
      | some fault => .error (.fault (.frame fault))
      | none => .ok (filled total (packets ++ more)) := by
  induction more generalizing packets with
  | nil => rw [List.append_nil]; rfl
  | cons p more ih =>
      rw [List.foldlM_cons, put_filled, List.findSome?_cons]
      cases hmisfit : misfit total p with
      | some fault => rfl
      | none =>
          dsimp only
          rw [ok_bind, ih, List.append_assoc, List.singleton_append]

theorem message_filled (total : UInt16) (packets : List Packet) :
    (filled total packets).message = Slots.assemble total (firstPayload packets) := by
  rw [message, Slots.assemble, filled, List.range_eq_range', Option.getD_some]
  generalize total.toNat = n, 0 = i
  induction n generalizing i with
  | zero => rfl
  | succ n ih =>
      rw [List.range'_succ, List.map_cons, Slots.assemble.go]
      cases firstPayload packets (UInt16.ofNat i) with
      | none => rfl
      | some payload => rw [gather, ih]

end Tray

theorem collectInTurn_eq (packets : List Packet) :
    collectInTurn packets = (collect packets).mapError Halt.fault := by
  cases packets with
  | nil => rfl
  | cons first rest =>
      rw [collectInTurn, List.foldlM_cons, Tray.put_empty, ← List.foldlM_cons, Tray.foldlM_put,
        collect]
      cases (first :: rest).findSome? (misfit first.total) with
      | some fault => rfl
      | none =>
          dsimp only
          rw [ok_bind, Tray.message_filled, List.nil_append]

/-- The answer to a list of packets is the one that its rule gives, and a packet which does not fit
is named in it.  A loop over the packets comes to the same answer within its slots.  The order of
packets that fit together does not matter as long as the first payload under each index is the
same. -/
theorem collect_decides (packets : List Packet) :
    (∀ result, collect packets = result ↔ Collected packets result) ∧
      (∀ first p, packets.head? = some first → FirstStray first.total packets p →
        (collect packets).mapError Fault.message = .error (refusal first.total p)) ∧
      collectInTurn packets = (collect packets).mapError Halt.fault ∧
      ∀ total others, (∀ p ∈ packets, p.Fits total) → (∀ p ∈ others, p.Fits total) →
        (∀ i, firstPayload packets i = firstPayload others i) →
          collect packets = collect others := by
  refine ⟨fun result ↦ collect_eq_iff, ?_, collectInTurn_eq packets, ?_⟩
  · intro first p head stray
    exact message_collect_of_stray head stray
  · intro total others hpackets hothers hfirst
    exact collect_congr hpackets hothers hfirst

/-- The total of a packet is looked at before its index. -/
example : (collect [⟨0, 2, []⟩, ⟨5, 3, []⟩, ⟨7, 2, []⟩]).mapError Fault.message =
    .error "Invalid frame: packet 5 reports total 3, expected 2" := by decide +kernel

end BleBridge.Frame
