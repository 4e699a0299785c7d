import BleBridge.Frame.Collect
import BleBridge.Proofs.Frame.Gather
import Mathlib.Algebra.Order.Floor.Div

/-!
# Packets in any order

The packets of one message make the message in whatever order they come, both
for the reassembler, packet by packet, and for `collect`, all at once.

The reassembler keeps the packets of a message either in the open message
(`Opens`) or, when they repeat the message delivered last, among the held copies
(`Trails`).  A packet under an index `k` has the same effect on both: the set of
indices grows by `k`, and the message comes out once the set is full (`Gains`).
-/

namespace BleBridge.Frame

/-! ## The packets of some payloads -/

/-- The packet of a message at place `k`. -/
def nth (payloads : List Bytes) (k : Nat) : Packet :=
  ⟨UInt16.ofNat k, UInt16.ofNat payloads.length, payloads[k]?.getD []⟩

section Nth

variable {payloads : List Bytes} {k : Nat}

theorem payload_nth (hk : k < payloads.length) : (nth payloads k).payload = payloads[k] := by
  simp [nth, hk]

theorem nth_eq_iff {j : Nat} (hsize : payloads.length < UInt16.size) (hj : j < payloads.length)
    (hk : k < payloads.length) : (nth payloads j).index = (nth payloads k).index ↔ j = k :=
  Slots.ofNat_inj (lt_trans hj hsize) (lt_trans hk hsize)

theorem numbered_eq_map_nth (payloads : List Bytes) :
    Layout.numbered (UInt16.ofNat payloads.length) 0 payloads =
      (List.range payloads.length).map (nth payloads) := by
  have hnumbered : ∀ (i : Nat) (l : List Bytes), payloads.drop i = l →
      Layout.numbered (UInt16.ofNat payloads.length) i l =
        (List.range' i l.length).map (nth payloads) := by
    intro i l
    induction l generalizing i with
    | nil => exact fun _ ↦ rfl
    | cons payload l ih =>
        intro hdrop
        have hpayload : payloads[i]? = some payload := by
          rw [← List.head?_drop, hdrop, List.head?_cons]
        have hrest : payloads.drop (i + 1) = l := by
          rw [← List.tail_drop, hdrop, List.tail_cons]
        rw [Layout.numbered, List.length_cons, List.range'_succ, List.map_cons, ih (i + 1) hrest,
          nth, hpayload, Option.getD_some]
  rw [List.range_eq_range']
  exact hnumbered 0 payloads rfl

/-- The payloads under all indices of a message are the message. -/
theorem assemble_of_forall {slot : UInt16 → Option Bytes} (hsize : payloads.length < UInt16.size)
    (h : ∀ k (hk : k < payloads.length), slot (UInt16.ofNat k) = some payloads[k]) :
    Slots.assemble (UInt16.ofNat payloads.length) slot = .ok payloads.flatten := by
  rw [Slots.assemble, UInt16.toNat_ofNat_of_lt' hsize]
  exact Slots.assemble_go_eq_ok fun k hk ↦ by rw [Nat.zero_add]; exact h k hk

end Nth

namespace Reassembler

open Slots (Fills)

variable {r : Reassembler} {payloads : List Bytes} {indices : Finset Nat} {k now : Nat}

/-! ## One packet -/

/-- A message is open that has the packets under `indices`. -/
structure Opens (payloads : List Bytes) (indices : Finset Nat) (r : Reassembler) : Prop where
  buffer : ∃ received since, r.buffer = some ⟨UInt16.ofNat payloads.length, received, since⟩ ∧
    Fills payloads indices received

/-- The message was delivered last, and its packets under `indices` have come again. -/
structure Trails (payloads : List Bytes) (indices : Finset Nat) (r : Reassembler) : Prop where
  buffer : r.buffer = none
  completed : ∃ c, r.completed = some c ∧ c.total = UInt16.ofNat payloads.length ∧
    Fills payloads (Finset.range payloads.length) c.payloads ∧ Fills payloads indices c.held

/-- What a packet under `k` does when those under `indices` are there: if all are there then the
message comes out, otherwise they are kept in the way that `Keeps` tells. -/
structure Gains (payloads : List Bytes) (indices : Finset Nat)
    (Keeps : List Bytes → Finset Nat → Reassembler → Prop) (r : Reassembler) (k : Nat)
    (pushed : Pushed) : Prop where
  maxAge : pushed.next.maxAge = r.maxAge
  more : insert k indices ≠ Finset.range payloads.length →
    pushed.result = .ok none ∧ Keeps payloads (insert k indices) pushed.next
  all : insert k indices = Finset.range payloads.length →
    pushed.result = .ok (some payloads.flatten) ∧ Trails payloads ∅ pushed.next

/-- The slots are all there if and only if they are as many as the packets. -/
theorem length_eq_iff {s : Slots} (h : Fills payloads indices s)
    (hindices : indices ⊆ Finset.range payloads.length) (hsize : payloads.length < UInt16.size) :
    s.length = payloads.length ↔ indices = Finset.range payloads.length := by
  rw [h.length_eq hindices hsize]
  constructor
  · intro hcard
    exact Finset.eq_of_subset_of_card_le hindices (by rw [Finset.card_range, hcard])
  · rintro rfl
    exact Finset.card_range _

theorem assemble_of_fills {s : Slots} (hsize : payloads.length < UInt16.size)
    (h : Fills payloads (Finset.range payloads.length) s) :
    Slots.assemble (UInt16.ofNat payloads.length) s.get? = .ok payloads.flatten :=
  assemble_of_forall hsize fun k hk ↦ by
    rw [h.get?_ofNat hk hsize, if_pos (Finset.mem_range.mpr hk)]

section Step

variable (hsize : payloads.length < UInt16.size)
  (hindices : indices ⊆ Finset.range payloads.length) (hk : k < payloads.length)

include hsize hindices hk

theorem gains_accept {b : OpenMessage} (htotal : b.total = UInt16.ofNat payloads.length)
    (hfills : Fills payloads indices b.received) :
    Gains payloads indices Opens r k (r.accept b (nth payloads k) now) := by
  have hinside : ¬ b.total ≤ (nth payloads k).index := by
    rw [htotal, UInt16.le_iff_toNat_le, nth, UInt16.toNat_ofNat_of_lt' hsize,
      UInt16.toNat_ofNat_of_lt' (lt_trans hk hsize)]
    omega
  have hgrown : insert k indices ⊆ Finset.range payloads.length :=
    Finset.insert_subset (Finset.mem_range.mpr hk) hindices
  have hhas : b.received.has (nth payloads k).index = decide (k ∈ indices) := by
    rw [Slots.has, nth, hfills.get?_ofNat hk hsize]
    by_cases hmem : k ∈ indices <;> simp [hmem]
  have hreceived : Fills payloads (insert k indices)
      (if b.received.has (nth payloads k).index then b.received
        else b.received.insert (nth payloads k).index (nth payloads k).payload) := by
    rw [hhas, payload_nth hk]
    by_cases hmem : k ∈ indices
    · simpa [hmem] using hfills
    · simpa [hmem, nth] using hfills.insert hk hsize
  rw [accept, if_neg hinside]
  dsimp only
  generalize (if b.received.has (nth payloads k).index then b.received
    else b.received.insert (nth payloads k).index (nth payloads k).payload) = received
    at hreceived ⊢
  have hall : received.length = b.total.toNat ↔
      insert k indices = Finset.range payloads.length := by
    rw [htotal, UInt16.toNat_ofNat_of_lt' hsize]
    exact length_eq_iff hreceived hgrown hsize
  by_cases hlast : received.length = b.total.toNat
  · have hfull := hall.mp hlast
    rw [if_pos hlast]
    refine ⟨rfl, fun hmore ↦ absurd hfull hmore, fun _ ↦ ?_⟩
    rw [hfull] at hreceived
    refine ⟨?_, rfl, _, rfl, htotal, hreceived, Slots.fills_nil _⟩
    rw [htotal, assemble_of_fills hsize hreceived]
    rfl
  · rw [if_neg hlast]
    exact ⟨rfl, fun _ ↦ ⟨rfl, ⟨_, _, by rw [htotal], hreceived⟩⟩,
      fun hfull ↦ absurd (hall.mpr hfull) hlast⟩

theorem gains_hold {c : Completed} (hbuffer : r.buffer = none)
    (htotal : c.total = UInt16.ofNat payloads.length)
    (hpayloads : Fills payloads (Finset.range payloads.length) c.payloads)
    (hheld : Fills payloads indices c.held) :
    Gains payloads indices Trails r k (r.hold c (nth payloads k) now) := by
  have hgrown : insert k indices ⊆ Finset.range payloads.length :=
    Finset.insert_subset (Finset.mem_range.mpr hk) hindices
  have hinsert : Fills payloads (insert k indices)
      (c.held.insert (nth payloads k).index (nth payloads k).payload) := by
    rw [payload_nth hk]
    exact hheld.insert hk hsize
  rw [hold]
  generalize c.held.insert (nth payloads k).index (nth payloads k).payload = held at hinsert ⊢
  have hcard : held.length ≤ payloads.length := by
    rw [hinsert.length_eq hgrown hsize, ← Finset.card_range payloads.length]
    exact Finset.card_le_card hgrown
  have hall := length_eq_iff hinsert hgrown hsize
  have hword : c.total.toNat = payloads.length := by
    rw [htotal, UInt16.toNat_ofNat_of_lt' hsize]
  by_cases hless : held.length < c.total.toNat
  · rw [if_pos hless]
    refine ⟨rfl, fun _ ↦ ⟨rfl, hbuffer, _, rfl, htotal, hpayloads, hinsert⟩, fun hfull ↦ ?_⟩
    have := hall.mpr hfull
    omega
  · rw [if_neg hless]
    refine ⟨rfl, fun hmore ↦ absurd (hall.mp (by omega)) hmore, fun hfull ↦ ?_⟩
    rw [hfull] at hinsert
    refine ⟨?_, hbuffer, _, rfl, htotal, hpayloads, Slots.fills_nil _⟩
    rw [htotal, assemble_of_fills hsize hinsert]
    rfl

omit hindices in
theorem total_nth_ne_zero : (nth payloads k).total ≠ 0 := by
  intro hzero
  have hword : (nth payloads k).total.toNat = 0 := by rw [hzero]; rfl
  rw [nth, UInt16.toNat_ofNat_of_lt' hsize] at hword
  omega

variable (now)

theorem Opens.push (hage : r.maxAge = none) (h : Opens payloads indices r) :
    Gains payloads indices Opens r k (r.push (nth payloads k) now) := by
  obtain ⟨received, since, hbuffer, hfills⟩ := h
  rw [push_of_maxAge_none hage, take, if_neg (total_nth_ne_zero hsize hk), hbuffer]
  dsimp only
  rw [if_pos (show UInt16.ofNat payloads.length = (nth payloads k).total from rfl)]
  exact gains_accept hsize hindices hk rfl hfills

theorem Trails.push (hage : r.maxAge = none) (h : Trails payloads indices r) :
    Gains payloads indices Trails r k (r.push (nth payloads k) now) := by
  obtain ⟨hbuffer, c, hcompleted, htotal, hpayloads, hheld⟩ := h
  have hrepeats : c.repeats (nth payloads k) = true := by
    rw [Completed.repeats, Bool.and_eq_true, beq_iff_eq, beq_iff_eq]
    refine ⟨htotal, ?_⟩
    rw [payload_nth hk, nth, hpayloads.get?_ofNat hk hsize, if_pos (Finset.mem_range.mpr hk)]
  rw [push_of_maxAge_none hage, take, if_neg (total_nth_ne_zero hsize hk), hbuffer, hcompleted]
  dsimp only
  rw [if_pos hrepeats]
  exact gains_hold hsize hindices hk hbuffer htotal hpayloads hheld

omit hindices in
/-- A reassembler that has delivered nothing yet opens a message for any packet. -/
theorem push_of_fresh (hage : r.maxAge = none) (hbuffer : r.buffer = none)
    (hcompleted : r.completed = none) :
    Gains payloads ∅ Opens r k (r.push (nth payloads k) now) := by
  rw [push_of_maxAge_none hage, take, if_neg (total_nth_ne_zero hsize hk), hbuffer, hcompleted]
  dsimp only
  rw [openFor, hcompleted]
  exact gains_accept hsize (Finset.empty_subset _) hk rfl (Slots.fills_nil _)

end Step

/-! ## Packets in a row -/

/-- Packets of a message in any order are its packets under their indices. -/
theorem exists_indices_of_perm {packets : List Packet} (hsize : payloads.length < UInt16.size)
    (hperm : packets.Perm ((List.range payloads.length).map (nth payloads))) :
    ∃ ks : List Nat, packets = ks.map (nth payloads) ∧ ks.Perm (List.range payloads.length) := by
  have hindex : ∀ k < payloads.length, (nth payloads k).index.toNat = k := fun k hk ↦
    UInt16.toNat_ofNat_of_lt' (lt_trans hk hsize)
  refine ⟨packets.map (·.index.toNat), ?_, ?_⟩
  · rw [List.map_map]
    refine (List.map_id packets).symm.trans (List.map_congr_left fun p hp ↦ ?_)
    obtain ⟨k, hk, rfl⟩ := List.mem_map.mp (hperm.subset hp)
    rw [Function.comp_apply, hindex k (List.mem_range.mp hk), id_eq]
  · have hmap : (List.range payloads.length).map ((·.index.toNat) ∘ nth payloads) =
        List.range payloads.length :=
      (List.map_congr_left fun k hk ↦ hindex k (List.mem_range.mp hk)).trans (List.map_id _)
    rw [← hmap, ← List.map_map]
    exact hperm.map _

/-- Packets under different indices, the last of which completes the message. -/
theorem Gains.pushes {pushed : Pushed} {ks : List Nat} {l : List (Packet × Nat)}
    (hsize : payloads.length < UInt16.size)
    (hl : l.map Prod.fst = ks.map (nth payloads)) (hnodup : (k :: ks).Nodup)
    (hnew : ∀ j ∈ k :: ks, j ∉ indices)
    (hall : indices ∪ (k :: ks).toFinset = Finset.range payloads.length) (hage : r.maxAge = none)
    (h : Gains payloads indices Opens r k pushed) :
    pushed.result :: pushed.next.pushes l =
        List.replicate ks.length (.ok none) ++ [.ok (some payloads.flatten)] ∧
      Trails payloads ∅ (pushed.next.pushAll l) ∧ (pushed.next.pushAll l).maxAge = none := by
  have hgrown : insert k indices ∪ ks.toFinset = Finset.range payloads.length := by
    rw [← hall, List.toFinset_cons, Finset.insert_union, Finset.union_insert]
  induction ks generalizing r k indices pushed l with
  | nil =>
      obtain rfl : l = [] := List.map_eq_nil_iff.mp hl
      rw [List.toFinset_nil, Finset.union_empty] at hgrown
      obtain ⟨hresult, htrails⟩ := h.all hgrown
      exact ⟨by rw [hresult]; rfl, htrails, h.maxAge.trans hage⟩
  | cons j ks ih =>
      obtain ⟨⟨p, now⟩, l, rfl, hp, htail⟩ := List.map_eq_cons_iff.mp hl
      obtain rfl : p = nth payloads j := hp
      obtain ⟨hk, hnodup⟩ := List.nodup_cons.mp hnodup
      have hinsert : insert k indices ⊆ Finset.range payloads.length :=
        hgrown ▸ Finset.subset_union_left
      have hj : j < payloads.length := by
        rw [← Finset.mem_range, ← hall]
        simp
      have hrest : ∀ i ∈ j :: ks, i ∉ insert k indices := by
        intro i hi hmem
        rcases Finset.mem_insert.mp hmem with rfl | hmem
        · exact hk hi
        · exact hnew i (List.mem_cons_of_mem _ hi) hmem
      have hmore : insert k indices ≠ Finset.range payloads.length := fun heq ↦
        hrest j List.mem_cons_self (heq ▸ Finset.mem_range.mpr hj)
      obtain ⟨hresult, hopens⟩ := h.more hmore
      have hnext := hopens.push now hsize hinsert hj (h.maxAge.trans hage)
      obtain ⟨hpushes, hend⟩ := ih htail hnodup hrest hgrown (h.maxAge.trans hage) hnext (by
        rw [← hgrown, List.toFinset_cons, Finset.insert_union, Finset.union_insert])
      refine ⟨?_, hend⟩
      rw [hresult, Reassembler.pushes, hpushes]
      rfl

/-- A fresh reassembler delivers a message with the last of its packets. -/
theorem pushes_of_perm {l : List (Packet × Nat)} (hsize : payloads.length < UInt16.size)
    (hperm : (l.map Prod.fst).Perm ((List.range payloads.length).map (nth payloads))) :
    (Reassembler.new none).pushes l = (List.range l.length).map fun i ↦
      .ok (if i + 1 = l.length then some payloads.flatten else none) := by
  obtain ⟨ks, hl, hks⟩ := exists_indices_of_perm hsize hperm
  have hlength : l.length = ks.length := by
    rw [← List.length_map Prod.fst, hl, List.length_map]
  cases ks with
  | nil =>
      obtain rfl : l = [] := List.map_eq_nil_iff.mp hl
      rfl
  | cons k ks =>
      obtain ⟨⟨p, now⟩, l, rfl, hp, htail⟩ := List.map_eq_cons_iff.mp hl
      obtain rfl : p = nth payloads k := hp
      have hk : k < payloads.length := List.mem_range.mp (hks.subset List.mem_cons_self)
      have hall : ∅ ∪ (k :: ks).toFinset = Finset.range payloads.length := by
        ext i
        rw [Finset.empty_union, List.mem_toFinset, hks.mem_iff, List.mem_range, Finset.mem_range]
      obtain ⟨hpushes, -⟩ := (push_of_fresh now hsize hk rfl rfl rfl (r := .new none)).pushes
        hsize htail (hks.nodup_iff.mpr List.nodup_range) (fun _ _ ↦ Finset.notMem_empty _) hall
        rfl
      have hnone : (List.range ks.length).map (fun i ↦
          (.ok (if i + 1 = ks.length + 1 then some payloads.flatten else none) :
            Except Fault (Option Bytes))) = List.replicate ks.length (.ok none) := by
        rw [List.eq_replicate_iff]
        refine ⟨by simp, fun result hresult ↦ ?_⟩
        obtain ⟨i, hi, rfl⟩ := List.mem_map.mp hresult
        have := List.mem_range.mp hi
        rw [if_neg (by omega)]
      rw [Reassembler.pushes, hpushes, hlength, List.length_cons, List.range_succ, List.map_append,
        hnone, List.map_singleton, if_pos rfl]

end Reassembler

/-! ## All packets at once -/

theorem collect_of_perm {packets : List Packet} {payloads : List Bytes}
    (hsize : payloads.length < UInt16.size)
    (hperm : packets.Perm ((List.range payloads.length).map (nth payloads))) :
    collect packets = .ok payloads.flatten := by
  have hmem : ∀ p, p ∈ packets ↔ ∃ k < payloads.length, nth payloads k = p := by
    intro p
    rw [hperm.mem_iff]
    simp
  have hfirst : ∀ k (hk : k < payloads.length),
      firstPayload packets (UInt16.ofNat k) = some payloads[k] := by
    intro k hk
    cases hfind : packets.find? (·.index == UInt16.ofNat k) with
    | none =>
        have hnone := List.find?_eq_none.mp hfind (nth payloads k) ((hmem _).mpr ⟨k, hk, rfl⟩)
        simp [nth] at hnone
    | some p =>
        have hindex : p.index = UInt16.ofNat k := by simpa using List.find?_some hfind
        obtain ⟨j, hj, rfl⟩ := (hmem p).mp (List.mem_of_find?_eq_some hfind)
        obtain rfl := (nth_eq_iff hsize hj hk).mp hindex
        rw [firstPayload, hfind, Option.map_some, payload_nth hk]
  cases packets with
  | nil =>
      obtain rfl : payloads = [] := by simpa using hperm.symm.eq_nil
      rfl
  | cons first rest =>
      obtain ⟨i, hi, rfl⟩ := (hmem first).mp List.mem_cons_self
      have hfit : (nth payloads i :: rest).findSome? (misfit (nth payloads i).total) = none := by
        rw [List.findSome?_eq_none_iff]
        intro p hp
        obtain ⟨j, hj, rfl⟩ := (hmem p).mp hp
        have hinside : ¬ (nth payloads i).total ≤ (nth payloads j).index := by
          rw [nth, nth, UInt16.le_iff_toNat_le, UInt16.toNat_ofNat_of_lt' hsize,
            UInt16.toNat_ofNat_of_lt' (lt_trans hj hsize)]
          omega
        rw [misfit, if_neg (by simp [nth]), if_neg hinside]
      rw [collect, hfit]
      exact assemble_of_forall hsize hfirst

/-! ## Splitting and rebuilding -/

namespace Layout

/-- What a layout makes of a message: as many packets as its payload size asks for, numbered in a
row, all of them full but the last, and all of them short enough to be sent. -/
structure Fragments (f : Layout) (data : Bytes) (packets : List Packet) : Prop where
  count : packets.length = data.length ⌈/⌉ f.maxPayload
  index : ∀ k (hk : k < packets.length), packets[k].index.toNat = k
  total : ∀ p ∈ packets, p.total.toNat = packets.length
  full : ∀ k (hk : k + 1 < packets.length), packets[k].payload.length = f.maxPayload
  last : ∀ p ∈ packets.getLast?, p.payload ≠ [] ∧ p.payload.length ≤ f.maxPayload
  content : (packets.map Packet.payload).flatten = data
  frames : ∀ p ∈ packets, (f.encode p).length ≤ f.mtu

/-- Packets that are sent as frames and read back are put together to a message, by `collect` all
at once, and by a fresh reassembler with the last of them, whatever the clock says. -/
structure Rebuilds (f : Layout) (packets : List Packet) (data : Bytes) : Prop where
  decoded : (packets.map f.encode).mapM f.decode = .ok packets
  collected : collect packets = .ok data
  pushed : ∀ l : List (Packet × Nat), l.map Prod.fst = packets →
    (Reassembler.new none).pushes l = (List.range l.length).map fun i ↦
      .ok (if i + 1 = l.length then some data else none)

variable {f : Layout} {data : Bytes} {packets : List Packet}

theorem mapM_decode_encode (f : Layout) (packets : List Packet) :
    (packets.map f.encode).mapM f.decode = .ok packets := by
  induction packets with
  | nil => rfl
  | cons p packets ih =>
      rw [List.map_cons, List.mapM_cons, decode_encode, ih]
      rfl

/-- The packets of a message that splits, by their numbers. -/
theorem eq_map_nth_of_split (h : f.split data = .ok packets) :
    (f.payloads data).length < UInt16.size ∧
      packets = (List.range (f.payloads data).length).map (nth (f.payloads data)) := by
  obtain ⟨hsize, rfl⟩ := split_eq_ok_iff.mp h
  exact ⟨hsize, numbered_eq_map_nth _⟩

theorem fragments_of_split (h : f.split data = .ok packets) : Fragments f data packets := by
  obtain ⟨hsize, hpackets⟩ := eq_map_nth_of_split h
  have hlength : packets.length = (f.payloads data).length := by simp [hpackets]
  have hnth : ∀ k (hk : k < packets.length), packets[k] = nth (f.payloads data) k := by
    intro k hk
    simp [hpackets]
  have hpayload : ∀ k (hk : k < packets.length),
      packets[k].payload = (data.drop (k * f.maxPayload)).take f.maxPayload := by
    intro k hk
    rw [hnth k hk, payload_nth (hlength ▸ hk)]
    exact getElem_pieces f.maxPayload_ne_zero (hlength ▸ hk)
  have hstart : ∀ k < packets.length, k * f.maxPayload < data.length := fun k hk ↦
    mul_lt_length_of_lt f.maxPayload_ne_zero (hlength ▸ hk)
  refine ⟨?count, ?index, ?total, ?full, ?last, ?content, ?frames⟩
  case count =>
    rw [hlength]
    exact length_pieces f.maxPayload_ne_zero data
  case index =>
    intro k hk
    rw [hnth k hk, nth, UInt16.toNat_ofNat_of_lt' (by omega)]
  case total =>
    intro p hp
    obtain ⟨k, hk, rfl⟩ := List.getElem_of_mem hp
    rw [hnth k hk, nth, UInt16.toNat_ofNat_of_lt' hsize, hlength]
  case full =>
    intro k hk
    have hnext := hstart (k + 1) hk
    rw [Nat.add_mul, Nat.one_mul] at hnext
    rw [hpayload k (by omega), List.length_take, List.length_drop]
    omega
  case last =>
    intro p hp
    rw [List.getLast?_eq_getElem?] at hp
    obtain ⟨hk, rfl⟩ := List.getElem?_eq_some_iff.mp hp
    have hsome := hstart _ hk
    have hpos := f.maxPayload_pos
    rw [hpayload _ hk]
    refine ⟨List.ne_nil_of_length_pos ?_, List.length_take_le _ _⟩
    rw [List.length_take, List.length_drop]
    omega
  case content =>
    have hmap : packets.map Packet.payload = f.payloads data := by
      rw [hpackets, List.map_map]
      refine List.ext_getElem (by simp) fun k _ hk ↦ ?_
      simp [payload_nth hk]
    rw [hmap, f.flatten_payloads]
  case frames =>
    intro p hp
    obtain ⟨k, hk, rfl⟩ := List.getElem_of_mem hp
    refine length_encode_le_mtu ?_
    rw [hpayload k hk]
    exact List.length_take_le _ _

theorem rebuilds_of_perm {order : List Packet} (h : f.split data = .ok packets)
    (hperm : order.Perm packets) : Rebuilds f order data := by
  obtain ⟨hsize, rfl⟩ := eq_map_nth_of_split h
  have hcollect := collect_of_perm hsize hperm
  rw [f.flatten_payloads] at hcollect
  refine ⟨mapM_decode_encode f order, hcollect, ?_⟩
  rintro l rfl
  have hpushes := Reassembler.pushes_of_perm hsize hperm
  rwa [f.flatten_payloads] at hpushes

/-- A message splits unless it takes more packets than a word can count, and in whatever order its
packets come, they make the message. -/
theorem split_any_order (f : Layout) (data : Bytes) :
    (data.length ⌈/⌉ f.maxPayload ≤ 65535 → ∃ packets, f.split data = .ok packets ∧
      Fragments f data packets ∧ ∀ order, order.Perm packets → Rebuilds f order data) ∧
    (65535 < data.length ⌈/⌉ f.maxPayload →
      f.split data = .error (.tooManyPackets (data.length ⌈/⌉ f.maxPayload))) := by
  have hcount : f.packetCount data.length = data.length ⌈/⌉ f.maxPayload := rfl
  constructor
  · intro hfits
    have hsplit : f.split data = .ok (numbered (UInt16.ofNat (f.packetCount data.length)) 0
        (pieces f.maxPayload data)) := if_pos (Nat.lt_succ_of_le (hcount ▸ hfits))
    exact ⟨_, hsplit, fragments_of_split hsplit, fun order hperm ↦ rebuilds_of_perm hsplit hperm⟩
  · intro hmore
    rw [← hcount] at hmore ⊢
    exact if_neg (Nat.not_lt_of_le hmore)

/-- Three packets that come in another order, and one byte too many for packets of one byte. -/
theorem split_any_order_of_three :
    Rebuilds ⟨32, Text.bytes "AT+QBLEGATTSNTFY=0,fff2,", [0x0D, 0x0A], by decide, by decide⟩
        [⟨2, 3, Text.bytes "3"⟩, ⟨0, 3, Text.bytes "a1"⟩, ⟨1, 3, Text.bytes "b2"⟩]
        (Text.bytes "a1b23") ∧
      Layout.split
          ⟨31, Text.bytes "AT+QBLEGATTSNTFY=0,fff2,", [0x0D, 0x0A], by decide, by decide⟩
          (List.replicate 65536 0) = .error (.tooManyPackets 65536) := by
  let wide : Layout :=
    ⟨32, Text.bytes "AT+QBLEGATTSNTFY=0,fff2,", [0x0D, 0x0A], by decide, by decide⟩
  let narrow : Layout :=
    ⟨31, Text.bytes "AT+QBLEGATTSNTFY=0,fff2,", [0x0D, 0x0A], by decide, by decide⟩
  have hcount : (List.replicate 65536 (0 : UInt8)).length ⌈/⌉ narrow.maxPayload = 65536 := by
    rw [List.length_replicate, show narrow.maxPayload = 1 by decide,
      Nat.ceilDiv_eq_add_pred_div]
  obtain ⟨packets, hsplit, -, hrebuilds⟩ := (split_any_order wide (Text.bytes "a1b23")).1
    (by decide)
  have hpackets : wide.split (Text.bytes "a1b23") = .ok
      [⟨0, 3, Text.bytes "a1"⟩, ⟨1, 3, Text.bytes "b2"⟩, ⟨2, 3, Text.bytes "3"⟩] := by
    decide +kernel
  obtain rfl := Except.ok.inj (hpackets.symm.trans hsplit)
  refine ⟨hrebuilds _ (by decide +kernel), ?_⟩
  have htoo := (split_any_order narrow (List.replicate 65536 0)).2 (by rw [hcount]; decide)
  rwa [hcount] at htoo

end Layout

end BleBridge.Frame
