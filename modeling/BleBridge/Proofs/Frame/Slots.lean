import BleBridge.Frame.Slots
import Mathlib.Data.Finset.Card
import Mathlib.Data.Finset.Range
import Mathlib.Data.List.Sort

/-!
# Slots with ascending indices

Slots are filled by `insert` only, which keeps their indices ascending.  So what
stands under an index is all that there is to know about them: `Fills` says that
they hold the payloads of a message under the indices of a set, and then they
are as many as the set has members.  `Below` says less, only that they belong to
a message of some total, and then they are as many as that exactly when none is
missing.
-/

namespace BleBridge.Frame.Slots

variable {s : Slots} {i j : UInt16} {payload : Bytes} {slot : UInt16 × Bytes}

/-! ## What is in the slots -/

theorem mem_insert (h : slot ∈ s.insert i payload) : slot = (i, payload) ∨ slot ∈ s := by
  induction s with
  | nil => exact .inl (List.mem_singleton.mp h)
  | cons kv s ih =>
      obtain ⟨k, old⟩ := kv
      rw [Slots.insert] at h
      split at h
      · exact List.mem_cons.mp h
      · split at h
        · rcases List.mem_cons.mp h with h | h
          · exact .inl h
          · exact .inr (List.mem_cons_of_mem _ h)
        · rcases List.mem_cons.mp h with rfl | h
          · exact .inr List.mem_cons_self
          · exact (ih h).imp_right (List.mem_cons_of_mem _)

theorem mem_of_get? (h : s.get? i = some payload) : (i, payload) ∈ s := by
  induction s with
  | nil => cases h
  | cons kv s ih =>
      obtain ⟨k, old⟩ := kv
      rw [Slots.get?] at h
      split at h
      · rename_i hk
        cases h
        exact hk ▸ List.mem_cons_self
      · exact List.mem_cons_of_mem _ (ih h)

theorem isSome_get?_of_mem (h : slot ∈ s) : (s.get? slot.1).isSome := by
  induction s with
  | nil => cases h
  | cons kv s ih =>
      obtain ⟨k, old⟩ := kv
      rw [Slots.get?]
      split
      · rfl
      · rename_i hk
        rcases List.mem_cons.mp h with rfl | h
        · exact absurd rfl hk
        · exact ih h

/-- Slots that are picked by their indices keep their payloads. -/
theorem get?_filter (q : UInt16 → Bool) (s : Slots) (i : UInt16) :
    get? (s.filter fun slot ↦ q slot.1) i = if q i then s.get? i else none := by
  induction s with
  | nil => simp [get?]
  | cons kv s ih =>
      obtain ⟨k, old⟩ := kv
      rw [List.filter_cons]
      by_cases hk : k = i
      · subst hk
        by_cases hq : q k
        · simp [hq, get?]
        · simpa [hq] using ih
      · by_cases hq : q k
        · simpa [hq, get?, hk] using ih
        · simpa [hq, get?, hk] using ih

/-! ## Order -/

def Ascending (s : Slots) : Prop := s.Pairwise fun a b ↦ a.1 < b.1

theorem ascending_nil : Ascending [] := .nil

theorem Ascending.insert (h : Ascending s) (i : UInt16) (payload : Bytes) :
    Ascending (s.insert i payload) := by
  induction s with
  | nil => exact List.pairwise_singleton _ _
  | cons kv s ih =>
      obtain ⟨k, old⟩ := kv
      obtain ⟨hhead, htail⟩ := List.pairwise_cons.mp h
      rw [Slots.insert]
      split
      · rename_i hlt
        refine List.pairwise_cons.mpr ⟨fun slot hslot ↦ ?_, h⟩
        rcases List.mem_cons.mp hslot with rfl | hslot
        · exact hlt
        · exact UInt16.lt_trans hlt (hhead slot hslot)
      · rename_i hlt
        split
        · rename_i heq
          exact List.pairwise_cons.mpr ⟨fun slot hslot ↦ heq ▸ hhead slot hslot, htail⟩
        · rename_i hne
          refine List.pairwise_cons.mpr ⟨fun slot hslot ↦ ?_, ih htail⟩
          rcases mem_insert hslot with rfl | hslot
          · exact UInt16.lt_of_le_of_ne (UInt16.not_lt.mp hlt) (Ne.symm hne)
          · exact hhead slot hslot

theorem Ascending.filter (h : Ascending s) (q : UInt16 × Bytes → Bool) :
    Ascending (s.filter q) := List.Pairwise.filter q h

/-! ## Slots of one message -/

/-- The slots hold the payloads of a message under the indices of `indices`. -/
structure Fills (payloads : List Bytes) (indices : Finset Nat) (s : Slots) : Prop where
  ascending : Ascending s
  get? (i : UInt16) : s.get? i = if i.toNat ∈ indices then payloads[i.toNat]? else none

variable {payloads : List Bytes} {indices : Finset Nat} {k : Nat}

theorem fills_nil (payloads : List Bytes) : Fills payloads ∅ [] := ⟨ascending_nil, fun _ ↦ rfl⟩

theorem Fills.get?_ofNat (h : Fills payloads indices s) (hk : k < payloads.length)
    (hsize : payloads.length < UInt16.size) :
    s.get? (UInt16.ofNat k) = if k ∈ indices then some payloads[k] else none := by
  rw [h.get?, UInt16.toNat_ofNat_of_lt' (lt_trans hk hsize), List.getElem?_eq_getElem hk]

theorem Fills.insert (h : Fills payloads indices s) (hk : k < payloads.length)
    (hsize : payloads.length < UInt16.size) :
    Fills payloads (Insert.insert k indices) (s.insert (UInt16.ofNat k) payloads[k]) := by
  have hword : (UInt16.ofNat k).toNat = k := UInt16.toNat_ofNat_of_lt' (lt_trans hk hsize)
  refine ⟨h.ascending.insert _ _, fun i ↦ ?_⟩
  by_cases hi : i = UInt16.ofNat k
  · subst hi
    simp [hword, hk]
  · have hne : i.toNat ≠ k := by
      rintro rfl
      exact hi UInt16.ofNat_toNat.symm
    rw [get?_insert_of_ne s _ hi, h.get?]
    simp [hne]

/-- Slots picked by their indices hold the payloads under these. -/
theorem Fills.filter (h : Fills payloads indices s) (q : UInt16 × Bytes → Bool) (p : Nat → Prop)
    [DecidablePred p] (hq : ∀ slot, q slot = decide (p slot.1.toNat)) :
    Fills payloads (indices.filter p) (s.filter q) := by
  refine ⟨h.ascending.filter q, fun i ↦ ?_⟩
  have hfilter : s.filter q = s.filter fun slot ↦ decide (p slot.1.toNat) :=
    List.filter_congr fun slot _ ↦ hq slot
  rw [hfilter, get?_filter (fun i ↦ decide (p i.toNat)), h.get?]
  by_cases hp : p i.toNat <;> simp [hp]

/-- Two messages with the same payloads under some indices fill the same slots. -/
theorem Fills.congr {payloads' : List Bytes} (h : Fills payloads indices s)
    (heq : ∀ k ∈ indices, payloads[k]? = payloads'[k]?) : Fills payloads' indices s := by
  refine ⟨h.ascending, fun i ↦ ?_⟩
  rw [h.get?]
  split
  · rename_i hi
    exact heq _ hi
  · rfl

/-- There are as many slots as indices. -/
theorem Fills.length_eq (h : Fills payloads indices s)
    (hindices : indices ⊆ Finset.range payloads.length) (hsize : payloads.length < UInt16.size) :
    s.length = indices.card := by
  have hnodup : (s.map fun slot ↦ slot.1.toNat).Nodup := by
    refine List.Pairwise.map _ (fun a b hlt ↦ ?_) h.ascending
    rw [UInt16.lt_iff_toNat_lt] at hlt
    omega
  have hsame : (s.map fun slot ↦ slot.1.toNat).toFinset = indices := by
    ext k
    simp only [List.mem_toFinset, List.mem_map]
    constructor
    · rintro ⟨slot, hslot, rfl⟩
      have hsome := isSome_get?_of_mem hslot
      rw [h.get?] at hsome
      by_contra hk
      simp [hk] at hsome
    · intro hk
      have hlt := Finset.mem_range.mp (hindices hk)
      refine ⟨(UInt16.ofNat k, payloads[k]), mem_of_get? ?_,
        UInt16.toNat_ofNat_of_lt' (lt_trans hlt hsize)⟩
      rw [h.get?_ofNat hlt hsize, if_pos hk]
  rw [← hsame, List.toFinset_card_of_nodup hnodup, List.length_map]

/-! ## Slots below a total -/

/-- The slots stand in order, and all of them belong to a message of `total` packets. -/
structure Below (total : UInt16) (s : Slots) : Prop where
  ascending : Ascending s
  lt : ∀ slot ∈ s, slot.1 < total

variable {total : UInt16}

theorem below_nil (total : UInt16) : Below total [] := ⟨ascending_nil, nofun⟩

theorem Below.insert (h : Below total s) (hi : i < total) (payload : Bytes) :
    Below total (s.insert i payload) := by
  refine ⟨h.ascending.insert i payload, fun slot hslot ↦ ?_⟩
  rcases mem_insert hslot with rfl | hslot
  · exact hi
  · exact h.lt slot hslot

theorem Below.filter (h : Below total s) (q : UInt16 × Bytes → Bool) : Below total (s.filter q) :=
  ⟨h.ascending.filter q, fun slot hslot ↦ h.lt slot (List.mem_filter.mp hslot).1⟩

theorem Ascending.pairwise_toNat (h : Ascending s) :
    (s.map fun slot ↦ slot.1.toNat).Pairwise (· < ·) :=
  List.Pairwise.map _ (fun _ _ hlt ↦ UInt16.lt_iff_toNat_lt.mp hlt) h

theorem Below.subperm (h : Below total s) :
    (s.map fun slot ↦ slot.1.toNat).Subperm (List.range total.toNat) := by
  refine List.subperm_of_subset h.ascending.pairwise_toNat.nodup fun k hk ↦ ?_
  obtain ⟨slot, hslot, rfl⟩ := List.mem_map.mp hk
  exact List.mem_range.mpr (UInt16.lt_iff_toNat_lt.mp (h.lt slot hslot))

theorem Below.length_le (h : Below total s) : s.length ≤ total.toNat := by
  simpa using h.subperm.length_le

/-- As many slots as the message has packets are one for each of its indices. -/
theorem Below.indices_eq (h : Below total s) (hlength : s.length = total.toNat) :
    (s.map fun slot ↦ slot.1.toNat) = List.range total.toNat := by
  have hperm := h.subperm.perm_of_length_le (by simp [hlength])
  exact List.Subset.antisymm_of_pairwise h.ascending.pairwise_toNat List.pairwise_lt_range
    hperm.subset hperm.symm.subset

theorem isSome_get?_iff : (s.get? i).isSome ↔ ∃ payload, (i, payload) ∈ s := by
  constructor
  · intro h
    obtain ⟨payload, hget⟩ := Option.isSome_iff_exists.mp h
    exact ⟨payload, mem_of_get? hget⟩
  · rintro ⟨payload, hmem⟩
    exact isSome_get?_of_mem hmem

/-- Slots under all indices of a message hold a payload for each. -/
theorem isSome_get?_iff_of_indices (h : (s.map fun slot ↦ slot.1.toNat) = List.range total.toNat) :
    (s.get? i).isSome ↔ i < total := by
  have hmem : i.toNat ∈ (s.map fun slot ↦ slot.1.toNat) ↔ i < total := by
    rw [h, List.mem_range, UInt16.lt_iff_toNat_lt]
  rw [isSome_get?_iff, ← hmem, List.mem_map]
  constructor
  · rintro ⟨payload, hslot⟩
    exact ⟨_, hslot, rfl⟩
  · rintro ⟨⟨k, payload⟩, hslot, heq⟩
    obtain rfl : k = i := UInt16.toNat_inj.mp heq
    exact ⟨payload, hslot⟩

/-- The slots are as many as the message has packets if and only if no index is missing. -/
theorem Below.length_eq_iff (h : Below total s) :
    s.length = total.toNat ↔ ∀ i < total, (s.get? i).isSome := by
  constructor
  · intro hlength i hi
    exact (isSome_get?_iff_of_indices (h.indices_eq hlength)).mpr hi
  · intro hall
    refine le_antisymm h.length_le ?_
    have hsub : List.range total.toNat ⊆ s.map fun slot ↦ slot.1.toNat := by
      intro k hk
      have hlt : k < total.toNat := List.mem_range.mp hk
      have hword : (UInt16.ofNat k).toNat = k :=
        UInt16.toNat_ofNat_of_lt' (lt_trans hlt total.toNat_lt_size)
      obtain ⟨payload, hslot⟩ := isSome_get?_iff.mp
        (hall (UInt16.ofNat k) (by rw [UInt16.lt_iff_toNat_lt, hword]; exact hlt))
      exact List.mem_map.mpr ⟨_, hslot, hword⟩
    simpa using (List.subperm_of_subset List.nodup_range hsub).length_le

end BleBridge.Frame.Slots
