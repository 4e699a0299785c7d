import BleBridge.Proofs.Frame.Coherence
import BleBridge.Proofs.Frame.Expiry

/-!
# Messages in a row, the last of them unfinished

Messages that come whole and one after the other are all delivered
(`answers_splits`).  Of a message that lacks a packet nothing comes, whatever was
delivered before (`answers_of_unfinished`): no other packet of it has the index of
the one that is missing, and without that index none of its total is delivered.
-/

namespace BleBridge.Frame

/-- No packets, or packets of one message without one of them. -/
inductive Unfinished (f : Layout) : List Packet → Prop
  | nothing : Unfinished f []
  | part {data : Bytes} {packets last : List Packet} {p : Packet}
      (split : f.split data = .ok packets) (unbroken : ¬ defaultSuffix <:+: data)
      (packets_of : last ⊆ packets) (mem : p ∈ packets) (lacks : p ∉ last) : Unfinished f last

variable {f : Layout} {p : Packet} {data : Bytes} {packets last : List Packet}

/-! ## The packets of a message -/

/-- A packet of a message fits a frame, and has no line break if the message has none. -/
theorem Layout.payload_of_split (hsplit : f.split data = .ok packets)
    (hdata : ¬ defaultSuffix <:+: data) (hp : p ∈ packets) :
    p.payload.length ≤ f.maxPayload ∧ ¬ [0x0D, 0x0A] <:+: p.payload := by
  obtain ⟨-, -, hpart⟩ := Layout.of_mem_split hsplit hp
  obtain ⟨_, rfl⟩ := Layout.split_eq_ok_iff.mp hsplit
  exact ⟨length_le_of_mem_pieces (payload_mem_of_mem_numbered hp), fun h ↦ hdata (h.trans hpart)⟩

theorem Layout.payload_of_splits {ms : List Bytes} {pss : List (List Packet)}
    (hsplit : List.Forall₂ (f.split · = .ok ·) ms pss) (hms : ∀ m ∈ ms, ¬ defaultSuffix <:+: m) :
    ∀ p ∈ pss.flatten, p.payload.length ≤ f.maxPayload ∧ ¬ [0x0D, 0x0A] <:+: p.payload := by
  induction hsplit with
  | nil => exact nofun
  | @cons m packets ms pss hm _ ih =>
      intro p hp
      rcases List.mem_append.mp hp with hp | hp
      · exact payload_of_split hm (hms m List.mem_cons_self) hp
      · exact ih (fun m hm ↦ hms m (List.mem_cons_of_mem _ hm)) p hp

/-- Another packet of the message has another index, and the total is more than the place of any of
them. -/
theorem Layout.exists_place (hsplit : f.split data = .ok packets) (hp : p ∈ packets) :
    ∃ i, ∀ q ∈ packets, i < q.total.toNat ∧ (q.index = UInt16.ofNat i → q = p) := by
  obtain ⟨hsize, rfl⟩ := Layout.split_eq_ok_iff.mp hsplit
  obtain ⟨i, hi, rfl⟩ := exists_of_mem_numbered hp
  refine ⟨0 + i, fun q hq ↦ ?_⟩
  obtain ⟨j, hj, rfl⟩ := exists_of_mem_numbered hq
  constructor
  · show 0 + i < (UInt16.ofNat (f.payloads data).length).toNat
    rw [UInt16.toNat_ofNat_of_lt' hsize]
    omega
  · intro hindex
    obtain rfl : j = i := by
      have := (Slots.ofNat_inj (by omega) (by omega)).mp hindex
      omega
    rfl

theorem Unfinished.payload (h : Unfinished f last) (hp : p ∈ last) :
    p.payload.length ≤ f.maxPayload ∧ ¬ [0x0D, 0x0A] <:+: p.payload := by
  cases h with
  | nothing => cases hp
  | part split unbroken packets_of mem lacks =>
      exact Layout.payload_of_split split unbroken (packets_of hp)

/-- Some place below all totals is not taken. -/
theorem Unfinished.exists_lacking (h : Unfinished f last) :
    ∃ i, ∀ q ∈ last, i < q.total.toNat ∧ q.index ≠ UInt16.ofNat i := by
  cases h with
  | nothing => exact ⟨0, nofun⟩
  | part split unbroken packets_of mem lacks =>
      obtain ⟨i, hplace⟩ := Layout.exists_place split mem
      refine ⟨i, fun q hq ↦ ⟨(hplace q (packets_of hq)).1, fun hindex ↦ lacks ?_⟩⟩
      rwa [← (hplace q (packets_of hq)).2 hindex]

namespace Reassembler

variable {r : Reassembler} {l : List (Packet × Nat)}

/-! ## What is delivered -/

theorem Coherent.pushAll (h : Coherent r) (l : List (Packet × Nat)) : Coherent (r.pushAll l) := by
  induction l generalizing r with
  | nil => exact h
  | cons timed l ih => exact ih h.push

/-- Packets that belong to messages bring no fault. -/
theorem Coherent.error_notMem_pushes (h : Coherent r) (hpositive : ∀ t ∈ l, t.1.total ≠ 0)
    (fault : Fault) : .error fault ∉ r.pushes l := by
  induction l generalizing r with
  | nil => exact List.not_mem_nil
  | cons timed l ih =>
      rw [pushes, List.mem_cons]
      rintro (hresult | hmem)
      · exact hpositive _ List.mem_cons_self (h.push_eq_error_iff.mp hresult.symm).1
      · exact ih h.push (fun t ht ↦ hpositive t (List.mem_cons_of_mem _ ht)) hmem

/-- A reassembler that may go on with any message holds no packets. -/
theorem gathered_of_awaits (h : ∀ total, Awaits total [] r) : Gathered [] r := by
  cases h 0 with
  | opened since buffer =>
      -- the open message would have two totals
      cases h 1 with
      | opened since' buffer' => cases buffer.symm.trans buffer'
      | fresh buffer' => cases buffer.symm.trans buffer'
      | held c buffer' => cases buffer.symm.trans buffer'
  | fresh buffer completed => exact ⟨buffer ▸ forall_none, completed ▸ forall_none⟩
  | held c buffer completed copies =>
      refine ⟨buffer ▸ forall_none, fun c' hc' ↦ ?_⟩
      obtain rfl : c = c' := Option.some.inj (completed.symm.trans hc')
      rw [copies]
      exact filled_nil _ _

/-- An unfinished message is not answered. -/
theorem answers_of_unfinished (hlast : Unfinished f (l.map Prod.fst)) (hcoherent : Coherent r)
    (h : Gathered [] r) : answers (r.pushes l) = [] := by
  obtain ⟨i, hlacking⟩ := hlast.exists_lacking
  have hlacks : ∀ t ∈ l, i < t.1.total.toNat ∧ t.1.index ≠ UInt16.ofNat i := fun t ht ↦
    hlacking t.1 (List.mem_map_of_mem ht)
  have hpositive : ∀ t ∈ l, t.1.total ≠ 0 := by
    intro t ht hzero
    have := (hlacks t ht).1
    rw [hzero] at this
    exact Nat.not_lt_zero _ this
  refine List.filterMap_eq_nil_iff.mpr fun result hresult ↦ ?_
  rcases result with fault | _ | data
  · exact absurd hresult (hcoherent.error_notMem_pushes hpositive fault)
  · rfl
  · refine absurd hresult (pushes_of_lacking h (fun q hq ↦ (hlacking q ?_).2)
      (fun t ht _ ↦ (hlacks t ht).1) data)
    rwa [List.nil_append] at hq

/-- Whole messages one after the other are answered with the messages. -/
theorem answers_splits {ms : List Bytes} {pss : List (List Packet)}
    (hsplit : List.Forall₂ (f.split · = .ok ·) ms pss) (hms : ∀ m ∈ ms, m ≠ [])
    (hl : l.map Prod.fst = pss.flatten) (hage : r.maxAge = none)
    (h : ∀ total, Awaits total [] r) :
    answers (r.pushes l) = ms.map .ok ∧ ∀ total, Awaits total [] (r.pushAll l) := by
  induction hsplit generalizing l r with
  | nil =>
      obtain rfl : l = [] := by simpa using hl
      exact ⟨rfl, h⟩
  | @cons m packets ms pss hm _ ih =>
      obtain ⟨l₁, l₂, rfl, hfirst, hlater⟩ := List.map_eq_append_iff.mp hl
      obtain ⟨hsize, rfl⟩ := Layout.split_eq_ok_iff.mp hm
      obtain ⟨hpushes, hage', hawaits⟩ := pushes_numbered hfirst
        (f.payloads_ne_nil (hms m List.mem_cons_self))
        (by rw [UInt16.toNat_ofNat_of_lt' hsize, List.length_nil, Nat.zero_add]) hage (h _)
      obtain ⟨hanswers, hend⟩ :=
        ih (fun m hm ↦ hms m (List.mem_cons_of_mem _ hm)) hlater hage' hawaits
      rw [List.nil_append, f.flatten_payloads] at hpushes
      refine ⟨?_, by rwa [pushAll_append]⟩
      rw [pushes_append, answers_append, hanswers, hpushes, answers_append,
        answers_replicate_none]
      rfl

end Reassembler

end BleBridge.Frame
