import BleBridge.Proofs.Frame.AnyOrder
import BleBridge.Proofs.Frame.Noise
import BleBridge.Proofs.Json.Compact
import BleBridge.Proofs.Text.Pieces

/-!
# Line breaks in headers

The lead of a notification and the text of a document hold no line break, but a
header is binary.  Its two words are a line break of their own if one of them is
`0x0D0A`, and together if the index ends with the first byte and the total starts
with the second (`infix_header_iff`).

Which packets a message has depends on their number only, so this tells whether
all of them are free of line breaks (`forall_not_broken_iff`).
-/

namespace BleBridge.Frame

variable {p : Packet}

/-- A line break stands in the header. -/
def Packet.Broken (p : Packet) : Prop :=
  p.index = 0x0D0A ∨ p.total = 0x0D0A ∨ p.index.toNat % 256 = 0x0D ∧ p.total.toNat / 256 = 0x0A

/-- The headers of a message with so many packets hold no line break. -/
def Unbroken (count : Nat) : Prop := count < 0x0A00 ∨ 0x0B00 ≤ count ∧ count < 0x0D0A

instance : DecidablePred Unbroken := fun count ↦
  inferInstanceAs (Decidable (count < 0x0A00 ∨ 0x0B00 ≤ count ∧ count < 0x0D0A))

/-! ## One header -/

theorem high_eq_iff {w : UInt16} {b : UInt8} : (w >>> 8).toUInt8 = b ↔ w.toNat / 256 = b.toNat := by
  have hsize : w.toNat / 256 % 256 = w.toNat / 256 :=
    Nat.mod_eq_of_lt (Nat.div_lt_of_lt_mul w.toNat_lt)
  have hshift : (w >>> 8).toNat = w.toNat / 256 := by
    rw [UInt16.toNat_shiftRight]
    exact Nat.shiftRight_eq_div_pow w.toNat 8
  rw [← UInt8.toNat_inj, UInt16.toNat_toUInt8, hshift, hsize]

theorem low_eq_iff {w : UInt16} {b : UInt8} : w.toUInt8 = b ↔ w.toNat % 256 = b.toNat := by
  rw [← UInt8.toNat_inj, UInt16.toNat_toUInt8]

theorem infix_four_iff {a b c d : UInt8} : defaultSuffix <:+: [a, b, c, d] ↔
    defaultSuffix = [a, b] ∨ defaultSuffix = [c, d] ∨ 0x0D = b ∧ 0x0A = c := by
  simp only [defaultSuffix, List.infix_cons_iff, List.cons_prefix_cons, List.nil_prefix, and_true,
    List.prefix_nil, List.cons_ne_self, and_false, List.infix_nil, reduceCtorEq, or_false,
    List.cons.injEq]
  tauto

theorem infix_header_iff :
    defaultSuffix <:+: wordBytes p.index ++ wordBytes p.total ↔ p.Broken := by
  have hword : ∀ w : UInt16, defaultSuffix = wordBytes w ↔ w = 0x0D0A := by
    intro w
    rw [show defaultSuffix = wordBytes 0x0D0A by decide, wordBytes_inj, eq_comm]
  have hlow : (0x0D : UInt8) = p.index.toUInt8 ↔ p.index.toNat % 256 = 0x0D :=
    eq_comm.trans low_eq_iff
  have hhigh : (0x0A : UInt8) = (p.total >>> 8).toUInt8 ↔ p.total.toNat / 256 = 0x0A :=
    eq_comm.trans high_eq_iff
  rw [Packet.Broken, ← hword, ← hword, ← hlow, ← hhigh]
  exact infix_four_iff

namespace Layout

variable {f : Layout} {data : Bytes} {packets : List Packet}

/-- No packet of a compact text carries a line feed. -/
theorem feed_notMem_payload {v : Json} (h : f.split v.bytes = .ok packets) (hp : p ∈ packets) :
    0x0A ∉ p.payload := by
  intro hmem
  obtain ⟨-, -, hpart⟩ := of_mem_split h hp
  exact absurd (Json.le_of_mem_bytes (hpart.subset hmem)) (by decide)

theorem infix_frame_iff {mtu : Nat} {handle : String} (hlayout : notify mtu handle = .ok f)
    (hpayload : 0x0A ∉ p.payload) : defaultSuffix <:+: f.lead ++ p.body ↔ p.Broken := by
  obtain ⟨hlead, hhandle⟩ := lead_of_notify hlayout
  have hfront : 0x0D ∉ f.lead := by
    rw [hlead, List.mem_append, List.mem_append, not_or, not_or]
    refine ⟨by decide, fun hmem ↦ ?_, by decide⟩
    exact absurd (hhandle _ hmem) (by decide)
  have hback : [0x0D] ++ [0x0A] <:+: wordBytes p.index ++ wordBytes p.total ++ p.payload ↔
      [0x0D] ++ [0x0A] <:+: wordBytes p.index ++ wordBytes p.total :=
    Text.infix_append_right_iff hpayload
  rw [← infix_header_iff]
  exact (Text.infix_append_left_iff hfront).trans hback

/-! ## All headers of a message -/

theorem forall_not_broken_iff (h : f.split data = .ok packets) :
    (∀ p ∈ packets, ¬ p.Broken) ↔ Unbroken packets.length := by
  have hfragments := fragments_of_split h
  have hindex := hfragments.index
  have htotal := hfragments.total
  constructor
  · intro hwhole
    by_contra hcount
    -- the packets at these places have a broken header
    obtain ⟨k, hk, hbroken⟩ : ∃ k < packets.length, k = 0x0D0A ∨ packets.length = 0x0D0A ∨
        k % 256 = 0x0D ∧ packets.length / 256 = 0x0A := by
      rw [Unbroken] at hcount
      rcases Nat.lt_or_ge 0x0D0A packets.length with hlong | hshort
      · exact ⟨0x0D0A, hlong, .inl rfl⟩
      · exact ⟨0x0D, by omega, by omega⟩
    apply hwhole packets[k] (List.getElem_mem hk)
    rw [Packet.Broken, ← UInt16.toNat_inj, ← UInt16.toNat_inj, hindex,
      htotal _ (List.getElem_mem hk)]
    exact hbroken
  · intro hcount p hp hbroken
    obtain ⟨k, hk, rfl⟩ := List.mem_iff_getElem.mp hp
    rw [Packet.Broken, ← UInt16.toNat_inj, ← UInt16.toNat_inj, hindex, htotal _ hp,
      show UInt16.toNat 0x0D0A = 0x0D0A from rfl] at hbroken
    rw [Unbroken] at hcount
    omega

end Layout

end BleBridge.Frame
