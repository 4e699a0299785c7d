import BleBridge.Frame.Layout
import BleBridge.Proofs.Text.Cut
import Mathlib.Data.List.Basic
import Mathlib.Data.List.Infix
import Mathlib.Data.Nat.Bitwise

/-!
# The packets of a message

A message is cut into pieces of the layout's payload size and each piece gets a
header.  This file collects what the sending side guarantees: the pieces are the
message again, each fits a frame, and a header reads back as the numbers it was
written from.
-/

namespace BleBridge.Frame

/-! ## Headers -/

/-- Two bytes of a word, high byte first, are read back as the word. -/
@[simp] theorem wordOf_wordBytes (w : UInt16) : wordOf (w >>> 8).toUInt8 w.toUInt8 = w := by
  have hw : w.toNat < 65536 := w.toNat_lt
  have hhigh : w.toNat / 256 % 256 = w.toNat / 256 := Nat.mod_eq_of_lt (by omega)
  have hshift : w.toNat / 256 * 256 % 65536 = w.toNat / 256 * 256 := Nat.mod_eq_of_lt (by omega)
  have hor : w.toNat / 256 * 256 ||| w.toNat % 256 = w.toNat := by
    have := Nat.shiftLeft_add_eq_or_of_lt (i := 8) (b := w.toNat % 256) (by omega) (w.toNat / 256)
    rw [Nat.shiftLeft_eq, show 2 ^ 8 = 256 from rfl] at this
    omega
  apply UInt16.toNat_inj.mp
  simp only [wordOf, UInt16.toNat_or, UInt16.toNat_shiftLeft, UInt8.toNat_toUInt16,
    UInt16.toNat_toUInt8, UInt16.toNat_shiftRight, UInt16.toNat_ofNat, Nat.shiftRight_eq_div_pow,
    Nat.shiftLeft_eq]
  simp [hhigh, hshift, hor]

/-- Any two bytes are those of the word that they are read as. -/
@[simp] theorem wordBytes_wordOf (high low : UInt8) :
    wordBytes (wordOf high low) = [high, low] := by
  have hhigh : high.toNat < 256 := high.toNat_lt
  have hlow : low.toNat < 256 := low.toNat_lt
  have hshift : high.toNat * 256 % 65536 = high.toNat * 256 := Nat.mod_eq_of_lt (by omega)
  have hor : high.toNat * 256 ||| low.toNat = high.toNat * 256 + low.toNat := by
    have := Nat.shiftLeft_add_eq_or_of_lt (i := 8) hlow high.toNat
    rw [Nat.shiftLeft_eq, show 2 ^ 8 = 256 from rfl] at this
    exact this.symm
  have hword : (wordOf high low).toNat = high.toNat * 256 + low.toNat := by
    simp only [wordOf, UInt16.toNat_or, UInt16.toNat_shiftLeft, UInt8.toNat_toUInt16,
      UInt16.toNat_ofNat, Nat.shiftLeft_eq]
    simp [hshift, hor]
  have hfirst : (wordOf high low >>> 8).toUInt8 = high := by
    apply UInt8.toNat_inj.mp
    simp only [UInt16.toNat_toUInt8, UInt16.toNat_shiftRight, hword, UInt16.toNat_ofNat,
      Nat.shiftRight_eq_div_pow]
    have : (high.toNat * 256 + low.toNat) / 256 = high.toNat := by omega
    simp [this]
  have hsecond : (wordOf high low).toUInt8 = low := by
    apply UInt8.toNat_inj.mp
    rw [UInt16.toNat_toUInt8, hword, Nat.mul_add_mod_self_right, Nat.mod_eq_of_lt hlow]
  rw [wordBytes, hfirst, hsecond]

theorem wordBytes_inj {v w : UInt16} : wordBytes v = wordBytes w ↔ v = w := by
  constructor
  · intro h
    obtain ⟨hhigh, hlow⟩ : (v >>> 8).toUInt8 = (w >>> 8).toUInt8 ∧ v.toUInt8 = w.toUInt8 := by
      simpa [wordBytes] using h
    rw [← wordOf_wordBytes v, hhigh, hlow, wordOf_wordBytes]
  · rintro rfl
    rfl

namespace Packet

@[simp] theorem parse_body (p : Packet) : Packet.parse p.body = .ok p := by
  simp [Packet.body, wordBytes, Packet.parse]

/-- Bytes that hold a header are the body of a packet. -/
theorem exists_body {bs : Bytes} (h : headerSize ≤ bs.length) : ∃ p : Packet, p.body = bs := by
  match bs, h with
  | i₁ :: i₀ :: t₁ :: t₀ :: payload, _ =>
      exact ⟨⟨wordOf i₁ i₀, wordOf t₁ t₀, payload⟩, by simp [Packet.body]⟩

theorem length_body (p : Packet) : p.body.length = headerSize + p.payload.length := by
  simp [Packet.body, wordBytes, headerSize]
  omega

end Packet

/-! ## Pieces -/

section Pieces

variable {α : Type} {size : Nat} {xs : List α}

@[simp] theorem pieces_nil : pieces size ([] : List α) = [] := by
  rw [pieces]
  simp

theorem pieces_of_ne_nil (hs : size ≠ 0) (hx : xs ≠ []) :
    pieces size xs = xs.take size :: pieces size (xs.drop size) := by
  rw [pieces, dif_neg (by simp [hs, hx])]

/-- Nothing is lost or moved when a list is cut into pieces. -/
theorem flatten_pieces (hs : size ≠ 0) (xs : List α) : (pieces size xs).flatten = xs := by
  induction xs using pieces.induct size with
  | case1 xs h =>
      obtain rfl : xs = [] := h.resolve_left hs
      simp
  | case2 xs h _ ih =>
      rw [pieces_of_ne_nil hs (fun hx ↦ h (.inr hx)), List.flatten_cons, ih,
        List.take_append_drop]

theorem pieces_ne_nil (hs : size ≠ 0) (hx : xs ≠ []) : pieces size xs ≠ [] := by
  rw [pieces_of_ne_nil hs hx]
  exact List.cons_ne_nil _ _

theorem length_le_of_mem_pieces {piece : List α} (h : piece ∈ pieces size xs) :
    piece.length ≤ size := by
  induction xs using pieces.induct size with
  | case1 xs hx =>
      rw [pieces, dif_pos hx] at h
      cases h
  | case2 xs hx _ ih =>
      rw [pieces, dif_neg hx] at h
      rcases List.mem_cons.mp h with rfl | h
      · exact List.length_take_le size xs
      · exact ih h

/-- A piece is a stretch of the list. -/
theorem infix_of_mem_pieces {piece : List α} (h : piece ∈ pieces size xs) : piece <:+: xs := by
  induction xs using pieces.induct size with
  | case1 xs hx =>
      rw [pieces, dif_pos hx] at h
      cases h
  | case2 xs hx _ ih =>
      rw [pieces, dif_neg hx] at h
      rcases List.mem_cons.mp h with rfl | h
      · exact (List.take_prefix size xs).isInfix
      · exact (ih h).trans (List.drop_suffix size xs).isInfix

theorem ne_nil_of_mem_pieces {piece : List α} (h : piece ∈ pieces size xs) : piece ≠ [] := by
  induction xs using pieces.induct size with
  | case1 xs hx =>
      rw [pieces, dif_pos hx] at h
      cases h
  | case2 xs hx _ ih =>
      rw [pieces, dif_neg hx] at h
      rcases List.mem_cons.mp h with rfl | h
      · intro htake
        rcases List.take_eq_nil_iff.mp htake with hs | hx'
        · exact hx (.inl hs)
        · exact hx (.inr hx')
      · exact ih h

theorem length_pieces (hs : size ≠ 0) (xs : List α) :
    (pieces size xs).length = (xs.length + size - 1) / size := by
  have hpos : 0 < size := Nat.pos_of_ne_zero hs
  induction xs using pieces.induct size with
  | case1 xs h =>
      obtain rfl : xs = [] := h.resolve_left hs
      rw [pieces_nil, List.length_nil, Nat.div_eq_of_lt (by simp only [List.length_nil]; omega)]
  | case2 xs h _ ih =>
      have hx : xs ≠ [] := fun hx ↦ h (.inr hx)
      have hlen : 0 < xs.length := List.length_pos_iff.mpr hx
      rw [pieces_of_ne_nil hs hx, List.length_cons, ih, List.length_drop]
      rcases Nat.lt_or_ge size xs.length with hlt | hge
      · rw [show xs.length + size - 1 = xs.length - size + size - 1 + size by omega,
          Nat.add_div_right _ hpos]
      · rw [show xs.length - size + size - 1 = size - 1 by omega,
          show xs.length + size - 1 = xs.length - 1 + size by omega, Nat.add_div_right _ hpos,
          Nat.div_eq_of_lt (show size - 1 < size by omega),
          Nat.div_eq_of_lt (show xs.length - 1 < size by omega)]

theorem getElem?_pieces (hs : size ≠ 0) {k : Nat} (hk : k * size < xs.length) :
    (pieces size xs)[k]? = some ((xs.drop (k * size)).take size) := by
  induction k generalizing xs with
  | zero =>
      have hx : xs ≠ [] := List.ne_nil_of_length_pos (by omega)
      rw [pieces_of_ne_nil hs hx, List.getElem?_cons_zero, Nat.zero_mul, List.drop_zero]
  | succ k ih =>
      have hx : xs ≠ [] := List.ne_nil_of_length_pos (by omega)
      rw [Nat.succ_mul] at hk ⊢
      have hrest : k * size < (xs.drop size).length := by
        rw [List.length_drop]
        omega
      rw [pieces_of_ne_nil hs hx, List.getElem?_cons_succ, ih hrest, List.drop_drop,
        Nat.add_comm size]

/-- The first pieces are the front of the list, and the others are the rest. -/
theorem flatten_take_pieces (hs : size ≠ 0) (xs : List α) (k : Nat) :
    ((pieces size xs).take k).flatten = xs.take (k * size) := by
  induction k generalizing xs with
  | zero => simp
  | succ k ih =>
      by_cases hx : xs = []
      · simp [hx]
      · rw [pieces_of_ne_nil hs hx, List.take_succ_cons, List.flatten_cons, ih, Nat.succ_mul,
          Nat.add_comm, List.take_add]

theorem flatten_drop_pieces (hs : size ≠ 0) (xs : List α) (k : Nat) :
    ((pieces size xs).drop k).flatten = xs.drop (k * size) := by
  have hwhole : ((pieces size xs).take k).flatten ++ ((pieces size xs).drop k).flatten = xs := by
    rw [← List.flatten_append, List.take_append_drop, flatten_pieces hs]
  rw [flatten_take_pieces hs] at hwhole
  exact List.append_cancel_left (hwhole.trans (List.take_append_drop (k * size) xs).symm)

/-- A piece starts within the list. -/
theorem mul_lt_length_of_lt {k : Nat} (hs : size ≠ 0) (hk : k < (pieces size xs).length) :
    k * size < xs.length := by
  rw [length_pieces hs, Nat.lt_div_iff_mul_lt (Nat.pos_of_ne_zero hs)] at hk
  omega

theorem getElem_pieces (hs : size ≠ 0) {k : Nat} (hk : k < (pieces size xs).length) :
    (pieces size xs)[k] = (xs.drop (k * size)).take size := by
  have hget := getElem?_pieces hs (mul_lt_length_of_lt hs hk)
  rw [List.getElem?_eq_getElem hk] at hget
  exact Option.some.inj hget

end Pieces

namespace Layout

/-! ## Numbered packets -/

@[simp] theorem length_numbered (total : UInt16) (i : Nat) (payloads : List Bytes) :
    (numbered total i payloads).length = payloads.length := by
  induction payloads generalizing i with
  | nil => rfl
  | cons payload payloads ih => simp [numbered, ih]

theorem numbered_append (total : UInt16) (i : Nat) (payloads payloads' : List Bytes) :
    numbered total i (payloads ++ payloads') =
      numbered total i payloads ++ numbered total (i + payloads.length) payloads' := by
  induction payloads generalizing i with
  | nil => rfl
  | cons payload payloads ih =>
      rw [List.cons_append, numbered, numbered, ih, List.length_cons, List.cons_append,
        Nat.add_assoc, Nat.add_comm 1]

theorem take_numbered (total : UInt16) (i : Nat) (payloads : List Bytes) (k : Nat) :
    (numbered total i payloads).take k = numbered total i (payloads.take k) := by
  induction payloads generalizing i k with
  | nil => simp [numbered]
  | cons payload payloads ih =>
      cases k with
      | zero => rfl
      | succ k => rw [numbered, List.take_succ_cons, ih, List.take_succ_cons, numbered]

/-- The packets are the payloads with their places. -/
theorem exists_of_mem_numbered {total : UInt16} {i : Nat} {payloads : List Bytes} {p : Packet}
    (h : p ∈ numbered total i payloads) :
    ∃ k, ∃ hk : k < payloads.length, p = ⟨UInt16.ofNat (i + k), total, payloads[k]⟩ := by
  induction payloads generalizing i with
  | nil => cases h
  | cons payload payloads ih =>
      rcases List.mem_cons.mp h with rfl | h
      · exact ⟨0, by simp, rfl⟩
      · obtain ⟨k, hk, rfl⟩ := ih h
        refine ⟨k + 1, by simpa using hk, ?_⟩
        rw [Nat.add_assoc, Nat.add_comm 1 k]
        rfl

theorem total_of_mem_numbered {total : UInt16} {i : Nat} {payloads : List Bytes} {p : Packet}
    (h : p ∈ numbered total i payloads) : p.total = total := by
  obtain ⟨k, hk, rfl⟩ := exists_of_mem_numbered h
  rfl

theorem payload_mem_of_mem_numbered {total : UInt16} {i : Nat} {payloads : List Bytes}
    {p : Packet} (h : p ∈ numbered total i payloads) : p.payload ∈ payloads := by
  obtain ⟨k, hk, rfl⟩ := exists_of_mem_numbered h
  exact List.getElem_mem hk

/-! ## Splitting -/

variable {f : Layout} {data : Bytes} {packets : List Packet}

theorem maxPayload_ne_zero (f : Layout) : f.maxPayload ≠ 0 := f.maxPayload_pos.ne'

/-- The payloads of a message. -/
def payloads (f : Layout) (data : Bytes) : List Bytes := pieces f.maxPayload data

theorem flatten_payloads (f : Layout) (data : Bytes) : (f.payloads data).flatten = data :=
  flatten_pieces f.maxPayload_ne_zero data

theorem payloads_ne_nil (f : Layout) (h : data ≠ []) : f.payloads data ≠ [] :=
  pieces_ne_nil f.maxPayload_ne_zero h

/-- A message that splits is its payloads, numbered from zero under their count, and the count is
a word. -/
theorem split_eq_ok_iff : f.split data = .ok packets ↔
    (f.payloads data).length < UInt16.size ∧
      packets = numbered (UInt16.ofNat (f.payloads data).length) 0 (f.payloads data) := by
  have hcount : f.packetCount data.length = (f.payloads data).length :=
    (length_pieces f.maxPayload_ne_zero data).symm
  simp only [split, hcount, payloads]
  split
  · rename_i h
    simp only [Except.ok.injEq, h, true_and]
    exact eq_comm
  · rename_i h
    simp [h]

/-- A packet of a split message is within its total and holds a stretch of the message. -/
theorem of_mem_split {p : Packet} (h : f.split data = .ok packets) (hp : p ∈ packets) :
    p.index < p.total ∧ p.payload ≠ [] ∧ p.payload <:+: data := by
  obtain ⟨hsize, rfl⟩ := split_eq_ok_iff.mp h
  have hpayload := payload_mem_of_mem_numbered hp
  refine ⟨?_, ne_nil_of_mem_pieces hpayload, infix_of_mem_pieces hpayload⟩
  obtain ⟨k, hk, rfl⟩ := exists_of_mem_numbered hp
  rw [Nat.zero_add, UInt16.lt_iff_toNat_lt, UInt16.toNat_ofNat_of_lt' hsize,
    UInt16.toNat_ofNat_of_lt' (hk.trans hsize)]
  exact hk

theorem decode_lead_append (f : Layout) (rest : Bytes) :
    f.decode (f.lead ++ rest) = Packet.parse ((f.suffix.isSuffixOf? rest).getD rest) := by
  rw [decode, Text.isPrefixOf?_eq_some_iff.mpr rfl, Option.getD_some]

/-- A frame is read back as the packet that was put into it. -/
@[simp] theorem decode_encode (f : Layout) (p : Packet) : f.decode (f.encode p) = .ok p := by
  rw [encode, List.append_assoc, decode_lead_append, Text.isSuffixOf?_append_mark,
    Option.getD_some, Packet.parse_body]

theorem length_encode (f : Layout) (p : Packet) :
    (f.encode p).length = f.lead.length + headerSize + p.payload.length + f.suffix.length := by
  simp [encode, Packet.length_body]
  omega

/-- The frames of a split message keep to the transmission unit. -/
theorem length_encode_le_mtu {p : Packet} (h : p.payload.length ≤ f.maxPayload) :
    (f.encode p).length ≤ f.mtu := by
  have := f.room
  rw [length_encode]
  rw [maxPayload] at h
  omega

end Layout

end BleBridge.Frame
