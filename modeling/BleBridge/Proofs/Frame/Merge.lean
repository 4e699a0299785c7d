import BleBridge.Proofs.Frame.Gather

/-!
# Two messages sent at the same time

Two senders that share a link wait for it packet by packet, so the packets of
their messages may be merged in any way that keeps the order of each.  Packets
bear no message number, and one reassembler has one message open: both messages
come out exactly if all packets of one are sent before all packets of the other.

That serial sending is enough follows from `answers_numbered`.  That it is
necessary is an argument about first and last indices: two deliveries cut the
packets into two parts, the first of which holds the last packet of some message
and so all of it, and the second of which holds the first packet of the other.
-/

namespace BleBridge.Frame

/-! ## Merged lists -/

/-- `Merges xs ys zs` says that `zs` consists of `xs` and `ys`, each in its order. -/
inductive Merges {α : Type} : List α → List α → List α → Prop where
  | done : Merges [] [] []
  | first {x : α} {xs ys zs : List α} (h : Merges xs ys zs) : Merges (x :: xs) ys (x :: zs)
  | second {y : α} {xs ys zs : List α} (h : Merges xs ys zs) : Merges xs (y :: ys) (y :: zs)

namespace Merges

variable {α : Type} {xs ys zs : List α}

theorem symm (h : Merges xs ys zs) : Merges ys xs zs := by
  induction h with
  | done => exact .done
  | first _ ih => exact .second ih
  | second _ ih => exact .first ih

theorem eq_of_nil (h : Merges [] ys zs) : zs = ys := by
  induction ys generalizing zs with
  | nil =>
      cases h
      rfl
  | cons y ys ih =>
      cases h with
      | second h => rw [ih h]

theorem mem_or (h : Merges xs ys zs) {z : α} (hz : z ∈ zs) : z ∈ xs ∨ z ∈ ys := by
  induction h with
  | done => cases hz
  | first _ ih =>
      rcases List.mem_cons.mp hz with rfl | hz
      · exact .inl List.mem_cons_self
      · exact (ih hz).imp_left (List.mem_cons_of_mem _)
  | second _ ih =>
      rcases List.mem_cons.mp hz with rfl | hz
      · exact .inr List.mem_cons_self
      · exact (ih hz).imp_right (List.mem_cons_of_mem _)

/-- Where the merged list is cut, both lists are cut. -/
theorem cut {zs₁ zs₂ : List α} (h : Merges xs ys (zs₁ ++ zs₂)) :
    ∃ xs₁ xs₂ ys₁ ys₂, xs = xs₁ ++ xs₂ ∧ ys = ys₁ ++ ys₂ ∧
      Merges xs₁ ys₁ zs₁ ∧ Merges xs₂ ys₂ zs₂ := by
  induction zs₁ generalizing xs ys with
  | nil => exact ⟨[], xs, [], ys, rfl, rfl, .done, h⟩
  | cons z zs₁ ih =>
      cases h with
      | first h =>
          obtain ⟨xs₁, xs₂, ys₁, ys₂, rfl, rfl, h₁, h₂⟩ := ih h
          exact ⟨z :: xs₁, xs₂, ys₁, ys₂, rfl, rfl, .first h₁, h₂⟩
      | second h =>
          obtain ⟨xs₁, xs₂, ys₁, ys₂, rfl, rfl, h₁, h₂⟩ := ih h
          exact ⟨xs₁, xs₂, z :: ys₁, ys₂, rfl, rfl, .second h₁, h₂⟩

end Merges

/-! ## First and last packets -/

section Ends

variable {total : UInt16} {payloads : List Bytes} {front back : List Packet} {p : Packet}

/-- A front part of numbered packets is numbered too, and so is the rest. -/
theorem numbered_eq_append {i : Nat} (h : Layout.numbered total i payloads = front ++ back) :
    ∃ payloads₁ payloads₂, payloads = payloads₁ ++ payloads₂ ∧
      front = Layout.numbered total i payloads₁ ∧
      back = Layout.numbered total (i + payloads₁.length) payloads₂ := by
  induction front generalizing i payloads with
  | nil => exact ⟨[], payloads, rfl, rfl, by simpa using h.symm⟩
  | cons q front ih =>
      cases payloads with
      | nil => cases h
      | cons payload payloads =>
          rw [Layout.numbered, List.cons_append, List.cons.injEq] at h
          obtain ⟨rfl, h⟩ := h
          obtain ⟨payloads₁, payloads₂, rfl, rfl, rfl⟩ := ih h
          refine ⟨payload :: payloads₁, payloads₂, rfl, rfl, ?_⟩
          rw [List.length_cons, Nat.add_assoc, Nat.add_comm 1 payloads₁.length]

/-- Nothing follows the packet with the last index. -/
theorem back_eq_nil (hsize : payloads.length < UInt16.size)
    (h : Layout.numbered total 0 payloads = front ++ back) (hp : p ∈ front)
    (hindex : p.index = UInt16.ofNat (payloads.length - 1)) : back = [] := by
  obtain ⟨payloads₁, payloads₂, rfl, rfl, rfl⟩ := numbered_eq_append h
  obtain ⟨k, hk, rfl⟩ := Layout.exists_of_mem_numbered hp
  rw [List.length_append] at hsize hindex
  have heq := (Slots.ofNat_inj (by omega) (by omega)).mp hindex
  have hnone : payloads₂ = [] := List.eq_nil_of_length_eq_zero (by omega)
  rw [hnone]
  rfl

/-- Nothing precedes the packet with the first index. -/
theorem front_eq_nil (hsize : payloads.length < UInt16.size)
    (h : Layout.numbered total 0 payloads = front ++ back) (hp : p ∈ back)
    (hindex : p.index = UInt16.ofNat 0) : front = [] := by
  obtain ⟨payloads₁, payloads₂, rfl, rfl, rfl⟩ := numbered_eq_append h
  obtain ⟨k, hk, rfl⟩ := Layout.exists_of_mem_numbered hp
  rw [List.length_append] at hsize
  have heq := (Slots.ofNat_inj (by omega) (by omega)).mp hindex
  have hnone : payloads₁ = [] := List.eq_nil_of_length_eq_zero (by omega)
  rw [hnone]
  rfl

end Ends

namespace Reassembler

variable {f : Layout} {a b : Bytes} {ps qs : List Packet}

theorem Covers.pos {total : UInt16} {packets : List Packet} (h : Covers total packets) :
    0 < total.toNat :=
  Nat.pos_of_ne_zero fun hzero ↦ h.positive (UInt16.toNat_inj.mp hzero)

theorem Covers.first_mem {total : UInt16} {packets : List Packet} (h : Covers total packets) :
    ∃ p ∈ packets, p.index = UInt16.ofNat 0 := by
  obtain ⟨p, hp, hindex, _⟩ := h.every 0 h.pos
  exact ⟨p, hp, hindex⟩

theorem Covers.last_mem {total : UInt16} {packets : List Packet} (h : Covers total packets) :
    ∃ p ∈ packets, p.index = UInt16.ofNat (p.total.toNat - 1) := by
  have hpos := h.pos
  obtain ⟨p, hp, hindex, rfl⟩ := h.every (total.toNat - 1) (by omega)
  exact ⟨p, hp, hindex⟩

/-- A part that holds the last packet of a message holds the whole message. -/
theorem whole_of_last_mem {front back : List Packet} {p : Packet}
    (ha : f.split a = .ok (front ++ back)) (hp : p ∈ front)
    (hlast : p.index = UInt16.ofNat (p.total.toNat - 1)) : back = [] := by
  obtain ⟨hsize, hpackets⟩ := Layout.split_eq_ok_iff.mp ha
  refine back_eq_nil hsize hpackets.symm hp ?_
  have hmem : p ∈ Layout.numbered (UInt16.ofNat (f.payloads a).length) 0 (f.payloads a) :=
    hpackets ▸ List.mem_append_left back hp
  rw [hlast, Layout.total_of_mem_numbered hmem, UInt16.toNat_ofNat_of_lt' hsize]

theorem whole_of_first_mem {front back : List Packet} {p : Packet}
    (ha : f.split a = .ok (front ++ back)) (hp : p ∈ back)
    (hfirst : p.index = UInt16.ofNat 0) : front = [] := by
  obtain ⟨hsize, hpackets⟩ := Layout.split_eq_ok_iff.mp ha
  exact front_eq_nil hsize hpackets.symm hp hfirst

/-- Merged packets of two messages that account for two deliveries, one after the other, are the
packets of one message behind those of the other. -/
theorem serial_of_covers {front back : List Packet} {total₁ total₂ : UInt16}
    (ha : f.split a = .ok ps) (hb : f.split b = .ok qs) (h : Merges ps qs (front ++ back))
    (hfront : Covers total₁ front) (hback : Covers total₂ back) :
    front ++ back = ps ++ qs ∨ front ++ back = qs ++ ps := by
  obtain ⟨ps₁, ps₂, qs₁, qs₂, rfl, rfl, h₁, h₂⟩ := h.cut
  obtain ⟨p, hp, hlast⟩ := hfront.last_mem
  obtain ⟨q, hq, hfirst⟩ := hback.first_mem
  rcases h₁.mem_or hp with hp | hp
  · obtain rfl : ps₂ = [] := whole_of_last_mem ha hp hlast
    obtain rfl : qs₁ = [] := by
      rcases h₂.mem_or hq with hq | hq
      · cases hq
      · exact whole_of_first_mem hb hq hfirst
    rw [h₁.symm.eq_of_nil, h₂.eq_of_nil]
    exact .inl (by simp)
  · obtain rfl : qs₂ = [] := whole_of_last_mem hb hp hlast
    obtain rfl : ps₁ = [] := by
      rcases h₂.mem_or hq with hq | hq
      · exact whole_of_first_mem ha hq hfirst
      · cases hq
    rw [h₁.eq_of_nil, h₂.symm.eq_of_nil]
    exact .inr (by simp)

/-! ## Serial sending -/

/-- What a message that was sent should give: itself, unless there is nothing to send. -/
def owed (data : Bytes) : List (Except Fault Bytes) := if data = [] then [] else [.ok data]

/-- The packets of a whole message in a row are answered with the message. -/
theorem answers_split {l : List (Packet × Nat)} {r : Reassembler} (ha : f.split a = .ok ps)
    (hl : l.map Prod.fst = ps) (hage : r.maxAge = none) (h : ∀ total, Awaits total [] r)
    (rest : List (Packet × Nat)) :
    ∃ r', answers (r.pushes (l ++ rest)) = owed a ++ answers (r'.pushes rest) ∧
      r'.maxAge = none ∧ ∀ total, Awaits total [] r' := by
  obtain ⟨hsize, rfl⟩ := Layout.split_eq_ok_iff.mp ha
  rw [owed]
  split
  · rename_i hempty
    subst hempty
    obtain rfl : l = [] := by simpa [Layout.payloads, Layout.numbered] using hl
    exact ⟨r, rfl, hage, h⟩
  · rename_i hne
    have hanswers := answers_numbered hl (f.payloads_ne_nil hne)
      (by rw [UInt16.toNat_ofNat_of_lt' hsize, List.length_nil, Nat.zero_add]) hage (h _) rest
    rwa [List.nil_append, f.flatten_payloads] at hanswers

theorem answers_serial {l : List (Packet × Nat)} (ha : f.split a = .ok ps)
    (hb : f.split b = .ok qs) (hl : l.map Prod.fst = ps ++ qs) :
    answers ((Reassembler.new none).pushes l) = owed a ++ owed b := by
  obtain ⟨l₁, l₂, rfl, h₁, h₂⟩ := List.map_eq_append_iff.mp hl
  obtain ⟨r', hfirst, hage, hawaits⟩ := answers_split (r := Reassembler.new none) ha h₁ rfl
    (fun total ↦ awaits_new total none) l₂
  obtain ⟨r'', hsecond, _⟩ := answers_split hb h₂ hage hawaits []
  rw [List.append_nil] at hsecond
  rw [hfirst, hsecond, pushes]
  simp [answers]

/-! ## Merged sending -/

/-- Two messages have two deliveries. -/
theorem serial_of_answers {l : List (Packet × Nat)} {data data' : Bytes}
    {later : List (Except Fault Bytes)} (ha : f.split a = .ok ps) (hb : f.split b = .ok qs)
    (h : Merges ps qs (l.map Prod.fst))
    (hanswers : answers ((Reassembler.new none).pushes l) = .ok data :: .ok data' :: later) :
    l.map Prod.fst = ps ++ qs ∨ l.map Prod.fst = qs ++ ps := by
  obtain ⟨l₁, l₂, r, total₁, rfl, hcovers₁, hgathered, hrest⟩ :=
    exists_delivery (gathered_new none) hanswers
  obtain ⟨l₃, l₄, _, total₂, rfl, hcovers₂, _⟩ := exists_delivery hgathered hrest
  rw [List.map_append] at h ⊢
  rw [List.nil_append] at hcovers₁ hcovers₂
  refine serial_of_covers ha hb h hcovers₁ (hcovers₂.mono ?_)
  rw [List.map_append]
  exact List.subset_append_left _ _

/-- However the packets of two messages are merged, both messages and nothing else come out
exactly if the packets of one are sent before those of the other. -/
theorem answers_perm_iff_serial {l : List (Packet × Nat)} (ha : f.split a = .ok ps)
    (hb : f.split b = .ok qs) (h : Merges ps qs (l.map Prod.fst)) :
    (answers ((Reassembler.new none).pushes l)).Perm (owed a ++ owed b) ↔
      l.map Prod.fst = ps ++ qs ∨ l.map Prod.fst = qs ++ ps := by
  constructor
  · intro hperm
    by_cases hempty : a = [] ∨ b = []
    · have hnothing : ∀ {packets}, f.split [] = .ok packets → packets = [] := by
        intro packets hsplit
        obtain ⟨_, rfl⟩ := Layout.split_eq_ok_iff.mp hsplit
        simp [Layout.payloads, Layout.numbered]
      rcases hempty with rfl | rfl
      · obtain rfl := hnothing ha
        exact .inl (by simpa using h.eq_of_nil)
      · obtain rfl := hnothing hb
        exact .inl (by simpa using h.symm.eq_of_nil)
    · obtain ⟨hne, hne'⟩ := not_or.mp hempty
      rw [owed, if_neg hne, owed, if_neg hne', List.singleton_append] at hperm
      obtain ⟨x, y, hanswers⟩ := List.length_eq_two.mp hperm.length_eq
      have hok : ∀ z ∈ [x, y], ∃ data, z = .ok data := by
        intro z hz
        have hz : z ∈ [.ok a, .ok b] := hperm.subset (hanswers ▸ hz)
        simp only [List.mem_cons, List.not_mem_nil, or_false] at hz
        rcases hz with rfl | rfl
        · exact ⟨a, rfl⟩
        · exact ⟨b, rfl⟩
      obtain ⟨data, rfl⟩ := hok x (by simp)
      obtain ⟨data', rfl⟩ := hok y (by simp)
      exact serial_of_answers ha hb h hanswers
  · rintro (hl | hl)
    · rw [answers_serial ha hb hl]
    · rw [answers_serial hb ha hl]
      exact List.perm_append_comm

/-- Two documents of two packets each, one behind the other. -/
theorem answers_perm_of_pair :
    (answers ((Reassembler.new none).pushes
        [(⟨0, 2, Text.bytes "[1,"⟩, 0), (⟨1, 2, Text.bytes "3]"⟩, 1),
          (⟨0, 2, Text.bytes "[2,"⟩, 2), (⟨1, 2, Text.bytes "4]"⟩, 3)])).Perm
      (owed (Text.bytes "[1,3]") ++ owed (Text.bytes "[2,4]")) := by
  have hfirst : Layout.split
      ⟨33, Text.bytes "AT+QBLEGATTSNTFY=0,fff2,", [0x0D, 0x0A], by decide, by decide⟩
      (Text.bytes "[1,3]") = .ok [⟨0, 2, Text.bytes "[1,"⟩, ⟨1, 2, Text.bytes "3]"⟩] := by
    decide +kernel
  have hsecond : Layout.split
      ⟨33, Text.bytes "AT+QBLEGATTSNTFY=0,fff2,", [0x0D, 0x0A], by decide, by decide⟩
      (Text.bytes "[2,4]") = .ok [⟨0, 2, Text.bytes "[2,"⟩, ⟨1, 2, Text.bytes "4]"⟩] := by
    decide +kernel
  exact (answers_perm_iff_serial hfirst hsecond
    (.first (.first (.second (.second .done))))).mpr (.inl rfl)

/-- The same documents, packet about: the second one is lost. -/
theorem answers_not_perm_of_alternating :
    Layout.split ⟨33, Text.bytes "AT+QBLEGATTSNTFY=0,fff2,", [0x0D, 0x0A], by decide, by decide⟩
        (Text.bytes "[1,3]") = .ok [⟨0, 2, Text.bytes "[1,"⟩, ⟨1, 2, Text.bytes "3]"⟩] ∧
      Layout.split ⟨33, Text.bytes "AT+QBLEGATTSNTFY=0,fff2,", [0x0D, 0x0A], by decide, by decide⟩
        (Text.bytes "[2,4]") = .ok [⟨0, 2, Text.bytes "[2,"⟩, ⟨1, 2, Text.bytes "4]"⟩] ∧
      Merges
        [⟨0, 2, Text.bytes "[1,"⟩, ⟨1, 2, Text.bytes "3]"⟩]
        [⟨0, 2, Text.bytes "[2,"⟩, ⟨1, 2, Text.bytes "4]"⟩]
        ([(⟨0, 2, Text.bytes "[1,"⟩, 0), (⟨0, 2, Text.bytes "[2,"⟩, 1),
          (⟨1, 2, Text.bytes "3]"⟩, 2), (⟨1, 2, Text.bytes "4]"⟩, 3)].map
            (Prod.fst : Packet × Nat → Packet)) ∧
      ¬ (answers ((Reassembler.new none).pushes
        [(⟨0, 2, Text.bytes "[1,"⟩, 0), (⟨0, 2, Text.bytes "[2,"⟩, 1),
          (⟨1, 2, Text.bytes "3]"⟩, 2), (⟨1, 2, Text.bytes "4]"⟩, 3)])).Perm
        (owed (Text.bytes "[1,3]") ++ owed (Text.bytes "[2,4]")) := by
  refine ⟨by decide +kernel, by decide +kernel, .first (.second (.first (.second .done))), ?_⟩
  intro hperm
  have hlength := hperm.length_eq
  exact absurd hlength (by decide +kernel)

end Reassembler

end BleBridge.Frame
