import BleBridge.Proofs.Frame.Stream

/-!
# Reading in chunks

What the decoder finds in a stream, and how far the cuts between the chunks have
a say in it.  `Sees` tells the outcomes of one look at a buffer.  All but one of
them are settled for good when they come: bytes that arrive later change nothing
in a frame that was taken out, and what a look leaves behind stands for the whole
buffer (`Sees.append`).  The exception is a frame start that is dropped because
its suffix is not among the bytes that are there.  Had the suffix been there, the
frame would have been taken, however long it is.

So a frame that takes up at most one byte more than the transmission unit comes
out however it is read, and a longer one is lost as soon as more than a
transmission unit of it waits for its suffix.  Bytes that come one at a time lose
every longer frame, which gives the exact condition in `timing_irrelevant_iff`.
-/

namespace BleBridge.Frame.Layout

variable {f : Layout} {p : Packet} {buffer more rest : Bytes} {found : Option Packet}

/-! ## The outcomes of a look -/

/-- What a look at a buffer finds, and what it leaves. -/
inductive Sees (f : Layout) : Bytes → Option Packet → Bytes → Prop
  /-- No frame starts here. -/
  | blank {buffer : Bytes} (lead : Text.cut? f.lead buffer = none) :
      Sees f buffer none (f.keepPartial buffer)
  | frame {buffer skipped rest : Bytes} {p : Packet}
      (lead : Text.cut? f.lead buffer = some (skipped, p.body ++ (f.suffix ++ rest)))
      (suffix : Text.cut? f.suffix (p.payload ++ (f.suffix ++ rest)) = some (p.payload, rest)) :
      Sees f buffer (some p) rest
  /-- A frame has started, and there is still room for its end. -/
  | started {buffer skipped after : Bytes} (lead : Text.cut? f.lead buffer = some (skipped, after))
      (suffix : Text.cut? f.suffix (after.drop headerSize) = none)
      (size : f.lead.length + after.length ≤ f.mtu) : Sees f buffer none (f.lead ++ after)
  /-- A frame start is dropped, and the search goes on behind it. -/
  | dropped {buffer skipped after rest : Bytes} {found : Option Packet}
      (lead : Text.cut? f.lead buffer = some (skipped, after))
      (suffix : Text.cut? f.suffix (after.drop headerSize) = none)
      (size : f.mtu < f.lead.length + after.length)
      (later : Sees f (after.drop headerSize) found rest) : Sees f buffer found rest

/-- Bytes that hold a header and a suffix start with the body of a packet. -/
theorem exists_body_append {after payload : Bytes} (hheader : headerSize ≤ after.length)
    (hsuffix : Text.cut? f.suffix (after.drop headerSize) = some (payload, rest)) :
    ∃ p : Packet, p.payload = payload ∧ p.body ++ (f.suffix ++ rest) = after := by
  obtain ⟨whole, rfl⟩ := Packet.exists_body hheader
  have hpayload : whole.body.drop headerSize = whole.payload := by
    simpa using drop_header whole []
  have hcut := Text.eq_append_of_cut? hsuffix
  rw [hpayload] at hcut
  exact ⟨{ whole with payload }, rfl, by simp [Packet.body, hcut]⟩

theorem sees_scan (f : Layout) (buffer : Bytes) :
    Sees f buffer (f.scan buffer).found (f.scan buffer).rest := by
  induction hn : buffer.length using Nat.strongRecOn generalizing buffer with
  | ind n ih =>
    subst hn
    rw [scan]
    split
    · rename_i hlead
      exact .blank hlead
    · rename_i skipped after hlead
      have hroom := f.room
      split
      · rename_i hshort
        refine .started hlead ?_ (by omega)
        rw [List.drop_eq_nil_of_le (by omega), Text.cut?_eq_none_iff, List.infix_nil]
        exact f.suffix_ne_nil
      · rename_i hlong
        split
        · rename_i payload rest hsuffix
          obtain ⟨p, rfl, rfl⟩ := exists_body_append (Nat.le_of_not_lt hlong) hsuffix
          rw [drop_header] at hsuffix
          rw [parse_header]
          exact .frame hlead hsuffix
        · rename_i hsuffix
          split
          · rename_i hsize
            exact .started hlead hsuffix hsize
          · rename_i hsize
            have hlength := Text.cut?_length f.lead buffer hlead
            refine .dropped hlead hsuffix (by omega) (ih _ ?_ _ rfl)
            rw [List.length_drop]
            simp only [headerSize] at hlong ⊢
            omega

theorem sees_nil (f : Layout) : Sees f [] none [] := by
  have hsees := f.sees_scan []
  rwa [f.scan_nil] at hsees

/-- A look has one outcome. -/
theorem Sees.eq_scan (h : Sees f buffer found rest) :
    (f.scan buffer).found = found ∧ (f.scan buffer).rest = rest := by
  induction h with
  | @blank buffer lead =>
      rw [scan]
      split
      · exact ⟨rfl, rfl⟩
      · rename_i hlead
        simp [lead] at hlead
  | @frame buffer skipped rest p lead suffix =>
      rw [scan]
      split
      · rename_i hlead
        simp [lead] at hlead
      · rename_i skipped after hlead
        obtain ⟨rfl, rfl⟩ := by simpa [lead] using hlead
        have hlong : ¬ (p.body ++ (f.suffix ++ rest)).length < headerSize := by
          rw [List.length_append, p.length_body]
          omega
        rw [← drop_header] at suffix
        rw [dif_neg hlong, suffix]
        simp [parse_header, Except.toOption]
  | @started buffer skipped after lead suffix size =>
      rw [scan]
      split
      · rename_i hlead
        simp [lead] at hlead
      · rename_i skipped after hlead
        obtain ⟨rfl, rfl⟩ := by simpa [lead] using hlead
        split
        · exact ⟨rfl, rfl⟩
        · simp [suffix]
  | @dropped buffer skipped after rest found lead suffix size _ ih =>
      have hroom := f.room
      rw [scan]
      split
      · rename_i hlead
        simp [lead] at hlead
      · rename_i skipped after hlead
        obtain ⟨rfl, rfl⟩ := by simpa [lead] using hlead
        rw [dif_neg (by omega), suffix]
        simpa [Nat.not_le.mpr size] using ih

/-! ## Bytes that come later -/

/-- A frame that is longer than a transmission unit and one byte. -/
def Oversized (f : Layout) (p : Packet) : Prop := f.mtu + 1 < (f.encode p).length

/-- Only the last bytes decide on what is kept. -/
theorem keepPartial_append {xs : Bytes} (gone : Bytes) (h : f.lead.length - 1 ≤ xs.length) :
    f.keepPartial (gone ++ xs) = f.keepPartial xs := by
  rw [keepPartial, keepPartial, List.length_append, Nat.add_sub_assoc h,
    List.drop_length_add_append]

theorem keepPartial_of_le (h : buffer.length ≤ f.lead.length - 1) :
    f.keepPartial buffer = buffer := by
  rw [keepPartial, Nat.sub_eq_zero_of_le h, List.drop_zero]

theorem length_keepPartial_le (f : Layout) (buffer : Bytes) :
    (f.keepPartial buffer).length ≤ f.lead.length - 1 := by
  rw [keepPartial, List.length_drop]
  omega

/-- Of a buffer that is too long, so much is kept that a lead may have begun in it. -/
theorem exists_keepPartial (h : f.lead.length - 1 < buffer.length) :
    ∃ gone, buffer = gone ++ f.keepPartial buffer ∧
      (f.keepPartial buffer).length = f.lead.length - 1 := by
  refine ⟨buffer.take (buffer.length - (f.lead.length - 1)), (List.take_append_drop _ _).symm, ?_⟩
  rw [keepPartial, List.length_drop]
  omega

/-- Two buffers that a look cannot tell apart: they hold the same behind the first lead, or no lead
and the same end. -/
structure Alike (f : Layout) (buffer buffer' : Bytes) : Prop where
  behind : (Text.cut? f.lead buffer).map Prod.snd = (Text.cut? f.lead buffer').map Prod.snd
  kept : Text.cut? f.lead buffer = none → f.keepPartial buffer = f.keepPartial buffer'

theorem Alike.sees {buffer' : Bytes} (h : Alike f buffer buffer')
    (hsees : Sees f buffer found rest) : Sees f buffer' found rest := by
  have hsome : ∀ {skipped after}, Text.cut? f.lead buffer = some (skipped, after) →
      ∃ skipped', Text.cut? f.lead buffer' = some (skipped', after) := by
    intro skipped after hlead
    have hbehind := h.behind
    rw [hlead] at hbehind
    obtain ⟨⟨skipped', _⟩, hlead', rfl⟩ := Option.map_eq_some_iff.mp hbehind.symm
    exact ⟨skipped', hlead'⟩
  cases hsees with
  | blank lead =>
      have hbehind := h.behind
      rw [lead] at hbehind
      rw [h.kept lead]
      exact .blank (Option.map_eq_none_iff.mp hbehind.symm)
  | frame lead suffix =>
      obtain ⟨_, hlead⟩ := hsome lead
      exact .frame hlead suffix
  | started lead suffix size =>
      obtain ⟨_, hlead⟩ := hsome lead
      exact .started hlead suffix size
  | dropped lead suffix size later =>
      obtain ⟨_, hlead⟩ := hsome lead
      exact .dropped hlead suffix size later

/-- Where no frame starts, the end of a buffer stands for all of it. -/
theorem alike_keepPartial (h : Text.cut? f.lead buffer = none) (more : Bytes) :
    Alike f (f.keepPartial buffer ++ more) (buffer ++ more) := by
  rcases Nat.lt_or_ge (f.lead.length - 1) buffer.length with hlong | hshort
  · obtain ⟨gone, hgone, hkept⟩ := exists_keepPartial hlong
    have hnone : ¬ f.lead <:+: gone ++ (f.keepPartial buffer ++ more).take (f.lead.length - 1) := by
      rw [← hkept, List.take_left, ← hgone]
      exact Text.cut?_eq_none_iff.mp h
    have hwhole : buffer ++ more = gone ++ (f.keepPartial buffer ++ more) := by
      rw [← List.append_assoc, ← hgone]
    rw [hwhole]
    refine ⟨?_, fun _ ↦ (keepPartial_append gone ?_).symm⟩
    · rw [Text.cut?_append_of_not_infix hnone, Option.map_map]
      rfl
    · rw [List.length_append]
      omega
  · rw [keepPartial_of_le hshort]
    exact ⟨rfl, fun _ ↦ rfl⟩

/-- What stands before a frame start does not matter. -/
theorem alike_lead {skipped after : Bytes} (h : Text.cut? f.lead buffer = some (skipped, after))
    (more : Bytes) : Alike f (f.lead ++ after ++ more) (buffer ++ more) := by
  have hfront : Text.cut? f.lead (f.lead ++ after ++ more) = some ([], after ++ more) := by
    rw [List.append_assoc, Text.cut?_mark_append]
  refine ⟨?_, fun hnone ↦ ?_⟩
  · rw [hfront, Text.cut?_append h]
    rfl
  · rw [hfront] at hnone
    cases hnone

/-- A packet that is found stands in the buffer as its frame. -/
theorem Sees.exists_encode (h : Sees f buffer found rest) (hp : found = some p) :
    ∃ skipped, buffer = skipped ++ f.encode p ++ rest := by
  induction h with
  | blank => cases hp
  | @frame buffer skipped rest q lead suffix =>
      cases hp
      exact ⟨skipped, by rw [Text.eq_append_of_cut? lead]; simp [encode]⟩
  | started => cases hp
  | @dropped buffer skipped after rest found lead suffix size later ih =>
      obtain ⟨skipped', hskipped⟩ := ih hp
      refine ⟨skipped ++ f.lead ++ (after.take headerSize ++ skipped'), ?_⟩
      calc buffer
        _ = skipped ++ f.lead ++ (after.take headerSize ++ after.drop headerSize) := by
            rw [List.take_append_drop, ← Text.eq_append_of_cut? lead]
        _ = _ := by rw [hskipped]; simp

theorem Sees.suffix_infix (h : Sees f buffer (some p) rest) : f.suffix <:+: buffer := by
  obtain ⟨skipped, rfl⟩ := h.exists_encode rfl
  exact ⟨skipped ++ (f.lead ++ p.body), rest, by simp [encode]⟩

/-- A frame that has been found stays what it is when more bytes come. -/
theorem Sees.frame_append (h : Sees f buffer (some p) rest) (more : Bytes) :
    Sees f (buffer ++ more) (some p) (rest ++ more) := by
  cases h with
  | @frame _ skipped _ _ lead suffix =>
      have hlead : Text.cut? f.lead (buffer ++ more) =
          some (skipped, p.body ++ (f.suffix ++ (rest ++ more))) := by
        simpa using Text.cut?_append lead more
      refine .frame hlead ?_
      simpa using Text.cut?_append suffix more
  | dropped lead suffix size later =>
      -- behind a frame start that is dropped there is no suffix
      exact absurd later.suffix_infix (Text.cut?_eq_none_iff.mp suffix)

/-- A suffix that comes after a frame start was dropped would have ended a frame that is too
long. -/
theorem oversized_of_late_suffix {skipped after rest' : Bytes}
    (size : f.mtu < f.lead.length + after.length)
    (lead : Text.cut? f.lead buffer = some (skipped, after ++ more))
    (early : Text.cut? f.suffix (after.drop headerSize) = none) {payload : Bytes}
    (suffix : Text.cut? f.suffix (after.drop headerSize ++ more) = some (payload, rest')) :
    ∃ p, f.Oversized p ∧ Sees f buffer (some p) rest' := by
  have hroom := f.room
  have hdrop : (after ++ more).drop headerSize = after.drop headerSize ++ more :=
    List.drop_append_of_le_length (by omega)
  rw [← hdrop] at suffix
  obtain ⟨p, rfl, hbody⟩ := exists_body_append (by rw [List.length_append]; omega) suffix
  refine ⟨p, ?_, ?_⟩
  · -- the suffix does not end within the bytes that were there when the start was dropped
    have hlate : (after.drop headerSize).length < (p.payload ++ f.suffix).length := by
      by_contra hle
      have hwithin : p.payload ++ f.suffix <+: after.drop headerSize := by
        refine List.prefix_of_prefix_length_le ⟨rest', ?_⟩ (List.prefix_append _ more)
          (Nat.le_of_not_lt hle)
        rw [← hdrop, ← hbody, drop_header, List.append_assoc]
      exact Text.cut?_eq_none_iff.mp early
        ((List.suffix_append p.payload f.suffix).isInfix.trans hwithin.isInfix)
    rw [List.length_drop, List.length_append] at hlate
    rw [Oversized, length_encode]
    omega
  · rw [← hbody] at lead suffix
    rw [drop_header] at suffix
    exact .frame lead suffix

/-- What a look without a packet leaves stands for the whole buffer, unless more bytes make a frame
of it that is longer than it should be. -/
theorem Sees.append (h : Sees f buffer found rest) (hnone : found = none) (more : Bytes) :
    (∀ found' rest', Sees f (rest ++ more) found' rest' → Sees f (buffer ++ more) found' rest') ∨
      ∃ p rest', f.Oversized p ∧ Sees f (buffer ++ more) (some p) rest' := by
  induction h with
  | blank lead => exact .inl fun _ _ h ↦ (alike_keepPartial lead more).sees h
  | frame => cases hnone
  | started lead => exact .inl fun _ _ h ↦ (alike_lead lead more).sees h
  | @dropped buffer skipped after rest found lead suffix size later ih =>
      have hroom := f.room
      have hlead := Text.cut?_append lead more
      have hdrop : (after ++ more).drop headerSize = after.drop headerSize ++ more :=
        List.drop_append_of_le_length (by omega)
      cases hlate : Text.cut? f.suffix (after.drop headerSize ++ more) with
      | some cut =>
          obtain ⟨p, hp⟩ := oversized_of_late_suffix size hlead suffix hlate
          exact .inr ⟨p, _, hp⟩
      | none =>
          have hagain : ∀ {found' rest'}, Sees f (after.drop headerSize ++ more) found' rest' →
              Sees f (buffer ++ more) found' rest' := fun h ↦
            .dropped hlead (hdrop ▸ hlate) (by rw [List.length_append]; omega) (hdrop ▸ h)
          rcases ih hnone with hstands | ⟨p, rest', hp, hsees⟩
          · exact .inl fun _ _ h ↦ hagain (hstands _ _ h)
          · exact .inr ⟨p, rest', hp, hagain hsees⟩

/-! ## All packets of a buffer -/

/-- The packets that are whole in a buffer, and what is kept of it. -/
def drained (f : Layout) (buffer : Bytes) : List Packet × Bytes :=
  ((f.drain buffer).1, (f.drain buffer).2.1)

theorem Sees.drained_none (h : Sees f buffer none rest) : f.drained buffer = ([], rest) := by
  obtain ⟨hfound, rfl⟩ := h.eq_scan
  rw [drained, drain]
  split
  · rename_i hscan
    rw [hscan]
  · rename_i hscan
    rw [hscan] at hfound
    cases hfound

theorem Sees.drained_some (h : Sees f buffer (some p) rest) :
    f.drained buffer = (p :: (f.drained rest).1, (f.drained rest).2) := by
  obtain ⟨hfound, hrest⟩ := h.eq_scan
  rw [drained, drain]
  split
  · rename_i hscan
    rw [hscan] at hfound
    cases hfound
  · rename_i hscan
    rw [hscan] at hfound hrest
    cases hfound
    cases hrest
    rfl

/-- Buffers in which a look sees the same hold the same packets. -/
theorem drained_congr {buffer' : Bytes}
    (h : ∀ found rest, Sees f buffer found rest → Sees f buffer' found rest) :
    f.drained buffer' = f.drained buffer := by
  have hsees := f.sees_scan buffer
  have hsees' := h _ _ hsees
  cases hfound : (f.scan buffer).found with
  | none =>
      rw [hfound] at hsees hsees'
      rw [hsees.drained_none, hsees'.drained_none]
  | some p =>
      rw [hfound] at hsees hsees'
      rw [hsees.drained_some, hsees'.drained_some]

theorem Sees.length_lt (h : Sees f buffer (some p) rest) :
    (f.encode p).length + rest.length ≤ buffer.length := by
  obtain ⟨skipped, rfl⟩ := h.exists_encode rfl
  simp only [List.length_append]
  omega

theorem encode_length_pos (f : Layout) (p : Packet) : 0 < (f.encode p).length := by
  rw [length_encode, headerSize]
  omega

/-- Bytes that come later do not change what comes out of a buffer, as long as they make no frame
that is longer than it should be. -/
theorem drained_append (buffer more : Bytes)
    (hfit : ∀ p ∈ (f.drained (buffer ++ more)).1, ¬ f.Oversized p) :
    f.drained (buffer ++ more) =
      ((f.drained buffer).1 ++ (f.drained ((f.drained buffer).2 ++ more)).1,
        (f.drained ((f.drained buffer).2 ++ more)).2) := by
  induction hn : buffer.length using Nat.strongRecOn generalizing buffer with
  | ind n ih =>
    subst hn
    have hsees := f.sees_scan buffer
    cases hfound : (f.scan buffer).found with
    | none =>
        rw [hfound] at hsees
        rw [hsees.drained_none]
        rcases hsees.append rfl more with hstands | ⟨p, rest', hp, hlate⟩
        · rw [drained_congr hstands]
          rfl
        · rw [hlate.drained_some] at hfit
          exact absurd hp (hfit p List.mem_cons_self)
    | some p =>
        rw [hfound] at hsees
        have hlength := hsees.length_lt
        have hpos := f.encode_length_pos p
        rw [(hsees.frame_append more).drained_some] at hfit ⊢
        rw [hsees.drained_some,
          ih _ (by omega) _ (fun q hq ↦ hfit q (List.mem_cons_of_mem _ hq)) rfl]
        rfl

/-! ## What a look leaves -/

/-- A look at what was left finds nothing new. -/
theorem Sees.again (h : Sees f buffer found rest) (hnone : found = none) :
    Sees f rest none rest := by
  induction h with
  | @blank buffer lead =>
      have hlead : Text.cut? f.lead (f.keepPartial buffer) = none :=
        Text.cut?_eq_none_iff.mpr fun hpart ↦
          Text.cut?_eq_none_iff.mp lead (hpart.trans (List.drop_suffix _ buffer).isInfix)
      have hblank := Sees.blank hlead
      rwa [keepPartial_of_le (f.length_keepPartial_le buffer)] at hblank
  | frame => cases hnone
  | @started buffer skipped after lead suffix size =>
      exact .started (Text.cut?_mark_append f.lead after) suffix size
  | dropped lead suffix size later ih => exact ih hnone

theorem Sees.length_rest_le (h : Sees f buffer found rest) (hnone : found = none) :
    rest.length ≤ f.mtu := by
  have hroom := f.room
  induction h with
  | @blank buffer lead =>
      have := f.length_keepPartial_le buffer
      omega
  | frame => cases hnone
  | started lead suffix size => rwa [List.length_append]
  | dropped lead suffix size later ih => exact ih hnone

theorem drained_rest (f : Layout) (buffer : Bytes) :
    Sees f (f.drained buffer).2 none (f.drained buffer).2 ∧
      (f.drained buffer).2.length ≤ f.mtu := by
  induction hn : buffer.length using Nat.strongRecOn generalizing buffer with
  | ind n ih =>
    subst hn
    have hsees := f.sees_scan buffer
    cases hfound : (f.scan buffer).found with
    | none =>
        rw [hfound] at hsees
        rw [hsees.drained_none]
        exact ⟨hsees.again rfl, hsees.length_rest_le rfl⟩
    | some p =>
        rw [hfound] at hsees
        rw [hsees.drained_some]
        have hlength := hsees.length_lt
        have hpos := f.encode_length_pos p
        exact ih _ (by omega) _ rfl

/-- Every packet of a buffer has its frame there. -/
theorem length_encode_le_of_mem_drained (buffer : Bytes) (hp : p ∈ (f.drained buffer).1) :
    (f.encode p).length ≤ buffer.length := by
  induction hn : buffer.length using Nat.strongRecOn generalizing buffer with
  | ind n ih =>
    subst hn
    have hsees := f.sees_scan buffer
    cases hfound : (f.scan buffer).found with
    | none =>
        rw [hfound] at hsees
        rw [hsees.drained_none] at hp
        cases hp
    | some q =>
        rw [hfound] at hsees
        rw [hsees.drained_some] at hp
        have hlength := hsees.length_lt
        have hpos := f.encode_length_pos q
        rcases List.mem_cons.mp hp with rfl | hp
        · omega
        · have := ih _ (by omega) _ hp rfl
          omega

/-! ## Chunks -/

/-- Read chunks one after the other: the packets that come out of the buffer, and what it holds in
the end. -/
def readAll (f : Layout) (buffer : Bytes) : List Bytes → List Packet × Bytes
  | [] => ([], buffer)
  | chunk :: later =>
      let fed := f.feed buffer chunk
      let rest := f.readAll fed.2.1 later
      (fed.1 ++ rest.1, rest.2)

theorem readAll_cons (buffer chunk : Bytes) (later : List Bytes) :
    f.readAll buffer (chunk :: later) =
      ((f.drained (buffer ++ chunk)).1 ++ (f.readAll (f.drained (buffer ++ chunk)).2 later).1,
        (f.readAll (f.drained (buffer ++ chunk)).2 later).2) := rfl

/-- Chunks give what the whole stream gives, if that makes no frame that is too long. -/
theorem readAll_eq_drained {chunks : List Bytes} (hbuffer : Sees f buffer none buffer)
    (hfit : ∀ p ∈ (f.drained (buffer ++ chunks.flatten)).1, ¬ f.Oversized p) :
    f.readAll buffer chunks = f.drained (buffer ++ chunks.flatten) := by
  induction chunks generalizing buffer with
  | nil => rw [readAll, List.flatten_nil, List.append_nil, hbuffer.drained_none]
  | cons chunk later ih =>
      rw [List.flatten_cons, ← List.append_assoc] at hfit ⊢
      have hsplit := drained_append (buffer ++ chunk) later.flatten hfit
      rw [hsplit] at hfit
      rw [readAll_cons, hsplit, ih (f.drained_rest _).1
        (fun p hp ↦ hfit p (List.mem_append_right _ hp))]

/-- Bytes that come one at a time make no frame that is too long. -/
theorem not_oversized_of_mem_readAll (xs : Bytes) (hbuffer : buffer.length ≤ f.mtu)
    (hp : p ∈ (f.readAll buffer (xs.map fun x ↦ [x])).1) : ¬ f.Oversized p := by
  induction xs generalizing buffer with
  | nil => cases hp
  | cons x xs ih =>
      rw [List.map_cons, readAll_cons] at hp
      rcases List.mem_append.mp hp with hp | hp
      · have := length_encode_le_of_mem_drained _ hp
        rw [List.length_append, List.length_singleton] at this
        rw [Oversized]
        omega
      · exact ih (f.drained_rest _).2 hp

/-- Two ways of cutting a stream into chunks give the same packets, whichever they are, if and only
if none of the packets that it holds when it is read at once has a frame of more than a
transmission unit and one byte. -/
theorem timing_irrelevant_iff (f : Layout) (xs : Bytes) :
    (∀ chunks chunks' : List Bytes, chunks.flatten = xs → chunks'.flatten = xs →
        (f.readAll [] chunks).1 = (f.readAll [] chunks').1) ↔
      ∀ p ∈ (f.readAll [] [xs]).1, (f.encode p).length ≤ f.mtu + 1 := by
  have hwhole : (f.readAll [] [xs]).1 = (f.drained xs).1 := by
    rw [readAll_cons, List.nil_append, readAll, List.append_nil]
  constructor
  · intro h p hp
    have hsingle : (xs.map fun x ↦ [x]).flatten = xs := by
      rw [← List.flatMap_def, List.flatMap_singleton']
    rw [h [xs] (xs.map fun x ↦ [x]) (by simp) hsingle] at hp
    exact Nat.le_of_not_lt (not_oversized_of_mem_readAll xs (Nat.zero_le _) hp)
  · rintro h chunks chunks' rfl heq
    rw [hwhole] at h
    have hread : ∀ cs : List Bytes, cs.flatten = chunks.flatten →
        f.readAll [] cs = f.drained chunks.flatten := by
      intro cs hcs
      rw [← hcs] at h ⊢
      exact readAll_eq_drained f.sees_nil fun p hp ↦ Nat.not_lt_of_le (h p hp)
    rw [hread chunks rfl, hread chunks' heq]

/-- A frame of six bytes too many is found in one piece, and lost when its first fourteen bytes come
alone. -/
theorem timing_matters : ∃ (f : Layout) (chunks chunks' : List Bytes),
    chunks.flatten = chunks'.flatten ∧ (f.readAll [] chunks).1 ≠ (f.readAll [] chunks').1 := by
  refine ⟨⟨12, Text.bytes "AT+N=", defaultSuffix, by decide, by decide⟩,
    [Text.bytes "AT+N=" ++ [0, 0, 0, 1] ++ Text.bytes "[1,2,3]" ++ defaultSuffix],
    [Text.bytes "AT+N=" ++ [0, 0, 0, 1] ++ Text.bytes "[1,2,", Text.bytes "3]" ++ defaultSuffix],
    by decide, ?_⟩
  decide +kernel

end BleBridge.Frame.Layout
