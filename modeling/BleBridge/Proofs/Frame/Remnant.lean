import BleBridge.Proofs.Frame.Header
import Mathlib.Data.List.DropRight

/-!
# Frames that have lost their ends

The reader of a single frame takes off the lead and the suffix where it meets
them, and does without them otherwise.  A whole frame is therefore read back in
any layout.  A frame without its lead is read back as well, unless its header and
payload begin like one, and a frame without its suffix unless they end like one
(`decode_remnant_of_apart`).

A header cannot be taken for the lead of a notification.  Its first four bytes
`AT+Q` would number a packet beyond its total (`total_lt_index_of_lead`).  And a
line break at the end would be the end of the payload, since the header is not
the end of a packet that carries something.
-/

namespace BleBridge.Frame

/-- One of the packets of its message, and not at the end of a line. -/
structure Packet.Unended (p : Packet) : Prop where
  index_lt : p.index < p.total
  payload_ne_nil : p.payload ≠ []
  last_ne : p.payload.getLast? ≠ some 0x0A

namespace Layout

variable {f : Layout} {p : Packet} {frame rest : Bytes}

/-- What is left of a frame that may have lost its lead, its suffix or both. -/
def remnant (f : Layout) (keepLead keepSuffix : Bool) (frame : Bytes) : Bytes :=
  let back := if keepLead then frame else frame.drop f.lead.length
  if keepSuffix then back else back.rdrop f.suffix.length

/-! ## Reading what is left -/

theorem decode_of_not_lead (h : ¬ f.lead <+: frame) :
    f.decode frame = Packet.parse ((f.suffix.isSuffixOf? frame).getD frame) := by
  rw [decode, Text.isPrefixOf?_eq_none_iff.mpr h, Option.getD_none]

theorem remnant_encode (f : Layout) (keepLead keepSuffix : Bool) (p : Packet) :
    f.remnant keepLead keepSuffix (f.encode p) =
      (if keepLead then f.lead else []) ++ (p.body ++ if keepSuffix then f.suffix else []) := by
  have hback : (f.encode p).drop f.lead.length = p.body ++ f.suffix := by
    rw [encode, List.append_assoc, List.drop_left]
  have hfront : (f.encode p).rdrop f.suffix.length = f.lead ++ p.body :=
    List.rdrop_append_length
  cases keepLead with
  | false => cases keepSuffix <;> simp [remnant, hback, List.rdrop_append_length]
  | true =>
      cases keepSuffix with
      | false => simp [remnant, hfront]
      | true => simp [remnant, encode]

/-- The packet of a frame is read whichever of its ends are there, if no other bytes of the frame
look like one of them. -/
theorem decode_remnant_of_apart (hlead : ¬ f.lead <+: p.body ++ f.suffix)
    (hsuffix : ¬ f.suffix <:+ p.body) (keepLead keepSuffix : Bool) :
    f.decode (f.remnant keepLead keepSuffix (f.encode p)) = .ok p := by
  have hbare : ¬ f.lead <+: p.body := fun h ↦ hlead (h.trans (List.prefix_append _ _))
  have hnone : f.suffix.isSuffixOf? p.body = none := Text.isSuffixOf?_eq_none_iff.mpr hsuffix
  rw [remnant_encode]
  cases keepLead with
  | true =>
      rw [if_pos rfl, decode_lead_append]
      cases keepSuffix with
      | true => rw [if_pos rfl, Text.isSuffixOf?_append_mark, Option.getD_some, p.parse_body]
      | false =>
          rw [if_neg Bool.false_ne_true, List.append_nil, hnone, Option.getD_none, p.parse_body]
  | false =>
      rw [if_neg Bool.false_ne_true, List.nil_append]
      cases keepSuffix with
      | true =>
          rw [if_pos rfl, decode_of_not_lead hlead, Text.isSuffixOf?_append_mark,
            Option.getD_some, p.parse_body]
      | false =>
          rw [if_neg Bool.false_ne_true, List.append_nil, decode_of_not_lead hbare, hnone,
            Option.getD_none, p.parse_body]

/-! ## Ends of notifications -/

/-- A packet that looks like the lead of a notification is none of its message. -/
theorem total_lt_index_of_lead {mtu : Nat} {handle : String} (hlayout : notify mtu handle = .ok f)
    (h : f.lead <+: p.body ++ rest) : p.total < p.index := by
  have hstart : Text.bytes "AT+Q" <+: p.body ++ rest := by
    apply List.IsPrefix.trans _ h
    rw [(lead_of_notify hlayout).1]
    exact ⟨Text.bytes "BLEGATTSNTFY=0," ++ (Text.bytes handle ++ [0x2C]), rfl⟩
  have hheader : Text.bytes "AT+Q" = wordBytes p.index ++ wordBytes p.total := by
    obtain ⟨after, hafter⟩ := hstart
    rw [Packet.body, List.append_assoc] at hafter
    exact (List.append_inj hafter rfl).1
  obtain ⟨hindex, htotal⟩ : wordBytes 0x4154 = wordBytes p.index ∧
      wordBytes 0x2B51 = wordBytes p.total := List.append_inj hheader rfl
  rw [← wordBytes_inj.mp hindex, ← wordBytes_inj.mp htotal]
  decide

/-- The last bytes of a packet that carries something are those of its payload. -/
theorem getLast?_body (h : p.payload ≠ []) : p.body.getLast? = p.payload.getLast? := by
  rw [Packet.body, List.getLast?_append_of_ne_nil _ h]

theorem not_defaultSuffix_of_unended (h : p.Unended) : ¬ defaultSuffix <:+ p.body := by
  rintro ⟨before, hbefore⟩
  apply h.last_ne
  rw [← getLast?_body h.payload_ne_nil, ← hbefore]
  exact List.getLast?_append_of_ne_nil before (List.cons_ne_nil _ _)

/-- The packets of a compact text end no line. -/
theorem unended_of_mem_split {v : Json} {packets : List Packet}
    (hsplit : f.split v.bytes = .ok packets) (hp : p ∈ packets) : p.Unended := by
  obtain ⟨hindex, hpayload, -⟩ := of_mem_split hsplit hp
  refine ⟨hindex, hpayload, fun hlast ↦ ?_⟩
  exact feed_notMem_payload hsplit hp (List.mem_of_getLast? hlast)

/-- A notification is read back with or without its lead and its suffix, whatever packet of a
message it carries that does not end a line.  The packets of any compact text are such packets.  A
whole frame is read back in any layout, whatever it carries. -/
theorem decode_remnant {mtu : Nat} {handle : String} (hlayout : notify mtu handle = .ok f) :
    (∀ p : Packet, p.Unended → ∀ keepLead keepSuffix : Bool,
        f.decode (f.remnant keepLead keepSuffix (f.encode p)) = .ok p) ∧
      (∀ (v : Json) (packets : List Packet), f.split v.bytes = .ok packets →
        ∀ p ∈ packets, p.Unended) ∧
      ∀ (g : Layout) (p : Packet), g.decode (g.encode p) = .ok p := by
  refine ⟨?remnants, fun _ _ hsplit _ hp ↦ unended_of_mem_split hsplit hp, decode_encode⟩
  intro p hp keepLead keepSuffix
  apply decode_remnant_of_apart
  · intro hlead
    exact UInt16.lt_asymm hp.index_lt (total_lt_index_of_lead hlayout hlead)
  · rw [suffix_of_notify hlayout]
    exact not_defaultSuffix_of_unended hp

/-- A bare packet whose header holds the line break twice over and whose payload ends within one. -/
theorem decode_remnant_of_line_breaks : ∃ f, notify 33 "fff2" = .ok f ∧
    f.decode ([0x0C, 0x0D, 0x0D, 0x0A] ++ Text.bytes "\n\r") =
      .ok ⟨0x0C0D, 0x0D0A, Text.bytes "\n\r"⟩ := by
  have hlayout : notify 33 "fff2" = .ok
      ⟨33, Text.bytes "AT+QBLEGATTSNTFY=0,fff2,", [0x0D, 0x0A], by decide, by decide⟩ := rfl
  have hp : Packet.Unended ⟨0x0C0D, 0x0D0A, Text.bytes "\n\r"⟩ :=
    ⟨by decide, by decide, by decide⟩
  exact ⟨_, hlayout, (decode_remnant hlayout).1 _ hp false false⟩

end Layout

end BleBridge.Frame
