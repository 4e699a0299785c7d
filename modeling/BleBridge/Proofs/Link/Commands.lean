import BleBridge.Proofs.Bench.Hearing
import BleBridge.Proofs.Frame.Header
import BleBridge.Proofs.Link.Aborted

/-!
# Frames as commands

A notification is a command, and a peripheral takes a command to end at the first
line break.  The frames of a document are heard as one command each if and only
if no line break stands in their headers (`endsOnce_encode_iff`), which depends on
how many there are (`heard_as_commands_iff`).

A document of `0x0A00` packets is too long for this: the index of its fourteenth
packet ends with the first byte of a line break and the total starts with the
second (`heard_in_parts`).
-/

namespace BleBridge.Link.Sender

open BleBridge.Frame (Layout Packet Unbroken)
open BleBridge.Routine (Exchange Runs Reaches handed)
open Bench (Peripheral)
open Bench.Peripheral (lineEnd)

variable {s : Sender} {packets : List Packet} {p : Packet} {v : Json} {mtu : Nat} {handle : String}
  {t : List Exchange} {result : Except BridgeError Unit} {frames : List Bytes}

/-! ## The line of a frame -/

/-- What stands in front of the line end of a frame. -/
def line (frame : Bytes) : Bytes := frame.rdrop lineEnd.length

theorem encode_eq_line (hlayout : Layout.notify mtu handle = .ok s.layout) (p : Packet) :
    s.layout.encode p = (s.layout.lead ++ p.body) ++ lineEnd := by
  rw [Layout.encode, Layout.suffix_of_notify hlayout]
  rfl

theorem line_encode (hlayout : Layout.notify mtu handle = .ok s.layout) (p : Packet) :
    line (s.layout.encode p) = s.layout.lead ++ p.body := by
  rw [encode_eq_line hlayout, line, List.rdrop_append_length]

section Document

variable (hlayout : Layout.notify mtu handle = .ok s.layout)
  (hsplit : s.layout.split v.bytes = .ok packets)

include hlayout hsplit

theorem infix_line_iff (hp : p ∈ packets) :
    lineEnd <:+: line (s.layout.encode p) ↔ p.Broken := by
  rw [line_encode hlayout]
  exact Layout.infix_frame_iff hlayout (Layout.feed_notMem_payload hsplit hp)

theorem endsOnce_encode_iff (hp : p ∈ packets) :
    Text.EndsOnce lineEnd (s.layout.encode p) ↔ ¬ p.Broken := by
  rw [← infix_line_iff hlayout hsplit hp, line_encode hlayout, encode_eq_line hlayout]
  exact Text.endsOnce_append_iff Peripheral.lineEnd_ne_nil Peripheral.unbordered_lineEnd

/-! ## All frames of a document -/

theorem forall_endsOnce_iff : (∀ t result, (s.sendValue v).run.Runs t result →
    ∀ frame ∈ t.filterMap handed, Text.EndsOnce lineEnd frame) ↔ Unbroken packets.length := by
  rw [← Layout.forall_not_broken_iff hsplit]
  constructor
  · intro h p hp
    -- a run that succeeds hands all packets over
    obtain ⟨t, hruns⟩ := exists_runs_sendBytes_ok hsplit
    cases runs_sendBytes hsplit hruns with
    | all _ hhanded =>
        have hmem : s.layout.encode p ∈ t.filterMap handed := by
          rw [hhanded]
          exact List.mem_map_of_mem hp
        exact (endsOnce_encode_iff hlayout hsplit hp).mp (h t _ hruns _ hmem)
  · intro hwhole t result hruns frame hframe
    obtain ⟨p, hp, rfl⟩ := List.mem_map.mp ((handed_front hsplit hruns).subset hframe)
    exact (endsOnce_encode_iff hlayout hsplit hp).mpr (hwhole p hp)

theorem forall_hearsEach_iff : (∀ t result frames, (s.sendValue v).run.Runs t result →
    Reaches t frames → ∀ (device : Peripheral) chunks, device.pending = [] →
      chunks.flatten = frames.flatten → device.HearsEach (frames.map line) chunks) ↔
        Unbroken packets.length := by
  rw [← Layout.forall_not_broken_iff hsplit]
  have hlines : ∀ ps : List Packet, (ps.map s.layout.encode).flatten =
      ((ps.map s.layout.encode).map line).flatMap (· ++ lineEnd) := by
    intro ps
    rw [List.flatMap_map, List.flatMap_map, ← List.flatMap_def]
    refine List.flatMap_congr fun p _ ↦ ?_
    rw [line_encode hlayout, encode_eq_line hlayout]
  constructor
  · intro h p hp
    obtain ⟨t, hruns⟩ := exists_runs_sendBytes_ok hsplit
    have hhears := h t _ _ hruns (reaches_of_runs_ok hsplit hruns) {} [_] rfl List.flatten_singleton
    rw [Peripheral.hearsEach_iff rfl (List.flatten_singleton.trans (hlines packets))] at hhears
    rw [← infix_line_iff hlayout hsplit hp]
    exact hhears _ (List.mem_map_of_mem (List.mem_map_of_mem hp))
  · intro hwhole t result frames hruns hreaches device chunks hpending hchunks
    obtain ⟨k, -, rfl⟩ := exists_take_of_reaches hsplit hruns hreaches
    rw [Peripheral.hearsEach_iff hpending (hchunks.trans (hlines _))]
    intro l hl
    obtain ⟨frame, hframe, rfl⟩ := List.mem_map.mp hl
    obtain ⟨p, hp, rfl⟩ := List.mem_map.mp hframe
    -- what the peripheral has got is a front of the packets
    have hmem : p ∈ packets := List.mem_of_mem_take hp
    rw [infix_line_iff hlayout hsplit hmem]
    exact hwhole p hmem

end Document

/-- A frame of a document holds one line break, at its end, unless its header is broken.  All frames
that are handed over are such frames if and only if there are fewer than `0x0A00` of them, or from
`0x0B00` to below `0x0D0A`.  Then and only then a peripheral that gets them hears each of them as
one command and answers it once, wherever the document is broken off and whatever chunks its bytes
come in. -/
theorem heard_as_commands_iff (hlayout : Layout.notify mtu handle = .ok s.layout)
    (hsplit : s.layout.split v.bytes = .ok packets) :
    (∀ p ∈ packets, Text.EndsOnce lineEnd (s.layout.encode p) ↔ ¬ p.Broken) ∧
      ((∀ t result, (s.sendValue v).run.Runs t result →
        ∀ frame ∈ t.filterMap handed, Text.EndsOnce lineEnd frame) ↔ Unbroken packets.length) ∧
      ((∀ t result frames, (s.sendValue v).run.Runs t result → Reaches t frames →
        ∀ (device : Peripheral) chunks, device.pending = [] →
          chunks.flatten = frames.flatten → device.HearsEach (frames.map line) chunks) ↔
            Unbroken packets.length) := by
  refine ⟨fun p hp ↦ ?_, ?_, ?_⟩
  · exact endsOnce_encode_iff hlayout hsplit hp
  · exact forall_endsOnce_iff hlayout hsplit
  · exact forall_hearsEach_iff hlayout hsplit

/-- Two frames, in chunks of which the first ends within a line end. -/
theorem heard_as_commands_of_two : ∃ (s : Sender) (t : List Exchange),
    Layout.notify 33 "fff2" = .ok s.layout ∧
      s.layout.split (Json.string "ab").bytes =
        .ok [⟨0, 2, Text.bytes "\"ab"⟩, ⟨1, 2, Text.bytes "\""⟩] ∧
      (s.sendValue (Json.string "ab")).run.Runs t (.ok ()) ∧
      Peripheral.HearsEach {}
        [Text.bytes "AT+QBLEGATTSNTFY=0,fff2,\x00\x00\x00\x02\"ab",
          Text.bytes "AT+QBLEGATTSNTFY=0,fff2,\x00\x01\x00\x02\""]
        [Text.bytes "AT+QBLEGATTSNTFY=0,fff2,\x00\x00\x00\x02\"ab\r",
          Text.bytes "\nAT+QBLEGATTSNTFY=0,fff2,\x00\x01\x00\x02\"\r\n"] := by
  let s : Sender :=
    ⟨⟨33, Text.bytes "AT+QBLEGATTSNTFY=0,fff2,", [0x0D, 0x0A], by decide, by decide⟩, 0, 0, 0⟩
  have hlayout : Layout.notify 33 "fff2" = .ok s.layout := rfl
  have hsplit : s.layout.split (Json.string "ab").bytes =
      .ok [⟨0, 2, Text.bytes "\"ab"⟩, ⟨1, 2, Text.bytes "\""⟩] := by decide +kernel
  obtain ⟨t, hruns⟩ := exists_runs_sendBytes_ok hsplit
  refine ⟨s, t, hlayout, hsplit, hruns, ?_⟩
  exact (heard_as_commands_iff hlayout hsplit).2.2.mpr (by decide) t _ _ hruns
    (reaches_of_runs_ok hsplit hruns) {} _ rfl (by decide +kernel)

/-! ## A document that is too long -/

/-- A text of the letter `a`. -/
def letters (n : Nat) : Json := .string (String.ofList (List.replicate n 'a'))

theorem bytes_letters (n : Nat) :
    (letters n).bytes = 0x22 :: (List.replicate n 0x61 ++ [0x22]) := by
  have hplain : (List.replicate n 'a').flatMap Json.escape = List.replicate n 'a' := by
    rw [List.flatMap_replicate]
    exact List.flatten_replicate_singleton
  have hletters : (List.replicate n 'a').flatMap String.utf8EncodeChar = List.replicate n 0x61 := by
    rw [List.flatMap_replicate]
    exact List.flatten_replicate_singleton
  rw [letters, Json.bytes, Json.chars, Json.stringChars, String.toList_ofList, hplain,
    List.cons_append, List.flatMap_cons, List.flatMap_append, hletters]
  rfl

/-- Of the frame of the fourteenth packet a peripheral makes two commands, and answers both. -/
theorem heard_in_parts : ∃ (s : Sender) (packets : List Packet) (t : List Exchange),
    Layout.notify 31 "fff2" = .ok s.layout ∧
      s.layout.split (letters 2558).bytes = .ok packets ∧ packets.length = 0x0A00 ∧
      (s.sendValue (letters 2558)).run.Runs t (.ok ()) ∧
      ∃ frame ∈ t.filterMap handed, ¬ Text.EndsOnce lineEnd frame ∧
        (Peripheral.hear {} [frame]).1.received =
          #[Text.bytes "AT+QBLEGATTSNTFY=0,fff2," ++ [0x00], [0x00, 0x61]] ∧
        (Peripheral.hear {} [frame]).2 = Text.bytes "OK\r\nOK\r\n" := by
  let s : Sender :=
    ⟨⟨31, Text.bytes "AT+QBLEGATTSNTFY=0,fff2,", [0x0D, 0x0A], by decide, by decide⟩, 0, 0, 0⟩
  have hlayout : Layout.notify 31 "fff2" = .ok s.layout := rfl
  have hlength : (letters 2558).bytes.length = 0x0A00 := by
    rw [bytes_letters, List.length_cons, List.length_append, List.length_replicate,
      List.length_singleton]
  have hroom : s.layout.maxPayload = 1 := by decide +kernel
  have hpayloads : (s.layout.payloads (letters 2558).bytes).length = 0x0A00 := by
    rw [Layout.payloads, Frame.length_pieces (Layout.maxPayload_ne_zero _), hlength, hroom]
  have hsplit := Layout.split_eq_ok_iff.mpr ⟨hpayloads.trans_lt (by decide), rfl⟩
  obtain ⟨t, hruns⟩ := exists_runs_sendBytes_ok hsplit
  have hpayload : (s.layout.payloads (letters 2558).bytes)[13]? = some [0x61] := by
    rw [Layout.payloads, Frame.getElem?_pieces (Layout.maxPayload_ne_zero _)
      (by rw [hlength, hroom]; decide), hroom, bytes_letters]
    rfl
  have hpacket : Frame.nth (s.layout.payloads (letters 2558).bytes) 13 =
      ⟨13, 0x0A00, [0x61]⟩ := by
    rw [Frame.nth, hpayloads, hpayload]
    rfl
  have hmem : s.layout.encode ⟨13, 0x0A00, [0x61]⟩ ∈ t.filterMap handed := by
    cases runs_sendBytes hsplit hruns with
    | all _ hhanded =>
        rw [hhanded, Frame.numbered_eq_map_nth, ← hpacket]
        apply List.mem_map_of_mem
        apply List.mem_map_of_mem
        rw [List.mem_range, hpayloads]
        decide
  refine ⟨s, _, t, hlayout, hsplit, ?_, hruns, _, hmem, ?_, ?_, ?_⟩
  · rw [Layout.length_numbered, hpayloads]
  · rintro ⟨-, honce⟩
    have hnil := honce (Text.bytes "AT+QBLEGATTSNTFY=0,fff2," ++ [0x00])
      [0x00, 0x61, 0x0D, 0x0A] (by decide +kernel)
    cases hnil
  · decide +kernel
  · decide +kernel

end BleBridge.Link.Sender
