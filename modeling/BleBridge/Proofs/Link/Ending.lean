import BleBridge.Proofs.Frame.Noise
import BleBridge.Proofs.Frame.Unfinished
import BleBridge.Proofs.Link.Outcomes

/-!
# The end of a stream

A stream of documents may break off in the middle of one and end in bytes that
are no frames.  The documents that are whole are received, and nothing comes of
the packets of the one that is not.

How the stream is then closed hangs on the bytes behind the last frame alone.
The decoder keeps as many of them as a lead may begin in, so if there are any it
keeps some, and the receiver takes the stream to be broken off
(`messages_ending`).
-/

namespace BleBridge.Link.Receiver

open BleBridge.Frame (Layout Packet Reassembler Unfinished)
open BleBridge.Frame.Reassembler (answers)

variable {f : Layout} {mtu : Nat} {handle : String} {ms : List Bytes} {pss : List (List Packet)}
  {last : List Packet} {noise : Bytes} {chunks : List Bytes}

/-- A message that is a JSON text. -/
structure Document (m : Bytes) : Prop extends Sendable m where
  wellFormed : (Json.parse m).isSome

theorem Document.outcome {m : Bytes} (h : Document m) : outcome (.ok m) = .ok (some m) :=
  if_pos h.wellFormed

theorem one_lt_length_lead (hlayout : Layout.notify mtu handle = .ok f) : 1 < f.lead.length := by
  rw [(Layout.lead_of_notify hlayout).1, List.length_append]
  exact Nat.lt_add_right _ (by decide)

/-- Of noise without a lead something is kept if there is any. -/
theorem closing_kept (hlayout : Layout.notify mtu handle = .ok f) (noise : Bytes) :
    closing (noise.rtake (f.lead.length - 1)) = closing noise := by
  have hlong := one_lt_length_lead hlayout
  have hkept : noise.rtake (f.lead.length - 1) = [] ↔ noise = [] := by
    rw [List.rtake, List.drop_eq_nil_iff, ← List.length_eq_zero_iff]
    omega
  simp only [closing, hkept]

theorem stream_append_eq_noisy (f : Layout) (ps : List Packet) (noise : Bytes) :
    f.stream ps ++ noise = f.noisy (ps.map (Prod.mk [])) noise := by
  simp [Layout.stream, Layout.noisy, List.flatMap_map]

/-- What is read of documents, an unfinished message and noise. -/
theorem readAll_ending (hlayout : Layout.notify mtu handle = .ok f)
    (hms : ∀ m ∈ ms, Document m) (hsplit : List.Forall₂ (f.split · = .ok ·) ms pss)
    (hlast : Unfinished f last) (hnoise : ¬ f.lead <:+: noise)
    (hchunks : chunks.flatten = f.stream (pss.flatten ++ last) ++ noise) :
    f.readAll [] chunks = (pss.flatten ++ last, noise.rtake (f.lead.length - 1)) := by
  rw [stream_append_eq_noisy] at hchunks
  rw [Layout.readAll_noisy hlayout ?payload ?clear hnoise hchunks, List.map_map]
  case payload =>
    intro frame hframe
    obtain ⟨p, hp, rfl⟩ := List.mem_map.mp hframe
    rcases List.mem_append.mp hp with hp | hp
    · exact Layout.payload_of_splits hsplit (fun m hm ↦ (hms m hm).unbroken) p hp
    · exact hlast.payload hp
  case clear =>
    intro frame hframe
    obtain ⟨p, hp, rfl⟩ := List.mem_map.mp hframe
    rw [List.infix_nil]
    exact List.ne_nil_of_length_pos (Nat.zero_lt_of_lt (one_lt_length_lead hlayout))
  exact congrArg (·, _) (List.map_id _)

/-- The documents are answered, and the packets behind them are not. -/
theorem answers_ending (hms : ∀ m ∈ ms, Document m)
    (hsplit : List.Forall₂ (f.split · = .ok ·) ms pss) (hlast : Unfinished f last) :
    answers ((Reassembler.new none).pushes (pss.flatten ++ last).zipIdx) = ms.map .ok := by
  obtain ⟨hanswers, hawaits⟩ := Reassembler.answers_splits (l := pss.flatten.zipIdx) hsplit
    (fun m hm ↦ (hms m hm).ne_nil) (by simp) rfl fun total ↦ Reassembler.awaits_new total none
  have hrest : answers (((Reassembler.new none).pushAll pss.flatten.zipIdx).pushes
      (last.zipIdx (0 + pss.flatten.length))) = [] :=
    Reassembler.answers_of_unfinished (by simpa using hlast)
      ((Reassembler.coherent_new none).pushAll _) (Reassembler.gathered_of_awaits hawaits)
  rw [List.zipIdx_append, Reassembler.pushes_append, Reassembler.answers_append, hanswers, hrest,
    List.append_nil]

/-- The documents are received, and the stream is closed as the noise behind them alone would be.
So it ends as it should if and only if there is no noise. -/
theorem messages_ending (hlayout : Layout.notify mtu handle = .ok f)
    (hms : ∀ m ∈ ms, Document m) (hsplit : List.Forall₂ (f.split · = .ok ·) ms pss)
    (hlast : Unfinished f last) (hnoise : ¬ f.lead <:+: noise)
    (hchunks : chunks.flatten = f.stream (pss.flatten ++ last) ++ noise) :
    (Receiver.new f none chunks).messages.1.map Prod.fst =
        ms.map (fun m ↦ .ok (some m)) ++ closing noise ∧
      (receiveOne f none chunks).1 = ms.head?.elim
        (if noise = [] then .error (.reassembly "stream ended before the message was complete")
          else .error (.io "bytes remaining on stream")) .ok := by
  have hread := readAll_ending hlayout hms hsplit hlast hnoise hchunks
  have houtcomes : (ms.map .ok).map outcome = ms.map fun m ↦ .ok (some m) := by
    rw [List.map_map]
    exact List.map_congr_left fun m hm ↦ (hms m hm).outcome
  have hmessages : (Receiver.new f none chunks).messages.1.map Prod.fst =
      ms.map (fun m ↦ .ok (some m)) ++ closing noise := by
    rw [messages_new, hread, answers_ending hms hsplit hlast, houtcomes, closing_kept hlayout]
  refine ⟨hmessages, Option.some.inj ?_⟩
  rw [← receiveOne_eq_single, hmessages]
  cases ms with
  | nil =>
      rw [closing]
      split <;> rfl
  | cons m ms => rfl

/-- A document and the first packet of another, then a line that is no frame. -/
theorem messages_ending_ok :
    (Receiver.new ⟨33, Text.bytes "AT+QBLEGATTSNTFY=0,fff2,", [0x0D, 0x0A], by decide, by decide⟩
      none
      [Text.bytes "AT+QBLEGATTSNTFY=0,fff2,\x00\x00\x00\x01[1]\r\nAT+QBLEGATTSNTFY=0,fff2,",
        Text.bytes "\x00\x00\x00\x02[2,\r\nO", Text.bytes "K\r\n"]).messages.1.map Prod.fst =
      [.ok (some (Text.bytes "[1]")), .error (.io "bytes remaining on stream"), .ok none] := by
  have hlayout : Layout.notify 33 "fff2" = .ok
      ⟨33, Text.bytes "AT+QBLEGATTSNTFY=0,fff2,", [0x0D, 0x0A], by decide, by decide⟩ := rfl
  have hms : ∀ m ∈ [Text.bytes "[1]"], Document m :=
    List.forall_mem_singleton.mpr ⟨⟨by decide, by decide⟩, by decide +kernel⟩
  have hsplit : Layout.split
      ⟨33, Text.bytes "AT+QBLEGATTSNTFY=0,fff2,", [0x0D, 0x0A], by decide, by decide⟩
      (Text.bytes "[1]") = .ok [⟨0, 1, Text.bytes "[1]"⟩] := by decide +kernel
  have hother : Layout.split
      ⟨33, Text.bytes "AT+QBLEGATTSNTFY=0,fff2,", [0x0D, 0x0A], by decide, by decide⟩
      (Text.bytes "[2,3]") = .ok [⟨0, 2, Text.bytes "[2,"⟩, ⟨1, 2, Text.bytes "3]"⟩] := by
    decide +kernel
  have hlast : Unfinished
      ⟨33, Text.bytes "AT+QBLEGATTSNTFY=0,fff2,", [0x0D, 0x0A], by decide, by decide⟩
      [⟨0, 2, Text.bytes "[2,"⟩] :=
    .part hother (by decide) (by decide) (List.mem_cons_of_mem _ List.mem_cons_self) (by decide)
  have hnoise : ¬ Text.bytes "AT+QBLEGATTSNTFY=0,fff2," <:+: Text.bytes "OK\r\n" := by decide
  refine (messages_ending hlayout hms (.cons hsplit .nil) hlast hnoise ?_).1.trans ?_
  · decide +kernel
  · decide +kernel

/-- A document of two frames and the line of a reply behind it end like a broken stream, and so
does the first of the frames with the line. -/
theorem exists_ending_in_noise : ∃ (f : Layout) (m noise : Bytes) (p q : Packet),
    Layout.notify 33 "fff2" = .ok f ∧ Document m ∧ f.split m = .ok [p, q] ∧ ¬ f.lead <:+: noise ∧
      (Receiver.new f none [f.stream [p, q] ++ noise]).messages.1.map Prod.fst ≠
        [.ok (some m), .ok none] ∧
      (receiveOne f none [f.stream [p] ++ noise]).1 ≠
        .error (.reassembly "stream ended before the message was complete") :=
  ⟨⟨33, Text.bytes "AT+QBLEGATTSNTFY=0,fff2,", [0x0D, 0x0A], by decide, by decide⟩,
    Text.bytes "[1,2]", Text.bytes "OK\r\n", ⟨0, 2, Text.bytes "[1,"⟩, ⟨1, 2, Text.bytes "2]"⟩,
    rfl, ⟨⟨by decide, by decide⟩, by decide +kernel⟩, by decide +kernel, by decide,
    by decide +kernel, by decide +kernel⟩

end BleBridge.Link.Receiver
