import BleBridge.Proofs.Frame.Timing
import BleBridge.Proofs.Modem.Accepted
import BleBridge.Proofs.Text.Ascii
import Mathlib.Data.List.DropRight

/-!
# Frames in noise

The lead of a notification cannot overlap itself, since the `+` that stands in it
once is followed by bytes that end unlike anything before it.  So bytes without a
lead hide no frame that comes behind them, wherever they end, and with frames
that fit the transmission unit the cuts between chunks have no say:
`readAll_noisy` gives every packet of a noisy stream.
-/

namespace BleBridge.Frame.Layout

variable {f : Layout} {p : Packet} {noise rest trailing : Bytes} {frames : List (Bytes × Packet)}

/-! ## The lead of a notification -/

/-- The lead of a notification is its command, a handle of digits and a comma. -/
theorem lead_of_notify {mtu : Nat} {handle : String} (h : notify mtu handle = .ok f) :
    f.lead = Text.bytes "AT+QBLEGATTSNTFY=0," ++ (Text.bytes handle ++ [0x2C]) ∧
      ∀ b ∈ Text.bytes handle, 0x30 ≤ b.toNat := by
  obtain ⟨lead, hnotify, hlead, -⟩ := eq_of_notify h
  obtain ⟨huuid, rfl⟩ := Modem.Command.notifyLead_eq_ok_iff.mp hnotify
  constructor
  · rw [hlead, Text.bytes_append, Text.bytes_append, List.append_assoc]
    rfl
  · intro b hb
    obtain ⟨c, hc, hb⟩ := List.mem_flatMap.mp hb
    exact Text.le_of_mem_utf8EncodeChar (by decide)
      (Modem.Command.le_of_isHexDigit (huuid.digits c hc)) hb

/-- The lead of a notification cannot overlap itself, whatever its handle is. -/
theorem unbordered_lead {mtu : Nat} {handle : String} (h : notify mtu handle = .ok f) :
    Text.Unbordered f.lead := by
  obtain ⟨hlead, hhandle⟩ := lead_of_notify h
  have hparts : f.lead = Text.bytes "AT" ++ 0x2B ::
      ((Text.bytes "QBLEGATTSNTFY=0," ++ Text.bytes handle) ++ [0x2C]) := by
    rw [hlead, List.append_assoc, show Text.bytes "AT+QBLEGATTSNTFY=0," =
      Text.bytes "AT" ++ 0x2B :: Text.bytes "QBLEGATTSNTFY=0," from rfl]
    simp only [List.append_assoc, List.cons_append]
  rw [hparts]
  apply Text.unbordered_of_once
  · decide
  · rw [List.mem_append, not_or]
    constructor
    · decide
    · intro hplus
      exact absurd (hhandle _ hplus) (by decide)
  · decide
  · decide

/-! ## A noisy stream -/

/-- Frames with noise before each of them and behind the last. -/
def noisy (f : Layout) (frames : List (Bytes × Packet)) (trailing : Bytes) : Bytes :=
  frames.flatMap (fun frame ↦ frame.1 ++ f.encode frame.2) ++ trailing

@[simp] theorem noisy_nil (f : Layout) (trailing : Bytes) : f.noisy [] trailing = trailing := rfl

theorem noisy_cons (f : Layout) (noise : Bytes) (p : Packet) (frames : List (Bytes × Packet))
    (trailing : Bytes) :
    f.noisy ((noise, p) :: frames) trailing =
      noise ++ (f.encode p ++ f.noisy frames trailing) := by
  simp [noisy]

/-- Noise without a lead does not hide the frame behind it. -/
theorem sees_noise_encode (hlead : Text.Unbordered f.lead) (hnoise : ¬ f.lead <:+: noise)
    (hp : f.Legible p) (rest : Bytes) : Sees f (noise ++ (f.encode p ++ rest)) (some p) rest := by
  have hcut : Text.cut? f.lead (noise ++ (f.encode p ++ rest)) =
      some (noise, p.body ++ (f.suffix ++ rest)) := by
    simpa [encode] using
      Text.cut?_append (Text.cut?_append_mark hlead hnoise) (p.body ++ (f.suffix ++ rest))
  refine .frame hcut ?_
  simpa using Text.cut?_append hp.cut rest

theorem drained_noisy (hlead : Text.Unbordered f.lead)
    (hframes : ∀ frame ∈ frames, ¬ f.lead <:+: frame.1 ∧ f.Legible frame.2)
    (htrailing : ¬ f.lead <:+: trailing) :
    f.drained (f.noisy frames trailing) = (frames.map Prod.snd, f.keepPartial trailing) := by
  induction frames with
  | nil => exact (Sees.blank (Text.cut?_eq_none_iff.mpr htrailing)).drained_none
  | cons frame frames ih =>
      obtain ⟨noise, p⟩ := frame
      obtain ⟨⟨hnoise, hp⟩, hlater⟩ := List.forall_mem_cons.mp hframes
      rw [noisy_cons, (sees_noise_encode hlead hnoise hp _).drained_some, ih hlater]
      rfl

/-- Out of a stream of frames in noise without a lead come just their packets, however it is cut
into chunks, and no more is kept than the last bytes of the noise at the end. -/
theorem readAll_noisy {mtu : Nat} {handle : String} {chunks : List Bytes}
    (hlayout : notify mtu handle = .ok f)
    (hpayload : ∀ frame ∈ frames,
      frame.2.payload.length ≤ f.maxPayload ∧ ¬ [0x0D, 0x0A] <:+: frame.2.payload)
    (hnoise : ∀ frame ∈ frames, ¬ f.lead <:+: frame.1) (htrailing : ¬ f.lead <:+: trailing)
    (hchunks : chunks.flatten = f.noisy frames trailing) :
    f.readAll [] chunks = (frames.map Prod.snd, trailing.rtake (f.lead.length - 1)) := by
  have hlead := unbordered_lead hlayout
  have hsuffix : f.suffix = defaultSuffix := suffix_of_notify hlayout
  have hlegible : ∀ frame ∈ frames, f.Legible frame.2 := fun frame hframe ↦
    legible_of_not_infix (hsuffix ▸ unbordered_defaultSuffix)
      (hsuffix ▸ (hpayload frame hframe).2) (hpayload frame hframe).1
  have hdrained : f.drained (f.noisy frames trailing) =
      (frames.map Prod.snd, f.keepPartial trailing) :=
    drained_noisy hlead (fun frame hframe ↦ ⟨hnoise frame hframe, hlegible frame hframe⟩) htrailing
  have hfit : ∀ p ∈ (f.drained ([] ++ chunks.flatten)).1, ¬ f.Oversized p := by
    rw [List.nil_append, hchunks, hdrained]
    intro p hp
    obtain ⟨frame, hframe, rfl⟩ := List.mem_map.mp hp
    have := (hlegible frame hframe).size
    rw [Oversized]
    omega
  rw [readAll_eq_drained f.sees_nil hfit, List.nil_append, hchunks, hdrained]
  rfl

/-- Two frames in noise that begins leads it does not end, read in chunks that end within a lead, a
header and a suffix. -/
theorem readAll_noisy_twice :
    (Layout.mk 33 (Text.bytes "AT+QBLEGATTSNTFY=0,fff2,") [0x0D, 0x0A] (by decide)
        (by decide)).readAll []
      [Text.bytes "OK\r\nAT+QBLEGATTSAT+QBLEGAT", Text.bytes "TSNTFY=0,fff2,\x00\x00\r",
        Text.bytes "\n[1\r\r",
        Text.bytes "\n+EVENT\r\nAT+QBLEGATTSNTFY=0,fff2,\n\x00\x00\x02\r\nAT+QB"] =
      ([⟨0, 0x0D0A, Text.bytes "[1\r"⟩, ⟨0x0A00, 2, []⟩], Text.bytes "AT+QB") := by
  have hlayout : notify 33 "fff2" = .ok
      ⟨33, Text.bytes "AT+QBLEGATTSNTFY=0,fff2,", [0x0D, 0x0A], by decide, by decide⟩ := rfl
  refine readAll_noisy hlayout (by decide) (by decide) (by decide) (?_ : _ = noisy _
    [(Text.bytes "OK\r\nAT+QBLEGATTS", ⟨0, 0x0D0A, Text.bytes "[1\r"⟩),
      (Text.bytes "+EVENT\r\n", ⟨0x0A00, 2, []⟩)] (Text.bytes "AT+QB"))
  decide

end BleBridge.Frame.Layout
