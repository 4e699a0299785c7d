import BleBridge.Frame.Decoder
import BleBridge.Proofs.Frame.Split
import BleBridge.Proofs.Text.Cut

/-!
# A stream of frames

What the decoder finds in a part of a stream that consists of nothing but
frames.  A payload is `Legible` when the first suffix behind it is the one that
the frame was given; then a buffer that starts at a frame either holds it whole
and gives its packet, or ends within it and is kept as it is.  In both cases the
buffer starts at a frame again, so `scan_stream` carries over to any way in which
the stream is cut into chunks.
-/

namespace BleBridge.Frame.Layout

variable {f : Layout} {p : Packet} {ps : List Packet} {buffer later : Bytes}

/-- The frames of some packets, one behind the other. -/
def stream (f : Layout) (ps : List Packet) : Bytes := ps.flatMap f.encode

@[simp] theorem stream_nil (f : Layout) : f.stream [] = [] := rfl

@[simp] theorem stream_cons (f : Layout) (p : Packet) (ps : List Packet) :
    f.stream (p :: ps) = f.encode p ++ f.stream ps := rfl

/-- A payload that the suffix ends where it should, in a frame within the transmission unit. -/
structure Legible (f : Layout) (p : Packet) : Prop where
  cut : Text.cut? f.suffix (p.payload ++ f.suffix) = some (p.payload, [])
  size : (f.encode p).length ≤ f.mtu

/-- A payload without an unbordered suffix is legible. -/
theorem legible_of_not_infix (hsuffix : Text.Unbordered f.suffix)
    (hpayload : ¬ f.suffix <:+: p.payload) (hsize : p.payload.length ≤ f.maxPayload) :
    f.Legible p :=
  ⟨Text.cut?_append_mark hsuffix hpayload, f.length_encode_le_mtu hsize⟩

theorem unbordered_defaultSuffix : Text.Unbordered defaultSuffix := by
  intro part hne hproper hprefix
  rw [defaultSuffix, List.prefix_cons_iff] at hprefix
  obtain rfl | ⟨rest, rfl, hrest⟩ := hprefix
  · exact absurd rfl hne
  · rw [List.prefix_cons_iff] at hrest
    obtain rfl | ⟨rest, rfl, hrest⟩ := hrest
    · decide
    · rw [List.prefix_nil.mp hrest] at hproper
      exact absurd rfl hproper

theorem eq_of_withSuffix {mtu : Nat} {lead suffix : Bytes}
    (h : withSuffix mtu lead suffix = .ok f) : f.lead = lead ∧ f.suffix = suffix := by
  rw [withSuffix] at h
  split at h
  · cases h
  · split at h
    · cases h
      exact ⟨rfl, rfl⟩
    · cases h

theorem eq_of_notify {mtu : Nat} {handle : String} (h : notify mtu handle = .ok f) :
    ∃ lead, Modem.Command.notifyLead handle = .ok lead ∧ f.lead = Text.bytes lead ∧
      f.suffix = defaultSuffix := by
  rw [notify] at h
  cases hlead : Modem.Command.notifyLead handle with
  | error fault =>
      rw [hlead] at h
      cases h
  | ok lead =>
      rw [hlead] at h
      exact ⟨lead, rfl, eq_of_withSuffix h⟩

/-- The frames of notifications end with a line break. -/
theorem suffix_of_notify {mtu : Nat} {handle : String} (h : notify mtu handle = .ok f) :
    f.suffix = defaultSuffix := by
  obtain ⟨_, -, -, hsuffix⟩ := eq_of_notify h
  exact hsuffix

/-! ## One look at the buffer -/

/-- A header and a payload are a packet again. -/
theorem parse_header (p : Packet) (rest : Bytes) :
    Packet.parse ((p.body ++ rest).take headerSize ++ p.payload) = .ok p := by
  have hheader : (p.body ++ rest).take headerSize = wordBytes p.index ++ wordBytes p.total := by
    simp [Packet.body, wordBytes, headerSize]
  rw [hheader]
  exact p.parse_body

theorem drop_header (p : Packet) (rest : Bytes) :
    (p.body ++ rest).drop headerSize = p.payload ++ rest := by
  simp [Packet.body, wordBytes, headerSize]

/-- A whole frame at the front of the buffer is taken out. -/
theorem scan_encode (hp : f.Legible p) (rest : Bytes) :
    f.scan (f.encode p ++ rest) = ⟨some p, rest, []⟩ := by
  have hlead : Text.cut? f.lead (f.encode p ++ rest) =
      some ([], p.body ++ (f.suffix ++ rest)) := by
    rw [encode, List.append_assoc, List.append_assoc, Text.cut?_mark_append]
  have hlong : ¬ (p.body ++ (f.suffix ++ rest)).length < headerSize := by
    rw [List.length_append, p.length_body]
    omega
  have hsuffix : Text.cut? f.suffix ((p.body ++ (f.suffix ++ rest)).drop headerSize) =
      some (p.payload, rest) := by
    rw [drop_header, ← List.append_assoc]
    exact Text.cut?_append hp.cut rest
  rw [scan]
  split
  · rename_i h
    rw [hlead] at h
    cases h
  · rename_i skipped after h
    obtain ⟨rfl, rfl⟩ := by simpa [hlead] using h
    rw [dif_neg hlong, hsuffix]
    simp [parse_header, skipEvents, Except.toOption]

/-- A buffer that ends within its first frame is kept. -/
theorem scan_partial (hp : f.Legible p) (hbuffer : buffer <+: f.encode p)
    (hproper : buffer ≠ f.encode p) : f.scan buffer = ⟨none, buffer, []⟩ := by
  obtain ⟨missing, hmissing⟩ := hbuffer
  have hne : missing ≠ [] := by
    rintro rfl
    exact hproper (by simpa using hmissing)
  rw [encode, List.append_assoc] at hmissing
  rcases Nat.lt_or_ge buffer.length f.lead.length with hshort | hlong
  · have hlead : Text.cut? f.lead buffer = none := by
      rw [Text.cut?_eq_none_iff]
      exact fun hpart ↦ absurd hpart.length_le (by omega)
    rw [scan]
    split
    · rw [keepPartial, Nat.sub_eq_zero_of_le (by omega), List.drop_zero]
    · rename_i h
      rw [hlead] at h
      cases h
  · obtain ⟨after, rfl, hafter⟩ : ∃ after, buffer = f.lead ++ after ∧
        after ++ missing = p.body ++ f.suffix := by
      obtain ⟨after, hafter⟩ : f.lead <+: buffer :=
        List.prefix_of_prefix_length_le (List.prefix_append _ _) ⟨missing, hmissing⟩ hlong
      refine ⟨after, hafter.symm, ?_⟩
      rw [← hafter, List.append_assoc, List.append_cancel_left_eq] at hmissing
      exact hmissing
    have hsize : f.lead.length + after.length ≤ f.mtu := by
      have := hp.size
      rw [encode, List.append_assoc, ← hafter, List.length_append, List.length_append] at this
      omega
    rw [scan]
    split
    · rename_i h
      simp at h
    · rename_i skipped after' h
      obtain ⟨rfl, rfl⟩ := by simpa using h
      by_cases hheader : after.length < headerSize
      · rw [dif_pos hheader]
        simp [skipEvents]
      · have hsuffix : Text.cut? f.suffix (after.drop headerSize) = none := by
          have hwhole : Text.cut? f.suffix (after.drop headerSize ++ missing) =
              some (p.payload, []) := by
            rw [← List.drop_append_of_le_length (by omega), hafter, drop_header]
            exact hp.cut
          exact Text.cut?_eq_none_of_append hwhole hne
        rw [dif_neg hheader, hsuffix]
        simp [hsize, skipEvents]

theorem scan_nil (f : Layout) : f.scan [] = ⟨none, [], []⟩ := by
  rw [scan]
  split
  · simp [keepPartial]
  · rename_i skipped after h
    have := Text.cut?_length f.lead [] h
    rw [List.length_nil] at this
    have hlead : f.lead = [] := List.eq_nil_of_length_eq_zero (by omega)
    have hskipped : skipped = [] := List.eq_nil_of_length_eq_zero (by omega)
    have hafter : after = [] := List.eq_nil_of_length_eq_zero (by omega)
    subst hskipped hafter
    simp [hlead, skipEvents, headerSize]

/-! ## The buffer within the stream -/

/-- A buffer at the front of a stream of frames either ends within the first of them, and is kept,
or gives it. -/
theorem scan_stream (hps : ∀ p ∈ ps, f.Legible p) (h : buffer ++ later = f.stream ps) :
    (f.scan buffer = ⟨none, buffer, []⟩ ∧ (later = [] → ps = [])) ∨
      ∃ p ps' rest, ps = p :: ps' ∧ f.scan buffer = ⟨some p, rest, []⟩ ∧
        rest ++ later = f.stream ps' := by
  cases ps with
  | nil =>
      obtain ⟨rfl, rfl⟩ := by simpa using h
      exact .inl ⟨f.scan_nil, fun _ ↦ rfl⟩
  | cons p ps =>
      have hp := hps p List.mem_cons_self
      rw [stream_cons] at h
      rcases List.append_eq_append_iff.mp h with ⟨rest, hencode, hrest⟩ | ⟨rest, rfl, hrest⟩
      · by_cases hempty : rest = []
        · subst hempty
          rw [List.append_nil] at hencode
          refine .inr ⟨p, ps, [], rfl, ?_, by simpa using hrest⟩
          rw [← hencode]
          simpa using scan_encode hp []
        · refine .inl ⟨scan_partial hp ⟨rest, hencode.symm⟩ ?_, ?_⟩
          · rintro rfl
            exact hempty (by simpa using hencode)
          · rintro rfl
            exact absurd (List.append_eq_nil_iff.mp hrest.symm).1 hempty
      · exact .inr ⟨p, ps, rest, rfl, scan_encode hp rest, hrest.symm⟩

/-- A stream is at least as long as it has packets. -/
theorem length_le_length_stream (f : Layout) (ps : List Packet) :
    ps.length ≤ (f.stream ps).length := by
  induction ps with
  | nil => simp
  | cons p ps ih =>
      rw [stream_cons, List.length_append, List.length_cons, length_encode, headerSize]
      omega

end BleBridge.Frame.Layout
