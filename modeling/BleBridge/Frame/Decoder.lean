import BleBridge.Frame.Layout
import BleBridge.Text.Search

/-! # Frames in a byte stream

The decoder looks for the lead, skips the header unseen and takes the payload up to the first
suffix. -/

namespace BleBridge.Frame

/-- What one look at a buffer gave: a packet if a whole frame was there, and the bytes kept. -/
structure Scan where
  found : Option Packet
  rest : Bytes
  events : List Event
deriving DecidableEq, Repr

namespace Layout

/-- The last bytes of a buffer without a lead, too few to hold one. -/
def keepPartial (f : Layout) (buffer : Bytes) : Bytes :=
  buffer.drop (buffer.length - (f.lead.length - 1))

def skipEvents (skipped : Bytes) : List Event :=
  if skipped.isEmpty then []
  else [.debug "PacketCodec" s!"skipping {skipped.length} bytes before prefix"]

def dropEvent (f : Layout) : Event :=
  .warn "PacketCodec" s!"no suffix within MTU {f.mtu}, dropping frame start"

/-- Take the first frame out of a buffer. A frame start that has no suffix although more than
`mtu` bytes are there is dropped, and the search goes on behind it. -/
def scan (f : Layout) (buffer : Bytes) : Scan :=
  match h : Text.cut? f.lead buffer with
  | none => ⟨none, f.keepPartial buffer, []⟩
  | some (skipped, after) =>
      if hl : after.length < headerSize then ⟨none, f.lead ++ after, skipEvents skipped⟩
      else
        match Text.cut? f.suffix (after.drop headerSize) with
        | some (payload, rest) =>
            ⟨(Packet.parse (after.take headerSize ++ payload)).toOption, rest,
              skipEvents skipped⟩
        | none =>
            if f.lead.length + after.length ≤ f.mtu then
              ⟨none, f.lead ++ after, skipEvents skipped⟩
            else
              have : (after.drop headerSize).length < buffer.length := by
                have := Text.cut?_length f.lead buffer h
                simp only [List.length_drop, headerSize] at hl ⊢
                omega
              let later := f.scan (after.drop headerSize)
              ⟨later.found, later.rest, skipEvents skipped ++ f.dropEvent :: later.events⟩
termination_by buffer.length
decreasing_by simpa using this

theorem scan_rest_length (f : Layout) (buffer : Bytes) :
    (f.scan buffer).rest.length ≤ buffer.length ∧
      ((f.scan buffer).found.isSome → (f.scan buffer).rest.length < buffer.length) := by
  induction hn : buffer.length using Nat.strongRecOn generalizing buffer with
  | ind n ih =>
    subst hn
    rw [scan]
    split
    · simp [keepPartial]
    · rename_i skipped after h
      have hlen := Text.cut?_length f.lead buffer h
      split
      · simp only [List.length_append]
        refine ⟨by omega, by simp⟩
      · rename_i hl
        split
        · rename_i payload rest hs
          have := Text.cut?_length f.suffix _ hs
          simp only [List.length_drop, headerSize] at this hl ⊢
          exact ⟨by omega, fun _ => by omega⟩
        · split
          · simp only [List.length_append]
            refine ⟨by omega, by simp⟩
          · have hd : (after.drop headerSize).length < buffer.length := by
              simp only [List.length_drop, headerSize] at hl ⊢
              omega
            have := ih _ hd _ rfl
            dsimp only
            exact ⟨by omega, fun hf => by have := this.2 hf; omega⟩

/-- Every packet that is whole in a buffer, and the bytes kept for later. -/
def drain (f : Layout) (buffer : Bytes) : List Packet × Bytes × List Event :=
  match h : f.scan buffer with
  | ⟨none, rest, events⟩ => ([], rest, events)
  | ⟨some p, rest, events⟩ =>
      have : rest.length < buffer.length := by
        have := (f.scan_rest_length buffer).2
        rw [h] at this
        exact this rfl
      let later := f.drain rest
      (p :: later.1, later.2.1, events ++ later.2.2)
termination_by buffer.length

/-- Append a chunk to the buffer and take out what is whole. -/
def feed (f : Layout) (buffer chunk : Bytes) : List Packet × Bytes × List Event :=
  f.drain (buffer ++ chunk)

end Layout

end BleBridge.Frame
