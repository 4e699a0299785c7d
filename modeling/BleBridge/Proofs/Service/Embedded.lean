import BleBridge.Proofs.Json.RoundTrip
import BleBridge.Service.Summary

/-!
# Payloads as values and as texts

Some senders embed their payload in the envelope as a value, others as a string that holds
the text of the value.  Both payloads are read as the same value, so what is made of a
response does not depend on the sender (`embedded_alike`).
-/

namespace BleBridge

namespace Bus.Envelope

variable {v : Json}

theorem payloadJson_value (e : Envelope) (hvalue : ∀ s, v ≠ .string s) :
    { e with payload := v }.payloadJson = .ok v := by
  cases v with
  | string s => exact absurd rfl (hvalue s)
  | _ => rfl

/-- A string that holds the text of a value, whatever its kind, is read as that value. -/
theorem payloadJson_text (e : Envelope) (integral : v.Integral) (ordered : v.Ordered)
    (shallow : v.nesting ≤ Json.depthLimit) :
    { e with payload := .string v.text }.payloadJson = .ok v := by
  rw [payloadJson]
  dsimp only
  rw [Json.parseText_text integral ordered shallow]

end Bus.Envelope

namespace Service

open Bus (Envelope)

/-- Devices and readings are the same, and so are the errors, whether a payload is a value or a
string with the text of the value. -/
theorem embedded_alike {v : Json} (hvalue : ∀ s, v ≠ .string s) (integral : v.Integral)
    (ordered : v.Ordered) (shallow : v.nesting ≤ 127) (e : Envelope) :
    resourceInfos { e with payload := .string v.text } = resourceInfos { e with payload := v } ∧
      readingSummary { e with payload := .string v.text } =
        readingSummary { e with payload := v } := by
  have hpayload : { e with payload := .string v.text }.payloadJson =
      { e with payload := v }.payloadJson := by
    rw [e.payloadJson_text integral ordered shallow, e.payloadJson_value hvalue]
  constructor
  · rw [resourceInfos, hpayload, resourceInfos]
  · rw [readingSummary, hpayload, readingSummary]

/-- A reading whose value is no string. -/
def mixedReading : Json :=
  .object [("event", .object [("readings", .array [.object [("resourceName", .string "door"),
    ("value", .array [.int (-1), .string "a\"\n"])]]), ("sourceName", .string "hall")])]

theorem embedded_alike_mixed :
    (resourceInfos { Envelope.blank with payload := .string mixedReading.text } =
        resourceInfos { Envelope.blank with payload := mixedReading } ∧
      readingSummary { Envelope.blank with payload := .string mixedReading.text } =
        readingSummary { Envelope.blank with payload := mixedReading }) ∧
      readingSummary { Envelope.blank with payload := mixedReading } =
        .ok ⟨"door", "[-1,\"a\\\"\\n\"]", "", "hall"⟩ := by
  have integral : mixedReading.Integral := by
    simp [mixedReading, Json.int, Json.Number.leastInt, Json.Number.mostInt]
  have ordered : mixedReading.Ordered := by
    simp +decide [mixedReading, Json.int]
  refine ⟨embedded_alike ?_ integral ordered (by decide) Envelope.blank, by rfl⟩
  intro s h
  cases h

end Service

end BleBridge
