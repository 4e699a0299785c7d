import BleBridge.Service.Commands
import BleBridge.Service.RawReading

/-! # Raw data between the peripheral and the bus -/

namespace BleBridge.Service

namespace Agent

def source : String := "Agent"

/-- Publish a raw line with its time; blank lines are passed over. -/
def publishLine (upTopic line : String) : Attempt Unit := do
  let data := Text.trim line
  if data.isEmpty then return
  let timestamp ← Routine.perform .wallClock
  Attempt.publish upTopic (RawReading.toJson ⟨timestamp, data⟩)
  Attempt.log (.debug source s!"{Text.size data} bytes published to {upTopic}")

/-- Publish a line whose failure nobody waits for. -/
def handleLine (upTopic line : String) : Routine Unit := do
  match ← (publishLine upTopic line).run with
  | .ok () => return
  | .error e =>
      Routine.log (.error source ("publish to " ++ upTopic ++ " failed: " ++ e.message))

/-- Pass an envelope from the bus on to the peripheral. -/
def passDown (outlet : Outlet) (topic : String) (e : Bus.Envelope) : Attempt Unit := do
  Attempt.log (.debug source ("downlink " ++ e.requestId ++ " on " ++ topic))
  outlet e.toJson

end Agent

end BleBridge.Service
