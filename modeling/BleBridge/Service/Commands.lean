import BleBridge.Config.Sections
import BleBridge.Routine
import BleBridge.Service.Instruction
import BleBridge.Service.Summary

/-! # Answering the peripheral

An instruction becomes a request on the bus, and what comes back goes over the link. -/

namespace BleBridge.Service

/-- A way to send a value to the peripheral. -/
abbrev Outlet := Json → Attempt Unit

def allStatusTimeout : Millis := 300
def readingTimeout : Millis := 100

/-- The reply to instructions that the bridge does not know. -/
def unsupportedReply : String := "unsupported command"

namespace Instruction

def display : Instruction → String
  | allStatus => "AllStatus"
  | monitor device resource =>
      "Monitor \x7b device: " ++ Text.quote device ++ ", resource: " ++ Text.quote resource ++
        " \x7d"
  | unsupported text => "Unsupported(" ++ Text.quote text ++ ")"

end Instruction

structure Commands where
  topics : Config.Topics
  outlet : Outlet

namespace Commands

def source : String := "Command"

/-- The topic of the request for the latest reading of a resource. -/
def readingTopic (t : Config.Topics) (device resource : String) : String :=
  t.readingRequest ++ "/" ++ device ++ "/" ++ resource ++ "/get"

/-- Subscribe the response topic before the first request. A failed attempt leaves it to the next
instruction. -/
def ensureSubscribed (c : Commands) : Attempt Unit := do
  if ← Routine.perform .isResponseSubscribed then return
  Attempt.perform (Routine.perform (.subscribeResponse c.topics.response))
  Routine.perform .markResponseSubscribed

def summaryEvent (infos : List ResourceInfo) : Event :=
  .info source s!"allstatus: {infos.length} devices"

def readingEvent (device resource : String) (r : ReadingSummary) : Event :=
  .info source ("monitor " ++ device ++ "/" ++ resource ++ " = " ++ r.value)

def follow (c : Commands) : Instruction → Attempt Unit
  | .allStatus => do
      c.ensureSubscribed
      let response ←
        Attempt.request c.topics.allStatusRequest (.string "") (some allStatusTimeout)
      let infos ← Attempt.ofExcept (resourceInfos response)
      Attempt.log (summaryEvent infos)
      c.outlet (.array (infos.map ResourceInfo.toJson))
  | .monitor device resource => do
      c.ensureSubscribed
      let response ← Attempt.request (readingTopic c.topics device resource) (.string "")
        (some readingTimeout)
      let reading ← Attempt.ofExcept (readingSummary response)
      Attempt.log (readingEvent device resource reading)
      c.outlet reading.toJson
  | .unsupported text => do
      Attempt.log (.warn source ("unsupported command '" ++ text ++ "'"))
      c.outlet (.string unsupportedReply)

def handle (c : Commands) (segment : String) : Attempt Unit := do
  let instruction ← Attempt.ofExcept (Instruction.parse segment)
  Attempt.log (.debug source instruction.display)
  c.follow instruction

theorem handle_of_parse (c : Commands) {segment : String} {i : Instruction}
    (hparse : Instruction.parse segment = .ok i) :
    (c.handle segment).run =
      .call (.log (.debug source i.display)) fun _ => (c.follow i).run := by
  rw [handle, hparse]
  rfl

/-- Handle a segment whose failure nobody waits for. -/
def handleLine (c : Commands) (segment : String) : Routine Unit := do
  match ← (c.handle segment).run with
  | .ok () => return
  | .error e => Routine.log (.error source ("'" ++ segment ++ "' failed: " ++ e.message))

def display (c : Commands) (subscribed : Bool) : String :=
  "CommandService \x7b topics: " ++ Config.Topics.form.display c.topics ++
    s!", response_subscribed: {subscribed} \x7d"

end Commands

end BleBridge.Service
