import BleBridge.Routine

/-! # Control of the module -/

namespace BleBridge.Modem

structure Timing where
  timeout : Millis := 1000
  readDelay : Millis := 20
  queueWait : Millis := 100
deriving DecidableEq, Repr, Inhabited

structure Controller where
  settings : Config.Peripheral
  timing : Timing := {}
deriving DecidableEq, Repr

namespace Controller

def source : String := "BLE"

def order (c : Controller) (line : String) : Mux.Order :=
  ⟨Text.bytes line, c.timing.timeout, c.timing.readDelay, c.timing.queueWait⟩

/-- A command line as log events show it. -/
def shown (line : String) : String := Text.trimEnd line

def replyEvent (line response : String) : Event :=
  .debug source (shown line ++ " -> " ++ Text.quote response)

/-- Send one command line and check its reply. -/
def sendSingle (c : Controller) (line : String) : Attempt String := do
  let response ← Attempt.enqueue (c.order line)
  Attempt.ofExcept (bridged (checkResponse response))
  Attempt.log (replyEvent line response)
  return response

/-- Send one line after the other; each has its own outcome. -/
def sendMulti (c : Controller) : List String → Routine (List (Except BridgeError String))
  | [] => return []
  | line :: rest => do
      let result ← (c.sendSingle line).run
      let results ← c.sendMulti rest
      return result :: results

def stepEvent (step total : Nat) (line : String) : Event :=
  .info source (s!"init step {step}/{total} ok: " ++ shown line)

def abortEvent (line : String) (e : BridgeError) : Event :=
  .error source ("init aborted at " ++ shown line ++ ": " ++ e.message)

def failEvent (line : String) (e : BridgeError) : Event :=
  .warn source ("init step " ++ shown line ++ " failed: " ++ e.message)

/-- Send the lines that are left of `total`, the first of which is number `step`. -/
def replayFrom (c : Controller) (total step : Nat) (last : Except BridgeError Unit) :
    List String → Routine (Except BridgeError Unit)
  | [] => return last
  | line :: rest => do
      match ← (c.sendSingle line).run with
      | .ok _ =>
          Routine.log (stepEvent step total line)
          c.replayFrom total (step + 1) last rest
      | .error e =>
          match c.settings.initPolicy with
          | .allOrNothing =>
              Routine.log (abortEvent line e)
              return .error e
          | .bestEffort =>
              Routine.log (failEvent line e)
              c.replayFrom total (step + 1) (.error e) rest

/-- Send a list of initial commands under the policy of the settings. -/
def replay (c : Controller) (lines : List String) : Attempt Unit :=
  Attempt.perform (c.replayFrom lines.length 1 (.ok ()) lines)

/-- Reset the module and bring it up as an advertising peripheral. -/
def bringUp (c : Controller) : Attempt Unit := do
  let s := c.settings
  let lines ← Attempt.ofExcept
    (bridged (Command.peripheralInit s.deviceName s.service s.characteristic))
  c.replay lines
  Attempt.log (.info source ("initialized as peripheral '" ++ s.deviceName ++ "'"))

def state (c : Controller) : Attempt State := do
  return State.parse (← c.sendSingle Command.state)

/-- The value that the reply to a query names under a tag. -/
def query (c : Controller) (line tag : String) : Attempt String := do
  let response ← c.sendSingle line
  match infoField response tag with
  | some value => return value
  | none => throw (.protocol (.unexpected response))

def version (c : Controller) : Attempt String := c.query Command.version "QVERSION"

def address (c : Controller) : Attempt String := c.query Command.address "QBLEADDR"

end Controller

end BleBridge.Modem
