import BleBridge.Bench.Responder
import BleBridge.Service.Driver

/-! # The driver on the bench -/

namespace BleBridge.Bench

/-- A bench on which reports and raw data go to the services of a driver. -/
def World.serving (d : Service.Driver) (p : Peripheral) : World :=
  { World.new d.config.mux (.scripted p) with
    reportSink := .pump "command" d.commands.handleLine [] none
    rawSink := .pump "raw" (Service.Agent.handleLine d.upTopic) [] none
    handlers := fun _ topic e => d.passDown topic e }

end BleBridge.Bench
