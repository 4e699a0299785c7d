import BleBridge.Mux.Basic

/-! # The writer of the multiplexer -/

namespace BleBridge.Mux

def wroteEvent (r : Request) : Event :=
  .debug source s!"wrote {r.command.length} bytes: {r.shown}"

namespace State

/-- Take the next request out of the queue and start to write its command. A writer that is told
to stop may do so once more: which of the two it sees first is open. -/
def take (s : State) (now : Instant) : Option State :=
  match s.writer, s.queue with
  | .idle, r :: rest =>
      some { s with queue := rest, writer := .writing { r with writtenAt := now } }
  | _, _ => none

/-- All bytes of the command are out. -/
def wrote (s : State) : Option (State × Event) :=
  match s.writer with
  | .writing r =>
      some ({ s with
        writer := .handing r
        counters := { s.counters with written := s.counters.written + 1 } }, wroteEvent r)
  | _ => none

/-- Let the reader know of the written request. -/
def handOff (s : State) : Option State :=
  match s.writer with
  | .handing r =>
      let s := { s with writer := .idle }
      if s.reader.isStopped then some (s.resolve r (.error (.closed "serial reader stopped")))
      else some { s with handoff := s.handoff ++ [r] }
  | _ => none

/-- The bytes did not get out. -/
def writeFailed (s : State) (fault : IoFault) : Option (State × Event) :=
  match s.writer with
  | .writing r =>
      some ({ s with writer := .idle }.resolve r (.error (.write fault.message)),
        .error source ("write failed: " ++ fault.message))
  | _ => none

/-- Fail all requests that wait in the queue. -/
def drain (s : State) : State :=
  s.queue.foldl (fun s r => s.resolve r (.error (.closed "serial multiplexer closed")))
    { s with queue := [] }

/-- Stop after closing; a command that is going out is given up. -/
def stopWriter (s : State) : Option (State × Event) :=
  if !s.closed then none
  else
    let stop := fun s : State => ({ s.drain with writer := .stopped },
      Event.debug source "writer stopped")
    match s.writer with
    | .idle => some (stop s)
    | .writing r =>
        some (stop (s.resolve r (.error (.closed "serial multiplexer closed during write"))))
    | .handing _ | .stopped => none

end State

end BleBridge.Mux
