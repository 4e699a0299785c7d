import BleBridge.Mux.Queue
import BleBridge.Mux.Reader
import BleBridge.Mux.Writer

/-! # Runs of the multiplexer

Everything that happens to the multiplexer is one of these actions. They are the atoms that
callers, writer and reader interleave. -/

namespace BleBridge.Mux

inductive Action where
  /-- A caller whose turn it is puts its request into the queue. -/
  | enter (o : Order) (ticket : Nat)
  | lineUp (ticket : Nat)
  | leaveLine (ticket : Nat)
  | take
  | wrote
  | handOff
  | writeFailed (fault : IoFault)
  | receive (chunk : Bytes)
  | readLine
  | readFailed (fault : IoFault)
  | readEnd
  | restEnds
  | meetHanded
  | graceEnds
  | delayEnds
  | takeReports
  | takeRaw
  | close
  | stopWriter
  | stopReader
deriving Repr

private def silent (s : Option State) : Option (State × List Event) := s.map fun s => (s, [])

private def one (s : Option (State × Event)) : Option (State × List Event) :=
  s.map fun (s, e) => (s, [e])

/-- What an action that happens at `now` makes of the state; nothing if it cannot happen. -/
def State.step (s : State) (now : Instant) : Action → Option (State × List Event)
  | .enter o ticket =>
      if s.mayEnter ticket && s.isOpen then some (s.enter o ticket now, []) else none
  | .lineUp ticket => some (s.lineUp ticket, [])
  | .leaveLine ticket => some (s.leaveLine ticket, [])
  | .take => silent (s.take now)
  | .wrote => one s.wrote
  | .handOff => silent s.handOff
  | .writeFailed fault => one (s.writeFailed fault)
  | .receive chunk => some (s.receive chunk, [])
  | .readLine => s.readLine now
  | .readFailed fault => one (s.readFailed fault now)
  | .readEnd => s.readEnd now
  | .restEnds => silent s.restEnds
  | .meetHanded => s.meetHanded now
  | .graceEnds => s.graceEnds now
  | .delayEnds => silent s.delayEnds
  | .takeReports => some ({ s with reports := [] }, [])
  | .takeRaw => some ({ s with rawLines := [] }, [])
  | .close => some ({ s with closed := true }, [])
  | .stopWriter => one s.stopWriter
  | .stopReader => one s.stopReader

end BleBridge.Mux
