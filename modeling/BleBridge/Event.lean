/-! # Log events -/

namespace BleBridge

inductive Level where
  | trace | debug | info | warn | error
deriving DecidableEq, Repr

def Level.name : Level → String
  | .trace => "TRACE"
  | .debug => "DEBUG"
  | .info => "INFO"
  | .warn => "WARN"
  | .error => "ERROR"

/-- What a component reports while it works. An event without a source names the program. -/
structure Event where
  level : Level
  source : String
  text : String
deriving DecidableEq, Repr

namespace Event

def trace (source text : String) : Event := ⟨.trace, source, text⟩
def debug (source text : String) : Event := ⟨.debug, source, text⟩
def info (source text : String) : Event := ⟨.info, source, text⟩
def warn (source text : String) : Event := ⟨.warn, source, text⟩
def error (source text : String) : Event := ⟨.error, source, text⟩

/-- The message of the event, led by its source. -/
def message (e : Event) : String :=
  if e.source.isEmpty then e.text else "[" ++ e.source ++ "] " ++ e.text

end Event

end BleBridge
