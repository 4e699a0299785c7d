import BleBridge.Event
import BleBridge.Text.Hex

/-! # Lines of the log

A line tells the time, the level and the message of an event. On a console the level may be
coloured. Messages cannot steer the console: characters that could are written by their numbers. -/

namespace BleBridge.Program

def colour : Level → String
  | .trace => "35"
  | .debug => "34"
  | .info => "32"
  | .warn => "33"
  | .error => "31"

def tag (coloured : Bool) (level : Level) : String :=
  let name := "[" ++ level.name ++ "]"
  if coloured then "\x1b[" ++ colour level ++ "m" ++ name ++ "\x1b[0m" else name

/-- Bell, backspace, form feed, escape and delete. -/
def steering : List Char := ['\x07', '\x08', '\x0C', '\x1B', '\x7F']

def inert (c : Char) : List Char :=
  let digits := Text.hexOfBytes [UInt8.ofNat c.toNat]
  if steering.contains c then ("\\x" ++ digits).toList
  else if 0x80 ≤ c.toNat ∧ c.toNat ≤ 0x9F then ("\\u\x7b" ++ digits ++ "\x7d").toList
  else [c]

def line (coloured : Bool) (time : String) (e : Event) : String :=
  time ++ " " ++ tag coloured e.level ++ " " ++
    String.ofList (e.message.toList.flatMap inert) ++ "\n"

end BleBridge.Program
