/-! # Spans of time -/

namespace BleBridge

/-- A span of time or a point in it, in milliseconds. -/
abbrev Millis := Nat

/-- A reading of the clock, in nanoseconds. -/
abbrev Instant := Nat

namespace Millis

def nanos (t : Millis) : Nat := t * 1000000

private def threeDigits (n : Nat) : List Char :=
  let digits := (toString n).toList
  List.replicate (3 - digits.length) '0' ++ digits

/-- Seconds from one second on, with the broken part but without closing zeros; else whole
milliseconds. -/
def text (t : Millis) : String :=
  if t = 0 then "0ns"
  else if t < 1000 then s!"{t}ms"
  else if t % 1000 = 0 then s!"{t / 1000}s"
  else
    let broken := ((threeDigits (t % 1000)).reverse.dropWhile (· == '0')).reverse
    s!"{t / 1000}.{String.ofList broken}s"

end Millis

/-- The whole milliseconds of a reading. -/
def Instant.millis (i : Instant) : Millis := i / 1000000

end BleBridge
