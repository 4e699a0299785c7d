import BleBridge.Program.Run
import Std.Time.DateTime

/-! # The program

Here a run gets its surroundings: the environment, the files and the clock of the machine. Serial
ports are looked for, but the program has no driver for those that it finds. -/

namespace BleBridge.Machine

/-- What went wrong, as the machine words it. -/
def faultText : IO.Error → String × Option UInt32
  | .noFileOrDirectory _ code details => (details, some code)
  | .alreadyExists _ code details => (details, some code)
  | .inappropriateType _ code details => (details, some code)
  | .permissionDenied _ code details => (details, some code)
  | .invalidArgument _ code details => (details, some code)
  | .resourceExhausted _ code details => (details, some code)
  | .otherError code details => (details, some code)
  | e => (e.toString, none)

def faultReport (e : IO.Error) : String :=
  match faultText e with
  | (details, some code) => s!"{details} (os error {code})"
  | (details, none) => details

/-- A variable, as the environment holds it. -/
def entry? (cs : List UInt8) : Option (String × String) := do
  let (name, value) ← Text.cut? "=".toUTF8.toList cs
  return (← Text.ofBytes? name, ← Text.ofBytes? value)

def readVariables : IO (List (String × String)) := do
  let bytes ← IO.FS.readBinFile "/proc/self/environ"
  return (Text.splitAt [0] bytes.toList).filterMap entry?

def readSettings (path : String) : IO Config.Source := do
  try
    let bytes ← IO.FS.readBinFile path
    return match Text.ofBytes? bytes.toList with
      | some text => .file path text
      | none => .garbled path
  catch
    | .noFileOrDirectory .. => return .missing path
    | _ => return .unreadable path

/-- The path without its last part. -/
def above (path : String) : String :=
  let parts := Text.splitAt ['/'] path.toList
  String.ofList (List.intercalate ['/'] parts.dropLast)

/-- Make a directory, and those above it if they are missing. -/
partial def makeDirectory (path : String) : IO (Option String) := do
  if path.isEmpty then return none
  try
    IO.FS.createDir path
    return none
  catch
    | .noFileOrDirectory .. =>
        match ← makeDirectory (above path) with
        | some fault => return some fault
        | none => makeDirectory path
    | e =>
        try
          IO.FS.createDirAll path
          return none
        catch _ => return some (faultReport e)

def portFault (port : String) : IO String := do
  try
    let _ ← IO.FS.Handle.mk port .readWrite
    return "Not a typewriter"
  catch e => return (faultText e).1

def padded (width n : Nat) : String :=
  let digits := toString n
  String.ofList (List.replicate (width - digits.length) '0') ++ digits

/-- The day and the time of day, to the millionth of a second. -/
def readClock : IO (String × String) := do
  let t := Std.Time.PlainDateTime.ofWallTime ((← Std.Time.Timestamp.now).toWallTime .zero)
  let pair := fun n : Int => padded 2 n.toNat
  let day := s!"{padded 4 t.year.toInt.toNat}-{pair t.month.val}-{pair t.day.val}"
  let micros := padded 6 (t.nanosecond.val.toNat / 1000)
  return (day, s!"{pair t.hour.val}:{pair t.minute.val}:{pair t.second.val}.{micros}Z")

def surroundings : Program.Surroundings IO where
  environment := readVariables
  settingsAt := readSettings
  makeDirectory := makeDirectory
  portFault := portFault
  time := do
    let (day, time) ← readClock
    return day ++ "T" ++ time

/-- Add to the log file of the day. -/
def writeLog (directory text : String) : IO Unit := do
  let name := Program.logName ++ (← readClock).1
  let path := if directory.isEmpty then name else directory ++ "/" ++ name
  IO.FS.withFile path .append fun file => file.putStr text

end BleBridge.Machine

/-- Run, and put out what came of it. -/
def main (args : List String) : IO UInt32 := do
  let o ← BleBridge.Program.run BleBridge.Machine.surroundings args
  IO.print o.out
  if let some (directory, text) := o.log then BleBridge.Machine.writeLog directory text
  IO.eprint o.err
  return UInt32.ofNat o.exit
