import BleBridge.Program.Run

/-! # Files on the bench

A path is the list of its parts, seen from the directory of the run. -/

namespace BleBridge.Bench

abbrev Path := List String

structure Disk where
  directories : List Path := []
  files : List (Path × String) := []
deriving DecidableEq, Repr

/-- Why a path leads nowhere. -/
inductive PathFault where
  | absent | noDirectory | taken
deriving DecidableEq, Repr

def PathFault.message : PathFault → String
  | absent => "No such file or directory (os error 2)"
  | noDirectory => "Not a directory (os error 20)"
  | taken => "File exists (os error 17)"

namespace Disk

def isDirectory (d : Disk) (p : Path) : Bool := p.isEmpty || d.directories.contains p

/-- The parts of a written path; the root is a part of its own. -/
def partsOf (path : String) : List String :=
  let parts := (Text.splitAt ['/'] path.toList).map String.ofList
  if path.startsWith "/" then "/" :: parts.drop 1 else parts

/-- Go one part further. Only directories lead further. -/
def step (d : Disk) (here : Path) (part : String) : Except PathFault Path :=
  if d.isDirectory here then
    .ok (if part = ".." then here.dropLast
      else if part = "." ∨ part = "" then here
      else here ++ [part])
  else .error (if (d.files.lookup here).isSome then .noDirectory else .absent)

def find (d : Disk) (path : String) : Except PathFault Path := (partsOf path).foldlM d.step []

/-- Make the directories of a path, as far as they are missing. -/
def makeParts (d : Disk) (here : Path) : List String → Except PathFault Disk
  | [] => .ok d
  | part :: rest => do
      let here ← d.step here part
      if d.isDirectory here then d.makeParts here rest
      else if (d.files.lookup here).isSome then
        .error (if rest.all (· == "") then .taken else .noDirectory)
      else makeParts { d with directories := here :: d.directories } here rest

def makeDirectory (d : Disk) (path : String) : Except PathFault Disk :=
  d.makeParts [] (partsOf path)

/-- Put a file into a directory. -/
def write (d : Disk) (directory name text : String) : Disk :=
  match d.find directory with
  | .ok p => { d with files := (p ++ [name], text) :: d.files.filter (·.1 ≠ p ++ [name]) }
  | .error _ => d

/-- The files of a directory with their texts, by name. -/
def filesIn (d : Disk) (directory : String) : List (String × String) :=
  match d.find directory with
  | .ok p =>
      let here := d.files.filter fun (q, _) => !q.isEmpty && q.dropLast == p
      (here.map fun (q, text) => (q.getLastD "", text)).mergeSort (fun a b => a.1 ≤ b.1)
  | .error _ => []

/-- Directories, and a file where one is to be with the directories above it. -/
def beside (directories : List String) (path : String) (text : Option String) : Disk :=
  let d : Disk := { directories := directories.map ([·]) }
  match text with
  | none => d
  | some text =>
      let parts := partsOf path
      let d := (d.makeParts [] parts.dropLast).toOption.getD d
      d.write (String.intercalate "/" parts.dropLast) (parts.getLastD "") text

/-- What stands where settings are looked for. -/
def settingsAt (d : Disk) (path : String) : Config.Source :=
  match d.find path with
  | .error _ => .missing path
  | .ok p =>
      match d.files.lookup p with
      | some text => .file path text
      | none => if d.isDirectory p then .unreadable path else .missing path

end Disk

/-- A run over a disk, with no serial port anywhere. -/
def surroundings (env : List (String × String)) (time : String) :
    Program.Surroundings (StateM Disk) where
  environment := return env
  settingsAt path := return (← get).settingsAt path
  makeDirectory path := do
    match (← get).makeDirectory path with
    | .ok d =>
        set d
        return none
    | .error fault => return some fault.message
  portFault _ := return Config.Serial.missing
  time := return time

/-- Run the program on a disk. The log file has its name without a date. -/
def Disk.run (d : Disk) (env : List (String × String)) (time : String)
    (args : List String) : Program.Outcome × Disk :=
  let (o, d) := (Program.run (surroundings env time) args).run d
  match o.log with
  | none => (o, d)
  | some (directory, text) => (o, d.write directory Program.logName text)

end BleBridge.Bench
