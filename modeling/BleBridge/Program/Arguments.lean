import BleBridge.Text.Search

/-! # Arguments of the program -/

namespace BleBridge.Program

structure Arguments where
  config : String := "config/blesrv.yaml"
  logLevel : Option String := none
  debug : Bool := false
  noColor : Bool := false
  validate : Bool := false
deriving DecidableEq, Repr, Inhabited

/-- Why arguments give nothing to run. -/
inductive Stop where
  | displayHelp | displayVersion
  /-- A value is missing, or empty where it may not be. -/
  | invalidValue
  | unknownArgument
  /-- An argument is given twice. -/
  | argumentConflict
  /-- A switch is given a value. -/
  | tooManyValues
deriving DecidableEq, Repr

/-- Options that take a value. -/
inductive Setting where
  | config | logLevel
deriving DecidableEq, Repr

inductive Switch where
  | debug | noColor | validate | help | version
deriving DecidableEq, Repr

inductive Known where
  | setting (s : Setting)
  | switch (s : Switch)
deriving DecidableEq, Repr

namespace Known

def ofLong? : String → Option Known
  | "config" => some (.setting .config)
  | "log-level" => some (.setting .logLevel)
  | "debug" => some (.switch .debug)
  | "no-color" => some (.switch .noColor)
  | "validate" => some (.switch .validate)
  | "help" => some (.switch .help)
  | "version" => some (.switch .version)
  | _ => none

def ofShort? : Char → Option Known
  | 'c' => some (.setting .config)
  | 'l' => some (.setting .logLevel)
  | 'd' => some (.switch .debug)
  | 'h' => some (.switch .help)
  | 'V' => some (.switch .version)
  | _ => none

end Known

/-- Arguments while they are read. -/
structure Reading where
  done : Arguments := {}
  configGiven : Bool := false
  /-- An option whose value is to come. -/
  awaited : Option Setting := none
  /-- An option with a value that has not been looked at. -/
  pending : Option (Setting × String) := none
deriving DecidableEq, Repr

namespace Reading

def configPut (r : Reading) (v : String) : Except Stop Reading :=
  if v.isEmpty then .error .invalidValue
  else .ok { r with done := { r.done with config := v }, configGiven := true }

/-- Give a setting its value. A path may not be empty. -/
def put (r : Reading) (s : Setting) (v : String) : Except Stop Reading :=
  match s with
  | .config => if r.configGiven then .error .argumentConflict else r.configPut v
  | .logLevel =>
      if r.done.logLevel.isSome then .error .argumentConflict
      else .ok { r with done := { r.done with logLevel := some v } }

/-- Look at what the arguments before left. -/
def settle (r : Reading) : Except Stop Reading :=
  match r.awaited, r.pending with
  | some _, _ => .error .invalidValue
  | none, some (s, v) => { r with pending := none }.put s v
  | none, none => .ok r

def turnOn (r : Reading) (s : Switch) : Except Stop Reading := do
  let r ← r.settle
  let a := r.done
  match s with
  | .debug =>
      if a.debug then .error .argumentConflict else .ok { r with done := { a with debug := true } }
  | .noColor =>
      if a.noColor then .error .argumentConflict
      else .ok { r with done := { a with noColor := true } }
  | .validate =>
      if a.validate then .error .argumentConflict
      else .ok { r with done := { a with validate := true } }
  | .help => .error .displayHelp
  | .version => .error .displayVersion

/-- An option with a value of its own, or with one that is to come. -/
def set (r : Reading) (s : Setting) : Option String → Except Stop Reading
  | some v => do (← r.settle).put s v
  | none => do return { ← r.settle with awaited := some s }

/-- A cluster of short options. One that takes a value takes the rest of the cluster. -/
def short (r : Reading) : List Char → Except Stop Reading
  | [] => .ok r
  | c :: rest =>
      match Known.ofShort? c with
      | none => .error .unknownArgument
      | some (.switch s) => do short (← r.turnOn s) rest
      | some (.setting s) =>
          match rest with
          | [] => r.set s none
          | '=' :: v => r.set s (some (String.ofList v))
          | v => r.set s (some (String.ofList v))

def long (r : Reading) (name : String) (v : Option String) : Except Stop Reading :=
  match Known.ofLong? name, v with
  | none, _ => .error .unknownArgument
  | some (.setting s), v => r.set s v
  | some (.switch _), some _ => .error .tooManyValues
  | some (.switch s), none => r.turnOn s

/-- Something that is no option: the value of one, or else unknown. -/
def word (r : Reading) (text : String) : Except Stop Reading :=
  match r.awaited with
  | some s => .ok { r with awaited := none, pending := some (s, text) }
  | none => .error .unknownArgument

/-- A name with an optional value behind an equals sign. -/
def splitValue (cs : List Char) : String × Option String :=
  match Text.cut? ['='] cs with
  | some (name, v) => (String.ofList name, some (String.ofList v))
  | none => (String.ofList cs, none)

/-- Read the arguments. Behind two dashes nothing but words may stand, of which there are none. -/
def all (r : Reading) : List String → Except Stop Reading
  | [] => r.settle
  | arg :: rest =>
      match arg.toList with
      | ['-', '-'] => if rest.isEmpty then r.settle else .error .unknownArgument
      | '-' :: '-' :: cs => do
          let (name, v) := splitValue cs
          all (← r.long name v) rest
      | '-' :: c :: cs => do all (← r.short (c :: cs)) rest
      | _ => do all (← r.word arg) rest

end Reading

namespace Arguments

/-- Read the arguments behind the name of the program. -/
def parse (args : List String) : Except Stop Arguments := do return (← Reading.all {} args).done

/-- The level of the log: that of debugging, or else the argument, or else the settings. -/
def effectiveLevel (a : Arguments) (configured : String) : String :=
  if a.debug then "debug" else a.logLevel.getD configured

end Arguments

end BleBridge.Program
