import BleBridge.Config.Sections
import BleBridge.Config.Variable
import BleBridge.Event
import BleBridge.Yaml.Value

/-! # Settings in layers

Defaults come first, then a file, then variables of the environment, and last the unprefixed
variables of older deployments. -/

namespace BleBridge

namespace Json

/-- Replace the member under a key, or add it at the end. -/
def setMember (key : String) (v : Json) : List (String × Json) → List (String × Json)
  | [] => [(key, v)]
  | (k, old) :: rest => if k = key then (k, v) :: rest else (k, old) :: setMember key v rest

mutual

/-- One value over another: objects are united key by key, and everything else is replaced. -/
def upon : Json → Json → Json
  | .object top, .object bottom => .object (uponMembers top bottom)
  | top, _ => top

def uponMembers : List (String × Json) → List (String × Json) → List (String × Json)
  | [], bottom => bottom
  | (key, v) :: rest, bottom =>
      let merged := match bottom.lookup key with
        | some old => upon v old
        | none => v
      uponMembers rest (setMember key merged bottom)

end

end Json

namespace Config

/-- What stands at the path of the settings file. -/
inductive Source where
  /-- No path was given. -/
  | unnamed
  | missing (path : String)
  /-- Something that is no file, such as a directory. -/
  | unreadable (path : String)
  /-- A file whose bytes are no text. -/
  | garbled (path : String)
  | file (path text : String)
deriving DecidableEq, Repr

namespace Source

def events : Source → List Event
  | unnamed => []
  | missing path =>
      [.info "" ("Configuration file " ++ path ++ " not found, using defaults")]
  | unreadable path | garbled path | file path _ =>
      [.info "" ("Loading configuration from " ++ path)]

/-- The settings of the file, if it is well-formed. -/
def settings? : Source → Option Json
  | file _ text => Yaml.mapping? text
  | garbled _ => none
  | _ => some (.object [])

end Source

def unreadable : BridgeError := .config "Failed to extract configuration:"

def sectionSizes : List (String × Nat) :=
  [("serial", Serial.form.fields.length), ("mqtt", Mqtt.form.fields.length),
    ("mux", Mux.form.fields.length), ("link", Link.form.fields.length),
    ("ble", Peripheral.form.fields.length), ("topics", Topics.form.fields.length),
    ("logging", Logging.form.fields.length)]

/-- Of an object that stands for a word, the first key counts. -/
def firstKey : Json → Json
  | .object (member :: _) => .object [member]
  | v => v

/-- Layers may say too much: a section given by position ends with its last field, and what a field
holds is one word at most. -/
def trimSection (name : String) : Json → Json
  | .array items => .array ((items.take ((sectionSizes.lookup name).getD 0)).map firstKey)
  | .object members => .object (members.map fun (key, v) => (key, firstKey v))
  | v => v

def trimSections : Json → Json
  | .object members => .object (members.map fun (name, v) => (name, trimSection name v))
  | v => v

def ofLayers? (layers : List Json) : Option Config :=
  form.read (trimSections (layers.foldl (fun bottom top => top.upon bottom) (form.write {})))

/-- The settings of a text alone. -/
def parse (text : String) : Except BridgeError Config := do
  match (Yaml.mapping? text).bind fun layer => ofLayers? [layer] with
  | none => throw (.config "")
  | some c =>
      c.validate
      return c

def loadedEvent (c : Config) : Event := .debug "" ("Configuration loaded: " ++ form.display c)

/-- The variables of ours, one over the other. -/
def overrides (env : List (String × String)) : Json :=
  (env.filterMap Variable.setting?).foldl (fun bottom top => top.upon bottom) (.object [])

def fromLayers (source : Source) (env : List (String × String)) : Except BridgeError Config := do
  match source.settings?.bind fun layer => ofLayers? [layer, overrides env] with
  | none => throw unreadable
  | some c =>
      let c := c.overriddenBy (env.lookup ·)
      c.validate
      return c

/-- Load the settings; tells on the way what it does. -/
def load (source : Source) (env : List (String × String)) :
    Except BridgeError Config × List Event :=
  match fromLayers source env with
  | .ok c => (.ok c, source.events ++ [loadedEvent c])
  | .error e => (.error e, source.events)

end Config

end BleBridge
