import BleBridge.Yaml.Node
import BleBridge.Yaml.Plain

/-! # Values of YAML documents -/

namespace BleBridge.Yaml

/-- How deep collections may nest. -/
def depthLimit : Nat := 128

def coreTag (kind : String) : String := "tag:yaml.org,2002:" ++ kind

def isLocalTag (tag : String) : Bool := Text.startsWith tag "!"

/-- A scalar with a tag of the core schema has to be of that kind; any other tag makes it a text. -/
def taggedScalar? (text tag : String) : Option Json :=
  if isLocalTag tag then none
  else if tag = coreTag "bool" then (Plain.bool? text).map .bool
  else if tag = coreTag "int" then (Plain.int? text.toList).map .int
  else if tag = coreTag "float" then
    (Plain.float? text).map fun f => .number (.double f.toBits)
  else if tag = coreTag "null" then if text ≠ "" ∧ Plain.isNull text then some .null else none
  else some (.string text)

def scalar? (text : String) (plain : Bool) : Option String → Option Json
  | some tag => taggedScalar? text tag
  | none => some (if plain then Plain.resolve text else .string text)

namespace Node

/-- The text of a key, which has to be a scalar. -/
def key? : Node → Option String
  | .scalar text _ _ => some text
  | _ => none

mutual

/-- The value of a node that nests at most `depth` deep. Tags of one's own stand for nothing, and
of repeated keys the last one counts. -/
def value? (depth : Nat) : Node → Option Json
  | .scalar text plain tag => scalar? text plain tag
  | .sequence nodes tag =>
      if depth = 0 ∨ tag.any isLocalTag then none else (values? (depth - 1) nodes).map .array
  | .mapping entries tag =>
      if depth = 0 ∨ tag.any isLocalTag then none
      else (members? (depth - 1) entries).map .ofMembers

def values? (depth : Nat) : List Node → Option (List Json)
  | [] => some []
  | n :: rest => do
      let v ← value? depth n
      let vs ← values? depth rest
      return v :: vs

def members? (depth : Nat) : List (Node × Node) → Option (List (String × Json))
  | [] => some []
  | (k, n) :: rest => do
      let key ← k.key?
      let v ← value? depth n
      let vs ← members? depth rest
      return (key, v) :: vs

end

end Node

/-- A text whose document is a mapping; nothing at all counts as one without entries. -/
def mapping? (s : String) : Option Json := do
  match ← document? s with
  | none | some (.scalar "" true _) => return .object []
  | some (.mapping entries _) => Node.value? depthLimit (.mapping entries none)
  | some _ => none

end BleBridge.Yaml
