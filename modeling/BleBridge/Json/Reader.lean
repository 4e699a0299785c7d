import BleBridge.Json.Document

/-! # Reading JSON values -/

namespace BleBridge.Json

/-- How deep arrays and objects may nest. -/
def depthLimit : Nat := 127

mutual

/-- The value of a document that nests at most `depth` deep. -/
def ofDocument (depth : Nat) : Document → Option Json
  | .null => some .null
  | .bool b => some (.bool b)
  | .number n => n.map .number
  | .string s => s.map .string
  | .array items => if depth = 0 then none else (ofItems (depth - 1) items).map .array
  | .object members => if depth = 0 then none else (ofFields (depth - 1) members).map ofMembers

def ofItems (depth : Nat) : List Document → Option (List Json)
  | [] => some []
  | d :: rest => do
      let v ← ofDocument depth d
      let vs ← ofItems depth rest
      return v :: vs

def ofFields (depth : Nat) : List (Option String × Document) → Option (List (String × Json))
  | [] => some []
  | (key, d) :: rest => do
      let k ← key
      let v ← ofDocument depth d
      let vs ← ofFields depth rest
      return (k, v) :: vs

end

def parse (bs : Bytes) : Option Json := do ofDocument depthLimit (← Document.parse bs)

def parseText (s : String) : Option Json := parse (Text.bytes s)

end BleBridge.Json
