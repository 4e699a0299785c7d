import BleBridge.Json.Reader

/-! # Raw readings: lines of the peripheral with their time -/

namespace BleBridge.Service

structure RawReading where
  /-- Nanoseconds since the beginning of 1970. -/
  timestamp : Int
  data : String
deriving DecidableEq, Repr

namespace RawReading

def toJson (r : RawReading) : Json :=
  .ofMembers [("Timestamp", .int r.timestamp), ("Data", .string r.data)]

def text (r : RawReading) : String :=
  (Json.object [("Timestamp", .int r.timestamp), ("Data", .string r.data)]).text

private def timestampOf? : Json.Document → Option Int
  | .number (some n) => n.toInt64?
  | _ => none

private def dataOf? : Json.Document → Option String
  | .string s => s
  | _ => none

/-- Both members are needed, each once; others are passed over. -/
def ofNamed (timestamp : Option Int) (data : Option String) :
    List (Option String × Json.Document) → Option RawReading
  | [] => do return ⟨← timestamp, ← data⟩
  | (key, d) :: rest => do
      let key ← key
      if key = "Timestamp" then
        if timestamp.isSome then none else ofNamed (some (← timestampOf? d)) data rest
      else if key = "Data" then
        if data.isSome then none else ofNamed timestamp (some (← dataOf? d)) rest
      else ofNamed timestamp data rest

def ofDocument? : Json.Document → Option RawReading
  | .object members => ofNamed none none members
  | .array [timestamp, data] => do return ⟨← timestampOf? timestamp, ← dataOf? data⟩
  | _ => none

def parse (s : String) : Option RawReading :=
  (Json.Document.parse (Text.bytes s)).bind ofDocument?

end RawReading

end BleBridge.Service
