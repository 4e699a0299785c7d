import BleBridge.BridgeError
import BleBridge.Json.Reader

/-! # Envelopes

The JSON object around every message on the bus. The request id ties a response to its request;
the correlation id is for tracing only. -/

namespace BleBridge.Bus

structure Envelope where
  apiVersion : String
  requestId : String
  correlationId : String
  errorCode : Int
  payload : Json
  contentType : String
  /-- The topic on which the envelope came; no part of its text. -/
  receivedTopic : String
deriving Repr, BEq

namespace Envelope

def blank : Envelope := ⟨"", "", "", 0, .null, "", ""⟩

/-- An envelope under given ids. -/
def new (requestId correlationId : String) (payload : Json) : Envelope :=
  { apiVersion := "v3", requestId, correlationId, errorCode := 0, payload,
    contentType := "application/json", receivedTopic := "" }

/-- The written members, in their order. -/
def members (e : Envelope) : List (String × Json) :=
  [("apiVersion", .string e.apiVersion), ("requestID", .string e.requestId),
    ("correlationID", .string e.correlationId), ("errorCode", .int e.errorCode),
    ("payload", e.payload), ("contentType", .string e.contentType)]

def text (e : Envelope) : String := (Json.object e.members).text

def toBytes (e : Envelope) : Bytes := (Json.object e.members).bytes

/-- The envelope as a value, with its members in the order of values. -/
def toJson (e : Envelope) : Json := .ofMembers e.members

inductive Field where
  | apiVersion | requestId | correlationId | errorCode | payload | contentType
deriving DecidableEq, Repr

namespace Field

def name : Field → String
  | apiVersion => "apiVersion"
  | requestId => "requestID"
  | correlationId => "correlationID"
  | errorCode => "errorCode"
  | payload => "payload"
  | contentType => "contentType"

def all : List Field :=
  [apiVersion, requestId, correlationId, errorCode, payload, contentType]

def ofName? (key : String) : Option Field := all.find? (·.name == key)

end Field

def leastCode : Int := -0x80000000
def mostCode : Int := 0x7FFFFFFF

private def stringOf? : Json.Document → Option String
  | .string s => s
  | _ => none

private def codeOf? : Json.Document → Option Int
  | .number (some (.int n)) => if leastCode ≤ n ∧ n ≤ mostCode then some n else none
  | _ => none

/-- Set a field from what was written for it. -/
def set? (e : Envelope) (d : Json.Document) : Field → Option Envelope
  | .apiVersion => (stringOf? d).map fun s => { e with apiVersion := s }
  | .requestId => (stringOf? d).map fun s => { e with requestId := s }
  | .correlationId => (stringOf? d).map fun s => { e with correlationId := s }
  | .errorCode => (codeOf? d).map fun n => { e with errorCode := n }
  | .payload => (Json.ofDocument (Json.depthLimit - 1) d).map fun v => { e with payload := v }
  | .contentType => (stringOf? d).map fun s => { e with contentType := s }

/-- Unknown members are passed over unseen; a known one may stand once only. -/
def ofNamed (e : Envelope) (seen : List Field) :
    List (Option String × Json.Document) → Option Envelope
  | [] => some e
  | (key, d) :: rest => do
      match Field.ofName? (← key) with
      | none => ofNamed e seen rest
      | some field =>
          if field ∈ seen then none
          else ofNamed (← e.set? d field) (field :: seen) rest

/-- Fields by position; missing ones at the end keep their blanks. -/
def ofPositions (e : Envelope) : List Field → List Json.Document → Option Envelope
  | _, [] => some e
  | [], _ :: _ => none
  | field :: fields, d :: rest => do ofPositions (← e.set? d field) fields rest

def ofDocument? : Json.Document → Option Envelope
  | .object members => ofNamed blank [] members
  | .array items => ofPositions blank Field.all items
  | _ => none

/-- Read an envelope that came on `topic`. -/
def ofBytes (topic : String) (bs : Bytes) : Except BridgeError Envelope :=
  match (Json.Document.parse bs).bind ofDocument? with
  | some e => .ok { e with receivedTopic := topic }
  | none => .error (.serialization ("invalid envelope on " ++ topic ++ ":"))

/-- The payload; a string payload is read as the text of a value. -/
def payloadJson (e : Envelope) : Except BridgeError Json :=
  match e.payload with
  | .string s =>
      match Json.parseText s with
      | some v => .ok v
      | none => .error (.serialization "payload string is not JSON:")
  | v => .ok v

end Envelope

end BleBridge.Bus
