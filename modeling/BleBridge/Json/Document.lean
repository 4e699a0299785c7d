import BleBridge.Json.Token

/-! # JSON documents

A document is a JSON text whose nesting is known and whose contents have not been judged yet: its
objects keep the written order and repeated keys, and its strings and numbers may stand for
nothing. -/

namespace BleBridge.Json

inductive Document where
  | null
  | bool (b : Bool)
  | number (value : Option Number)
  | string (value : Option String)
  | array (items : List Document)
  | object (members : List (Option String × Document))
deriving Repr

namespace Document

/-- A container under way; what it holds lies in reverse. -/
inductive Frame where
  | array (items : List Document)
  | object (members : List (Option String × Document)) (key : Option String)

/-- What may come next. -/
inductive Turn where
  | value
  | valueOrClose
  | key (members : List (Option String × Document))
  | keyOrClose
  | colon (members : List (Option String × Document)) (key : Option String)
  | afterValue
  | done (document : Document)

structure State where
  turn : Turn
  stack : List Frame

/-- A value has ended. -/
def put (v : Document) : List Frame → State
  | [] => ⟨.done v, []⟩
  | .array items :: outer => ⟨.afterValue, .array (v :: items) :: outer⟩
  | .object members key :: outer => ⟨.afterValue, .object ((key, v) :: members) none :: outer⟩

/-- A token where a value may start. -/
def startValue (stack : List Frame) : Token → Option State
  | .null => some (put .null stack)
  | .bool b => some (put (.bool b) stack)
  | .number n => some (put (.number n) stack)
  | .string s => some (put (.string s) stack)
  | .openArray => some ⟨.valueOrClose, .array [] :: stack⟩
  | .openObject => some ⟨.keyOrClose, stack⟩
  | _ => none

def step (s : State) (t : Token) : Option State :=
  match s.turn, t, s.stack with
  | .value, t, stack => startValue stack t
  | .valueOrClose, .closeArray, .array items :: outer => some (put (.array items.reverse) outer)
  | .valueOrClose, t, stack => startValue stack t
  | .keyOrClose, .closeObject, stack => some (put (.object []) stack)
  | .keyOrClose, .string k, stack => some ⟨.colon [] k, stack⟩
  | .key members, .string k, stack => some ⟨.colon members k, stack⟩
  | .colon members k, .colon, stack => some ⟨.value, .object members k :: stack⟩
  | .afterValue, .comma, .array items :: outer => some ⟨.value, .array items :: outer⟩
  | .afterValue, .closeArray, .array items :: outer => some (put (.array items.reverse) outer)
  | .afterValue, .comma, .object members _ :: outer => some ⟨.key members, outer⟩
  | .afterValue, .closeObject, .object members _ :: outer =>
      some (put (.object members.reverse) outer)
  | _, _, _ => none

def ofTokens (ts : List Token) : Option Document := do
  match (← ts.foldlM step ⟨.value, []⟩).turn with
  | .done v => return v
  | _ => none

def parse (bs : Bytes) : Option Document := do ofTokens (← Token.read bs)

end Document

end BleBridge.Json
