import BleBridge.Json.Value

/-! # Members of an object by kind -/

namespace BleBridge.Json

def asInt? : Json → Option Int
  | .number (.int n) => some n
  | _ => none

def asNat? (v : Json) : Option Nat := v.asInt?.bind Int.toNat?

def asBool? : Json → Option Bool
  | .bool b => some b
  | _ => none

/-- The member under a key, where null counts as absent. -/
def present? (v : Json) (key : String) : Option Json := (v.get? key).filter (· != .null)

def text? (v : Json) (key : String) : Option String := (v.get? key).bind asString?

def int? (v : Json) (key : String) : Option Int := (v.get? key).bind asInt?

def nat? (v : Json) (key : String) : Option Nat := (v.get? key).bind asNat?

def items? (v : Json) (key : String) : Option (List Json) := (v.get? key).bind asArray?

def texts? (v : Json) (key : String) : Option (List String) :=
  (v.items? key).bind (·.mapM asString?)

/-- A member of the right kind; another value if it is absent. -/
def orElse? {α : Type} (read : Json → Option α) (v : Json) (key : String) (absent : α) :
    Option α :=
  match v.present? key with
  | none => some absent
  | some member => read member

/-- A member of the right kind, if it is there at all. -/
def maybe? {α : Type} (read : Json → Option α) (v : Json) (key : String) : Option (Option α) :=
  orElse? (fun member => (read member).map some) v key none

def natOr? : Json → String → Nat → Option Nat := orElse? asNat?

def textOr? : Json → String → String → Option String := orElse? asString?

def boolOr? : Json → String → Bool → Option Bool := orElse? asBool?

end BleBridge.Json
