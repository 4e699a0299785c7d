import BleBridge.Json.Value
import BleBridge.Text.Quoted

/-! # Forms of settings

A form tells how values of a type are read, written and displayed. A section is a form with named
fields. -/

namespace BleBridge.Config

structure Form (α : Type) where
  read : Json → Option α
  write : α → Json
  display : α → String

namespace Form

def text : Form String where
  read := Json.asString?
  write := .string
  display := Text.quote

/-- Whole numbers of so many bits. -/
def word (bits : Nat) : Form Nat where
  read
    | .number (.int n) => if 0 ≤ n ∧ n < Nat.pow 2 bits then some n.toNat else none
    | _ => none
  write n := .nat n
  display := toString

def flag : Form Bool where
  read
    | .bool b => some b
    | _ => none
  write := .bool
  display := toString

/-- Null stands for nothing. -/
def optional {α : Type} (f : Form α) : Form (Option α) where
  read
    | .null => some none
    | v => (f.read v).map some
  write
    | none => .null
    | some a => f.write a
  display
    | none => "None"
    | some a => "Some(" ++ f.display a ++ ")"

def list {α : Type} (f : Form α) : Form (List α) where
  read
    | .array items => items.mapM f.read
    | _ => none
  write as := .array (as.map f.write)
  display as := "[" ++ String.intercalate ", " (as.map f.display) ++ "]"

end Form

/-- A named part of a section of type `σ`. -/
structure Field (σ : Type) where
  name : String
  set : σ → Json → Option σ
  write : σ → Json
  display : σ → String

def field {σ α : Type} (name : String) (form : Form α) (get : σ → α) (put : σ → α → σ) :
    Field σ where
  name
  set s v := (form.read v).map (put s)
  write s := form.write (get s)
  display s := form.display (get s)

structure Section (σ : Type) where
  title : String
  defaults : σ
  fields : List (Field σ)

namespace Section

variable {σ : Type}

def setNamed (s : Section σ) (base : σ) (member : String × Json) : Option σ :=
  match s.fields.find? (·.name == member.1) with
  | none => some base
  | some f => f.set base member.2

/-- Values by position; more of them than fields are refused. -/
def setPositions (base : σ) : List (Field σ) → List Json → Option σ
  | _, [] => some base
  | [], _ :: _ => none
  | f :: fields, v :: rest => do setPositions (← f.set base v) fields rest

/-- Fields by name or by position. What is not set keeps its default, and what is not known is
passed over. -/
def read (s : Section σ) : Json → Option σ
  | .object members => members.foldlM s.setNamed s.defaults
  | .array items => setPositions s.defaults s.fields items
  | _ => none

/-- An object with the fields in their order. -/
def write (s : Section σ) (a : σ) : Json := .object (s.fields.map fun f => (f.name, f.write a))

def display (s : Section σ) (a : σ) : String :=
  s.title ++ " \x7b " ++
    String.intercalate ", " (s.fields.map fun f => f.name ++ ": " ++ f.display a) ++ " \x7d"

def form (s : Section σ) : Form σ := ⟨s.read, s.write, s.display⟩

end Section

end BleBridge.Config
