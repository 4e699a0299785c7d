import BleBridge.Yaml.Token

/-! # Nodes of a YAML document -/

namespace BleBridge.Yaml

/-- Tags stand in full; a node without one has none. -/
inductive Node where
  | scalar (text : String) (plain : Bool) (tag : Option String)
  | sequence (items : List Node) (tag : Option String)
  | mapping (entries : List (Node × Node)) (tag : Option String)
deriving Repr

namespace Node

/-- What stands where nothing is written. -/
def blank : Node := .scalar "" true none

def retag (tag : Option String) : Node → Node
  | .scalar text plain _ => .scalar text plain tag
  | .sequence items _ => .sequence items tag
  | .mapping entries _ => .mapping entries tag

end Node

/-- A reader of nodes. An anchor without a node is still open. -/
structure Composer where
  rest : List Token
  anchors : List (String × Option Node) := []
  handles : List (String × String) := []
deriving Repr

namespace Composer

def next (c : Composer) : Composer := { c with rest := c.rest.tail }

def head? (c : Composer) : Option Token := c.rest.head?

def isAt (c : Composer) (ts : List Token) : Bool :=
  match c.head? with
  | some t => ts.contains t
  | none => false

/-- Pass over a token that has to be there. -/
def expect (c : Composer) (t : Token) : Option Composer :=
  if c.isAt [t] then some c.next else none

def defaultHandles : List (String × String) := [("!", "!"), ("!!", "tag:yaml.org,2002:")]

/-- A tag in full; its handle has to be known. -/
def fullTag? (c : Composer) (handle suffix : String) : Option String :=
  if handle.isEmpty then some suffix
  else ((c.handles ++ defaultHandles).lookup handle).map (· ++ suffix)

/-- What may stand before a node: an anchor and a tag, in any order. -/
structure Properties where
  anchor : Option String := none
  tag : Option String := none
deriving DecidableEq, Repr

def isBare (p : Properties) : Bool := p.anchor.isNone && p.tag.isNone

def properties : Nat → Properties → Composer → Option (Properties × Composer)
  | 0, p, c => some (p, c)
  | fuel + 1, p, c =>
      match c.head?, p with
      | some (.anchor name), ⟨none, tag⟩ => properties fuel ⟨some name, tag⟩ c.next
      | some (.tag handle suffix), ⟨anchor, none⟩ => do
          properties fuel ⟨anchor, ← c.fullTag? handle suffix⟩ c.next
      | _, p => some (p, c)

/-- Note that a node has begun; gives the place of its anchor. -/
def openAnchor (c : Composer) : Option String → Composer × Option Nat
  | none => (c, none)
  | some name =>
      ({ c with anchors := c.anchors ++ [(name, none)] }, some c.anchors.length)

def closeAnchor (c : Composer) (place : Option Nat) (node : Node) : Composer :=
  match place with
  | none => c
  | some n => { c with anchors := c.anchors.modify n fun a => (a.1, some node) }

/-- The node of the last anchor of that name, which has to be complete. -/
def resolve? (c : Composer) (name : String) : Option Node :=
  (c.anchors.reverse.lookup name).join

mutual

/-- Read a node. Outside brackets (`block`) it may be a collection by indentation, and as part of a
mapping (`indentless`) a sequence that is not indented. -/
def node (block indentless : Bool) : Nat → Composer → Option (Node × Composer)
  | 0, _ => none
  | fuel + 1, c => do
      if let some (.alias name) := c.head? then
        return (← c.resolve? name, c.next)
      let (p, c) ← properties 2 {} c
      let (c, place) := c.openAnchor p.anchor
      let (n, c) ← content block indentless (isBare p) fuel c
      let n := n.retag p.tag
      return (n, c.closeAnchor place n)

def content (block indentless bare : Bool) : Nat → Composer → Option (Node × Composer)
  | 0, _ => none
  | fuel + 1, c =>
      match c.head? with
      | some (.scalar text plain) => some (.scalar text plain none, c.next)
      | some .openSequence => do
          let (items, c) ← flowItems true fuel c.next
          return (.sequence items none, c)
      | some .openMapping => do
          let (entries, c) ← flowEntries true fuel c.next
          return (.mapping entries none, c)
      | some .openBlockSequence =>
          if block then do
            let (items, c) ← items fuel c.next
            return (.sequence items none, ← c.expect .closeBlock)
          else orBlank bare c
      | some .openBlockMapping =>
          if block then do
            let (entries, c) ← entries fuel c.next
            return (.mapping entries none, ← c.expect .closeBlock)
          else orBlank bare c
      | some .item =>
          if indentless then do
            let (items, c) ← items fuel c
            return (.sequence items none, c)
          else orBlank bare c
      | _ => orBlank bare c

/-- An anchor or a tag alone stands for a blank node. -/
def orBlank (bare : Bool) (c : Composer) : Option (Node × Composer) :=
  if bare then none else some (.blank, c)

/-- Items with a dash each. -/
def items : Nat → Composer → Option (List Node × Composer)
  | 0, _ => none
  | fuel + 1, c =>
      if c.isAt [.item] then do
        let (n, c) ← blankBefore [.item, .key, .value, .closeBlock] true false fuel c.next
        let (rest, c) ← items fuel c
        return (n :: rest, c)
      else some ([], c)

/-- A node, or a blank one before one of these tokens. -/
def blankBefore (ends : List Token) (block indentless : Bool) :
    Nat → Composer → Option (Node × Composer)
  | 0, _ => none
  | fuel + 1, c => if c.isAt ends then some (.blank, c) else node block indentless fuel c

/-- Entries of a mapping outside brackets. -/
def entries : Nat → Composer → Option (List (Node × Node) × Composer)
  | 0, _ => none
  | fuel + 1, c =>
      if c.isAt [.key] then do
        let ends := [Token.key, .value, .closeBlock]
        let (k, c) ← blankBefore ends true true fuel c.next
        let (v, c) ←
          if c.isAt [.value] then blankBefore ends true true fuel c.next else some (.blank, c)
        let (rest, c) ← entries fuel c
        return ((k, v) :: rest, c)
      else some ([], c)

/-- The value of an entry in brackets, if one is written. -/
def flowValue (close : Token) : Nat → Composer → Option (Node × Composer)
  | 0, _ => none
  | fuel + 1, c =>
      if c.isAt [.value] then blankBefore [.comma, close] false false fuel c.next
      else some (.blank, c)

/-- The items up to the closing bracket. An item may be a single entry. -/
def flowItems (first : Bool) : Nat → Composer → Option (List Node × Composer)
  | 0, _ => none
  | fuel + 1, c =>
      if c.isAt [.closeSequence] then some ([], c.next)
      else do
        let c ← if first then some c else c.expect .comma
        if c.isAt [.closeSequence] then return ([], c.next)
        let (n, c) ←
          if c.isAt [.key] then do
            let (k, c) ←
              blankBefore [.value, .comma, .closeSequence] false false fuel c.next
            let (v, c) ← flowValue .closeSequence fuel c
            some (Node.mapping [(k, v)] none, c)
          else node false false fuel c
        let (rest, c) ← flowItems false fuel c
        return (n :: rest, c)

/-- The entries up to the closing brace. -/
def flowEntries (first : Bool) : Nat → Composer → Option (List (Node × Node) × Composer)
  | 0, _ => none
  | fuel + 1, c =>
      if c.isAt [.closeMapping] then some ([], c.next)
      else do
        let c ← if first then some c else c.expect .comma
        if c.isAt [.closeMapping] then return ([], c.next)
        let (entry, c) ←
          if c.isAt [.key] then do
            let (k, c) ← blankBefore [.value, .comma, .closeMapping] false false fuel c.next
            let (v, c) ← flowValue .closeMapping fuel c
            some ((k, v), c)
          else do
            let (k, c) ← node false false fuel c
            some ((k, .blank), c)
        let (rest, c) ← flowEntries false fuel c
        return (entry :: rest, c)

end

/-! ## Documents -/

/-- Read directives: at most one version, which has to be known, and shorthands, each handle
once. -/
def directives (versions : Nat) : List Token → List (String × String) →
    Option (List (String × String) × List Token)
  | .version major minor :: rest, handles =>
      if versions = 0 ∧ major.toNat? = some 1 ∧ (minor.toNat? = some 1 ∨ minor.toNat? = some 2)
      then directives 1 rest handles
      else none
  | .shorthand handle lead :: rest, handles =>
      if (handles.lookup handle).isSome then none
      else directives versions rest (handles ++ [(handle, lead)])
  | rest, handles => some (handles, rest)

def isDirective : Token → Bool
  | .version _ _ | .shorthand _ _ => true
  | _ => false

/-- The markers behind a document. -/
def afterDocument (rest : List Token) : List Token := rest.dropWhile (· == .documentEnd)

/-- More than each token of a document takes. -/
def depthFor (ts : List Token) : Nat := 8 * ts.length + 8

/-- Whether a document with a marker before it has no content. -/
def isContentless : List Token → Bool
  | [] => true
  | t :: _ => t == .documentStart || t == .documentEnd || isDirective t

/-- Read the content of the only document, which may be missing behind a marker. -/
def body (marked : Bool) (handles : List (String × String)) (rest : List Token) :
    Option Node := do
  let c : Composer := { rest, handles }
  let (n, c) ←
    if marked && isContentless rest then some (.blank, c)
    else node true false (depthFor rest) c
  if (afterDocument c.rest).isEmpty then return n else none

/-- The document of a text with one document at most. -/
def document? (ts : List Token) : Option (Option Node) := do
  match ts with
  | [] => return none
  | t :: _ =>
      if isDirective t || t == .documentStart then
        let (handles, rest) ← directives 0 ts []
        match rest with
        | .documentStart :: rest => return some (← body true handles rest)
        | _ => none
      else return some (← body false [] ts)

end Composer

/-- The document of a text; malformed texts and texts with more than one have none, and a text
without any content has an empty one. -/
def document? (s : String) : Option (Option Node) := do Composer.document? (← tokens? s)

end BleBridge.Yaml
