import BleBridge.Yaml.Quoting

/-! # Values as YAML texts -/

namespace BleBridge.Yaml

def indentStep : Nat := 2

def margin (indent : Nat) : List Char := List.replicate indent ' '

mutual

/-- A value with its line end, behind a key or a dash at that indentation. Collections that are
not empty go under the key. -/
def printBehind (indent : Nat) : Json → List Char
  | .null => " null\n".toList
  | .bool b => ' ' :: (toString b).toList ++ ['\n']
  | .number n => ' ' :: n.text.toList ++ ['\n']
  | .string s => ' ' :: Quoting.write (indent + indentStep) s
  | .array [] => " []\n".toList
  | .array (v :: rest) => '\n' :: printItems indent (v :: rest)
  | .object [] => " \x7b\x7d\n".toList
  | .object (m :: rest) => '\n' :: printMembers (indent + indentStep) (m :: rest)

def printItems (indent : Nat) : List Json → List Char
  | [] => []
  | v :: rest =>
      margin indent ++ '-' :: printBehind indent v ++ printItems indent rest

def printMembers (indent : Nat) : List (String × Json) → List Char
  | [] => []
  | (k, v) :: rest =>
      margin indent ++ k.toList ++ ':' :: printBehind indent v ++ printMembers indent rest

end

/-- The text of an object, a member a line. -/
def print : Json → String
  | .object members => String.ofList (printMembers 0 members)
  | v => String.ofList (printBehind 0 v)

end BleBridge.Yaml
