import BleBridge.Text.Search

/-! # Topics and topic filters -/

namespace BleBridge.Bus

/-- The levels of a topic stand between slashes. -/
def levels (topic : String) : List String :=
  (Text.splitAt ['/'] topic.toList).map String.ofList

/-- `#` stands for all levels that are left, `+` for any one level. -/
def levelsMatch : List String → List String → Bool
  | [], [] => true
  | [], _ :: _ => false
  | f :: _, [] => f == "#"
  | f :: fs, t :: ts => f == "#" || ((f == "+" || f == t) && levelsMatch fs ts)

def topicMatches (filter topic : String) : Bool := levelsMatch (levels filter) (levels topic)

end BleBridge.Bus
