/-! # Requests that were answered

A bounded memory of ids. The ids lie in a set and, oldest first, in a queue; with every new id
beyond the capacity the oldest is forgotten. -/

namespace BleBridge.Bus

structure Answered where
  capacity : Nat
  known : List String
  order : List String
deriving DecidableEq, Repr

namespace Answered

def defaultCapacity : Nat := 1024

def new (capacity : Nat) : Answered := ⟨max capacity 1, [], []⟩

def contains (a : Answered) (id : String) : Bool := a.known.contains id

/-- Forget the oldest ids as long as there are too many. -/
def trim (capacity : Nat) : List String → List String → List String × List String
  | known, [] => (known, [])
  | known, oldest :: later =>
      if capacity < later.length + 1 then trim capacity (known.erase oldest) later
      else (known, oldest :: later)

/-- An id that is known already stays where it is. -/
def insert (a : Answered) (id : String) : Answered :=
  if a.contains id then a
  else
    let (known, order) := trim a.capacity (id :: a.known) (a.order ++ [id])
    { a with known, order }

def size (a : Answered) : Nat := a.order.length

def clear (a : Answered) : Answered := { a with known := [], order := [] }

end Answered

end BleBridge.Bus
