import BleBridge.Fault
import BleBridge.Text.Bytes

/-! # Packets: numbered pieces of a message -/

namespace BleBridge.Frame

structure Packet where
  index : UInt16
  total : UInt16
  payload : Bytes
deriving DecidableEq, Repr

def headerSize : Nat := 4

/-- A word with its high byte first. -/
def wordBytes (w : UInt16) : Bytes := [(w >>> 8).toUInt8, w.toUInt8]

def wordOf (high low : UInt8) : UInt16 := high.toUInt16 <<< 8 ||| low.toUInt16

namespace Packet

/-- Index, total and payload in a row. -/
def body (p : Packet) : Bytes := wordBytes p.index ++ wordBytes p.total ++ p.payload

def parse : Bytes → Except Fault Packet
  | i₁ :: i₀ :: t₁ :: t₀ :: payload => .ok ⟨wordOf i₁ i₀, wordOf t₁ t₀, payload⟩
  | short => .error (.frame (.short short.length headerSize))

end Packet

/-- Consecutive pieces of `size` items, the last one possibly shorter. -/
def pieces {α : Type} (size : Nat) (xs : List α) : List (List α) :=
  if h : size = 0 ∨ xs = [] then []
  else
    have : (xs.drop size).length < xs.length := by
      have : xs.length ≠ 0 := by simp_all
      have : size ≠ 0 := fun hs => h (.inl hs)
      simp only [List.length_drop]
      omega
    xs.take size :: pieces size (xs.drop size)
termination_by xs.length

end BleBridge.Frame
