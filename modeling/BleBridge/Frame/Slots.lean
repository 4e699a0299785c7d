import BleBridge.Frame.Packet

/-! # Payloads by packet index -/

namespace BleBridge.Frame

/-- Payloads under ascending indices. -/
abbrev Slots := List (UInt16 × Bytes)

namespace Slots

def get? : Slots → UInt16 → Option Bytes
  | [], _ => none
  | (k, payload) :: rest, i => if k = i then some payload else get? rest i

/-- Put a payload in its place, instead of one that is there already. -/
def insert : Slots → UInt16 → Bytes → Slots
  | [], i, payload => [(i, payload)]
  | (k, old) :: rest, i, payload =>
      if i < k then (i, payload) :: (k, old) :: rest
      else if i = k then (i, payload) :: rest
      else (k, old) :: insert rest i payload

def has (s : Slots) (i : UInt16) : Bool := (s.get? i).isSome

@[simp] theorem get?_insert_self (s : Slots) (i : UInt16) (payload : Bytes) :
    (s.insert i payload).get? i = some payload := by
  induction s with
  | nil => simp [insert, get?]
  | cons kv rest ih =>
      obtain ⟨k, old⟩ := kv
      simp only [insert]
      split
      · simp [get?]
      · split
        · simp [get?]
        · rename_i h
          simp [get?, Ne.symm h, ih]

theorem get?_insert_of_ne (s : Slots) {i j : UInt16} (payload : Bytes) (h : j ≠ i) :
    (s.insert i payload).get? j = s.get? j := by
  induction s with
  | nil => simp [insert, get?, Ne.symm h]
  | cons kv rest ih =>
      obtain ⟨k, old⟩ := kv
      simp only [insert]
      split
      · simp [get?, Ne.symm h]
      · split
        · rename_i hk
          subst hk
          simp [get?, Ne.symm h]
        · simp [get?, ih]

/-- The payloads under `0 … total - 1` in a row, or the first index that is missing. -/
def assemble (total : UInt16) (slot : UInt16 → Option Bytes) : Except Fault Bytes :=
  go total.toNat 0
where
  go : Nat → Nat → Except Fault Bytes
    | 0, _ => .ok []
    | n + 1, i =>
        match slot (UInt16.ofNat i) with
        | none => .error (.missingPacket (UInt16.ofNat i) total)
        | some payload => (go n (i + 1)).map (payload ++ ·)

end Slots

end BleBridge.Frame
