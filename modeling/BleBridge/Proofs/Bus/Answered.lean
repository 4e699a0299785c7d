import BleBridge.Bus.Answered
import Mathlib.Data.List.DropRight
import Mathlib.Data.List.Nodup

/-!
# Which answered ids are remembered

Insertions of ids that are not known at that moment are arrivals (`arrivals`).  The queue
holds the latest of them, as many as fit, and the set holds the ids of the queue (`Holds`):
forgetting the oldest id of the queue takes it out of the set too (`trim_perm`), and as no
id is in the queue twice, none that is still in the queue is taken out.
-/

namespace BleBridge.Bus.Answered

variable {a : Answered} {id id' : String} {known order arrived : List String}

/-! ## Forgetting -/

theorem trim_subset (capacity : Nat) (known order : List String) :
    (trim capacity known order).1 ⊆ known := by
  induction order generalizing known with
  | nil => exact fun _ ↦ id
  | cons oldest later ih =>
      rw [trim]
      split
      · exact fun id hid ↦ List.erase_subset (ih _ hid)
      · exact fun _ ↦ id

theorem snd_trim (capacity : Nat) (known order : List String) :
    (trim capacity known order).2 = order.rtake capacity := by
  induction order generalizing known with
  | nil => rw [trim, List.rtake_nil]
  | cons oldest later ih =>
      rw [trim, List.rtake, List.length_cons]
      split
      · rename_i hfull
        rw [ih, List.rtake, Nat.succ_sub (Nat.le_of_lt_succ hfull), List.drop_succ_cons]
      · rename_i hroom
        rw [Nat.sub_eq_zero_of_le (Nat.le_of_not_lt hroom), List.drop_zero]

theorem trim_perm (capacity : Nat) (h : known.Perm order) :
    (trim capacity known order).1.Perm (trim capacity known order).2 := by
  induction order generalizing known with
  | nil => exact h
  | cons oldest later ih =>
      rw [trim]
      split
      · have herase : (known.erase oldest).Perm later := by
          simpa using h.erase oldest
        exact ih herase
      · exact h

/-! ## Insertions -/

theorem contains_insert (h : (a.insert id).contains id') : id' = id ∨ a.contains id' := by
  rw [insert] at h
  split at h
  · exact .inr h
  · have hmem := trim_subset _ _ _ (List.contains_iff_mem.mp h)
    exact (List.mem_cons.mp hmem).imp_right List.contains_iff_mem.mpr

theorem insert_of_contains (h : a.contains id) : a.insert id = a := by
  rw [insert, if_pos h]

theorem order_insert (h : ¬ a.contains id) :
    (a.insert id).order = (a.order ++ [id]).rtake a.capacity := by
  rw [insert, if_neg h]
  exact snd_trim _ _ _

@[simp] theorem capacity_insert (a : Answered) (id : String) :
    (a.insert id).capacity = a.capacity := by
  rw [insert]
  split
  · rfl
  · rfl

/-! ## Runs -/

inductive Call where
  | insert (id : String)
  | clear
deriving DecidableEq, Repr

def perform (a : Answered) : Call → Answered
  | .insert id => a.insert id
  | .clear => a.clear

def performAll (a : Answered) (calls : List Call) : Answered := calls.foldl perform a

/-- The arrivals since the last clear after one more call: an id that is known does not arrive. -/
def note (a : Answered) (arrived : List String) : Call → List String
  | .insert id => if a.contains id then arrived else arrived ++ [id]
  | .clear => []

/-- The arrivals since the last clear after all calls, oldest first. -/
def arrivals (a : Answered) (arrived : List String) : List Call → List String
  | [] => arrived
  | call :: later => arrivals (a.perform call) (a.note arrived call) later

@[simp] theorem capacity_perform (a : Answered) (call : Call) :
    (a.perform call).capacity = a.capacity := by
  cases call with
  | insert id => exact capacity_insert a id
  | clear => rfl

/-- The queue holds the latest arrivals, each id once, and the set holds the same ids. -/
structure Holds (arrived : List String) (a : Answered) : Prop where
  order_eq : a.order = arrived.rtake a.capacity
  nodup : a.order.Nodup
  perm : a.known.Perm a.order

theorem holds_clear (a : Answered) : Holds [] a.clear :=
  ⟨(List.rtake_nil _).symm, .nil, .nil⟩

theorem Holds.contains_iff (h : Holds arrived a) : a.contains id ↔ id ∈ a.order := by
  rw [contains, List.contains_iff_mem, h.perm.mem_iff]

/-- What was forgotten before does not come back. -/
theorem rtake_concat_rtake {α : Type} (xs : List α) (x : α) (n : Nat) :
    (xs.rtake n ++ [x]).rtake n = (xs ++ [x]).rtake n := by
  cases n with
  | zero => simp
  | succ n =>
      have hshort : (xs.rtake (n + 1)).rtake n = xs.rtake n := by
        simp [List.rtake_eq_reverse_take_reverse, List.take_take]
      rw [List.rtake_concat_succ, List.rtake_concat_succ, hshort]

theorem Holds.arrive (h : Holds arrived a) (hnew : ¬ a.contains id) :
    Holds (arrived ++ [id]) (a.insert id) := by
  -- the queue is extended first and cut to its room then
  have hqueue : (a.order ++ [id]).Nodup := by
    have hid : id ∉ a.order := mt h.contains_iff.mpr hnew
    rw [← List.concat_eq_append]
    exact h.nodup.concat hid
  refine ⟨?_, ?_, ?_⟩
  · rw [order_insert hnew, capacity_insert, h.order_eq, rtake_concat_rtake]
  · rw [order_insert hnew]
    exact hqueue.sublist (List.drop_sublist _ _)
  · rw [insert, if_neg hnew]
    refine trim_perm a.capacity ?_
    exact (h.perm.cons id).trans (List.perm_append_singleton id a.order).symm

theorem Holds.perform (h : Holds arrived a) (call : Call) :
    Holds (a.note arrived call) (a.perform call) := by
  cases call with
  | insert id =>
      rw [note, Answered.perform]
      split
      · rename_i hknown
        rwa [insert_of_contains hknown]
      · rename_i hnew
        exact h.arrive hnew
  | clear => exact holds_clear a

theorem Holds.performAll (h : Holds arrived a) (calls : List Call) :
    Holds (a.arrivals arrived calls) (a.performAll calls) ∧
      (a.performAll calls).capacity = a.capacity := by
  induction calls generalizing a arrived with
  | nil => exact ⟨h, rfl⟩
  | cons call calls ih =>
      rw [← capacity_perform a call]
      exact ih (h.perform call)

/-- As many ids are remembered as there is room for: the latest arrivals.  Whatever is remembered
stays where it is when it comes again, and whatever is not is put in, also if it was forgotten. -/
structure Recalls (room : Nat) (arrived : List String) (a : Answered) : Prop
    extends Holds arrived a where
  capacity_eq : a.capacity = room
  size_le : a.size ≤ room
  contains_iff : ∀ id, a.contains id ↔ id ∈ arrived.rtake room
  insert_known : ∀ id, a.contains id → a.insert id = a
  insert_new : ∀ id, ¬ a.contains id →
    (a.insert id).contains id ∧ (a.insert id).order.getLast? = some id

theorem Holds.recalls (h : Holds arrived a) (hroom : 0 < a.capacity) :
    Recalls a.capacity arrived a := by
  refine ⟨h, rfl, ?_, ?_, fun id ↦ insert_of_contains, ?_⟩
  · rw [size, h.order_eq, List.rtake, List.length_drop]
    omega
  · intro id
    rw [h.contains_iff, ← h.order_eq]
  · intro id hnew
    have hlast : (a.insert id).order.getLast? = some id := by
      obtain ⟨n, hn⟩ := Nat.exists_eq_add_one.mpr hroom
      rw [order_insert hnew, hn, List.rtake_concat_succ, List.getLast?_concat]
    exact ⟨(h.arrive hnew).contains_iff.mpr (List.mem_of_getLast? hlast), hlast⟩

theorem recalls_latest (capacity : Nat) (calls : List Call) :
    Recalls (max capacity 1) ((new capacity).arrivals [] calls)
      ((new capacity).performAll calls) := by
  have hnew : Holds [] (new capacity) := holds_clear (new capacity)
  obtain ⟨hholds, hcapacity⟩ := hnew.performAll calls
  have hroom : 0 < ((new capacity).performAll calls).capacity := by
    rw [hcapacity]
    exact Nat.le_max_right capacity 1
  have hrecalls := hholds.recalls hroom
  rwa [hcapacity] at hrecalls

/-- An id that was forgotten is put in again, and one that is known keeps its place. -/
theorem recalls_latest_of_return :
    (new 2).arrivals [] [.insert "a", .insert "b", .insert "a", .insert "c", .insert "a"] =
        ["a", "b", "c", "a"] ∧
      Recalls 2 ["a", "b", "c", "a"] ((new 2).performAll
        [.insert "a", .insert "b", .insert "a", .insert "c", .insert "a"]) ∧
      ((new 2).performAll
        [.insert "a", .insert "b", .insert "a", .insert "c", .insert "a"]).order = ["c", "a"] :=
  ⟨by decide, recalls_latest 2 [.insert "a", .insert "b", .insert "a", .insert "c", .insert "a"],
    by decide⟩

end BleBridge.Bus.Answered
