import BleBridge.Json.Reader
import Mathlib.Data.List.Basic
import Mathlib.Data.String.Basic

/-!
# Shapes of values

Three things are asked of a value that is to survive its text.  Its objects list their
members in ascending order of the keys (`Ordered`), as those of every value that was
read do (`ordered_of_parse`); its numbers are whole and fit into 64 bits (`Integral`);
and it does not nest too deep (`nesting`).
-/

namespace BleBridge.Json

variable {v : Json} {items : List Json} {members : List (String × Json)}

/-! ## Nesting -/

mutual

/-- How many arrays and objects lie around the innermost one, that one counted. -/
def nesting : Json → Nat
  | .array items => itemsNesting items + 1
  | .object members => membersNesting members + 1
  | _ => 0

def itemsNesting : List Json → Nat
  | [] => 0
  | v :: rest => max v.nesting (itemsNesting rest)

def membersNesting : List (String × Json) → Nat
  | [] => 0
  | (_, v) :: rest => max v.nesting (membersNesting rest)

end

/-! ## Numbers -/

/-- All numbers are whole and fit into 64 bits, signed or not. -/
inductive Integral : Json → Prop
  | null : Integral .null
  | bool (b : Bool) : Integral (.bool b)
  | int {n : Int} (least : Number.leastInt ≤ n) (most : n ≤ Number.mostInt) :
      Integral (.number (.int n))
  | string (s : String) : Integral (.string s)
  | array {items : List Json} (all : ∀ v ∈ items, Integral v) : Integral (.array items)
  | object {members : List (String × Json)} (all : ∀ m ∈ members, Integral m.2) :
      Integral (.object members)

attribute [simp] Integral.null Integral.bool Integral.string

@[simp] theorem integral_int_iff {n : Int} :
    Integral (.number (.int n)) ↔ Number.leastInt ≤ n ∧ n ≤ Number.mostInt := by
  refine ⟨fun h ↦ ?_, fun ⟨least, most⟩ ↦ .int least most⟩
  cases h with
  | int least most => exact ⟨least, most⟩

@[simp] theorem integral_array_iff : Integral (.array items) ↔ ∀ v ∈ items, v.Integral := by
  refine ⟨fun h ↦ ?_, .array⟩
  cases h with
  | array all => exact all

@[simp] theorem integral_object_iff : Integral (.object members) ↔ ∀ m ∈ members, m.2.Integral := by
  refine ⟨fun h ↦ ?_, .object⟩
  cases h with
  | object all => exact all

/-! ## Order -/

/-- The keys ascend, so no key stands twice. -/
def Ascending (members : List (String × Json)) : Prop :=
  (members.map Prod.fst).Pairwise (· < ·)

instance : Decidable (Ascending members) :=
  inferInstanceAs (Decidable ((members.map Prod.fst).Pairwise (· < ·)))

/-- All objects list their members in ascending order of the keys. -/
inductive Ordered : Json → Prop
  | null : Ordered .null
  | bool (b : Bool) : Ordered (.bool b)
  | number (n : Number) : Ordered (.number n)
  | string (s : String) : Ordered (.string s)
  | array {items : List Json} (all : ∀ v ∈ items, Ordered v) : Ordered (.array items)
  | object {members : List (String × Json)} (keys : Ascending members)
      (all : ∀ m ∈ members, Ordered m.2) : Ordered (.object members)

attribute [simp] Ordered.null Ordered.bool Ordered.number Ordered.string

@[simp] theorem ordered_array_iff : Ordered (.array items) ↔ ∀ v ∈ items, v.Ordered := by
  refine ⟨fun h ↦ ?_, .array⟩
  cases h with
  | array all => exact all

@[simp] theorem ordered_object_iff :
    Ordered (.object members) ↔ Ascending members ∧ ∀ m ∈ members, m.2.Ordered := by
  refine ⟨fun h ↦ ?_, fun ⟨keys, all⟩ ↦ .object keys all⟩
  cases h with
  | object keys all => exact ⟨keys, all⟩

/-- A member with a key beyond all others goes to the end. -/
theorem insertMember_of_lt {key : String} (value : Json) (h : ∀ m ∈ members, m.1 < key) :
    insertMember key value members = members ++ [(key, value)] := by
  induction members with
  | nil => rfl
  | cons m rest ih =>
      obtain ⟨hm, hrest⟩ := List.forall_mem_cons.mp h
      have hne : key ≠ m.1 := fun heq ↦ String.lt_irrefl key (heq ▸ hm)
      rw [insertMember, if_neg (String.lt_asymm hm), if_neg hne, ih hrest]
      rfl

/-- Members that ascend stay as they are. -/
theorem ofMembers_of_ascending (h : Ascending members) : ofMembers members = .object members := by
  have hfold : ∀ front rest : List (String × Json), Ascending (front ++ rest) →
      rest.foldl (fun sorted m ↦ insertMember m.1 m.2 sorted) front = front ++ rest := by
    intro front rest hall
    induction rest generalizing front with
    | nil => exact (List.append_nil front).symm
    | cons m rest ih =>
        have hbefore : ∀ k ∈ front, k.1 < m.1 := by
          intro k hk
          rw [Ascending, List.map_append] at hall
          exact (List.pairwise_append.mp hall).2.2 _ (List.mem_map_of_mem hk) _
            (List.mem_map_of_mem List.mem_cons_self)
        rw [List.foldl_cons, insertMember_of_lt m.2 hbefore]
        have hmoved : front ++ m :: rest = front ++ [(m.1, m.2)] ++ rest := by simp
        rw [hmoved] at hall ⊢
        exact ih _ hall
  exact congrArg Json.object (hfold [] members h)

theorem mem_insertMember {key : String} {value : Json} {m : String × Json}
    (h : m ∈ insertMember key value members) : m = (key, value) ∨ m ∈ members := by
  induction members with
  | nil => exact .inl (List.mem_singleton.mp h)
  | cons k rest ih =>
      rw [insertMember] at h
      split at h
      · exact List.mem_cons.mp h
      · split at h
        · exact (List.mem_cons.mp h).imp id (List.mem_cons_of_mem _)
        · rcases List.mem_cons.mp h with rfl | h
          · exact .inr List.mem_cons_self
          · exact (ih h).imp id (List.mem_cons_of_mem _)

theorem ascending_cons_iff {m : String × Json} :
    Ascending (m :: members) ↔ (∀ k ∈ members, m.1 < k.1) ∧ Ascending members := by
  rw [Ascending, Ascending, List.map_cons, List.pairwise_cons, List.forall_mem_map]

theorem Ascending.insertMember (h : Ascending members) (key : String) (value : Json) :
    Ascending (insertMember key value members) := by
  induction members with
  | nil => exact List.pairwise_singleton _ _
  | cons m rest ih =>
      obtain ⟨hbelow, hrest⟩ := ascending_cons_iff.mp h
      rw [Json.insertMember]
      split
      · rename_i hlt
        refine ascending_cons_iff.mpr ⟨?_, h⟩
        intro k hk
        rcases List.mem_cons.mp hk with rfl | hk
        · exact hlt
        · exact String.lt_trans hlt (hbelow k hk)
      · split
        · rename_i heq
          exact ascending_cons_iff.mpr ⟨fun k hk ↦ heq ▸ hbelow k hk, hrest⟩
        · rename_i hnot hne
          have hlt : m.1 < key := lt_of_le_of_ne (not_lt.mp hnot) (Ne.symm hne)
          refine ascending_cons_iff.mpr ⟨fun k hk ↦ ?_, ih hrest⟩
          rcases mem_insertMember hk with rfl | hk
          · exact hlt
          · exact hbelow k hk

/-- Whatever its members, an object lists them in order. -/
theorem ordered_ofMembers (h : ∀ m ∈ members, m.2.Ordered) : (ofMembers members).Ordered := by
  have hfold : ∀ rest sorted : List (String × Json), (∀ m ∈ rest, m.2.Ordered) →
      Ascending sorted → (∀ m ∈ sorted, m.2.Ordered) →
      Ordered (.object (rest.foldl (fun sorted m ↦ Json.insertMember m.1 m.2 sorted) sorted)) := by
    intro rest sorted hrest hkeys hsorted
    induction rest generalizing sorted with
    | nil => exact .object hkeys hsorted
    | cons m rest ih =>
        obtain ⟨hm, hrest⟩ := List.forall_mem_cons.mp hrest
        refine ih _ hrest (hkeys.insertMember m.1 m.2) fun k hk ↦ ?_
        rcases mem_insertMember hk with rfl | hk
        · exact hm
        · exact hsorted k hk
  exact hfold members [] h List.Pairwise.nil nofun

/-! ## Values that were read -/

mutual

theorem ordered_ofDocument : ∀ {depth : Nat} {d : Document} {v : Json},
    ofDocument depth d = some v → v.Ordered
  | _, .null, _, h => by
      cases h
      exact .null
  | _, .bool b, _, h => by
      cases h
      exact .bool b
  | _, .number n, _, h => by
      obtain ⟨n, -, rfl⟩ := Option.map_eq_some_iff.mp h
      exact .number n
  | _, .string s, _, h => by
      obtain ⟨s, -, rfl⟩ := Option.map_eq_some_iff.mp h
      exact .string s
  | depth, .array items, _, h => by
      rw [ofDocument] at h
      split at h
      · cases h
      · obtain ⟨vs, hitems, rfl⟩ := Option.map_eq_some_iff.mp h
        exact .array (ordered_ofItems hitems)
  | depth, .object members, _, h => by
      rw [ofDocument] at h
      split at h
      · cases h
      · obtain ⟨ms, hmembers, rfl⟩ := Option.map_eq_some_iff.mp h
        exact ordered_ofMembers (ordered_ofFields hmembers)

theorem ordered_ofItems : ∀ {depth : Nat} {items : List Document} {vs : List Json},
    ofItems depth items = some vs → ∀ v ∈ vs, v.Ordered
  | _, [], _, h => by
      cases h
      exact nofun
  | _, d :: rest, _, h => by
      rw [ofItems] at h
      obtain ⟨v, hv, h⟩ := Option.bind_eq_some_iff.mp h
      obtain ⟨vs, hvs, h⟩ := Option.bind_eq_some_iff.mp h
      cases h
      exact List.forall_mem_cons.mpr ⟨ordered_ofDocument hv, ordered_ofItems hvs⟩

theorem ordered_ofFields : ∀ {depth : Nat} {members : List (Option String × Document)}
    {ms : List (String × Json)}, ofFields depth members = some ms → ∀ m ∈ ms, m.2.Ordered
  | _, [], _, h => by
      cases h
      exact nofun
  | _, (key, d) :: rest, _, h => by
      rw [ofFields] at h
      obtain ⟨k, -, h⟩ := Option.bind_eq_some_iff.mp h
      obtain ⟨v, hv, h⟩ := Option.bind_eq_some_iff.mp h
      obtain ⟨vs, hvs, h⟩ := Option.bind_eq_some_iff.mp h
      cases h
      exact List.forall_mem_cons.mpr ⟨ordered_ofDocument hv, ordered_ofFields hvs⟩

end

theorem ordered_of_parse {bs : Bytes} (h : parse bs = some v) : v.Ordered := by
  obtain ⟨d, -, hd⟩ := Option.bind_eq_some_iff.mp h
  exact ordered_ofDocument hd

end BleBridge.Json
