import BleBridge.Proofs.Json.Tokens

/-!
# Values survive their texts

The text of a value is read as the document of the same shape (`Document.parse_bytes`),
whatever the order of the members.  A value that keeps its members in order and does not
nest too deep is what its document stands for (`ofDocument_document`), so reading undoes
writing (`parse_bytes`).
-/

namespace BleBridge.Json

/-! ## Documents -/

mutual

/-- The document in which all strings and numbers stand for something. -/
def document : Json → Document
  | .null => .null
  | .bool b => .bool b
  | .number n => .number (some n)
  | .string s => .string (some s)
  | .array items => .array (itemDocuments items)
  | .object members => .object (memberDocuments members)

def itemDocuments : List Json → List Document
  | [] => []
  | v :: rest => v.document :: itemDocuments rest

def memberDocuments : List (String × Json) → List (Option String × Document)
  | [] => []
  | (k, v) :: rest => (some k, v.document) :: memberDocuments rest

end

namespace Document

variable {stack : List Frame}

/-- The first token of a value starts it, so an array in which it stands does not close. -/
theorem exists_tokens (v : Json) : ∃ t ts, v.tokens = t :: ts ∧ t ≠ .closeArray := by
  cases v with
  | null => exact ⟨.null, [], rfl, nofun⟩
  | bool b => exact ⟨.bool b, [], rfl, nofun⟩
  | number n => exact ⟨.number (some n), [], rfl, nofun⟩
  | string s => exact ⟨.string (some s), [], rfl, nofun⟩
  | array items => exact ⟨.openArray, itemTokens items, rfl, nofun⟩
  | object members => exact ⟨.openObject, memberTokens members, rfl, nofun⟩

theorem foldlM_valueOrClose (v : Json) (rest : List Token) :
    (v.tokens ++ rest).foldlM step ⟨.valueOrClose, stack⟩ =
      (v.tokens ++ rest).foldlM step ⟨.value, stack⟩ := by
  obtain ⟨t, ts, htokens, hopen⟩ := exists_tokens v
  have hstep : step ⟨.valueOrClose, stack⟩ t = step ⟨.value, stack⟩ t := by
    cases t with
    | closeArray => exact absurd rfl hopen
    | _ => rfl
  rw [htokens, List.cons_append, List.foldlM_cons, List.foldlM_cons, hstep]

theorem foldlM_key (k : String) (read : List (Option String × Document)) (ts : List Token) :
    (Token.string (some k) :: .colon :: ts).foldlM step ⟨.key read, stack⟩ =
      ts.foldlM step ⟨.value, .object read (some k) :: stack⟩ := rfl

mutual

/-- The tokens of a value put its document on what is under way. -/
theorem foldlM_tokens : ∀ (v : Json) (stack : List Frame),
    v.tokens.foldlM step ⟨.value, stack⟩ = some (put v.document stack)
  | .null, _ => rfl
  | .bool _, _ => rfl
  | .number _, _ => rfl
  | .string _, _ => rfl
  | .array [], _ => rfl
  | .array (v :: rest), stack => by
      have hitems := foldlM_itemTokens (v :: rest) [] stack (List.cons_ne_nil v rest)
      have hfirst : ∃ more, itemTokens (v :: rest) = v.tokens ++ more := by
        cases rest with
        | nil => exact ⟨_, rfl⟩
        | cons w rest => exact ⟨_, rfl⟩
      obtain ⟨more, hmore⟩ := hfirst
      rw [tokens, List.foldlM_cons]
      change (itemTokens (v :: rest)).foldlM step ⟨.valueOrClose, .array [] :: stack⟩ = _
      rw [hmore, foldlM_valueOrClose, ← hmore, hitems]
      rfl
  | .object [], _ => rfl
  | .object ((k, v) :: rest), stack => by
      have hmembers := foldlM_memberTokens ((k, v) :: rest) [] stack (List.cons_ne_nil _ rest)
      have hfirst : ∃ more, memberTokens ((k, v) :: rest) = .string (some k) :: more := by
        cases rest with
        | nil => exact ⟨_, rfl⟩
        | cons m rest => exact ⟨_, rfl⟩
      obtain ⟨more, hmore⟩ := hfirst
      rw [tokens, List.foldlM_cons]
      change (memberTokens ((k, v) :: rest)).foldlM step ⟨.keyOrClose, stack⟩ = _
      rw [hmore, List.foldlM_cons] at hmembers ⊢
      exact hmembers

theorem foldlM_itemTokens : ∀ (items : List Json) (read : List Document) (stack : List Frame),
    items ≠ [] → (itemTokens items).foldlM step ⟨.value, .array read :: stack⟩ =
      some (put (.array (read.reverse ++ itemDocuments items)) stack)
  | [], _, _, h => absurd rfl h
  | [v], read, stack, _ => by
      rw [itemTokens, List.foldlM_append, foldlM_tokens v]
      change some (put (.array (v.document :: read).reverse) stack) = _
      rw [List.reverse_cons]
      rfl
  | v :: w :: rest, read, stack, _ => by
      rw [itemTokens, List.foldlM_append, foldlM_tokens v]
      · change (itemTokens (w :: rest)).foldlM step
          ⟨.value, .array (v.document :: read) :: stack⟩ = _
        rw [foldlM_itemTokens (w :: rest) _ _ (List.cons_ne_nil w rest), List.reverse_cons,
          List.append_assoc]
        rfl
      · exact List.cons_ne_nil w rest

theorem foldlM_memberTokens : ∀ (members : List (String × Json))
    (read : List (Option String × Document)) (stack : List Frame), members ≠ [] →
    (memberTokens members).foldlM step ⟨.key read, stack⟩ =
      some (put (.object (read.reverse ++ memberDocuments members)) stack)
  | [], _, _, h => absurd rfl h
  | [(k, v)], read, stack, _ => by
      have hv := foldlM_tokens v (.object read (some k) :: stack)
      rw [memberTokens, List.cons_append, List.cons_append, foldlM_key, List.foldlM_append, hv]
      change some (put (.object ((some k, v.document) :: read).reverse) stack) = _
      rw [List.reverse_cons]
      rfl
  | (k, v) :: m :: rest, read, stack, _ => by
      have hv := foldlM_tokens v (.object read (some k) :: stack)
      rw [memberTokens, List.cons_append, List.cons_append, foldlM_key, List.foldlM_append, hv]
      · change (memberTokens (m :: rest)).foldlM step
          ⟨.key ((some k, v.document) :: read), stack⟩ = _
        rw [foldlM_memberTokens (m :: rest) _ _ (List.cons_ne_nil m rest), List.reverse_cons,
          List.append_assoc]
        rfl
      · exact List.cons_ne_nil m rest

end

theorem ofTokens_tokens (v : Json) : ofTokens v.tokens = some v.document := by
  rw [ofTokens, foldlM_tokens]
  rfl

theorem parse_bytes {v : Json} (h : v.Integral) : parse v.bytes = some v.document := by
  rw [parse, read_bytes h]
  exact ofTokens_tokens v

end Document

/-! ## Values -/

mutual

/-- A value is what its document stands for. -/
theorem ofDocument_document : ∀ {v : Json} {depth : Nat}, v.Ordered → v.nesting ≤ depth →
    ofDocument depth v.document = some v
  | .null, _, _, _ => rfl
  | .bool _, _, _, _ => rfl
  | .number _, _, _, _ => rfl
  | .string _, _, _, _ => rfl
  | .array items, depth, .array all, hdepth => by
      rw [nesting] at hdepth
      rw [document, ofDocument, if_neg (by omega), ofItems_documents all (by omega)]
      rfl
  | .object members, depth, .object keys all, hdepth => by
      rw [nesting] at hdepth
      rw [document, ofDocument, if_neg (by omega), ofFields_documents all (by omega),
        Option.map_some, ofMembers_of_ascending keys]

theorem ofItems_documents : ∀ {items : List Json} {depth : Nat}, (∀ v ∈ items, v.Ordered) →
    itemsNesting items ≤ depth → ofItems depth (itemDocuments items) = some items
  | [], _, _, _ => rfl
  | v :: rest, depth, h, hdepth => by
      obtain ⟨hv, hrest⟩ := List.forall_mem_cons.mp h
      obtain ⟨hdepthv, hdepthrest⟩ := max_le_iff.mp hdepth
      rw [itemDocuments, ofItems, ofDocument_document hv hdepthv,
        ofItems_documents hrest hdepthrest]
      rfl

theorem ofFields_documents : ∀ {members : List (String × Json)} {depth : Nat},
    (∀ m ∈ members, m.2.Ordered) → membersNesting members ≤ depth →
    ofFields depth (memberDocuments members) = some members
  | [], _, _, _ => rfl
  | (k, v) :: rest, depth, h, hdepth => by
      obtain ⟨hv, hrest⟩ := List.forall_mem_cons.mp h
      obtain ⟨hdepthv, hdepthrest⟩ := max_le_iff.mp hdepth
      rw [memberDocuments, ofFields, ofDocument_document hv hdepthv,
        ofFields_documents hrest hdepthrest]
      rfl

end

/-- Reading undoes writing. -/
theorem parse_bytes {v : Json} (integral : v.Integral) (ordered : v.Ordered)
    (shallow : v.nesting ≤ depthLimit) : parse v.bytes = some v := by
  rw [parse, Document.parse_bytes integral]
  exact ofDocument_document ordered shallow

theorem parseText_text {v : Json} (integral : v.Integral) (ordered : v.Ordered)
    (shallow : v.nesting ≤ depthLimit) : parseText v.text = some v := by
  have hbytes : Text.bytes v.text = v.bytes := by
    rw [Text.bytes, text, String.toList_ofList]
    rfl
  rw [parseText, hbytes]
  exact parse_bytes integral ordered shallow

end BleBridge.Json
