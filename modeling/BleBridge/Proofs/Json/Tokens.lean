import BleBridge.Proofs.Json.Numeral
import BleBridge.Proofs.Json.Values
import BleBridge.Proofs.Text.Decoded

/-!
# Compact text is read token by token

A compact text is read as the tokens of its value (`read_bytes`).  A word or a
number ends only where a mark or the end of the text comes, so what bytes spell is told
for both at once (`Token.Spells`), and texts are put together at their marks
(`Token.Spells.join`).  Inside a string every character is read back from its escape
(`Token.Writes`).
-/

namespace BleBridge.Json

/-- The UTF-8 bytes of characters. -/
abbrev utf8 (cs : List Char) : Bytes := cs.flatMap String.utf8EncodeChar

namespace Token

variable {bs bs₁ bs₂ : Bytes} {ts ts₁ ts₂ : List Token} {b : UInt8} {t : Token} {place : Place}
  {last : List Token}

/-! ## Marks -/

/-- The bytes spell the tokens: the last of them may be under way still. -/
def Spells (bs : Bytes) (ts : List Token) : Prop :=
  ∀ out, ∃ place read last, bs.foldlM feed (.between, out) = some (place, read) ∧
    finish place = some last ∧ last.reverse ++ read = ts.reverse ++ out

/-- A byte that is a token of its own and ends the token in front of it. -/
structure Marks (b : UInt8) (t : Token) : Prop where
  start : start b = some ([t], .between)
  not_letter : isLetter b = false
  not_number : isNumberByte b = false

theorem marks_openArray : Marks 0x5B .openArray := ⟨rfl, rfl, rfl⟩
theorem marks_closeArray : Marks 0x5D .closeArray := ⟨rfl, rfl, rfl⟩
theorem marks_openObject : Marks 0x7B .openObject := ⟨rfl, rfl, rfl⟩
theorem marks_closeObject : Marks 0x7D .closeObject := ⟨rfl, rfl, rfl⟩
theorem marks_comma : Marks 0x2C .comma := ⟨rfl, rfl, rfl⟩
theorem marks_colon : Marks 0x3A .colon := ⟨rfl, rfl, rfl⟩

/-- A mark takes whatever is under way to its end. -/
theorem Marks.step (m : Marks b t) (h : finish place = some last) :
    step place b = some (last ++ [t], .between) := by
  cases place with
  | between =>
      cases h
      exact m.start
  | inWord letters =>
      obtain ⟨word, hword, rfl⟩ := Option.map_eq_some_iff.mp h
      rw [Token.step, m.not_letter, hword, m.start]
      rfl
  | inNumber bytes =>
      obtain ⟨number, hnumber, rfl⟩ := Option.map_eq_some_iff.mp h
      rw [Token.step, m.not_number, hnumber, m.start]
      rfl
  | inString | inEscape | inUnit => cases h

theorem spells_nil : Spells [] [] := fun out ↦ ⟨.between, out, [], rfl, rfl, rfl⟩

/-- Behind a mark the reader starts anew. -/
theorem Spells.join (h₁ : Spells bs₁ ts₁) (m : Marks b t) (h₂ : Spells bs₂ ts₂) :
    Spells (bs₁ ++ b :: bs₂) (ts₁ ++ t :: ts₂) := by
  intro out
  obtain ⟨place, read, last, hfold, hfinish, hread⟩ := h₁ out
  have hfeed : feed (place, read) b = some (.between, t :: (ts₁.reverse ++ out)) := by
    rw [feed, m.step hfinish, Option.map_some, List.reverse_append, List.append_assoc, hread]
    rfl
  obtain ⟨place', read', last', hfold', hfinish', hread'⟩ := h₂ (t :: (ts₁.reverse ++ out))
  refine ⟨place', read', last', ?_, hfinish', ?_⟩
  · rw [List.foldlM_append, hfold, Option.bind_eq_bind, Option.bind_some, List.foldlM_cons, hfeed]
    exact hfold'
  · rw [hread']
    simp

theorem Spells.read (h : Spells bs ts) : read bs = some ts := by
  obtain ⟨place, read, last, hfold, hfinish, hread⟩ := h []
  rw [Token.read, hfold]
  simp only [Option.bind_eq_bind, Option.bind_some, hfinish, hread]
  simp

/-! ## Words and numbers -/

theorem spells_null : Spells (utf8 ['n', 'u', 'l', 'l']) [.null] :=
  fun out ↦ ⟨_, out, [.null], rfl, rfl, rfl⟩

theorem spells_true : Spells (utf8 ['t', 'r', 'u', 'e']) [.bool true] :=
  fun out ↦ ⟨_, out, [.bool true], rfl, rfl, rfl⟩

theorem spells_false : Spells (utf8 ['f', 'a', 'l', 's', 'e']) [.bool false] :=
  fun out ↦ ⟨_, out, [.bool false], rfl, rfl, rfl⟩

theorem start_number (hb : Number.isDigit b ∨ b = 0x2D) : start b = some ([], .inNumber [b]) := by
  rcases hb with hdigit | rfl
  · have hrange : 0x30 ≤ b.toNat ∧ b.toNat ≤ 0x39 := by
      simpa [Number.isDigit, UInt8.le_iff_toNat_le] using hdigit
    have hother : ∀ c : UInt8, c.toNat < 0x30 ∨ 0x39 < c.toNat → (b == c) = false := by
      intro c hc
      refine beq_false_of_ne ?_
      rintro rfl
      omega
    have hletter : isLetter b = false := by
      simp only [isLetter, UInt8.le_iff_toNat_le, UInt8.reduceToNat, Bool.and_eq_false_iff,
        decide_eq_false_iff_not]
      omega
    simp [start, hother, hletter, hdigit]
  · rfl

theorem foldlM_number {bytes out} (h : ∀ b ∈ bs, isNumberByte b) :
    bs.foldlM feed (.inNumber bytes, out) = some (.inNumber (bs.reverse ++ bytes), out) := by
  induction bs generalizing bytes with
  | nil => rfl
  | cons b rest ih =>
      obtain ⟨hb, hrest⟩ := List.forall_mem_cons.mp h
      have hfeed : feed (.inNumber bytes, out) b = some (.inNumber (b :: bytes), out) := by
        rw [feed, Token.step, if_pos hb]
        rfl
      rw [List.foldlM_cons, hfeed, List.reverse_cons, List.append_assoc]
      exact ih hrest

theorem isNumberByte_of_isDigit (h : Number.isDigit b) : isNumberByte b := by
  simp [isNumberByte, h]

theorem spells_number {n : Int} (hleast : Number.leastInt ≤ n) (hmost : n ≤ Number.mostInt) :
    Spells (utf8 (toString n).toList) [.number (some (.int n))] := by
  obtain ⟨b, rest, hbytes, hfirst, hdigits⟩ := Number.exists_bytes_int n
  have hrest : ∀ c ∈ rest, isNumberByte c := fun c hc ↦ isNumberByte_of_isDigit (hdigits c hc)
  intro out
  refine ⟨.inNumber (rest.reverse ++ [b]), out, [.number (some (.int n))], ?_, ?_, rfl⟩
  · change (Text.bytes (toString n)).foldlM feed (.between, out) = _
    rw [hbytes, List.foldlM_cons, feed, Token.step, start_number hfirst]
    exact foldlM_number hrest
  · rw [finish, ← List.reverse_cons, List.reverse_reverse, ← hbytes,
      Number.ofNumber?_text hleast hmost]
    rfl

/-! ## Strings -/

/-- Inside a string the bytes stand for those of the text. -/
def Writes (bs text : Bytes) : Prop :=
  ∃ pieces, (∀ before out, bs.foldlM feed (.inString before, out) =
      some (.inString (pieces ++ before), out)) ∧
    ∀ before acc, spell (pieces ++ before) acc = spell before (text ++ acc)

theorem writes_nil : Writes [] [] := ⟨[], fun _ _ ↦ rfl, fun _ _ ↦ rfl⟩

theorem Writes.append {text₁ text₂ : Bytes} (h₁ : Writes bs₁ text₁) (h₂ : Writes bs₂ text₂) :
    Writes (bs₁ ++ bs₂) (text₁ ++ text₂) := by
  obtain ⟨pieces₁, hfold₁, hspell₁⟩ := h₁
  obtain ⟨pieces₂, hfold₂, hspell₂⟩ := h₂
  refine ⟨pieces₂ ++ pieces₁, fun before out ↦ ?_, fun before acc ↦ ?_⟩
  · rw [List.foldlM_append, hfold₁, List.append_assoc]
    exact hfold₂ _ _
  · rw [List.append_assoc, hspell₂, hspell₁, List.append_assoc]

/-- A byte that is neither a control character nor the quote nor the backslash. -/
theorem writes_byte (hquote : b ≠ 0x22) (hslash : b ≠ 0x5C) (hvisible : ¬ b < 0x20) :
    Writes [b] [b] := by
  refine ⟨[.byte b], fun before out ↦ ?_, fun before acc ↦ rfl⟩
  simp [feed, Token.step, hquote, hslash, hvisible]

theorem writes_bytes (h : ∀ b ∈ bs, b ≠ 0x22 ∧ b ≠ 0x5C ∧ ¬ b < 0x20) : Writes bs bs := by
  induction bs with
  | nil => exact writes_nil
  | cons b rest ih =>
      obtain ⟨⟨hquote, hslash, hvisible⟩, hrest⟩ := List.forall_mem_cons.mp h
      exact (writes_byte hquote hslash hvisible).append (ih hrest)

theorem writes_short {c : UInt8} (hshort : shortEscape? b = some c) (hcode : b ≠ 0x75) :
    Writes [0x5C, b] [c] := by
  refine ⟨[.byte c], fun before out ↦ ?_, fun before acc ↦ rfl⟩
  simp [feed, Token.step, hshort, hcode]

/-- The byte of a hexadecimal digit. -/
def hexByte (n : Nat) : UInt8 := UInt8.ofNat (hexDigit n).toNat

theorem hexByte_spec {n : Nat} (h : n < 16) :
    String.utf8EncodeChar (hexDigit n) = [hexByte n] ∧ hexValue? (hexByte n) = some n := by
  have hdigits : ∀ n : Fin 16, String.utf8EncodeChar (hexDigit n) = [hexByte n] ∧
      hexValue? (hexByte n) = some n.val := by decide
  exact hdigits ⟨n, h⟩

theorem spell_unit {u : Nat} (hlow : isLow u = false) (hhigh : isHigh u = false)
    (before : List Piece) (acc : Bytes) :
    spell (.unit u :: before) acc = spell before (String.utf8EncodeChar (Char.ofNat u) ++ acc) := by
  cases before with
  | nil => simp [spell, hlow, hhigh]
  | cons p rest =>
      cases p with
      | byte b => simp [spell, hlow, hhigh]
      | unit v => simp [spell, hlow, hhigh]

theorem writes_unit {u : Nat} (h : u < 0x20) :
    Writes [0x5C, 0x75, 0x30, 0x30, hexByte (u / 16), hexByte (u % 16)]
      (String.utf8EncodeChar (Char.ofNat u)) := by
  have hhigh : hexValue? (hexByte (u / 16)) = some (u / 16) := (hexByte_spec (by omega)).2
  have hlow : hexValue? (hexByte (u % 16)) = some (u % 16) := (hexByte_spec (by omega)).2
  have hzero : hexValue? 0x30 = some 0 := rfl
  have hvalue : u / 16 * 16 + u % 16 = u := by omega
  refine ⟨[.unit u], fun before out ↦ ?_, spell_unit ?_ ?_⟩
  · simp [feed, Token.step, hhigh, hlow, hzero, hvalue]
  · simp only [isLow, Bool.and_eq_false_iff, decide_eq_false_iff_not]
    omega
  · simp only [isHigh, Bool.and_eq_false_iff, decide_eq_false_iff_not]
    omega

/-- A character that needs no escape is written in its own bytes. -/
theorem writes_plain {c : Char} (hquote : c ≠ '"') (hslash : c ≠ '\\')
    (hvisible : ¬ c.toNat < 0x20) : Writes (String.utf8EncodeChar c) (String.utf8EncodeChar c) := by
  refine writes_bytes fun b hb ↦ ?_
  have hascii {d : Char} (hd : b.toNat = d.toNat) (hsmall : d.toNat < 0x80) : c = d :=
    Char.toNat_inj.mp
      ((Text.toNat_eq_of_mem_utf8EncodeChar hb (by rwa [hd])).trans hd)
  refine ⟨?_, ?_, ?_⟩
  · rintro rfl
    exact hquote (hascii rfl (by decide))
  · rintro rfl
    exact hslash (hascii rfl (by decide))
  · have hleast := Text.le_of_mem_utf8EncodeChar (by decide) (Nat.le_of_not_lt hvisible) hb
    exact UInt8.not_lt.mpr hleast

/-- The characters whose escapes have a letter of their own. -/
def shortEscaped : List Char := ['"', '\\', '\n', '\r', '\t', '\x08', '\x0c']

theorem writes_escape_short {c : Char} (h : c ∈ shortEscaped) :
    Writes (utf8 (escape c)) (String.utf8EncodeChar c) := by
  simp only [shortEscaped, List.mem_cons, List.not_mem_nil, or_false] at h
  rcases h with rfl | rfl | rfl | rfl | rfl | rfl | rfl <;> exact writes_short rfl (by decide)

theorem escape_of_not_short {c : Char} (h : c ∉ shortEscaped) :
    escape c = if c.toNat < 0x20 then
      ['\\', 'u', '0', '0', hexDigit (c.toNat / 16), hexDigit (c.toNat % 16)] else [c] := by
  simp only [shortEscaped, List.mem_cons, List.not_mem_nil, or_false, not_or] at h
  simp only [escape, h, if_false]

theorem writes_escape (c : Char) : Writes (utf8 (escape c)) (String.utf8EncodeChar c) := by
  by_cases hshort : c ∈ shortEscaped
  · exact writes_escape_short hshort
  rw [escape_of_not_short hshort]
  split
  · rename_i hcontrol
    have hunit := writes_unit hcontrol
    rw [Char.ofNat_toNat] at hunit
    simp only [utf8, List.flatMap_cons, (hexByte_spec (show c.toNat / 16 < 16 by omega)).1,
      (hexByte_spec (show c.toNat % 16 < 16 by omega)).1]
    exact hunit
  · rename_i hvisible
    rw [utf8, List.flatMap_singleton]
    refine writes_plain ?_ ?_ hvisible
    · rintro rfl
      exact hshort (by decide)
    · rintro rfl
      exact hshort (by decide)

theorem writes_escapes (cs : List Char) : Writes (utf8 (cs.flatMap escape)) (utf8 cs) := by
  induction cs with
  | nil => exact writes_nil
  | cons c cs ih =>
      rw [utf8, List.flatMap_cons, List.flatMap_append]
      exact (writes_escape c).append ih

theorem spells_string (s : String) : Spells (utf8 (stringChars s)) [.string (some s)] := by
  obtain ⟨pieces, hfold, hspell⟩ := writes_escapes s.toList
  have hcontent : content pieces = some s := by
    have hbytes := hspell [] []
    rw [List.append_nil, List.append_nil] at hbytes
    rw [content, hbytes]
    exact Text.ofBytes?_bytes s
  intro out
  refine ⟨.between, .string (some s) :: out, [], ?_, rfl, rfl⟩
  have hquoted : utf8 (stringChars s) = 0x22 :: (utf8 (s.toList.flatMap escape) ++ [0x22]) := by
    rw [utf8, stringChars, List.cons_append, List.flatMap_cons, List.flatMap_append]
    rfl
  have hopen : feed (.between, out) 0x22 = some (.inString [], out) := rfl
  rw [hquoted, List.foldlM_cons, hopen, Option.bind_eq_bind, Option.bind_some,
    List.foldlM_append, hfold, List.append_nil]
  change feed (.inString pieces, out) 0x22 = _
  rw [← hcontent]
  rfl

end Token

/-! ## Values -/

mutual

/-- The tokens of a value, in their order. -/
def tokens : Json → List Token
  | .null => [.null]
  | .bool b => [.bool b]
  | .number n => [.number (some n)]
  | .string s => [.string (some s)]
  | .array items => .openArray :: itemTokens items
  | .object members => .openObject :: memberTokens members

/-- The tokens of the items of an array, with its closing bracket. -/
def itemTokens : List Json → List Token
  | [] => [.closeArray]
  | [v] => v.tokens ++ [.closeArray]
  | v :: rest => v.tokens ++ .comma :: itemTokens rest

/-- The tokens of the members of an object, with its closing brace. -/
def memberTokens : List (String × Json) → List Token
  | [] => [.closeObject]
  | [(k, v)] => .string (some k) :: .colon :: v.tokens ++ [.closeObject]
  | (k, v) :: rest => .string (some k) :: .colon :: v.tokens ++ .comma :: memberTokens rest

end

section Values

open Token

theorem utf8_join (cs₁ cs₂ : List Char) {c : Char} {b : UInt8}
    (hc : String.utf8EncodeChar c = [b]) : utf8 (cs₁ ++ c :: cs₂) = utf8 cs₁ ++ b :: utf8 cs₂ := by
  rw [utf8, List.flatMap_append, List.flatMap_cons, hc]
  rfl

mutual

/-- The text of a value spells its tokens. -/
theorem spells_chars : ∀ {v : Json}, v.Integral → Spells (utf8 v.chars) v.tokens
  | .null, _ => spells_null
  | .bool true, _ => spells_true
  | .bool false, _ => spells_false
  | .number (.int _), .int least most => spells_number least most
  | .string s, _ => spells_string s
  | .array _, .array all => spells_nil.join marks_openArray (spells_itemChars all)
  | .object _, .object all => spells_nil.join marks_openObject (spells_memberChars all)

theorem spells_itemChars : ∀ {items : List Json}, (∀ v ∈ items, v.Integral) →
    Spells (utf8 (itemChars items)) (itemTokens items)
  | [], _ => spells_nil.join marks_closeArray spells_nil
  | [v], h => by
      have hv := spells_chars (h v List.mem_cons_self)
      rw [itemChars, itemTokens, utf8_join _ _ rfl]
      exact hv.join marks_closeArray spells_nil
  | v :: w :: rest, h => by
      obtain ⟨hv, hrest⟩ := List.forall_mem_cons.mp h
      rw [itemChars, itemTokens, utf8_join _ _ rfl]
      · exact (spells_chars hv).join marks_comma (spells_itemChars hrest)
      all_goals exact List.cons_ne_nil w rest

theorem spells_memberChars : ∀ {members : List (String × Json)}, (∀ m ∈ members, m.2.Integral) →
    Spells (utf8 (memberChars members)) (memberTokens members)
  | [], _ => spells_nil.join marks_closeObject spells_nil
  | [(k, v)], h => by
      have hv := spells_chars (h (k, v) List.mem_cons_self)
      rw [memberChars, memberTokens, List.append_assoc, List.cons_append, utf8_join _ _ rfl,
        utf8_join _ _ rfl]
      exact (spells_string k).join marks_colon (hv.join marks_closeObject spells_nil)
  | (k, v) :: m :: rest, h => by
      obtain ⟨hv, hrest⟩ := List.forall_mem_cons.mp h
      rw [memberChars, memberTokens, List.append_assoc, List.cons_append, utf8_join _ _ rfl,
        utf8_join _ _ rfl]
      · exact (spells_string k).join marks_colon
          ((spells_chars hv).join marks_comma (spells_memberChars hrest))
      all_goals exact List.cons_ne_nil m rest

end

/-- The text of a value is read as the tokens of the value. -/
theorem read_bytes {v : Json} (h : v.Integral) : Token.read v.bytes = some v.tokens :=
  (spells_chars h).read

end Values

end BleBridge.Json
