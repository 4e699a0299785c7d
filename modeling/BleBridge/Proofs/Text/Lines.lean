import BleBridge.Proofs.Text.Cut
import BleBridge.Text.Blank
import BleBridge.Text.Bytes
import Mathlib.Data.List.DropRight

/-!
# Lines of a text

Joining lines and cutting the text into lines again gives the same lines, if none
of them is empty or holds a line feed.  A mark without a line feed stands in the
joined text where it stands in one of the lines, so joining neither makes nor hides
one (`infix_joinLines`).

Bytes are decoded up to a line feed as if it were not there: it is no part of a
longer character, and none comes out of other bytes (`decodeLossy_append_feed`,
`feed_notMem_decodeLossy`).
-/

namespace BleBridge.Text

/-! ## Marks -/

theorem contains_iff {s mark : String} : contains s mark ↔ mark.toList <:+: s.toList := by
  rw [contains, occursIn, Option.isSome_iff_ne_none, ne_eq, cut?_eq_none_iff, not_not]

theorem startsWith_iff {s lead : String} : startsWith s lead ↔ lead.toList <+: s.toList :=
  List.isPrefixOf_iff_prefix

theorem dropLead?_eq_none_iff {lead s : String} :
    dropLead? lead s = none ↔ ¬ startsWith s lead := by
  rw [dropLead?, Option.map_eq_none_iff, isPrefixOf?_eq_none_iff, startsWith_iff]

/-- A mark that does not hold `x` lies to one side of it. -/
theorem infix_append_cons_iff {α : Type} {mark xs ys : List α} {x : α} (hmark : x ∉ mark)
    (hne : mark ≠ []) : mark <:+: xs ++ x :: ys ↔ mark <:+: xs ∨ mark <:+: ys := by
  have hlead : ∀ part : List α, part <+: x :: ys → x ∉ part → part = [] := by
    intro part hpart hx
    cases part with
    | nil => rfl
    | cons y part =>
        obtain ⟨rfl, -⟩ := List.cons_prefix_cons.mp hpart
        exact absurd List.mem_cons_self hx
  rw [List.infix_append_iff, List.infix_cons_iff]
  constructor
  · rintro (hxs | (hcross | hys) | ⟨front, back, rfl, hfront, hback⟩)
    · exact .inl hxs
    · exact absurd (hlead mark hcross hmark) hne
    · exact .inr hys
    · have hempty : back = [] := hlead back hback fun hx ↦ hmark (List.mem_append_right _ hx)
      rw [hempty, List.append_nil]
      exact .inl hfront.isInfix
  · rintro (hxs | hys)
    · exact .inl hxs
    · exact .inr (.inl (.inr hys))

/-! ## Blank ends -/

/-- What a text keeps when it is trimmed is what its left end leaves, up to the right end. -/
theorem exists_trimChars_append (cs : List Char) :
    ∃ lost, trimChars cs ++ lost = cs.dropWhile isBlank :=
  List.rdropWhile_prefix isBlank _

/-- A text that neither starts nor ends with a blank character is trimmed. -/
theorem trimChars_eq_self_iff {cs : List Char} :
    trimChars cs = cs ↔ cs.dropWhile isBlank = cs ∧ cs.rdropWhile isBlank = cs := by
  have htrim : trimChars cs = (cs.dropWhile isBlank).rdropWhile isBlank := rfl
  rw [htrim]
  constructor
  · intro h
    have hlength : (cs.dropWhile isBlank).length = cs.length := by
      obtain ⟨lost, hlost⟩ := exists_trimChars_append cs
      have hright := congrArg List.length hlost
      have hleft := (List.dropWhile_suffix (l := cs) isBlank).length_le
      rw [htrim, h, List.length_append] at hright
      omega
    have hleft := (List.dropWhile_suffix isBlank).eq_of_length hlength
    rw [hleft] at h
    exact ⟨hleft, h⟩
  · rintro ⟨hleft, hright⟩
    rw [hleft, hright]

@[simp] theorem trimChars_trimChars (cs : List Char) : trimChars (trimChars cs) = trimChars cs := by
  refine trimChars_eq_self_iff.mpr ⟨?_, List.rdropWhile_idempotent _ _⟩
  -- what the right end loses, the left end has kept
  obtain ⟨lost, hkept⟩ := exists_trimChars_append cs
  cases hchars : trimChars cs with
  | nil => rfl
  | cons c rest =>
      have hleft := List.dropWhile_idempotent isBlank cs
      rw [← hkept, hchars, List.cons_append, List.dropWhile_cons] at hleft
      by_cases hblank : isBlank c
      · rw [if_pos hblank] at hleft
        have hlength := (List.dropWhile_suffix (l := rest ++ lost) isBlank).length_le
        rw [hleft, List.length_cons] at hlength
        omega
      · exact List.dropWhile_cons_of_neg hblank

theorem trim_trim (s : String) : trim (trim s) = trim s := by
  simp [trim]

theorem toList_trim (s : String) : (trim s).toList = trimChars s.toList :=
  String.toList_ofList

theorem mem_of_mem_trimChars {cs : List Char} {c : Char} (h : c ∈ trimChars cs) : c ∈ cs := by
  obtain ⟨lost, hlost⟩ := exists_trimChars_append cs
  exact (List.dropWhile_suffix isBlank).subset (hlost ▸ List.mem_append_left lost h)

/-- A blank character at the end makes no difference. -/
theorem trimChars_append_blank (cs : List Char) {c : Char} (hblank : isBlank c) :
    trimChars (cs ++ [c]) = trimChars cs := by
  have htrim : ∀ cs, trimChars cs = (cs.dropWhile isBlank).rdropWhile isBlank := fun _ ↦ rfl
  rw [htrim, htrim, List.dropWhile_append]
  split
  · rename_i hempty
    rw [List.isEmpty_iff.mp hempty, List.dropWhile_cons_of_pos hblank]
    rfl
  · exact List.rdropWhile_concat_pos _ _ _ hblank

/-! ## Lines -/

/-- A line as the consumers see it: trimmed, with something on it and without a line feed. -/
structure IsLine (line : String) : Prop where
  trimmed : trim line = line
  nonempty : line ≠ ""
  feedless : '\n' ∉ line.toList

theorem lines_append_feed {l : List Char} (hfeed : '\n' ∉ l) (rest : List Char) :
    lines (l ++ '\n' :: rest) = l :: lines rest := by
  induction l with
  | nil => simp [lines]
  | cons c l ih =>
      obtain ⟨hc, hl⟩ := by simpa using hfeed
      rw [List.cons_append, lines, if_neg (Ne.symm hc), ih hl]

theorem lines_of_feedless {l : List Char} (hfeed : '\n' ∉ l) (hne : l ≠ []) : lines l = [l] := by
  induction l with
  | nil => exact absurd rfl hne
  | cons c l ih =>
      obtain ⟨hc, hl⟩ := by simpa using hfeed
      rw [lines, if_neg (Ne.symm hc)]
      cases l with
      | nil => rfl
      | cons d l => rw [ih hl (List.cons_ne_nil d l)]

theorem joinLines_singleton (l : String) : joinLines [l] = l := String.intercalate_singleton

theorem joinLines_cons (l : String) {ls : List String} (h : ls ≠ []) :
    joinLines (l :: ls) = l ++ "\n" ++ joinLines ls :=
  String.intercalate_cons_of_ne_nil h

theorem toList_joinLines_cons (l : String) {ls : List String} (h : ls ≠ []) :
    (joinLines (l :: ls)).toList = l.toList ++ '\n' :: (joinLines ls).toList := by
  rw [joinLines_cons l h]
  simp

/-- Joined lines are cut into the same lines again. -/
theorem lines_joinLines {ls : List String} (h : ∀ l ∈ ls, IsLine l) :
    lines (joinLines ls).toList = ls.map String.toList := by
  induction ls with
  | nil => rfl
  | cons l ls ih =>
      have hl := h l List.mem_cons_self
      by_cases hls : ls = []
      · rw [hls, joinLines_singleton]
        refine lines_of_feedless hl.feedless fun hempty ↦ hl.nonempty ?_
        exact String.toList_eq_nil_iff.mp hempty
      · rw [toList_joinLines_cons l hls, lines_append_feed hl.feedless,
          ih fun l' hl' ↦ h l' (List.mem_cons_of_mem _ hl'), List.map_cons]

/-- A mark without a line feed stands in joined lines if it stands in one of them. -/
theorem infix_joinLines {mark : List Char} {ls : List String} (hmark : '\n' ∉ mark)
    (hne : mark ≠ []) : mark <:+: (joinLines ls).toList ↔ ∃ l ∈ ls, mark <:+: l.toList := by
  induction ls with
  | nil =>
      have hempty : (joinLines []).toList = [] := rfl
      simp [hempty, hne]
  | cons l ls ih =>
      by_cases hls : ls = []
      · simp [hls, joinLines_singleton]
      · rw [toList_joinLines_cons l hls, infix_append_cons_iff hmark hne, ih]
        simp

theorem contains_joinLines {mark : String} {ls : List String} (hmark : '\n' ∉ mark.toList)
    (hne : mark.toList ≠ []) : contains (joinLines ls) mark ↔ ∃ l ∈ ls, contains l mark := by
  simp only [contains_iff]
  exact infix_joinLines hmark hne

/-! ## Decoding -/

section Shape

variable {b low high t : UInt8} {n : Nat}

/-- A lead byte has tails, and none of them is a line feed. -/
theorem lt_of_leadShape (h : leadShape b = some (n, low, high)) : 0 < n ∧ 10 < low := by
  rw [leadShape] at h
  grind

/-- The bits of the lead byte and the first tail stand for something. -/
theorem code_pos (h : leadShape b = some (n, low, high)) (hlow : low ≤ t) (hhigh : t ≤ high) :
    0 < leadBits n b * 64 + t.toNat % 64 ∧ (n = 1 → 10 < leadBits n b * 64 + t.toNat % 64) := by
  have hone : leadBits 1 b = b.toNat % 32 := rfl
  have htwo : leadBits 2 b = b.toNat % 16 := rfl
  have hthree : leadBits 3 b = b.toNat % 8 := rfl
  rw [leadShape] at h
  simp only [Bool.and_eq_true, decide_eq_true_eq, beq_iff_eq, UInt8.le_iff_toNat_le,
    ← UInt8.toNat_inj] at h hlow hhigh
  repeat' split at h
  all_goals cases h
  all_goals
    simp only [hone, htwo, hthree, UInt8.reduceToNat] at *
    omega

end Shape

theorem readTails_append_feed (n code : Nat) (rest : Bytes) :
    readTails n code (rest ++ [10]) =
      ((readTails n code rest).1, (readTails n code rest).2 ++ [10]) := by
  induction n generalizing code rest with
  | zero => rfl
  | succ n ih =>
      cases rest with
      | nil => rfl
      | cons b rest =>
          rw [List.cons_append, readTails, readTails]
          split
          · exact ih _ _
          · rfl

theorem headChar_append_feed (b : UInt8) (rest : Bytes) :
    headChar b (rest ++ [10]) = ((headChar b rest).1, (headChar b rest).2 ++ [10]) := by
  rw [headChar, headChar]
  split
  · rfl
  · cases hshape : leadShape b with
    | none => rfl
    | some shape =>
        obtain ⟨n, low, high⟩ := shape
        cases rest with
        | nil =>
            have hlow : ¬ low ≤ 10 := UInt8.not_le.mpr (lt_of_leadShape hshape).2
            simp [hlow]
        | cons t more =>
            dsimp only [List.cons_append]
            split
            · rw [readTails_append_feed]
            · rfl

theorem decodeLossyOnto_cons (read : List Char) (b : UInt8) (rest : Bytes) :
    decodeLossyOnto read (b :: rest) =
      decodeLossyOnto ((headChar b rest).1.getD '\uFFFD' :: read) (headChar b rest).2 := by
  rw [decodeLossyOnto]

theorem decodeLossyOnto_append_feed (read : List Char) (bs : Bytes) :
    decodeLossyOnto read (bs ++ [10]) = decodeLossyOnto read bs ++ ['\n'] := by
  induction read, bs using decodeLossyOnto.induct with
  | case1 read => simp [decodeLossyOnto, headChar]
  | case2 read b rest c left hhead hlength ih =>
      rw [List.cons_append, decodeLossyOnto_cons, decodeLossyOnto_cons, headChar_append_feed, hhead]
      exact ih

/-- The line feed behind a line is decoded on its own. -/
theorem decodeLossy_append_feed (bs : Bytes) : decodeLossy (bs ++ [10]) = decodeLossy bs ++ ['\n'] :=
  decodeLossyOnto_append_feed [] bs

theorem readTails_suffix (n code : Nat) (rest : Bytes) : (readTails n code rest).2 <:+ rest := by
  induction n generalizing code rest with
  | zero => exact List.suffix_rfl
  | succ n ih =>
      cases rest with
      | nil => exact List.suffix_rfl
      | cons b rest =>
          rw [readTails]
          split
          · exact (ih _ _).trans (List.suffix_cons b rest)
          · exact List.suffix_rfl

theorem headChar_suffix (b : UInt8) (rest : Bytes) : (headChar b rest).2 <:+ rest := by
  rw [headChar]
  split
  · exact List.suffix_rfl
  · cases leadShape b with
    | none => exact List.suffix_rfl
    | some shape =>
        cases rest with
        | nil => exact List.suffix_rfl
        | cons t more =>
            dsimp only
            split
            · exact (readTails_suffix _ _ _).trans (List.suffix_cons t more)
            · exact List.suffix_rfl

/-- More tails make the code point larger. -/
theorem lt_of_readTails {n code value : Nat} {rest : Bytes} (hpos : 0 < code)
    (hbig : n = 0 → 10 < code) (h : (readTails n code rest).1 = some value) : 10 < value := by
  induction n generalizing code rest with
  | zero =>
      cases h
      exact hbig rfl
  | succ n ih =>
      cases rest with
      | nil => cases h
      | cons b rest =>
          rw [readTails] at h
          split at h
          · exact ih (by omega) (by omega) h
          · cases h

theorem ofNat_ne_feed {n : Nat} (h : n ≠ 10) : Char.ofNat n ≠ '\n' := by
  intro heq
  by_cases hvalid : n.isValidChar
  · have hchar : Char.ofNat n = Char.ofNatAux n hvalid := dif_pos hvalid
    exact h (congrArg Char.toNat (hchar.symm.trans heq))
  · have hnull : Char.ofNat n = '\x00' := dif_neg hvalid
    exact absurd (hnull.symm.trans heq) (by decide)

/-- Only the byte of the line feed spells a line feed. -/
theorem headChar_ne_feed {b : UInt8} {rest : Bytes} (hb : b ≠ 10) :
    (headChar b rest).1 ≠ some '\n' := by
  rw [headChar]
  split
  · intro heq
    refine ofNat_ne_feed (fun hvalue ↦ hb ?_) (Option.some.inj heq)
    exact UInt8.toNat_inj.mp hvalue
  · cases hshape : leadShape b with
    | none => nofun
    | some shape =>
        obtain ⟨n, low, high⟩ := shape
        cases rest with
        | nil => nofun
        | cons t more =>
            dsimp only
            split
            · rename_i hrange
              obtain ⟨hlow, hhigh⟩ : low ≤ t ∧ t ≤ high := by simpa using hrange
              obtain ⟨hpos, hone⟩ := code_pos hshape hlow hhigh
              obtain ⟨hn, -⟩ := lt_of_leadShape hshape
              intro heq
              obtain ⟨value, hvalue, hchar⟩ := Option.map_eq_some_iff.mp heq
              have hbig : 10 < value := lt_of_readTails hpos (by omega) hvalue
              exact ofNat_ne_feed (by omega) hchar
            · nofun

theorem feed_notMem_decodeLossyOnto {read : List Char} {bs : Bytes} (hread : '\n' ∉ read)
    (hbytes : 10 ∉ bs) : '\n' ∉ decodeLossyOnto read bs := by
  induction read, bs using decodeLossyOnto.induct with
  | case1 read => simpa [decodeLossyOnto] using hread
  | case2 read b rest c left hhead hlength ih =>
      obtain ⟨hb, hrest⟩ : (10 : UInt8) ≠ b ∧ 10 ∉ rest := by simpa using hbytes
      have hleft : left <:+ rest := by
        have hsuffix := headChar_suffix b rest
        rwa [hhead] at hsuffix
      have hc : c ≠ some '\n' := by
        have hfirst : (headChar b rest).1 ≠ some '\n' := headChar_ne_feed hb.symm
        rwa [hhead] at hfirst
      rw [decodeLossyOnto_cons, hhead]
      refine ih ?_ fun hmem ↦ hrest (hleft.subset hmem)
      cases c with
      | none => simpa using hread
      | some c => simpa [Ne.symm (fun h ↦ hc (congrArg some h))] using hread

theorem feed_notMem_decodeLossy {bs : Bytes} (hbytes : 10 ∉ bs) : '\n' ∉ decodeLossy bs :=
  feed_notMem_decodeLossyOnto List.not_mem_nil hbytes

end BleBridge.Text
