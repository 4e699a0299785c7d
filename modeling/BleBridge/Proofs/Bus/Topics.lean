import BleBridge.Bus.Topic
import BleBridge.Proofs.Text.Separated

/-!
# Topics level by level

A topic is its levels with slashes between them (`ofLevels_levels`, `levels_ofLevels`), so
what is said of filters and topics can be said of lists of levels.

A filter that covers a topic (`Covers`) has a level for each level of the topic up to the
end of both, or up to a `#`.  This is how filters are matched (`topicMatches_iff`).  The
levels at the end of a filter can be replaced by any that cover at least the same
(`Covers.append`), so a wildcard in place of levels never loses a topic.
-/

namespace BleBridge.Bus

variable {filter topic level f t : String} {front back back' fs ts ls : List String}

/-! ## Levels -/

theorem levels_eq (topic : String) :
    levels topic = (topic.toList.splitOn '/').map String.ofList := by
  rw [levels, Text.splitAt_singleton]

theorem levels_join (front back : String) :
    levels (front ++ "/" ++ back) = levels front ++ levels back := by
  have hjoin : (front ++ "/" ++ back).toList = front.toList ++ '/' :: back.toList := by
    simp only [String.toList_append, List.append_assoc]
    rfl
  rw [levels_eq, hjoin, List.splitOn_append_cons_self, List.map_append, ← levels_eq, ← levels_eq]

theorem length_levels (topic : String) : (levels topic).length = topic.toList.count '/' + 1 := by
  rw [levels_eq, List.length_map, Text.length_splitOn]

theorem levels_of_slashless (h : '/' ∉ topic.toList) : levels topic = [topic] := by
  rw [levels_eq, List.splitOn_eq_singleton h, List.map_singleton, String.ofList_toList]

theorem slashless_of_mem_levels (h : level ∈ levels topic) : '/' ∉ level.toList := by
  obtain ⟨piece, hpiece, rfl⟩ := List.mem_map.mp h
  rw [String.toList_ofList, ← List.singleton_infix_iff]
  exact Text.not_infix_of_mem_splitAt (List.cons_ne_nil _ _) hpiece

theorem slashless_of_levels_eq (h : levels topic = front ++ back) :
    (∀ level ∈ front, '/' ∉ level.toList) ∧ ∀ level ∈ back, '/' ∉ level.toList := by
  rw [← List.forall_mem_append, ← h]
  exact fun _ ↦ slashless_of_mem_levels

/-- The topic with these levels. -/
def ofLevels (ls : List String) : String := "/".intercalate ls

theorem toList_ofLevels (ls : List String) :
    (ofLevels ls).toList = ['/'].intercalate (ls.map String.toList) :=
  String.toList_intercalate

theorem ofLevels_levels (topic : String) : ofLevels (levels topic) = topic := by
  have hpieces : (levels topic).map String.toList = topic.toList.splitOn '/' := by
    rw [levels_eq, List.map_map]
    simp [Function.comp_def]
  apply String.toList_inj.mp
  rw [toList_ofLevels, hpieces, List.intercalate_splitOn]

theorem levels_ofLevels (hne : ls ≠ []) (h : ∀ level ∈ ls, '/' ∉ level.toList) :
    levels (ofLevels ls) = ls := by
  have hslashless : ∀ piece ∈ ls.map String.toList, '/' ∉ piece := by
    intro piece hpiece
    obtain ⟨level, hlevel, rfl⟩ := List.mem_map.mp hpiece
    exact h level hlevel
  rw [levels_eq, toList_ofLevels,
    List.splitOn_intercalate '/' hslashless (mt List.map_eq_nil_iff.mp hne), List.map_map]
  simp [Function.comp_def]

/-! ## Matching -/

/-- One level of a filter stands for one level of a topic. -/
def StandsFor (f t : String) : Prop := f ≠ "#" ∧ (f = "+" ∨ f = t)

/-- The first levels of a filter stand for those of a topic, one by one, and there either both end
or the filter has a `#`. -/
def Covers (fs ts : List String) : Prop :=
  ∃ k ≤ ts.length, List.Forall₂ StandsFor (fs.take k) (ts.take k) ∧
    (fs.length = k ∧ ts.length = k ∨ fs[k]? = some "#")

theorem covers_hash (fs ts : List String) : Covers ("#" :: fs) ts :=
  ⟨0, Nat.zero_le _, .nil, .inr rfl⟩

theorem covers_nil_iff : Covers [] ts ↔ ts = [] := by
  constructor
  · rintro ⟨k, -, -, ⟨hk, hlength⟩ | hhash⟩
    · exact List.eq_nil_of_length_eq_zero (hlength.trans hk.symm)
    · cases hhash
  · rintro rfl
    exact ⟨0, Nat.le_refl 0, .nil, .inl ⟨rfl, rfl⟩⟩

theorem covers_cons_nil_iff : Covers (f :: fs) [] ↔ f = "#" := by
  constructor
  · rintro ⟨k, hk, -, hend⟩
    obtain rfl : k = 0 := Nat.le_zero.mp hk
    rcases hend with ⟨hlength, -⟩ | hhash
    · cases hlength
    · exact Option.some.inj hhash
  · rintro rfl
    exact covers_hash fs []

theorem covers_cons_cons_iff :
    Covers (f :: fs) (t :: ts) ↔ f = "#" ∨ (f = "+" ∨ f = t) ∧ Covers fs ts := by
  constructor
  · rintro ⟨k, hk, hstands, hend⟩
    cases k with
    | zero =>
        rcases hend with ⟨hlength, -⟩ | hhash
        · cases hlength
        · exact .inl (Option.some.inj hhash)
    | succ k =>
        obtain ⟨⟨-, hfirst⟩, hlater⟩ := List.forall₂_cons.mp hstands
        exact .inr ⟨hfirst, k, Nat.le_of_succ_le_succ hk, hlater, by simpa using hend⟩
  · rintro (rfl | ⟨hfirst, k, hk, hlater, hend⟩)
    · exact covers_hash fs (t :: ts)
    · -- `t` may be a `#` too, and then `f` covers it without the levels behind
      by_cases hhash : f = "#"
      · rw [hhash]
        exact covers_hash fs (t :: ts)
      · exact ⟨k + 1, Nat.succ_le_succ hk, .cons ⟨hhash, hfirst⟩ hlater, by simpa using hend⟩

theorem levelsMatch_iff (fs ts : List String) : levelsMatch fs ts ↔ Covers fs ts := by
  fun_induction levelsMatch fs ts with
  | case1 => simp [covers_nil_iff]
  | case2 t ts => simp [covers_nil_iff]
  | case3 f fs => rw [beq_iff_eq, covers_cons_nil_iff]
  | case4 f fs t ts ih =>
      rw [covers_cons_cons_iff, ← ih]
      simp

/-! ## Other filters for the same topics -/

theorem covers_self (ts : List String) : Covers ts ts := by
  induction ts with
  | nil => exact covers_nil_iff.mpr rfl
  | cons t ts ih => exact covers_cons_cons_iff.mpr (.inr ⟨.inr rfl, ih⟩)

/-- The end of a filter can be replaced by one that covers at least the same levels. -/
theorem Covers.append (hback : ∀ ts, Covers back ts → Covers back' ts)
    (h : Covers (front ++ back) ts) : Covers (front ++ back') ts := by
  induction front generalizing ts with
  | nil => exact hback ts h
  | cons f front ih =>
      cases ts with
      | nil => exact covers_cons_nil_iff.mpr (covers_cons_nil_iff.mp h)
      | cons t ts =>
          rcases covers_cons_cons_iff.mp h with hhash | ⟨hfirst, hlater⟩
          · exact covers_cons_cons_iff.mpr (.inl hhash)
          · exact covers_cons_cons_iff.mpr (.inr ⟨hfirst, ih hlater⟩)

theorem Covers.plus (hplain : f ≠ "#") (h : Covers (f :: fs) ts) : Covers ("+" :: fs) ts := by
  cases ts with
  | nil => exact absurd (covers_cons_nil_iff.mp h) hplain
  | cons t ts =>
      rcases covers_cons_cons_iff.mp h with hhash | ⟨-, hlater⟩
      · exact absurd hhash hplain
      · exact covers_cons_cons_iff.mpr (.inr ⟨.inl rfl, hlater⟩)

theorem topicMatches_iff (filter topic : String) :
    topicMatches filter topic ↔ Covers (levels filter) (levels topic) :=
  levelsMatch_iff (levels filter) (levels topic)

/-- The levels from some place on can be replaced by such as cover at least the same levels. -/
theorem topicMatches_append (hfilter : levels filter = front ++ back) (hne : back' ≠ [])
    (hslashless : ∀ level ∈ back', '/' ∉ level.toList)
    (hback : ∀ ts, Covers back ts → Covers back' ts) (h : topicMatches filter topic) :
    topicMatches (ofLevels (front ++ back')) topic := by
  have hlevels : levels (ofLevels (front ++ back')) = front ++ back' := by
    have hfront := (slashless_of_levels_eq hfilter).1
    exact levels_ofLevels (List.append_ne_nil_of_right_ne_nil front hne)
      (List.forall_mem_append.mpr ⟨hfront, hslashless⟩)
  rw [topicMatches_iff, hfilter] at h
  rw [topicMatches_iff, hlevels]
  exact h.append hback

/-- A filter matches the topics that it covers level by level, where slashes stand between the
levels and nowhere else.  So a topic matches itself, and no topic is lost when a level of a filter
is replaced by `+`, or the levels from some place on by `#`. -/
theorem topicMatches_levelwise (filter topic : String) :
    (ofLevels (levels filter) = filter ∧ ∀ level ∈ levels filter, '/' ∉ level.toList) ∧
      (topicMatches filter topic ↔ Covers (levels filter) (levels topic)) ∧
      topicMatches topic topic ∧
      (∀ front level back, levels filter = front ++ level :: back → level ≠ "#" →
        topicMatches filter topic → topicMatches (ofLevels (front ++ "+" :: back)) topic) ∧
      ∀ front back, levels filter = front ++ back →
        topicMatches filter topic → topicMatches (ofLevels (front ++ ["#"])) topic := by
  refine ⟨⟨ofLevels_levels filter, fun _ ↦ slashless_of_mem_levels⟩, topicMatches_iff filter topic,
    ?_, ?_, ?_⟩
  · exact (topicMatches_iff topic topic).mpr (covers_self (levels topic))
  · intro front level back hfilter hplain h
    have hback := (List.forall_mem_cons.mp (slashless_of_levels_eq hfilter).2).2
    exact topicMatches_append hfilter (List.cons_ne_nil _ _)
      (List.forall_mem_cons.mpr ⟨by decide, hback⟩) (fun _ ↦ Covers.plus hplain) h
  · intro front back hfilter h
    exact topicMatches_append hfilter (List.cons_ne_nil _ _) (by decide)
      (fun ts _ ↦ covers_hash [] ts) h

/-- A filter with empty levels and with a level behind its `#`. -/
theorem topicMatches_levelwise_of_empty :
    levels "/a//#/+" = ["", "a", "", "#", "+"] ∧ Covers (levels "/a//#/+") (levels "/a/") ∧
      topicMatches "/a//#/+" "/a/" ∧ topicMatches "+/a//#/+" "/a/" ∧
      topicMatches "/#" "/a/" := by
  have hfilter : levels "/a//#/+" = ["", "a", "", "#", "+"] := levels_eq _
  have htopic : levels "/a/" = ["", "a", ""] := levels_eq _
  have hmatches : topicMatches "/a//#/+" "/a/" := by
    rw [topicMatches, hfilter, htopic]
    decide
  obtain ⟨-, hcovers, -, hplus, hhash⟩ := topicMatches_levelwise "/a//#/+" "/a/"
  exact ⟨hfilter, hcovers.mp hmatches, hmatches,
    hplus [] "" ["a", "", "#", "+"] hfilter (by decide) hmatches,
    hhash [""] ["a", "", "#", "+"] hfilter hmatches⟩

end BleBridge.Bus
