import BleBridge.Modem.Reply
import BleBridge.Proofs.Text.Lines
import BleBridge.Proofs.Text.Pieces

/-!
# Reports on one line

The module sends several reports on one line, each behind the marker.  A line with a
marker on it is always a report, whatever else stands on it (`classifyLine_of_contains`),
and a marker that cannot overlap itself stands between the segments and nowhere else,
so that joined segments are told apart again (`splitReport_joined`).
-/

namespace BleBridge.Modem

variable {line marker : String} {segments : List String}

theorem splitReport_joined (hmarker : marker ≠ "") (hunbordered : Text.Unbordered marker.toList)
    (hne : segments ≠ []) (h : ∀ segment ∈ segments, ¬ Text.contains segment marker) :
    splitReport (marker.intercalate segments) marker =
      (segments.map Text.trim).filter (· ≠ "") := by
  have hpieces : Text.splitAt marker.toList (marker.intercalate segments).toList =
      segments.map String.toList := by
    rw [String.toList_intercalate]
    refine Text.splitAt_intercalate (mt String.toList_eq_nil_iff.mp hmarker) hunbordered
      (mt List.map_eq_nil_iff.mp hne) ?_
    intro piece hpiece
    obtain ⟨segment, hsegment, rfl⟩ := List.mem_map.mp hpiece
    exact mt Text.contains_iff.mpr (h segment hsegment)
  have htrim : segments.map Text.trim =
      ((segments.map String.toList).map Text.trimChars).map String.ofList := by
    rw [List.map_map, List.map_map]
    rfl
  have hkept (pieces : List (List Char)) : (pieces.map String.ofList).filter (· ≠ "") =
      (pieces.filter (!·.isEmpty)).map String.ofList := by
    rw [List.filter_map]
    congr 2
    funext cs
    cases cs with
    | nil => rfl
    | cons c cs => simp
  rw [splitReport, hpieces, htrim, hkept]

theorem classifyLine_of_contains (hmarker : marker ≠ "") (h : Text.contains line marker) :
    classifyLine line marker = .report (splitReport line marker) := by
  rw [classifyLine, if_pos ⟨hmarker, h⟩]

theorem contains_joined (marker : String) (h : 2 ≤ segments.length) :
    Text.contains (marker.intercalate segments) marker := by
  obtain ⟨first, rest, rfl⟩ := List.exists_cons_of_length_pos (Nat.zero_lt_of_lt h)
  obtain ⟨second, later, rfl⟩ := List.exists_cons_of_length_pos (Nat.lt_of_succ_lt_succ h)
  rw [Text.contains_iff, String.toList_intercalate]
  exact Text.infix_intercalate _ _ _ _

/-- Segments that were joined with the marker come out trimmed and in order, without the empty ones;
and nothing on a line with a marker ends a reply. -/
theorem classifyLine_joined (hmarker : marker ≠ "")
    (hunbordered : Text.Unbordered marker.toList) (hlength : 2 ≤ segments.length)
    (h : ∀ segment ∈ segments, ¬ Text.contains segment marker) :
    classifyLine (marker.intercalate segments) marker =
        .report ((segments.map Text.trim).filter (· ≠ "")) ∧
      ∀ line status, Text.contains line marker → classifyLine line marker ≠ .terminal status := by
  constructor
  · have hne : segments ≠ [] := List.ne_nil_of_length_pos (Nat.zero_lt_of_lt hlength)
    rw [classifyLine_of_contains hmarker (contains_joined marker hlength),
      splitReport_joined hmarker hunbordered hne h]
  · intro line status hline hterminal
    rw [classifyLine_of_contains hmarker hline] at hterminal
    cases hterminal

theorem unbordered_defaultReportMarker : Text.Unbordered defaultReportMarker.toList := by
  have honce : Text.Unbordered ([] ++ '+' :: ("COMMAND".toList ++ [':'])) :=
    Text.unbordered_of_once List.not_mem_nil (by decide) List.not_mem_nil (by decide)
  exact honce

/-- Segments with the tokens of replies and with parts of the marker at their ends. -/
theorem classifyLine_joined_of_tokens :
    defaultReportMarker ≠ "" ∧ Text.Unbordered defaultReportMarker.toList ∧
      (∀ segment ∈ ["OK+COM", " ", "MAND:ERROR", " +CME ERROR: 3 "],
        ¬ Text.contains segment defaultReportMarker) ∧
      classifyLine "OK+COM+COMMAND: +COMMAND:MAND:ERROR+COMMAND: +CME ERROR: 3 " "+COMMAND:" =
        .report ["OK+COM", "MAND:ERROR", "+CME ERROR: 3"] := by
  have hmarker : defaultReportMarker ≠ "" := by decide
  have hsegments : ∀ segment ∈ ["OK+COM", " ", "MAND:ERROR", " +CME ERROR: 3 "],
      ¬ Text.contains segment defaultReportMarker := by decide
  refine ⟨hmarker, unbordered_defaultReportMarker, hsegments, ?_⟩
  exact (classifyLine_joined hmarker unbordered_defaultReportMarker (by decide) hsegments).1

end BleBridge.Modem
