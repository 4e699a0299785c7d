import BleBridge.Proofs.Mux.Exchange

/-!
# What a history can say

Every entry of a history tells something that the multiplexer can do: lines are
entered trimmed, with something on them and without a line feed, and a request that
fails without a reply fails because it could not be written or because the
multiplexer closed (`Deed.Proper`).  Each action is looked at once
(`State.proper_deeds`).
-/

namespace BleBridge.Mux

/-- The entry says something that the multiplexer can do. -/
def Deed.Proper : Deed → Prop
  | .heard line => Text.IsLine line.text
  | .arrived text _ => Text.IsLine text
  | .refused _ e => (∃ reason, e = .write reason) ∨ ∃ reason, e = .closed reason
  | .abandoned _ e => ∃ reason, e = .closed reason
  | _ => True

namespace State

variable {s s' : State} {now : Instant}

theorem proper_terminalDeeds (text : String) (status : Modem.Status) (readAt : Instant) :
    ∀ d ∈ s.terminalDeeds text status readAt, d.Proper := by
  rw [terminalDeeds]
  split
  · simp [Deed.Proper]
  · split <;> simp [Deed.Proper]

theorem proper_lineDeeds {raw : Bytes} (hline : lineText raw ≠ "" → Text.IsLine (lineText raw)) :
    ∀ d ∈ s.lineDeeds raw now, d.Proper := by
  intro d hd
  rcases List.mem_append.mp hd with hd | hd
  · obtain ⟨r, -, rfl⟩ := List.mem_map.mp hd
    trivial
  · rw [routeDeeds] at hd
    split at hd
    · cases hd
    · rename_i hroutes
      have hline : Text.IsLine (lineText raw) := by
        refine hline fun hempty ↦ hroutes ?_
        simp [hempty]
      split at hd
      · cases hd
      · obtain rfl := List.mem_singleton.mp hd
        exact hline
      · rcases List.mem_cons.mp hd with rfl | hd
        · exact hline
        · split at hd
          · cases hd
          · exact proper_terminalDeeds _ _ _ d hd

/-- A line is entered without its line feed, and what is left at the end of the stream has none. -/
theorem proper_deeds {a : Action} {events : List Event} (h : s.step now a = some (s', events)) :
    ∀ d ∈ s.deeds now a, d.Proper := by
  cases a with
  | readLine =>
      cases hwhole : s.wholeLine with
      | none => simp [deeds, hwhole]
      | some whole =>
          obtain ⟨raw, later⟩ := whole
          obtain ⟨line, rfl, hfeed, -⟩ := exists_of_wholeLine hwhole
          rw [deeds_readLine hwhole]
          refine proper_lineDeeds fun hne ↦ ?_
          rw [lineText_append_feed] at hne ⊢
          exact isLine_lineText hfeed hne
  | readEnd =>
      have htaken : s.readEnd now = some (s', events) := h
      by_cases hbuffer : s.buffer = []
      · rw [deeds_readEnd_nil hbuffer]
        simp
      · have hfeed : lineFeed ∉ s.buffer := by
          refine wholeLine_eq_none_iff.mp ?_
          rw [readEnd] at htaken
          split at htaken
          · assumption
          · assumption
          · cases htaken
        rw [deeds_readEnd hbuffer]
        exact proper_lineDeeds fun hne ↦ isLine_lineText hfeed hne
  | meetHanded =>
      rw [deeds]
      split
      · exact proper_terminalDeeds _ _ _
      · simp
  | graceEnds =>
      rw [deeds]
      split
      · exact proper_terminalDeeds _ _ _
      · simp
  | enter o ticket => simp [deeds, Deed.Proper]
  | wrote =>
      rw [deeds]
      split <;> simp [Deed.Proper]
  | handOff =>
      rw [deeds]
      split
      · split <;> simp [Deed.Proper]
      · simp
  | writeFailed fault =>
      rw [deeds]
      split <;> simp [Deed.Proper]
  | stopWriter =>
      intro d hd
      rcases List.mem_append.mp hd with hd | hd
      · split at hd
        · obtain rfl := List.mem_singleton.mp hd
          exact .inr ⟨_, rfl⟩
        · cases hd
      · obtain ⟨r, -, rfl⟩ := List.mem_map.mp hd
        exact .inr ⟨_, rfl⟩
  | stopReader =>
      intro d hd
      obtain ⟨r, -, rfl⟩ := List.mem_map.mp hd
      exact ⟨_, rfl⟩
  | lineUp | leaveLine | take | receive | readFailed | restEnds | delayEnds | takeReports | takeRaw
  | close => simp [deeds]

end State

namespace Run

variable {settings : Config.Mux} {h : History} {s : State}

theorem proper (run : Run settings h s) : ∀ d ∈ h, d.Proper := by
  induction run with
  | start => exact nofun
  | step _ taken ih =>
      intro d hd
      rcases List.mem_append.mp hd with hd | hd
      · exact ih d hd
      · exact State.proper_deeds taken d hd

end Run

end BleBridge.Mux
