import BleBridge.Proofs.Bench.Listening

/-!
# What else happens on the bench

While routines are under way the bus refuses operations, subscriptions work off their
messages or end, others subscribe past the client, and time passes (`World.happen`).
None of it makes a topic live or ceases to be so, notes a topic or raises the flag
(`Tidy.stays_happen`).
-/

namespace BleBridge.Bench

/-- What happens on the bench that no routine calls for. -/
inductive Happening where
  | tap (filter : String) (number : Nat)
  /-- A subscription to responses works. -/
  | listen (k : Nat)
  /-- Another subscription takes a message, or ends. -/
  | take (k : Nat)
  | quit (k : Nat)
  /-- From now on the bus refuses these operations, and no others. -/
  | refuse (operations : List Bus.Operation)
  | setTimeout (timeout : Millis)
  | endGraces
  /-- Time passes, and anything happens to the bench but for the client, its subscriptions and the
  flag. -/
  | drift (w : World)

namespace World

/-- The subscription at `k`, if it is not one to responses. -/
def other? (w : World) (k : Nat) : Option Listener :=
  w.listeners[k]?.filter (·.use ≠ .responses)

def happen (w : World) : Happening → World
  | .tap filter number => (w.tap filter number).1
  | .listen k =>
      match w.other? k with
      | some _ => w
      | none => (runListeners 1 k w).1
  | .take k =>
      match (w.other? k).bind (w.client.receive ·.channel) with
      | some (_, client) => w.setClient client
      | none => w
  | .quit k =>
      match w.other? k with
      | some l => w.stopped k l
      | none => w
  | .refuse operations =>
      w.setClient { w.client with
        transport := { w.client.transport with refusing := operations } }
  | .setTimeout timeout => w.setClient { w.client with timeout }
  | .endGraces => w.endGraces
  | .drift w' =>
      { w' with
        client := w.client
        listeners := w.listeners
        responseSubscribed := w.responseSubscribed }

variable {w w' w'' : World} {l : Listener} {k : Nat}

/-- All stays as it is that has to do with subscriptions to responses. -/
structure Stays (w w' : World) : Prop where
  passes : Passes w w'
  topics : w'.client.responseTopics = w.client.responseTopics
  flag : w'.responseSubscribed = w.responseSubscribed

theorem Stays.trans (h : Stays w w') (h' : Stays w' w'') : Stays w w'' :=
  ⟨h.passes.trans h'.passes, h'.topics.trans h.topics, h'.flag.trans h.flag⟩

theorem Tidy.stays_keeps (h : Tidy w) (hkeeps : Keeps w w') : Stays w w' :=
  ⟨h.passes_alike hkeeps.alike, hkeeps.client.topics, hkeeps.flag⟩

theorem Tidy.stays_refl (h : Tidy w) : Stays w w := h.stays_keeps (.refl w)

theorem Tidy.stays_stopped (h : Tidy w) (hk : w.listeners[k]? = some l)
    (hdead : ∀ topic, ¬ Lasts w topic l) : Stays w (w.stopped k l) where
  passes := h.passes_stopped hk hdead
  topics := by
    rw [client_stopped]
    rfl
  flag := w.flag_stopListener l

theorem Tidy.stays_happen (h : Tidy w) (e : Happening) : Stays w (w.happen e) := by
  cases e with
  | tap filter number =>
      rcases w.tap_cases filter number with hkeeps | ⟨l, hjoins⟩
      · exact h.stays_keeps hkeeps
      · exact ⟨h.passes_joins hjoins, hjoins.topics, hjoins.flag⟩
  | listen k =>
      rw [happen]
      split
      · exact h.stays_refl
      · rename_i hother
        cases hk : w.listeners[k]? with
        | none =>
            have hidle : (runListeners 1 k w).1 = w := by simp [runListeners, hk]
            rw [hidle]
            exact h.stays_refl
        | some l =>
            have huse : l.use = .responses := by simpa [other?, hk] using hother
            obtain ⟨w₁, hkeeps, hcases⟩ := h.listen_cases hk huse
            have hstays := h.stays_keeps hkeeps
            rcases hcases with hsame | ⟨hstopped, hdead⟩
            · exact hsame ▸ hstays
            · have hk₁ : w₁.listeners[k]? = some l := hkeeps.listeners ▸ hk
              exact hstopped ▸ hstays.trans (hstays.passes.tidy.stays_stopped hk₁ hdead)
  | take k =>
      rw [happen]
      split
      · rename_i m client htaken
        obtain ⟨l, -, hreceive⟩ := Option.bind_eq_some_iff.mp htaken
        exact h.stays_keeps (keeps_setClient (Bus.Client.keeps_receive hreceive))
      · exact h.stays_refl
  | quit k =>
      rw [happen]
      split
      · rename_i l hother
        obtain ⟨hk, huse⟩ := Option.filter_eq_some_iff.mp hother
        refine h.stays_stopped hk fun topic hlasts ↦ ?_
        simp [hlasts.use] at huse
      · exact h.stays_refl
  | refuse operations =>
      exact h.stays_keeps (keeps_setClient ⟨Bus.Broker.keeps_of_eq rfl, rfl, rfl⟩)
  | setTimeout timeout => exact h.stays_keeps (keeps_setClient (Bus.Client.keeps_of_eq rfl rfl rfl))
  | endGraces => exact h.stays_keeps (keeps_setClient (w.client.keeps_endGraces w.now))
  | drift w' => exact h.stays_keeps (keeps_of_eq rfl rfl rfl)

end World

end BleBridge.Bench
