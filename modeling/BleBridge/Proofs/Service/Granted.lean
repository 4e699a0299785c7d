import BleBridge.Proofs.Service.Careful
import BleBridge.Proofs.Service.Unbroken

/-!
# What the service knows of its subscription

The service asks for a response only once a subscription to its response topic has
been `Granted`: a call of its own for one has come back without an error.  That is
all that its flag, and the answers that its routines have had, ever stand for
(`Informed`).  A grant is never taken back, whatever becomes of the subscription.
-/

namespace BleBridge.Bench

variable {w : World} {own : Bool} {x : Errand} {topic : String} {known known' : Prop}

/-- The errand presumes a subscription only when it knows of one. -/
def Errand.Careful (topic : String) (known : Prop) : Errand → Prop
  | .going p => p.Careful topic known
  | .waiting c _ next =>
      (c.presumes → known) ∧ ∀ r, (next r).Careful topic (known ∨ c.tells topic r)

/-- The next step of the errand is the end of a subscription to the topic without an error. -/
def Errand.Grants (w : World) (topic : String) : Errand → Prop
  | .going _ => False
  | .waiting c wait _ => ∃ r, (w.lookAgain wait).2 = .answer r ∧ c.subscribes topic r

theorem Errand.Careful.mono (h : x.Careful topic known) (hknown : known → known') :
    x.Careful topic known' := by
  cases x with
  | going p => exact Routine.Careful.mono h hknown
  | waiting c wait next =>
      exact ⟨hknown ∘ h.1, fun r ↦ (h.2 r).mono (Or.imp_left hknown)⟩

namespace World

/-- A call that is answered at once tells of a subscription when the flag is up. -/
theorem tells_begin {c : Call} {r : c.Answer} (hanswer : (w.begin own c).2 = .answer r)
    (htells : c.tells topic r) : w.responseSubscribed := by
  cases c with
  | isResponseSubscribed =>
      cases hanswer
      exact htells
  | subscribeResponse t => cases hanswer
  | _ => cases htells

/-- A call that was waited for tells of a subscription when it was one. -/
theorem subscribes_of_tells {c : Call} (wait : Wait c) {r : c.Answer}
    (htells : c.tells topic r) : c.subscribes topic r := by
  cases wait <;> exact htells

/-- Nobody but the service raises the flag. -/
theorem flag_stride (w : World) (own : Bool) (x : Errand) :
    (w.stride own x).1.responseSubscribed = w.responseSubscribed ∨
      own ∧ ∃ next, x = .going (.call .markResponseSubscribed next) := by
  have hdoes := w.does_stride own x
  generalize (w.stride own x).1 = w' at hdoes ⊢
  cases hdoes with
  | keeps hturn hkeeps => exact .inl hkeeps.flag
  | joins hturn hjoins => exact .inl hjoins.flag
  | marks next =>
      cases own with
      | true => exact .inr ⟨rfl, next, rfl⟩
      | false => exact .inl (Bool.or_false _)
  | enlists t e next => exact .inl (w.flag_enlist t e)
  | cancels next => exact .inl rfl
  | leaves cancelled next => exact .inl (w.flag_leave cancelled)

end World

/-- What an errand comes to know in a step it knows from the flag or from a grant. -/
theorem Errand.Careful.stride (h : x.Careful topic known) (hflag : w.responseSubscribed → known) :
    (w.stride own x).2.Careful topic (known ∨ x.Grants w topic) := by
  cases x with
  | going p =>
      cases p with
      | done r => exact Routine.Careful.mono h .inl
      | call c next =>
          obtain ⟨hpresumes, hnext⟩ := Routine.Careful.of_call h
          rw [World.stride]
          cases hlook : (w.begin own c).2 with
          | answer r =>
              refine (hnext r).mono ?_
              rintro (hknown | htells)
              · exact .inl hknown
              · exact .inl (hflag (World.tells_begin hlook htells))
          | wait wait => exact ⟨.inl ∘ hpresumes, fun r ↦ (hnext r).mono (Or.imp_left .inl)⟩
  | waiting c wait next =>
      obtain ⟨hpresumes, hnext⟩ := h
      rw [World.stride]
      cases hlook : (w.lookAgain wait).2 with
      | answer r =>
          refine (hnext r).mono ?_
          rintro (hknown | htells)
          · exact .inl hknown
          · exact .inr ⟨r, hlook, World.subscribes_of_tells wait htells⟩
      | wait wait => exact ⟨.inl ∘ hpresumes, fun r ↦ (hnext r).mono (Or.imp_left .inl)⟩

end BleBridge.Bench

namespace BleBridge.Service.Site

open Bench (Device)

variable {c : Commands} {s : Site} {acts : List Act} {a : Act} {topic : String} {known : Prop}

/-- A call of the service for a subscription to the topic comes back without an error. -/
def Grants (s : Site) (topic : String) (a : Act) : Prop :=
  ∃ n x, a = .proceed n ∧ s.chores[n]? = some x ∧ x.own ∧ x.errand.Grants s.world topic

/-- A call of the service for a subscription to the topic has come back without an error. -/
def Granted (c : Commands) (s : Site) (topic : String) : List Act → Prop :=
  Since (fun acts a ↦ (s.run c acts).Grants topic a) fun _ _ ↦ True

theorem granted_concat_iff : Granted c s topic (acts ++ [a]) ↔
    Granted c s topic acts ∨ (s.run c acts).Grants topic a := by
  rw [Granted, since_concat_iff, and_true, or_comm]

/-- A grant is never taken back. -/
theorem Granted.append (h : Granted c s topic acts) (later : List Act) :
    Granted c s topic (acts ++ later) := by
  induction later using List.reverseRecOn with
  | nil => exact (List.append_nil acts).symm ▸ h
  | append_singleton later a ih =>
      rw [← List.append_assoc]
      exact granted_concat_iff.mpr (.inl ih)

/-- The flag and the errands of the service stand for nothing but what is known. -/
structure Informed (topic : String) (known : Prop) (s : Site) : Prop where
  flag : s.world.responseSubscribed → known
  careful : ∀ x ∈ s.chores, x.own → x.errand.Careful topic known

theorem Informed.mono {known' : Prop} (h : Informed topic known s) (hknown : known → known') :
    Informed topic known' s :=
  ⟨hknown ∘ h.flag, fun x hx hown ↦ (h.careful x hx hown).mono hknown⟩

theorem informed_new (settings : Config.Mux) (device : Device) :
    Informed topic known (.new settings device) where
  flag h := by cases h
  careful x hx := by cases hx

theorem Informed.proceed (h : Informed topic known s) (n : Nat) :
    Informed topic (known ∨ s.Grants topic (.proceed n)) (s.proceed n) := by
  cases hn : s.chores[n]? with
  | none =>
      rw [proceed_of_none hn]
      exact h.mono .inl
  | some x =>
      rw [proceed_of_some hn]
      constructor
      · intro hflag
        rcases s.world.flag_stride x.own x.errand with hsame | ⟨hown, next, hmark⟩
        · exact .inl (h.flag (hsame ▸ hflag))
        · have hcareful := h.careful x (List.mem_of_getElem? hn) hown
          rw [hmark] at hcareful
          exact .inl ((Routine.Careful.of_call hcareful).1 rfl)
      · intro y hy hown
        rcases List.mem_or_eq_of_mem_set hy with hold | rfl
        · exact (h.careful y hold hown).mono .inl
        · have hcareful := h.careful x (List.mem_of_getElem? hn) hown
          refine (hcareful.stride h.flag).mono (Or.imp_right fun hgrants ↦ ?_)
          exact ⟨n, x, rfl, hn, hown, hgrants⟩

theorem Informed.step (h : Informed c.topics.response known s) (horderly : Orderly s)
    (houtlet : ∀ v, (c.outlet v).run.Careful c.topics.response False) (a : Act) :
    Informed c.topics.response (known ∨ s.Grants c.topics.response a) (s.step c a) := by
  cases a with
  | receive segment =>
      refine ⟨.inl ∘ h.flag, fun x hx hown ↦ ?_⟩
      rcases List.mem_append.mp hx with hold | hnew
      · exact (h.careful x hold hown).mono .inl
      · rw [List.mem_singleton.mp hnew]
        exact (c.careful_handle houtlet segment).mono False.elim
  | engage p =>
      refine ⟨.inl ∘ h.flag, fun x hx hown ↦ ?_⟩
      rcases List.mem_append.mp hx with hold | hnew
      · exact (h.careful x hold hown).mono .inl
      · rw [List.mem_singleton.mp hnew] at hown
        cases hown
  | proceed n => exact h.proceed n
  | happen e =>
      have hstays := horderly.tidy.stays_happen e
      exact ⟨fun hflag ↦ .inl (h.flag (hstays.flag ▸ hflag)),
        fun x hx hown ↦ (h.careful x hx hown).mono .inl⟩

theorem informed_run (houtlet : ∀ v, (c.outlet v).run.Careful c.topics.response False)
    (settings : Config.Mux) (device : Device) (acts : List Act) :
    Informed c.topics.response (Granted c (.new settings device) c.topics.response acts)
      ((Site.new settings device).run c acts) := by
  induction acts using List.reverseRecOn with
  | nil => exact informed_new settings device
  | append_singleton acts a ih =>
      rw [run_concat]
      have horderly := (orderly_new settings device).run c acts
      exact (ih.step horderly houtlet a).mono granted_concat_iff.mpr

end BleBridge.Service.Site
