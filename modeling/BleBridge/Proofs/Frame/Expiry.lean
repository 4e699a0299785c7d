import BleBridge.Proofs.Frame.Merge
import BleBridge.Proofs.Frame.Stragglers

/-!
# What an age limit forgets

A reassembler with an age limit forgets an open message that has grown too old,
and it forgets the message delivered last, with the copies of it that it holds.
While nothing that it holds grows too old, it answers as if it had no limit
(`pushes_ageless`), so all that is known of reassemblers without a limit holds.

The packets of a message in time never make an open message too old.  But the
leading packets that a message shares with the one before are held as copies,
and copies go when the message before is forgotten, however young they are.  So
a message in time is lost if and only if the one before is forgotten between two
of its packets, and up to there it has sent nothing else than that one
(`ForgottenAmid`).
-/

namespace BleBridge.Frame

/-- The reassembler without its age limit. -/
def Reassembler.ageless (r : Reassembler) : Reassembler := { r with maxAge := none }

/-- What a push brings about at a reassembler without its age limit. -/
def Pushed.ageless (pushed : Pushed) : Pushed := { pushed with next := pushed.next.ageless }

namespace Reassembler

variable {r : Reassembler} {p : Packet} {now limit : Nat} {l l' : List (Packet × Nat)}
  {c : Completed}

/-! ## Without a limit -/

@[simp] theorem buffer_ageless (r : Reassembler) : r.ageless.buffer = r.buffer := rfl
@[simp] theorem completed_ageless (r : Reassembler) : r.ageless.completed = r.completed := rfl

/-- A packet leaves the message that it goes into open, or completes it; which of the two does not
hang on anything else that the reassembler holds. -/
theorem accept_cases (b : OpenMessage) (p : Packet) (now : Nat) :
    (∃ (b' : OpenMessage) (discarded : Nat) (events : List Event), b'.startedAt = b.startedAt ∧
      ∀ r : Reassembler, r.accept b p now =
        ⟨{ r with buffer := some b', discarded := r.discarded + discarded }, .ok none, events⟩) ∨
    ∃ (c : Completed) (result : Except Fault Bytes) (events : List Event), c.completedAt = now ∧
      ∀ r : Reassembler, r.accept b p now =
        ⟨{ r with buffer := none, completed := some c }, result.map some, events⟩ := by
  by_cases houtside : b.total ≤ p.index
  · exact .inl ⟨b, 1, _, rfl, fun r ↦ by rw [accept, if_pos houtside]⟩
  · simp only [accept, if_neg houtside]
    generalize (if b.received.has p.index then b.received
      else b.received.insert p.index p.payload) = received
    by_cases hall : received.length = b.total.toNat
    · simp only [if_pos hall]
      exact .inr ⟨⟨b.total, received, now, []⟩, _, _, rfl, fun r ↦ rfl⟩
    · simp only [if_neg hall]
      exact .inl ⟨{ b with received }, 0, _, rfl, fun r ↦ rfl⟩

theorem accept_ageless (r : Reassembler) (b : OpenMessage) (p : Packet) (now : Nat) :
    r.ageless.accept b p now = (r.accept b p now).ageless := by
  obtain ⟨_, _, _, -, haccept⟩ | ⟨_, _, _, -, haccept⟩ := accept_cases b p now
  · rw [haccept, haccept]
    rfl
  · rw [haccept, haccept]
    rfl

theorem hold_ageless (r : Reassembler) (c : Completed) (p : Packet) (now : Nat) :
    r.ageless.hold c p now = (r.hold c p now).ageless := by
  simp only [hold]
  split <;> rfl

theorem openFor_ageless (r : Reassembler) (p : Packet) (now : Nat) :
    r.ageless.openFor p now = (r.openFor p now).ageless := by
  rw [openFor, openFor, completed_ageless]
  cases r.completed with
  | none => exact accept_ageless r _ p now
  | some c =>
      let dropped := c.held.filter (!precedes c p ·)
      have haccept := accept_ageless
        { r with completed := none, discarded := r.discarded + dropped.length }
        ⟨p.total, c.held.filter (precedes c p), now⟩ p now
      exact congrArg (fun pushed : Pushed ↦ { pushed with
        events := dropped.map (fun (s : UInt16 × Bytes) ↦
            note s!"late duplicate packet {s.1} discarded") ++ pushed.events }) haccept

theorem take_ageless (r : Reassembler) (p : Packet) (now : Nat) :
    r.ageless.take p now = (r.take p now).ageless := by
  rw [take, take, buffer_ageless, completed_ageless]
  split
  · rfl
  · cases r.buffer with
    | some b =>
        dsimp only
        split
        · exact accept_ageless r b p now
        · have haccept := accept_ageless { r with buffer := none, evicted := r.evicted + 1 }
            ⟨p.total, [], now⟩ p now
          exact congrArg (fun pushed : Pushed ↦ { pushed with
            events := alarm (s!"total changed from {b.total} to {p.total}, " ++
              s!"dropping {b.received.length} buffered packets") :: pushed.events }) haccept
    | none =>
        cases r.completed with
        | none => exact openFor_ageless r p now
        | some c =>
            dsimp only
            split
            · exact hold_ageless r c p now
            · exact openFor_ageless r p now

/-- Nothing that the reassembler holds is too old. -/
structure Current (r : Reassembler) (now : Nat) : Prop where
  buffer : ∀ b ∈ r.buffer, r.stale now b.startedAt = false
  completed : ∀ c ∈ r.completed, r.stale now c.completedAt = false

theorem Current.evictStale (h : Current r now) : r.evictStale now = (r, []) := by
  have hcompleted : r.dropCompleted now = r := by
    rw [dropCompleted]
    split
    · rename_i c hc
      rw [h.completed c hc, if_neg (by simp)]
    · rfl
  rw [Reassembler.evictStale, hcompleted, dropBuffer]
  split
  · rename_i b hb
    rw [h.buffer b hb, if_neg (by simp)]
  · rfl

theorem Current.push (h : Current r now) (p : Packet) : r.push p now = r.take p now := by
  simp [Reassembler.push, h.evictStale]

theorem Current.push_ageless (h : Current r now) (p : Packet) :
    r.ageless.push p now = (r.push p now).ageless := by
  rw [h.push p, push_of_maxAge_none rfl, take_ageless]

/-- Nothing that the reassembler holds is too old when the next packet comes. -/
def StaysCurrent : Reassembler → List (Packet × Nat) → Prop
  | _, [] => True
  | r, (p, now) :: l => Current r now ∧ StaysCurrent (r.push p now).next l

theorem staysCurrent_append_iff :
    StaysCurrent r (l ++ l') ↔ StaysCurrent r l ∧ StaysCurrent (r.pushAll l) l' := by
  induction l generalizing r with
  | nil => exact ⟨fun h ↦ ⟨trivial, h⟩, And.right⟩
  | cons timed l ih =>
      rw [List.cons_append, StaysCurrent, StaysCurrent, ih, pushAll_cons, and_assoc]

/-- A limit that nothing outlives makes no difference. -/
theorem pushes_ageless (h : StaysCurrent r l) :
    r.ageless.pushes l = r.pushes l ∧ r.ageless.pushAll l = (r.pushAll l).ageless := by
  induction l generalizing r with
  | nil => exact ⟨rfl, rfl⟩
  | cons timed l ih =>
      obtain ⟨p, now⟩ := timed
      obtain ⟨hcurrent, hrest⟩ := h
      obtain ⟨hpushes, hall⟩ := ih hrest
      have hpush := hcurrent.push_ageless p
      constructor
      · rw [pushes, pushes, hpush, ← hpushes]
        rfl
      · rw [pushAll_cons, pushAll_cons, hpush, ← hall]
        rfl

/-! ## What one packet does -/

theorem map_some_ne_ok_none {result : Except Fault Bytes} :
    (result.map some : Except Fault (Option Bytes)) ≠ .ok none := by
  cases result <;> simp [Except.map]

/-- What a packet may do to a reassembler that holds nothing too old. -/
inductive Taken (r : Reassembler) (p : Packet) (now : Nat) (pushed : Pushed) : Prop
  /-- A message is open that lacks packets.  It is an older one, or `p` opened it. -/
  | goesOn {b : OpenMessage} (buffer : pushed.next.buffer = some b)
      (since : b.startedAt = now ∨ ∃ b' ∈ r.buffer, b'.startedAt = b.startedAt)
      (completed : pushed.next.completed = none ∨
        r.buffer ≠ none ∧ pushed.next.completed = r.completed)
      (differs : r.buffer = none → ∀ c ∈ r.completed, ¬ c.repeats p)
      (result : pushed.result = .ok none)
  /-- The packet is held. -/
  | holds {c : Completed} {held : Slots} (free : r.buffer = none) (remembers : r.completed = some c)
      (repeats : c.repeats p) (buffer : pushed.next.buffer = none)
      (completed : pushed.next.completed = some { c with held }) (result : pushed.result = .ok none)
  /-- A message is complete. -/
  | ends {c : Completed} (buffer : pushed.next.buffer = none)
      (completed : pushed.next.completed = some c) (time : c.completedAt = now)
      (result : pushed.result ≠ .ok none)

/-- A packet that goes into the open message, or into one that it opens, whatever is told of it. -/
theorem taken_accept {b : OpenMessage} {r' : Reassembler} (events : List Event)
    (since : b.startedAt = now ∨ ∃ b' ∈ r.buffer, b'.startedAt = b.startedAt)
    (completed : r'.completed = none ∨ r.buffer ≠ none ∧ r'.completed = r.completed)
    (differs : r.buffer = none → ∀ c ∈ r.completed, ¬ c.repeats p) :
    Taken r p now { r'.accept b p now with events } := by
  obtain ⟨b', _, _, hsince, haccept⟩ | ⟨c, _, _, htime, haccept⟩ := accept_cases b p now
  · rw [haccept]
    exact .goesOn rfl (hsince ▸ since) completed differs rfl
  · rw [haccept]
    exact .ends rfl rfl htime map_some_ne_ok_none

theorem taken_openFor (differs : ∀ c ∈ r.completed, ¬ c.repeats p) :
    Taken r p now (r.openFor p now) := by
  rw [openFor]
  cases hcompleted : r.completed with
  | none =>
      exact taken_accept (r.accept _ p now).events (.inl rfl) (.inl hcompleted) fun _ ↦ differs
  | some c => exact taken_accept _ (.inl rfl) (.inl rfl) fun _ ↦ differs

theorem taken_take (hpositive : p.total ≠ 0) : Taken r p now (r.take p now) := by
  rw [take, if_neg hpositive]
  cases hbuffer : r.buffer with
  | some b =>
      have hopen : r.buffer ≠ none := by simp [hbuffer]
      have hdiffers : r.buffer = none → ∀ c ∈ r.completed, ¬ c.repeats p := fun hnone ↦
        absurd hnone hopen
      dsimp only
      split
      · exact taken_accept (r.accept b p now).events (.inr ⟨b, hbuffer, rfl⟩) (.inr ⟨hopen, rfl⟩)
          hdiffers
      · exact taken_accept _ (.inl rfl) (.inr ⟨hopen, rfl⟩) hdiffers
  | none =>
      cases hcompleted : r.completed with
      | none => exact taken_openFor (hcompleted ▸ forall_none)
      | some c =>
          dsimp only
          split
          · rename_i hrepeats
            rw [hold]
            split
            · exact .holds hbuffer hcompleted hrepeats hbuffer rfl rfl
            · exact .ends hbuffer rfl rfl map_some_ne_ok_none
          · rename_i hdiffers
            refine taken_openFor fun c' hc ↦ ?_
            obtain rfl : c = c' := Option.some.inj (hcompleted.symm.trans hc)
            exact hdiffers

theorem Current.taken (h : Current r now) (hpositive : p.total ≠ 0) :
    Taken r p now (r.push p now) := by
  rw [h.push p]
  exact taken_take hpositive

theorem maxAge_accept (r : Reassembler) (b : OpenMessage) (p : Packet) (now : Nat) :
    (r.accept b p now).next.maxAge = r.maxAge := by
  obtain ⟨_, _, _, -, haccept⟩ | ⟨_, _, _, -, haccept⟩ := accept_cases b p now
  · rw [haccept]
  · rw [haccept]

theorem maxAge_openFor (r : Reassembler) (p : Packet) (now : Nat) :
    (r.openFor p now).next.maxAge = r.maxAge := by
  rw [openFor]
  split
  · exact maxAge_accept r _ p now
  · exact maxAge_accept _ _ p now

theorem maxAge_take (r : Reassembler) (p : Packet) (now : Nat) :
    (r.take p now).next.maxAge = r.maxAge := by
  rw [take]
  split
  · rfl
  · split
    · split
      · exact maxAge_accept r _ p now
      · exact maxAge_accept _ _ p now
    · split
      · split
        · rw [hold]
          split <;> rfl
        · exact maxAge_openFor r p now
      · exact maxAge_openFor r p now

theorem Current.maxAge (h : Current r now) (p : Packet) :
    (r.push p now).next.maxAge = r.maxAge := by
  rw [h.push p, maxAge_take]

/-! ## Forgetting -/

theorem current_evictStale (r : Reassembler) (now : Nat) : Current (r.evictStale now).1 now := by
  have hcompleted : (r.dropCompleted now).maxAge = r.maxAge ∧
      ∀ c ∈ (r.dropCompleted now).completed, r.stale now c.completedAt = false := by
    rw [dropCompleted]
    split
    · rename_i c hc
      split
      · exact ⟨rfl, forall_none⟩
      · rename_i hyoung
        refine ⟨rfl, fun c' hc' ↦ ?_⟩
        obtain rfl : c = c' := Option.some.inj (hc.symm.trans hc')
        exact Bool.eq_false_iff.mpr hyoung
    · rename_i hnone
      rw [hnone]
      exact ⟨rfl, forall_none⟩
  obtain ⟨hage, hyoung⟩ := hcompleted
  have hstale : ∀ since, (r.dropCompleted now).stale now since = r.stale now since := fun since ↦ by
    rw [stale, stale, hage]
  rw [Reassembler.evictStale, dropBuffer]
  split
  · rename_i b hb
    split
    · exact ⟨forall_none, fun c hc ↦ (hstale _).trans (hyoung c hc)⟩
    · rename_i hkept
      refine ⟨fun b' hb' ↦ ?_, fun c hc ↦ (hstale _).trans (hyoung c hc)⟩
      obtain rfl : b = b' := Option.some.inj (hb.symm.trans hb')
      exact Bool.eq_false_iff.mpr hkept
  · rename_i hnone
    exact ⟨hnone ▸ forall_none, fun c hc ↦ (hstale _).trans (hyoung c hc)⟩

/-- It makes no difference whether a reassembler has forgotten when a packet comes, or forgets
then. -/
theorem pushes_evictStale (r : Reassembler) (p : Packet) (now : Nat) (l : List (Packet × Nat)) :
    (r.evictStale now).1.pushes ((p, now) :: l) = r.pushes ((p, now) :: l) := by
  rw [pushes, pushes, (current_evictStale r now).push p]
  rfl

theorem evictStale_of_stale (hbuffer : r.buffer = none) (hcompleted : r.completed = some c)
    (h : r.stale now c.completedAt) :
    (r.evictStale now).1 =
      { r with completed := none, discarded := r.discarded + c.held.length } := by
  simp [evictStale, dropCompleted, hcompleted, h, dropBuffer, hbuffer]

/-- A packet completes no message that lacks another one of its packets. -/
theorem Gathers.result_ne {since : List Packet} {pushed : Pushed} {i : Nat}
    (h : Gathers since p pushed) (hlacks : ∀ q ∈ since ++ [p], q.index ≠ UInt16.ofNat i)
    (hindex : p.total ≠ 0 → i < p.total.toNat) (data : Bytes) :
    pushed.result ≠ .ok (some data) := by
  intro hresult
  obtain ⟨hpositive, hevery⟩ := (h.delivers data hresult).1.covers
  obtain ⟨q, hq, hsame, -⟩ := hevery i (hindex hpositive)
  exact hlacks q hq hsame

/-- Without a packet under some index that each message has nothing is delivered. -/
theorem pushes_of_lacking {since : List Packet} {i : Nat} (h : Gathered since r)
    (hlacks : ∀ p ∈ since ++ l.map Prod.fst, p.index ≠ UInt16.ofNat i)
    (hindex : ∀ t ∈ l, t.1.total ≠ 0 → i < t.1.total.toNat) (data : Bytes) :
    .ok (some data) ∉ r.pushes l := by
  induction l generalizing r since with
  | nil => exact List.not_mem_nil
  | cons timed l ih =>
      obtain ⟨p, now⟩ := timed
      rw [List.map_cons, List.append_cons] at hlacks
      have hgathers : Gathers since p (r.push p now) := gathers_push h
      have hnone := hgathers.result_ne (fun q hq ↦ hlacks q (List.mem_append_left _ hq))
        (hindex _ List.mem_cons_self)
      rw [pushes, List.mem_cons]
      rintro (hresult | hmem)
      · exact hnone data hresult.symm
      · exact ih (hgathers.goesOn hnone) hlacks (fun t ht ↦ hindex t (List.mem_cons_of_mem _ ht))
          hmem

/-! ## Packets in time -/

/-- No two of the packets are further apart than the limit. -/
def Spans (limit : Nat) (l : List (Packet × Nat)) : Prop := ∀ t ∈ l, ∀ t' ∈ l, t'.2 - t.2 ≤ limit

/-- What the reassembler holds will not be too old for any packet of `l`. -/
structure Young (limit : Nat) (r : Reassembler) (l : List (Packet × Nat)) : Prop where
  maxAge : r.maxAge = some limit
  buffer : ∀ b ∈ r.buffer, ∀ t ∈ l, t.2 - b.startedAt ≤ limit
  completed : ∀ c ∈ r.completed, ∀ t ∈ l, t.2 - c.completedAt ≤ limit

theorem stale_eq_false (hage : r.maxAge = some limit) {since : Nat} (h : now - since ≤ limit) :
    r.stale now since = false := by
  rw [stale, hage]
  exact decide_eq_false (Nat.not_lt.mpr h)

theorem young_of_empty (hage : r.maxAge = some limit) (hbuffer : r.buffer = none)
    (hcompleted : r.completed = none) : Young limit r l :=
  ⟨hage, hbuffer ▸ forall_none, hcompleted ▸ forall_none⟩

theorem young_of_completed {c : Completed} (hage : r.maxAge = some limit) (hbuffer : r.buffer = none)
    (hcompleted : r.completed = some c) (hyoung : ∀ t ∈ l, t.2 - c.completedAt ≤ limit) :
    Young limit r l := by
  refine ⟨hage, hbuffer ▸ forall_none, fun c' hc' ↦ ?_⟩
  obtain rfl : c = c' := Option.some.inj (hcompleted.symm.trans hc')
  exact hyoung

theorem Young.current (h : Young limit r ((p, now) :: l)) : Current r now :=
  ⟨fun b hb ↦ stale_eq_false h.maxAge (h.buffer b hb _ List.mem_cons_self),
    fun c hc ↦ stale_eq_false h.maxAge (h.completed c hc _ List.mem_cons_self)⟩

theorem Spans.tail {timed : Packet × Nat} (h : Spans limit (timed :: l)) : Spans limit l :=
  fun t ht t' ht' ↦ h t (List.mem_cons_of_mem _ ht) t' (List.mem_cons_of_mem _ ht')

theorem Spans.since_head (h : Spans limit ((p, now) :: l)) : ∀ t ∈ l, t.2 - now ≤ limit :=
  fun t ht ↦ h _ List.mem_cons_self t (List.mem_cons_of_mem _ ht)

theorem Young.push (h : Young limit r ((p, now) :: l)) (hspans : Spans limit ((p, now) :: l))
    (hpositive : p.total ≠ 0) : Young limit (r.push p now).next l := by
  refine ⟨(h.current.maxAge p).trans h.maxAge, ?_, ?_⟩
  · intro b hb t ht
    cases h.current.taken hpositive with
    | @goesOn b' buffer since =>
        obtain rfl : b' = b := Option.some.inj (buffer.symm.trans hb)
        rcases since with hnow | ⟨b'', hb'', hsince⟩
        · exact hnow ▸ hspans.since_head t ht
        · exact hsince ▸ h.buffer b'' hb'' t (List.mem_cons_of_mem _ ht)
    | holds _ _ _ buffer => exact absurd (buffer.symm.trans hb) nofun
    | ends buffer => exact absurd (buffer.symm.trans hb) nofun
  · intro c hc t ht
    cases h.current.taken hpositive with
    | goesOn _ _ completed =>
        rcases completed with hnone | ⟨-, hsame⟩
        · exact absurd (hnone.symm.trans hc) nofun
        · exact h.completed c (hsame.symm.trans hc) t (List.mem_cons_of_mem _ ht)
    | @holds c' held _ remembers _ _ completed =>
        obtain rfl := Option.some.inj (completed.symm.trans hc)
        exact h.completed c' remembers t (List.mem_cons_of_mem _ ht)
    | @ends c' _ completed time =>
        obtain rfl : c' = c := Option.some.inj (completed.symm.trans hc)
        exact time ▸ hspans.since_head t ht

theorem Young.staysCurrent (h : Young limit r l) (hspans : Spans limit l)
    (hpositive : ∀ t ∈ l, t.1.total ≠ 0) : StaysCurrent r l := by
  induction l generalizing r with
  | nil => trivial
  | cons timed l ih =>
      have hnext := h.push hspans (hpositive timed List.mem_cons_self)
      exact ⟨h.current, ih hnext hspans.tail fun t ht ↦ hpositive t (List.mem_cons_of_mem _ ht)⟩

/-- Copies of the message delivered last leave it as it is. -/
theorem pushAll_of_repeats (hcurrent : StaysCurrent r l) (hpositive : ∀ t ∈ l, t.1.total ≠ 0)
    (hbuffer : r.buffer = none) (hcompleted : r.completed = some c)
    (hrepeats : ∀ t ∈ l, c.repeats t.1) (hquiet : ∀ result ∈ r.pushes l, result = .ok none) :
    ∃ held, (r.pushAll l).buffer = none ∧ (r.pushAll l).completed = some { c with held } := by
  induction l generalizing r c with
  | nil => exact ⟨c.held, hbuffer, hcompleted⟩
  | cons timed l ih =>
      obtain ⟨p, now⟩ := timed
      obtain ⟨hhead, htail⟩ := hcurrent
      have hresult : (r.push p now).result = .ok none := hquiet _ List.mem_cons_self
      cases hhead.taken (hpositive _ List.mem_cons_self) with
      | goesOn _ _ _ differs =>
          exact absurd (hrepeats _ List.mem_cons_self) (differs hbuffer c hcompleted)
      | @holds c' held _ remembers _ buffer completed =>
          obtain rfl : c = c' := Option.some.inj (hcompleted.symm.trans remembers)
          obtain ⟨held', hend⟩ := ih htail (fun t ht ↦ hpositive t (List.mem_cons_of_mem _ ht))
            buffer completed (fun t ht ↦ hrepeats t (List.mem_cons_of_mem _ ht))
            fun result hmem ↦ hquiet result (List.mem_cons_of_mem _ hmem)
          exact ⟨held', hend⟩
      | ends _ _ _ result => exact absurd hresult result

/-- When a packet that is no copy comes in time, the message delivered last is forgotten then, and
the packets that follow need not be in time for it. -/
theorem staysCurrent_of_differs (hage : r.maxAge = some limit) (hbuffer : r.buffer = none)
    (hcompleted : r.completed = some c) (hyoung : ∀ t ∈ l, t.2 - c.completedAt ≤ limit)
    (hdiffers : ∃ t ∈ l, ¬ c.repeats t.1) (hspans : Spans limit (l ++ l'))
    (hpositive : ∀ t ∈ l ++ l', t.1.total ≠ 0) : StaysCurrent r (l ++ l') := by
  induction l generalizing r c with
  | nil =>
      obtain ⟨t, ht, -⟩ := hdiffers
      cases ht
  | cons timed l ih =>
      obtain ⟨p, now⟩ := timed
      rw [List.cons_append] at hspans hpositive ⊢
      have hcurrent := (young_of_completed hage hbuffer hcompleted hyoung).current
      have hkeeps := (hcurrent.maxAge p).trans hage
      have hrest : ∀ t ∈ l ++ l', t.1.total ≠ 0 := fun t ht ↦
        hpositive t (List.mem_cons_of_mem _ ht)
      refine ⟨hcurrent, ?_⟩
      cases hcurrent.taken (hpositive _ List.mem_cons_self) with
      | @goesOn b buffer since completed =>
          have hnone := completed.resolve_right fun hopen ↦ hopen.1 hbuffer
          have hnow := since.resolve_right fun ⟨b', hb', _⟩ ↦ by simp [hbuffer] at hb'
          refine Young.staysCurrent ⟨hkeeps, fun b' hb' ↦ ?_, hnone ▸ forall_none⟩ hspans.tail hrest
          obtain rfl : b = b' := Option.some.inj (buffer.symm.trans hb')
          exact hnow ▸ hspans.since_head
      | @holds c' held _ remembers repeats buffer completed =>
          obtain rfl : c = c' := Option.some.inj (hcompleted.symm.trans remembers)
          obtain ⟨t, ht, hother⟩ := hdiffers
          have hlater : t ∈ l := by
            rcases List.mem_cons.mp ht with rfl | ht
            · exact absurd repeats hother
            · exact ht
          exact ih hkeeps buffer completed (fun t ht ↦ hyoung t (List.mem_cons_of_mem _ ht))
            ⟨t, hlater, hother⟩ hspans.tail hrest
      | @ends c' buffer completed time =>
          have hyoung' := young_of_completed hkeeps buffer completed (time ▸ hspans.since_head)
          exact hyoung'.staysCurrent hspans.tail hrest

/-! ## Two messages in time -/

/-- The packets of a message in order, none of which is too late for another. -/
structure InTime (limit : Nat) (payloads : List Bytes) (l : List (Packet × Nat)) : Prop where
  nonempty : payloads ≠ []
  size : payloads.length < UInt16.size
  packets : l.map Prod.fst = Layout.numbered (UInt16.ofNat payloads.length) 0 payloads
  spans : Spans limit l

/-- The message before is forgotten amid the packets of the next one, of which so far none differs
from those of the message before. -/
def ForgottenAmid (limit : Nat) (l l' : List (Packet × Nat)) : Prop :=
  ∃ before behind, l' = before ++ behind ∧ before ≠ [] ∧ behind ≠ [] ∧
    before.map Prod.fst ⊆ l.map Prod.fst ∧
    ∀ done ∈ l.getLast?, (∀ t ∈ before, t.2 - done.2 ≤ limit) ∧ ∀ t ∈ behind, limit < t.2 - done.2

variable {payloads older newer : List Bytes}

namespace InTime

theorem positive (h : InTime limit payloads l) : ∀ t ∈ l, t.1.total ≠ 0 := by
  intro t ht hzero
  have hmem : t.1 ∈ Layout.numbered (UInt16.ofNat payloads.length) 0 payloads :=
    h.packets ▸ List.mem_map_of_mem ht
  have hlength : (UInt16.ofNat payloads.length).toNat = payloads.length :=
    UInt16.toNat_ofNat_of_lt' h.size
  rw [← Layout.total_of_mem_numbered hmem, hzero] at hlength
  exact h.nonempty (List.eq_nil_of_length_eq_zero hlength.symm)

theorem ne_nil (h : InTime limit payloads l) : l ≠ [] := by
  rintro rfl
  have hlength := congrArg List.length h.packets
  rw [Layout.length_numbered] at hlength
  exact h.nonempty (List.eq_nil_of_length_eq_zero hlength.symm)

/-- The last packet of a message is answered with it, if nothing grows too old meanwhile. -/
theorem pushes (h : InTime limit payloads l) (hcurrent : StaysCurrent r l)
    (hawaits : ∀ total, Awaits total [] r.ageless) :
    r.pushes l = List.replicate (payloads.length - 1) (.ok none) ++
        [.ok (some payloads.flatten)] ∧ ∀ total, Awaits total [] (r.pushAll l).ageless := by
  obtain ⟨hpushes, hall⟩ := pushes_ageless hcurrent
  obtain ⟨hnumbered, -, hend⟩ := pushes_numbered h.packets h.nonempty
    (by rw [UInt16.toNat_ofNat_of_lt' h.size, List.length_nil, Nat.zero_add]) rfl
    (hawaits (UInt16.ofNat payloads.length))
  rw [← hpushes, ← hall]
  exact ⟨hnumbered, hend⟩

theorem staysCurrent_new (h : InTime limit payloads l) : StaysCurrent (.new (some limit)) l :=
  Young.staysCurrent (young_of_empty rfl rfl rfl) h.spans h.positive

end InTime

/-- The copies of a message are its packets. -/
theorem repeats_iff_mem (hsize : payloads.length < UInt16.size)
    (htotal : c.total = UInt16.ofNat payloads.length)
    (hfills : Slots.Fills payloads (Finset.range payloads.length) c.payloads) :
    c.repeats p ↔ p ∈ (List.range payloads.length).map (nth payloads) := by
  rw [Completed.repeats, Bool.and_eq_true, beq_iff_eq, beq_iff_eq, List.mem_map]
  constructor
  · rintro ⟨hcount, hpayload⟩
    rw [hfills.get?] at hpayload
    split at hpayload
    · rename_i hmem
      refine ⟨p.index.toNat, List.mem_range.mpr (Finset.mem_range.mp hmem), ?_⟩
      rw [nth, hpayload, UInt16.ofNat_toNat, ← htotal, hcount, Option.getD_some]
    · cases hpayload
  · rintro ⟨k, hk, rfl⟩
    have hk := List.mem_range.mp hk
    refine ⟨htotal, ?_⟩
    rw [payload_nth hk, nth, hfills.get?_ofNat hk hsize, if_pos (Finset.mem_range.mpr hk)]

theorem maxAge_pushAll (h : StaysCurrent r l) : (r.pushAll l).maxAge = r.maxAge := by
  induction l generalizing r with
  | nil => rfl
  | cons timed l ih => exact (ih h.2).trans (h.1.maxAge timed.1)

/-- A reassembler that has got one message, at the time of its last packet. -/
theorem InTime.remembered (h : InTime limit payloads l) :
    ((new (some limit)).pushAll l).buffer = none ∧
      ∃ c, ((new (some limit)).pushAll l).completed = some c ∧
        (∀ done ∈ l.getLast?, c.completedAt = done.2) ∧ ∀ p, c.repeats p ↔ p ∈ l.map Prod.fst := by
  have hpackets := h.packets.trans (numbered_eq_map_nth payloads)
  have hcurrent := h.staysCurrent_new
  have htrails : Trails payloads ∅ ((new none).pushAll l) := by
    have hpositive : 0 < payloads.length := List.length_pos_iff.mpr h.nonempty
    rw [range_eq_append_cons hpositive] at hpackets
    exact (Parts.pushes h.size hpositive hpackets rfl (parts_of_fresh rfl rfl)).2.1
  rw [show new none = (new (some limit)).ageless from rfl, (pushes_ageless hcurrent).2] at htrails
  obtain ⟨hbuffer, c, hcompleted, htotal, hfills, -⟩ := htrails
  refine ⟨hbuffer, c, hcompleted, fun done hdone ↦ ?_, fun p ↦ ?_⟩
  · obtain ⟨front, rfl⟩ : ∃ front, l = front ++ [done] := List.getLast?_eq_some_iff.mp hdone
    obtain ⟨hpushes, -⟩ := h.pushes hcurrent fun total ↦ awaits_new total none
    rw [pushes_append] at hpushes
    have hlast := (staysCurrent_append_iff.mp hcurrent).2.1
    have hresult := (List.append_inj_right' hpushes rfl)
    rw [Reassembler.pushes, Reassembler.pushes, List.singleton_inj] at hresult
    rw [pushAll_append] at hcompleted
    cases hlast.taken (h.positive done (List.mem_append_right _ List.mem_cons_self)) with
    | goesOn _ _ _ _ result => exact absurd (hresult.symm.trans result) (by simp)
    | holds _ _ _ _ _ result => exact absurd (hresult.symm.trans result) (by simp)
    | @ends c' _ completed time =>
        obtain rfl : c' = c := Option.some.inj (completed.symm.trans hcompleted)
        exact time
  · rw [hpackets]
    exact repeats_iff_mem h.size htotal hfills

theorem eq_of_mem_of_append_eq {α : Type} {xs ys : List α} {x z : α} {count : Nat}
    (h : xs ++ ys = List.replicate count x ++ [z]) (hys : ys ≠ []) : ∀ y ∈ xs, y = x := by
  obtain ⟨front, last, rfl⟩ := List.eq_nil_or_concat ys |>.resolve_left hys
  rw [List.concat_eq_append, ← List.append_assoc] at h
  have hfront := List.append_inj_left' h rfl
  exact fun y hy ↦ List.eq_of_mem_replicate (hfront ▸ List.mem_append_left front hy)

/-- Behind the first packet that comes too late all do. -/
theorem exists_cut_at_limit (limit since : Nat) (hclock : (l.map Prod.snd).Pairwise (· ≤ ·)) :
    ∃ before behind, l = before ++ behind ∧ (∀ t ∈ before, t.2 - since ≤ limit) ∧
      ∀ t ∈ behind, limit < t.2 - since := by
  induction l with
  | nil => exact ⟨[], [], rfl, nofun, nofun⟩
  | cons head l ih =>
      obtain ⟨hhead, htail⟩ := List.pairwise_cons.mp hclock
      by_cases hearly : head.2 - since ≤ limit
      · obtain ⟨before, behind, rfl, hbefore, hbehind⟩ := ih htail
        exact ⟨head :: before, behind, rfl, List.forall_mem_cons.mpr ⟨hearly, hbefore⟩, hbehind⟩
      · refine ⟨[], head :: l, rfl, nofun, List.forall_mem_cons.mpr ⟨Nat.lt_of_not_le hearly, ?_⟩⟩
        intro t ht
        have hle : head.2 ≤ t.2 := hhead _ (List.mem_map_of_mem ht)
        omega

section Pair

variable (hnewer : InTime limit newer l') (hbuffer : r.buffer = none)
  (hcompleted : r.completed = some c) (hage : r.maxAge = some limit)

include hnewer hbuffer hcompleted hage

/-- A message that comes when the one before is forgotten, or no longer matters, is delivered. -/
theorem InTime.pushes_of_not_forgotten {before behind : List (Packet × Nat)}
    (hl : l' = before ++ behind) (hbefore : ∀ t ∈ before, t.2 - c.completedAt ≤ limit)
    (hbehind : ∀ t ∈ behind, limit < t.2 - c.completedAt)
    (hdiffers : before ≠ [] → behind ≠ [] → ∃ t ∈ before, ¬ c.repeats t.1)
    (hawaits : ∀ total, Awaits total [] r.ageless) :
    r.pushes l' = List.replicate (newer.length - 1) (.ok none) ++
        [.ok (some newer.flatten)] := by
  subst hl
  by_cases hempty : before = []
  · -- the message before goes with the first packet
    subst hempty
    rw [List.nil_append] at hnewer ⊢
    obtain ⟨⟨p, now⟩, rest, rfl⟩ := List.exists_cons_of_ne_nil hnewer.ne_nil
    have hstale : r.stale now c.completedAt := by
      rw [stale, hage]
      exact decide_eq_true (hbehind _ List.mem_cons_self)
    have hforgets := evictStale_of_stale hbuffer hcompleted hstale
    have hyoung : Young limit (r.evictStale now).1 ((p, now) :: rest) := by
      rw [hforgets]
      exact young_of_empty hage hbuffer rfl
    rw [← pushes_evictStale]
    refine (hnewer.pushes (hyoung.staysCurrent hnewer.spans hnewer.positive) fun total ↦ ?_).1
    rw [hforgets]
    exact .fresh hbuffer rfl rfl
  · refine (hnewer.pushes ?_ hawaits).1
    by_cases hlate : behind = []
    · subst hlate
      rw [List.append_nil] at hnewer ⊢
      exact (young_of_completed hage hbuffer hcompleted hbefore).staysCurrent hnewer.spans
        hnewer.positive
    · exact staysCurrent_of_differs hage hbuffer hcompleted hbefore (hdiffers hempty hlate)
        hnewer.spans hnewer.positive

/-- A message whose first packets are taken for copies is lost when these are forgotten. -/
theorem InTime.lost_of_forgotten {before behind : List (Packet × Nat)}
    (hl : l' = before ++ behind) (hempty : before ≠ []) (hlate : behind ≠ [])
    (hbefore : ∀ t ∈ before, t.2 - c.completedAt ≤ limit)
    (hbehind : ∀ t ∈ behind, limit < t.2 - c.completedAt)
    (hrepeats : ∀ t ∈ before, c.repeats t.1) (hawaits : ∀ total, Awaits total [] r.ageless)
    (data : Bytes) : .ok (some data) ∉ r.pushes l' := by
  subst hl
  have hpositive : ∀ t ∈ before, t.1.total ≠ 0 := fun t ht ↦
    hnewer.positive t (List.mem_append_left _ ht)
  have hcurrent : StaysCurrent r before := by
    have hspans : Spans limit before := fun t ht t' ht' ↦
      hnewer.spans t (List.mem_append_left _ ht) t' (List.mem_append_left _ ht')
    exact (young_of_completed hage hbuffer hcompleted hbefore).staysCurrent hspans hpositive
  -- up to here no limit matters, and the message is not complete
  have hquiet : ∀ result ∈ r.pushes before, result = .ok none := by
    obtain ⟨hnumbered, -⟩ := pushes_numbered hnewer.packets hnewer.nonempty
      (by rw [UInt16.toNat_ofNat_of_lt' hnewer.size, List.length_nil, Nat.zero_add])
      (rfl : r.ageless.maxAge = none) (hawaits (UInt16.ofNat newer.length))
    rw [pushes_append, (pushes_ageless hcurrent).1] at hnumbered
    refine eq_of_mem_of_append_eq hnumbered fun hnil ↦ hlate ?_
    cases behind with
    | nil => rfl
    | cons => cases hnil
  obtain ⟨held, hfree, hkept⟩ :=
    pushAll_of_repeats hcurrent hpositive hbuffer hcompleted hrepeats hquiet
  obtain ⟨⟨p, now⟩, rest, rfl⟩ := List.exists_cons_of_ne_nil hlate
  have hstale : (r.pushAll before).stale now c.completedAt := by
    rw [stale, maxAge_pushAll hcurrent, hage]
    exact decide_eq_true (hbehind _ List.mem_cons_self)
  have hnothing : Gathered [] ((r.pushAll before).evictStale now).1 := by
    rw [evictStale_of_stale hfree hkept hstale]
    exact ⟨hfree ▸ forall_none, forall_none⟩
  have hfirst : ∀ q ∈ [] ++ ((p, now) :: rest).map Prod.fst, q.index ≠ UInt16.ofNat 0 := by
    intro q hq hindex
    have hsent := hnewer.packets
    rw [List.map_append] at hsent
    exact hempty (List.map_eq_nil_iff.mp (front_eq_nil hnewer.size hsent.symm hq hindex))
  rw [pushes_append, List.mem_append, ← pushes_evictStale (r.pushAll before)]
  rintro (hmem | hmem)
  · cases hquiet _ hmem
  · refine pushes_of_lacking hnothing hfirst (fun t _ hpositive ↦ ?_) data hmem
    exact Nat.pos_of_ne_zero fun hzero ↦ hpositive (UInt16.toNat_inj.mp hzero)

end Pair

/-- A message in time is delivered with its last packet, whatever the clock says.  So is the next
one, unless the first is forgotten amid its packets; then none of them is answered with a
message. -/
theorem delivered_iff_not_forgottenAmid (holder : InTime limit older l)
    (hnewer : InTime limit newer l') (hclock : ((l ++ l').map Prod.snd).Pairwise (· ≤ ·)) :
    ((new (some limit)).pushes l).getLast? = some (.ok (some older.flatten)) ∧
      ((((new (some limit)).pushAll l).pushes l').getLast? = some (.ok (some newer.flatten)) ↔
        ¬ ForgottenAmid limit l l') ∧
      (ForgottenAmid limit l l' → ∀ data,
        .ok (some data) ∉ ((new (some limit)).pushAll l).pushes l') := by
  have hcurrent := holder.staysCurrent_new
  obtain ⟨hfirst, hawaits⟩ := holder.pushes hcurrent fun total ↦ awaits_new total none
  obtain ⟨hbuffer, c, hcompleted, htime, hcopies⟩ := holder.remembered
  have hage : ((new (some limit)).pushAll l).maxAge = some limit := maxAge_pushAll hcurrent
  have hlost : ForgottenAmid limit l l' → ∀ data,
      .ok (some data) ∉ ((new (some limit)).pushAll l).pushes l' := by
    rintro ⟨before, behind, hl, hempty, hlate, hsub, htimes⟩
    have hdone := List.getLast?_eq_some_getLast holder.ne_nil
    obtain ⟨hbefore, hbehind⟩ := htimes _ hdone
    rw [← htime _ hdone] at hbefore hbehind
    exact hnewer.lost_of_forgotten hbuffer hcompleted hage hl hempty hlate hbefore hbehind
      (fun t ht ↦ (hcopies t.1).mpr (hsub (List.mem_map_of_mem ht))) hawaits
  refine ⟨by rw [hfirst, List.getLast?_concat], ⟨fun hlast hforgotten ↦ ?_, fun hkept ↦ ?_⟩, hlost⟩
  · exact hlost hforgotten _ (List.mem_of_getLast? hlast)
  · have hlater : (l'.map Prod.snd).Pairwise (· ≤ ·) := by
      rw [List.map_append] at hclock
      exact (List.pairwise_append.mp hclock).2.1
    obtain ⟨before, behind, hcut, hbefore, hbehind⟩ :=
      exists_cut_at_limit limit c.completedAt hlater
    have hdiffers : before ≠ [] → behind ≠ [] → ∃ t ∈ before, ¬ c.repeats t.1 := by
      intro hempty hlate
      by_contra hall
      refine hkept ⟨before, behind, hcut, hempty, hlate, fun p hp ↦ ?_, fun done hdone ↦ ?_⟩
      · obtain ⟨t, ht, rfl⟩ := List.mem_map.mp hp
        exact (hcopies t.1).mp (not_not.mp fun hother ↦ hall ⟨t, ht, hother⟩)
      · rw [← htime done hdone]
        exact ⟨hbefore, hbehind⟩
    have hpushes := hnewer.pushes_of_not_forgotten hbuffer hcompleted hage hcut hbefore hbehind
      hdiffers hawaits
    rw [hpushes, List.getLast?_concat]

/-- Two messages that start alike, the second while the first is remembered. -/
theorem delivered_of_shared_start :
    ¬ ForgottenAmid 100 [(⟨0, 2, Text.bytes "A"⟩, 0), (⟨1, 2, Text.bytes "A"⟩, 0)]
        [(⟨0, 2, Text.bytes "A"⟩, 90), (⟨1, 2, Text.bytes "B"⟩, 100)] ∧
      (((new (some 100)).pushAll [(⟨0, 2, Text.bytes "A"⟩, 0), (⟨1, 2, Text.bytes "A"⟩, 0)]).pushes
        [(⟨0, 2, Text.bytes "A"⟩, 90), (⟨1, 2, Text.bytes "B"⟩, 100)]).getLast? =
          some (.ok (some (Text.bytes "AB"))) := by
  have holder : InTime 100 [Text.bytes "A", Text.bytes "A"]
      [(⟨0, 2, Text.bytes "A"⟩, 0), (⟨1, 2, Text.bytes "A"⟩, 0)] :=
    ⟨by decide, by decide, by decide +kernel, by rw [Spans]; decide⟩
  have hnewer : InTime 100 [Text.bytes "A", Text.bytes "B"]
      [(⟨0, 2, Text.bytes "A"⟩, 90), (⟨1, 2, Text.bytes "B"⟩, 100)] :=
    ⟨by decide, by decide, by decide +kernel, by rw [Spans]; decide⟩
  have hkept : ¬ ForgottenAmid 100 [(⟨0, 2, Text.bytes "A"⟩, 0), (⟨1, 2, Text.bytes "A"⟩, 0)]
      [(⟨0, 2, Text.bytes "A"⟩, 90), (⟨1, 2, Text.bytes "B"⟩, 100)] := by
    rintro ⟨before, behind, hl, -, hlate, -, htimes⟩
    obtain ⟨t, rest, rfl⟩ := List.exists_cons_of_ne_nil hlate
    have hmem : t ∈ [(⟨0, 2, Text.bytes "A"⟩, 90), ((⟨1, 2, Text.bytes "B"⟩ : Packet), 100)] :=
      hl ▸ List.mem_append_right before List.mem_cons_self
    have hlt : 100 < t.2 := (htimes _ rfl).2 t List.mem_cons_self
    simp only [List.mem_cons, List.not_mem_nil, or_false] at hmem
    rcases hmem with rfl | rfl <;> exact absurd hlt (by decide)
  exact ⟨hkept, (delivered_iff_not_forgottenAmid holder hnewer (by decide)).2.1.mpr hkept⟩

/-- The same messages, the first forgotten between the packets of the second: that one is lost,
although its packets are sixty milliseconds apart. -/
theorem lost_of_shared_start :
    InTime 100 [Text.bytes "A", Text.bytes "A"]
        [(⟨0, 2, Text.bytes "A"⟩, 0), (⟨1, 2, Text.bytes "A"⟩, 0)] ∧
      InTime 100 [Text.bytes "A", Text.bytes "B"]
        [(⟨0, 2, Text.bytes "A"⟩, 90), (⟨1, 2, Text.bytes "B"⟩, 150)] ∧
      ([(⟨0, 2, Text.bytes "A"⟩, 0), (⟨1, 2, Text.bytes "A"⟩, 0), (⟨0, 2, Text.bytes "A"⟩, 90),
        (⟨1, 2, Text.bytes "B"⟩, 150)].map (Prod.snd : Packet × Nat → Nat)).Pairwise (· ≤ ·) ∧
      (new (some 100)).pushes [(⟨0, 2, Text.bytes "A"⟩, 0), (⟨1, 2, Text.bytes "A"⟩, 0),
        (⟨0, 2, Text.bytes "A"⟩, 90), (⟨1, 2, Text.bytes "B"⟩, 150)] =
          [.ok none, .ok (some (Text.bytes "AA")), .ok none, .ok none] := by
  refine ⟨⟨by decide, by decide, by decide +kernel, by rw [Spans]; decide⟩,
    ⟨by decide, by decide, by decide +kernel, by rw [Spans]; decide⟩, by decide, ?_⟩
  decide +kernel

end Reassembler

end BleBridge.Frame
