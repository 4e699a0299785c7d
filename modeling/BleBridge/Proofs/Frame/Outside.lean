import BleBridge.Proofs.Frame.Coherence

/-!
# Packets outside their message

A packet whose index is not below its total is discarded.  When a message of that
total is open, nothing else happens (`push_of_open`).  When none is, the packet
first opens one, and with that the message delivered last is forgotten, before
its index is looked at (`push_of_idle`).  So it leaves a trace, an open message
without packets.

Whether the trace shows in later answers is another question.  Times and counts
are not seen (`Alike.pushes`), and neither is an open message without packets or
a remembered one of one packet: a `Blank` reassembler answers like a new one.
But a remembered message of more packets is missed: a copy of it is held while it
is remembered, and otherwise it is the start of a new message
(`exists_pushes_ne`).
-/

namespace BleBridge.Frame.Reassembler

variable {r r' : Reassembler} {p : Packet} {now now' : Nat} {b : OpenMessage} {c : Completed}
  {l : List (Packet × Nat)}

/-! ## Times and counts -/

/-- Two reassemblers without age limits that hold the same, maybe since other times. -/
structure Alike (r r' : Reassembler) : Prop where
  ageless : r.maxAge = none ∧ r'.maxAge = none
  buffer : r.buffer = none ∧ r'.buffer = none ∨
    ∃ b since, r.buffer = some b ∧ r'.buffer = some { b with startedAt := since }
  completed : r.completed = none ∧ r'.completed = none ∨
    ∃ c since, r.completed = some c ∧ r'.completed = some { c with completedAt := since }

/-- Two pushes have the same answer, and what they leave is alike. -/
structure SameTurn (pushed pushed' : Pushed) : Prop where
  result : pushed.result = pushed'.result
  next : Alike pushed.next pushed'.next

theorem Alike.accept (h : Alike r r') (b : OpenMessage) (since : Nat) :
    SameTurn (r.accept b p now) (r'.accept { b with startedAt := since } p now') := by
  rw [Reassembler.accept, Reassembler.accept]
  dsimp only
  by_cases houtside : b.total ≤ p.index
  · rw [if_pos houtside, if_pos houtside]
    exact ⟨rfl, h.ageless, .inr ⟨b, since, rfl, rfl⟩, h.completed⟩
  · rw [if_neg houtside, if_neg houtside]
    generalize (if b.received.has p.index then b.received
      else b.received.insert p.index p.payload) = received
    by_cases hall : received.length = b.total.toNat
    · rw [if_pos hall, if_pos hall]
      exact ⟨rfl, h.ageless, .inl ⟨rfl, rfl⟩, .inr ⟨⟨b.total, received, now, []⟩, now', rfl, rfl⟩⟩
    · rw [if_neg hall, if_neg hall]
      exact ⟨rfl, h.ageless, .inr ⟨{ b with received }, since, rfl, rfl⟩, h.completed⟩

theorem Alike.hold (h : Alike r r') (c : Completed) (since : Nat) :
    SameTurn (r.hold c p now) (r'.hold { c with completedAt := since } p now') := by
  rw [Reassembler.hold, Reassembler.hold]
  dsimp only
  generalize c.held.insert p.index p.payload = held
  by_cases hlacks : held.length < c.total.toNat
  · rw [if_pos hlacks, if_pos hlacks]
    exact ⟨rfl, h.ageless, h.buffer, .inr ⟨{ c with held }, since, rfl, rfl⟩⟩
  · rw [if_neg hlacks, if_neg hlacks]
    exact ⟨rfl, h.ageless, h.buffer,
      .inr ⟨{ c with held := [], completedAt := now }, now', rfl, rfl⟩⟩

theorem Alike.openFor (h : Alike r r') : SameTurn (r.openFor p now) (r'.openFor p now') := by
  rw [Reassembler.openFor, Reassembler.openFor]
  rcases h.completed with ⟨hnone, hnone'⟩ | ⟨c, since, hsome, hsome'⟩
  · rw [hnone, hnone']
    exact h.accept ⟨p.total, [], now⟩ now'
  · rw [hsome, hsome']
    let dropped := (c.held.filter (!precedes c p ·)).length
    have hcleared : Alike { r with completed := none, discarded := r.discarded + dropped }
        { r' with completed := none, discarded := r'.discarded + dropped } :=
      ⟨h.ageless, h.buffer, .inl ⟨rfl, rfl⟩⟩
    obtain ⟨hresult, hnext⟩ :
        SameTurn (Reassembler.accept _ _ p now) (Reassembler.accept _ _ p now') :=
      hcleared.accept ⟨p.total, c.held.filter (precedes c p), now⟩ now'
    exact ⟨hresult, hnext⟩

theorem Alike.push (h : Alike r r') (p : Packet) (now now' : Nat) :
    SameTurn (r.push p now) (r'.push p now') := by
  rw [push_of_maxAge_none h.ageless.1, push_of_maxAge_none h.ageless.2, take, take]
  by_cases hzero : p.total = 0
  · rw [if_pos hzero, if_pos hzero]
    exact ⟨rfl, h.ageless, .inl ⟨rfl, rfl⟩, h.completed⟩
  · rw [if_neg hzero, if_neg hzero]
    rcases h.buffer with ⟨hnone, hnone'⟩ | ⟨b, since, hsome, hsome'⟩
    · rw [hnone, hnone']
      dsimp only
      rcases h.completed with ⟨hforgot, hforgot'⟩ | ⟨c, since, hc, hc'⟩
      · rw [hforgot, hforgot']
        exact h.openFor
      · rw [hc, hc']
        dsimp only
        rw [show Completed.repeats { c with completedAt := since } p = c.repeats p from rfl]
        by_cases hrepeats : c.repeats p
        · rw [if_pos hrepeats, if_pos hrepeats]
          exact h.hold c since
        · rw [if_neg hrepeats, if_neg hrepeats]
          exact h.openFor
    · rw [hsome, hsome']
      dsimp only
      by_cases htotal : b.total = p.total
      · rw [if_pos htotal, if_pos htotal]
        exact h.accept b since
      · rw [if_neg htotal, if_neg htotal]
        have hcleared : Alike { r with buffer := none, evicted := r.evicted + 1 }
            { r' with buffer := none, evicted := r'.evicted + 1 } :=
          ⟨h.ageless, .inl ⟨rfl, rfl⟩, h.completed⟩
        obtain ⟨hresult, hnext⟩ :
            SameTurn (Reassembler.accept _ _ p now) (Reassembler.accept _ _ p now') :=
          hcleared.accept ⟨p.total, [], now⟩ now'
        exact ⟨hresult, hnext⟩

theorem Alike.pushes (h : Alike r r') (l : List (Packet × Nat)) : r.pushes l = r'.pushes l := by
  induction l generalizing r r' with
  | nil => rfl
  | cons timed l ih =>
      obtain ⟨hresult, hnext⟩ := h.push timed.1 timed.2 timed.2
      rw [Reassembler.pushes, Reassembler.pushes, hresult, ih hnext]

theorem Alike.pushAll (h : Alike r r') (l : List (Packet × Nat)) :
    Alike (r.pushAll l) (r'.pushAll l) := by
  induction l generalizing r r' with
  | nil => exact h
  | cons timed l ih => exact ih (h.push timed.1 timed.2 timed.2).next

theorem Alike.pending (h : Alike r r') : r.pending = r'.pending := by
  rw [Reassembler.pending, Reassembler.pending]
  rcases h.buffer with ⟨hnone, hnone'⟩ | ⟨b, since, hsome, hsome'⟩
  · rw [hnone, hnone']
  · rw [hsome, hsome']
    rfl

theorem evicted_accept (r : Reassembler) (b : OpenMessage) (p : Packet) (now : Nat) :
    (r.accept b p now).next.evicted = r.evicted := by
  obtain ⟨_, _, _, -, haccept⟩ | ⟨_, _, _, -, haccept⟩ := accept_cases b p now
  · rw [haccept]
  · rw [haccept]

theorem evicted_openFor (r : Reassembler) (p : Packet) (now : Nat) :
    (r.openFor p now).next.evicted = r.evicted := by
  rw [openFor]
  split
  · exact evicted_accept r _ p now
  · exact evicted_accept _ _ p now

/-- An open message is given up for a packet of another total, and for nothing else. -/
theorem evicted_push (hage : r.maxAge = none) :
    (r.push p now).next.evicted =
      r.evicted + if r.buffer.any fun b ↦ p.total = 0 ∨ b.total ≠ p.total then 1 else 0 := by
  rw [push_of_maxAge_none hage, take]
  by_cases hzero : p.total = 0
  · rw [if_pos hzero]
    cases r.buffer <;> simp [hzero]
  · rw [if_neg hzero]
    cases hbuffer : r.buffer with
    | none =>
        cases hcompleted : r.completed with
        | none => exact evicted_openFor r p now
        | some c =>
            dsimp only
            split
            · rw [hold]
              split <;> rfl
            · exact evicted_openFor r p now
    | some b =>
        dsimp only
        by_cases htotal : b.total = p.total
        · rw [if_pos htotal, evicted_accept]
          simp [hzero, htotal]
        · rw [if_neg htotal]
          simp [evicted_accept, htotal]

theorem Alike.evicted (h : Alike r r') (hevicted : r.evicted = r'.evicted)
    (l : List (Packet × Nat)) : (r.pushAll l).evicted = (r'.pushAll l).evicted := by
  induction l generalizing r r' with
  | nil => exact hevicted
  | cons timed l ih =>
      refine ih (h.push timed.1 timed.2 timed.2).next ?_
      rw [evicted_push h.ageless.1, evicted_push h.ageless.2, hevicted]
      rcases h.buffer with ⟨hnone, hnone'⟩ | ⟨b, since, hsome, hsome'⟩
      · rw [hnone, hnone']
      · rw [hsome, hsome']
        rfl

/-! ## Nothing to be seen -/

/-- No packet is kept, and the message delivered last, if it is remembered, had only one. -/
structure Blank (r : Reassembler) : Prop where
  coherent : Coherent r
  maxAge : r.maxAge = none
  buffer : ∀ b ∈ r.buffer, b.received = []
  completed : ∀ c ∈ r.completed, c.total = 1

theorem blank_new : Blank (new none) := ⟨coherent_new none, rfl, forall_none, forall_none⟩

theorem Blank.held_eq_nil (h : Blank r) (hc : r.completed = some c) : c.held = [] := by
  have hlacks := (h.coherent.completed c hc).lacks
  rw [h.completed c hc] at hlacks
  exact List.eq_nil_of_length_eq_zero (Nat.lt_one_iff.mp hlacks)

theorem Blank.push_of_zero (h : Blank r) (hzero : p.total = 0) : Blank (r.push p now).next := by
  obtain ⟨-, hbuffer, hcompleted⟩ := Reassembler.push_of_zero r now hzero
  rw [evictStale_of_maxAge_none h.maxAge] at hcompleted
  exact ⟨h.coherent.push, (maxAge_push r p now).trans h.maxAge, hbuffer ▸ forall_none,
    hcompleted ▸ h.completed⟩

/-- A packet of no message leaves nothing, unless a message is remembered. -/
theorem blank_of_zero (hage : r.maxAge = none) (hforgot : r.completed = none)
    (hzero : p.total = 0) (now : Nat) : Blank (r.push p now).next := by
  obtain ⟨-, hbuffer, hcompleted⟩ := Reassembler.push_of_zero r now hzero
  rw [evictStale_of_maxAge_none hage, hforgot] at hcompleted
  exact ⟨⟨.inl hbuffer, hbuffer ▸ forall_none, hcompleted ▸ forall_none⟩,
    (maxAge_push r p now).trans hage, hbuffer ▸ forall_none, hcompleted ▸ forall_none⟩

theorem push_new (hpositive : p.total ≠ 0) :
    (new none).push p now = (new none).accept ⟨p.total, [], now⟩ p now := by
  rw [push_of_maxAge_none rfl, take, if_neg hpositive]
  rfl

/-- A packet goes into a message without packets as if nothing had been before. -/
theorem sameTurn_new (hpositive : p.total ≠ 0) (hage : r.maxAge = none)
    (hcompleted : r.completed = none) (since now : Nat) :
    SameTurn (r.accept ⟨p.total, [], since⟩ p now) ((new none).push p now) := by
  rw [push_new hpositive]
  have halike : Alike { r with buffer := none } (new none) :=
    ⟨⟨hage, rfl⟩, .inl ⟨rfl, rfl⟩, .inl ⟨hcompleted, rfl⟩⟩
  exact halike.accept ⟨p.total, [], since⟩ now

/-- A message of one packet comes again with any copy of it, and a new reassembler takes that for
a message of its own. -/
theorem Blank.hold (h : Blank r) (hbuffer : r.buffer = none) (hc : r.completed = some c)
    (hrepeats : c.repeats p) (now : Nat) :
    (r.hold c p now).result = ((new none).push p now).result ∧ Blank (r.hold c p now).next ∧
      Blank ((new none).push p now).next := by
  have hwhole := h.coherent.completed c hc
  have hone : c.total = 1 := h.completed c hc
  have htotal : p.total = 1 := (Completed.repeats_iff.mp hrepeats).1.symm.trans hone
  have hinside : ¬ p.total ≤ p.index := UInt16.not_le.mpr (hwhole.index_lt hrepeats)
  have hhold : r.hold c p now =
      ⟨{ r with completed := some { c with held := [], completedAt := now } },
        (Slots.assemble c.total (Slots.get? [(p.index, p.payload)])).map some,
        [note "last message received again in full"]⟩ := by
    rw [Reassembler.hold, h.held_eq_nil hc, hone]
    rfl
  obtain ⟨events, hnew⟩ : ∃ events, (new none).push p now =
      ⟨{ new none with completed := some ⟨p.total, [(p.index, p.payload)], now, []⟩ },
        (Slots.assemble p.total (Slots.get? [(p.index, p.payload)])).map some, events⟩ := by
    rw [push_new (by rw [htotal]; decide), accept_new _ _ _ _ hinside rfl, htotal]
    exact ⟨_, rfl⟩
  refine ⟨?_, ⟨(proceeds_hold hbuffer hwhole hrepeats).coherent, ?_, ?_, ?_⟩,
    ⟨(coherent_new none).push, maxAge_push _ p now, ?_, ?_⟩⟩
  · rw [hhold, hnew, hone, htotal]
  · rw [hhold]
    exact h.maxAge
  · rw [hhold]
    exact hbuffer ▸ forall_none
  · rw [hhold]
    rintro c' ⟨⟩
    exact hone
  · rw [hnew]
    exact forall_none
  · rw [hnew]
    rintro c' ⟨⟩
    exact htotal

theorem Blank.push (h : Blank r) (p : Packet) (now : Nat) :
    (r.push p now).result = ((new none).push p now).result ∧
      (Alike (r.push p now).next ((new none).push p now).next ∨
        Blank (r.push p now).next ∧ Blank ((new none).push p now).next) := by
  by_cases hzero : p.total = 0
  · refine ⟨?_, .inr ⟨h.push_of_zero hzero, blank_new.push_of_zero hzero⟩⟩
    rw [(Reassembler.push_of_zero r now hzero).1, (Reassembler.push_of_zero _ now hzero).1]
  · rw [push_of_maxAge_none h.maxAge, take, if_neg hzero]
    cases hbuffer : r.buffer with
    | some b =>
        have hcompleted : r.completed = none := h.coherent.apart.resolve_left (by simp [hbuffer])
        have hempty : b.received = [] := h.buffer b hbuffer
        dsimp only
        by_cases htotal : b.total = p.total
        · rw [if_pos htotal]
          obtain ⟨total, received, since⟩ := b
          obtain rfl : total = p.total := htotal
          obtain rfl : received = [] := hempty
          obtain ⟨hresult, hnext⟩ := sameTurn_new hzero h.maxAge hcompleted since now
          exact ⟨hresult, .inl hnext⟩
        · rw [if_neg htotal]
          obtain ⟨hresult, hnext⟩ := sameTurn_new
            (r := { r with buffer := none, evicted := r.evicted + 1 })
            hzero h.maxAge hcompleted now now
          exact ⟨hresult, .inl hnext⟩
    | none =>
        cases hcompleted : r.completed with
        | none =>
            obtain ⟨hresult, hnext⟩ := sameTurn_new hzero h.maxAge hcompleted now now
            dsimp only
            rw [openFor, hcompleted]
            exact ⟨hresult, .inl hnext⟩
        | some c =>
            dsimp only
            by_cases hrepeats : c.repeats p
            · rw [if_pos hrepeats]
              obtain ⟨hresult, hnext⟩ := h.hold hbuffer hcompleted hrepeats now
              exact ⟨hresult, .inr hnext⟩
            · rw [if_neg hrepeats, openFor, hcompleted]
              simp only [h.held_eq_nil hcompleted, List.filter_nil]
              obtain ⟨hresult, hnext⟩ := sameTurn_new (r := { r with completed := none })
                hzero h.maxAge rfl now now
              exact ⟨hresult, .inl hnext⟩

/-- A blank reassembler answers like a new one. -/
theorem Blank.pushes (h : Blank r) (l : List (Packet × Nat)) :
    r.pushes l = (new none).pushes l := by
  induction l generalizing r with
  | nil => rfl
  | cons timed l ih =>
      obtain ⟨hresult, hnext⟩ := h.push timed.1 timed.2
      rw [Reassembler.pushes, Reassembler.pushes, hresult]
      congr 1
      rcases hnext with halike | ⟨hblank, hblank'⟩
      · exact halike.pushes l
      · rw [ih hblank, ih hblank']

/-! ## What is missed -/

theorem hold_keeps (r : Reassembler) (c : Completed) (p : Packet) (now : Nat) :
    (r.hold c p now).next.maxAge = r.maxAge ∧ (r.hold c p now).next.buffer = r.buffer ∧
      ∃ held since,
        (r.hold c p now).next.completed = some { c with held, completedAt := since } := by
  rw [hold]
  split <;> exact ⟨rfl, rfl, _, _, rfl⟩

/-- A first packet that is no copy starts a message with nothing that came before. -/
theorem gathers_of_first (hage : r.maxAge = none) (hbuffer : r.buffer = none)
    (hc : r.completed = some c) (hdiffers : ¬ c.repeats p) (hpositive : p.total ≠ 0)
    (hfirst : p.index = 0) : Gathers [] p (r.push p now) := by
  have hnone : c.held.filter (precedes c p) = [] := by
    rw [List.filter_eq_nil_iff]
    intro slot _
    simp [precedes, hfirst]
  rw [push_of_maxAge_none hage, take, if_neg hpositive, hbuffer, hc]
  dsimp only
  rw [if_neg hdiffers, openFor, hc]
  simp only [hnone]
  obtain ⟨hgoesOn, hdelivers⟩ : Gathers [] p (accept _ ⟨p.total, [], now⟩ p now) :=
    gathers_accept (r := { r with
        completed := none
        discarded := r.discarded + (c.held.filter (!precedes c p ·)).length })
      hpositive rfl (filled_nil _ _) forall_none
  exact ⟨hgoesOn, hdelivers⟩

/-- The packets of a message, the second one before the first. -/
def swapped (payloads : List Bytes) : List (Packet × Nat) :=
  (1 :: 0 :: List.range' 2 (payloads.length - 2)).map fun k ↦ (nth payloads k, 0)

section Swapped

variable {payloads : List Bytes} (hsize : payloads.length < UInt16.size)
  (htwo : 2 ≤ payloads.length)

include hsize htwo

theorem answered_of_new : ∃ result later, (new none).pushes (swapped payloads) = result :: later ∧
    .ok (some payloads.flatten) ∈ later := by
  have hperm : ((swapped payloads).map Prod.fst).Perm
      ((List.range payloads.length).map (nth payloads)) := by
    have hrange : List.range payloads.length =
        0 :: 1 :: List.range' 2 (payloads.length - 2) := by
      rw [List.range_eq_range', show payloads.length = payloads.length - 2 + 1 + 1 by omega,
        List.range'_succ, List.range'_succ]
      simp
    rw [hrange, swapped, List.map_map]
    exact (List.Perm.swap 0 1 _).map _
  have hlength : (swapped payloads).length = payloads.length := by simp [swapped]; omega
  rw [pushes_of_perm hsize hperm, hlength, show payloads.length = payloads.length - 1 + 1 by omega,
    List.range_succ_eq_map]
  refine ⟨_, _, rfl, ?_⟩
  rw [List.mem_map]
  refine ⟨payloads.length - 1, ?_, ?_⟩
  · rw [List.mem_map]
    exact ⟨payloads.length - 2, by rw [List.mem_range]; omega, by omega⟩
  · rw [if_pos rfl]

/-- When the second packet is held, and the first one is not, the message is never complete. -/
theorem unanswered_of_remembered (hage : r.maxAge = none) (hbuffer : r.buffer = none)
    (hc : r.completed = some c) (hsecond : c.repeats (nth payloads 1))
    (hfirst : ¬ c.repeats (nth payloads 0)) : ∃ result later,
      r.pushes (swapped payloads) = result :: later ∧ ∀ data, .ok (some data) ∉ later := by
  have hpositive : ∀ k, (nth payloads k).total ≠ 0 := fun k ↦
    total_nth_ne_zero (k := 0) hsize (by omega)
  have htotal : ∀ k, 1 < (nth payloads k).total.toNat := by
    intro k
    rw [nth, UInt16.toNat_ofNat_of_lt' hsize]
    omega
  have hindex : ∀ k < payloads.length, k ≠ 1 → (nth payloads k).index ≠ UInt16.ofNat 1 := by
    intro k hk hne heq
    exact hne ((nth_eq_iff hsize (by omega) hk).mp heq.symm).symm
  obtain ⟨hage', hbuffer', held, since, hc'⟩ := hold_keeps r c (nth payloads 1) 0
  have hpush : r.push (nth payloads 1) 0 = r.hold c (nth payloads 1) 0 := by
    rw [push_of_maxAge_none hage, take, if_neg (hpositive 1), hbuffer, hc]
    dsimp only
    rw [if_pos hsecond]
  have hgathers : Gathers [] (nth payloads 0)
      ((r.hold c (nth payloads 1) 0).next.push (nth payloads 0) 0) :=
    gathers_of_first (hage'.trans hage) (hbuffer'.trans hbuffer) hc' hfirst (hpositive 0) rfl
  have hlacks : ∀ q ∈ [nth payloads 0], q.index ≠ UInt16.ofNat 1 := by
    intro q hq
    obtain rfl := List.mem_singleton.mp hq
    exact hindex 0 (by omega) (by decide)
  have hnone := hgathers.result_ne hlacks fun _ ↦ htotal 0
  refine ⟨_, _, rfl, fun data ↦ ?_⟩
  change .ok (some data) ∉ Reassembler.pushes _ ((nth payloads 0, 0) ::
    (List.range' 2 (payloads.length - 2)).map fun k ↦ (nth payloads k, 0))
  rw [hpush, Reassembler.pushes, List.mem_cons]
  rintro (hresult | hmem)
  · exact hnone data hresult.symm
  · refine pushes_of_lacking (i := 1) (hgathers.goesOn hnone) ?_ ?_ data hmem
    · intro q hq
      rw [List.map_map, List.nil_append] at hq
      rcases List.mem_append.mp hq with hq | hq
      · exact hlacks q hq
      · obtain ⟨k, hk, rfl⟩ := List.mem_map.mp hq
        rw [List.mem_range'_1] at hk
        exact hindex k (by omega) (by omega)
    · intro t ht _
      obtain ⟨k, -, rfl⟩ := List.mem_map.mp ht
      exact htotal k

end Swapped

/-- A copy of the second packet and another first packet tell whether a message of more packets is
remembered: if it is, then the copy is given up for the first packet, and otherwise both are in
the message that the remaining packets complete. -/
theorem exists_pushes_ne (r' : Reassembler) (h : Coherent r) (hage : r.maxAge = none)
    (hc : r.completed = some c) (htotal : c.total ≠ 1) (hage' : r'.maxAge = none)
    (hforgot : r'.completed = none) : ∃ l, r'.pushes l ≠ r.pushes l := by
  have hwhole := h.completed c hc
  have htwo : 2 ≤ c.total.toNat := by
    have hlacks := hwhole.lacks
    have hne : c.total.toNat ≠ 1 := fun hone ↦ htotal (UInt16.toNat_inj.mp hone)
    omega
  obtain ⟨first, hfirst⟩ := hwhole.exists_payload (k := 0) (by omega)
  obtain ⟨second, hsecond⟩ := hwhole.exists_payload (k := 1) htwo
  -- another first packet, and the second one of the message remembered
  let payloads := (0 :: first) :: second :: List.replicate (c.total.toNat - 2) []
  have hlength : payloads.length = c.total.toNat := by simp [payloads]; omega
  have hsize : payloads.length < UInt16.size := hlength ▸ c.total.toNat_lt_size
  have hword : c.total = UInt16.ofNat payloads.length := by rw [hlength, UInt16.ofNat_toNat]
  have hcopy : c.repeats (nth payloads 1) := Completed.repeats_iff.mpr ⟨hword, hsecond⟩
  have hother : ¬ c.repeats (nth payloads 0) := by
    intro hrepeats
    obtain ⟨-, heq⟩ := Completed.repeats_iff.mp hrepeats
    rw [show (nth payloads 0).index = UInt16.ofNat 0 from rfl, hfirst] at heq
    simp [nth, payloads] at heq
  -- a packet of no message ends what is open
  let zero : Packet := ⟨0, 0, []⟩
  obtain ⟨-, hopen, hkept⟩ := push_of_zero (p := zero) r 0 rfl
  rw [evictStale_of_maxAge_none hage] at hkept
  have hblank : Blank (r'.push zero 0).next := blank_of_zero hage' hforgot rfl 0
  obtain ⟨result, later, hanswers, hmem⟩ := answered_of_new hsize (hlength ▸ htwo)
  obtain ⟨result', later', hsilent, hnone⟩ := unanswered_of_remembered hsize (hlength ▸ htwo)
    ((maxAge_push _ _ _).trans hage) hopen (hkept.trans hc) hcopy hother
  refine ⟨(zero, 0) :: swapped payloads, fun heq ↦ ?_⟩
  rw [pushes, pushes, hblank.pushes, hanswers, hsilent] at heq
  simp only [List.cons.injEq] at heq
  exact hnone _ (heq.2.2 ▸ hmem)

/-! ## A packet outside its message -/

/-- While a message of its total is open, a packet outside it is only counted. -/
theorem push_of_open (hage : r.maxAge = none) (hbuffer : r.buffer = some b)
    (htotal : b.total = p.total) (hpositive : p.total ≠ 0) (houtside : p.total ≤ p.index)
    (now : Nat) :
    (r.push p now).result = .ok none ∧
      (r.push p now).next = { r with discarded := r.discarded + 1 } := by
  rw [push_of_maxAge_none hage, take, if_neg hpositive, hbuffer]
  dsimp only
  rw [if_pos htotal, accept, if_pos (htotal ▸ houtside)]
  exact ⟨rfl, rfl⟩

/-- When no message is open, a packet outside its message opens one, and the message delivered last
is forgotten. -/
theorem push_of_idle (h : Coherent r) (hage : r.maxAge = none) (hbuffer : r.buffer = none)
    (hpositive : p.total ≠ 0) (houtside : p.total ≤ p.index) (now : Nat) :
    (r.push p now).result = .ok none ∧ ∃ kept discarded, (r.push p now).next =
      { r with buffer := some ⟨p.total, kept, now⟩, completed := none, discarded } ∧
      ((∀ c ∈ r.completed, c.held = []) → kept = []) := by
  rw [push_of_maxAge_none hage, take, if_neg hpositive, hbuffer]
  dsimp only
  cases hcompleted : r.completed with
  | none =>
      dsimp only
      rw [openFor, hcompleted]
      dsimp only
      rw [accept, if_pos houtside]
      exact ⟨rfl, [], _, by rw [hcompleted], fun _ ↦ rfl⟩
  | some c =>
      have hdiffers : ¬ c.repeats p := fun hrepeats ↦
        UInt16.not_lt.mpr houtside ((h.completed c hcompleted).index_lt hrepeats)
      dsimp only
      rw [if_neg hdiffers, openFor, hcompleted]
      dsimp only
      rw [accept, if_pos houtside]
      refine ⟨rfl, _, _, rfl, fun hnone ↦ ?_⟩
      rw [hnone c rfl, List.filter_nil]

/-- When nothing is to be seen, the message that the packet opens is not seen either. -/
theorem Blank.pushes_of_idle (h : Blank r) (hbuffer : r.buffer = none) (hpositive : p.total ≠ 0)
    (houtside : p.total ≤ p.index) (now : Nat) (l : List (Packet × Nat)) :
    (r.push p now).next.pushes l = r.pushes l := by
  obtain ⟨-, kept, discarded, hnext, hempty⟩ :=
    push_of_idle h.coherent h.maxAge hbuffer hpositive houtside now
  have hkept : kept = [] := hempty fun c hc ↦ h.held_eq_nil hc
  have hblank : Blank (r.push p now).next := by
    refine ⟨h.coherent.push, (maxAge_push r p now).trans h.maxAge, ?_, ?_⟩
    · rw [hnext]
      rintro b ⟨⟩
      exact hkept
    · rw [hnext]
      exact forall_none
  rw [hblank.pushes, h.pushes]

/-- The packet is counted, and nothing that can be asked for afterwards tells that it came. -/
structure Traceless (r : Reassembler) (p : Packet) (now : Nat) : Prop where
  result : (r.push p now).result = .ok none
  discarded : (r.push p now).next.discarded = r.discarded + 1
  pending : ∀ l, ((r.push p now).next.pushAll l).pending = (r.pushAll l).pending
  evicted : ∀ l, ((r.push p now).next.pushAll l).evicted = (r.pushAll l).evicted
  later : ∀ l, (r.push p now).next.pushes l = r.pushes l

theorem Coherent.traceless_of_open (h : Coherent r) (hage : r.maxAge = none)
    (hbuffer : r.buffer = some b) (htotal : b.total = p.total) (hpositive : p.total ≠ 0)
    (houtside : p.total ≤ p.index) : Traceless r p now := by
  obtain ⟨hresult, hnext⟩ := push_of_open hage hbuffer htotal hpositive houtside now
  have halike : Alike (r.push p now).next r := by
    rw [hnext]
    exact ⟨⟨hage, hage⟩, .inr ⟨b, b.startedAt, hbuffer, hbuffer⟩,
      .inl ⟨h.apart.resolve_left (by simp [hbuffer]), h.apart.resolve_left (by simp [hbuffer])⟩⟩
  exact ⟨hresult, by rw [hnext], fun l ↦ (halike.pushAll l).pending,
    fun l ↦ halike.evicted (by rw [hnext]) l, fun l ↦ halike.pushes l⟩

/-- A packet outside its message, whether it comes while a message of its total is open or while
none is, is answered with nothing.  It leaves no trace exactly in the first case.  In the other one
its trace does not show in later answers if no message is remembered or one of one packet. -/
theorem traceless_iff {calls : List Call} (hreach : (new none).performAll calls = r)
    (hpositive : p.total ≠ 0) (houtside : p.total ≤ p.index)
    (hfits : ∀ b ∈ r.buffer, b.total = p.total) (now : Nat) :
    (r.push p now).result = .ok none ∧ (Traceless r p now ↔ r.buffer ≠ none) ∧
      ((∀ l, (r.push p now).next.pushes l = r.pushes l) ↔
        r.buffer ≠ none ∨ ∀ c ∈ r.completed, c.total = 1) := by
  have hcoherent : Coherent r := hreach ▸ coherent_performAll none calls
  have hage : r.maxAge = none := hreach ▸ maxAge_performAll none calls
  cases hbuffer : r.buffer with
  | some b =>
      have htraceless : Traceless r p now :=
        hcoherent.traceless_of_open hage hbuffer (hfits b hbuffer) hpositive houtside
      exact ⟨htraceless.result, iff_of_true htraceless (by simp),
        iff_of_true htraceless.later (.inl (by simp))⟩
  | none =>
      obtain ⟨hresult, kept, discarded, hnext, -⟩ :=
        push_of_idle hcoherent hage hbuffer hpositive houtside now
      refine ⟨hresult, iff_of_false ?traced (by simp), ?answers⟩
      case traced =>
        intro htraceless
        have hpending := htraceless.pending []
        rw [pushAll_nil, pushAll_nil, hnext, pending, pending, hbuffer] at hpending
        cases hpending
      case answers =>
        constructor
        · intro hsame
          refine .inr fun c hc ↦ not_not.mp fun hmore ↦ ?_
          obtain ⟨l, hne⟩ := exists_pushes_ne (r.push p now).next hcoherent hage hc hmore
            ((maxAge_push r p now).trans hage) (by rw [hnext])
          exact hne (hsame l)
        · rintro (hopen | hone)
          · exact absurd rfl hopen
          · have hblank : Blank r := ⟨hcoherent, hage, hbuffer ▸ forall_none, hone⟩
            exact hblank.pushes_of_idle hbuffer hpositive houtside now

/-- A packet of index 9 among two leaves no trace while a message of two packets is open, and none
that shows in answers behind a message of one packet. -/
theorem traceless_of_open_pair :
    Traceless ((new none).performAll [.push ⟨0, 2, Text.bytes "ab"⟩ 0]) ⟨9, 2, Text.bytes "??"⟩ 1 ∧
      ∀ l, (((new none).performAll [.push ⟨0, 1, Text.bytes "a"⟩ 0]).push
          ⟨9, 2, Text.bytes "??"⟩ 1).next.pushes l =
        ((new none).performAll [.push ⟨0, 1, Text.bytes "a"⟩ 0]).pushes l := by
  have hfits : ∀ b ∈ ((new none).performAll [.push ⟨0, 2, Text.bytes "ab"⟩ 0]).buffer,
      b.total = 2 := by
    rintro b ⟨⟩
    rfl
  have hidle : ∀ b ∈ ((new none).performAll [.push ⟨0, 1, Text.bytes "a"⟩ 0]).buffer,
      b.total = 2 := nofun
  have hone : ∀ c ∈ ((new none).performAll [.push ⟨0, 1, Text.bytes "a"⟩ 0]).completed,
      c.total = 1 := by
    rintro c ⟨⟩
    rfl
  exact ⟨(traceless_iff rfl (by decide) (by decide) hfits 1).2.1.mpr nofun,
    (traceless_iff rfl (by decide) (by decide) hidle 1).2.2.mpr (.inr hone)⟩

/-- Behind a message of two packets the same packet opens another one: a late copy is then taken
into it, and the next message is delivered with the payload of the last. -/
theorem traced_of_remembered :
    ((new none).performAll [.push ⟨0, 2, Text.bytes "A"⟩ 0,
        .push ⟨1, 2, Text.bytes "B"⟩ 0]).buffer = none ∧
      ¬ Traceless ((new none).performAll [.push ⟨0, 2, Text.bytes "A"⟩ 0,
        .push ⟨1, 2, Text.bytes "B"⟩ 0]) ⟨9, 2, Text.bytes "?"⟩ 0 ∧
      ((new none).performAll [.push ⟨0, 2, Text.bytes "A"⟩ 0,
        .push ⟨1, 2, Text.bytes "B"⟩ 0]).pushes [(⟨1, 2, Text.bytes "B"⟩, 0),
          (⟨0, 2, Text.bytes "C"⟩, 0), (⟨1, 2, Text.bytes "D"⟩, 0)] =
            [.ok none, .ok none, .ok (some (Text.bytes "CD"))] ∧
      ((new none).performAll [.push ⟨0, 2, Text.bytes "A"⟩ 0, .push ⟨1, 2, Text.bytes "B"⟩ 0,
        .push ⟨9, 2, Text.bytes "?"⟩ 0]).pushes [(⟨1, 2, Text.bytes "B"⟩, 0),
          (⟨0, 2, Text.bytes "C"⟩, 0), (⟨1, 2, Text.bytes "D"⟩, 0)] =
            [.ok none, .ok (some (Text.bytes "CB")), .ok none] := by
  refine ⟨by decide +kernel, fun htraceless ↦ ?_, by decide +kernel, by decide +kernel⟩
  exact absurd (htraceless.pending []) (by decide +kernel)

end BleBridge.Frame.Reassembler
