import BleBridge.Proofs.Frame.Coherence

/-!
# How old the packets of a message are

A message is as old as its opening, and held copies as the delivery before them.
A copy comes after that delivery and is given up with it, so a message sent again
consists of packets within the age limit, and so does one whose packets all came
while it was open.  But when a message opens with held copies, its age starts
anew: a copy within the limit then may be twice as old when the message is
complete (`delivered_ages`).

To tell which packet a payload comes from, a run is read as a log of the packets
that go into slots (`entries`).  The slots follow the log (`Draws`): under each
index is the payload of the last entry of that index, in the open message because
the first packet there stays, and in the held copies because the last one does.
-/

namespace BleBridge.Frame.Reassembler

/-! ## The log -/

/-- A packet goes into a slot of the open message, or of the held copies. -/
structure Entry where
  packet : Packet
  time : Nat
  held : Bool
deriving DecidableEq

/-- The entry that a packet makes at `now` when nothing stale is left.  A packet outside its message
makes none, nor does one whose index the open message has already. -/
def newEntry (r : Reassembler) (p : Packet) (now : Nat) : Option Entry :=
  if p.total ≤ p.index then none
  else match r.buffer with
    | some b => if b.total = p.total ∧ b.received.has p.index then none else some ⟨p, now, false⟩
    | none => some ⟨p, now, r.completed.any (·.repeats p)⟩

def Call.newEntry (r : Reassembler) : Call → Option Entry
  | .push p now => (r.evictStale now).1.newEntry p now
  | .reset => none

/-- The entries of a run. -/
def entries (r : Reassembler) : List Call → List Entry
  | [] => []
  | c :: calls => (c.newEntry r).toList ++ entries (r.perform c) calls

/-- The last entry under an index. -/
def latest (log : List Entry) (i : UInt16) : Option Entry :=
  log.reverse.find? (·.packet.index = i)

def Call.time? : Call → Option Nat
  | .push _ now => some now
  | .reset => none

/-- The clock does not go back. -/
def Forward (calls : List Call) : Prop := (calls.filterMap Call.time?).Pairwise (· ≤ ·)

variable {r : Reassembler} {p : Packet} {now limit : Nat} {b : OpenMessage} {c : Completed}
  {log : List Entry} {e : Entry} {entry : Option Entry} {i total : UInt16} {data : Bytes}
  {calls : List Call}

theorem entries_append_singleton (r : Reassembler) (calls : List Call) (c : Call) :
    entries r (calls ++ [c]) = entries r calls ++ (c.newEntry (r.performAll calls)).toList := by
  induction calls generalizing r with
  | nil => exact List.append_nil _
  | cons first calls ih =>
      rw [List.cons_append, entries, entries, ih, List.append_assoc]
      rfl

theorem latest_append_singleton (log : List Entry) (e : Entry) (i : UInt16) :
    latest (log ++ [e]) i = if e.packet.index = i then some e else latest log i := by
  rw [latest, List.reverse_append, List.reverse_singleton, List.singleton_append, List.find?_cons]
  by_cases hindex : e.packet.index = i <;> simp [hindex, latest]

/-! ## What the slots hold -/

/-- The slots hold the payloads of the last entries under their indices, and these satisfy `q`. -/
def Draws (q : Entry → Prop) (log : List Entry) (total : UInt16) (s : Slots) : Prop :=
  ∀ i payload, s.get? i = some payload →
    ∃ e, latest log i = some e ∧ e.packet = ⟨i, total, payload⟩ ∧ q e

variable {q q' : Entry → Prop} {s : Slots}

theorem draws_nil (q : Entry → Prop) (log : List Entry) (total : UInt16) : Draws q log total [] :=
  nofun

theorem Draws.insert (h : Draws q log p.total s) (he : e.packet = p) (hq : q e) :
    Draws q (log ++ [e]) p.total (s.insert p.index p.payload) := by
  intro i payload hget
  rw [latest_append_singleton, he]
  by_cases hindex : p.index = i
  · subst hindex
    rw [Slots.get?_insert_self] at hget
    cases hget
    exact ⟨e, if_pos rfl, he, hq⟩
  · rw [Slots.get?_insert_of_ne _ _ (Ne.symm hindex)] at hget
    rw [if_neg hindex]
    exact h i payload hget

theorem Draws.imp (h : Draws q log total s) (himp : ∀ e, q e → q' e) : Draws q' log total s :=
  fun i payload hget ↦
    let ⟨e, hlatest, hpacket, hq⟩ := h i payload hget
    ⟨e, hlatest, hpacket, himp e hq⟩

/-- A message put together from the slots consists of the last entries. -/
theorem Draws.exists_payloads (h : Draws q log total s)
    (hdata : Slots.assemble total s.get? = .ok data) :
    ∃ payloads : List Bytes, payloads.flatten = data ∧ payloads.length = total.toNat ∧
      ∀ k (hk : k < payloads.length), ∃ e, latest log (UInt16.ofNat k) = some e ∧
        e.packet = ⟨UInt16.ofNat k, total, payloads[k]⟩ ∧ q e := by
  obtain ⟨payloads, hflatten, hlength, hslots⟩ := exists_pieces_of_assemble_go hdata
  refine ⟨payloads, hflatten, hlength, fun k hk ↦ h _ _ ?_⟩
  rw [← hslots k hk, Nat.zero_add]

/-- The entries of a message opened at `since`: those made since then, and held copies that were
within the age limit when it was opened. -/
def Entry.Open (limit since : Nat) (e : Entry) : Prop :=
  since ≤ e.time ∨ e.held ∧ since ≤ e.time + limit

/-- The entries of the copies of a message delivered at `since`. -/
def Entry.Copy (since : Nat) (e : Entry) : Prop := e.held ∧ since ≤ e.time

/-- What the reassembler holds at `now` comes from the last entries of the log. -/
structure Dated (limit : Nat) (log : List Entry) (now : Nat) (r : Reassembler) : Prop where
  buffer : ∀ b ∈ r.buffer, b.startedAt ≤ now ∧
    Draws (Entry.Open limit b.startedAt) log b.total b.received
  completed : ∀ c ∈ r.completed, c.completedAt ≤ now ∧
    Draws (Entry.Copy c.completedAt) log c.total c.held

theorem dated_nil (hbuffer : r.buffer = none) (hcompleted : r.completed = none) :
    Dated limit log now r :=
  ⟨hbuffer ▸ forall_none, hcompleted ▸ forall_none⟩

theorem Dated.mono (h : Dated limit log now r) {later : Nat} (hle : now ≤ later) :
    Dated limit log later r :=
  ⟨fun b hb ↦ ⟨(h.buffer b hb).1.trans hle, (h.buffer b hb).2⟩,
    fun c hc ↦ ⟨(h.completed c hc).1.trans hle, (h.completed c hc).2⟩⟩

/-- The message delivered at `now` by a packet, which may be the last copy of a message sent again,
consists of the last entries of the log.  None of them is older than the age limit, except that held
copies in a message that is not sent again may be older by as much. -/
def Aged (limit now : Nat) (total : UInt16) (again : Bool) (log : List Entry) (data : Bytes) :
    Prop :=
  ∃ payloads : List Bytes, payloads.flatten = data ∧ payloads.length = total.toNat ∧
    ∀ k (hk : k < payloads.length), ∃ e, latest log (UInt16.ofNat k) = some e ∧
      e.packet = ⟨UInt16.ofNat k, total, payloads[k]⟩ ∧
      now ≤ e.time + if e.held ∧ ¬ again then 2 * limit else limit

/-! ## One packet -/

/-- The packet makes the entry, what is held afterwards is in the log, and so is a message that
the packet completes. -/
structure Records (limit : Nat) (log : List Entry) (p : Packet) (now : Nat) (entry : Option Entry)
    (pushed : Pushed) : Prop where
  next : Dated limit (log ++ entry.toList) now pushed.next
  delivers : ∀ data, pushed.result = .ok (some data) → ∃ again, entry = some ⟨p, now, again⟩ ∧
    Aged limit now p.total again (log ++ entry.toList) data

theorem records_accept (hcompleted : r.completed = none) (hpartial : b.Partial)
    (htotal : b.total = p.total) (hsince : b.startedAt ≤ now) (hyoung : now ≤ b.startedAt + limit)
    (hdraws : Draws (Entry.Open limit b.startedAt) log b.total b.received) :
    Records limit log p now
      (if p.total ≤ p.index ∨ b.received.has p.index then none else some ⟨p, now, false⟩)
      (r.accept b p now) := by
  obtain ⟨total, received, since⟩ := b
  obtain rfl : total = p.total := htotal
  rw [accept]
  dsimp only at hsince hyoung hdraws ⊢
  by_cases houtside : p.total ≤ p.index
  · rw [if_pos houtside, if_pos (.inl houtside)]
    refine ⟨⟨?_, hcompleted ▸ forall_none⟩, fun data hresult ↦ by cases hresult⟩
    rintro b' ⟨⟩
    rw [Option.toList_none, List.append_nil]
    exact ⟨hsince, hdraws⟩
  · rw [if_neg houtside]
    by_cases hknown : received.has p.index
    · rw [if_pos hknown, if_neg hpartial.lacks.ne, if_pos (.inr hknown)]
      refine ⟨⟨?_, hcompleted ▸ forall_none⟩, fun data hresult ↦ by cases hresult⟩
      rintro b' ⟨⟩
      rw [Option.toList_none, List.append_nil]
      exact ⟨hsince, hdraws⟩
    · rw [if_neg hknown, if_neg (not_or.mpr ⟨houtside, hknown⟩)]
      have hinsert : Draws (Entry.Open limit since) (log ++ [⟨p, now, false⟩]) p.total
          (received.insert p.index p.payload) := hdraws.insert rfl (.inl hsince)
      by_cases hall : (received.insert p.index p.payload).length = p.total.toNat
      · rw [if_pos hall]
        refine ⟨⟨forall_none, ?_⟩, fun data hresult ↦ ⟨false, rfl, ?_⟩⟩
        · rintro c ⟨⟩
          exact ⟨le_refl now, draws_nil _ _ _⟩
        · refine (hinsert.imp fun e he ↦ ?_).exists_payloads (assemble_of_map_some hresult)
          rcases he with hlate | ⟨hheld, hcopy⟩
          · split <;> omega
          · rw [if_pos ⟨hheld, by decide⟩]
            omega
      · rw [if_neg hall]
        refine ⟨⟨?_, hcompleted ▸ forall_none⟩, fun data hresult ↦ by cases hresult⟩
        rintro b' ⟨⟩
        exact ⟨hsince, hinsert⟩

theorem records_hold (hbuffer : r.buffer = none) (hrepeats : c.repeats p)
    (hsince : c.completedAt ≤ now) (hyoung : now ≤ c.completedAt + limit)
    (hdraws : Draws (Entry.Copy c.completedAt) log c.total c.held) :
    Records limit log p now (some ⟨p, now, true⟩) (r.hold c p now) := by
  have htotal : c.total = p.total := (Completed.repeats_iff.mp hrepeats).1
  have hinsert : Draws (Entry.Copy c.completedAt) (log ++ [⟨p, now, true⟩]) p.total
      (c.held.insert p.index p.payload) := (htotal ▸ hdraws).insert rfl ⟨rfl, hsince⟩
  rw [hold, htotal]
  split
  · refine ⟨⟨hbuffer ▸ forall_none, ?_⟩, fun data hresult ↦ by cases hresult⟩
    rintro c' ⟨⟩
    exact ⟨hsince, htotal ▸ hinsert⟩
  · refine ⟨⟨hbuffer ▸ forall_none, ?_⟩, fun data hresult ↦ ⟨true, rfl, ?_⟩⟩
    · rintro c' ⟨⟩
      exact ⟨le_refl now, draws_nil _ _ _⟩
    · refine (hinsert.imp fun e he ↦ ?_).exists_payloads (assemble_of_map_some hresult)
      rw [if_neg (by simp)]
      exact hyoung.trans (Nat.add_le_add_right he.2 limit)

/-- A message opens without packets. -/
theorem records_fresh (hpositive : p.total ≠ 0) (hcompleted : r.completed = none) :
    Records limit log p now (if p.total ≤ p.index then none else some ⟨p, now, false⟩)
      (r.accept ⟨p.total, [], now⟩ p now) := by
  have hrecords : Records limit log p now _ (r.accept _ p now) := records_accept hcompleted
    (partial_fresh hpositive now) rfl (le_refl now) (Nat.le_add_right now limit) (draws_nil _ _ _)
  simpa [Slots.has, Slots.get?] using hrecords

theorem get?_kept {payload : Bytes}
    (hget : Slots.get? (c.held.filter (precedes c p)) i = some payload) :
    c.total = p.total ∧ i < p.index ∧ c.held.get? i = some payload := by
  have hfilter := Slots.get?_filter (fun i ↦ c.total == p.total && decide (i < p.index)) c.held i
  rw [show (c.held.filter fun slot ↦ c.total == p.total && decide (slot.1 < p.index)) =
    c.held.filter (precedes c p) from rfl, hget] at hfilter
  split at hfilter
  · rename_i hpick
    rw [Bool.and_eq_true, beq_iff_eq, decide_eq_true_eq] at hpick
    exact ⟨hpick.1, hpick.2, hfilter.symm⟩
  · cases hfilter

/-- A message opens with the held copies before its first packet. -/
theorem records_openFor (hpositive : p.total ≠ 0) (hcoherent : Coherent r)
    (hyoung : ∀ c ∈ r.completed, now ≤ c.completedAt + limit) (h : Dated limit log now r) :
    Records limit log p now (if p.total ≤ p.index then none else some ⟨p, now, false⟩)
      (r.openFor p now) := by
  rw [openFor]
  cases hcompleted : r.completed with
  | none => exact records_fresh hpositive hcompleted
  | some c =>
      have hlacks : Slots.has (c.held.filter (precedes c p)) p.index = false := by
        rw [Slots.has, Option.isSome_eq_false_iff, Option.isNone_iff_eq_none,
          Option.eq_none_iff_forall_ne_some]
        exact fun payload hget ↦ UInt16.lt_irrefl _ (get?_kept hget).2.1
      have hkept : Draws (Entry.Open limit now) log p.total (c.held.filter (precedes c p)) := by
        intro i payload hget
        obtain ⟨htotal, -, hheld⟩ := get?_kept hget
        obtain ⟨e, hlatest, hpacket, hcopy, hsince⟩ := (h.completed c hcompleted).2 i payload hheld
        exact ⟨e, hlatest, htotal ▸ hpacket,
          .inr ⟨hcopy, (hyoung c hcompleted).trans (Nat.add_le_add_right hsince limit)⟩⟩
      have hrecords := records_accept
        (r := { r with
          completed := none
          discarded := r.discarded + (c.held.filter (!precedes c p ·)).length })
        rfl (partial_kept hpositive (hcoherent.completed c hcompleted) now) rfl (le_refl now)
        (Nat.le_add_right now limit) hkept
      simp only [hlacks, Bool.false_eq_true, or_false] at hrecords
      exact ⟨hrecords.next, hrecords.delivers⟩

theorem records_take (hpositive : p.total ≠ 0) (hcoherent : Coherent r)
    (hopen : ∀ b ∈ r.buffer, now ≤ b.startedAt + limit)
    (hyoung : ∀ c ∈ r.completed, now ≤ c.completedAt + limit) (h : Dated limit log now r) :
    Records limit log p now (r.newEntry p now) (r.take p now) := by
  rw [take, if_neg hpositive, newEntry]
  cases hbuffer : r.buffer with
  | some b =>
      have hcompleted : r.completed = none := hcoherent.apart.resolve_left (by simp [hbuffer])
      obtain ⟨hsince, hdraws⟩ := h.buffer b hbuffer
      dsimp only
      by_cases htotal : b.total = p.total
      · rw [if_pos htotal]
        have hrecords := records_accept (p := p) hcompleted (hcoherent.buffer b hbuffer) htotal
          hsince (hopen b hbuffer) hdraws
        by_cases houtside : p.total ≤ p.index <;> simpa [houtside, htotal] using hrecords
      · have hnew : ¬ (b.total = p.total ∧ b.received.has p.index) := fun h ↦ htotal h.1
        rw [if_neg htotal, if_neg hnew]
        have hrecords : Records limit log p now _ (accept _ _ p now) := records_fresh
          (r := { r with buffer := none, evicted := r.evicted + 1 }) hpositive hcompleted
        exact ⟨hrecords.next, hrecords.delivers⟩
  | none =>
      cases hcompleted : r.completed with
      | none => exact records_openFor hpositive hcoherent hyoung h
      | some c =>
          obtain ⟨hsince, hdraws⟩ := h.completed c hcompleted
          dsimp only
          by_cases hrepeats : c.repeats p
          · have hinside : ¬ p.total ≤ p.index :=
              UInt16.not_le.mpr ((hcoherent.completed c hcompleted).index_lt hrepeats)
            rw [if_pos hrepeats, if_neg hinside, Option.any_some, hrepeats]
            exact records_hold hbuffer hrepeats hsince (hyoung c hcompleted) hdraws
          · rw [if_neg hrepeats, Option.any_some, eq_false_of_ne_true hrepeats]
            exact records_openFor hpositive hcoherent hyoung h

theorem le_of_not_stale (hage : r.maxAge = some limit) {since : Nat}
    (h : r.stale now since = false) : now ≤ since + limit := by
  rw [stale, hage, decide_eq_false_iff_not] at h
  omega

theorem Dated.evictStale (h : Dated limit log now r) :
    Dated limit log now (r.evictStale now).1 := by
  refine ⟨fun b hb ↦ ?_, fun c hc ↦ ?_⟩
  · rw [buffer_evictStale, Option.mem_filter_iff] at hb
    exact h.buffer b hb.1
  · rw [completed_evictStale, Option.mem_filter_iff] at hc
    exact h.completed c hc.1

theorem records_push (hcoherent : Coherent r) (hage : r.maxAge = some limit)
    (h : Dated limit log now r) :
    Records limit log p now (Call.newEntry r (.push p now)) (r.push p now) := by
  have hfresh := h.evictStale
  rw [Call.newEntry]
  by_cases hzero : p.total = 0
  · obtain ⟨herror, hbuffer, hcompleted⟩ := push_of_zero r now hzero
    have hnone : (r.evictStale now).1.newEntry p now = none := by
      rw [newEntry, if_pos (hzero ▸ UInt16.zero_le)]
    rw [hnone]
    refine ⟨⟨hbuffer ▸ forall_none, ?_⟩, fun data hresult ↦ ?_⟩
    · rw [hcompleted, Option.toList_none, List.append_nil]
      exact hfresh.completed
    · rw [herror] at hresult
      cases hresult
  · have hopen : ∀ b ∈ (r.evictStale now).1.buffer, now ≤ b.startedAt + limit := by
      intro b hb
      rw [buffer_evictStale, Option.mem_filter_iff] at hb
      exact le_of_not_stale hage (by simpa using hb.2)
    have hyoung : ∀ c ∈ (r.evictStale now).1.completed, now ≤ c.completedAt + limit := by
      intro c hc
      rw [completed_evictStale, Option.mem_filter_iff] at hc
      exact le_of_not_stale hage (by simpa using hc.2)
    obtain ⟨hnext, hdelivers⟩ :=
      records_take (p := p) hzero (hcoherent.evictStale now) hopen hyoung hfresh
    exact ⟨hnext, hdelivers⟩

/-! ## Every run -/

theorem forward_append_singleton (h : Forward (calls ++ [.push p now])) :
    Forward calls ∧ ∀ time ∈ calls.filterMap Call.time?, time ≤ now := by
  rw [Forward, List.filterMap_append, List.pairwise_append] at h
  exact ⟨h.1, fun time htime ↦ h.2.2 time htime now (by simp [Call.time?])⟩

theorem dated_performAll (hforward : Forward calls)
    (hlatest : ∀ time ∈ calls.filterMap Call.time?, time ≤ now) :
    Dated limit (entries (new (some limit)) calls) now ((new (some limit)).performAll calls) := by
  induction calls using List.reverseRecOn generalizing now with
  | nil => exact dated_nil rfl rfl
  | append_singleton calls c ih =>
      rw [performAll_append_singleton]
      cases c with
      | reset => exact dated_nil rfl rfl
      | push p time =>
          obtain ⟨hbefore, hle⟩ := forward_append_singleton hforward
          rw [entries_append_singleton]
          refine Dated.mono (records_push (coherent_performAll _ calls) (maxAge_performAll _ calls)
            (ih hbefore hle)).next (hlatest time ?_)
          simp [Call.time?]

/-- A message is delivered.  Each of its packets came within the age limit, or was held as a copy of
the message before when this one opened, and came within twice the limit. -/
theorem delivered_ages (hforward : Forward (calls ++ [.push p now]))
    (hdelivers : (((new (some limit)).performAll calls).push p now).result = .ok (some data)) :
    ∃ again, (entries (new (some limit)) (calls ++ [.push p now])).getLast? =
        some ⟨p, now, again⟩ ∧
      Aged limit now p.total again (entries (new (some limit)) (calls ++ [.push p now])) data := by
  obtain ⟨hbefore, hle⟩ := forward_append_singleton hforward
  obtain ⟨again, hentry, haged⟩ := (records_push (coherent_performAll _ calls)
    (maxAge_performAll _ calls) (dated_performAll hbefore hle)).delivers data hdelivers
  refine ⟨again, ?_, ?_⟩
  · rw [entries_append_singleton, hentry]
    exact List.getLast?_concat
  · rw [entries_append_singleton]
    exact haged

/-- The second message opens with a held copy of forty milliseconds. -/
theorem delivered_ages_of_held :
    (((new (some 100)).performAll [.push ⟨0, 2, Text.bytes "A"⟩ 0, .push ⟨1, 2, Text.bytes "B"⟩ 0,
        .push ⟨0, 2, Text.bytes "A"⟩ 60]).push ⟨1, 2, Text.bytes "C"⟩ 100).result =
          .ok (some (Text.bytes "AC")) ∧
      ∃ again, (entries (new (some 100)) [.push ⟨0, 2, Text.bytes "A"⟩ 0,
          .push ⟨1, 2, Text.bytes "B"⟩ 0, .push ⟨0, 2, Text.bytes "A"⟩ 60,
          .push ⟨1, 2, Text.bytes "C"⟩ 100]).getLast? =
            some ⟨⟨1, 2, Text.bytes "C"⟩, 100, again⟩ ∧
        Aged 100 100 2 again (entries (new (some 100)) [.push ⟨0, 2, Text.bytes "A"⟩ 0,
          .push ⟨1, 2, Text.bytes "B"⟩ 0, .push ⟨0, 2, Text.bytes "A"⟩ 60,
          .push ⟨1, 2, Text.bytes "C"⟩ 100]) (Text.bytes "AC") := by
  have hresult : (((new (some 100)).performAll [.push ⟨0, 2, Text.bytes "A"⟩ 0,
      .push ⟨1, 2, Text.bytes "B"⟩ 0, .push ⟨0, 2, Text.bytes "A"⟩ 60]).push
        ⟨1, 2, Text.bytes "C"⟩ 100).result = .ok (some (Text.bytes "AC")) := by decide +kernel
  exact ⟨hresult, delivered_ages (by rw [Forward]; decide) hresult⟩

/-- A message with a first packet of twice the age limit: it was held until the second packet opened
the message, and the third came as long after that. -/
theorem older_than_limit :
    Forward [.push ⟨0, 3, Text.bytes "A"⟩ 0, .push ⟨1, 3, Text.bytes "A"⟩ 0,
        .push ⟨2, 3, Text.bytes "A"⟩ 0, .push ⟨0, 3, Text.bytes "A"⟩ 0,
        .push ⟨1, 3, Text.bytes "B"⟩ 100, .push ⟨2, 3, Text.bytes "B"⟩ 200] ∧
      (((new (some 100)).performAll [.push ⟨0, 3, Text.bytes "A"⟩ 0,
        .push ⟨1, 3, Text.bytes "A"⟩ 0, .push ⟨2, 3, Text.bytes "A"⟩ 0,
        .push ⟨0, 3, Text.bytes "A"⟩ 0, .push ⟨1, 3, Text.bytes "B"⟩ 100]).push
          ⟨2, 3, Text.bytes "B"⟩ 200).result = .ok (some (Text.bytes "ABB")) ∧
      latest (entries (new (some 100)) [.push ⟨0, 3, Text.bytes "A"⟩ 0,
        .push ⟨1, 3, Text.bytes "A"⟩ 0, .push ⟨2, 3, Text.bytes "A"⟩ 0,
        .push ⟨0, 3, Text.bytes "A"⟩ 0, .push ⟨1, 3, Text.bytes "B"⟩ 100,
        .push ⟨2, 3, Text.bytes "B"⟩ 200]) 0 = some ⟨⟨0, 3, Text.bytes "A"⟩, 0, true⟩ ∧
      ∀ payload time, .push ⟨0, 3, payload⟩ time ∈ [.push ⟨0, 3, Text.bytes "A"⟩ 0,
        .push ⟨1, 3, Text.bytes "A"⟩ 0, .push ⟨2, 3, Text.bytes "A"⟩ 0,
        .push ⟨0, 3, Text.bytes "A"⟩ 0, .push ⟨1, 3, Text.bytes "B"⟩ 100,
        Call.push ⟨2, 3, Text.bytes "B"⟩ 200] → time + 100 < 200 := by
  refine ⟨by rw [Forward]; decide, by decide +kernel, by decide +kernel, fun payload time hmem ↦ ?_⟩
  simp only [List.mem_cons, List.not_mem_nil, Call.push.injEq, Packet.mk.injEq] at hmem
  grind

end BleBridge.Frame.Reassembler
