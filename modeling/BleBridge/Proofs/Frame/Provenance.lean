import BleBridge.Proofs.Frame.Gather

/-!
# Every byte has its packet

A run of the reassembler is any sequence of pushes and resets, whatever its age
limit and the readings of the clock.  Each message that it delivers consists of
the payloads of packets that were pushed under the indices of the message, one
under each index, after the delivery or reset before (`Sourced`).  So no packet
has a part in two messages.

The calls behind the last delivery or reset carry the invariant: what the
reassembler holds was gathered from their packets (`exists_recent`).
-/

namespace BleBridge.Frame.Reassembler

/-! ## Runs of pushes and resets -/

/-- What callers do with a reassembler. -/
inductive Call where
  | push (p : Packet) (now : Nat)
  | reset
deriving DecidableEq

def Call.packet? : Call → Option Packet
  | .push p _ => some p
  | .reset => none

def perform (r : Reassembler) : Call → Reassembler
  | .push p now => (r.push p now).next
  | .reset => r.reset

def performAll (r : Reassembler) (calls : List Call) : Reassembler := calls.foldl perform r

/-- The call at `n` of a run pushes `p`, which completes the message `data`. -/
def Delivers (maxAge : Option Nat) (calls : List Call) (n : Nat) (p : Packet) (data : Bytes) :
    Prop :=
  ∃ now, calls[n]? = some (.push p now) ∧
    (((new maxAge).performAll (calls.take n)).push p now).result = .ok (some data)

/-- The call at `n` leaves nothing that a later message could be made of. -/
def Clears (maxAge : Option Nat) (calls : List Call) (n : Nat) : Prop :=
  calls[n]? = some .reset ∨ ∃ p data, Delivers maxAge calls n p data

variable {maxAge : Option Nat} {calls later : List Call} {n n' m k k' : Nat} {p p' : Packet}
  {data data' : Bytes} {source : Nat → Nat}

theorem performAll_append_singleton (r : Reassembler) (calls : List Call) (c : Call) :
    r.performAll (calls ++ [c]) = (r.performAll calls).perform c := by
  rw [performAll, List.foldl_append]
  rfl

/-- What a call does is settled by the calls up to it. -/
theorem delivers_append_iff (h : n < calls.length) :
    Delivers maxAge (calls ++ later) n p data ↔ Delivers maxAge calls n p data := by
  rw [Delivers, Delivers, List.getElem?_append_left h, List.take_append_of_le_length h.le]

theorem clears_append_iff (h : n < calls.length) :
    Clears maxAge (calls ++ later) n ↔ Clears maxAge calls n := by
  rw [Clears, Clears, List.getElem?_append_left h]
  simp only [delivers_append_iff h]

theorem Delivers.lt_length (h : Delivers maxAge calls n p data) : n < calls.length := by
  obtain ⟨now, hcall, _⟩ := h
  exact (List.getElem?_eq_some_iff.mp hcall).1

theorem Delivers.unique (h : Delivers maxAge calls n p data)
    (h' : Delivers maxAge calls n p' data') : p = p' ∧ data = data' := by
  obtain ⟨now, hcall, hresult⟩ := h
  obtain ⟨now', hcall', hresult'⟩ := h'
  rw [hcall] at hcall'
  cases hcall'
  rw [hresult] at hresult'
  cases hresult'
  exact ⟨rfl, rfl⟩

/-! ## The calls since the last delivery or reset -/

/-- All that the reassembler holds was gathered from the packets of the calls behind the last one
that cleared it. -/
structure Recent (maxAge : Option Nat) (before recent : List Call) : Prop where
  uncleared : ∀ m, before.length ≤ m → ¬ Clears maxAge (before ++ recent) m
  gathered : Gathered (recent.filterMap Call.packet?) ((new maxAge).performAll (before ++ recent))

theorem recent_nil (maxAge : Option Nat) : Recent maxAge [] [] := by
  refine ⟨fun m _ hclears ↦ ?_, gathered_new maxAge⟩
  rcases hclears with hreset | ⟨p, data, hdelivers⟩
  · cases hreset
  · exact absurd hdelivers.lt_length (Nat.not_lt_zero m)

/-- Behind a call that clears the reassembler nothing is recent. -/
theorem recent_of_gathered (h : Gathered [] ((new maxAge).performAll calls)) :
    Recent maxAge calls [] := by
  rw [← List.append_nil calls] at h
  refine ⟨fun m hm hclears ↦ ?_, h⟩
  rw [List.append_nil] at hclears
  rcases hclears with hreset | ⟨p, data, hdelivers⟩
  · exact absurd (List.getElem?_eq_some_iff.mp hreset).1 (by omega)
  · exact absurd hdelivers.lt_length (by omega)

/-- A push that delivers nothing joins the recent calls. -/
theorem Recent.push {before recent : List Call} (h : Recent maxAge before recent) {now : Nat}
    (hnone : ∀ data, (((new maxAge).performAll (before ++ recent)).push p now).result ≠
      .ok (some data)) :
    Recent maxAge before (recent ++ [.push p now]) := by
  obtain ⟨huncleared, hgathered⟩ := h
  obtain ⟨hgoesOn, _⟩ : Gathers _ p (((new maxAge).performAll (before ++ recent)).push p now) :=
    gathers_push hgathered
  refine ⟨fun m hm hclears ↦ ?_, ?_⟩
  · rw [← List.append_assoc] at hclears
    rcases Nat.lt_or_ge m (before ++ recent).length with hlt | hge
    · exact huncleared m hm ((clears_append_iff hlt).mp hclears)
    · rcases hclears with hreset | ⟨q, data, now', hcall, hresult⟩
      · rw [List.getElem?_append_right hge] at hreset
        obtain ⟨hlt, hreset⟩ := List.getElem?_eq_some_iff.mp hreset
        simp at hreset
      · rw [List.getElem?_append_right hge] at hcall
        obtain ⟨hlt, heq⟩ := List.getElem?_eq_some_iff.mp hcall
        have hlast : m = (before ++ recent).length := by
          rw [List.length_singleton] at hlt
          omega
        simp only [List.getElem_singleton] at heq
        cases heq
        rw [hlast, List.take_left] at hresult
        exact hnone data hresult
  · rw [← List.append_assoc, performAll_append_singleton, List.filterMap_append]
    exact hgoesOn hnone

/-- Every run is some calls up to one that cleared the reassembler, and the recent ones. -/
theorem exists_recent (maxAge : Option Nat) (calls : List Call) :
    ∃ before recent, calls = before ++ recent ∧ Recent maxAge before recent := by
  induction calls using List.reverseRecOn with
  | nil => exact ⟨[], [], rfl, recent_nil maxAge⟩
  | append_singleton calls c ih =>
      obtain ⟨before, recent, rfl, hrecent⟩ := ih
      cases c with
      | reset =>
          refine ⟨_, [], (List.append_nil _).symm, recent_of_gathered ?_⟩
          rw [performAll_append_singleton]
          exact ⟨forall_none, forall_none⟩
      | push p now =>
          let pushed := ((new maxAge).performAll (before ++ recent)).push p now
          by_cases hdelivers : ∃ data, pushed.result = .ok (some data)
          · obtain ⟨data, hdata⟩ := hdelivers
            obtain ⟨_, hcleared⟩ : Gathers _ p pushed := gathers_push hrecent.gathered
            refine ⟨_, [], (List.append_nil _).symm, recent_of_gathered ?_⟩
            rw [performAll_append_singleton]
            exact (hcleared data hdata).2
          · exact ⟨before, recent ++ [.push p now], List.append_assoc _ _ _,
              hrecent.push (not_exists.mp hdelivers)⟩

/-! ## Sources -/

/-- The message that the call at `n` delivers is put together from the packets of the calls
`source 0`, `source 1` and so on, none of which is older than a call that cleared the
reassembler. -/
structure Sourced (maxAge : Option Nat) (calls : List Call) (n : Nat) (p : Packet) (data : Bytes)
    (source : Nat → Nat) : Prop where
  pieces : ∃ payloads : List Bytes, payloads.flatten = data ∧ payloads.length = p.total.toNat ∧
    ∀ k (hk : k < payloads.length), ∃ now,
      calls[source k]? = some (.push ⟨UInt16.ofNat k, p.total, payloads[k]⟩ now)
  upTo : ∀ k < p.total.toNat, source k ≤ n
  since : ∀ m < n, Clears maxAge calls m → ∀ k < p.total.toNat, m < source k

theorem Delivers.exists_sourced (h : Delivers maxAge calls n p data) :
    ∃ source, Sourced maxAge calls n p data source := by
  obtain ⟨now, hcall, hresult⟩ := h
  obtain ⟨hn, _⟩ := List.getElem?_eq_some_iff.mp hcall
  obtain ⟨before, recent, htake, hrecent⟩ := exists_recent maxAge (calls.take n)
  have hlength : before.length + recent.length = n := by
    rw [← List.length_append, ← htake, List.length_take, Nat.min_eq_left hn.le]
  rw [htake] at hresult
  obtain ⟨-, payloads, hdata, hpayloads, hmem⟩ := ((gathers_push hrecent.gathered).delivers data
    hresult).1
  -- a packet among the recent ones or the last one has its call
  have hplace : ∀ q ∈ recent.filterMap Call.packet? ++ [p],
      ∃ i, before.length ≤ i ∧ i ≤ n ∧ ∃ now, calls[i]? = some (.push q now) := by
    intro q hq
    rcases List.mem_append.mp hq with hq | hq
    · obtain ⟨c, hc, hpacket⟩ := List.mem_filterMap.mp hq
      obtain ⟨j, hj, rfl⟩ := List.mem_iff_getElem.mp hc
      refine ⟨before.length + j, by omega, by omega, ?_⟩
      have hget : calls[before.length + j]? = some recent[j] := by
        rw [← List.getElem?_take_of_lt (show before.length + j < n by omega), htake,
          List.getElem?_append_right (by omega), Nat.add_sub_cancel_left,
          List.getElem?_eq_getElem hj]
      rw [hget]
      cases hc : recent[j] with
      | push q' now' =>
          rw [hc] at hpacket
          cases hpacket
          exact ⟨now', rfl⟩
      | reset =>
          rw [hc] at hpacket
          cases hpacket
    · obtain rfl := List.mem_singleton.mp hq
      exact ⟨n, by omega, le_refl n, now, hcall⟩
  have hsource : ∀ k, ∃ i, ∀ hk : k < payloads.length, before.length ≤ i ∧ i ≤ n ∧ ∃ now,
      calls[i]? = some (.push ⟨UInt16.ofNat k, p.total, payloads[k]⟩ now) := by
    intro k
    by_cases hk : k < payloads.length
    · obtain ⟨i, hi⟩ := hplace _ (hmem k hk)
      exact ⟨i, fun _ ↦ hi⟩
    · exact ⟨0, fun hk' ↦ absurd hk' hk⟩
  choose source hsource using hsource
  refine ⟨source, ⟨payloads, hdata, hpayloads, fun k hk ↦ (hsource k hk).2.2⟩,
    fun k hk ↦ (hsource k (hpayloads ▸ hk)).2.1, fun m hm hclears k hk ↦ ?_⟩
  have hbefore : m < before.length := by
    by_contra hge
    have htaken : m < (calls.take n).length := by
      rw [List.length_take]
      omega
    rw [← List.take_append_drop n calls] at hclears
    refine hrecent.uncleared m (by omega) ?_
    rw [← htake]
    exact (clears_append_iff htaken).mp hclears
  have hfrom := (hsource k (hpayloads ▸ hk)).1
  omega

/-- The packets that one message is made of are pushed one by one. -/
theorem Sourced.inj (h : Sourced maxAge calls n p data source) (hk : k < p.total.toNat)
    (hk' : k' < p.total.toNat) (heq : source k = source k') : k = k' := by
  obtain ⟨payloads, -, hlength, hcalls⟩ := h.pieces
  have hsize := p.total.toNat_lt_size
  obtain ⟨now, hcall⟩ := hcalls k (hlength ▸ hk)
  obtain ⟨now', hcall'⟩ := hcalls k' (hlength ▸ hk')
  rw [heq, hcall'] at hcall
  have hindex : UInt16.ofNat k' = UInt16.ofNat k := by
    simp only [Option.some.injEq, Call.push.injEq, Packet.mk.injEq] at hcall
    exact hcall.1.1
  exact ((Slots.ofNat_inj (by omega) (by omega)).mp hindex).symm

/-- Whatever is pushed and whenever the reassembler is reset, each message that it delivers is made
of the payloads of packets under its indices, pushed since the delivery or reset before, and no
push has two parts in the messages. -/
theorem deliveries_sourced (maxAge : Option Nat) (calls : List Call) :
    ∃ source : Nat → Nat → Nat,
      (∀ n p data, Delivers maxAge calls n p data → Sourced maxAge calls n p data (source n)) ∧
      ∀ n p data n' p' data', Delivers maxAge calls n p data → Delivers maxAge calls n' p' data' →
        ∀ k < p.total.toNat, ∀ k' < p'.total.toNat, source n k = source n' k' →
          n = n' ∧ k = k' := by
  have hsource : ∀ n, ∃ source, ∀ p data, Delivers maxAge calls n p data →
      Sourced maxAge calls n p data source := by
    intro n
    by_cases h : ∃ p data, Delivers maxAge calls n p data
    · obtain ⟨p, data, hdelivers⟩ := h
      obtain ⟨source, hsourced⟩ := hdelivers.exists_sourced
      refine ⟨source, fun p' data' hdelivers' ↦ ?_⟩
      obtain ⟨rfl, rfl⟩ := hdelivers.unique hdelivers'
      exact hsourced
    · exact ⟨fun _ ↦ 0, fun p data hdelivers ↦ absurd ⟨p, data, hdelivers⟩ h⟩
  choose source hsource using hsource
  refine ⟨source, hsource, ?_⟩
  intro n p data n' p' data' hdelivers hdelivers' k hk k' hk' heq
  have hsourced := hsource n p data hdelivers
  have hsourced' := hsource n' p' data' hdelivers'
  rcases Nat.lt_trichotomy n n' with hlt | rfl | hgt
  · -- the later message owes nothing to the calls up to the earlier one
    have hupTo := hsourced.upTo k hk
    have hsince := hsourced'.since n hlt (.inr ⟨p, data, hdelivers⟩) k' hk'
    omega
  · obtain ⟨rfl, rfl⟩ := hdelivers.unique hdelivers'
    exact ⟨rfl, hsourced.inj hk hk' heq⟩
  · have hupTo := hsourced'.upTo k' hk'
    have hsince := hsourced.since n' hgt (.inr ⟨p', data', hdelivers'⟩) k hk
    omega

/-- The second message takes its first packet from the held copies. -/
theorem deliveries_sourced_of_held : ∃ calls source,
    Delivers none calls 1 ⟨1, 2, Text.bytes "b"⟩ (Text.bytes "ab") ∧
      Delivers none calls 3 ⟨1, 2, Text.bytes "c"⟩ (Text.bytes "ac") ∧
      Sourced none calls 3 ⟨1, 2, Text.bytes "c"⟩ (Text.bytes "ac") source := by
  let calls : List Call :=
    [.push ⟨0, 2, Text.bytes "a"⟩ 0, .push ⟨1, 2, Text.bytes "b"⟩ 5,
      .push ⟨0, 2, Text.bytes "a"⟩ 3, .push ⟨1, 2, Text.bytes "c"⟩ 9]
  have hfirst : Delivers none calls 1 ⟨1, 2, Text.bytes "b"⟩ (Text.bytes "ab") :=
    ⟨5, rfl, by decide +kernel⟩
  have hsecond : Delivers none calls 3 ⟨1, 2, Text.bytes "c"⟩ (Text.bytes "ac") :=
    ⟨9, rfl, by decide +kernel⟩
  obtain ⟨source, hsource, -⟩ := deliveries_sourced none calls
  exact ⟨calls, source 3, hfirst, hsecond, hsource 3 _ _ hsecond⟩

end BleBridge.Frame.Reassembler
