import BleBridge.Link.Sender
import BleBridge.Proofs.Frame.Expiry
import BleBridge.Proofs.Frame.Merge
import BleBridge.Proofs.Routine.Runs

/-!
# Sending that is broken off

A sender hands the packets of a message over one by one, and stops at the first
that fails.  What it has handed over by then is the front of the message
(`runs_sendBytes`), and of the packet that failed one cannot tell whether the
peer got it (`Reaches`).

The peer that got a front of one message and then all of another takes them for
one message if they have the same number of packets: the packets that it has
already are kept (`pushes_of_known`), so the first of the second message are
lost.  With another number of packets, the front is dropped.
-/

namespace BleBridge

namespace Routine

/-! ## What is handed over -/

/-- The frame that a call hands over. -/
def handed : Exchange → Option Bytes
  | ⟨.enqueue o, _⟩ => some o.command
  | _ => none

/-- The frame that a call hands over with success. -/
def confirmed : Exchange → Option Bytes
  | ⟨.enqueue o, .ok _⟩ => some o.command
  | _ => none

/-- The frames that the peer may have got in a run: those that were confirmed, and perhaps others
that were handed over. -/
structure Reaches (t : List Exchange) (frames : List Bytes) : Prop where
  confirmed : t.filterMap confirmed <+: frames
  handed : frames <+: t.filterMap handed

end Routine

namespace Link.Sender

open BleBridge.Frame (Layout Packet Reassembler)
open BleBridge.Routine (Exchange Runs Reaches handed confirmed runs_bind_iff)

variable {s : Sender} {tag : String} {data : Bytes} {packets : List Packet} {t : List Exchange}
  {result : Except BridgeError Unit} {frames : List Bytes}

/-- What a run hands over of the packets, and how it ends. -/
inductive Hands (s : Sender) (packets : List Packet) (t : List Exchange) :
    Except BridgeError Unit → Prop
  | all (confirmed : t.filterMap confirmed = packets.map s.layout.encode)
      (handed : t.filterMap handed = packets.map s.layout.encode) : Hands s packets t (.ok ())
  /-- The packet at `k` fails. -/
  | front (k : Nat) (e : BridgeError) (lt : k < packets.length)
      (confirmed : t.filterMap confirmed = (packets.take k).map s.layout.encode)
      (handed : t.filterMap handed = (packets.take (k + 1)).map s.layout.encode) :
      Hands s packets t (.error e)

theorem sendPackets_cons (s : Sender) (tag : String) (p : Packet) (rest : List Packet) :
    s.sendPackets tag (p :: rest) = .call (.enqueue (s.order p)) fun
      | .ok _ => .call (.log (s.sentEvent tag p)) fun _ ↦ s.sendPackets tag rest
      | .error e => .call (.log (failedEvent tag p e)) fun _ ↦ .done (.error e) := by
  refine congrArg (Routine.call (.enqueue (s.order p))) (funext fun reply ↦ ?_)
  cases reply <;> rfl

theorem sendBytes_of_split (h : s.layout.split data = .ok packets) :
    (s.sendBytes data).run = .call .drawId fun tag ↦
      .call (.log (s.layout.splitEvent data packets)) fun _ ↦
        if packets.isEmpty then
          .call (.log (.debug source ("message " ++ tag ++ " is empty, nothing sent"))) fun _ ↦
            .done (.ok ())
        else (s.sendPackets tag packets).bind fun
          | .ok () => .call (.log (.info source
              s!"message {tag} sent: {data.length} bytes in {packets.length} packets")) fun _ ↦
                .done (.ok ())
          | .error e => .done (.error e) := by
  refine congrArg (Routine.call .drawId) (funext fun tag ↦ ?_)
  rw [h]
  refine congrArg (Routine.call (.log (s.layout.splitEvent data packets))) (funext fun _ ↦ ?_)
  cases packets with
  | nil => rfl
  | cons p rest =>
    refine congrArg ((s.sendPackets tag (p :: rest)).bind) (funext fun r ↦ ?_)
    cases r <;> rfl

theorem runs_sendPackets (h : (s.sendPackets tag packets).Runs t result) :
    Hands s packets t result := by
  induction packets generalizing t with
  | nil =>
      obtain ⟨rfl, rfl⟩ := h
      exact .all rfl rfl
  | cons p rest ih =>
      rw [sendPackets_cons] at h
      obtain ⟨reply, t, rfl, hreply⟩ := h
      cases reply with
      | error e =>
          obtain ⟨_, t, rfl, rfl, rfl⟩ := hreply
          exact .front 0 e (by simp) rfl rfl
      | ok line =>
          obtain ⟨_, t, rfl, hrest⟩ := hreply
          cases ih hrest with
          | all hconfirmed hhanded =>
              exact .all (congrArg (s.layout.encode p :: ·) hconfirmed)
                (congrArg (s.layout.encode p :: ·) hhanded)
          | front k e hlt hconfirmed hhanded =>
              exact .front (k + 1) e (by simpa using hlt)
                (congrArg (s.layout.encode p :: ·) hconfirmed)
                (congrArg (s.layout.encode p :: ·) hhanded)

theorem runs_sendBytes (hsplit : s.layout.split data = .ok packets)
    (h : (s.sendBytes data).run.Runs t result) : Hands s packets t result := by
  rw [sendBytes_of_split hsplit] at h
  obtain ⟨tag, _, rfl, _, t, rfl, hsent⟩ := h
  split at hsent
  · rename_i hempty
    obtain rfl := List.isEmpty_iff.mp hempty
    obtain ⟨_, t, rfl, rfl, rfl⟩ := hsent
    exact .all rfl rfl
  · obtain ⟨t₁, t₂, r, rfl, hpackets, hrest⟩ := runs_bind_iff.mp hsent
    cases runs_sendPackets hpackets with
    | all hconfirmed hhanded =>
        obtain ⟨_, t, rfl, rfl, rfl⟩ := hrest
        refine .all ?_ ?_
        · exact List.filterMap_append.trans ((List.append_nil _).trans hconfirmed)
        · exact List.filterMap_append.trans ((List.append_nil _).trans hhanded)
    | front k e hlt hconfirmed hhanded =>
        obtain ⟨rfl, rfl⟩ := hrest
        rw [List.append_nil]
        exact .front k e hlt hconfirmed hhanded

theorem exists_runs_sendPackets_error (s : Sender) (tag : String) {k : Nat}
    (hk : k < packets.length) (e : BridgeError) :
    ∃ t, (s.sendPackets tag packets).Runs t (.error e) ∧
      t.filterMap confirmed = (packets.take k).map s.layout.encode ∧
      t.filterMap handed = (packets.take (k + 1)).map s.layout.encode := by
  induction packets generalizing k with
  | nil => cases hk
  | cons p rest ih =>
      rw [sendPackets_cons]
      cases k with
      | zero =>
          exact ⟨_, ⟨Except.error e, _, rfl, (), [], rfl, rfl, rfl⟩, rfl, rfl⟩
      | succ k =>
          obtain ⟨t, hruns, hconfirmed, hhanded⟩ := ih (Nat.lt_of_succ_lt_succ hk)
          exact ⟨_, ⟨Except.ok "", _, rfl, (), t, rfl, hruns⟩,
            congrArg (s.layout.encode p :: ·) hconfirmed, congrArg (s.layout.encode p :: ·) hhanded⟩

theorem exists_runs_sendPackets_ok (s : Sender) (tag : String) (packets : List Packet) :
    ∃ t, (s.sendPackets tag packets).Runs t (.ok ()) := by
  induction packets with
  | nil => exact ⟨[], rfl, rfl⟩
  | cons p rest ih =>
      obtain ⟨t, hruns⟩ := ih
      rw [sendPackets_cons]
      exact ⟨_, Except.ok "", _, rfl, (), t, rfl, hruns⟩

/-- Any packet of a message may fail, with any error. -/
theorem exists_runs_sendBytes_error (hsplit : s.layout.split data = .ok packets) {k : Nat}
    (hk : k < packets.length) (e : BridgeError) : ∃ t, (s.sendBytes data).run.Runs t (.error e) ∧
      Reaches t ((packets.take k).map s.layout.encode) := by
  obtain ⟨t, hruns, hconfirmed, hhanded⟩ := s.exists_runs_sendPackets_error "" hk e
  have hempty : ¬ packets.isEmpty := fun h ↦ by
    rw [List.isEmpty_iff.mp h] at hk
    cases hk
  rw [sendBytes_of_split hsplit]
  refine ⟨_, ⟨"", _, rfl, (), t, rfl, ?_⟩, ?_⟩
  · rw [if_neg hempty]
    exact runs_bind_iff.mpr ⟨t, [], _, (List.append_nil t).symm, hruns, rfl, rfl⟩
  · refine ⟨hconfirmed ▸ List.prefix_rfl, ?_⟩
    change _ <+: t.filterMap handed
    rw [hhanded, List.map_take, List.map_take]
    exact List.take_prefix_take_left (Nat.le_succ k)

theorem exists_runs_sendBytes_ok (hsplit : s.layout.split data = .ok packets) :
    ∃ t, (s.sendBytes data).run.Runs t (.ok ()) := by
  obtain ⟨t, hruns⟩ := s.exists_runs_sendPackets_ok "" packets
  rw [sendBytes_of_split hsplit]
  by_cases hempty : packets.isEmpty
  · simp only [if_pos hempty]
    exact ⟨_, "", _, rfl, (), _, rfl, (), [], rfl, rfl, rfl⟩
  · simp only [if_neg hempty]
    exact ⟨_, "", _, rfl, (), _, rfl,
      runs_bind_iff.mpr ⟨t, _, _, rfl, hruns, (), [], rfl, rfl, rfl⟩⟩

theorem reaches_of_runs_ok (hsplit : s.layout.split data = .ok packets)
    (h : (s.sendBytes data).run.Runs t (.ok ())) : Reaches t (packets.map s.layout.encode) := by
  cases runs_sendBytes hsplit h with
  | all hconfirmed hhanded => exact ⟨hconfirmed ▸ List.prefix_rfl, hhanded ▸ List.prefix_rfl⟩

/-- What is handed over is a front of the message. -/
theorem handed_front (hsplit : s.layout.split data = .ok packets)
    (h : (s.sendBytes data).run.Runs t result) :
    t.filterMap handed <+: packets.map s.layout.encode := by
  cases runs_sendBytes hsplit h with
  | all _ hhanded => rw [hhanded]
  | front k e _ _ hhanded =>
      rw [hhanded, List.map_take]
      exact List.take_prefix _ _

/-- After a failure the peer has got a front of the message. -/
theorem exists_take_of_reaches (hsplit : s.layout.split data = .ok packets)
    (h : (s.sendBytes data).run.Runs t result) (hreaches : Reaches t frames) :
    ∃ k ≤ packets.length, frames = (packets.take k).map s.layout.encode := by
  have hfront : frames <+: packets.map s.layout.encode :=
    hreaches.handed.trans (handed_front hsplit h)
  refine ⟨frames.length, by simpa using hfront.length_le, ?_⟩
  rw [List.map_take]
  exact List.prefix_iff_eq_take.mp hfront

/-- After success it has got the message. -/
theorem eq_of_reaches (hsplit : s.layout.split data = .ok packets)
    (h : (s.sendBytes data).run.Runs t (.ok ())) (hreaches : Reaches t frames) :
    frames = packets.map s.layout.encode := by
  cases runs_sendBytes hsplit h with
  | all hconfirmed hhanded =>
      obtain ⟨hleast, hmost⟩ := hreaches
      rw [hconfirmed] at hleast
      rw [hhanded] at hmost
      exact hmost.eq_of_length_le hleast.length_le

end Link.Sender

/-! ## A front of one message, then another -/

namespace Frame.Reassembler

variable {f : Layout} {a b : Bytes} {ps qs : List Packet} {k since : Nat} {r : Reassembler}
  {l : List (Packet × Nat)} {total : UInt16} {front : List Bytes}

/-- A packet that is there already changes nothing. -/
theorem push_of_known (hage : r.maxAge = none)
    (hbuffer : r.buffer = some ⟨total, Slots.row 0 front, since⟩)
    (hmissing : front.length < total.toNat) (hk : k < front.length) (payload : Bytes) (now : Nat) :
    (r.push ⟨UInt16.ofNat k, total, payload⟩ now).result = .ok none ∧
      (r.push ⟨UInt16.ofNat k, total, payload⟩ now).next = r := by
  have hsize := total.toNat_lt_size
  have hpositive : total ≠ 0 := by
    rintro rfl
    cases hmissing
  have hinside : ¬ total ≤ UInt16.ofNat k := by
    rw [UInt16.le_iff_toNat_le, UInt16.toNat_ofNat_of_lt' (by omega)]
    omega
  have hknown : (Slots.row 0 front).has (UInt16.ofNat k) = true := by
    have hget : (Slots.row 0 front).get? (UInt16.ofNat (0 + k)) = some front[k] :=
      Slots.get?_row (by omega) hk
    rw [Nat.zero_add] at hget
    rw [Slots.has, hget]
    rfl
  have hlength : ¬ (Slots.row 0 front).length = total.toNat := by
    rw [Slots.length_row]
    omega
  rw [push_of_maxAge_none hage, take, if_neg hpositive, hbuffer]
  simp only [if_true, accept, if_neg hinside, hknown, if_neg hlength, true_and]
  rw [← hbuffer]

theorem pushes_of_known (hage : r.maxAge = none)
    (hbuffer : r.buffer = some ⟨total, Slots.row 0 front, since⟩)
    (hmissing : front.length < total.toNat)
    (hl : ∀ t ∈ l, ∃ k < front.length, ∃ payload, t.1 = ⟨UInt16.ofNat k, total, payload⟩) :
    answers (r.pushes l) = [] ∧ r.pushAll l = r := by
  induction l with
  | nil => exact ⟨rfl, rfl⟩
  | cons timed l ih =>
      obtain ⟨p, now⟩ := timed
      obtain ⟨k, hk, payload, rfl⟩ : ∃ k < front.length, ∃ payload,
        p = ⟨UInt16.ofNat k, total, payload⟩ := hl _ List.mem_cons_self
      obtain ⟨hresult, hnext⟩ := push_of_known hage hbuffer hmissing hk payload now
      obtain ⟨hanswers, hall⟩ := ih fun t ht ↦ hl t (List.mem_cons_of_mem _ ht)
      constructor
      · rw [pushes, hresult, hnext, answers_none, hanswers]
      · rw [pushAll_cons, hnext, hall]

/-- Packets that complete nothing leave nothing to remember. -/
theorem completed_pushAll (hage : r.maxAge = none) (hcompleted : r.completed = none)
    (hpositive : ∀ t ∈ l, t.1.total ≠ 0) (hquiet : ∀ result ∈ r.pushes l, result = .ok none) :
    (r.pushAll l).completed = none := by
  induction l generalizing r with
  | nil => exact hcompleted
  | cons timed l ih =>
      obtain ⟨p, now⟩ := timed
      have hpush := push_of_maxAge_none hage p now
      have hresult : (r.push p now).result = .ok none := hquiet _ List.mem_cons_self
      rw [pushAll_cons]
      refine ih ?_ ?_ (fun t ht ↦ hpositive t (List.mem_cons_of_mem _ ht))
        fun result hmem ↦ hquiet result (List.mem_cons_of_mem _ hmem)
      · rw [hpush, maxAge_take, hage]
      · rw [hpush] at hresult ⊢
        have htaken : Taken r p now (r.take p now) := taken_take (hpositive _ List.mem_cons_self)
        cases htaken with
        | goesOn _ _ completed => exact completed.elim id fun h ↦ h.2.trans hcompleted
        | holds _ remembers => exact absurd (hcompleted.symm.trans remembers) nofun
        | ends _ _ _ result => exact absurd hresult result

/-- A front of a message leaves it open. -/
theorem exists_open_of_front (hl : l.map Prod.fst = Layout.numbered total 0 front)
    (hne : front ≠ []) (hmissing : front.length < total.toNat) :
    answers ((new none).pushes l) = [] ∧ ((new none).pushAll l).maxAge = none ∧
      ((new none).pushAll l).completed = none ∧
      ∃ since, ((new none).pushAll l).buffer = some ⟨total, Slots.row 0 front, since⟩ := by
  have hpositive : ∀ t ∈ l, t.1.total ≠ 0 := by
    intro t ht hzero
    have hmem : t.1 ∈ Layout.numbered total 0 front := hl ▸ List.mem_map_of_mem ht
    rw [Layout.total_of_mem_numbered hmem] at hzero
    subst hzero
    cases hmissing
  have hfront : l.map Prod.fst = Layout.numbered total ([] : List Bytes).length front := hl
  obtain ⟨hpushes, hage, hawaits⟩ := pushes_front hfront (by simpa using hmissing) rfl
    (awaits_new total none)
  have hcompleted : ((new none).pushAll l).completed = none :=
    completed_pushAll rfl rfl hpositive fun result hmem ↦
      List.eq_of_mem_replicate (hpushes ▸ hmem)
  refine ⟨by rw [hpushes, answers_replicate_none], hage, hcompleted, ?_⟩
  cases hawaits with
  | opened since hbuffer => exact ⟨since, hbuffer⟩
  | fresh _ _ hdone => exact absurd hdone hne
  | held c _ hsome => exact absurd (hcompleted.symm.trans hsome) nofun

/-- A packet of another total drops the open message. -/
theorem pushes_of_total_ne {o : OpenMessage} {p : Packet} {now : Nat} (hage : r.maxAge = none)
    (hbuffer : r.buffer = some o) (hcompleted : r.completed = none) (hpositive : p.total ≠ 0)
    (hne : o.total ≠ p.total) :
    r.pushes ((p, now) :: l) =
      Reassembler.pushes { r with buffer := none, evicted := r.evicted + 1 } ((p, now) :: l) := by
  have hage' : Reassembler.maxAge { r with buffer := none, evicted := r.evicted + 1 } = none := hage
  rw [pushes, pushes, push_of_maxAge_none hage, push_of_maxAge_none hage', take, take,
    if_neg hpositive, if_neg hpositive, hbuffer, hcompleted]
  simp only [if_neg hne, openFor]

theorem answers_of_split (hb : f.split b = .ok qs) (hl : l.map Prod.fst = qs)
    (hage : r.maxAge = none) (h : ∀ total, Awaits total [] r) :
    answers (r.pushes l) = owed b := by
  obtain ⟨r', hanswers, -⟩ := answers_split hb hl hage h []
  rw [List.append_nil] at hanswers
  rw [hanswers]
  exact List.append_nil _

section Front

variable (ha : f.split a = .ok ps) (hb : f.split b = .ok qs) (hpos : 0 < k) (hk : k < ps.length)
  (hl : l.map Prod.fst = ps.take k ++ qs)

include ha hb hpos hk hl

/-- Of two messages of one count, the second is cut off behind the front of the first. -/
theorem answers_of_same_count (hcount : ps.length = qs.length) : answers ((new none).pushes l) =
    [.ok (a.take (k * f.maxPayload) ++ b.drop (k * f.maxPayload))] := by
  obtain ⟨hsize, rfl⟩ := Layout.split_eq_ok_iff.mp ha
  obtain ⟨hsize', rfl⟩ := Layout.split_eq_ok_iff.mp hb
  rw [Layout.length_numbered] at hk hcount
  rw [Layout.length_numbered] at hcount
  have hword := UInt16.toNat_ofNat_of_lt' hsize
  rw [← hcount, Layout.take_numbered, ← List.take_append_drop k (f.payloads b),
    Layout.numbered_append] at hl
  obtain ⟨l₁, l₂₃, rfl, h₁, h₂₃⟩ := List.map_eq_append_iff.mp hl
  obtain ⟨l₂, l₃, rfl, h₂, h₃⟩ := List.map_eq_append_iff.mp h₂₃
  have hfront : ((f.payloads a).take k).length = k := List.length_take_of_le hk.le
  have hother : ((f.payloads b).take k).length = k := List.length_take_of_le (by omega)
  have hne : (f.payloads a).take k ≠ [] := List.ne_nil_of_length_pos (by omega)
  obtain ⟨hnone, hage, -, since, hbuffer⟩ := exists_open_of_front h₁ hne (by omega)
  have hknown : ∀ t ∈ l₂, ∃ j < ((f.payloads a).take k).length, ∃ payload,
      t.1 = ⟨UInt16.ofNat j, UInt16.ofNat (f.payloads a).length, payload⟩ := by
    intro t ht
    have hmem : t.1 ∈ Layout.numbered _ 0 ((f.payloads b).take k) := h₂ ▸ List.mem_map_of_mem ht
    obtain ⟨j, hj, heq⟩ := Layout.exists_of_mem_numbered hmem
    exact ⟨j, by omega, _, by rw [heq, Nat.zero_add]⟩
  obtain ⟨hnone', hsame⟩ := pushes_of_known hage hbuffer (by omega) hknown
  rw [Nat.zero_add, hother, ← hfront] at h₃
  obtain ⟨hlast, -⟩ := pushes_numbered h₃
    (List.ne_nil_of_length_pos (by rw [List.length_drop]; omega))
    (by rw [List.length_drop]; omega) hage (.opened since hbuffer)
  rw [pushes_append, pushes_append, answers_append, answers_append, hnone, hnone', hsame, hlast,
    answers_append, answers_replicate_none, hfront, List.flatten_append, Layout.payloads,
    Layout.payloads, flatten_take_pieces f.maxPayload_ne_zero,
    flatten_drop_pieces f.maxPayload_ne_zero]
  rfl

theorem answers_of_other_count (hcount : ps.length ≠ qs.length) :
    answers ((new none).pushes l) = owed b := by
  obtain ⟨hsize, rfl⟩ := Layout.split_eq_ok_iff.mp ha
  obtain ⟨hsize', hqs⟩ := Layout.split_eq_ok_iff.mp hb
  rw [Layout.length_numbered] at hk
  rw [Layout.length_numbered, hqs, Layout.length_numbered] at hcount
  have hword := UInt16.toNat_ofNat_of_lt' hsize
  rw [Layout.take_numbered] at hl
  obtain ⟨l₁, l₂, rfl, h₁, h₂⟩ := List.map_eq_append_iff.mp hl
  have hfront : ((f.payloads a).take k).length = k := List.length_take_of_le hk.le
  have hne : (f.payloads a).take k ≠ [] := List.ne_nil_of_length_pos (by omega)
  obtain ⟨hnone, hage, hcompleted, since, hbuffer⟩ := exists_open_of_front h₁ hne (by omega)
  rw [pushes_append, answers_append, hnone, List.nil_append]
  cases l₂ with
  | nil =>
      have hempty : b = [] := by
        by_contra hsome
        have hlength := congrArg List.length (h₂.trans hqs)
        rw [Layout.length_numbered] at hlength
        exact f.payloads_ne_nil hsome (List.eq_nil_of_length_eq_zero hlength.symm)
      rw [owed, if_pos hempty]
      rfl
  | cons timed l₂ =>
      obtain ⟨p, now⟩ := timed
      have hmem : p ∈ Layout.numbered (UInt16.ofNat (f.payloads b).length) 0 (f.payloads b) :=
        hqs ▸ h₂ ▸ List.mem_map_of_mem List.mem_cons_self
      have htotal := Layout.total_of_mem_numbered hmem
      have hpositive : p.total ≠ 0 := by
        rw [htotal]
        intro hzero
        have hnil := (Slots.ofNat_inj hsize' (by decide)).mp hzero
        rw [List.eq_nil_of_length_eq_zero hnil] at hmem
        cases hmem
      have hother : UInt16.ofNat (f.payloads a).length ≠ p.total := by
        rw [htotal, ne_eq, Slots.ofNat_inj hsize hsize']
        exact hcount
      rw [pushes_of_total_ne hage hbuffer hcompleted hpositive hother]
      exact answers_of_split hb h₂ hage fun total ↦ .fresh rfl hcompleted rfl

end Front

/-- What is delivered of the first `k` packets of `a` and all packets of `b` behind them. -/
structure AfterFront (f : Layout) (a b : Bytes) (ps qs : List Packet) (k : Nat)
    (given : List (Except Fault Bytes)) : Prop where
  whole : k = ps.length → given = owed a ++ owed b
  apart : k < ps.length → k = 0 ∨ ps.length ≠ qs.length → given = owed b
  joined : 0 < k → k < ps.length → ps.length = qs.length →
    given = [.ok (a.take (k * f.maxPayload) ++ b.drop (k * f.maxPayload))]

theorem answers_afterFront (ha : f.split a = .ok ps) (hb : f.split b = .ok qs)
    (hl : l.map Prod.fst = ps.take k ++ qs) :
    AfterFront f a b ps qs k (answers ((new none).pushes l)) := by
  refine ⟨fun hall ↦ ?_, fun hk hfresh ↦ ?_, fun hpos hk hcount ↦ ?_⟩
  · rw [hall, List.take_length] at hl
    exact answers_serial ha hb hl
  · rcases Nat.eq_zero_or_pos k with rfl | hpos
    · exact answers_of_split hb hl rfl fun total ↦ awaits_new total none
    · exact answers_of_other_count ha hb hpos hk hl (hfresh.resolve_left hpos.ne')
  · exact answers_of_same_count ha hb hpos hk hl hcount

/-- The front of a message does no harm to the next one exactly if it is empty or the whole
message, or the next one has another number of packets or starts with the same bytes. -/
theorem AfterFront.eq_owed_iff {given : List (Except Fault Bytes)}
    (h : AfterFront f a b ps qs k given) (hb : f.split b = .ok qs) (hk : k ≤ ps.length) :
    given = (if k = ps.length then owed a ++ owed b else owed b) ↔
      k = 0 ∨ k = ps.length ∨ ps.length ≠ qs.length ∨
        a.take (k * f.maxPayload) = b.take (k * f.maxPayload) := by
  by_cases hall : k = ps.length
  · rw [if_pos hall]
    exact ⟨fun _ ↦ .inr (.inl hall), fun _ ↦ h.whole hall⟩
  · rw [if_neg hall]
    have hlt : k < ps.length := Nat.lt_of_le_of_ne hk hall
    by_cases hfresh : k = 0 ∨ ps.length ≠ qs.length
    · exact ⟨fun _ ↦ hfresh.elim .inl fun h ↦ .inr (.inr (.inl h)), fun _ ↦ h.apart hlt hfresh⟩
    · obtain ⟨hpos, hcount⟩ := not_or.mp hfresh
      rw [not_not] at hcount
      have hne : b ≠ [] := by
        rintro rfl
        obtain ⟨-, rfl⟩ := Layout.split_eq_ok_iff.mp hb
        rw [Layout.length_numbered, Layout.payloads, pieces_nil, List.length_nil] at hcount
        omega
      rw [h.joined (Nat.pos_of_ne_zero hpos) hlt hcount, owed, if_neg hne]
      have hrest : [.ok (a.take (k * f.maxPayload) ++ b.drop (k * f.maxPayload))] =
          ([.ok b] : List (Except Fault Bytes)) ↔
            a.take (k * f.maxPayload) = b.take (k * f.maxPayload) := by
        rw [List.singleton_inj, Except.ok.injEq]
        constructor
        · intro heq
          have hwhole := heq.trans (List.take_append_drop (k * f.maxPayload) b).symm
          exact List.append_cancel_right hwhole
        · intro hsame
          rw [hsame, List.take_append_drop]
      rw [hrest]
      constructor
      · exact fun hsame ↦ .inr (.inr (.inr hsame))
      · rintro (hzero | hwhole | hother | hsame)
        · exact absurd hzero hpos
        · exact absurd hwhole hall
        · exact absurd hcount hother
        · exact hsame

end Frame.Reassembler

/-! ## A failed send -/

namespace Link.Sender

open BleBridge.Frame (Layout Packet Reassembler)
open BleBridge.Frame.Reassembler (AfterFront answers answers_afterFront owed)
open BleBridge.Routine (Exchange Runs Reaches)

variable {s : Sender} {a b : Bytes} {ps qs : List Packet} {t t' : List Exchange} {e : BridgeError}
  {frames frames' : List Bytes} {l : List (Packet × Nat)}

/-- A send that failed, and then one that succeeded: the peer has got a front of the first message
and all of the second.  It delivers the second message, and the first if it got all of it, only if
the two do not look like one. -/
theorem answers_after_failure (ha : s.layout.split a = .ok ps) (hb : s.layout.split b = .ok qs)
    (hfailed : (s.sendBytes a).run.Runs t (.error e)) (hreaches : Reaches t frames)
    (hsent : (s.sendBytes b).run.Runs t' (.ok ())) (hreaches' : Reaches t' frames')
    (hl : (frames ++ frames').mapM s.layout.decode = .ok (l.map Prod.fst)) :
    ∃ k ≤ ps.length, frames = (ps.take k).map s.layout.encode ∧
      AfterFront s.layout a b ps qs k (answers ((Reassembler.new none).pushes l)) ∧
      (answers ((Reassembler.new none).pushes l) =
          (if k = ps.length then owed a ++ owed b else owed b) ↔
        k = 0 ∨ k = ps.length ∨ ps.length ≠ qs.length ∨
          a.take (k * s.layout.maxPayload) = b.take (k * s.layout.maxPayload)) := by
  obtain ⟨k, hk, rfl⟩ := exists_take_of_reaches ha hfailed hreaches
  obtain rfl := eq_of_reaches hb hsent hreaches'
  rw [← List.map_append, Layout.mapM_decode_encode, Except.ok.injEq] at hl
  have hafter := answers_afterFront ha hb hl.symm
  exact ⟨k, hk, rfl, hafter, hafter.eq_owed_iff hb hk⟩

/-- A message of two packets fails behind the first, and one of a single packet follows. -/
theorem answers_after_failure_of_apart : ∃ (s : Sender) (t t' : List Exchange),
    (s.sendBytes (Text.bytes "[1,3]")).run.Runs t (.error (.timeout "no reply")) ∧
      (s.sendBytes (Text.bytes "[]")).run.Runs t' (.ok ()) ∧
      answers ((Reassembler.new none).pushes
          [(⟨0, 2, Text.bytes "[1,"⟩, 0), (⟨0, 1, Text.bytes "[]"⟩, 1)]) =
        owed (Text.bytes "[]") := by
  let s : Sender :=
    ⟨⟨33, Text.bytes "AT+QBLEGATTSNTFY=0,fff2,", [0x0D, 0x0A], by decide, by decide⟩, 0, 0, 0⟩
  have ha : s.layout.split (Text.bytes "[1,3]") =
      .ok [⟨0, 2, Text.bytes "[1,"⟩, ⟨1, 2, Text.bytes "3]"⟩] := by decide +kernel
  have hb : s.layout.split (Text.bytes "[]") = .ok [⟨0, 1, Text.bytes "[]"⟩] := by
    decide +kernel
  obtain ⟨t, hfailed, hreaches⟩ := exists_runs_sendBytes_error (k := 1) ha (by decide)
    (.timeout "no reply")
  obtain ⟨t', hsent⟩ := exists_runs_sendBytes_ok hb
  obtain ⟨k, -, hframes, hafter, -⟩ := answers_after_failure ha hb hfailed hreaches hsent
    (reaches_of_runs_ok hb hsent)
    (l := [(⟨0, 2, Text.bytes "[1,"⟩, 0), (⟨0, 1, Text.bytes "[]"⟩, 1)]) (by decide +kernel)
  have hfront : k < 2 := by
    have hlength := congrArg List.length hframes
    simp only [List.length_map, List.length_take, List.length_cons, List.length_nil] at hlength
    omega
  exact ⟨s, t, t', hfailed, hsent, hafter.apart hfront (.inr (by decide))⟩

/-- The same with two messages of two packets: what comes out is neither of them. -/
theorem answers_joined_after_failure : ∃ (s : Sender) (t t' : List Exchange)
    (frames frames' : List Bytes) (l : List (Packet × Nat)),
    s.layout.split (Text.bytes "[1,3]") =
        .ok [⟨0, 2, Text.bytes "[1,"⟩, ⟨1, 2, Text.bytes "3]"⟩] ∧
      s.layout.split (Text.bytes "[2,4]") =
        .ok [⟨0, 2, Text.bytes "[2,"⟩, ⟨1, 2, Text.bytes "4]"⟩] ∧
      (s.sendBytes (Text.bytes "[1,3]")).run.Runs t (.error (.timeout "no reply")) ∧
      (s.sendBytes (Text.bytes "[2,4]")).run.Runs t' (.ok ()) ∧
      Reaches t frames ∧ Reaches t' frames' ∧ frames.length = 1 ∧
      (frames ++ frames').mapM s.layout.decode = .ok (l.map Prod.fst) ∧
      answers ((Reassembler.new none).pushes l) = [.ok (Text.bytes "[1,4]")] ∧
      Text.bytes "[1,4]" ∉ [Text.bytes "[1,3]", Text.bytes "[2,4]"] := by
  let s : Sender :=
    ⟨⟨33, Text.bytes "AT+QBLEGATTSNTFY=0,fff2,", [0x0D, 0x0A], by decide, by decide⟩, 0, 0, 0⟩
  have ha : s.layout.split (Text.bytes "[1,3]") =
      .ok [⟨0, 2, Text.bytes "[1,"⟩, ⟨1, 2, Text.bytes "3]"⟩] := by decide +kernel
  have hb : s.layout.split (Text.bytes "[2,4]") =
      .ok [⟨0, 2, Text.bytes "[2,"⟩, ⟨1, 2, Text.bytes "4]"⟩] := by decide +kernel
  obtain ⟨t, hfailed, hreaches⟩ := exists_runs_sendBytes_error (k := 1) ha (by decide)
    (.timeout "no reply")
  obtain ⟨t', hsent⟩ := exists_runs_sendBytes_ok hb
  exact ⟨s, t, t', _, _, [(⟨0, 2, Text.bytes "[1,"⟩, 0), (⟨0, 2, Text.bytes "[2,"⟩, 1),
    (⟨1, 2, Text.bytes "4]"⟩, 2)], ha, hb, hfailed, hsent, hreaches, reaches_of_runs_ok hb hsent,
    rfl, by decide +kernel, by decide +kernel, by decide⟩

end Link.Sender

end BleBridge
