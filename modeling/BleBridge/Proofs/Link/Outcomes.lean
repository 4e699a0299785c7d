import BleBridge.Proofs.Frame.Gather
import BleBridge.Proofs.Frame.Timing
import BleBridge.Proofs.Link.RoundTrip

/-!
# What a receiver returns

A receiver takes the packets that the decoder reads out of its chunks, in that
order (`Brings`), and its calls return what the reassembler answers to them
(`messages_new`).  The bytes that are left behind the last packet have a say in
the last calls only: without any the stream is at its end, and otherwise it has
been broken off.

A call takes the packets up to the first that is answered (`Returns`), or all of
them.  Each packet moves the clock on by one, so the packets of a stream arrive at
the times `0, 1, …`, however they are shared out among the calls.
-/

namespace BleBridge.Frame.Layout

variable {f : Layout} {p : Packet} {buffer chunk rest : Bytes}

/-! ## Packets one by one -/

theorem Sees.readAll_none (h : Sees f (buffer ++ chunk) none rest) (later : List Bytes) :
    f.readAll buffer (chunk :: later) = f.readAll rest later := by
  rw [readAll_cons, h.drained_none]
  rfl

theorem Sees.readAll_some (h : Sees f (buffer ++ chunk) (some p) rest) (later : List Bytes) :
    f.readAll buffer (chunk :: later) =
      (p :: (f.readAll [] (rest :: later)).1, (f.readAll [] (rest :: later)).2) := by
  rw [readAll_cons, h.drained_some, readAll_cons]
  rfl

/-- A packet takes at least one byte out of a buffer. -/
theorem length_drained_le (buffer : Bytes) :
    (f.drained buffer).1.length + (f.drained buffer).2.length ≤ buffer.length := by
  induction hn : buffer.length using Nat.strongRecOn generalizing buffer with
  | ind n ih =>
    subst hn
    have hsees := f.sees_scan buffer
    have hrest := (f.scan_rest_length buffer).1
    cases hfound : (f.scan buffer).found with
    | none =>
        rw [hfound] at hsees
        rw [hsees.drained_none]
        simpa using hrest
    | some p =>
        rw [hfound] at hsees
        have hlength := hsees.length_lt
        have hpos := f.encode_length_pos p
        have hlater := ih _ (by omega) (f.scan buffer).rest rfl
        rw [hsees.drained_some]
        dsimp only
        rw [List.length_cons]
        omega

theorem length_readAll_le (buffer : Bytes) (chunks : List Bytes) :
    (f.readAll buffer chunks).1.length ≤ buffer.length + chunks.flatten.length := by
  induction chunks generalizing buffer with
  | nil => exact Nat.zero_le _
  | cons chunk chunks ih =>
      have hdrained := f.length_drained_le (buffer ++ chunk)
      have hlater := ih (f.drained (buffer ++ chunk)).2
      rw [List.length_append] at hdrained
      rw [readAll_cons, List.flatten_cons, List.length_append, List.length_append]
      omega

end BleBridge.Frame.Layout

namespace BleBridge.Link.Receiver

open BleBridge.Frame (Layout Packet Reassembler)
open BleBridge.Frame.Layout (Sees)
open BleBridge.Frame.Reassembler (answers)

variable {f : Layout} {r r' : Receiver} {p : Packet} {ps : List Packet} {left buffer : Bytes}
  {events : List Event}

/-! ## The next packet -/

/-- Where reading on gets to, when the packets `ps` and the bytes `left` are still to come. -/
inductive Comes (f : Layout) :
    List Packet → Bytes → Arrival × Bytes × List Bytes × Phase × List Event → Prop
  | packet {p : Packet} {ps : List Packet} {left buffer : Bytes} {chunks : List Bytes}
      {events : List Event} (reads : f.readAll [] (buffer :: chunks) = (ps, left)) :
      Comes f (p :: ps) left (.packet p, buffer, chunks, .scanning, events)
  | ended {events : List Event} : Comes f [] [] (.none, [], [], .ended, events)
  | leftover {left : Bytes} {events : List Event} (ne_nil : left ≠ []) :
      Comes f [] left (.leftover, left, [], .failed, events)

/-- A buffer that holds no packet is read on from. -/
theorem comes_readOn (h : Sees f buffer none buffer) (chunks : List Bytes) (events : List Event) :
    Comes f (f.readAll buffer chunks).1 (f.readAll buffer chunks).2
      (readOn f buffer chunks events) := by
  induction chunks generalizing buffer events with
  | nil =>
      obtain ⟨hfound, hrest⟩ := h.eq_scan
      simp only [readOn, hfound, hrest, Layout.readAll]
      cases buffer with
      | nil => exact .ended
      | cons byte buffer => exact .leftover (List.cons_ne_nil _ _)
  | cons chunk chunks ih =>
      have hsees := f.sees_scan (buffer ++ chunk)
      cases hfound : (f.scan (buffer ++ chunk)).found with
      | none =>
          rw [hfound] at hsees
          simp only [readOn, hfound, hsees.readAll_none]
          exact ih (hsees.again rfl) _
      | some p =>
          rw [hfound] at hsees
          simp only [readOn, hfound, hsees.readAll_some]
          exact .packet rfl

/-- The packets `ps` and the bytes `left` are what a receiver has still to come. -/
inductive Brings (ps : List Packet) (left : Bytes) (r : Receiver) : Prop
  | start (phase : r.phase = .reading) (settled : Sees r.layout r.buffer none r.buffer)
      (reads : r.layout.readAll r.buffer r.chunks = (ps, left))
  | midst (phase : r.phase = .scanning)
      (reads : r.layout.readAll [] (r.buffer :: r.chunks) = (ps, left))
  | finished (phase : r.phase = .failed ∨ r.phase = .ended) (packets : ps = []) (bytes : left = [])

theorem brings_new (f : Layout) (maxAge : Option Nat) (chunks : List Bytes) :
    Brings (f.readAll [] chunks).1 (f.readAll [] chunks).2 (Receiver.new f maxAge chunks) :=
  .start rfl f.sees_nil rfl

theorem Brings.length_le (h : Brings ps left r) : ps.length ≤ r.unread := by
  cases h with
  | start phase settled reads =>
      have hlength := r.layout.length_readAll_le r.buffer r.chunks
      rwa [reads] at hlength
  | midst phase reads =>
      have hlength := r.layout.length_readAll_le [] (r.buffer :: r.chunks)
      rwa [reads, List.length_nil, Nat.zero_add, List.flatten_cons, List.length_append] at hlength
  | finished phase packets bytes =>
      subst packets
      exact Nat.zero_le _

/-- The parts of a receiver that looking for a packet does not touch. -/
structure Keeps (r r' : Receiver) : Prop where
  reassembler : r'.reassembler = r.reassembler
  clock : r'.clock = r.clock

theorem keeps_nextPacket (r : Receiver) : Keeps r r.nextPacket.2.1 := by
  rw [nextPacket]
  cases r.phase with
  | scanning =>
      dsimp only
      cases (r.layout.scan r.buffer).found with
      | none => exact ⟨rfl, rfl⟩
      | some p => exact ⟨rfl, rfl⟩
  | reading => exact ⟨rfl, rfl⟩
  | ending => exact ⟨rfl, rfl⟩
  | failed => exact ⟨rfl, rfl⟩
  | ended => exact ⟨rfl, rfl⟩

/-- How the look for the next packet may end. -/
inductive Gives : List Packet → Bytes → Arrival × Receiver × List Event → Prop
  | packet {p : Packet} {ps : List Packet} {left : Bytes} {r' : Receiver} {events : List Event}
      (brings : Brings ps left r') : Gives (p :: ps) left (.packet p, r', events)
  | ended {r' : Receiver} {events : List Event} (brings : Brings [] [] r') :
      Gives [] [] (.none, r', events)
  | leftover {left : Bytes} {r' : Receiver} {events : List Event} (ne_nil : left ≠ [])
      (brings : Brings [] [] r') : Gives [] left (.leftover, r', events)

theorem Comes.gives {read : Arrival × Bytes × List Bytes × Phase × List Event}
    (h : Comes r.layout ps left read) :
    Gives ps left (read.1,
      { r with buffer := read.2.1, chunks := read.2.2.1, phase := read.2.2.2.1 },
      read.2.2.2.2) := by
  cases h with
  | packet reads => exact .packet (.midst rfl reads)
  | ended => exact .ended (.finished (.inr rfl) rfl rfl)
  | leftover ne_nil => exact .leftover ne_nil (.finished (.inl rfl) rfl rfl)

theorem Brings.nextPacket (h : Brings ps left r) : Gives ps left r.nextPacket := by
  cases h with
  | start phase settled reads =>
      have hcomes := comes_readOn settled r.chunks []
      rw [reads] at hcomes
      simp only [Receiver.nextPacket, phase]
      exact hcomes.gives
  | midst phase reads =>
      have hsees : Sees r.layout ([] ++ r.buffer) _ _ := r.layout.sees_scan r.buffer
      simp only [Receiver.nextPacket, phase]
      cases hfound : (r.layout.scan r.buffer).found with
      | none =>
          rw [hfound] at hsees
          rw [hsees.readAll_none] at reads
          have hcomes := comes_readOn (hsees.again rfl) r.chunks (r.layout.scan r.buffer).events
          rw [reads] at hcomes
          exact hcomes.gives
      | some p =>
          rw [hfound] at hsees
          rw [hsees.readAll_some] at reads
          obtain ⟨rfl, rfl⟩ := Prod.mk.inj reads
          exact .packet (.midst rfl rfl)
  | finished phase packets bytes =>
      -- a stream that was broken off is at its end with the next look
      subst packets bytes
      rcases phase with phase | phase
      · simp only [Receiver.nextPacket, phase]
        exact .ended (.finished (.inr rfl) rfl rfl)
      · simp only [Receiver.nextPacket, phase]
        exact .ended (.finished (.inr rfl) rfl rfl)

/-! ## One call -/

/-- What a call returns for an answer of the reassembler. -/
def outcome : Except Fault Bytes → Except BridgeError (Option Bytes)
  | .ok data => received data
  | .error fault => .error (.ofFault fault)

theorem outcome_ne_none (answer : Except Fault Bytes) : outcome answer ≠ .ok none := by
  cases answer with
  | ok data => exact received_ne_none data
  | error fault => exact fun h ↦ by cases h

/-- The receiver with a packet that it has taken. -/
def take (r : Receiver) (p : Packet) : Receiver :=
  { r with reassembler := (r.reassembler.push p r.clock).next, clock := r.clock + 1 }

/-- The packets that a call takes. -/
def takenWithin : Nat → Receiver → List Packet
  | 0, _ => []
  | limit + 1, r =>
      match r.nextPacket with
      | (.packet p, r, _) =>
          p :: match (r.reassembler.push p r.clock).result with
            | .ok none => takenWithin limit (r.take p)
            | _ => []
      | _ => []

/-- The receiver `r'` has taken some packets after `r`, and `ps` and `left` are still to come. -/
structure Behind (r : Receiver) (taken ps : List Packet) (left : Bytes) (r' : Receiver) : Prop where
  brings : Brings ps left r'
  reassembler : r'.reassembler = r.reassembler.pushAll (taken.zipIdx r.clock)
  clock : r'.clock = r.clock + taken.length

theorem Brings.take (h : Brings ps left r) (p : Packet) : Brings ps left (r.take p) := by
  cases h with
  | start phase settled reads => exact .start phase settled reads
  | midst phase reads => exact .midst phase reads
  | finished phase packets bytes => exact .finished phase packets bytes

theorem Keeps.behind_take (h : Keeps r r') (hbrings : Brings ps left r') (p : Packet) :
    Behind r [p] ps left (r'.take p) := by
  refine ⟨hbrings.take p, ?_, congrArg (· + 1) h.clock⟩
  rw [Receiver.take, h.reassembler, h.clock]
  rfl

theorem Behind.trans {taken taken' ps' : List Packet} {left' : Bytes} {r'' : Receiver}
    (h : Behind r taken ps left r') (h' : Behind r' taken' ps' left' r'') :
    Behind r (taken ++ taken') ps' left' r'' := by
  refine ⟨h'.brings, ?_, ?_⟩
  · rw [h'.reassembler, h.reassembler, h.clock, List.zipIdx_append, Reassembler.pushAll_append]
  · rw [h'.clock, h.clock, List.length_append, Nat.add_assoc]

/-- How a call may end that takes the packets `taken`. -/
inductive Returns (r : Receiver) (left : Bytes) (taken : List Packet) :
    List Packet → Except BridgeError (Option Bytes) → Receiver → Prop
  /-- The last of them is answered. -/
  | answer {a : Except Fault Bytes} {later : List Packet} {r' : Receiver}
      (answers : answers (r.reassembler.pushes (taken.zipIdx r.clock)) = [a])
      (behind : Behind r taken later left r') :
      Returns r left taken (taken ++ later) (outcome a) r'
  | ended {r' : Receiver}
      (answers : answers (r.reassembler.pushes (taken.zipIdx r.clock)) = [])
      (bytes : left = []) (behind : Behind r taken [] [] r') :
      Returns r left taken taken (.ok none) r'
  | leftover {r' : Receiver}
      (answers : answers (r.reassembler.pushes (taken.zipIdx r.clock)) = [])
      (ne_nil : left ≠ []) (behind : Behind r taken [] [] r') :
      Returns r left taken taken (.error (.io "bytes remaining on stream")) r'

theorem Returns.front_taken {taken : List Packet} {result : Except BridgeError (Option Bytes)}
    (h : Returns r left taken ps result r') : taken <+: ps := by
  cases h with
  | answer answers behind => exact List.prefix_append _ _
  | ended answers bytes behind => exact List.prefix_refl _
  | leftover answers ne_nil behind => exact List.prefix_refl _

theorem answers_cons (r : Receiver) (p : Packet) (taken : List Packet) :
    answers (r.reassembler.pushes ((p :: taken).zipIdx r.clock)) =
      answers [(r.reassembler.push p r.clock).result] ++
        answers ((r.take p).reassembler.pushes (taken.zipIdx (r.take p).clock)) := by
  rw [← Reassembler.answers_append]
  rfl

/-- A packet that is not answered comes before those of the rest of the call. -/
theorem Returns.cons {taken : List Packet} {result : Except BridgeError (Option Bytes)}
    {r'' : Receiver} (hkeeps : Keeps r r') (hbrings : Brings ps left r')
    (hnone : (r'.reassembler.push p r'.clock).result = .ok none)
    (h : Returns (r'.take p) left taken ps result r'') :
    Returns r left (p :: taken) (p :: ps) result r'' := by
  have hbehind := hkeeps.behind_take hbrings p
  have hanswers : answers (r.reassembler.pushes ((p :: taken).zipIdx r.clock)) =
      answers ((r'.take p).reassembler.pushes (taken.zipIdx (r'.take p).clock)) := by
    rw [← hkeeps.reassembler, ← hkeeps.clock, answers_cons, hnone]
    rfl
  cases h with
  | answer answers behind => exact .answer (hanswers.trans answers) (hbehind.trans behind)
  | ended answers bytes behind => exact .ended (hanswers.trans answers) bytes (hbehind.trans behind)
  | leftover answers ne_nil behind =>
      exact .leftover (hanswers.trans answers) ne_nil (hbehind.trans behind)

/-- A call that may take all packets ends in one of these ways.  The induction is on the packets that
it may take. -/
theorem Brings.nextMessageWithin {limit : Nat} (h : Brings ps left r) (hlimit : ps.length < limit) :
    Returns r left (takenWithin limit r) ps (nextMessageWithin limit r).1
      (nextMessageWithin limit r).2.1 := by
  induction limit generalizing r ps with
  | zero => exact absurd hlimit (Nat.not_lt_zero _)
  | succ limit ih =>
      have hgives := h.nextPacket
      have keeps := r.keeps_nextPacket
      rw [Receiver.nextMessageWithin, takenWithin]
      rcases hnext : r.nextPacket with ⟨arrival, r', events⟩
      rw [hnext] at hgives keeps
      cases hgives with
      | ended brings => exact .ended rfl rfl ⟨brings, keeps.reassembler, keeps.clock⟩
      | leftover ne_nil brings =>
          exact .leftover rfl ne_nil ⟨brings, keeps.reassembler, keeps.clock⟩
      | @packet p ps left r' events brings =>
          have hanswers : ∀ result, (r'.reassembler.push p r'.clock).result = result →
              answers (r.reassembler.pushes ([p].zipIdx r.clock)) = answers [result] := by
            rintro result rfl
            rw [← keeps.reassembler, ← keeps.clock]
            rfl
          dsimp only
          rcases hresult : (r'.reassembler.push p r'.clock).result with fault | _ | data
          · exact .answer (hanswers _ hresult) (keeps.behind_take brings p)
          · exact (ih (brings.take p) (Nat.lt_of_succ_lt_succ hlimit)).cons keeps brings hresult
          · simp only [checked_eq_received]
            exact .answer (a := .ok data) (hanswers _ hresult) (keeps.behind_take brings p)

theorem Brings.nextMessage (h : Brings ps left r) :
    Returns r left (takenWithin (r.unread + 1) r) ps r.nextMessage.1 r.nextMessage.2.1 :=
  h.nextMessageWithin (Nat.lt_succ_of_le h.length_le)

/-! ## All calls -/

/-- What is returned at the end of a stream that leaves these bytes. -/
def closing (left : Bytes) : List (Except BridgeError (Option Bytes)) :=
  if left = [] then [.ok none] else [.error (.io "bytes remaining on stream"), .ok none]

theorem length_closing (left : Bytes) : 0 < (closing left).length ∧ (closing left).length ≤ 2 := by
  rw [closing]
  split
  · exact ⟨Nat.one_pos, Nat.le_succ 1⟩
  · exact ⟨Nat.two_pos, le_refl 2⟩

theorem length_pos_of_answers {s : Reassembler} {taken : List Packet} {now : Nat}
    {answer : Except Fault Bytes} (h : answers (s.pushes (taken.zipIdx now)) = [answer]) :
    0 < taken.length := by
  refine List.length_pos_iff.mpr ?_
  rintro rfl
  cases h

/-- The calls return the answers to the packets to come, then the stream is closed.  The induction
is on the calls; all but the last two of them take packets. -/
theorem Brings.messagesWithin {fuel : Nat} (h : Brings ps left r)
    (hfuel : ps.length + (closing left).length ≤ fuel) :
    (messagesWithin fuel r).1.map Prod.fst =
      (answers (r.reassembler.pushes (ps.zipIdx r.clock))).map outcome ++ closing left := by
  induction fuel generalizing r ps left with
  | zero =>
      have hpos := (length_closing left).1
      omega
  | succ fuel ih =>
      have hreturns := h.nextMessage
      generalize hresult : r.nextMessage.1 = result at hreturns
      cases hreturns with
      | @answer answer later r' answers behind =>
          have hpos := length_pos_of_answers answers
          rw [List.length_append] at hfuel
          rw [messagesWithin_of_ne_none (hresult ▸ outcome_ne_none answer), hresult,
            ih behind.brings (by omega), behind.reassembler, behind.clock, List.zipIdx_append,
            Reassembler.pushes_append, Reassembler.answers_append, answers]
          rfl
      | ended answers bytes behind =>
          rw [messagesWithin_of_none hresult, answers, closing, if_pos bytes]
          rfl
      | leftover answers ne_nil behind =>
          have hclosing : closing left =
              [.error (.io "bytes remaining on stream"), .ok none] := if_neg ne_nil
          rw [hclosing] at hfuel ⊢
          have hlater : 1 ≤ fuel := Nat.le_of_succ_le_succ (Nat.le_of_add_left_le hfuel)
          rw [messagesWithin_of_ne_none (hresult ▸ nofun), hresult, ih behind.brings hlater,
            answers]
          rfl

/-- What the calls of a receiver return, up to the first that finds the stream at its end. -/
theorem messages_new (f : Layout) (maxAge : Option Nat) (chunks : List Bytes) :
    (Receiver.new f maxAge chunks).messages.1.map Prod.fst =
      (answers ((Reassembler.new maxAge).pushes (f.readAll [] chunks).1.zipIdx)).map outcome ++
        closing (f.readAll [] chunks).2 := by
  have hbrings := brings_new f maxAge chunks
  have hlength := hbrings.length_le
  have hclosing := (length_closing (f.readAll [] chunks).2).2
  exact hbrings.messagesWithin (by omega)

/-- The only document of a stream, if the first call returns this. -/
def single : Except BridgeError (Option Bytes) → Except BridgeError Bytes
  | .error e => .error e
  | .ok (some data) => .ok data
  | .ok none => .error (.reassembly "stream ended before the message was complete")

/-- The first document of a stream is what the first call returns. -/
theorem receiveOne_eq_single (f : Layout) (maxAge : Option Nat) (chunks : List Bytes) :
    ((Receiver.new f maxAge chunks).messages.1.map Prod.fst).head?.map single =
      some (receiveOne f maxAge chunks).1 := by
  rw [receiveOne, messages, messagesWithin]
  rcases (Receiver.new f maxAge chunks).nextMessage with ⟨_ | _ | data, r, events⟩
  · rfl
  · rfl
  · rfl

end BleBridge.Link.Receiver
