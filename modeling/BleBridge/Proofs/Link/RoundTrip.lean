import BleBridge.Link.Receiver
import BleBridge.Proofs.Frame.InOrder
import BleBridge.Proofs.Frame.Stream
import BleBridge.Proofs.Json.Compact

/-!
# Documents over a link

A receiver at the other end of a stream of frames gets back the messages that
were split into them, however the stream was cut into chunks.

The invariant is `Midway`: what the receiver has not looked at yet is the stream
of the packets to come, and its reassembler awaits the next of them.  One packet
carries it on (`nextPacket_cons`, `Reassembler.take_following`), the last packet
of a message leaves it for whatever message comes next, and a run over all
messages follows by induction.
-/

namespace BleBridge.Link.Receiver

open BleBridge.Frame (Layout Packet Reassembler)
open BleBridge.Frame.Reassembler (Awaits Follows)

variable {f : Layout} {r : Receiver} {p : Packet} {ps : List Packet}

/-! ## The stream to come -/

/-- What has not been made into packets yet is the stream of `ps`. -/
structure Carries (f : Layout) (ps : List Packet) (r : Receiver) : Prop where
  layout : r.layout = f
  phase : r.phase = .reading ∨ r.phase = .scanning ∨ (r.phase = .ending ∧ r.chunks = [])
  stream : r.buffer ++ r.chunks.flatten = f.stream ps

theorem Carries.length_le (h : Carries f ps r) : ps.length ≤ r.unread := by
  have hlen := f.length_le_length_stream ps
  rwa [← h.stream, List.length_append] at hlen

theorem readOn_nil {buffer : Bytes} {chunks : List Bytes}
    (h : buffer ++ chunks.flatten = []) (events : List Event) :
    (readOn f buffer chunks events).1 = .none := by
  induction chunks generalizing buffer events with
  | nil =>
      obtain rfl : buffer = [] := by simpa using h
      rw [readOn, f.scan_nil]
      rfl
  | cons chunk chunks ih =>
      rw [List.flatten_cons, ← List.append_assoc] at h
      obtain ⟨hbuffer, hchunks⟩ := List.append_eq_nil_iff.mp h
      rw [readOn, hbuffer, f.scan_nil]
      exact ih (by simpa using hchunks) _

/-- Reading on goes up to the end of the first frame. -/
theorem readOn_cons {buffer : Bytes} {chunks : List Bytes} (hps : ∀ q ∈ p :: ps, f.Legible q)
    (h : buffer ++ chunks.flatten = f.stream (p :: ps)) (events : List Event) :
    ∃ buffer' chunks' phase' events',
      readOn f buffer chunks events = (.packet p, buffer', chunks', phase', events') ∧
        (phase' = .scanning ∨ (phase' = .ending ∧ chunks' = [])) ∧
          buffer' ++ chunks'.flatten = f.stream ps := by
  induction chunks generalizing buffer events with
  | nil =>
      rcases Layout.scan_stream hps h with ⟨_, hend⟩ | ⟨q, qs, rest, heq, hscan, hrest⟩
      · cases hend rfl
      · obtain ⟨rfl, rfl⟩ := by simpa using heq
        rw [readOn, hscan]
        exact ⟨rest, [], .ending, _, rfl, .inr ⟨rfl, rfl⟩, hrest⟩
  | cons chunk chunks ih =>
      rw [List.flatten_cons, ← List.append_assoc] at h
      rcases Layout.scan_stream hps h with ⟨hscan, _⟩ | ⟨q, qs, rest, heq, hscan, hrest⟩
      · rw [readOn, hscan]
        exact ih h _
      · obtain ⟨rfl, rfl⟩ := by simpa using heq
        rw [readOn, hscan]
        exact ⟨rest, chunks, .scanning, _, rfl, .inl rfl, hrest⟩

theorem nextPacket_nil (h : Carries f [] r) : r.nextPacket.1 = .none := by
  obtain ⟨hlayout, hphase, hstream⟩ := h
  have hread : ∀ events, (readOn r.layout r.buffer r.chunks events).1 = .none :=
    readOn_nil hstream
  have hscan : r.layout.scan r.buffer = ⟨none, r.buffer, []⟩ := by
    rw [(List.append_eq_nil_iff.mp hstream).1, Layout.scan_nil]
  rcases hphase with hphase | hphase | ⟨hphase, _⟩
  · simp only [nextPacket, hphase, hread]
  · simp only [nextPacket, hphase, hscan, hread]
  · simp only [nextPacket, hphase, hread]

/-- The next packet of a stream is its first one. -/
theorem nextPacket_cons (hps : ∀ q ∈ p :: ps, f.Legible q) (h : Carries f (p :: ps) r) :
    ∃ r' events, r.nextPacket = (.packet p, r', events) ∧ Carries f ps r' ∧
      r'.reassembler = r.reassembler := by
  obtain ⟨rfl, hphase, hstream⟩ := h
  have hread : ∀ events, ∃ buffer' chunks' phase' events',
      readOn r.layout r.buffer r.chunks events = (.packet p, buffer', chunks', phase', events') ∧
        Carries r.layout ps { r with buffer := buffer', chunks := chunks', phase := phase' } := by
    intro events
    obtain ⟨buffer', chunks', phase', events', hread, hphase', hstream'⟩ :=
      readOn_cons hps hstream events
    exact ⟨buffer', chunks', phase', events', hread, rfl, .inr hphase', hstream'⟩
  obtain ⟨buffer', chunks', phase', events', hreading, hcarries⟩ := hread []
  rcases hphase with hphase | hphase | ⟨hphase, _⟩
  · exact ⟨_, events', by simp only [nextPacket, hphase, hreading], hcarries, rfl⟩
  · -- the buffer may hold the frame already
    rcases Layout.scan_stream hps hstream with ⟨hscan, _⟩ | ⟨q, qs, rest, heq, hscan, hrest⟩
    · exact ⟨_, events', by simp only [nextPacket, hphase, hscan, hreading], hcarries, rfl⟩
    · obtain ⟨rfl, rfl⟩ := by simpa using heq
      exact ⟨{ r with buffer := rest }, [], by simp only [nextPacket, hphase, hscan],
        ⟨rfl, .inr (.inl hphase), hrest⟩, rfl⟩
  · exact ⟨_, events', by simp only [nextPacket, hphase, hreading], hcarries, rfl⟩

/-! ## One message -/

/-- What a message gives: itself, if it is a well-formed document. -/
def received (data : Bytes) : Except BridgeError (Option Bytes) :=
  if (Json.parse data).isSome then .ok (some data)
  else .error (.reassembly "Invalid payload: JSON error:")

theorem checked_eq_received (data : Bytes) : checked data = received data := by
  rw [checked, received]
  cases Json.parse data with
  | none => rfl
  | some v => rfl

theorem received_ne_none (data : Bytes) : received data ≠ .ok none := by
  rw [received]
  split
  · exact fun h ↦ by cases h
  · exact fun h ↦ by cases h

/-- Of a message with `total` packets, those with the payloads `done` have been taken; `ps` are
the packets to come, and nothing is too old for them. -/
structure Midway (f : Layout) (total : UInt16) (done : List Bytes) (ps : List Packet)
    (r : Receiver) : Prop where
  carries : Carries f ps r
  ageless : r.reassembler.maxAge = none
  awaits : Awaits total done r.reassembler

theorem midway_new (f : Layout) (total : UInt16) {chunks : List Bytes}
    (h : chunks.flatten = f.stream ps) : Midway f total [] ps (Receiver.new f none chunks) :=
  ⟨⟨rfl, .inl rfl, h⟩, rfl, Reassembler.awaits_new total none⟩

/-- One call takes the rest of a message, and leaves the stream at the next one.  The induction is
on the payloads to come. -/
theorem nextMessageWithin_midway {total : UInt16} {done todo : List Bytes} {limit : Nat}
    (hps : ∀ p ∈ Layout.numbered total done.length todo ++ ps, f.Legible p)
    (htodo : todo ≠ []) (htotal : done.length + todo.length = total.toNat)
    (hlimit : todo.length ≤ limit)
    (h : Midway f total done (Layout.numbered total done.length todo ++ ps) r) :
    (nextMessageWithin limit r).1 = received (done ++ todo).flatten ∧
      ∀ next, Midway f next [] ps (nextMessageWithin limit r).2.1 := by
  induction todo generalizing done limit r with
  | nil => exact absurd rfl htodo
  | cons payload todo ih =>
      obtain ⟨limit, rfl⟩ : ∃ n, limit = n + 1 := ⟨limit - 1, by simp at hlimit; omega⟩
      rw [List.length_cons] at htotal hlimit
      have hnumbered : Layout.numbered total done.length (payload :: todo) =
          Reassembler.following total done payload ::
            Layout.numbered total (done ++ [payload]).length todo := by
        simp [Layout.numbered, Reassembler.following]
      rw [hnumbered, List.cons_append] at hps h
      obtain ⟨r', events, hnext, hcarries, hreassembler⟩ := nextPacket_cons hps h.carries
      have hage : r'.reassembler.maxAge = none := hreassembler ▸ h.ageless
      have hawaits : Awaits total done r'.reassembler := hreassembler ▸ h.awaits
      have htake := Reassembler.push_of_maxAge_none hage
        (Reassembler.following total done payload) r'.clock
      obtain ⟨hkeep, hmore, hlast⟩ : Follows r'.reassembler total (done ++ [payload])
          (r'.reassembler.push (Reassembler.following total done payload) r'.clock) := by
        rw [htake]
        exact Reassembler.take_following (by omega) hawaits
      rw [List.length_append, List.length_singleton] at hmore hlast
      rw [nextMessageWithin, hnext]
      cases todo with
      | nil =>
          obtain ⟨hresult, hafter⟩ := hlast (by simpa using htotal)
          simp only [hresult]
          refine ⟨checked_eq_received _, fun next ↦ ?_⟩
          exact ⟨⟨hcarries.layout, hcarries.phase, hcarries.stream⟩, hkeep.trans hage, hafter next⟩
      | cons later todo =>
          obtain ⟨hresult, hafter⟩ := hmore (by rw [List.length_cons] at htotal; omega)
          have hmidway : Midway f total (done ++ [payload])
              (Layout.numbered total (done ++ [payload]).length (later :: todo) ++ ps)
              { r' with
                reassembler := (r'.reassembler.push
                  (Reassembler.following total done payload) r'.clock).next
                clock := r'.clock + 1 } :=
            ⟨⟨hcarries.layout, hcarries.phase, hcarries.stream⟩, hkeep.trans hage, hafter⟩
          obtain ⟨hmessage, hend⟩ := ih (fun p hp ↦ hps p (List.mem_cons_of_mem _ hp))
            (List.cons_ne_nil _ _)
            (by simp only [List.length_append, List.length_singleton]; omega)
            (Nat.le_of_succ_le_succ hlimit) hmidway
          simp only [hresult]
          refine ⟨?_, hend⟩
          rw [hmessage, List.append_assoc, List.singleton_append]

/-! ## All messages -/

/-- The packets of a message are legible if no payload can hold the suffix. -/
theorem legible_of_split (hsuffix : Text.Unbordered f.suffix) {data : Bytes} {packets : List Packet}
    (hsplit : f.split data = .ok packets) (hdata : ¬ f.suffix <:+: data) :
    ∀ p ∈ packets, f.Legible p := by
  intro p hp
  obtain ⟨_, rfl⟩ := Layout.split_eq_ok_iff.mp hsplit
  have hpayload := Layout.payload_mem_of_mem_numbered hp
  exact Layout.legible_of_not_infix hsuffix
    (fun hpart ↦ hdata (hpart.trans (Frame.infix_of_mem_pieces hpayload)))
    (Frame.length_le_of_mem_pieces hpayload)

theorem split_ne_nil {data : Bytes} {packets : List Packet} (hsplit : f.split data = .ok packets)
    (hdata : data ≠ []) : packets ≠ [] := by
  obtain ⟨_, rfl⟩ := Layout.split_eq_ok_iff.mp hsplit
  intro hnil
  have hlength := congrArg List.length hnil
  rw [Layout.length_numbered, List.length_nil] at hlength
  exact f.payloads_ne_nil hdata (List.eq_nil_of_length_eq_zero hlength)

theorem nextMessage_split {data : Bytes} {packets : List Packet}
    (hps : ∀ p ∈ packets ++ ps, f.Legible p) (hsplit : f.split data = .ok packets)
    (hdata : data ≠ []) (h : ∀ total, Midway f total [] (packets ++ ps) r) :
    r.nextMessage.1 = received data ∧ ∀ total, Midway f total [] ps r.nextMessage.2.1 := by
  obtain ⟨hsize, rfl⟩ := Layout.split_eq_ok_iff.mp hsplit
  have hlimit : (f.payloads data).length ≤ r.unread + 1 := by
    have hlength := (h 0).carries.length_le
    rw [List.length_append, Layout.length_numbered] at hlength
    omega
  have hmessage : r.nextMessage.1 = received ([] ++ f.payloads data).flatten ∧
      ∀ total, Midway f total [] ps r.nextMessage.2.1 :=
    nextMessageWithin_midway hps (f.payloads_ne_nil hdata)
      (by rw [UInt16.toNat_ofNat_of_lt' hsize, List.length_nil, Nat.zero_add]) hlimit (h _)
  rwa [List.nil_append, f.flatten_payloads] at hmessage

theorem nextMessage_nil (h : Carries f [] r) : r.nextMessage.1 = .ok none := by
  have hnone := nextPacket_nil h
  rw [nextMessage, nextMessageWithin]
  split
  · rfl
  · rename_i hnext
    rw [hnext] at hnone
    cases hnone
  · rename_i hnext
    rw [hnext] at hnone
    cases hnone

/-- The first call that finds nothing is the last one. -/
theorem messagesWithin_of_none {fuel : Nat} (h : r.nextMessage.1 = .ok none) :
    (messagesWithin (fuel + 1) r).1.map Prod.fst = [.ok none] := by
  rw [messagesWithin]
  rcases hnext : r.nextMessage with ⟨message, r', events⟩
  rw [hnext] at h
  obtain rfl : message = .ok none := h
  rfl

theorem messagesWithin_of_ne_none {fuel : Nat} (h : r.nextMessage.1 ≠ .ok none) :
    (messagesWithin (fuel + 1) r).1.map Prod.fst =
      r.nextMessage.1 :: (messagesWithin fuel r.nextMessage.2.1).1.map Prod.fst := by
  rw [messagesWithin]
  rcases hnext : r.nextMessage with ⟨message, r', events⟩
  rw [hnext] at h
  rcases message with e | data | _
  · rfl
  · exact absurd rfl h
  · rfl

theorem messagesWithin_split {ms : List Bytes} {pss : List (List Packet)} {fuel : Nat}
    (hps : ∀ p ∈ pss.flatten, f.Legible p) (hsplit : List.Forall₂ (f.split · = .ok ·) ms pss)
    (hms : ∀ m ∈ ms, m ≠ []) (hfuel : ms.length < fuel)
    (h : ∀ total, Midway f total [] pss.flatten r) :
    (messagesWithin fuel r).1.map Prod.fst = ms.map received ++ [.ok none] := by
  induction hsplit generalizing r fuel with
  | nil =>
      obtain ⟨fuel, rfl⟩ : ∃ n, fuel = n + 1 := ⟨fuel - 1, by omega⟩
      exact messagesWithin_of_none (nextMessage_nil (h 0).carries)
  | @cons m packets ms pss hm _ ih =>
      obtain ⟨fuel, rfl⟩ : ∃ n, fuel = n + 1 := ⟨fuel - 1, by omega⟩
      obtain ⟨hmessage, hnext⟩ := nextMessage_split hps hm (hms m List.mem_cons_self) h
      rw [messagesWithin_of_ne_none (hmessage ▸ received_ne_none m), hmessage,
        ih (fun p hp ↦ hps p (List.mem_append_right packets hp))
          (fun m hm ↦ hms m (List.mem_cons_of_mem _ hm)) (by simpa using hfuel) hnext,
        List.map_cons, List.cons_append]

theorem length_le_length_flatten {ms : List Bytes} {pss : List (List Packet)}
    (hsplit : List.Forall₂ (f.split · = .ok ·) ms pss) (hms : ∀ m ∈ ms, m ≠ []) :
    ms.length ≤ pss.flatten.length := by
  induction hsplit with
  | nil => simp
  | @cons m packets ms pss hm _ ih =>
      have hpackets := List.length_pos_iff.mpr (split_ne_nil hm (hms m List.mem_cons_self))
      have htail := ih fun m hm ↦ hms m (List.mem_cons_of_mem _ hm)
      rw [List.flatten_cons, List.length_append, List.length_cons]
      omega

theorem legible_of_mem_flatten (hsuffix : Text.Unbordered f.suffix) {ms : List Bytes}
    {pss : List (List Packet)} (hsplit : List.Forall₂ (f.split · = .ok ·) ms pss)
    (hms : ∀ m ∈ ms, ¬ f.suffix <:+: m) : ∀ p ∈ pss.flatten, f.Legible p := by
  induction hsplit with
  | nil => simp
  | @cons m packets ms pss hm _ ih =>
      intro p hp
      rcases List.mem_append.mp hp with hp | hp
      · exact legible_of_split hsuffix hm (hms m List.mem_cons_self) p hp
      · exact ih (fun m hm ↦ hms m (List.mem_cons_of_mem _ hm)) p hp

/-- The messages that can go through a link whose frames end with a line break. -/
structure Sendable (m : Bytes) : Prop where
  ne_nil : m ≠ []
  unbroken : ¬ Frame.defaultSuffix <:+: m

theorem sendable_bytes (v : Json) : Sendable v.bytes :=
  ⟨v.bytes_ne_nil, v.not_infix_bytes⟩

/-- A stream of the frames of some messages, cut into chunks in any way, gives an answer to each
message in turn and then ends.  The text of any value is such a message. -/
theorem messages_stream {mtu : Nat} {handle : String} {ms : List Bytes} {pss : List (List Packet)}
    {chunks : List Bytes} (hlayout : Layout.notify mtu handle = .ok f)
    (hms : ∀ m ∈ ms, Sendable m) (hsplit : List.Forall₂ (f.split · = .ok ·) ms pss)
    (hchunks : chunks.flatten = pss.flatten.flatMap f.encode) :
    (Receiver.new f none chunks).messages.1.map Prod.fst = ms.map received ++ [.ok none] ∧
      ∀ v : Json, Sendable v.bytes := by
  have hsuffix : f.suffix = Frame.defaultSuffix := Layout.suffix_of_notify hlayout
  have hne : ∀ m ∈ ms, m ≠ [] := fun m hm ↦ (hms m hm).ne_nil
  have hlegible : ∀ p ∈ pss.flatten, f.Legible p := by
    refine legible_of_mem_flatten (hsuffix ▸ Layout.unbordered_defaultSuffix) hsplit fun m hm ↦ ?_
    rw [hsuffix]
    exact (hms m hm).unbroken
  have hready : ∀ total, Midway f total [] pss.flatten (Receiver.new f none chunks) := fun total ↦
    midway_new f total hchunks
  refine ⟨messagesWithin_split hlegible hsplit hne ?_ hready, sendable_bytes⟩
  have hunread := (hready 0).carries.length_le
  have hlength := length_le_length_flatten hsplit hne
  omega

/-- One document sent twice, read in chunks that end within its frames. -/
theorem messages_stream_twice :
    (Receiver.new ⟨33, Text.bytes "AT+QBLEGATTSNTFY=0,fff2,", [0x0D, 0x0A], by decide, by decide⟩
      none
      [Text.bytes "AT+QBLEGATTSNTFY=0,fff2,\x00\x00\x00\x02[1,\r\nAT+QBLEGATTSNT",
        Text.bytes "FY=0,fff2,\x00\x01\x00\x022]\r\nAT+QBLEGATTSNTFY=0,fff2,\x00\x00\x00\x02[1,\r",
        Text.bytes "\nAT+QBLEGATTSNTFY=0,fff2,\x00\x01\x00\x022]\r\n"]).messages.1.map Prod.fst =
      [.ok (some (Text.bytes "[1,2]")), .ok (some (Text.bytes "[1,2]")), .ok none] := by
  have hlayout : Layout.notify 33 "fff2" = .ok
      ⟨33, Text.bytes "AT+QBLEGATTSNTFY=0,fff2,", [0x0D, 0x0A], by decide, by decide⟩ := rfl
  have hsendable : Sendable (Text.bytes "[1,2]") := ⟨by decide, by decide⟩
  have hms : ∀ m ∈ [Text.bytes "[1,2]", Text.bytes "[1,2]"], Sendable m :=
    List.forall_mem_cons.mpr ⟨hsendable, List.forall_mem_cons.mpr ⟨hsendable, nofun⟩⟩
  have hsplit : Layout.split
      ⟨33, Text.bytes "AT+QBLEGATTSNTFY=0,fff2,", [0x0D, 0x0A], by decide, by decide⟩
      (Text.bytes "[1,2]") = .ok [⟨0, 2, Text.bytes "[1,"⟩, ⟨1, 2, Text.bytes "2]"⟩] := by
    decide +kernel
  refine (messages_stream hlayout hms (.cons hsplit (.cons hsplit .nil)) ?_).1.trans ?_
  · decide +kernel
  · decide +kernel

end BleBridge.Link.Receiver
