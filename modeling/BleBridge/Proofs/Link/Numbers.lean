import BleBridge.Proofs.Frame.Tally
import BleBridge.Proofs.Link.Outcomes

/-!
# Numbers that words can hold

The receiver again, with sums that are checked: the number of a packet is a word
of 16 bits, and the counts of the reassembler are words of 64.  Where one of them
does not fit there is no result.

A header can carry any index, and the number of a packet is taken before the
reassembler has compared its index with its total.  So a packet of the highest
index has no number, and it is the only one (`packetNumber?_eq`).  The counts
stay below the number of packets.  Hence the checked receiver returns what the
receiver returns if no packet of the stream has the highest index, and otherwise
nothing (`messages?_eq`).
-/

namespace BleBridge.Link.Receiver

open BleBridge.Frame (Layout Packet Pushed Reassembler)
open BleBridge.Frame.Reassembler (Tallied)

variable {r : Receiver} {p : Packet} {ps : List Packet} {left : Bytes} {limit fuel count : Nat}

/-! ## The checked receiver -/

/-- The number of a packet counted from one, if a word can hold it. -/
def packetNumber? (p : Packet) : Option UInt16 :=
  if p.index.toNat + 1 < UInt16.size then some (.ofNat (p.index.toNat + 1)) else none

def numberEvent (number : UInt16) (p : Packet) : Event :=
  .debug "Link" s!"received packet {number}/{p.total} ({p.payload.length} bytes)"

/-- Take a packet, if words can hold the counts behind it. -/
def push? (r : Reassembler) (p : Packet) (now : Nat) : Option Pushed :=
  let pushed := r.push p now
  if pushed.next.evicted < UInt64.size ∧ pushed.next.discarded < UInt64.size then some pushed
  else none

def nextMessageWithin? : Nat → Receiver →
    Option (Except BridgeError (Option Bytes) × Receiver × List Event)
  | 0, r => some (.ok none, r, [])
  | limit + 1, r =>
      match r.nextPacket with
      | (.none, r, events) => some (.ok none, r, events)
      | (.leftover, r, events) => some (.error (.io "bytes remaining on stream"), r, events)
      | (.packet p, r, events) => do
          let number ← packetNumber? p
          let pushed ← push? r.reassembler p r.clock
          let r := { r with reassembler := pushed.next, clock := r.clock + 1 }
          let events := events ++ numberEvent number p :: pushed.events
          match pushed.result with
          | .error fault => return (.error (.ofFault fault), r, events)
          | .ok (some data) => return (checked data, r, events)
          | .ok none =>
              let later ← nextMessageWithin? limit r
              return (later.1, later.2.1, events ++ later.2.2)

def nextMessage? (r : Receiver) :
    Option (Except BridgeError (Option Bytes) × Receiver × List Event) :=
  nextMessageWithin? (r.unread + 1) r

def messagesWithin? : Nat → Receiver →
    Option (List (Except BridgeError (Option Bytes) × Receiver) × List Event)
  | 0, _ => some ([], [])
  | fuel + 1, r => do
      let (message, r, events) ← r.nextMessage?
      match message with
      | .ok none => return ([(message, r)], events)
      | _ =>
          let (later, laterEvents) ← messagesWithin? fuel r
          return ((message, r) :: later, events ++ laterEvents)

/-- Everything up to the end of the stream, unless some number does not fit. -/
def messages? (r : Receiver) :
    Option (List (Except BridgeError (Option Bytes) × Receiver) × List Event) :=
  messagesWithin? (r.unread + 3) r

/-! ## One packet -/

/-- Each of the packets has a number. -/
def Numbered (ps : List Packet) : Prop := ∀ p ∈ ps, p.index ≠ 0xFFFF

instance (ps : List Packet) : Decidable (Numbered ps) :=
  inferInstanceAs (Decidable (∀ p ∈ ps, p.index ≠ 0xFFFF))

theorem numbered_nil : Numbered [] := List.forall_mem_nil _

theorem numbered_cons_iff : Numbered (p :: ps) ↔ p.index ≠ 0xFFFF ∧ Numbered ps :=
  List.forall_mem_cons

theorem numbered_append_iff {qs : List Packet} :
    Numbered (ps ++ qs) ↔ Numbered ps ∧ Numbered qs := List.forall_mem_append

/-- Only the highest index is one below a number that a word cannot hold. -/
theorem packetNumber?_eq (p : Packet) :
    packetNumber? p = if p.index ≠ 0xFFFF then some (packetNumber p) else none := by
  have hindex := p.index.toNat_lt
  have hmax : p.index = 0xFFFF ↔ p.index.toNat = 0xFFFF := UInt16.toNat_inj.symm
  rw [packetNumber?]
  by_cases h : p.index = 0xFFFF
  · rw [if_neg (by rw [hmax.mp h]; decide), if_neg (by simpa using h)]
  · rw [if_pos (by have := mt hmax.mpr h; simp only [UInt16.size] at hindex ⊢; omega), if_pos h,
      packetNumber, UInt16.ofNat_add, UInt16.ofNat_toNat]
    rfl

theorem push?_of_tallied {s : Reassembler} (h : Tallied count s) (hcount : count + 1 < UInt64.size)
    (p : Packet) (now : Nat) : push? s p now = some (s.push p now) := by
  obtain ⟨hevicted, hdiscarded⟩ := h.push p now
  exact if_pos ⟨by omega, by omega⟩

/-! ## One call -/

/-- A call has a result if each packet that it takes has a number. -/
theorem nextMessageWithin?_eq (h : Tallied count r.reassembler)
    (hcount : count + (takenWithin limit r).length < UInt64.size) :
    nextMessageWithin? limit r =
      if Numbered (takenWithin limit r) then some (nextMessageWithin limit r) else none := by
  induction limit generalizing r count with
  | zero => exact (if_pos numbered_nil).symm
  | succ limit ih =>
      have hkeeps := r.keeps_nextPacket
      rw [takenWithin] at hcount ⊢
      rw [nextMessageWithin?, nextMessageWithin]
      rcases hnext : r.nextPacket with ⟨p | _ | _, r', events⟩
      · rw [hnext] at hkeeps hcount
        have htallied : Tallied count r'.reassembler := hkeeps.reassembler.symm ▸ h
        rw [List.length_cons] at hcount
        simp only [numbered_cons_iff]
        by_cases hp : p.index = 0xFFFF
        · rw [packetNumber?_eq, if_neg (not_not_intro hp), if_neg fun hall ↦ hall.1 hp]
          rfl
        · rw [packetNumber?_eq, if_pos hp, push?_of_tallied htallied (by omega)]
          rcases hresult : (r'.reassembler.push p r'.clock).result with fault | _ | data
          · rw [if_pos ⟨hp, numbered_nil⟩]
            simp only [Option.bind_eq_bind, Option.bind_some, hresult]
            rfl
          · rw [hresult] at hcount
            dsimp only at hcount
            have hlater := ih (r := r'.take p) (htallied.push p r'.clock) (by omega)
            simp only [Option.bind_eq_bind, Option.bind_some, hresult]
            -- the receiver written out is the one with the packet taken
            change (nextMessageWithin? limit (r'.take p)).bind _ = _
            rw [hlater]
            by_cases hrest : Numbered (takenWithin limit (r'.take p))
            · rw [if_pos hrest, if_pos ⟨hp, hrest⟩]
              rfl
            · rw [if_neg hrest, if_neg fun hall ↦ hrest hall.2]
              rfl
          · rw [if_pos ⟨hp, numbered_nil⟩]
            simp only [Option.bind_eq_bind, Option.bind_some, hresult]
            rfl
      · exact (if_pos numbered_nil).symm
      · exact (if_pos numbered_nil).symm

/-! ## All calls -/

theorem messagesWithin?_of_none (h : r.nextMessage? = none) :
    messagesWithin? (fuel + 1) r = none := by
  rw [messagesWithin?, h]
  rfl

theorem messagesWithin?_of_last (h : r.nextMessage? = some r.nextMessage)
    (hlast : r.nextMessage.1 = .ok none) :
    messagesWithin? (fuel + 1) r = some (messagesWithin (fuel + 1) r) := by
  rw [messagesWithin?, messagesWithin, h]
  rcases hnext : r.nextMessage with ⟨message, r', events⟩
  rw [hnext] at hlast
  obtain rfl : message = .ok none := hlast
  rfl

theorem messagesWithin?_of_later {q : Prop} [Decidable q] (h : r.nextMessage? = some r.nextMessage)
    (hmore : r.nextMessage.1 ≠ .ok none)
    (hlater : messagesWithin? fuel r.nextMessage.2.1 =
      if q then some (messagesWithin fuel r.nextMessage.2.1) else none) :
    messagesWithin? (fuel + 1) r = if q then some (messagesWithin (fuel + 1) r) else none := by
  rw [messagesWithin?, messagesWithin, h]
  rcases hnext : r.nextMessage with ⟨message, r', events⟩
  rw [hnext] at hlater hmore
  rcases message with e | _ | data
  · simp only [Option.bind_eq_bind, Option.bind_some, hlater]
    split <;> rfl
  · exact absurd rfl hmore
  · simp only [Option.bind_eq_bind, Option.bind_some, hlater]
    split <;> rfl

/-- The calls have results if each packet to come has a number.  The induction is on the calls, of
which each counts on with the packets that it takes. -/
theorem messagesWithin?_eq (h : Brings ps left r) (htallied : Tallied count r.reassembler)
    (hcount : count + ps.length < UInt64.size) (hfuel : ps.length + (closing left).length ≤ fuel) :
    messagesWithin? fuel r = if Numbered ps then some (messagesWithin fuel r) else none := by
  induction fuel generalizing r ps left count with
  | zero =>
      have hpos := (length_closing left).1
      omega
  | succ fuel ih =>
      have hreturns := h.nextMessage
      have hfront := hreturns.front_taken
      have hcall : r.nextMessage? = if Numbered (takenWithin (r.unread + 1) r) then
          some r.nextMessage else none :=
        nextMessageWithin?_eq htallied (by have := hfront.length_le; omega)
      generalize takenWithin (r.unread + 1) r = taken at hreturns hcall hfront
      by_cases hnumbered : Numbered taken
      · rw [if_pos hnumbered] at hcall
        have hlater : ∀ ps' left', Behind r taken ps' left' r.nextMessage.2.1 →
            count + taken.length + ps'.length < UInt64.size →
            ps'.length + (closing left').length ≤ fuel →
            messagesWithin? fuel r.nextMessage.2.1 =
              if Numbered ps' then some (messagesWithin fuel r.nextMessage.2.1) else none := by
          intro ps' left' hbehind
          refine ih hbehind.brings ?_
          rw [hbehind.reassembler]
          simpa using htallied.pushAll (taken.zipIdx r.clock)
        generalize hresult : r.nextMessage.1 = result at hreturns
        cases hreturns with
        | @answer answer later _ answers behind =>
            have hpos := length_pos_of_answers answers
            rw [List.length_append] at hcount hfuel
            rw [messagesWithin?_of_later hcall (hresult ▸ outcome_ne_none answer)
              (hlater _ _ behind (by omega) (by omega))]
            simp only [numbered_append_iff, hnumbered, true_and]
        | ended answers bytes behind =>
            rw [messagesWithin?_of_last hcall hresult, if_pos hnumbered]
        | leftover answers ne_nil behind =>
            have hclosing : (closing left).length = 2 := congrArg List.length (if_neg ne_nil)
            rw [messagesWithin?_of_later hcall (hresult ▸ nofun)
              (hlater _ _ behind hcount (show 1 ≤ fuel by omega)), if_pos numbered_nil,
              if_pos hnumbered]
      · rw [messagesWithin?_of_none (hcall.trans (if_neg hnumbered)),
          if_neg fun hall ↦ hnumbered fun p hp ↦ hall p (hfront.subset hp)]

/-- With fewer packets than a word of 64 bits counts, all numbers fit if and only if no packet of
the stream has the highest index. -/
theorem messages?_eq (f : Layout) (maxAge : Option Nat) (chunks : List Bytes)
    (hcount : (f.readAll [] chunks).1.length < UInt64.size) :
    (Receiver.new f maxAge chunks).messages? =
      if ∀ p ∈ (f.readAll [] chunks).1, p.index ≠ 0xFFFF then
        some (Receiver.new f maxAge chunks).messages
      else none := by
  have hbrings := brings_new f maxAge chunks
  have hlength := hbrings.length_le
  have hclosing := (length_closing (f.readAll [] chunks).2).2
  exact messagesWithin?_eq hbrings (Reassembler.tallied_new maxAge) (by omega) (by omega)

/-- The highest index but one has a number, although the packet is outside its message. -/
theorem messages?_of_high_index :
    (Receiver.new ⟨33, Text.bytes "AT+QBLEGATTSNTFY=0,fff2,", [0x0D, 0x0A], by decide, by decide⟩
      none
      [Text.bytes "AT+QBLEGATTSNTFY=0,fff2,", [0xFF, 0xFE, 0, 1, 0x31, 0x0D],
        [0x0A]]).messages?.map (·.1.map Prod.fst) = some [.ok none] := by
  rw [messages?_eq _ _ _ (by decide +kernel), if_pos (by decide +kernel)]
  decide +kernel

/-- A packet of the highest index of all has no number, and the event that tells of it says zero. -/
theorem exists_unnumbered : ∃ (f : Layout) (chunks : List Bytes),
    Layout.notify 33 "fff2" = .ok f ∧ (Receiver.new f none chunks).messages? = none ∧
      .debug "Link" "received packet 0/1 (1 bytes)" ∈ (Receiver.new f none chunks).messages.2 :=
  ⟨⟨33, Text.bytes "AT+QBLEGATTSNTFY=0,fff2,", [0x0D, 0x0A], by decide, by decide⟩,
    [Text.bytes "AT+QBLEGATTSNTFY=0,fff2,", [0xFF, 0xFF, 0, 1, 0x31, 0x0D], [0x0A]],
    rfl, by rw [← Option.isNone_iff_eq_none]; decide +kernel, by decide +kernel⟩

end BleBridge.Link.Receiver
