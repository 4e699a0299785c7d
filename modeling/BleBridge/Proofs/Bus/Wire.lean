import BleBridge.Proofs.Bus.Channels
import BleBridge.Proofs.Json.RoundTrip

/-!
# Envelopes survive the wire

An envelope is written as an object with its fields in their order, and read field by
field, so a field is set to what was written for it (`Portable.set?_document`).  Only the
topic is not written: a reader has it from the bus (`Portable.ofBytes_toBytes`).  The
request id comes through with the rest, and a response meets the waiter of its request
(`Client.Awaits.deliverAll`).
-/

namespace BleBridge.Bus

namespace Envelope

variable {e e' : Envelope}

/-- What keeps the text of an envelope readable: the code fits into 32 bits, and the payload
keeps a level for the envelope around it. -/
structure Portable (e : Envelope) : Prop where
  integral : e.payload.Integral
  ordered : e.payload.Ordered
  shallow : e.payload.nesting ≤ 126
  least : leastCode ≤ e.errorCode
  most : e.errorCode ≤ mostCode

theorem portable_new (id correlationId : String) {payload : Json} (integral : payload.Integral)
    (ordered : payload.Ordered) (shallow : payload.nesting ≤ 126) :
    (Envelope.new id correlationId payload).Portable where
  integral := integral
  ordered := ordered
  shallow := shallow
  least := by
    change leastCode ≤ 0
    decide
  most := by
    change 0 ≤ mostCode
    decide

theorem Portable.integral_members (h : e.Portable) : (Json.object e.members).Integral := by
  refine .object fun m hm ↦ ?_
  simp only [members, List.mem_cons, List.not_mem_nil, or_false] at hm
  rcases hm with rfl | rfl | rfl | rfl | rfl | rfl
  · exact .string e.apiVersion
  · exact .string e.requestId
  · exact .string e.correlationId
  · exact .int (Int.le_trans (by decide) h.least) (Int.le_trans h.most (by decide))
  · exact h.integral
  · exact .string e.contentType

/-! ## Fields -/

namespace Field

/-- What is written for a field. -/
def document (e : Envelope) : Field → Json.Document
  | apiVersion => .string (some e.apiVersion)
  | requestId => .string (some e.requestId)
  | correlationId => .string (some e.correlationId)
  | errorCode => .number (some (.int e.errorCode))
  | payload => e.payload.document
  | contentType => .string (some e.contentType)

/-- Take a field over from `e`. -/
def copy (e : Envelope) (e' : Envelope) : Field → Envelope
  | apiVersion => { e' with apiVersion := e.apiVersion }
  | requestId => { e' with requestId := e.requestId }
  | correlationId => { e' with correlationId := e.correlationId }
  | errorCode => { e' with errorCode := e.errorCode }
  | payload => { e' with payload := e.payload }
  | contentType => { e' with contentType := e.contentType }

theorem ofName?_name (field : Field) : ofName? field.name = some field := by
  cases field <;> rfl

end Field

/-- A field is set to what was written for it. -/
theorem Portable.set?_document (h : e.Portable) (e' : Envelope) (field : Field) :
    e'.set? (field.document e) field = some (field.copy e e') := by
  cases field with
  | errorCode =>
      change (if leastCode ≤ e.errorCode ∧ e.errorCode ≤ mostCode then some e.errorCode
        else none).map _ = _
      rw [if_pos ⟨h.least, h.most⟩]
      rfl
  | payload =>
      have hread : Json.ofDocument (Json.depthLimit - 1) e.payload.document = some e.payload :=
        Json.ofDocument_document h.ordered h.shallow
      rw [set?, Field.document, hread]
      rfl
  | apiVersion | requestId | correlationId | contentType => rfl

/-- Fields that are written once each are all taken over, in whatever order they stand. -/
theorem Portable.ofNamed_map (h : e.Portable) {fields seen : List Field} (e' : Envelope)
    (hfresh : (seen ++ fields).Nodup) :
    ofNamed e' seen (fields.map fun field ↦ (some field.name, field.document e)) =
      some (fields.foldl (fun e' field ↦ field.copy e e') e') := by
  induction fields generalizing seen e' with
  | nil => rfl
  | cons field fields ih =>
      have hmoved : (field :: seen ++ fields).Nodup := List.perm_middle.nodup_iff.mp hfresh
      have hnew : field ∉ seen := fun hseen ↦
        (List.nodup_cons.mp hmoved).1 (List.mem_append_left fields hseen)
      rw [List.map_cons, ofNamed, Option.bind_eq_bind, Option.bind_some, Field.ofName?_name]
      dsimp only
      rw [if_neg hnew, h.set?_document, Option.bind_eq_bind, Option.bind_some]
      exact ih _ hmoved

theorem Portable.ofDocument?_members (h : e.Portable) :
    ofDocument? (.object (Json.memberDocuments e.members)) =
      some { e with receivedTopic := "" } := by
  have hfresh : ([] ++ Field.all).Nodup := by decide
  exact h.ofNamed_map blank hfresh

theorem Portable.ofBytes_toBytes (h : e.Portable) (topic : String) :
    ofBytes topic e.toBytes = .ok { e with receivedTopic := topic } := by
  have hparse : Json.Document.parse e.toBytes = some (.object (Json.memberDocuments e.members)) :=
    Json.Document.parse_bytes h.integral_members
  rw [ofBytes, hparse, Option.bind_some, h.ofDocument?_members]

end Envelope

/-! ## Responses -/

namespace Client

variable {c : Client} {id : String} {ticket : Nat} {e : Envelope}

/-- A request waits for the response to an id. -/
structure Awaits (c : Client) (id : String) (ticket : Nat) : Prop where
  unanswered : c.answered.contains id = false
  waiter : c.waiter? id = some ticket
  waiting : c.slot ticket = .empty

/-- The request has the response, and no other request is touched. -/
structure Correlated (c c' : Client) (id : String) (ticket : Nat) (e : Envelope) : Prop where
  handed : c'.slot ticket = .filled e
  gone : c'.waiter? id = none
  slots : ∀ t, t ≠ ticket → c'.slot t = c.slot t
  waiters : ∀ id', id' ≠ id → c'.waiter? id' = c.waiter? id'

theorem waiter?_withoutWaiter (c : Client) (id id' : String) :
    (c.withoutWaiter id).waiter? id' = if id' = id then none else c.waiter? id' := by
  rw [waiter?, withoutWaiter, List.find?_filter]
  split
  · rename_i heq
    rw [List.find?_eq_none.mpr fun w _ ↦ by simp [heq]]
    rfl
  · rename_i hne
    have hother : ∀ w : String × Nat, decide ((w.1 != id) ∧ (w.1 == id')) = (w.1 == id') := by
      intro w
      by_cases hw : w.1 = id'
      · simp [hw, hne]
      · simp [hw]
    simp only [hother]
    rfl

theorem Awaits.deliverAll (h : c.Awaits e.requestId ticket) :
    Correlated c (c.deliverAll e).1 e.requestId ticket e := by
  have harrived : c.deliver (.arrived e) = (c, .unanswered e, []) := by
    rw [deliver, h.unanswered]
    rfl
  have hunanswered : c.deliver (.unanswered e) =
      (c.withoutWaiter e.requestId, .taken e ticket, []) := by
    rw [deliver, h.waiter]
  have hnoted : ∀ c' : Client, c'.slot ticket = .empty →
      c'.deliver (.noted e ticket) = (c'.setSlot ticket (.filled e), .done, []) := by
    intro c' hslot
    rw [deliver, hslot]
  let taken : Client :=
    { c.withoutWaiter e.requestId with answered := c.answered.insert e.requestId }
  have hclient : (c.deliverAll e).1 = taken.setSlot ticket (.filled e) := by
    have hslot : taken.slot ticket = .empty := h.waiting
    rw [Client.deliverAll, harrived]
    dsimp only
    rw [hunanswered]
    dsimp only
    exact congrArg Prod.fst (hnoted taken hslot)
  rw [hclient]
  refine ⟨?_, ?_, fun t ht ↦ ?_, fun id' hid ↦ ?_⟩
  · rw [slot_setSlot, if_pos rfl]
  · exact (waiter?_withoutWaiter c _ _).trans (if_pos rfl)
  · rw [slot_setSlot, if_neg ht]
    rfl
  · exact (waiter?_withoutWaiter c _ _).trans (if_neg hid)

/-- Whatever the strings in it, an envelope is read as it was written, on any topic; so a response
gets to the request whose id it was made for, and to no other. -/
theorem survives_wire :
    (∀ e : Envelope, e.Portable → ∀ topic,
      Envelope.ofBytes topic e.toBytes = .ok { e with receivedTopic := topic }) ∧
    ∀ (id correlationId : String) (payload : Json) (topic : String),
      payload.Integral → payload.Ordered → payload.nesting ≤ 126 →
      ∀ (c : Client) (ticket : Nat), c.Awaits id ticket →
        Correlated c (c.heed ⟨topic, (Envelope.new id correlationId payload).toBytes⟩) id ticket
          { Envelope.new id correlationId payload with receivedTopic := topic } := by
  refine ⟨fun e h topic ↦ h.ofBytes_toBytes topic, ?_⟩
  intro id correlationId payload topic integral ordered shallow c ticket hawaits
  have hportable := Envelope.portable_new id correlationId integral ordered shallow
  generalize hresponse : Envelope.new id correlationId payload = response at hportable ⊢
  have hid : response.requestId = id := hresponse ▸ rfl
  have hheed : c.heed ⟨topic, response.toBytes⟩ =
      (c.deliverAll { response with receivedTopic := topic }).1 :=
    heed_of_ok (hportable.ofBytes_toBytes topic)
  subst hid
  rw [hheed]
  exact Awaits.deliverAll hawaits

/-- A payload with a null, an empty key, the ends of the range of whole numbers, and characters that
are escaped or take several bytes. -/
def crowded : Json :=
  .object [("", .null), ("a\"\\", .array [.int (-0x8000000000000000), .int 0xFFFFFFFFFFFFFFFF,
    .string "\x01\n\x7f"]), ("é😀", .object [("k", .bool true)])]

/-- Two requests wait, one of them under an id with a quote. -/
def twoWaiting : Client where
  waiters := [("other", 0), ("r\"1", 1)]
  slots := [(0, .empty), (1, .empty)]

theorem survives_wire_crowded :
    Envelope.ofBytes "q/1" { Envelope.new "r\"1" "" crowded with errorCode := -7 }.toBytes =
      .ok { Envelope.new "r\"1" "" crowded with errorCode := -7, receivedTopic := "q/1" } ∧
    Correlated twoWaiting
      (twoWaiting.heed ⟨"q/1", (Envelope.new "r\"1" "" crowded).toBytes⟩) "r\"1" 1
      { Envelope.new "r\"1" "" crowded with receivedTopic := "q/1" } := by
  have integral : crowded.Integral := by
    simp [crowded, Json.int, Json.Number.leastInt, Json.Number.mostInt]
  have ordered : crowded.Ordered := by simp +decide [crowded, Json.int]
  have shallow : crowded.nesting ≤ 126 := by decide
  refine ⟨survives_wire.1 _ ⟨integral, ordered, shallow, by decide, by decide⟩ "q/1", ?_⟩
  exact survives_wire.2 "r\"1" "" crowded "q/1" integral ordered shallow twoWaiting 1
    ⟨rfl, rfl, rfl⟩

end Client

end BleBridge.Bus
