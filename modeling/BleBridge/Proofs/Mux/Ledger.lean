import BleBridge.Proofs.Mux.Moves

/-!
# The ledger of the multiplexer

What the queues, the reader's hand, the counters and the results of the
multiplexer say about its history, in every state that it can be in.  Each
invariant is checked move by move.

* `Orderly`: the requests that departed, followed by the FIFO, the handoff and
  the writer's hand, are the requests that were written, in that order.
* `Conserved`: every admitted request is refused, written, going out or queued.
* `Settled`: the results are those that the history settled, but for the one in
  the reader's hand.
* `Counted`: the counters are the lengths of parts of the history.
* `Spent`: terminal lines are routed once each, in the order in which they came.
* `Classified`: lines were entered as what they were classified as.
* `Quoted`: the lines of a reply are raw lines that met the head of the FIFO.
* `Fair`: what fails without a reply does not look like one.
* `Quiet`: once a request was abandoned, none is answered any more.
-/

namespace BleBridge.Mux

variable {h k : History} {s s' : State}

/-! ## Order -/

/-- Requests go through the queues of the reader in the order in which they were written. -/
structure Orderly (h : History) (s : State) : Prop where
  order : h.written = h.departed ++ s.fifo ++ s.handoff ++ s.writer.handed
  stopped : s.reader.isStopped → s.fifo = [] ∧ s.handoff = []
  running : s.closed = false → s.reader.isStopped = false
  unabandoned : s.reader.isStopped = false → h.abandoned = []

theorem orderly_new (settings : Config.Mux) : Orderly [] (new settings) :=
  ⟨rfl, nofun, fun _ ↦ rfl, fun _ ↦ rfl⟩

theorem Orderly.move (o : Orderly h s) (m : Move s k s') : Orderly (h ++ k) s' := by
  obtain ⟨order, stopped, running, unabandoned⟩ := o
  cases m with
  | aside | enqueue | drain =>
      exact ⟨by simpa using order, stopped, running, by simpa using unabandoned⟩
  | close => exact ⟨by simpa using order, stopped, nofun, by simpa using unabandoned⟩
  | start now idle =>
      exact ⟨by simpa [idle] using order, stopped, running, by simpa using unabandoned⟩
  | write writing =>
      exact ⟨by simp [order, writing], stopped, running, by simpa using unabandoned⟩
  | giveUp own writing =>
      exact ⟨by simpa [writing] using order, stopped, running, by simpa using unabandoned⟩
  | stopWriter closed idle =>
      exact ⟨by simpa [idle] using order, stopped, running, by simpa using unabandoned⟩
  | hand handing runs =>
      exact ⟨by simpa [handing] using order, by simp [runs], running, by simpa using unabandoned⟩
  | handLate own handing halted =>
      -- behind a stopped reader the request in the writer's hand is the only one left
      obtain ⟨hfifo, hhandoff⟩ := stopped halted
      refine ⟨?_, stopped, running, by simp [halted]⟩
      simp [order, handing, hfifo, hhandoff]
  | absorb runs handoff =>
      exact ⟨by simp [order, handoff], by simp [runs], running, by simpa using unabandoned⟩
  | expire fifo =>
      refine ⟨by simp [order, fifo], fun halted ↦ ?_, running, by simpa using unabandoned⟩
      rw [(stopped halted).1] at fifo
      cases fifo
  | hear => exact ⟨by simpa using order, stopped, running, by simpa using unabandoned⟩
  | hold readAt due reading terminal =>
      rw [reading] at unabandoned
      exact ⟨by simpa using order, nofun, fun _ ↦ rfl, fun _ ↦ by simpa using unabandoned rfl⟩
  | miss holding terminal =>
      rw [holding] at unabandoned
      exact ⟨by simpa using order, nofun, fun _ ↦ rfl, fun _ ↦ by simpa using unabandoned rfl⟩
  | answer due holding terminal fifo fresh =>
      rw [holding] at unabandoned
      exact ⟨by simp [order, fifo], nofun, fun _ ↦ rfl, fun _ ↦ by simpa using unabandoned rfl⟩
  | deliver delaying =>
      rw [delaying] at unabandoned
      exact ⟨by simpa using order, nofun, fun _ ↦ rfl, fun _ ↦ by simpa using unabandoned rfl⟩
  | turn reader free free' =>
      have hruns := Reader.isStopped_of_isFree free'
      exact ⟨by simpa using order, by simp [hruns], fun _ ↦ hruns,
        fun _ ↦ by simpa using unabandoned (Reader.isStopped_of_isFree free)⟩
  | stopReader own closed reading handoff =>
      exact ⟨by simp [order, handoff], fun _ ↦ ⟨rfl, handoff⟩, by simp [closed], nofun⟩

/-! ## Conservation -/

/-- Every admitted request is somewhere: refused, written, going out or in the queue. -/
def Conserved (h : History) (s : State) : Prop :=
  ((h.refused ++ h.written ++ s.writer.outgoing ++ s.queue).map Request.ticket).Perm
    (h.admitted.map Request.ticket)

theorem conserved_new (settings : Config.Mux) : Conserved [] (new settings) := .refl _

theorem Conserved.move (c : Conserved h s) (m : Move s k s') : Conserved (h ++ k) s' := by
  rw [Conserved] at c ⊢
  cases m with
  | aside | close | hear | hold | miss | turn | expire | answer | deliver | absorb | stopReader =>
      simpa using c
  | enqueue r =>
      have hperm := c.append_right [r.ticket]
      simpa using hperm
  | start now idle queue => simpa [idle, queue] using c
  | write writing => simpa [writing] using c
  | giveUp own writing =>
      rw [writing, List.perm_iff_count] at c
      rw [List.perm_iff_count]
      intro ticket
      have hcount := c ticket
      simp [History.admitted, History.refused, History.written, List.count_cons] at hcount ⊢
      omega
  | drain =>
      rw [List.perm_iff_count] at c ⊢
      intro ticket
      have hcount := c ticket
      simp [History.admitted, History.refused, History.written] at hcount ⊢
      omega
  | stopWriter closed idle => simpa [idle] using c
  | hand handing => simpa [handing] using c
  | handLate own handing => simpa [handing] using c

/-! ## Results -/

/-- The outcome that the reader is about to deliver. -/
def delivery (p : Request × Except Fault String) : Outcome := (p.1.ticket, bridged p.2)

/-- The results are those that were settled, but for one that is in the reader's hand. -/
def Settled (h : History) (s : State) : Prop :=
  (s.resolved ++ s.reader.inHand.map delivery).Perm h.outcomes

theorem settled_new (settings : Config.Mux) : Settled [] (new settings) := .refl _

/-- A result that is settled now goes to the front of the results and to the end of the history. -/
theorem perm_settle {x : Outcome} {l m : List Outcome} (h : l.Perm m) :
    (x :: l).Perm (m ++ [x]) :=
  (h.cons x).trans (List.perm_append_singleton x m).symm

theorem perm_settle_all {l m : List Outcome} (xs : List Outcome) (h : l.Perm m) :
    (xs.reverse ++ l).Perm (m ++ xs) :=
  ((List.reverse_perm xs).append h).trans List.perm_append_comm

theorem Settled.move (c : Settled h s) (m : Move s k s') : Settled (h ++ k) s' := by
  rw [Settled] at c ⊢
  cases m with
  | aside | close | enqueue | start | write | stopWriter | hand | absorb | hear => simpa using c
  | giveUp own writing => simpa using perm_settle c
  | @drain e own =>
      have hall := perm_settle_all (s.queue.map fun r ↦ (r.ticket, .error e)) c
      simpa using hall
  | handLate own handing => simpa using perm_settle c
  | expire fifo => simpa using perm_settle c
  | hold readAt due reading terminal =>
      rw [reading] at c
      simpa using c
  | miss holding terminal =>
      rw [holding] at c
      simpa using c
  | answer due holding terminal fifo fresh =>
      rw [holding] at c
      simpa [delivery] using c.append_right _
  | deliver delaying =>
      rw [delaying] at c
      simpa [delivery] using (List.perm_append_singleton _ _).symm.trans c
  | turn reader free free' =>
      rw [Reader.inHand_of_isFree free] at c
      simpa [Reader.inHand_of_isFree free'] using c
  | @stopReader e own closed reading handoff =>
      rw [reading] at c
      have hall := perm_settle_all (s.fifo.map fun r ↦ (r.ticket, .error e)) c
      simpa using hall

/-! ## Counters -/

/-- The counters are the lengths of parts of the history. -/
structure Counted (h : History) (s : State) : Prop where
  written : s.counters.written = h.written.length
  timeouts : s.counters.timeouts = h.expired.length
  responses : s.counters.responses + s.reader.inHand.length = h.answered.length

theorem counted_new (settings : Config.Mux) : Counted [] (new settings) := ⟨rfl, rfl, rfl⟩

theorem Counted.move (c : Counted h s) (m : Move s k s') : Counted (h ++ k) s' := by
  obtain ⟨written, timeouts, responses⟩ := c
  cases m with
  | aside | close | enqueue | start | giveUp | drain | stopWriter | hand | handLate | absorb | hear =>
      exact ⟨by simpa using written, by simpa using timeouts, by simpa using responses⟩
  | write writing =>
      exact ⟨by simp [written], by simpa using timeouts, by simpa using responses⟩
  | expire fifo => exact ⟨by simpa using written, by simp [timeouts], by simpa using responses⟩
  | hold readAt due reading terminal =>
      rw [reading] at responses
      exact ⟨by simpa using written, by simpa using timeouts, by simpa using responses⟩
  | miss holding terminal =>
      rw [holding] at responses
      exact ⟨by simpa using written, by simpa using timeouts, by simpa using responses⟩
  | answer due holding terminal fifo fresh =>
      rw [holding] at responses
      exact ⟨by simpa using written, by simpa using timeouts, by simpa using responses⟩
  | deliver delaying =>
      rw [delaying] at responses
      exact ⟨by simpa using written, by simpa using timeouts, by simpa using responses⟩
  | turn reader free free' =>
      rw [Reader.inHand_of_isFree free] at responses
      exact ⟨by simpa using written, by simpa using timeouts,
        by simpa [Reader.inHand_of_isFree free'] using responses⟩
  | stopReader own closed reading handoff =>
      rw [reading] at responses
      exact ⟨by simpa using written, by simpa using timeouts, by simpa using responses⟩

/-! ## Lines -/

/-- The terminal lines are routed in the order in which they came, and the reader holds the one
that came last until then. -/
def Spent (h : History) (s : State) : Prop :=
  h.terminals.map Line.arrival ++ s.reader.pending = h.arrivals

theorem spent_new (settings : Config.Mux) : Spent [] (new settings) := rfl

theorem Spent.move (c : Spent h s) (m : Move s k s') : Spent (h ++ k) s' := by
  rw [Spent] at c ⊢
  cases m with
  | aside | close | enqueue | start | write | giveUp | drain | stopWriter | hand | handLate | absorb
  | expire | hear =>
      simpa using c
  | hold readAt due reading terminal =>
      rw [reading] at c
      simp [← c]
  | miss holding terminal =>
      rw [holding] at c
      simpa [Line.arrival] using c
  | answer due holding terminal fifo fresh =>
      rw [holding] at c
      simpa [Line.arrival] using c
  | deliver delaying =>
      rw [delaying] at c
      simpa using c
  | turn reader free free' =>
      rw [Reader.pending_of_isFree free] at c
      simpa [Reader.pending_of_isFree free'] using c
  | stopReader own closed reading handoff =>
      rw [reading] at c
      simpa using c

/-- The lines of the history were classified as raw or as terminal. -/
structure Classified (settings : Config.Mux) (h : History) (s : State) : Prop where
  unchanged : s.settings = settings
  raw : ∀ line ∈ h.heard, Modem.classifyLine line.text settings.marker = .raw
  missed : ∀ line ∈ h.missed, ∃ status,
    Modem.classifyLine line.text settings.marker = .terminal status
  answered : ∀ {r line status reply}, .answered r line status reply ∈ h →
    Modem.classifyLine line.text settings.marker = .terminal status

theorem classified_new (settings : Config.Mux) : Classified settings [] (new settings) :=
  ⟨rfl, nofun, nofun, nofun⟩

theorem Classified.move {settings : Config.Mux} (c : Classified settings h s) (m : Move s k s') :
    Classified settings (h ++ k) s' := by
  obtain ⟨rfl, raw, missed, answered⟩ := c
  cases m with
  | aside | close | enqueue | start | write | giveUp | drain | stopWriter | hand | handLate | absorb
  | expire | hold | deliver | turn | stopReader =>
      exact ⟨rfl, by simpa using raw, by simpa using missed,
        fun hmem ↦ answered (by simpa using hmem)⟩
  | hear hraw head joins =>
      refine ⟨rfl, fun line hline ↦ ?_, by simpa using missed,
        fun hmem ↦ answered (by simpa using hmem)⟩
      rw [History.heard, History.pick_append] at hline
      rcases List.mem_append.mp hline with hline | hline
      · exact raw line hline
      · obtain rfl : line = _ := by simpa using hline
        exact hraw
  | miss holding terminal =>
      refine ⟨rfl, by simpa using raw, fun line hline ↦ ?_,
        fun hmem ↦ answered (by simpa using hmem)⟩
      rw [History.missed, History.pick_append] at hline
      rcases List.mem_append.mp hline with hline | hline
      · exact missed line hline
      · obtain rfl : line = _ := by simpa using hline
        exact ⟨_, terminal⟩
  | answer due holding terminal fifo fresh =>
      refine ⟨rfl, by simpa using raw, by simpa using missed, fun {r line status reply} hmem ↦ ?_⟩
      rcases List.mem_append.mp hmem with hmem | hmem
      · exact answered hmem
      · obtain ⟨rfl, rfl, rfl, rfl⟩ := by simpa using hmem
        exact terminal

/-! ## Replies -/

/-- The texts belong to raw lines, in order, that all met the request `head`. -/
def Gleaned (h : History) (head : Option Request) (texts : List String) : Prop :=
  ∃ raws : List Line, raws.Sublist h.heard ∧ texts = raws.map Line.text ∧
    ∀ line ∈ raws, ∃ r, head = some r ∧ line.Meets r

theorem gleaned_nil (h : History) (head : Option Request) : Gleaned h head [] :=
  ⟨[], List.nil_sublist _, rfl, nofun⟩

theorem Gleaned.mono {head : Option Request} {texts : List String} (g : Gleaned h head texts)
    (k : History) : Gleaned (h ++ k) head texts := by
  obtain ⟨raws, hsub, htexts, hmeets⟩ := g
  refine ⟨raws, ?_, htexts, hmeets⟩
  rw [History.heard, History.pick_append]
  exact hsub.trans (List.sublist_append_left _ _)

/-- No line met a head that is not there. -/
theorem Gleaned.eq_nil {texts : List String} (g : Gleaned h none texts) : texts = [] := by
  obtain ⟨raws, _, rfl, hmeets⟩ := g
  cases raws with
  | nil => rfl
  | cons line raws =>
      obtain ⟨r, hhead, _⟩ := hmeets line List.mem_cons_self
      cases hhead

/-- Requests that come in behind do not change the head of the lines there are. -/
theorem Gleaned.append {fifo : List Request} {texts : List String}
    (g : Gleaned h fifo.head? texts) (handed : List Request) :
    Gleaned h (fifo ++ handed).head? texts := by
  cases fifo with
  | nil =>
      rw [g.eq_nil]
      exact gleaned_nil _ _
  | cons r later => exact g

theorem Gleaned.hear {head : Option Request} {texts : List String} {line : Line}
    (g : Gleaned h head texts) (hhead : line.head = head) {r : Request} (hmeets : line.Meets r) :
    Gleaned (h ++ [.heard line]) head (texts ++ [line.text]) := by
  obtain ⟨raws, hsub, rfl, hraws⟩ := g
  refine ⟨raws ++ [line], ?_, by simp, fun l hl ↦ ?_⟩
  · simpa using hsub.append (List.Sublist.refl [line])
  · rcases List.mem_append.mp hl with hl | hl
    · exact hraws l hl
    · obtain rfl := List.mem_singleton.mp hl
      exact ⟨r, hhead ▸ hmeets.head, hmeets⟩

/-- A reply is made of raw lines and one terminal line, all of which met its request. -/
def Quotes (h : History) (r : Request) (line : Line) (reply : String) : Prop :=
  line.Meets r ∧ ∃ texts, Gleaned h (some r) texts ∧ reply = Text.joinLines (texts ++ [line.text])

theorem Quotes.mono {r : Request} {line : Line} {reply : String} (q : Quotes h r line reply)
    (k : History) : Quotes (h ++ k) r line reply := by
  obtain ⟨hmeets, texts, hgleaned, hreply⟩ := q
  exact ⟨hmeets, texts, hgleaned.mono k, hreply⟩

/-- The reply under way and all replies so far are made of lines that met their requests. -/
structure Quoted (h : History) (s : State) : Prop where
  current : Gleaned h s.fifo.head? s.headLines
  replies : ∀ {r line status reply}, .answered r line status reply ∈ h → Quotes h r line reply

theorem quoted_new (settings : Config.Mux) : Quoted [] (new settings) :=
  ⟨gleaned_nil _ _, nofun⟩

/-- Deeds that are no answers leave the replies as they are. -/
theorem Quoted.replies_append (q : Quoted h s) (hk : k.answered = []) {r : Request} {line : Line}
    {status : Modem.Status} {reply : String} (hmem : .answered r line status reply ∈ h ++ k) :
    Quotes (h ++ k) r line reply := by
  rcases List.mem_append.mp hmem with hmem | hmem
  · exact (q.replies hmem).mono k
  · have hr : r ∈ k.answered := List.mem_filterMap.mpr ⟨_, hmem, rfl⟩
    rw [hk] at hr
    cases hr

theorem Quoted.move (q : Quoted h s) (m : Move s k s') : Quoted (h ++ k) s' := by
  have hcurrent := q.current.mono k
  cases m with
  | aside | close | enqueue | start | write | giveUp | drain | stopWriter | hand | handLate | hold
  | miss | deliver | turn =>
      exact ⟨hcurrent, q.replies_append (by simp)⟩
  | absorb runs handoff => exact ⟨hcurrent.append _, q.replies_append (by simp)⟩
  | expire fifo => exact ⟨gleaned_nil _ _, q.replies_append (by simp)⟩
  | hear raw head joins =>
      refine ⟨?_, q.replies_append (by simp)⟩
      rcases joins with rfl | ⟨rfl, r, hmeets⟩
      · exact hcurrent
      · exact q.current.hear head hmeets
  | answer due holding terminal fifo fresh =>
      refine ⟨gleaned_nil _ _, fun {r' line status' reply} hmem ↦ ?_⟩
      rcases List.mem_append.mp hmem with hmem | hmem
      · exact (q.replies hmem).mono _
      · obtain ⟨rfl, rfl, rfl, rfl⟩ := by simpa using hmem
        rw [fifo] at hcurrent
        exact ⟨⟨rfl, fresh⟩, s.headLines, hcurrent, rfl⟩
  | stopReader own closed reading handoff => exact ⟨gleaned_nil _ _, q.replies_append (by simp)⟩

/-! ## Failures -/

/-- A reply of the peripheral, as opposed to a failure of the multiplexer. -/
def IsReply (result : Except BridgeError String) : Prop :=
  (∃ text, result = .ok text) ∨ ∃ fault, result = .error (.protocol fault)

/-- A failure of the multiplexer is none that a reply could stand for. -/
def Deed.Fair : Deed → Prop
  | .refused _ e | .abandoned _ e => ∀ fault, e ≠ .protocol fault
  | _ => True

def Fair (h : History) : Prop := ∀ d ∈ h, d.Fair

theorem fair_nil : Fair [] := nofun

theorem Fair.move (f : Fair h) (m : Move s k s') : Fair (h ++ k) := by
  have hk : ∀ d ∈ k, d.Fair := by
    cases m with
    | giveUp own | handLate own =>
        intro d hd
        obtain rfl := List.mem_singleton.mp hd
        exact own
    | drain own | stopReader own =>
        intro d hd
        obtain ⟨r, -, rfl⟩ := List.mem_map.mp hd
        exact own
    | _ => simp [Deed.Fair]
  intro d hd
  rcases List.mem_append.mp hd with hd | hd
  · exact f d hd
  · exact hk d hd

/-- Only an answer settles a reply. -/
theorem Deed.Fair.answered {d : Deed} (f : d.Fair) {ticket : Nat}
    {result : Except BridgeError String} (houtcome : d.outcome? = some (ticket, result))
    (hreply : IsReply result) :
    ∃ r line status reply, d = .answered r line status reply ∧ r.ticket = ticket ∧
      result = bridged (verdict status reply) := by
  cases d with
  | refused r e | abandoned r e =>
      cases houtcome
      rcases hreply with ⟨text, htext⟩ | ⟨fault, hfault⟩
      · cases htext
      · cases hfault
        exact absurd rfl (f fault)
  | expired r =>
      cases houtcome
      rcases hreply with ⟨text, htext⟩ | ⟨fault, hfault⟩
      · cases htext
      · cases hfault
  | answered r line status reply =>
      cases houtcome
      exact ⟨r, line, status, reply, rfl, rfl, rfl⟩
  | admitted | wrote | heard | arrived | missed => cases houtcome

/-- No request is answered behind one that was abandoned. -/
def Quiet (h : History) : Prop :=
  h.Pairwise fun d d' ↦ d.abandoned? ≠ none → d'.answered? = none

theorem quiet_nil : Quiet [] := .nil

theorem Quiet.move (q : Quiet h) (o : Orderly h s) (m : Move s k s') : Quiet (h ++ k) := by
  have happend : k.answered = [] → Quiet (h ++ k) := by
    intro hk
    have hnone : ∀ d ∈ k, d.answered? = none := List.filterMap_eq_nil_iff.mp hk
    refine List.pairwise_append.mpr ⟨q, ?_, fun d _ d' hd' _ ↦ hnone d' hd'⟩
    exact List.pairwise_of_forall_mem_list fun d _ d' hd' _ ↦ hnone d' hd'
  cases m with
  | answer due holding terminal fifo fresh =>
      -- a reader that answers has not stopped, and nothing is abandoned before it stops
      have habandoned : h.abandoned = [] := by
        apply o.unabandoned
        rw [holding]
        rfl
      refine List.pairwise_append.mpr ⟨q, List.pairwise_singleton _ _, fun d hd d' _ hne ↦ ?_⟩
      exact absurd (List.filterMap_eq_nil_iff.mp habandoned d hd) hne
  | _ => exact happend (by simp)

end BleBridge.Mux
