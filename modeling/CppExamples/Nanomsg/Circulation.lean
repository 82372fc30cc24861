import CppExamples.Nanomsg.Exchange

/-!
# What the two nodes send round

A node sends one message for each call of `nn_recv`, whether this has returned a
message or has timed out.  So a timeout puts one more message into circulation,
and none ever leaves it: the messages under way, and the nodes that are about to
send, are as many as the timeouts so far (`Circulates`).

* Nothing is lost and nothing is invented: a node prints the name of the other
  one, once for every message that the other one has sent and that is no longer
  under way (`prints_names`).
* A timeout finds one of the pipes half empty.  So there are never enough
  messages to fill both pipes and stop both nodes: one of them can always go on
  (`never_stuck`).
-/

namespace CppExamples.Nanomsg

open CppExamples.Lib

namespace Node

/-- What a node has printed as received. -/
def received (w : Node) : List (List UInt8) :=
  w.console.filterMap fun l ↦ match l with
    | .received _ text => some text
    | .sending _ _ => none

variable {w w' : Node} {name text : List UInt8}

theorem received_of_received (h : w'.console = w.console ++ [.received name text]) :
    w'.received = w.received ++ [text] := by
  simp [received, h]

theorem received_of_sending (h : w'.console = w.console ++ [.sending name text]) :
    w'.received = w.received := by
  simp [received, h]

/-- `recv_name` sends nothing. -/
theorem sends_recvName {r : Received} {result : Int}
    (h : recvName name w r = some (w', result)) : w'.sends = w.sends := by
  cases r with
  | timeout =>
      cases h
      rfl
  | message bytes =>
      by_cases hne : bytes = []
      · rw [hne, recvName_empty] at h
        cases h
        rfl
      · rw [recvName_message hne] at h
        obtain ⟨text, -, hw⟩ := Option.map_eq_some_iff.mp h
        cases hw
        rfl

end Node

/-- A node that is about to send. -/
def Phase.holds : Phase → Nat
  | .recv => 0
  | .sleep | .send => 1

@[simp] theorem Phase.holds_recv : Phase.recv.holds = 0 := rfl

@[simp] theorem Phase.holds_sleep : Phase.sleep.holds = 1 := rfl

@[simp] theorem Phase.holds_send : Phase.send.holds = 1 := rfl

theorem Phase.holds_le (p : Phase) : p.holds ≤ 1 := by cases p <;> decide

namespace Exchange

/-- The messages that a node has sent and that are still under way, and the one
that it is about to send. -/
def share (w : Exchange) (i : NodeId) : Nat := (w.pipe i).contents.length + (w.phase i).holds

/-- The messages in circulation. -/
def circulating (w : Exchange) : Nat := w.share .node0 + w.share .node1

theorem circulating_eq (w : Exchange) (i : NodeId) :
    w.circulating = w.share i + w.share i.other := by
  cases i
  · rfl
  · exact Nat.add_comm _ _

/-- What a node has printed and what is under way to it. -/
structure Prints (w : Exchange) (i : NodeId) : Prop where
  freed : (w.node i).AllFreed
  received : ∀ text ∈ (w.node i).received, text = i.other.name
  sends : ∀ m ∈ (w.node i).sends, m = i.name ++ [0]
  underWay : ∀ m ∈ (w.pipe i).contents, m = i.name ++ [0]
  count : (w.node i.other).received.length + (w.pipe i).contents.length = (w.node i).sends.length

/-- The invariant of the two nodes. -/
structure Circulates (sendSize recvSize : Nat) (w : Exchange) : Prop where
  prints : ∀ i, w.Prints i
  fits : ∀ i, (w.pipe i).Fits sendSize recvSize
  circulating : w.circulating = w.timeouts
  few : w.timeouts ≤ 2 * sendSize + recvSize + 2

variable {sendSize recvSize : Nat} {w w' : Exchange} {i : NodeId}

theorem circulates_start : start.Circulates sendSize recvSize where
  prints i := ⟨Node.allFreed_start, by simp [start, Node.received, Node.start],
    by simp [start, Node.start], by simp [start], by simp [start, Node.received, Node.start]⟩
  fits _ := Pipe.fits_empty
  circulating := rfl
  few := Nat.zero_le _

/-- `nn_recv` returns a message, and `recv_name` prints it. -/
theorem Circulates.exists_recv (h : w.Circulates sendSize recvSize)
    (he : w.enabled sendSize recvSize (.recv i) = true) : ∃ ms node,
      (w.pipe i.other).contents = (i.other.name ++ [0]) :: ms ∧
      (w.pipe i.other).take.contents = ms ∧
      w.step (.recv i) = some
        { w with
          node := Function.update w.node i node
          phase := Function.update w.phase i .sleep
          pipe := Function.update w.pipe i.other (w.pipe i.other).take } ∧
      node.AllFreed ∧ node.received = (w.node i).received ++ [i.other.name] ∧
      node.sends = (w.node i).sends := by
  simp only [enabled, Bool.and_eq_true, decide_eq_true_eq] at he
  obtain ⟨m, ms, ha⟩ := List.exists_cons_of_ne_nil he.2
  have hcontents := Pipe.contents_take ha
  obtain rfl : m = i.other.name ++ [0] :=
    (h.prints i.other).underWay m (hcontents ▸ List.mem_cons_self ..)
  have h0 : 0 ∈ i.other.name ++ [0] := List.mem_append_right _ (List.mem_singleton_self _)
  obtain ⟨node, hnode, hfreed, hconsole⟩ := Node.recvName_of_mem i.name (h.prints i).freed h0
  refine ⟨_, node, hcontents, rfl, ?_, hfreed, ?_, Node.sends_recvName hnode⟩
  · simp only [step, ha, received, setPipe, hnode, Option.map_some]
  · rw [Node.received_of_received hconsole, cstr_append_zero i.other.zero_not_mem_name]

theorem Circulates.recv (h : w.Circulates sendSize recvSize)
    (he : w.enabled sendSize recvSize (.recv i) = true) (hs : w.step (.recv i) = some w') :
    w'.Circulates sendSize recvSize := by
  obtain ⟨ms, node, hcontents, htake, hstep, hfreed, hreceived, hsends⟩ := h.exists_recv he
  rw [hstep, Option.some.injEq] at hs
  subst hs
  have hphase : w.phase i = .recv := by
    simp only [enabled, Bool.and_eq_true, decide_eq_true_eq] at he
    exact he.1
  have hne := i.other_ne
  have hi := h.prints i
  have ho := h.prints i.other
  refine ⟨fun k ↦ ?_, fun k ↦ ?_, ?_, h.few⟩
  · rcases i.eq_or_eq_other k with rfl | rfl
    · refine ⟨?_, ?_, ?_, ?_, ?_⟩
      · simpa using hfreed
      · simpa [hreceived] using fun text ht ↦ ht.elim (hi.received text) id
      · simpa [hsends] using hi.sends
      · simpa [Ne.symm hne] using hi.underWay
      · simpa [hne, Ne.symm hne, hsends] using hi.count
    · refine ⟨?_, ?_, ?_, ?_, ?_⟩
      · simpa [hne] using ho.freed
      · simpa [hne] using ho.received
      · simpa [hne] using ho.sends
      · simpa [htake] using fun m hm ↦ ho.underWay m (hcontents ▸ List.mem_cons_of_mem _ hm)
      · have hcount := ho.count
        rw [NodeId.other_other, hcontents, List.length_cons] at hcount
        simp only [NodeId.other_other, Function.update_self, Function.update_of_ne hne, htake,
          hreceived, List.length_append, List.length_singleton]
        omega
  · rcases i.eq_or_eq_other k with rfl | rfl
    · simpa [Ne.symm hne] using h.fits k
    · simpa using (h.fits i.other).take
  · have hcirc := h.circulating
    rw [circulating_eq _ i] at hcirc ⊢
    simp only [share, hphase, Phase.holds_recv, hcontents, List.length_cons] at hcirc
    simp only [share, Function.update_self, Function.update_of_ne hne,
      Function.update_of_ne (Ne.symm hne), htake, Phase.holds_sleep]
    omega

theorem Circulates.timeout (h : w.Circulates sendSize recvSize)
    (he : w.enabled sendSize recvSize (.timeout i) = true) (hs : w.step (.timeout i) = some w') :
    w'.Circulates sendSize recvSize := by
  simp only [enabled, Bool.and_eq_true, decide_eq_true_eq] at he
  obtain ⟨hphase, ha⟩ := he
  have hw : w' = { w with
      node := Function.update w.node i (w.node i)
      phase := Function.update w.phase i .sleep
      timeouts := w.timeouts + 1 } := by
    cases hs
    rfl
  rw [Function.update_eq_self] at hw
  subst hw
  have hne := i.other_ne
  have hcirc := h.circulating
  rw [circulating_eq _ i] at hcirc
  simp only [share, hphase, Phase.holds_recv] at hcirc
  refine ⟨fun k ↦ ⟨(h.prints k).freed, (h.prints k).received, (h.prints k).sends,
    (h.prints k).underWay, (h.prints k).count⟩, h.fits, ?_, ?_⟩
  · rw [circulating_eq _ i]
    simp only [share, Function.update_self, Function.update_of_ne hne, Phase.holds_sleep]
    omega
  · -- nothing has arrived at this node, so that the pipe to it is half empty
    have hle := (h.fits i.other).length_contents_le ha
    have hle' := (h.fits i).length_le
    have hholds := (w.phase i.other).holds_le
    simp only
    omega

theorem Circulates.wake (h : w.Circulates sendSize recvSize)
    (he : w.enabled sendSize recvSize (.wake i) = true) (hs : w.step (.wake i) = some w') :
    w'.Circulates sendSize recvSize := by
  have hphase : w.phase i = .sleep := of_decide_eq_true he
  cases hs
  have hne := i.other_ne
  have hreceived (k : NodeId) : ((w.printSending i).node k).received = (w.node k).received := by
    rcases i.eq_or_eq_other k with rfl | rfl
    · rw [node_printSending_self]
      exact Node.received_of_sending rfl
    · rw [node_printSending_of_ne hne]
  have hsends (k : NodeId) : ((w.printSending i).node k).sends = (w.node k).sends := by
    rcases i.eq_or_eq_other k with rfl | rfl
    · rw [node_printSending_self, Node.print]
    · rw [node_printSending_of_ne hne]
  refine ⟨fun k ↦ ⟨?_, ?_, ?_, (h.prints k).underWay, ?_⟩, h.fits, ?_, h.few⟩
  · rcases i.eq_or_eq_other k with rfl | rfl
    · rw [node_printSending_self]
      exact (h.prints k).freed
    · rw [node_printSending_of_ne hne]
      exact (h.prints _).freed
  · rw [hreceived]
    exact (h.prints k).received
  · rw [hsends]
    exact (h.prints k).sends
  · rw [hreceived, hsends]
    exact (h.prints k).count
  · have hcirc := h.circulating
    rw [circulating_eq _ i] at hcirc ⊢
    simp only [share, hphase, Phase.holds_sleep] at hcirc
    simp only [share, printSending, Function.update_self, Function.update_of_ne hne,
      Phase.holds_send]
    omega

theorem Circulates.send (h : w.Circulates sendSize recvSize)
    (he : w.enabled sendSize recvSize (.send i) = true) (hs : w.step (.send i) = some w') :
    w'.Circulates sendSize recvSize := by
  simp only [enabled, Bool.and_eq_true, decide_eq_true_eq] at he
  obtain ⟨hphase, hroom⟩ := he
  cases hs
  have hne := i.other_ne
  have hi := h.prints i
  have ho := h.prints i.other
  refine ⟨fun k ↦ ?_, fun k ↦ ?_, ?_, h.few⟩
  · rcases i.eq_or_eq_other k with rfl | rfl
    · refine ⟨?_, ?_, ?_, ?_, ?_⟩
      · simp only [nnSend, Function.update_self]
        exact hi.freed
      · simpa [nnSend, Node.received] using hi.received
      · simpa [nnSend] using fun m hm ↦ hm.elim (hi.sends m) id
      · simpa [nnSend] using fun m hm ↦ hm.elim (hi.underWay m) id
      · have hcount := hi.count
        simp only [nnSend, Function.update_self, Function.update_of_ne hne, Pipe.contents_put,
          List.length_append, List.length_singleton]
        omega
    · refine ⟨?_, ?_, ?_, ?_, ?_⟩
      · simpa [nnSend, hne] using ho.freed
      · simpa [nnSend, hne] using ho.received
      · simpa [nnSend, hne] using ho.sends
      · simpa [nnSend, hne] using ho.underWay
      · simpa [nnSend, hne, Node.received] using ho.count
  · rcases i.eq_or_eq_other k with rfl | rfl
    · simpa [nnSend] using (h.fits k).put hroom
    · simpa [nnSend, hne] using h.fits i.other
  · have hcirc := h.circulating
    rw [circulating_eq _ i] at hcirc ⊢
    simp only [share, hphase, Phase.holds_send] at hcirc
    simp only [share, nnSend, Function.update_self, Function.update_of_ne hne, Pipe.contents_put,
      List.length_append, List.length_singleton, Phase.holds_recv]
    omega

theorem Circulates.move (h : w.Circulates sendSize recvSize)
    (he : w.enabled sendSize recvSize (.move i) = true) (hs : w.step (.move i) = some w') :
    w'.Circulates sendSize recvSize := by
  cases hs
  have hne := i.other_ne
  have hcontents (k : NodeId) :
      ((w.setPipe i (w.pipe i).move).pipe k).contents = (w.pipe k).contents := by
    rcases i.eq_or_eq_other k with rfl | rfl
    · rw [pipe_setPipe_self, Pipe.contents_move]
    · rw [pipe_setPipe_of_ne hne]
  refine ⟨fun k ↦ ⟨(h.prints k).freed, (h.prints k).received, (h.prints k).sends, ?_, ?_⟩,
    fun k ↦ ?_, ?_, h.few⟩
  · rw [hcontents]
    exact (h.prints k).underWay
  · rw [hcontents]
    exact (h.prints k).count
  · rcases i.eq_or_eq_other k with rfl | rfl
    · rw [pipe_setPipe_self]
      exact (h.fits k).move he
    · rw [pipe_setPipe_of_ne hne]
      exact h.fits _
  · have hshare (k : NodeId) : (w.setPipe i (w.pipe i).move).share k = w.share k := by
      rw [share, share, hcontents]
      rfl
    rw [Exchange.circulating, hshare, hshare]
    exact h.circulating

/-- **The invariant step.** -/
theorem Circulates.step (h : w.Circulates sendSize recvSize) {e : ExchangeEvent}
    (he : w.enabled sendSize recvSize e = true) (hs : w.step e = some w') :
    w'.Circulates sendSize recvSize := by
  cases e with
  | recv i => exact h.recv he hs
  | timeout i => exact h.timeout he hs
  | wake i => exact h.wake he hs
  | send i => exact h.send he hs
  | move i => exact h.move he hs

theorem circulates_of_reachable (h : (system sendSize recvSize).Reachable Always w) :
    w.Circulates sendSize recvSize := by
  refine h.invariant (I := Circulates sendSize recvSize) ?_ fun s e s' _ hi he _ hs ↦ hi.step he hs
  rintro _ rfl
  exact circulates_start

/-- **Every message is printed once.**  In every state of every run, a node has
printed the name of the other one and nothing else, as often as the other one has
sent it, less the messages that are still under way; what it sends is its name
with the NUL; and it has freed the buffer of every message. -/
theorem prints_names (h : (system sendSize recvSize).Reachable Always w) (i : NodeId) :
    (∀ text ∈ (w.node i).received, text = i.other.name) ∧
      (w.node i).received.length + (w.pipe i.other).contents.length =
        (w.node i.other).sends.length ∧
      (∀ m ∈ (w.node i).sends, m = i.name ++ [0]) ∧ (w.node i).AllFreed := by
  have hprints := (circulates_of_reachable h).prints
  have hcount := (hprints i.other).count
  rw [NodeId.other_other] at hcount
  exact ⟨(hprints i).received, hcount, (hprints i).sends, (hprints i).freed⟩

/-- One timeout, and the name of `node0` comes back as that of `node1`. -/
theorem prints_names_once : ∃ w : Exchange, (w.node .node0).console =
    [.sending NodeId.node0.name NodeId.node0.name,
      .received NodeId.node0.name NodeId.node1.name] ∧
    (∀ text ∈ (w.node .node0).received, text = NodeId.node0.other.name) ∧
      (w.node .node0).received.length + (w.pipe NodeId.node0.other).contents.length =
        (w.node NodeId.node0.other).sends.length ∧
      (∀ m ∈ (w.node .node0).sends, m = NodeId.node0.name ++ [0]) ∧
        (w.node .node0).AllFreed := by
  obtain ⟨w, hw, hconsole⟩ : ∃ w, (system 1 1).Reachable Always w ∧ (w.node .node0).console =
      [.sending NodeId.node0.name NodeId.node0.name,
        .received NodeId.node0.name NodeId.node1.name] :=
    System.always_of_exec (.init rfl)
      [.timeout .node0, .wake .node0, .send .node0, .move .node0, .recv .node1, .wake .node1,
        .send .node1, .move .node1, .recv .node0] (by decide)
  exact ⟨w, hconsole, prints_names hw .node0⟩

/-! ## Going on -/

/-- No call has undefined behaviour. -/
theorem Circulates.exists_step (h : w.Circulates sendSize recvSize) {e : ExchangeEvent}
    (he : w.enabled sendSize recvSize e = true) : ∃ w', w.step e = some w' := by
  cases e with
  | recv i =>
      obtain ⟨ms, node, -, -, hstep, -⟩ := h.exists_recv he
      exact ⟨_, hstep⟩
  | timeout i => exact ⟨_, rfl⟩
  | wake i => exact ⟨_, rfl⟩
  | send i => exact ⟨_, rfl⟩
  | move i => exact ⟨_, rfl⟩

/-- A node that cannot go on is in `nn_send`, and the pipe to the other one is full. -/
theorem Circulates.share_eq (h : w.Circulates sendSize recvSize) (hs : 0 < sendSize)
    (hno : ∀ e, w.enabled sendSize recvSize e = false) (i : NodeId) :
    w.share i = sendSize + recvSize + 1 := by
  cases hphase : w.phase i with
  | recv =>
      by_cases ha : (w.pipe i.other).arrived = []
      · have := hno (.timeout i)
        simp [enabled, hphase, ha] at this
      · have := hno (.recv i)
        simp [enabled, hphase, ha] at this
  | sleep =>
      have := hno (.wake i)
      simp [enabled, hphase] at this
  | send =>
      have hroom : (w.pipe i).hasRoom sendSize = false := by
        simpa [enabled, hphase] using hno (.send i)
      rw [share, hphase, Phase.holds_send, (h.fits i).length_contents hs hroom (hno (.move i))]

/-- Before the first timeout nothing has happened. -/
theorem eq_start_of_timeouts (h : (system sendSize recvSize).Reachable Always w)
    (h0 : w.timeouts = 0) : w = start := by
  induction h with
  | init hi => exact hi
  | @step w w' e _ he _ hs ih =>
      have he' : w.enabled sendSize recvSize e = true := he
      cases e with
      | timeout i =>
          cases hs
          cases h0
      | recv i =>
          have hw : w = start := ih (by
            simp only [system, Exchange.step] at hs
            split at hs
            · obtain ⟨p, -, rfl⟩ := Option.map_eq_some_iff.mp hs
              exact h0
            · cases hs)
          subst hw
          cases he'
      | wake i =>
          cases hs
          obtain rfl : w = start := ih h0
          cases he'
      | send i =>
          cases hs
          obtain rfl : w = start := ih h0
          cases he'
      | move i =>
          cases hs
          obtain rfl : w = start := ih h0
          cases he'

/-- **The two nodes never stop each other**, if there is room for a message at
both ends.  The messages in circulation are as many as the timeouts so far; nothing
happens before the first one, and in the whole run there are no more than
`2 * sendSize + recvSize + 2` of them. -/
theorem never_stuck (hs : 0 < sendSize) (hr : 0 < recvSize)
    (h : (system sendSize recvSize).Reachable Always w) :
    (∃ e w', w.enabled sendSize recvSize e = true ∧ w.step e = some w') ∧
      w.circulating = w.timeouts ∧ w.timeouts ≤ 2 * sendSize + recvSize + 2 ∧
      (w.timeouts = 0 → w = start) := by
  have hcirc := circulates_of_reachable h
  refine ⟨?_, hcirc.circulating, hcirc.few, eq_start_of_timeouts h⟩
  by_contra hstuck
  have hno (e : ExchangeEvent) : w.enabled sendSize recvSize e = false := by
    rw [← Bool.not_eq_true]
    intro he
    obtain ⟨w', hw'⟩ := hcirc.exists_step he
    exact hstuck ⟨e, w', he, hw'⟩
  -- both nodes would be in `nn_send`, and both pipes full
  have hcount := hcirc.circulating
  rw [circulating, hcirc.share_eq hs hno, hcirc.share_eq hs hno] at hcount
  have := hcirc.few
  omega

/-- With room for one message at each end there can be five timeouts. -/
theorem never_stuck_five : ∃ w : Exchange, w.timeouts = 5 ∧
    (∃ e w', w.enabled 1 1 e = true ∧ w.step e = some w') ∧
      w.circulating = w.timeouts ∧ w.timeouts ≤ 2 * 1 + 1 + 2 ∧
      (w.timeouts = 0 → w = start) := by
  obtain ⟨w, hw, hfive⟩ : ∃ w, (system 1 1).Reachable Always w ∧ w.timeouts = 5 :=
    System.always_of_exec (.init rfl)
      [.timeout .node0, .wake .node0, .send .node0, .timeout .node0, .wake .node0,
        .timeout .node1, .wake .node1, .send .node1, .timeout .node1, .wake .node1,
        .move .node0, .send .node0, .timeout .node0] (by decide)
  exact ⟨w, hfive, never_stuck (by decide) (by decide) hw⟩

end Exchange

end CppExamples.Nanomsg
