import CppExamples.AsyncUdp.Server

/-!
# One operation at a time

What the echo server is for, as an automaton over the operations it starts and
the handlers that run (`Phase.next`): it listens; a datagram that is received
has to be answered, to its source, before it listens again; a failed or empty
receive is followed by the next receive.  What counts as an answer is a
parameter `ok`: an answer of the right length in this file, the very bytes in
the next one.

The server follows the automaton because it has exactly one outstanding
operation in every reachable state.  `Turn` lists what can happen to a server
with one outstanding operation, and `turn_of_step` is the only place that
unfolds the handlers.
-/

namespace CppExamples.AsyncUdp

open CppExamples.Lib

/-! ## The protocol -/

/-- What is expected of an echo server next. -/
inductive Phase where
  | /-- It has to start a receive. -/
    idle
  | /-- A receive is outstanding. -/
    listening
  | /-- A datagram has been received and has to be answered. -/
    answering (d : Datagram)
  | /-- The answer is being sent. -/
    replying
deriving DecidableEq

/-- The automaton; `ok d payload` accepts `payload` as an answer to `d`. -/
def Phase.next (ok : Datagram → List UInt8 → Bool) : Phase → Action → Option Phase
  | .idle, .asyncReceiveFrom => some .listening
  | .listening, .handleReceiveFrom none => some .idle
  | .listening, .handleReceiveFrom (some d) =>
      some (if d.bytes = [] then .idle else .answering d)
  | .answering d, .asyncSendTo payload dest =>
      if dest = d.source ∧ ok d payload then some .replying else none
  | .replying, .handleSendTo _ => some .idle
  | _, _ => none

/-- The phase that a sequence of actions leads to, if it follows the automaton. -/
def Phase.after (ok : Datagram → List UInt8 → Bool) (actions : List Action) : Option Phase :=
  actions.foldlM (Phase.next ok) .idle

theorem Phase.after_append {ok : Datagram → List UInt8 → Bool} {l₁ l₂ : List Action} {q : Phase}
    (h : after ok l₁ = some q) : after ok (l₁ ++ l₂) = l₂.foldlM (next ok) q := by
  rw [after, List.foldlM_append]
  exact congrArg (Option.bind · fun r ↦ l₂.foldlM (next ok) r) h

/-- The phase a server is in while an operation is outstanding. -/
def Operation.phase : Operation → Phase
  | .receive _ => .listening
  | .send _ _ => .replying

/-- An answer of as many bytes as were received. -/
def sameLength (d : Datagram) (payload : List UInt8) : Bool :=
  payload.length = d.received.length

namespace Server

/-! ## The steps of a server with one outstanding operation -/

variable {s s' : Server} {p : Oversize}

/-- What can happen while one operation is outstanding. -/
inductive Turn (p : Oversize) (s s' : Server) : ServerEvent → Prop where
  | /-- The receive stores a datagram. -/
    arrive (d : Datagram) (hp : s.pending = [.receive none])
      (hp' : s'.pending = [.receive (some d)]) (hs : s'.senderEndpoint = d.source)
      (hd : s'.data = s.data.store d.bytes) (ha : s'.actions = s.actions) :
      Turn p s s' (.arrive 0 d)
  | /-- The receive fails. -/
    failed (stored : Option Datagram) (hp : s.pending = [.receive stored])
      (hp' : s'.pending = [.receive none])
      (ha : s'.actions = s.actions ++ [.handleReceiveFrom none, .asyncReceiveFrom]) :
      Turn p s s' (.receiveDone 0 true)
  | /-- The receive succeeds with an empty datagram. -/
    empty (d : Datagram) (hp : s.pending = [.receive (some d)]) (he : d.bytes = [])
      (hp' : s'.pending = [.receive none])
      (ha : s'.actions = s.actions ++ [.handleReceiveFrom (some d), .asyncReceiveFrom]) :
      Turn p s s' (.receiveDone 0 false)
  | /-- The receive succeeds with a datagram that is not empty. -/
    echo (d : Datagram) (payload : List UInt8) (hp : s.pending = [.receive (some d)])
      (hv : p.delivers d = true) (he : d.bytes ≠ [])
      (hl : payload = s.data.bytes.take d.received.length)
      (hp' : s'.pending = [.send payload s.senderEndpoint])
      (ha : s'.actions =
        s.actions ++ [.handleReceiveFrom (some d), .asyncSendTo payload s.senderEndpoint]) :
      Turn p s s' (.receiveDone 0 false)
  | /-- The send completes, and nothing is stored before its handler returns. -/
    sent (payload : List UInt8) (dest : Endpoint) (error : Bool)
      (hp : s.pending = [.send payload dest]) (hp' : s'.pending = [.receive none])
      (ha : s'.actions = s.actions ++ [.handleSendTo error, .asyncReceiveFrom]) :
      Turn p s s' (.sendDone 0 error [])
  | /-- The send completes, and a datagram is stored before its handler returns. -/
    overtaken (payload : List UInt8) (dest : Endpoint) (error : Bool) (d : Datagram)
      (hp : s.pending = [.send payload dest]) (hp' : s'.pending = [.receive (some d)])
      (hs : s'.senderEndpoint = d.source) (hd : s'.data = Buffer.fill _ 0)
      (ha : s'.actions = s.actions ++ [.handleSendTo error, .asyncReceiveFrom]) :
      Turn p s s' (.sendDone 0 error [(0, d)])

/-- The only outstanding operation is the one at index `0`. -/
theorem getElem?_of_pending {op op' : Operation} {i : Nat} (hp : s.pending = [op])
    (h : s.pending[i]? = some op') : i = 0 ∧ op' = op := by
  rw [hp, List.getElem?_singleton] at h
  split at h
  · exact ⟨‹_›, (Option.some.inj h).symm⟩
  · cases h

theorem received_eq_nil {d : Datagram} : d.received = [] ↔ d.bytes = [] := by
  simp [Datagram.received, UdpServer.maxLength]

/-- Of the one receive that `handle_send_to` starts, at most one datagram can
come before the handler returns. -/
theorem canStoreAll_iff {during : List (Nat × Datagram)} (hp : s.pending = [.receive none]) :
    s.canStoreAll during = true ↔ during = [] ∨ ∃ d, during = [(0, d)] := by
  have hfree : ∀ i, s.canStore i = true ↔ i = 0 := fun i ↦ by
    rw [canStore, decide_eq_true_iff, hp, List.getElem?_singleton]
    split <;> simp_all
  have hfull : ∀ i d, (s.arrive 0 d).canStore i = false := fun i d ↦ by
    rw [canStore, decide_eq_false_iff_not, arrive, hp, List.set_cons_zero,
      List.getElem?_singleton]
    split <;> simp
  cases during with
  | nil => simp [canStoreAll]
  | cons a ds =>
      obtain ⟨i, d⟩ := a
      simp only [canStoreAll, Bool.and_eq_true, hfree]
      constructor
      · rintro ⟨rfl, hrest⟩
        cases ds with
        | nil => exact .inr ⟨d, rfl⟩
        | cons b ds => simp [canStoreAll, hfull] at hrest
      · rintro (h | ⟨d', h⟩)
        · cases h
        · cases h
          exact ⟨rfl, rfl⟩

/-- **Every step of a server with one outstanding operation is a turn.** -/
theorem turn_of_step {op : Operation} (hp : s.pending = [op]) {e : ServerEvent}
    (he : s.enabled p e = true) (hs : s.step e = some s') : Turn p s s' e := by
  cases e with
  | arrive i d =>
      cases hs
      obtain ⟨rfl, rfl⟩ := getElem?_of_pending hp (of_decide_eq_true he)
      exact .arrive d hp (by simp [Server.arrive, hp]) rfl rfl rfl
  | receiveDone i error =>
      simp only [enabled, step] at he hs
      split at hs
      · rename_i stored hi
        obtain ⟨rfl, rfl⟩ := getElem?_of_pending hp hi
        cases error with
        | true =>
            cases hs
            exact .failed stored hp (by simp [hp, handleReceiveFrom, asyncReceiveFrom, record])
              (by simp [handleReceiveFrom, asyncReceiveFrom, record])
        | false =>
            rw [hi] at he
            obtain ⟨d, rfl, hv⟩ := (Option.any_eq_true _ _).mp (by simpa using he)
            by_cases hb : d.bytes = []
            · cases hs
              have hz : d.received = [] := received_eq_nil.mpr hb
              exact .empty d hp hb
                (by simp [hp, hz, handleReceiveFrom, asyncReceiveFrom, record, bytesTransferred])
                (by simp [hz, handleReceiveFrom, asyncReceiveFrom, record, bytesTransferred])
            · cases hs
              have hz : 0 < d.received.length :=
                List.length_pos_iff.mpr fun h ↦ hb (received_eq_nil.mp h)
              exact .echo d _ hp hv hb rfl
                (by simp [hp, hz, handleReceiveFrom, asyncSendTo, record, print, bytesTransferred])
                (by simp [hz, handleReceiveFrom, asyncSendTo, record, print, bytesTransferred])
      · cases hs
  | sendDone i error during =>
      simp only [enabled, step] at he hs
      split at hs
      · rename_i payload dest hi
        obtain ⟨rfl, rfl⟩ := getElem?_of_pending hp hi
        rw [hi] at he
        cases hs
        rcases (canStoreAll_iff (by simp [hp, asyncReceiveFrom, record])).mp he with
          rfl | ⟨d, rfl⟩
        · exact .sent payload dest error hp
            (by simp [hp, handleSendTo, arriveAll, asyncReceiveFrom, record, clear])
            (by simp [handleSendTo, arriveAll, asyncReceiveFrom, record, clear])
        · exact .overtaken payload dest error d hp
            (by simp [hp, handleSendTo, arriveAll, Server.arrive, asyncReceiveFrom, record, clear])
            rfl rfl
            (by simp [handleSendTo, arriveAll, Server.arrive, asyncReceiveFrom, record, clear])
      · cases hs

/-! ## The invariant -/

/-- One operation is outstanding, the run so far follows the automaton into its
phase, and if the operation is a receive that has stored a datagram, then the
buffer and the endpoint hold an answer to it. -/
structure Serving (ok : Datagram → List UInt8 → Bool) (s : Server) (op : Operation) : Prop where
  pending : s.pending = [op]
  after : Phase.after ok s.actions = some op.phase
  ready : ∀ d, op = .receive (some d) → s.senderEndpoint = d.source ∧
    ok d (s.data.bytes.take d.received.length) = true

/-- What an event stores, and leaves in the buffer, is an answer. -/
def Keeps (ok : Datagram → List UInt8 → Bool) : ServerEvent → Prop
  | .arrive _ d => ok d d.received = true
  | .sendDone _ _ during =>
      ∀ a ∈ during, ok a.2 (List.replicate a.2.received.length 0) = true
  | .receiveDone _ _ => True

variable {ok : Datagram → List UInt8 → Bool} {op : Operation}

theorem length_received_le (d : Datagram) : d.received.length ≤ UdpServer.maxLength := by
  simp [Datagram.received]

/-- The front of the buffer after a datagram has been stored. -/
theorem take_store_received (b : Buffer UdpServer.maxLength) (d : Datagram) :
    (b.store d.bytes).bytes.take d.received.length = d.received := by
  rw [Buffer.bytes_store]
  exact List.take_left

/-- **The invariant step**: the server serves on as long as the buffer keeps an
answer. -/
theorem Serving.step (h : s.Serving ok op) {e : ServerEvent} (he : s.enabled p e = true)
    (hk : Keeps ok e) (hs : s.step e = some s') : ∃ op', s'.Serving ok op' := by
  have hlisten {stored} (hp : s.pending = [.receive stored]) :
      Phase.after ok s.actions = some .listening := by
    rw [h.after, (List.cons.inj (h.pending.symm.trans hp)).1]
    rfl
  have hreply {payload dest} (hp : s.pending = [.send payload dest]) :
      Phase.after ok s.actions = some .replying := by
    rw [h.after, (List.cons.inj (h.pending.symm.trans hp)).1]
    rfl
  cases turn_of_step h.pending he hs with
  | arrive d hp hp' hs' hd ha =>
      refine ⟨_, hp', ha ▸ hlisten hp, fun d' hd' ↦ ?_⟩
      cases hd'
      exact ⟨hs', by rw [hd, take_store_received]; exact hk⟩
  | failed stored hp hp' ha =>
      exact ⟨_, hp', by rw [ha, Phase.after_append (hlisten hp)]; rfl, nofun⟩
  | empty d hp hb hp' ha =>
      refine ⟨_, hp', ?_, nofun⟩
      rw [ha, Phase.after_append (hlisten hp)]
      simp [Phase.next, hb, Operation.phase]
  | echo d payload hp hv hb hl hp' ha =>
      obtain ⟨hsrc, hok⟩ := h.ready d (List.cons.inj (h.pending.symm.trans hp)).1
      refine ⟨_, hp', ?_, nofun⟩
      rw [ha, Phase.after_append (hlisten hp)]
      simp [Phase.next, hb, hsrc, hl, hok, Operation.phase]
  | sent payload dest error hp hp' ha =>
      exact ⟨_, hp', by rw [ha, Phase.after_append (hreply hp)]; rfl, nofun⟩
  | overtaken payload dest error d hp hp' hs' hd ha =>
      refine ⟨_, hp', by rw [ha, Phase.after_append (hreply hp)]; rfl, fun d' hd' ↦ ?_⟩
      cases hd'
      refine ⟨hs', ?_⟩
      rw [hd, Buffer.take_fill (length_received_le d)]
      exact hk (0, d) (by simp)

theorem serving_udpServer (uninit : Buffer UdpServer.maxLength) :
    (udpServer uninit).Serving ok (.receive none) := ⟨rfl, rfl, nofun⟩

/-- The server serves along every run whose events leave answers in the buffer. -/
theorem serving_of_keeps {G : Server → ServerEvent → Prop} (hG : ∀ s e, G s e → Keeps ok e)
    (h : (system p).Reachable G s) : ∃ op, s.Serving ok op := by
  refine h.invariant (I := fun s ↦ ∃ op, s.Serving ok op) ?_ ?_
  · rintro _ ⟨uninit, rfl⟩
    exact ⟨_, serving_udpServer uninit⟩
  · rintro s e s' - ⟨op, hi⟩ he hg hs
    exact hi.step he (hG s e hg) hs

/-! ## What the automaton means -/

end Server

/-- The receives that have to be answered, as the number of bytes and the source. -/
def Action.due : Action → Option (Nat × Endpoint)
  | .handleReceiveFrom (some d) =>
      if d.bytes = [] then none else some (d.received.length, d.source)
  | _ => none

/-- The sends, as the number of bytes and the destination. -/
def Action.sent : Action → Option (Nat × Endpoint)
  | .asyncSendTo payload dest => some (payload.length, dest)
  | _ => none

/-- The answer that has not been started yet. -/
def Phase.due : Phase → Option (Nat × Endpoint)
  | .answering d => some (d.received.length, d.source)
  | _ => none

/-- One action of the automaton: what was due and what comes due is what is sent
and what stays due. -/
theorem Phase.due_next {q r : Phase} {a : Action} (h : Phase.next sameLength q a = some r) :
    q.due.toList ++ a.due.toList = a.sent.toList ++ r.due.toList := by
  unfold next at h
  split at h
  · cases h; rfl
  · cases h; rfl
  · rename_i d
    cases h
    by_cases hb : d.bytes = [] <;> simp [Phase.due, Action.due, Action.sent, hb]
  · rename_i d payload dest
    split at h
    · rename_i hd
      cases h
      simp [Phase.due, Action.due, Action.sent, hd.1, of_decide_eq_true hd.2]
    · cases h
  · cases h; rfl
  · cases h

/-- The sends of a run are the answers to its receives, in the same order, up to
the one that is due next. -/
theorem Phase.due_after {actions : List Action} {q : Phase}
    (h : Phase.after sameLength actions = some q) :
    actions.filterMap Action.due = actions.filterMap Action.sent ++ q.due.toList := by
  induction actions using List.reverseRecOn generalizing q with
  | nil => cases h; rfl
  | append_singleton l a ih =>
      rw [after, List.foldlM_append] at h
      obtain ⟨r, hr, hn⟩ := Option.bind_eq_some_iff.mp h
      have hq : next sameLength r a = some q := by simpa using hn
      have hone {f : Action → Option (Nat × Endpoint)} : [a].filterMap f = (f a).toList := by
        cases hf : f a <;> simp [hf]
      rw [List.filterMap_append, List.filterMap_append, hone, hone, ih hr, List.append_assoc,
        List.append_assoc, due_next hq]

namespace Server

/-- Whatever is stored, an answer of the same length is left. -/
theorem keeps_sameLength (e : ServerEvent) : Keeps sameLength e := by
  cases e <;> simp [Keeps, sameLength]

/-- **The server never goes deaf and never mixes up its clients.**  In every
reachable state exactly one operation is outstanding, the run so far follows the
automaton into the phase of that operation, and the sends so far are exactly the
answers to the successful receives of datagrams that are not empty: as many
bytes, to the same endpoint, in the same order. -/
theorem serving_of_reachable {s : Server} {p : Oversize} (h : (system p).Reachable Always s) :
    ∃ op, s.pending = [op] ∧ Phase.after sameLength s.actions = some op.phase ∧
      s.actions.filterMap Action.sent = s.actions.filterMap Action.due := by
  obtain ⟨op, hs⟩ := serving_of_keeps (fun _ e _ ↦ keeps_sameLength e) h
  refine ⟨op, hs.pending, hs.after, ?_⟩
  rw [Phase.due_after hs.after]
  cases op <;> simp [Operation.phase, Phase.due]

/-- The requests of two clients are echoed; between them an empty datagram arrives,
and a receive fails. -/
theorem serving_two_clients : ∃ s : Server,
    s.actions.filterMap Action.sent = [(1, ⟨0x7f000001, 4000⟩), (2, ⟨0x7f000001, 4001⟩)] ∧
      ∃ op, s.pending = [op] ∧ Phase.after sameLength s.actions = some op.phase ∧
        s.actions.filterMap Action.sent = s.actions.filterMap Action.due := by
  have hinit : (system .truncate).Reachable Always (udpServer (Buffer.fill _ 0)) := .init ⟨_, rfl⟩
  obtain ⟨s, hs, hsent⟩ : ∃ s, (system .truncate).Reachable Always s ∧
      s.actions.filterMap Action.sent = [(1, ⟨0x7f000001, 4000⟩), (2, ⟨0x7f000001, 4001⟩)] :=
    System.always_of_exec hinit
      [.arrive 0 ⟨⟨0x7f000001, 4000⟩, [65]⟩, .receiveDone 0 false, .sendDone 0 false [],
        .arrive 0 ⟨⟨0x7f000001, 4001⟩, []⟩, .receiveDone 0 false, .receiveDone 0 true,
        .arrive 0 ⟨⟨0x7f000001, 4001⟩, [66, 67]⟩, .receiveDone 0 false, .sendDone 0 false []] rfl
  exact ⟨s, hsent, serving_of_reachable hs⟩

end Server

end CppExamples.AsyncUdp
