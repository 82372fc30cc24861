import CppExamples.AsyncUdp.Outbox

/-!
# Delivery of the posted messages

What a user of `udp_client` expects of `send_message`: the messages go out once
each and in order, and `handle_send_to` takes the message off the queue whose
send has completed.  Both hold along the runs in which every send completes
before the next `do_write` runs (`Sequential`), and both fail in the shortest
run that is not of this kind: two posts, both handlers, one completion.
-/

namespace CppExamples.AsyncUdp

open CppExamples.Lib

namespace Client

/-- The payloads given to `async_send_to` are the posted messages so far, in
order, and all of them once nothing is pending. -/
def DeliversInOrder (w : Client) : Prop :=
  w.sendCalls.map SendCall.payload <+: w.posts.map Message.payload ∧
    (w.posted = [] → w.sends = [] →
      w.sendCalls.map SendCall.payload = w.posts.map Message.payload)

/-- A send that can now complete without an error is the send of the message at
the front of the queue, and its handler pops a queue that is not empty. -/
def PopsCompleted (w : Client) : Prop :=
  ∀ i during, w.enabled (.sendDone i false during) = true →
    (∃ c, w.sends[i]? = some c ∧ w.sendMsgQueue.head? = some c.msg) ∧
      w.step (.sendDone i false during) ≠ none

variable {server : Endpoint} {w : Client}

/-- Along a sequential run the queue and the sends stay in step. -/
theorem inStep_of_sequential (h : (system server).Reachable Sequential w) :
    w.outbox.InStep := by
  refine h.invariant (I := fun w ↦ w.outbox.InStep) ?_ ?_
  · rintro _ ⟨uninit, rfl⟩
    exact ⟨rfl, Nat.zero_le _, rfl⟩
  · intro s e s' _ hi _ hg hs
    exact hi.step (step_outbox hs) hg.1 fun he ↦ by simp [outbox, hg.2 he]

/-- A successful completion only gets stuck on an empty queue. -/
theorem step_sendDone_ne_none {i : Nat} {during : List (Nat × Datagram)}
    {c : PendingSend} (hc : w.sends[i]? = some c) (hq : w.sendMsgQueue ≠ []) :
    w.step (.sendDone i false during) ≠ none := by
  obtain ⟨m, rest, hm⟩ := List.exists_cons_of_ne_nil hq
  simp only [step, hc, handleSendTo, print, hm, Bool.not_false, if_true]
  split <;> simp

/-! ## The sequential runs -/

/-- **Every posted message is sent exactly once and in order**, in every state
of every run in which sends succeed and no `do_write` runs while a send is
outstanding. -/
theorem deliversInOrder_of_sequential (h : (system server).Reachable Sequential w) :
    w.DeliversInOrder := by
  have hi := inStep_of_sequential h
  refine ⟨⟨_, hi.posts_eq⟩, fun hp _ ↦ ?_⟩
  have := hi.posts_eq
  rwa [show w.outbox.posted = [] from hp, List.map_nil, List.append_nil] at this

/-- **`handle_send_to` pops the message it completed**, in every state of every
such run. -/
theorem popsCompleted_of_sequential (h : (system server).Reachable Sequential w) :
    w.PopsCompleted := by
  intro i during he
  have hi := inStep_of_sequential h
  have hq : w.sendMsgQueue = w.sends.map PendingSend.msg := hi.queue_eq
  have hone : w.sends.length ≤ 1 := by simpa [outbox] using hi.one
  obtain ⟨c, hc, -⟩ := (Option.any_eq_true _ _).mp he
  have hlt : i < w.sends.length := (List.getElem?_eq_some_iff.mp hc).1
  obtain rfl : i = 0 := by omega
  have hf : w.sendMsgQueue.head? = some c.msg := by
    rw [hq, List.head?_map, List.head?_eq_getElem?, hc]
    rfl
  refine ⟨⟨c, hc, hf⟩, step_sendDone_ne_none hc fun hnil ↦ ?_⟩
  rw [hnil] at hf
  cases hf

/-! ## Two posts before the first completion -/

/-- An endpoint of the demo servers. -/
def localServer : Endpoint := ⟨0x7f000001, 8886⟩

/-- A message with nothing but a header, all of whose bytes are `c`. -/
def headerOnly (c : UInt8) : Message := ⟨Buffer.fill _ c, 0⟩

/-- Two messages posted, and sent one after the other. -/
def sequentialPosts : List ClientEvent :=
  [.sendMessage (headerOnly 65), .sendMessage (headerOnly 66), .doWrite, .sendDone 0 false [],
    .doWrite, .sendDone 0 false []]

/-- Two messages posted, both handlers run, and the first send completed. -/
def overlappingPosts : List ClientEvent :=
  [.sendMessage (headerOnly 65), .sendMessage (headerOnly 66), .doWrite, .doWrite,
    .sendDone 0 false []]

/-- A client that has not done anything yet. -/
def freshClient : Client := udpClient localServer (Buffer.fill _ 0)

/-- A run can start with a fresh client, whatever its guard. -/
theorem freshClient_reachable {G : Client → ClientEvent → Prop} :
    (system localServer).Reachable G freshClient := .init ⟨_, rfl⟩

/-- A test for sends that succeed. -/
def sendsSucceedTest (_ : Client) : ClientEvent → Bool
  | .sendDone _ true _ => false
  | _ => true

theorem sendsSucceed_of_test (w : Client) (e : ClientEvent) (h : sendsSucceedTest w e = true) :
    SendsSucceed w e := by
  rintro i during rfl
  cases h

/-- A test for sequential runs. -/
def sequentialTest (w : Client) : ClientEvent → Bool
  | .sendDone _ true _ => false
  | .doWrite => w.sends.isEmpty
  | _ => true

theorem sequential_of_test (w : Client) (e : ClientEvent) (h : sequentialTest w e = true) :
    Sequential w e := by
  refine ⟨?_, ?_⟩
  · rintro i during rfl
    cases h
  · rintro rfl
    exact List.isEmpty_iff.mp h

theorem sequentialPosts_delivered : ∃ w : Client, w.sendCalls.length = 2 ∧
    w.posts.length = 2 ∧ w.DeliversInOrder := by
  obtain ⟨w, hw, hs, hp⟩ : ∃ w, (system localServer).Reachable Sequential w ∧
      w.sendCalls.length = 2 ∧ w.posts.length = 2 :=
    System.reachable_of_exec sequential_of_test freshClient_reachable sequentialPosts rfl
  exact ⟨w, hs, hp, deliversInOrder_of_sequential hw⟩

/-- One send has completed, and the handler of the other one is about to pop. -/
theorem sequentialPosts_pop : ∃ w : Client, w.sendCalls.length = 2 ∧ w.sends.length = 1 ∧
    w.PopsCompleted := by
  obtain ⟨w, hw, hs, hl⟩ : ∃ w, (system localServer).Reachable Sequential w ∧
      w.sendCalls.length = 2 ∧ w.sends.length = 1 :=
    System.reachable_of_exec sequential_of_test freshClient_reachable
      (sequentialPosts.take 5) rfl
  exact ⟨w, hs, hl, popsCompleted_of_sequential hw⟩

/-- Of two overlapping posts the second is sent twice: the payloads started are
not an initial part of the posts. -/
theorem overlappingPosts_not_delivered :
    ¬ ∀ (server : Endpoint) (w : Client), (system server).Reachable SendsSucceed w →
      w.DeliversInOrder := by
  intro h
  obtain ⟨w, hw, hs, hp⟩ : ∃ w, (system localServer).Reachable SendsSucceed w ∧
      w.sendCalls.length = 3 ∧ w.posts.length = 2 :=
    System.reachable_of_exec sendsSucceed_of_test freshClient_reachable overlappingPosts rfl
  have hle := (h localServer w hw).1.length_le
  simp only [List.length_map, hs, hp] at hle
  omega

/-- After one more completion the queue is empty and a send is still
outstanding: its handler pops an empty deque. -/
theorem overlappingPosts_pop_empty :
    ¬ ∀ (server : Endpoint) (w : Client), (system server).Reachable SendsSucceed w →
      w.PopsCompleted := by
  intro h
  obtain ⟨w, hw, hq, he⟩ : ∃ w, (system localServer).Reachable SendsSucceed w ∧
      w.sendMsgQueue.isEmpty = true ∧ w.enabled (.sendDone 0 false []) = true :=
    System.reachable_of_exec sendsSucceed_of_test freshClient_reachable
      (overlappingPosts ++ [.sendDone 0 false []]) rfl
  obtain ⟨⟨c, -, hc⟩, -⟩ := h localServer w hw 0 [] he
  rw [List.isEmpty_iff.mp hq] at hc
  cases hc

/-! ## One `do_write` too many

The condition on the runs is the right one.  A `do_write` that runs while a send
is outstanding leaves two messages queued and two sends outstanding.  From there
on every completion takes a message off the queue, but the first one starts
another send.  (The sends have to be able to succeed: the socket is open.) -/

/-- What is outstanding after a `do_write` in a sequential run. -/
theorem doWrite_of_inStep (hi : w.outbox.InStep) {c : PendingSend} (hc : w.sends = [c])
    {m : Message} {rest : List Message} (hm : w.posted = m :: rest) {w' : Client}
    (hw : w.step .doWrite = some w') :
    w'.sendMsgQueue = [c.msg, m] ∧ w'.posted = rest ∧ w'.posts = w.posts ∧
      w'.sends = [c, ⟨⟨m.payload, w.senderEndpoint, w.socketOpen⟩, m⟩] ∧
      w'.socketOpen = w.socketOpen ∧ w'.sendCalls.length = w.sendCalls.length + 1 := by
  have hq : w.sendMsgQueue = [c.msg] := by
    have := hi.queue_eq
    simpa [outbox, hc] using this
  simp only [step, hm, Option.some.injEq] at hw
  subst hw
  simp [doWrite, asyncSendTo, print, hq, hc]

/-- A completed send of two takes the first message off and sends the second
one again. -/
theorem sendDone_of_two {c c' : PendingSend} {m m' : Message} (hs : w.sends = [c, c'])
    (hq : w.sendMsgQueue = [m, m']) :
    ∃ w', w.step (.sendDone 0 false []) = some w' ∧ w'.sendMsgQueue = [m'] ∧
      w'.sends = [c', ⟨⟨m'.payload, w.senderEndpoint, w.socketOpen⟩, m'⟩] ∧
      w'.posted = w.posted ∧ w'.posts = w.posts ∧
      w'.sendCalls.length = w.sendCalls.length + 1 := by
  simp [step, handleSendTo, arriveAll, recvMessage, asyncSendTo, print, hs, hq]

/-- A completed send of a queue of one leaves the queue empty. -/
theorem sendDone_of_one {c c' : PendingSend} {m : Message} (hs : w.sends = [c, c'])
    (hq : w.sendMsgQueue = [m]) :
    ∃ w', w.step (.sendDone 0 false []) = some w' ∧ w'.sendMsgQueue = [] ∧ w'.sends = [c'] := by
  simp [step, handleSendTo, arriveAll, recvMessage, print, hs, hq]

/-- The posted handlers can always run, and each starts one more send. -/
theorem exec_doWrites (server : Endpoint) (w : Client) :
    ∃ v, (system server).exec sendsSucceedTest w
          (List.replicate w.posted.length .doWrite) = some v ∧
        v.sendCalls.length = w.sendCalls.length + w.posted.length ∧ v.posts = w.posts := by
  induction hp : w.posted generalizing w with
  | nil => exact ⟨w, rfl, rfl, rfl⟩
  | cons m rest ih =>
      obtain ⟨w', hw⟩ : ∃ w', w.step .doWrite = some w' := by simp [step, hp]
      obtain ⟨m', rest', hp', ho⟩ := step_outbox hw
      obtain ⟨rfl, rfl⟩ := List.cons.inj (hp.symm.trans hp')
      have hposted : w'.posted = rest := congrArg Outbox.posted ho
      have hposts : w'.posts = w.posts := congrArg Outbox.posts ho
      have hstarted : w'.sendCalls.length = w.sendCalls.length + 1 := by
        have := congrArg (fun o ↦ o.started.length) ho
        simpa [outbox] using this
      obtain ⟨v, hv, hl, hpv⟩ := ih w' hposted
      refine ⟨v, System.exec_cons_iff.mpr ⟨?_, rfl, w', hw, hv⟩, ?_, hpv.trans hposts⟩
      · simp [system, enabled, hp]
      · rw [hl, hstarted, List.length_cons]
        omega

/-- **The condition is exact.**  If one `do_write` of an otherwise sequential run
is run while a send is outstanding, then the run can go on, all sends
succeeding, to a state in which the messages are not delivered in order, and to
one in which `handle_send_to` pops an empty queue. -/
theorem broken_of_overlap (h : (system server).Reachable Sequential w)
    (hopen : w.socketOpen = true) (hs : w.sends ≠ []) (hsent : ∀ c ∈ w.sends, c.opened = true)
    {w' : Client} (hw : w.step .doWrite = some w') :
    (∃ es v, (system server).exec sendsSucceedTest w' es = some v ∧ ¬ v.DeliversInOrder) ∧
      ∃ es v, (system server).exec sendsSucceedTest w' es = some v ∧ ¬ v.PopsCompleted := by
  have hi := inStep_of_sequential h
  obtain ⟨c, hc⟩ : ∃ c, w.sends = [c] := by
    have hone : w.sends.length ≤ 1 := by simpa [outbox] using hi.one
    exact List.length_eq_one_iff.mp (Nat.le_antisymm hone (List.length_pos_iff.mpr hs))
  obtain ⟨m, rest, hm, -⟩ := step_outbox hw
  obtain ⟨hq', hpd', hps', hs', ho', hl'⟩ := doWrite_of_inStep hi hc hm hw
  -- the first completion sends `m` again
  obtain ⟨w₁, hw₁, hq₁, hs₁, hpd₁, hps₁, hl₁⟩ := sendDone_of_two hs' hq'
  have he' : w'.enabled (.sendDone 0 false []) = true := by
    simp [enabled, hs', hsent c (by simp [hc])]
  have he₁ : w₁.enabled (.sendDone 0 false []) = true := by simp [enabled, hs₁, hopen]
  constructor
  · obtain ⟨v, hv, hlv, hpv⟩ := exec_doWrites server w₁
    refine ⟨.sendDone 0 false [] :: List.replicate w₁.posted.length .doWrite, v,
      System.exec_cons_iff.mpr ⟨he', rfl, w₁, hw₁, hv⟩, fun hd ↦ ?_⟩
    have hposts : w.sendCalls.length + w.posted.length = w.posts.length := by
      have := congrArg List.length hi.posts_eq
      simpa [outbox] using this
    rw [show w.posted = m :: rest from hm, List.length_cons] at hposts
    have hle := hd.1.length_le
    simp only [List.length_map, hpv, hlv, hps₁, hps', hl₁, hl', hpd₁, hpd'] at hle
    omega
  · -- the second completion leaves the queue empty and that send outstanding
    obtain ⟨v, hv, hqv, hsv⟩ := sendDone_of_one hs₁ hq₁
    refine ⟨[.sendDone 0 false [], .sendDone 0 false []], v,
      System.exec_cons_iff.mpr ⟨he', rfl, w₁, hw₁,
        System.exec_cons_iff.mpr ⟨he₁, rfl, v, hv, rfl⟩⟩, fun hp ↦ ?_⟩
    obtain ⟨⟨c, -, hc⟩, -⟩ := hp 0 [] (by simp [enabled, hsv, ho', hopen])
    rw [hqv] at hc
    cases hc

end Client

end CppExamples.AsyncUdp
