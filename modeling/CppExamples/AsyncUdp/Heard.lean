import CppExamples.AsyncUdp.EchoBytes
import CppExamples.AsyncUdp.Replies

/-!
# What the programs have heard

The client and the server, each seen from the network: which datagrams they have
received, and what became of them.  For the server this is read off the history
of its actions, since `Phase.after` says that every answer follows the datagram
it answers; for the client there are the datagrams that wait for their handlers,
and the lines that it has printed.

A property `H` of datagrams that all arrivals have is kept by every step, and
both `Heard`s say no more than that.
-/

namespace CppExamples.AsyncUdp

open CppExamples.Lib

/-! ## The server -/

/-- In a run that follows the automaton, an answer follows the datagram that it
answers. -/
theorem Phase.answers_after {ok : Datagram → List UInt8 → Bool} {actions : List Action} {q : Phase}
    (h : Phase.after ok actions = some q) :
    (∀ d, q = .answering d → .handleReceiveFrom (some d) ∈ actions) ∧
      (q = .replying → ∃ payload dest, .asyncSendTo payload dest ∈ actions) ∧
      ∀ payload dest, .asyncSendTo payload dest ∈ actions →
        ∃ d, .handleReceiveFrom (some d) ∈ actions ∧ dest = d.source ∧ ok d payload = true := by
  induction actions using List.reverseRecOn generalizing q with
  | nil =>
      cases h
      exact ⟨nofun, nofun, nofun⟩
  | append_singleton l a ih =>
      rw [after, List.foldlM_append] at h
      obtain ⟨r, hr, hn⟩ := Option.bind_eq_some_iff.mp h
      have hq : next ok r a = some q := by simpa using hn
      obtain ⟨hanswering, -, hanswers⟩ := ih hr
      refine ⟨?_, ?_, fun payload dest hmem ↦ ?_⟩
      · rintro d rfl
        unfold next at hq
        split at hq
        · cases hq
        · cases hq
        · rename_i d'
          split at hq
          · cases hq
          · cases hq
            exact List.mem_concat_self
        · split at hq <;> cases hq
        · cases hq
        · cases hq
      · rintro rfl
        unfold next at hq
        split at hq
        · cases hq
        · cases hq
        · split at hq <;> cases hq
        · exact ⟨_, _, List.mem_concat_self⟩
        · cases hq
        · cases hq
      · rcases List.mem_append.mp hmem with hmem | hmem
        · obtain ⟨d, hd, hdest, hok⟩ := hanswers payload dest hmem
          exact ⟨d, List.mem_append_left _ hd, hdest, hok⟩
        · obtain rfl := List.mem_singleton.mp hmem
          cases r with
          | answering d =>
              simp only [next] at hq
              split at hq
              · rename_i hd
                exact ⟨d, List.mem_append_left _ (hanswering d rfl), hd.1, hd.2⟩
              · cases hq
          | idle => cases hq
          | listening => cases hq
          | replying => cases hq

namespace Server

variable {s s' : Server} {p : Oversize} {op : Operation} {H H' : Datagram → Prop}

/-- Every datagram that the server has stored or received has the property. -/
structure Heard (H : Datagram → Prop) (s : Server) : Prop where
  stored : ∀ d, .receive (some d) ∈ s.pending → H d
  received : ∀ d, .handleReceiveFrom (some d) ∈ s.actions → H d

theorem Heard.mono (h : s.Heard H) (hH : ∀ d, H d → H' d) : s.Heard H' :=
  ⟨fun d hd ↦ hH d (h.stored d hd), fun d hd ↦ hH d (h.received d hd)⟩

theorem heard_udpServer (uninit : Buffer UdpServer.maxLength) : (udpServer uninit).Heard H :=
  ⟨by simp [udpServer, asyncReceiveFrom, record, clear],
    by simp [udpServer, asyncReceiveFrom, record, clear]⟩

theorem Heard.step (h : s.Heard H) (hp : s.pending = [op]) {e : ServerEvent}
    (he : s.enabled p e = true) (hs : s.step e = some s') (ha : ∀ a ∈ e.arrivals, H a.2) :
    s'.Heard H := by
  cases turn_of_step hp he hs with
  | arrive d _ hp' _ _ hact =>
      refine ⟨fun d' hd' ↦ ?_, hact ▸ h.received⟩
      rw [hp', List.mem_singleton] at hd'
      cases hd'
      exact ha (0, d) (List.mem_singleton_self _)
  | failed stored _ hp' hact =>
      refine ⟨by simp [hp'], fun d hd ↦ h.received d ?_⟩
      simpa [hact] using hd
  | empty d hp hb hp' hact =>
      refine ⟨by simp [hp'], fun d' hd' ↦ ?_⟩
      obtain hd' | rfl : .handleReceiveFrom (some d') ∈ s.actions ∨ d' = d := by
        simpa [hact] using hd'
      · exact h.received d' hd'
      · exact h.stored d' (by simp [hp])
  | echo d payload hp _ hb _ hp' hact =>
      refine ⟨by simp [hp'], fun d' hd' ↦ ?_⟩
      obtain hd' | rfl : .handleReceiveFrom (some d') ∈ s.actions ∨ d' = d := by
        simpa [hact] using hd'
      · exact h.received d' hd'
      · exact h.stored d' (by simp [hp])
  | sent payload dest error _ hp' hact =>
      refine ⟨by simp [hp'], fun d hd ↦ h.received d ?_⟩
      simpa [hact] using hd
  | overtaken payload dest error d _ hp' _ _ hact =>
      refine ⟨fun d' hd' ↦ ?_, fun d' hd' ↦ h.received d' (by simpa [hact] using hd')⟩
      rw [hp', List.mem_singleton] at hd'
      cases hd'
      exact ha (0, d) (List.mem_singleton_self _)

/-- The operation that completes in `handle_send_to` is a send. -/
theorem sending_of_enabled (hp : s.pending = [op]) {i : Nat} {error : Bool}
    {during : List (Nat × Datagram)} (he : s.enabled p (.sendDone i error during) = true) :
    ∃ payload dest, op = .send payload dest := by
  simp only [enabled] at he
  split at he
  · rename_i payload dest hi
    exact ⟨payload, dest, (getElem?_of_pending hp hi).2.symm⟩
  · cases he

/-- While an answer is being sent, a datagram has been received. -/
theorem Serving.exists_received {ok : Datagram → List UInt8 → Bool} {payload : List UInt8}
    {dest : Endpoint} (h : s.Serving ok (.send payload dest)) :
    ∃ d, .handleReceiveFrom (some d) ∈ s.actions := by
  obtain ⟨-, hreplying, hanswers⟩ := Phase.answers_after h.after
  obtain ⟨payload', dest', ha⟩ := hreplying rfl
  obtain ⟨d, hd, -⟩ := hanswers payload' dest' ha
  exact ⟨d, hd⟩

/-- The history only grows. -/
theorem actions_prefix (hp : s.pending = [op]) {e : ServerEvent} (he : s.enabled p e = true)
    (hs : s.step e = some s') : s.actions <+: s'.actions := by
  cases turn_of_step hp he hs with
  | arrive d _ _ _ _ hact => exact ⟨[], by rw [hact, List.append_nil]⟩
  | failed stored _ _ hact => exact ⟨_, hact.symm⟩
  | empty d _ _ _ hact => exact ⟨_, hact.symm⟩
  | echo d payload _ _ _ _ _ hact => exact ⟨_, hact.symm⟩
  | sent payload dest error _ _ hact => exact ⟨_, hact.symm⟩
  | overtaken payload dest error d _ _ _ _ hact => exact ⟨_, hact.symm⟩

end Server

/-! ## The client -/

namespace Client

variable {w w' : Client} {H H' : Datagram → Prop}

/-- Every datagram that waits for its handler has the property. -/
def Heard (H : Datagram → Prop) (w : Client) : Prop := ∀ d, w.Waiting d → H d

theorem Heard.mono (h : w.Heard H) (hH : ∀ d, H d → H' d) : w.Heard H' :=
  fun d hd ↦ hH d (h d hd)

theorem heard_udpClient {server : Endpoint} (uninit : Buffer (headerLength + maxBodyLength)) :
    (udpClient server uninit).Heard H := by
  rintro d ⟨r, hr, -⟩
  cases hr

theorem Heard.recvMessage (h : w.Heard H) : w.recvMessage.Heard H :=
  fun d hd ↦ h d (waiting_recvMessage.mp hd)

theorem Heard.arrive (h : w.Heard H) {i : Nat} {d : Datagram} (hd : H d) :
    (w.arrive i d).Heard H := by
  by_cases hc : w.canStore i d = true
  · intro d' hd'
    rcases (waiting_arrive_iff hc).mp hd' with rfl | hd'
    · exact hd
    · exact h d' hd'
  · rwa [arrive_of_not_canStore hc]

theorem Heard.arriveAll (h : w.Heard H) {ds : List (Nat × Datagram)} (hd : ∀ a ∈ ds, H a.2) :
    (w.arriveAll ds).Heard H :=
  arriveAll_induction h fun _ hv a ha ↦ hv.arrive (hd a ha)

theorem Heard.eraseIdx (h : w.Heard H) (i : Nat) :
    Heard H { w with receives := w.receives.eraseIdx i } :=
  fun d ⟨r, hr, hd⟩ ↦ h d ⟨r, List.mem_of_mem_eraseIdx hr, hd⟩

theorem Heard.handleReceiveFrom (h : w.Heard H) (error : Bool) (n : Nat) :
    (w.handleReceiveFrom error n).Heard H := by
  unfold Client.handleReceiveFrom
  split
  · dsimp only
    split <;> exact h
  · exact h

theorem Heard.step (h : w.Heard H) {e : ClientEvent} (hs : w.step e = some w')
    (ha : ∀ a ∈ e.arrivals, H a.2) : w'.Heard H := by
  cases turn_of_step hs with
  | sendMessage m => exact h
  | doWrite hp hq => exact h
  | sendError hc => exact h
  | @sentLast i c during msg hc hq v hv =>
      have hv : v.Heard H := by rw [hv]; exact h
      exact hv.recvMessage.arriveAll ha
  | @sentNext i c during msg front queue hc hq v hv =>
      have hv : v.Heard H := by rw [hv]; exact h
      exact hv.recvMessage.arriveAll ha
  | arrive i d => exact h.arrive (ha (i, d) (List.mem_singleton_self _))
  | receiveError hr => exact h.eraseIdx _
  | received hr => exact (h.eraseIdx _).handleReceiveFrom _ _

/-! ### What it has sent -/

/-- The history of the sends only grows. -/
theorem sendCalls_prefix {e : ClientEvent} (hs : w.step e = some w') :
    w.sendCalls <+: w'.sendCalls := by
  have harrive (v : Client) (ds : List (Nat × Datagram)) :
      (v.arriveAll ds).sendCalls = v.sendCalls := by
    apply arriveAll_induction (P := fun u ↦ u.sendCalls = v.sendCalls) rfl
    rintro u hu a -
    rw [← hu]
    unfold Client.arrive
    split <;> rfl
  have hsame {v : Client} (hv : v.sendCalls = w.sendCalls) : w.sendCalls <+: v.sendCalls :=
    ⟨[], by rw [hv, List.append_nil]⟩
  cases turn_of_step hs with
  | sendMessage m => exact hsame rfl
  | doWrite hp hq => exact List.prefix_append _ _
  | sendError hc => exact hsame rfl
  | @sentLast i c during msg hc hq v hv =>
      refine hsame ?_
      rw [harrive, hv]
      rfl
  | @sentNext i c during msg front queue hc hq v hv =>
      have hv : (v.recvMessage.arriveAll during).sendCalls = w.sendCalls := by
        rw [harrive, hv]
        rfl
      exact hv ▸ List.prefix_append _ _
  | arrive i d => exact hsame (harrive w [(i, d)])
  | receiveError hr => exact hsame rfl
  | received hr =>
      refine hsame ?_
      unfold Client.handleReceiveFrom
      simp only [Bool.not_false, if_true]
      split <;> rfl

end Client

/-- Whatever is queued or has been sent was posted. -/
structure Outbox.Posted (o : Outbox) : Prop where
  posted : ∀ m ∈ o.posted, m ∈ o.posts
  queue : ∀ m ∈ o.queue, m ∈ o.posts
  started : ∀ bytes ∈ o.started, ∃ m ∈ o.posts, m.payload = bytes

theorem Outbox.Posted.step {o o' : Outbox} (h : o.Posted) {e : ClientEvent} (hs : o.Step e o') :
    o'.Posted := by
  cases e with
  | sendMessage m =>
      cases hs
      refine ⟨fun m' hm' ↦ ?_, fun m' hm' ↦ List.mem_append_left _ (h.queue m' hm'), fun b hb ↦ ?_⟩
      · rcases List.mem_append.mp hm' with hm' | hm'
        · exact List.mem_append_left _ (h.posted m' hm')
        · exact List.mem_append_right _ hm'
      · obtain ⟨m', hm', hb⟩ := h.started b hb
        exact ⟨m', List.mem_append_left _ hm', hb⟩
  | doWrite =>
      obtain ⟨m, rest, hp, rfl⟩ := hs
      have hm : m ∈ o.posts := h.posted m (hp ▸ List.mem_cons_self ..)
      refine ⟨fun m' hm' ↦ h.posted m' (hp ▸ List.mem_cons_of_mem _ hm'), fun m' hm' ↦ ?_,
        fun b hb ↦ ?_⟩
      · rcases List.mem_append.mp hm' with hm' | hm'
        · exact h.queue m' hm'
        · exact List.mem_singleton.mp hm' ▸ hm
      · rcases List.mem_append.mp hb with hb | hb
        · exact h.started b hb
        · exact ⟨m, hm, (List.mem_singleton.mp hb).symm⟩
  | sendDone i error during =>
      cases error with
      | true =>
          cases hs
          exact ⟨h.posted, h.queue, h.started⟩
      | false =>
          obtain ⟨-, m, rest, hq, rfl⟩ := hs
          have hrest : ∀ m' ∈ rest, m' ∈ o.posts :=
            fun m' hm' ↦ h.queue m' (hq ▸ List.mem_cons_of_mem _ hm')
          refine ⟨h.posted, hrest, fun b hb ↦ ?_⟩
          rcases List.mem_append.mp hb with hb | hb
          · exact h.started b hb
          · obtain ⟨m', hm', rfl⟩ := List.mem_map.mp hb
            exact ⟨m', hrest m' (List.mem_of_mem_head? (Option.mem_toList.mp hm')), rfl⟩
  | arrive i d =>
      cases hs
      exact h
  | receiveDone i error =>
      cases hs
      exact h

/-- The history of the posts only grows. -/
theorem Outbox.posts_prefix {o o' : Outbox} {e : ClientEvent} (hs : o.Step e o') :
    o.posts <+: o'.posts := by
  have hsame {o' : Outbox} (h : o'.posts = o.posts) : o.posts <+: o'.posts :=
    ⟨[], by rw [h, List.append_nil]⟩
  cases e with
  | sendMessage m =>
      cases hs
      exact List.prefix_append _ _
  | doWrite =>
      obtain ⟨m, rest, -, rfl⟩ := hs
      exact hsame rfl
  | sendDone i error during =>
      cases error with
      | true =>
          cases hs
          exact hsame rfl
      | false =>
          obtain ⟨-, m, rest, -, rfl⟩ := hs
          exact hsame rfl
  | arrive i d =>
      cases hs
      exact hsame rfl
  | receiveDone i error =>
      cases hs
      exact hsame rfl

/-! ### What it has shown -/

namespace Client

variable {w w' : Client} {H H' : Datagram → Prop}

/-- Every reply that the client has shown is a datagram with the property. -/
def Shown (H : Datagram → Prop) (w : Client) : Prop :=
  ∀ str, .recvData str ∈ w.console → ∃ d, H d ∧ str = showStr d.bytes

theorem Shown.mono (h : w.Shown H) (hH : ∀ d, H d → H' d) : w.Shown H' := by
  intro str hstr
  obtain ⟨d, hd, hstr⟩ := h str hstr
  exact ⟨d, hH d hd, hstr⟩

theorem Shown.print (h : w.Shown H) {l : Line} (hl : ∀ str, l ≠ .recvData str) :
    (w.print l).Shown H := by
  intro str hstr
  rcases List.mem_append.mp hstr with hstr | hstr
  · exact h str hstr
  · exact absurd (List.mem_singleton.mp hstr).symm (hl str)

theorem Shown.arriveAll (h : w.Shown H) (ds : List (Nat × Datagram)) :
    (w.arriveAll ds).Shown H := by
  refine arriveAll_induction h fun v hv a _ ↦ ?_
  unfold Client.arrive
  split
  · exact hv
  · exact hv

/-- The handler of a receive shows the datagram that has completed it, if that is
still in the buffer. -/
theorem Shown.received (h : w.Shown H) {d : Datagram} (hd : H d)
    (hdata : w.data.data.bytes.take d.bytes.length = d.bytes) :
    (w.handleReceiveFrom false d.bytes.length).Shown H := by
  have hprint : ((w.print .handleReceiveFrom).print
      (.recvData (showStr (w.data.data.bytes.take d.bytes.length)))).Shown H := by
    intro str hstr
    rcases List.mem_append.mp hstr with hstr | hstr
    · exact h.print (by simp) str hstr
    · cases List.mem_singleton.mp hstr
      exact ⟨d, hd, by rw [hdata]⟩
  unfold Client.handleReceiveFrom
  simp only [Bool.not_false, if_true]
  split
  · exact hprint
  · exact hprint

theorem Shown.step (h : w.Shown H) (hh : w.Heard H) (hi : w.Intact) {e : ClientEvent}
    (he : w.enabled e = true) (hs : w.step e = some w') : w'.Shown H := by
  cases turn_of_step hs with
  | sendMessage m => exact h
  | @doWrite msg front posted queue hp hq =>
      have hv : Shown H (asyncSendTo { w with posted := posted, sendMsgQueue := front :: queue }
        msg) := h
      exact hv.print (by simp)
  | @sendError i c during hc =>
      have hv : Shown H { w with sends := w.sends.eraseIdx i } := h
      exact (hv.print (by simp)).print (by simp)
  | @sentLast i c during msg hc hq v hv =>
      have hw : Shown H { w with sends := w.sends.eraseIdx i, sendMsgQueue := [] } := h
      have hv : v.Shown H := hv ▸ hw.print (by simp)
      exact Shown.arriveAll (w := v.recvMessage) hv during
  | @sentNext i c during msg front queue hc hq v hv =>
      have hw : Shown H { w with sends := w.sends.eraseIdx i, sendMsgQueue := front :: queue } := h
      have hv : v.Shown H := hv ▸ hw.print (by simp)
      exact Shown.arriveAll (w := v.recvMessage) hv during
  | arrive i d => exact h.arriveAll [(i, d)]
  | @receiveError i r hr =>
      have hv : Shown H { w with receives := w.receives.eraseIdx i } := h
      exact hv.print (by simp)
  | @received i r hr =>
      obtain ⟨d, hd⟩ : ∃ d, r.stored = some d := by
        simpa [enabled, hr, Option.isSome_iff_exists] using he
      have hwait : w.Waiting d := ⟨r, List.mem_of_getElem? hr, hd⟩
      have hv : Shown H { w with receives := w.receives.eraseIdx i } := h
      rw [hd]
      exact hv.received (hh d hwait) (hi d hwait)

end Client

end CppExamples.AsyncUdp
