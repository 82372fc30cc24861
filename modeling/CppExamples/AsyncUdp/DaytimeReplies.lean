import CppExamples.AsyncUdp.Daytime

/-!
# Who is answered, and for how long

The daytime server sends each reply before it starts the next receive, and the
next receive is the only one: so the endpoint that the reply goes to is still
the source of the request.  Every reply has a string of its own, which lives as
long as its handler, so that later requests cannot change the text of a reply
that is under way.  Both hold in all runs (`Answering`).

What does not hold in all runs is that the server listens: the handler starts
the next receive only if the last one has succeeded.  With the first receive
that fails the server is deaf, for good.
-/

namespace CppExamples.AsyncUdp.Daytime

open CppExamples.Lib

namespace Server

variable {w w' : Server} {p : Oversize}

/-! ## The replies -/

/-- The replies answer the requests, in the same order; every outstanding send
owns the string it is sending, and the string is what it was at the call. -/
structure Answering (w : Server) : Prop where
  one : w.receives.length ≤ 1
  heard : ∀ d, some d ∈ w.receives → w.remoteEndpoint = d.source
  answered : w.replies.map Reply.dest = w.requests.map Datagram.source
  owned : w.strings.Owned (w.sends.map PendingSend.message)
  started : ∀ c ∈ w.sends, c.reply ∈ w.replies
  texts : ∀ c ∈ w.sends, w.strings.get c.message = some c.reply.text

theorem answering_udpServer (uninit : Buffer recvBufferSize) : (udpServer uninit).Answering where
  one := le_rfl
  heard := by simp [udpServer, startReceive]
  answered := rfl
  owned := .empty
  started := by simp [udpServer, startReceive]
  texts := by simp [udpServer, startReceive]

/-- **The invariant step**, for every event of the environment. -/
theorem Answering.step (h : w.Answering) {e : Event} (he : w.enabled p e = true)
    (hs : w.step e = some w') : w'.Answering := by
  cases turn_of_step h.one he hs with
  | arrive d hr =>
      refine ⟨le_rfl, ?_, h.answered, h.owned, h.started, h.texts⟩
      intro d' hd'
      rw [List.mem_singleton] at hd'
      cases hd'
      rfl
  | failed stored now message during hr =>
      exact ⟨Nat.zero_le _, by simp, h.answered, h.owned, h.started, h.texts⟩
  | answered d now message hr hm =>
      have hsource : w.remoteEndpoint = d.source := h.heard d (by simp [hr])
      have hfresh : message ∉ w.sends.map PendingSend.message := h.owned.eq_none_iff.mp hm
      refine ⟨le_rfl, by simp, ?_, ?_, ?_, ?_⟩
      · rw [List.map_append, List.map_append, h.answered, List.map_singleton, List.map_singleton,
          hsource]
      · refine (h.owned.make hm now).perm ?_
        rw [List.map_append]
        exact (List.perm_append_singleton _ _).symm
      · intro c hc
        rcases List.mem_append.mp hc with hc | hc
        · exact List.mem_append_left _ (h.started c hc)
        · rw [List.mem_singleton.mp hc]
          exact List.mem_append_right _ (List.mem_singleton_self _)
      · intro c hc
        rcases List.mem_append.mp hc with hc | hc
        · have hmem : c.message ∈ w.sends.map PendingSend.message := List.mem_map_of_mem hc
          have hne : c.message ≠ message := fun he ↦ hfresh (he ▸ hmem)
          exact (Heap.get_make_of_ne hne now).trans (h.texts c hc)
        · rw [List.mem_singleton.mp hc]
          exact Heap.get_make_self now
  | sent i c error hc =>
      -- the handler gives its pointer back; the other handlers keep theirs
      have howned : w.strings.Owned
          (c.message :: (w.sends.eraseIdx i).map PendingSend.message) :=
        Heap.Owned.eraseIdx [] h.owned hc
      have hmem : ∀ b ∈ w.sends.eraseIdx i, b ∈ w.sends := fun b hb ↦ List.mem_of_mem_eraseIdx hb
      refine ⟨h.one, h.heard, h.answered, howned.release, fun b hb ↦ h.started b (hmem b hb), ?_⟩
      intro b hb
      rw [Heap.get_release howned (List.mem_map_of_mem hb)]
      exact h.texts b (hmem b hb)

theorem answering_of_reachable (h : (system p).Reachable Always w) : w.Answering := by
  refine h.invariant (I := Answering) ?_ ?_
  · rintro _ ⟨uninit, rfl⟩
    exact answering_udpServer uninit
  · intro s e s' _ hi he _ hs
    exact hi.step he hs

/-- **Each request is answered once, to the one who asked.**  In every state of
every run the replies started so far go to the sources of the requests so far,
one for each and in the same order; and the string that an outstanding reply is
sending is still the text it was started with. -/
theorem answers_each_once (h : (system p).Reachable Always w) :
    w.replies.map Reply.dest = w.requests.map Datagram.source ∧
      ∀ c ∈ w.sends, c.reply ∈ w.replies ∧ w.strings.get c.message = some c.reply.text := by
  have hi := answering_of_reachable h
  exact ⟨hi.answered, fun c hc ↦ ⟨hi.started c hc, hi.texts c hc⟩⟩

/-- Two requests of different clients, both replies under way, and the second
one completed first. -/
def twoRequests : List Event :=
  [.arrive 0 ⟨⟨0x7f000001, 4000⟩, [0]⟩, .receiveDone 0 false [49] 0 [],
    .arrive 0 ⟨⟨0x7f000001, 4001⟩, [0]⟩, .receiveDone 0 false [50] 1 [], .sendDone 1 false]

theorem twoRequests_answered : ∃ w : Server, w.requests.length = 2 ∧ w.sends.length = 1 ∧
    w.replies.map Reply.dest = w.requests.map Datagram.source ∧
      ∀ c ∈ w.sends, c.reply ∈ w.replies ∧ w.strings.get c.message = some c.reply.text := by
  have hinit : (system .truncate).Reachable Always (udpServer (Buffer.fill _ 0)) := .init ⟨_, rfl⟩
  obtain ⟨w, hw, hreq, hsend⟩ : ∃ w, (system .truncate).Reachable Always w ∧
      w.requests.length = 2 ∧ w.sends.length = 1 :=
    System.always_of_exec hinit twoRequests rfl
  exact ⟨w, hreq, hsend, answers_each_once hw⟩

/-! ## Listening -/

/-- No receive completes with an error. -/
def ErrorFree (_ : Server) (e : Event) : Prop :=
  ∀ i now message during, e ≠ .receiveDone i true now message during

/-- While a receive is outstanding, exactly the receives that fail end that. -/
theorem listening_step (h : w.receives.length = 1) {e : Event} (he : w.enabled p e = true)
    (hs : w.step e = some w') : w'.receives.length = 1 ↔ ErrorFree w e := by
  cases turn_of_step h.le he hs with
  | arrive d hr => exact ⟨fun _ ↦ by rintro i now message during ⟨⟩, fun _ ↦ rfl⟩
  | failed stored now message during hr =>
      refine ⟨fun hlen ↦ ?_, fun hg ↦ absurd rfl (hg 0 now message during)⟩
      cases hlen
  | answered d now message hr hm =>
      exact ⟨fun _ ↦ by rintro i now' message' during ⟨⟩, fun _ ↦ rfl⟩
  | sent i c error hc => exact ⟨fun _ ↦ by rintro i' now message during ⟨⟩, fun _ ↦ h⟩

/-- **The server listens exactly as long as no receive has failed.**  Along every
run without a failed receive there is exactly one receive outstanding, and the
step that follows keeps it so if and only if it is not a receive that fails. -/
theorem listening_of_errorFree (h : (system p).Reachable ErrorFree w) :
    w.receives.length = 1 ∧ ∀ e w', w.enabled p e = true → w.step e = some w' →
      (w'.receives.length = 1 ↔ ErrorFree w e) := by
  have hone : w.receives.length = 1 := by
    refine h.invariant (I := fun w ↦ w.receives.length = 1) ?_ ?_
    · rintro _ ⟨uninit, rfl⟩
      rfl
    · intro s e s' _ hi he hg hs
      exact (listening_step hi he hs).mpr hg
  exact ⟨hone, fun e w' he hs ↦ listening_step hone he hs⟩

/-- A test for receives that succeed. -/
def errorFreeTest (_ : Server) : Event → Bool
  | .receiveDone _ true _ _ _ => false
  | _ => true

theorem errorFree_of_test (w : Server) (e : Event) (h : errorFreeTest w e = true) :
    ErrorFree w e := by
  rintro i now message during rfl
  cases h

/-- Two clients have been answered, and the server is still listening. -/
theorem twoRequests_listening : ∃ w : Server, w.requests.length = 2 ∧ w.receives.length = 1 ∧
    ∀ e w', w.enabled .error e = true → w.step e = some w' →
      (w'.receives.length = 1 ↔ ErrorFree w e) := by
  have hinit : (system .error).Reachable ErrorFree (udpServer (Buffer.fill _ 0)) := .init ⟨_, rfl⟩
  obtain ⟨w, hw, hl⟩ : ∃ w, (system .error).Reachable ErrorFree w ∧
      w.requests.length = 2 :=
    System.reachable_of_exec errorFree_of_test hinit twoRequests rfl
  exact ⟨w, hl, listening_of_errorFree hw⟩

/-- One datagram that does not fit the buffer, on a platform that reports this,
and nobody is listening any more. -/
theorem oversized_not_listening :
    ¬ ∀ (p : Oversize) (w : Server), (system p).Reachable Always w → w.receives.length = 1 := by
  intro h
  have hinit : (system .error).Reachable Always (udpServer (Buffer.fill _ 0)) := .init ⟨_, rfl⟩
  obtain ⟨w, hw, hl⟩ : ∃ w, (system .error).Reachable Always w ∧
      w.receives.length = 0 :=
    System.always_of_exec hinit
      [.arrive 0 ⟨⟨0x7f000001, 4000⟩, [0, 0]⟩, .receiveDone 0 true [] 0 []] rfl
  have := h .error w hw
  rw [hl] at this
  cases this

/-- A server that is deaf stays deaf, whatever happens. -/
theorem deaf_step (h : w.receives = []) {e : Event} (he : w.enabled p e = true)
    (hs : w.step e = some w') : w'.receives = [] := by
  cases turn_of_step (by simp [h]) he hs with
  | arrive d hr => rw [h] at hr; cases hr
  | failed stored now message during hr => rfl
  | answered d now message hr hm => rw [h] at hr; cases hr
  | sent i c error hc => exact h

/-- **The first receive that fails is the last one**: in no state after it is a
receive outstanding. -/
theorem deaf_of_failed (h : (system p).Reachable ErrorFree w) {e : Event}
    (he : w.enabled p e = true) (hfail : ¬ ErrorFree w e) (hs : w.step e = some w')
    {es : List Event} {v : Server} (hx : (system p).exec (fun _ _ ↦ true) w' es = some v) :
    v.receives = [] := by
  have hle : w'.receives.length ≤ 1 := ((answering_of_reachable h.always).step he hs).one
  have hne : w'.receives.length ≠ 1 := fun hone ↦
    hfail ((listening_step (listening_of_errorFree h).1 he hs).mp hone)
  have hdeaf : w'.receives = [] := List.length_eq_zero_iff.mp (by omega)
  exact System.exec_invariant (I := fun w ↦ w.receives = [])
    (fun _ _ _ hd he hs ↦ deaf_step hd he hs) hdeaf hx

end Server

end CppExamples.AsyncUdp.Daytime
