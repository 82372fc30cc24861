import CppExamples.AsyncTcp.Server

/-!
# One accept, and every connection once

In every reachable state one accept is outstanding, on a connection that nothing
else refers to, and the pointers in existence are those bound into the handlers
of the outstanding operations.  All the connections created before have had their
accept completed, each of them once; those whose accept has succeeded have been
started once, and send their own `message_`.

`Serving` is the invariant and `Serving.step` its step.  What a completed accept
does to the pointers is the same with an error and without one, and is proved
once (`owned_replace`, `get_replace`).
-/

namespace CppExamples.AsyncTcp

open CppExamples.Lib

namespace Server

/-! ## The pointers of a completed accept -/

section Replace

variable {h : Heap TcpConnection} {a fresh : Nat} {rest : List Nat}

/-- Of the two pointers to a connection that are released, one was bound into
the handler of the accept and the other was its parameter. -/
theorem owned_make_perm (ho : h.Owned (a :: a :: rest)) (hf : h fresh = none) (c : TcpConnection) :
    (h.make fresh c).Owned (a :: a :: fresh :: rest) := by
  refine (ho.make hf c).perm ?_
  exact (List.Perm.swap a fresh (a :: rest)).trans ((List.Perm.swap a fresh rest).cons a)

/-- A new connection takes the place of the one whose accept has completed. -/
theorem owned_replace (ho : h.Owned (a :: a :: rest)) (hf : h fresh = none) (c : TcpConnection) :
    (((h.make fresh c).release a).release a).Owned (fresh :: rest) :=
  (owned_make_perm ho hf c).release.release

/-- The new connection is the only one that has changed. -/
theorem get_replace (ho : h.Owned (a :: a :: rest)) (hf : h fresh = none) (c : TcpConnection)
    {q : Nat} (hq : q ∈ fresh :: rest) :
    (((h.make fresh c).release a).release a).get q = (h.make fresh c).get q := by
  have hm := owned_make_perm ho hf c
  rw [Heap.get_release hm.release hq, Heap.get_release hm (List.mem_cons_of_mem _ hq)]

end Replace

/-! ## The invariant -/

variable {w w' : Server} {a n : Nat}

/-- One accept is outstanding, on the connection `n` at the address `a`. -/
structure Serving (w : Server) (a n : Nat) : Prop where
  accepts : w.accepts = [a]
  created : w.created = n + 1
  waiting : w.connections.get a = some ⟨n, false, []⟩
  owned : w.connections.Owned (a :: w.writes.map PendingWrite.connection)
  apart : a ∉ w.writes.map PendingWrite.connection
  completed : (w.accepted ++ w.failed).Perm (List.range n)
  started : w.starts = w.accepted
  called : w.writeCalls.map Prod.fst = w.accepted
  writing : ∀ b ∈ w.writes, ∃ c, w.connections.get b.connection = some c ∧ c.connected = true ∧
    c.message = b.text ∧ (c.serial, b.text) ∈ w.writeCalls

theorem serving_tcpServer (p : Nat) : (tcpServer p).Serving p 0 where
  accepts := rfl
  created := rfl
  waiting := by simp [tcpServer, startAccept, create, Heap.release_copy_make, Heap.get_make_self]
  owned := by
    simp only [tcpServer, startAccept, create, Heap.release_copy_make]
    exact Heap.Owned.empty.make rfl _
  apart := by simp [tcpServer, startAccept, create]
  completed := by simp [tcpServer, startAccept, create]
  started := rfl
  called := rfl
  writing := by simp [tcpServer, startAccept, create]

/-- No pointer holds the address of the new connection. -/
theorem Serving.apart_fresh (h : w.Serving a n) {fresh : Nat} (hf : w.connections fresh = none) :
    fresh ≠ a ∧ fresh ∉ w.writes.map PendingWrite.connection := by
  have hfresh := h.owned.eq_none_iff.mp hf
  rwa [List.mem_cons, not_or] at hfresh

theorem Serving.acceptFailed (h : w.Serving a n) {now : List UInt8} {fresh : Nat}
    (ht : w.Turn a ⟨n, false, []⟩ (.acceptDone 0 true now fresh) w') :
    w'.Serving fresh (n + 1) := by
  cases ht with
  | failed now fresh hf =>
      obtain ⟨hfresh, hapart⟩ := h.apart_fresh hf
      have ho := h.owned.copy (List.mem_cons_self ..)
      have hfree := ho.eq_none_iff (p := fresh) |>.mpr (by simp [hfresh, hapart])
      refine ⟨rfl, by rw [h.created], ?_, owned_replace ho hfree _, hapart, ?_, h.started,
        h.called, fun b hb ↦ ?_⟩
      · rw [get_replace ho hfree _ (List.mem_cons_self ..), Heap.get_make_self, h.created]
      · rw [List.range_succ, ← List.append_assoc]
        exact h.completed.append_right _
      · have hmem : b.connection ∈ w.writes.map PendingWrite.connection := List.mem_map_of_mem hb
        have hne : b.connection ≠ fresh := fun he ↦ hapart (he ▸ hmem)
        rw [get_replace ho hfree _ (List.mem_cons_of_mem _ hmem), Heap.get_make_of_ne hne,
          Heap.get_copy]
        exact h.writing b hb

theorem Serving.acceptDone (h : w.Serving a n) {now : List UInt8} {fresh : Nat}
    (ht : w.Turn a ⟨n, false, []⟩ (.acceptDone 0 false now fresh) w') :
    w'.Serving fresh (n + 1) := by
  cases ht with
  | accepted now fresh hf =>
      obtain ⟨hfresh, hapart⟩ := h.apart_fresh hf
      -- the parameter, and the pointer of `shared_from_this`
      have hparam := (h.owned.modify (p := a) fun c ↦ { c with connected := true }).copy
        (List.mem_cons_self ..)
      have ho := (hparam.modify (p := a) fun c ↦ { c with message := now }).copy
        (List.mem_cons_self ..)
      have hfree := ho.eq_none_iff (p := fresh) |>.mpr (by simp [hfresh, hapart])
      have hget {q : Nat} (hq : q ∈ a :: w.writes.map PendingWrite.connection) :=
        get_replace ho hfree ⟨w.created, false, []⟩ (List.mem_cons_of_mem _ hq)
      refine ⟨rfl, by rw [h.created], ?_, ?_, ?_, ?_, by rw [h.started], ?_, fun b hb ↦ ?_⟩
      · rw [get_replace ho hfree _ (List.mem_cons_self ..), Heap.get_make_self, h.created]
      · refine (owned_replace ho hfree _).perm (List.Perm.cons fresh ?_)
        rw [List.map_append]
        exact (List.perm_append_singleton _ _).symm
      · rw [List.map_append, List.mem_append, List.map_singleton, List.mem_singleton, not_or]
        exact ⟨hapart, hfresh⟩
      · rw [List.range_succ, List.append_assoc]
        refine (List.Perm.append_left _ List.perm_append_comm).trans ?_
        rw [← List.append_assoc]
        exact h.completed.append_right _
      · rw [List.map_append, h.called, List.map_singleton]
      · rcases List.mem_append.mp hb with hb | hb
        · have hmem : b.connection ∈ w.writes.map PendingWrite.connection := List.mem_map_of_mem hb
          have hne : b.connection ≠ fresh := fun he ↦ hapart (he ▸ hmem)
          have hna : b.connection ≠ a := fun he ↦ h.apart (he ▸ hmem)
          obtain ⟨c, hc, hcon, hmsg, hcall⟩ := h.writing b hb
          refine ⟨c, ?_, hcon, hmsg, List.mem_append_left _ hcall⟩
          rw [hget (List.mem_cons_of_mem _ hmem), Heap.get_make_of_ne hne, Heap.get_copy,
            Heap.get_modify_of_ne hna, Heap.get_copy, Heap.get_modify_of_ne hna, hc]
        · rw [List.mem_singleton.mp hb]
          refine ⟨⟨n, true, now⟩, ?_, rfl, rfl, List.mem_append_right _ (List.mem_singleton_self _)⟩
          rw [hget (List.mem_cons_self ..), Heap.get_make_of_ne hfresh.symm, Heap.get_copy,
            Heap.get_modify_self, Heap.get_copy, Heap.get_modify_self, h.waiting]
          rfl

theorem Serving.writeDone (h : w.Serving a n) {i : Nat} {error : Bool}
    (ht : w.Turn a ⟨n, false, []⟩ (.writeDone i error) w') : w'.Serving a n := by
  cases ht with
  | written i b error hb =>
      have howned : w.connections.Owned
          (b.connection :: a :: (w.writes.eraseIdx i).map PendingWrite.connection) :=
        Heap.Owned.eraseIdx [a] h.owned hb
      have hmem : ∀ b' ∈ w.writes.eraseIdx i, b' ∈ w.writes := fun b' hb' ↦
        List.mem_of_mem_eraseIdx hb'
      refine ⟨h.accepts, h.created, ?_, howned.release, ?_, h.completed, h.started, h.called,
        fun b' hb' ↦ ?_⟩
      · rw [Heap.get_release howned (List.mem_cons_self ..)]
        exact h.waiting
      · intro ha
        obtain ⟨b', hb', he⟩ := List.mem_map.mp ha
        exact h.apart (List.mem_map.mpr ⟨b', hmem b' hb', he⟩)
      · rw [Heap.get_release howned (List.mem_cons_of_mem _ (List.mem_map_of_mem hb'))]
        exact h.writing b' (hmem b' hb')

/-- **The invariant step**, for every event of the environment. -/
theorem Serving.step (h : w.Serving a n) {e : Event} (he : w.enabled e = true)
    (hs : w.step e = some w') : ∃ a' n', w'.Serving a' n' := by
  have ht := turn_of_step h.accepts h.waiting he hs
  cases ht with
  | failed now fresh hf => exact ⟨fresh, n + 1, h.acceptFailed (.failed now fresh hf)⟩
  | accepted now fresh hf => exact ⟨fresh, n + 1, h.acceptDone (.accepted now fresh hf)⟩
  | written i b error hb => exact ⟨a, n, h.writeDone (.written i b error hb)⟩

theorem exists_serving (h : system.Reachable Always w) : ∃ a n, w.Serving a n := by
  refine h.invariant (I := fun w ↦ ∃ a n, w.Serving a n) ?_ ?_
  · rintro _ ⟨p, rfl⟩
    exact ⟨p, 0, serving_tcpServer p⟩
  · rintro s e s' - ⟨a, n, hi⟩ he - hs
    exact hi.step he hs

/-- **One accept is pending, and every accepted connection is served once.**  In
every state of every run the one outstanding accept is on a connection that has
not been started and belongs to no write; the connections that have been started
are those whose accept has succeeded, each started once, with one write of its
own message, and none of them is one whose accept has failed; and the pointers
in existence are those of the outstanding operations, each of which still finds
its connection. -/
theorem serves_each_once (h : system.Reachable Always w) :
    ∃ a c, w.accepts = [a] ∧
      (w.connections.get a = some c ∧ c.serial ∉ w.starts ∧
        a ∉ w.writes.map PendingWrite.connection) ∧
      (w.starts = w.accepted ∧ w.writeCalls.map Prod.fst = w.accepted ∧ w.accepted.Nodup) ∧
      (∀ s ∈ w.failed, s ∉ w.starts) ∧
      (∀ b ∈ w.writes, ∃ c, w.connections.get b.connection = some c ∧ c.message = b.text ∧
        (c.serial, b.text) ∈ w.writeCalls) ∧
      w.connections.Owned (a :: w.writes.map PendingWrite.connection) := by
  obtain ⟨a, n, hi⟩ := exists_serving h
  have hnodup : (w.accepted ++ w.failed).Nodup := hi.completed.nodup_iff.mpr List.nodup_range
  obtain ⟨haccepted, -, hdisj⟩ := List.nodup_append.mp hnodup
  have hnew : n ∉ w.starts := by
    intro hn
    rw [hi.started] at hn
    have := hi.completed.subset (List.mem_append_left _ hn)
    exact absurd (List.mem_range.mp this) (Nat.lt_irrefl n)
  refine ⟨a, _, hi.accepts, ⟨hi.waiting, hnew, hi.apart⟩, ⟨hi.started, hi.called, haccepted⟩, ?_,
    ?_, hi.owned⟩
  · intro s hs hstart
    rw [hi.started] at hstart
    exact hdisj s hstart s hs rfl
  · intro b hb
    obtain ⟨c, hc, -, hmsg, hcall⟩ := hi.writing b hb
    exact ⟨c, hc, hmsg, hcall⟩

/-- Two connections accepted, an accept that fails in between, and the first
connection gone and its address used again. -/
def twoConnections : List Event :=
  [.acceptDone 0 false [49] 1, .acceptDone 0 true [] 2, .writeDone 0 true,
    .acceptDone 0 false [50] 0]

theorem serves_two_connections : ∃ w : Server, w.accepted = [0, 2] ∧ w.failed = [1] ∧
    ∃ a c, w.accepts = [a] ∧
      (w.connections.get a = some c ∧ c.serial ∉ w.starts ∧
        a ∉ w.writes.map PendingWrite.connection) ∧
      (w.starts = w.accepted ∧ w.writeCalls.map Prod.fst = w.accepted ∧ w.accepted.Nodup) ∧
      (∀ s ∈ w.failed, s ∉ w.starts) ∧
      (∀ b ∈ w.writes, ∃ c, w.connections.get b.connection = some c ∧ c.message = b.text ∧
        (c.serial, b.text) ∈ w.writeCalls) ∧
      w.connections.Owned (a :: w.writes.map PendingWrite.connection) := by
  have hinit : system.Reachable Always (tcpServer 0) := .init ⟨0, rfl⟩
  obtain ⟨w, hw, ha, hf⟩ : ∃ w, system.Reachable Always w ∧ w.accepted = [0, 2] ∧ w.failed = [1] :=
    System.always_of_exec hinit twoConnections rfl
  exact ⟨w, ha, hf, serves_each_once hw⟩

end Server

end CppExamples.AsyncTcp
