import CppExamples.AsyncTcp.Connections
import Mathlib.Data.Fintype.EquivFin
import Mathlib.Data.List.InsertIdx
import Mathlib.Data.List.Nodup

/-!
# The connections that are being written to

What a step of the server does to the connections whose writes are outstanding:
an accept that succeeds adds one, the end of a write removes one, and all the
others stay as they are (`Writing.failed`, `Writing.accepted`,
`Writing.written`).  Each of them is written to once at a time, so that the end
of its write is the end of the connection: it was the write that held the last
pointer, and with the object its socket goes.
-/

namespace CppExamples.AsyncTcp

open CppExamples.Lib

namespace Server

/-- The serial number of the connection of a write. -/
def serial (w : Server) (b : PendingWrite) : Option Nat :=
  (w.connections.get b.connection).map TcpConnection.serial

/-- The connections whose writes are outstanding. -/
def pending (w : Server) : List (Option Nat) := w.writes.map w.serial

/-- `Serving`, and no connection is written to twice. -/
structure Writing (w : Server) (a n : Nat) : Prop extends w.Serving a n where
  once : w.pending.Nodup

variable {w w' : Server} {a n : Nat}

theorem writing_tcpServer (p : Nat) : (tcpServer p).Writing p 0 :=
  ⟨serving_tcpServer p, List.nodup_nil⟩

theorem Serving.lt_of_accepted (h : w.Serving a n) {s : Nat} (hs : s ∈ w.accepted) : s < n :=
  List.mem_range.mp (h.completed.subset (List.mem_append_left _ hs))

theorem Serving.nodup_accepted (h : w.Serving a n) : w.accepted.Nodup :=
  (List.nodup_append.mp (h.completed.nodup_iff.mpr List.nodup_range)).1

theorem Serving.accepted_of_called (h : w.Serving a n) {s : Nat} {text : List UInt8}
    (hs : (s, text) ∈ w.writeCalls) : s ∈ w.accepted :=
  h.called ▸ List.mem_map_of_mem hs

/-- A connection is given one text to send. -/
theorem Serving.text_unique (h : w.Serving a n) {s : Nat} {text text' : List UInt8}
    (hs : (s, text) ∈ w.writeCalls) (hs' : (s, text') ∈ w.writeCalls) : text = text' := by
  have hnodup : (w.writeCalls.map Prod.fst).Nodup := h.called ▸ h.nodup_accepted
  have := List.inj_on_of_nodup_map hnodup hs hs' rfl
  cases this
  rfl

/-- Who is written to has been accepted. -/
theorem Serving.accepted_of_pending (h : w.Serving a n) {s : Nat} (hs : some s ∈ w.pending) :
    s ∈ w.accepted := by
  obtain ⟨b, hb, he⟩ := List.mem_map.mp hs
  obtain ⟨c, hc, -, -, hcall⟩ := h.writing b hb
  rw [serial, hc, Option.map_some] at he
  cases he
  exact h.accepted_of_called hcall

theorem Serving.not_pending (h : w.Serving a n) : some n ∉ w.pending := fun hn ↦
  absurd (h.lt_of_accepted (h.accepted_of_pending hn)) (Nat.lt_irrefl n)

/-- The invariant goes on with a new connection. -/
theorem Serving.next (h : w.Serving a n) {e : Event} (he : w.enabled e = true)
    (hs : w.step e = some w') {m : Nat} (hm : w'.created = m + 1) : ∃ a', w'.Serving a' m := by
  obtain ⟨a', n', h'⟩ := h.step he hs
  obtain rfl : n' = m := by
    have := h'.created
    omega
  exact ⟨a', h'⟩

/-- The connections that are written to are the same. -/
theorem map_serial_congr {l : List PendingWrite}
    (h : ∀ b ∈ l, w'.connections.get b.connection = w.connections.get b.connection) :
    l.map w'.serial = l.map w.serial :=
  List.map_congr_left fun b hb ↦ by rw [serial, serial, h b hb]

theorem length_pending : w.pending.length = w.writes.length := List.length_map _

/-- There is always room for a new connection. -/
theorem Serving.exists_fresh (h : w.Serving a n) : ∃ fresh, w.connections fresh = none := by
  obtain ⟨fresh, hfresh⟩ :=
    Infinite.exists_notMem_finset (a :: w.writes.map PendingWrite.connection).toFinset
  rw [List.mem_toFinset] at hfresh
  exact ⟨fresh, h.owned.eq_none_iff.mpr hfresh⟩

/-! ## The steps -/

/-- No step has undefined behaviour. -/
theorem Serving.exists_step (h : w.Serving a n) {e : Event} (he : w.enabled e = true) :
    ∃ w', w.step e = some w' := by
  cases e with
  | acceptDone j error now fresh =>
      simp only [enabled, Bool.and_eq_true, h.accepts] at he
      obtain ⟨p, hp⟩ := Option.isSome_iff_exists.mp he.1
      obtain rfl : p = a := List.mem_singleton.mp (List.mem_of_getElem? hp)
      cases error with
      | true =>
          simp [Server.step, h.accepts, hp, completeAccept, h.waiting, handleAccept]
      | false =>
          simp [Server.step, h.accepts, hp, completeAccept, h.waiting, handleAccept, start,
            Heap.get_modify_self]
  | writeDone j error =>
      obtain ⟨b, hb⟩ := Option.isSome_iff_exists.mp he
      simp [Server.step, hb]

/-- An accept fails. -/
theorem Writing.failed (h : w.Writing a n) {j fresh : Nat} {now : List UInt8}
    (he : w.enabled (.acceptDone j true now fresh) = true)
    (hs : w.step (.acceptDone j true now fresh) = some w') :
    (∃ a', w'.Writing a' (n + 1)) ∧ w'.pending = w.pending ∧ w'.accepted = w.accepted ∧
      w'.writeCalls = w.writeCalls := by
  have hstep := hs
  cases turn_of_step h.accepts h.waiting he hs with
  | failed now fresh hf =>
      obtain ⟨a', h'⟩ := h.next he hstep (m := n + 1) (by rw [← h.created])
      suffices hpending : pending _ = w.pending from
        ⟨⟨a', h', hpending ▸ h.once⟩, hpending, rfl, rfl⟩
      have hfresh := h.owned.eq_none_iff.mp hf
      rw [List.mem_cons, not_or] at hfresh
      have ho := h.owned.copy (List.mem_cons_self ..)
      have hfree := ho.eq_none_iff (p := fresh) |>.mpr (by simpa using hfresh)
      refine map_serial_congr fun b hb ↦ ?_
      have hmem : b.connection ∈ w.writes.map PendingWrite.connection := List.mem_map_of_mem hb
      have hne : b.connection ≠ fresh := fun he ↦ hfresh.2 (he ▸ hmem)
      rw [get_replace ho hfree _ (List.mem_cons_of_mem _ hmem), Heap.get_make_of_ne hne,
        Heap.get_copy]

/-- An accept succeeds, and there is one more connection to write to. -/
theorem Writing.accepted (h : w.Writing a n) {j fresh : Nat} {now : List UInt8}
    (he : w.enabled (.acceptDone j false now fresh) = true)
    (hs : w.step (.acceptDone j false now fresh) = some w') :
    (∃ a', w'.Writing a' (n + 1)) ∧ w'.pending = w.pending ++ [some n] ∧
      w'.accepted = w.accepted ++ [n] ∧ w'.writeCalls = w.writeCalls ++ [(n, now)] := by
  have hstep := hs
  cases turn_of_step h.accepts h.waiting he hs with
  | accepted now fresh hf =>
      obtain ⟨a', h'⟩ := h.next he hstep (m := n + 1) (by rw [← h.created])
      suffices hpending : pending _ = w.pending ++ [some n] by
        refine ⟨⟨a', h', ?_⟩, hpending, rfl, rfl⟩
        rw [hpending, List.nodup_append]
        exact ⟨h.once, List.nodup_singleton _, fun x hx y hy hxy ↦
          h.not_pending (by rwa [← List.mem_singleton.mp hy, ← hxy])⟩
      have hfresh := h.owned.eq_none_iff.mp hf
      rw [List.mem_cons, not_or] at hfresh
      -- the parameter, and the pointer of `shared_from_this`
      have hparam := (h.owned.modify (p := a) fun c ↦ { c with connected := true }).copy
        (List.mem_cons_self ..)
      have ho := (hparam.modify (p := a) fun c ↦ { c with message := now }).copy
        (List.mem_cons_self ..)
      have hfree := ho.eq_none_iff (p := fresh) |>.mpr (by simpa using hfresh)
      have hget {q : Nat} (hq : q ∈ a :: w.writes.map PendingWrite.connection) :=
        get_replace ho hfree ⟨w.created, false, []⟩ (List.mem_cons_of_mem _ hq)
      rw [pending, List.map_append]
      refine congrArg₂ (· ++ ·) (map_serial_congr fun b hb ↦ ?_) ?_
      · have hmem : b.connection ∈ w.writes.map PendingWrite.connection := List.mem_map_of_mem hb
        have hne : b.connection ≠ fresh := fun he ↦ hfresh.2 (he ▸ hmem)
        have hna : b.connection ≠ a := fun he ↦ h.apart (he ▸ hmem)
        rw [hget (List.mem_cons_of_mem _ hmem), Heap.get_make_of_ne hne, Heap.get_copy,
          Heap.get_modify_of_ne hna, Heap.get_copy, Heap.get_modify_of_ne hna]
      · rw [List.map_singleton, serial, hget (List.mem_cons_self ..),
          Heap.get_make_of_ne (Ne.symm hfresh.1), Heap.get_copy, Heap.get_modify_self,
          Heap.get_copy, Heap.get_modify_self, h.waiting]
        rfl

/-- Nothing else is written to the connection of a write. -/
theorem Writing.apart_eraseIdx (h : w.Writing a n) {j : Nat} {b : PendingWrite}
    (hb : w.writes[j]? = some b) :
    b.connection ∉ a :: (w.writes.eraseIdx j).map PendingWrite.connection := by
  obtain ⟨hj, rfl⟩ := List.getElem?_eq_some_iff.mp hb
  rw [List.mem_cons, not_or]
  refine ⟨fun he ↦ h.apart (he ▸ List.mem_map_of_mem (List.getElem_mem hj)), fun hmem ↦ ?_⟩
  obtain ⟨b', hb', he⟩ := List.mem_map.mp hmem
  have hperm := ((List.getElem_cons_eraseIdx_perm hj).map w.serial).nodup_iff.mpr h.once
  refine (List.nodup_cons.mp hperm).1 (List.mem_map.mpr ⟨b', hb', ?_⟩)
  rw [serial, serial, he]

theorem Writing.erase_serial (h : w.Writing a n) {j : Nat} {b : PendingWrite}
    (hb : w.writes[j]? = some b) :
    w.pending.erase (w.serial b) = (w.writes.eraseIdx j).map w.serial := by
  obtain ⟨hj, rfl⟩ := List.getElem?_eq_some_iff.mp hb
  have hj' : j < w.pending.length := by rwa [pending, List.length_map]
  have hget : w.pending[j] = w.serial w.writes[j] := List.getElem_map ..
  rw [← hget, h.once.erase_getElem j hj', pending, List.eraseIdx_map]

/-- **A write ends, and its connection with it.** -/
theorem Writing.written (h : w.Writing a n) {j : Nat} {error : Bool} {b : PendingWrite}
    (hb : w.writes[j]? = some b) (hs : w.step (.writeDone j error) = some w') :
    (∃ a', w'.Writing a' n) ∧ w'.pending = w.pending.erase (w.serial b) ∧ w'.accepted = w.accepted ∧
      w'.writeCalls = w.writeCalls ∧ w'.connections b.connection = none := by
  have he : w.enabled (.writeDone j error) = true := by simp [enabled, hb]
  have hstep := hs
  cases turn_of_step h.accepts h.waiting he hs with
  | written j b' error hb' =>
      cases hb.symm.trans hb'
      have howned : w.connections.Owned
          (b.connection :: a :: (w.writes.eraseIdx j).map PendingWrite.connection) :=
        Heap.Owned.eraseIdx [a] h.owned hb
      obtain ⟨a', h'⟩ := h.next he hstep (m := n) h.created
      suffices hpending : pending _ = w.pending.erase (w.serial b) from
        ⟨⟨a', h', hpending ▸ h.once.erase _⟩, hpending, rfl, rfl,
          howned.release.eq_none_iff.mpr (h.apart_eraseIdx hb)⟩
      rw [h.erase_serial hb]
      exact map_serial_congr fun b' hb' ↦
        Heap.get_release howned (List.mem_cons_of_mem _ (List.mem_map_of_mem hb'))

end Server

end CppExamples.AsyncTcp
