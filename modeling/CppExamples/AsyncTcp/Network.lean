import CppExamples.AsyncTcp.Writes
import CppExamples.Lib.Simulation
import CppExamples.TcpDaytime.Service

/-!
# The asynchronous daytime server and its clients

The server of `async_server_TCP.cpp` and any number of clients, each of which is
connected to the socket of one `tcp_connection`.  An `async_write` sends its
bytes in pieces, and sends what is in `message_` when its turn comes; the socket
is closed when the connection is destroyed.

`Represents` is the refinement: to the clients, this is the service that sends
each of them a text and then closes the connection.

## What is assumed of Boost.Asio

An accept succeeds with one of the clients that wait.  A write completes without
an error once it has sent as many bytes as its buffer had at the start, and with
one at any time.  The destructor of a socket closes it.
-/

namespace CppExamples.AsyncTcp

open CppExamples.Lib CppExamples.TcpDaytime

/-- A server and `n` clients. -/
structure Network (n : Nat) where
  server : Server
  clients : Clients n
  /-- The client at the other end, for the connection with this serial number. -/
  peer : Nat → Option (Fin n)
  /-- The number of bytes that the connection with this serial number has sent. -/
  sent : Nat → Nat

/-- What can happen next. -/
inductive NetworkEvent (n : Nat) where
  | /-- A call of client `i` returns. -/
    call (i : Fin n) (e : ClientCall)
  | /-- The `j`-th outstanding accept completes with client `i`. -/
    accepted (j : Nat) (i : Fin n) (now : List UInt8) (fresh : Nat)
  | /-- The `j`-th outstanding accept fails. -/
    failed (j : Nat) (fresh : Nat)
  | /-- The `j`-th outstanding write sends `k` more bytes. -/
    send (j k : Nat)
  | /-- The `j`-th outstanding write completes. -/
    writeDone (j : Nat) (error : Bool)

namespace Network

variable {n : Nat}

/-- The `j`-th outstanding write and its connection. -/
def write (w : Network n) (j : Nat) : Option (PendingWrite × TcpConnection) := do
  let b ← w.server.writes[j]?
  let c ← w.server.connections.get b.connection
  some (b, c)

def enabled (w : Network n) : NetworkEvent n → Bool
  | .call i e => (w.clients.client i).enabled e
  | .accepted j i now fresh =>
      w.clients.waits i && w.server.enabled (.acceptDone j false now fresh)
  | .failed j fresh => w.server.enabled (.acceptDone j true [] fresh)
  | .send j k => (w.write j).any fun (b, c) ↦ 0 < k && w.sent c.serial + k ≤ b.text.length
  | .writeDone j error => (w.write j).any fun (b, c) ↦ error || w.sent c.serial = b.text.length

def step (w : Network n) : NetworkEvent n → Option (Network n)
  | .call i e => some { w with clients := w.clients.call i e }
  | .accepted j i now fresh => do
      let p ← w.server.accepts[j]?
      let c ← w.server.connections.get p
      let server ← w.server.step (.acceptDone j false now fresh)
      some
        { w with
          server := server
          clients := w.clients.accept i
          peer := Function.update w.peer c.serial (some i) }
  | .failed j fresh => do
      let server ← w.server.step (.acceptDone j true [] fresh)
      some { w with server := server }
  | .send j k => do
      let (_, c) ← w.write j
      let i ← w.peer c.serial
      some
        { w with
          clients := w.clients.send i ((c.message.drop (w.sent c.serial)).take k)
          sent := Function.update w.sent c.serial (w.sent c.serial + k) }
  | .writeDone j error => do
      let (b, c) ← w.write j
      let i ← w.peer c.serial
      let server ← w.server.step (.writeDone j error)
      -- a connection that is gone has closed its socket
      let gone := (server.connections b.connection).isNone
      some
        { w with
          server := server
          clients := if gone then w.clients.close i else w.clients }

/-- The runs of a server and `n` clients. -/
def system (n : Nat) : System (Network n) (NetworkEvent n) where
  init w := ∃ p, w = ⟨Server.tcpServer p, .start n, fun _ ↦ none, fun _ ↦ 0⟩
  enabled := enabled
  step := step

section Step

variable {w w' : Network n}

theorem step_accepted {j fresh : Nat} {i : Fin n} {now : List UInt8}
    (hs : w.step (.accepted j i now fresh) = some w') :
    ∃ p c, w.server.accepts[j]? = some p ∧ w.server.connections.get p = some c ∧
      w.server.step (.acceptDone j false now fresh) = some w'.server ∧
        w'.clients = w.clients.accept i ∧ w'.sent = w.sent ∧
          w'.peer = Function.update w.peer c.serial (some i) := by
  simp only [step, Option.bind_eq_bind, Option.bind_eq_some_iff] at hs
  obtain ⟨p, hp, c, hc, server, hstep, hw⟩ := hs
  cases hw
  exact ⟨p, c, hp, hc, hstep, rfl, rfl, rfl⟩

theorem step_send {j k : Nat} (hs : w.step (.send j k) = some w') :
    ∃ b c i, w.write j = some (b, c) ∧ w.peer c.serial = some i ∧ w'.server = w.server ∧
      w'.clients = w.clients.send i ((c.message.drop (w.sent c.serial)).take k) ∧
        w'.sent = Function.update w.sent c.serial (w.sent c.serial + k) ∧ w'.peer = w.peer := by
  simp only [step, Option.bind_eq_bind, Option.bind_eq_some_iff] at hs
  obtain ⟨⟨b, c⟩, hb, i, hi, hw⟩ := hs
  cases hw
  exact ⟨b, c, i, hb, hi, rfl, rfl, rfl, rfl⟩

theorem step_writeDone {j : Nat} {error : Bool} (hs : w.step (.writeDone j error) = some w') :
    ∃ b c i, w.write j = some (b, c) ∧ w.peer c.serial = some i ∧
      w.server.step (.writeDone j error) = some w'.server ∧ w'.sent = w.sent ∧
        w'.peer = w.peer ∧ w'.clients =
          if (w'.server.connections b.connection).isNone then w.clients.close i
          else w.clients := by
  simp only [step, Option.bind_eq_bind, Option.bind_eq_some_iff] at hs
  obtain ⟨⟨b, c⟩, hb, i, hi, server, hstep, hw⟩ := hs
  cases hw
  exact ⟨b, c, i, hb, hi, hstep, rfl, rfl, rfl⟩

end Step

/-! ## The refinement -/

/-- What the server has done for its clients so far is `t`. -/
structure Represents (w : Network n) (t : Service n) : Prop where
  writing : ∃ a m, w.server.Writing a m
  conveys : t.Conveys
  clients : t.clients = w.clients
  unsent : ∀ s, s ∉ w.server.accepted → w.peer s = none ∧ w.sent s = 0
  unique : ∀ s s' i, w.peer s = some i → w.peer s' = some i → s = s'
  unserved : ∀ i, (∀ s, w.peer s ≠ some i) → t.supply i = none
  served : ∀ s ∈ w.server.accepted, ∃ i text, w.peer s = some i ∧
    (s, text) ∈ w.server.writeCalls ∧
      t.supply i = some ⟨text, w.sent s, decide (some s ∉ w.server.pending)⟩

variable {w w' : Network n} {t : Service n}

theorem represents_start (p : Nat) :
    Represents ⟨Server.tcpServer p, .start n, fun _ ↦ none, fun _ ↦ 0⟩ (.start n) where
  writing := ⟨p, 0, Server.writing_tcpServer p⟩
  conveys := Service.conveys_start n
  clients := rfl
  unsent _ _ := ⟨rfl, rfl⟩
  unique := by simp
  unserved _ _ := rfl
  served := by simp [Server.tcpServer, Server.startAccept, Server.create]

theorem exists_write {j s : Nat} (hs : w.server.pending[j]? = some (some s)) :
    ∃ b c, w.write j = some (b, c) ∧ c.serial = s := by
  rw [Server.pending, List.getElem?_map, Option.map_eq_some_iff] at hs
  obtain ⟨b, hb, hserial⟩ := hs
  obtain ⟨c, hc, hcs⟩ := Option.map_eq_some_iff.mp hserial
  refine ⟨b, c, ?_, hcs⟩
  simp only [write, hb, hc, Option.bind_eq_bind, Option.bind_some]

/-- What is known of an outstanding write. -/
theorem Represents.write (h : Represents w t) {j : Nat} {b : PendingWrite} {c : TcpConnection}
    (hw : w.write j = some (b, c)) :
    w.server.writes[j]? = some b ∧ w.server.serial b = some c.serial ∧
      some c.serial ∈ w.server.pending ∧ c.message = b.text ∧
        (c.serial, b.text) ∈ w.server.writeCalls ∧ ∃ i, w.peer c.serial = some i ∧
          t.supply i = some ⟨b.text, w.sent c.serial, false⟩ := by
  obtain ⟨a, m, hwriting⟩ := h.writing
  simp only [Network.write, Option.bind_eq_bind, Option.bind_eq_some_iff, Option.some.injEq,
    Prod.mk.injEq] at hw
  obtain ⟨b, hb, c, hc, rfl, rfl⟩ := hw
  have hserial : w.server.serial b = some c.serial := by rw [Server.serial, hc, Option.map_some]
  have hpending : some c.serial ∈ w.server.pending :=
    List.mem_map.mpr ⟨b, List.mem_of_getElem? hb, hserial⟩
  obtain ⟨c', hc', -, hmessage, hcall⟩ := hwriting.writing b (List.mem_of_getElem? hb)
  cases hc.symm.trans hc'
  obtain ⟨i, text, hi, htext, hsupply⟩ := h.served c.serial (hwriting.accepted_of_called hcall)
  cases hwriting.text_unique hcall htext
  refine ⟨hb, hserial, hpending, hmessage, hcall, i, hi, ?_⟩
  rw [hsupply, decide_eq_false (not_not_intro hpending)]

/-- A call of a client returns. -/
theorem Represents.call (h : Represents w t) {i : Fin n} {e : ClientCall}
    (he : (w.clients.client i).enabled e = true) :
    Represents { w with clients := w.clients.call i e }
      { t with clients := t.clients.call i e } where
  writing := h.writing
  conveys := h.conveys.call (h.clients ▸ he)
  clients := by rw [h.clients]
  unsent := h.unsent
  unique := h.unique
  unserved := h.unserved
  served := h.served

/-- An accept fails, and the clients do not notice. -/
theorem Represents.failed (h : Represents w t) {j fresh : Nat} {server : Server}
    (he : w.server.enabled (.acceptDone j true [] fresh) = true)
    (hs : w.server.step (.acceptDone j true [] fresh) = some server) :
    Represents { w with server := server } t := by
  obtain ⟨a, m, hwriting⟩ := h.writing
  obtain ⟨⟨a', h'⟩, hpending, haccepted, hcalls⟩ := hwriting.failed he hs
  refine ⟨⟨a', m + 1, h'⟩, h.conveys, h.clients, ?_, h.unique, h.unserved, ?_⟩
  · rw [haccepted]
    exact h.unsent
  · rw [haccepted, hpending, hcalls]
    exact h.served

/-- Who is at the other end of a connection has been served by it. -/
theorem Represents.accepted_of_peer (h : Represents w t) {s : Nat} {i : Fin n}
    (hi : w.peer s = some i) : s ∈ w.server.accepted := by
  by_contra hs
  rw [(h.unsent s hs).1] at hi
  cases hi

theorem Represents.supply_of_peer (h : Represents w t) {s : Nat} {i : Fin n}
    (hi : w.peer s = some i) : ∃ text, (s, text) ∈ w.server.writeCalls ∧
      t.supply i = some ⟨text, w.sent s, decide (some s ∉ w.server.pending)⟩ := by
  obtain ⟨k, text, hk, htext, hsupply⟩ := h.served s (h.accepted_of_peer hi)
  cases hi.symm.trans hk
  exact ⟨text, htext, hsupply⟩

/-- An accept succeeds with a client that has waited. -/
theorem Represents.accepted (h : Represents w t) {j fresh : Nat} {i : Fin n} {now : List UInt8}
    (he : w.enabled (.accepted j i now fresh) = true)
    (hs : w.step (.accepted j i now fresh) = some w') :
    Represents w' (t.serve i (t.clients.accept i) ⟨now, 0, false⟩) := by
  obtain ⟨a, m, hwriting⟩ := h.writing
  simp only [enabled, Bool.and_eq_true, Clients.waits_iff] at he
  obtain ⟨hi, he⟩ := he
  obtain ⟨p, c, hp, hc, hstep, hclients, hsent, hpeer⟩ := step_accepted hs
  obtain rfl : p = a := by
    have hmem := List.mem_of_getElem? hp
    rwa [hwriting.accepts, List.mem_singleton] at hmem
  cases hc.symm.trans hwriting.waiting
  obtain ⟨⟨a', h'⟩, hpending, haccepted, hcalls⟩ := hwriting.accepted he hstep
  have hnone : t.supply i = none := (h.conveys.waiting i (h.clients ▸ hi)).1
  have hfresh : m ∉ w.server.accepted := fun hm ↦
    absurd (hwriting.lt_of_accepted hm) (Nat.lt_irrefl m)
  have hnot {s : Nat} : w.peer s ≠ some i := fun hs ↦ by
    obtain ⟨text, -, hsupply⟩ := h.supply_of_peer hs
    rw [hnone] at hsupply
    cases hsupply
  refine ⟨⟨a', m + 1, h'⟩, h.conveys.accept (h.clients ▸ hi) now, ?_, fun s hs ↦ ?_,
    fun s s' k hs hs' ↦ ?_, fun k hk ↦ ?_, fun s hs ↦ ?_⟩
  · rw [Service.clients_serve, h.clients, hclients]
  · rw [haccepted, List.mem_append, List.mem_singleton, not_or] at hs
    rw [hpeer, hsent, Function.update_of_ne hs.2]
    exact h.unsent s hs.1
  · rw [hpeer, Function.update_apply] at hs hs'
    split at hs <;> split at hs'
    · rw [‹s = m›, ‹s' = m›]
    · cases hs
      exact absurd hs' hnot
    · cases hs'
      exact absurd hs hnot
    · exact h.unique s s' k hs hs'
  · rw [hpeer] at hk
    have hki : k ≠ i := fun he ↦ hk m (by rw [Function.update_self, he])
    rw [Service.supply_serve_of_ne hki]
    refine h.unserved k fun s hs ↦ ?_
    by_cases hsm : s = m
    · rw [hsm, (h.unsent m hfresh).1] at hs
      cases hs
    · exact hk s (by rw [Function.update_of_ne hsm, hs])
  · rw [haccepted, List.mem_append, List.mem_singleton] at hs
    rw [hpending, hcalls, hpeer, hsent]
    rcases hs with hs | rfl
    · obtain ⟨k, text, hk, htext, hsupply⟩ := h.served s hs
      have hsm : s ≠ m := fun he ↦ hfresh (he ▸ hs)
      have hki : k ≠ i := fun he ↦ hnot (he ▸ hk)
      refine ⟨k, text, by rw [Function.update_of_ne hsm, hk], List.mem_append_left _ htext, ?_⟩
      rw [Service.supply_serve_of_ne hki, hsupply]
      simp [hsm]
    · refine ⟨i, now, Function.update_self .., by simp, ?_⟩
      rw [Service.supply_serve_self, (h.unsent s hfresh).2]
      simp

/-- What is done for the client of one connection leaves the others as they are. -/
theorem Represents.served_of_ne (h : Represents w t) {s s' : Nat} {i : Fin n}
    (hi : w.peer s = some i) {clients : Clients n} {u : Supply} (hs : s' ≠ s)
    (hs' : s' ∈ w.server.accepted) : ∃ k text, w.peer s' = some k ∧
      (s', text) ∈ w.server.writeCalls ∧ (t.serve i clients u).supply k =
        some ⟨text, w.sent s', decide (some s' ∉ w.server.pending)⟩ := by
  obtain ⟨k, text, hk, htext, hsupply⟩ := h.served s' hs'
  have hki : k ≠ i := fun he ↦ hs (h.unique s' s i (he ▸ hk) hi)
  exact ⟨k, text, hk, htext, by rw [Service.supply_serve_of_ne hki, hsupply]⟩

theorem Represents.unserved_serve (h : Represents w t) {s : Nat} {i : Fin n}
    (hi : w.peer s = some i) {clients : Clients n} {u : Supply} (k : Fin n)
    (hk : ∀ s, w.peer s ≠ some k) : (t.serve i clients u).supply k = none := by
  have hki : k ≠ i := fun he ↦ hk s (he ▸ hi)
  rw [Service.supply_serve_of_ne hki]
  exact h.unserved k hk

/-- A write sends some more of the text. -/
theorem Represents.send (h : Represents w t) {j k : Nat}
    (he : w.enabled (.send j k) = true) (hs : w.step (.send j k) = some w') :
    ∃ i t', t.enabled (.send i k) = true ∧ t.step (.send i k) = some t' ∧ Represents w' t' := by
  obtain ⟨b, c, i, hb, hi, hserver, hclients, hsent, hpeer⟩ := step_send hs
  obtain ⟨-, -, hpending, hmessage, htext, i', hi', hsupply⟩ := h.write hb
  cases hi.symm.trans hi'
  simp only [enabled, hb, Option.any_some, Bool.and_eq_true, decide_eq_true_eq] at he
  have henabled : t.enabled (.send i k) = true := by simp [Service.enabled, hsupply, he.1, he.2]
  have hstep : t.step (.send i k) = some (t.serve i
      (t.clients.send i ((b.text.drop (w.sent c.serial)).take k))
        ⟨b.text, w.sent c.serial + k, false⟩) := by
    rw [Service.step, hsupply, Option.map_some]
  refine ⟨i, _, henabled, hstep, hserver ▸ h.writing, h.conveys.step henabled hstep, ?_,
    fun s hs ↦ ?_, hpeer ▸ h.unique, hpeer ▸ h.unserved_serve hi, fun s hs ↦ ?_⟩
  · rw [Service.clients_serve, h.clients, hclients, hmessage]
  · rw [hserver] at hs
    have hne : s ≠ c.serial := fun he ↦ hs (he ▸ h.accepted_of_peer hi)
    rw [hpeer, hsent, Function.update_of_ne hne]
    exact h.unsent s hs
  · rw [hserver] at hs
    rw [hpeer, hserver, hsent]
    by_cases hsc : s = c.serial
    · subst hsc
      refine ⟨i, b.text, hi, htext, ?_⟩
      rw [Service.supply_serve_self, Function.update_self,
        decide_eq_false (not_not_intro hpending)]
    · rw [Function.update_of_ne hsc]
      exact h.served_of_ne hi hsc hs

/-- A write completes: the connection is destroyed, and so its socket is closed. -/
theorem Represents.writeDone (h : Represents w t) {j : Nat} {error : Bool}
    (hs : w.step (.writeDone j error) = some w') :
    ∃ b c i t', w.write j = some (b, c) ∧ t.supply i = some ⟨b.text, w.sent c.serial, false⟩ ∧
      t.enabled (.close i) = true ∧ t.step (.close i) = some t' ∧ Represents w' t' := by
  obtain ⟨a, m, hwriting⟩ := h.writing
  obtain ⟨b, c, i, hb, hi, hserver, hsent, hpeer, hclients⟩ := step_writeDone hs
  obtain ⟨hwrite, hserial, -, -, htext, i', hi', hsupply⟩ := h.write hb
  cases hi.symm.trans hi'
  obtain ⟨⟨a', h'⟩, hpending, haccepted, hcalls, hgone⟩ := hwriting.written hwrite hserver
  have henabled : t.enabled (.close i) = true := by simp [Service.enabled, hsupply]
  have hstep : t.step (.close i) = some (t.serve i (t.clients.close i)
      ⟨b.text, w.sent c.serial, true⟩) := by
    rw [Service.step, hsupply, Option.map_some]
  -- the connection of the write was pending once
  have hmem (s : Nat) : some s ∈ w'.server.pending ↔ s ≠ c.serial ∧ some s ∈ w.server.pending := by
    rw [hpending, hserial, hwriting.once.mem_erase_iff, ne_eq, Option.some.injEq]
  refine ⟨b, c, i, _, hb, hsupply, henabled, hstep, ⟨a', m, h'⟩,
    h.conveys.step henabled hstep, ?_, ?_, hpeer ▸ h.unique, hpeer ▸ h.unserved_serve hi,
    fun s hs ↦ ?_⟩
  · rw [Service.clients_serve, h.clients, hclients, hgone, Option.isNone_none, if_pos rfl]
  · rw [haccepted, hpeer, hsent]
    exact h.unsent
  · rw [haccepted] at hs
    rw [hpeer, hsent, hcalls]
    by_cases hsc : s = c.serial
    · subst hsc
      refine ⟨i, b.text, hi, htext, ?_⟩
      have hgone : some c.serial ∉ w'.server.pending := fun hs ↦ ((hmem _).mp hs).1 rfl
      rw [Service.supply_serve_self, decide_eq_true hgone]
    · simp only [hmem, hsc, ne_eq, not_false_eq_true, true_and]
      exact h.served_of_ne hi hsc hs

/-- No step has undefined behaviour. -/
theorem Represents.exists_step (h : Represents w t) {e : NetworkEvent n}
    (he : w.enabled e = true) : ∃ w', w.step e = some w' := by
  obtain ⟨a, m, hwriting⟩ := h.writing
  cases e with
  | call i e => exact ⟨_, rfl⟩
  | accepted j i now fresh =>
      simp only [enabled, Bool.and_eq_true] at he
      obtain ⟨server, hserver⟩ := hwriting.exists_step he.2
      simp only [Server.enabled, Bool.and_eq_true] at he
      obtain ⟨p, hp⟩ := Option.isSome_iff_exists.mp he.2.1
      have hpa : p = a := by
        have hmem := List.mem_of_getElem? hp
        rwa [hwriting.accepts, List.mem_singleton] at hmem
      simp [Network.step, hp, hpa, hwriting.waiting, hserver]
  | failed j fresh =>
      obtain ⟨server, hserver⟩ := hwriting.exists_step (e := .acceptDone j true [] fresh) he
      simp [Network.step, hserver]
  | send j k =>
      obtain ⟨⟨b, c⟩, hb, -⟩ := (Option.any_eq_true _ _).mp he
      obtain ⟨-, -, -, -, -, i, hi, -⟩ := h.write hb
      simp [Network.step, hb, hi]
  | writeDone j error =>
      obtain ⟨⟨b, c⟩, hb, -⟩ := (Option.any_eq_true _ _).mp he
      obtain ⟨hwrite, -, -, -, -, i, hi, -⟩ := h.write hb
      obtain ⟨server, hserver⟩ := hwriting.exists_step (e := .writeDone j error)
        (by simp [Server.enabled, hwrite])
      simp [Network.step, hb, hi, hserver]

/-- No write fails. -/
def WritesSucceed (_ : Network n) (e : NetworkEvent n) : Prop := ∀ j, e ≠ .writeDone j true

/-- A text that a client is given is not longer than `L`, and no accept fails. -/
def short (L : Nat) (_ : Network n) : NetworkEvent n → Bool
  | .accepted _ _ now _ => now.length ≤ L
  | .failed _ _ => false
  | _ => true

/-- **The refinement step.**  A step of the network is a step of the service,
unless it is an accept that fails. -/
theorem Represents.step (h : Represents w t) {e : NetworkEvent n} (he : w.enabled e = true)
    (hs : w.step e = some w') : (∃ j fresh, e = .failed j fresh) ∧ Represents w' t ∨
      ∃ e' t', t.enabled e' = true ∧ t.step e' = some t' ∧ Represents w' t' ∧
        (w.WritesSucceed e → t.Whole e') ∧ ∀ L, short L w e = true → t.short L e' = true := by
  cases e with
  | call i e =>
      cases hs
      have he' : t.enabled (.call i e) = true := by
        rw [Service.enabled, h.clients]
        exact he
      exact .inr ⟨.call i e, _, he', rfl, h.call he, fun _ ↦ trivial, fun _ _ ↦ rfl⟩
  | accepted j i now fresh =>
      have hi : t.clients.waits i = true := by
        simp only [enabled, Bool.and_eq_true] at he
        exact h.clients ▸ he.1
      exact .inr ⟨.accept i now, _, hi, rfl, h.accepted he hs, fun _ ↦ trivial,
        fun _ hL ↦ hL⟩
  | failed j fresh =>
      simp only [Network.step, Option.bind_eq_bind, Option.bind_eq_some_iff] at hs
      obtain ⟨server, hserver, hw⟩ := hs
      cases hw
      exact .inl ⟨⟨j, fresh, rfl⟩, h.failed he hserver⟩
  | send j k =>
      obtain ⟨i, t', he', hs', h'⟩ := h.send he hs
      exact .inr ⟨.send i k, t', he', hs', h', fun _ ↦ trivial, fun _ _ ↦ rfl⟩
  | writeDone j error =>
      obtain ⟨b, c, i, t', hb, hsupply, he', hs', h'⟩ := h.writeDone hs
      refine .inr ⟨.close i, t', he', hs', h', fun hg u hu ↦ ?_, fun _ _ ↦ rfl⟩
      cases hsupply.symm.trans hu
      obtain rfl : error = false := by
        cases error with
        | true => exact absurd rfl (hg j)
        | false => rfl
      simpa [enabled, hb] using he

/-- **The refinement.** -/
theorem exists_represents (h : (system n).Reachable Always w) : ∃ t, Represents w t := by
  refine h.invariant (I := fun w ↦ ∃ t, Represents w t) ?_ ?_
  · rintro _ ⟨p, rfl⟩
    exact ⟨_, represents_start p⟩
  · rintro w e w' - ⟨t, h⟩ he - hs
    rcases h.step he hs with ⟨-, h'⟩ | ⟨-, t', -, -, h', -⟩
    · exact ⟨t, h'⟩
    · exact ⟨t', h'⟩

/-- The refinement of the runs in which no write fails. -/
theorem exists_whole (h : (system n).Reachable WritesSucceed w) :
    ∃ t, (Service.system n).Reachable Service.Whole t ∧ Represents w t := by
  refine h.simulate ?_ ?_
  · rintro _ ⟨p, rfl⟩
    exact ⟨_, rfl, represents_start p⟩
  · intro w e w' t _ ht hr he hg hs
    rcases hr.step he hs with ⟨-, h'⟩ | ⟨e', t', he', hs', h', hwhole, -⟩
    · exact ⟨t, ht, h'⟩
    · exact ⟨t', ht.step he' (hwhole hg) hs', h'⟩

end Network

end CppExamples.AsyncTcp
