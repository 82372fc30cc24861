import CppExamples.WinSock.FileSizeUdp
import Mathlib.Algebra.BigOperators.Group.Finset.Basic

/-!
# Who gets an answer

A datagram is received as a whole or not at all.  So what a client prints is the
answer to its own name, other than over TCP, unless its `recvfrom` fails: then it
prints an empty size (`own_answer`).

The server returns after one answer.  Of the clients that have been started, one
is served, and the others wait for ever, even if nothing fails (`one_served`).
-/

namespace CppExamples.WinSock.FileSize

open CppExamples.Lib CppExamples.AsyncUdp

namespace UdpSession

variable {n : Nat} {A : UdpAddresses n} {files : Files} {lines : Fin n → List UInt8}
  {w w' : UdpSession n}

/-- The answer to the name that is typed at client `i`. -/
def answer (files : Files) (lines : Fin n → List UInt8) (i : Fin n) : List UInt8 :=
  sendbuf (fileSize files (getFilename (lines i)))

/-- The clients ask and the server answers, and nothing else is sent. -/
structure Serves (A : UdpAddresses n) (files : Files) (lines : Fin n → List UInt8)
    (w : UdpSession n) : Prop where
  filename : ∀ i, (w.clients i).filename = getFilename (lines i)
  sent : ∀ q ∈ w.sent, (∃ i, q = ⟨A.client i, A.server, getFilename (lines i)⟩) ∨
    w.server.state = .returned ∧ ∃ i, w.server.cliAddr = A.client i ∧
      q = ⟨A.server, A.client i, answer files lines i⟩
  server : w.server.state = .recvfrom ∨ ∃ i, w.server.cliAddr = A.client i ∧
    (w.server.state = .sendto (answer files lines i) ∨ w.server.state = .returned)
  answers : ∀ i l, .answer l ∈ (w.clients i).console → l = .size (getFilename (lines i)) [] ∨
    w.server.state = .returned ∧ w.server.cliAddr = A.client i ∧
      l = report (getFilename (lines i)) (answer files lines i)

theorem serves_start (lines : Fin n → List UInt8) (uninit : Endpoint) :
    Serves A files lines (start lines uninit) :=
  ⟨fun _ ↦ rfl, by simp [start], .inl rfl, by simp [start]⟩

theorem received_datagram (address : Endpoint) {d : Datagram}
    (h : d.bytes.length ≤ DEFAULT_BUFLEN) :
    received address (.datagram d) = (d.source, d.bytes) := by
  simp [received, recvfrom, h, List.take_of_length_le h]

/-- What arrives at a client is the answer to its name, and the server has
returned. -/
theorem Serves.sent_client (h : Serves A files lines w) {i : Fin n} {d : Datagram}
    (hd : w.delivers (A.client i) (.datagram d) = true) :
    w.server.state = .returned ∧ w.server.cliAddr = A.client i ∧
      d = ⟨A.server, answer files lines i⟩ := by
  rcases h.sent _ (of_decide_eq_true hd) with ⟨k, hq⟩ | ⟨hstate, k, hk, hq⟩
  · exact absurd (Packet.mk.inj hq).2.1 (A.client_ne_server i)
  · obtain ⟨hsource, hdest, hbytes⟩ := Packet.mk.inj hq
    obtain rfl : i = k := A.injective hdest
    exact ⟨hstate, hk, by rw [← hsource, ← hbytes]⟩

/-- What arrives at the server, before it has answered, is a name. -/
theorem Serves.sent_server (h : Serves A files lines w) (hs : w.server.state = .recvfrom)
    {d : Datagram} (hd : w.delivers A.server (.datagram d) = true) :
    ∃ i, d = ⟨A.client i, getFilename (lines i)⟩ := by
  rcases h.sent _ (of_decide_eq_true hd) with ⟨i, hq⟩ | ⟨hstate, -⟩
  · obtain ⟨hsource, -, hbytes⟩ := Packet.mk.inj hq
    exact ⟨i, by rw [← hsource, ← hbytes]⟩
  · cases hs.symm.trans hstate

theorem length_answer_le (i : Fin n) : (answer files lines i).length ≤ DEFAULT_BUFLEN :=
  (length_sendbuf_le _ _).trans (by decide)

/-- The size that a client goes on with. -/
theorem Serves.received_client (h : Serves A files lines w) {i : Fin n} {a : Arrival}
    (ha : w.delivers (A.client i) a = true) (address : Endpoint) :
    (received address a).2 = [] ∨ w.server.state = .returned ∧ w.server.cliAddr = A.client i ∧
      (received address a).2 = answer files lines i := by
  cases a with
  | failure error => exact .inl rfl
  | datagram d =>
      obtain ⟨hstate, haddr, rfl⟩ := h.sent_client ha
      rw [received_datagram _ (length_answer_le i)]
      exact .inr ⟨hstate, haddr, rfl⟩

/-- A step of client `i` that prints an answer or none. -/
theorem Serves.setClient (h : Serves A files lines w) {i : Fin n} {c : UdpClient}
    (hname : c.filename = (w.clients i).filename)
    (hprint : ∀ l, .answer l ∈ c.console → .answer l ∈ (w.clients i).console ∨
      l = .size (getFilename (lines i)) [] ∨ w.server.state = .returned ∧
        w.server.cliAddr = A.client i ∧
          l = report (getFilename (lines i)) (answer files lines i)) :
    Serves A files lines (w.setClient i c) := by
  refine ⟨(Function.forall_update_iff w.clients fun k c ↦ c.filename = getFilename (lines k)).mpr
    ⟨hname.trans (h.filename i), fun k _ ↦ h.filename k⟩, h.sent, h.server, ?_⟩
  refine (Function.forall_update_iff w.clients fun k c ↦ ∀ l, .answer l ∈ c.console →
    l = .size (getFilename (lines k)) [] ∨ w.server.state = .returned ∧
      w.server.cliAddr = A.client k ∧
        l = report (getFilename (lines k)) (answer files lines k)).mpr
    ⟨fun l hl ↦ ?_, fun k _ ↦ h.answers k⟩
  rcases hprint l hl with hl | hl
  · exact h.answers i l hl
  · exact hl

/-- A packet of a client. -/
theorem Serves.send (h : Serves A files lines w) (error : Bool) (i : Fin n) :
    Serves A files lines (w.send error ⟨A.client i, A.server, getFilename (lines i)⟩) := by
  refine ⟨by simpa using h.filename, fun q hq ↦ ?_, by simpa using h.server,
    by simpa using h.answers⟩
  rw [server_send]
  rcases mem_send hq with hq | ⟨-, rfl⟩
  · exact h.sent q hq
  · exact .inl ⟨i, rfl⟩

/-- What the server is about to send, and to whom. -/
theorem Serves.sending (h : Serves A files lines w) {text : List UInt8}
    (hs : w.server.state = .sendto text) :
    ∃ i, w.server.cliAddr = A.client i ∧ text = answer files lines i := by
  obtain ⟨i, haddr, htext⟩ := h.server.resolve_left (by simp [hs])
  refine ⟨i, haddr, ?_⟩
  have heq := hs.symm.trans (htext.resolve_right (by simp [hs]))
  cases heq
  rfl

/-- A `recvfrom` of a client. -/
theorem Serves.clientRecvfrom (h : Serves A files lines w) {i : Fin n} {a : Arrival}
    (ha : w.delivers (A.client i) a = true) :
    Serves A files lines (w.setClient i ((w.clients i).recvfrom A.server a)) := by
  refine h.setClient rfl fun l hl ↦ ?_
  obtain hl | rfl : .answer l ∈ (w.clients i).console ∨
      l = report (w.clients i).filename (received A.server a).2 := by
    simpa [UdpClient.recvfrom] using hl
  · exact .inl hl
  · rw [h.filename]
    rcases h.received_client ha A.server with hnil | ⟨hstate, haddr, hanswer⟩
    · exact .inr (.inl (by rw [hnil]; rfl))
    · exact .inr (.inr ⟨hstate, haddr, by rw [hanswer]⟩)

/-- A name arrives at the server. -/
theorem Serves.serverRecvfrom (h : Serves A files lines w) (hs : w.server.state = .recvfrom)
    {d : Datagram} (hd : w.delivers A.server (.datagram d) = true) :
    Serves A files lines { w with server := w.server.recvfrom files (.datagram d) } := by
  have hnot : w.server.state ≠ .returned := by simp [hs]
  obtain ⟨i, rfl⟩ := h.sent_server hs hd
  have hreceived := received_datagram w.server.cliAddr
    (d := ⟨A.client i, getFilename (lines i)⟩) (getFilename_spec (lines i)).2.le
  refine ⟨h.filename, fun q hq ↦ ?_, .inr ⟨i, ?_⟩, fun k l hl ↦ ?_⟩
  · exact .inl ((h.sent q hq).resolve_right fun hr ↦ hnot hr.1)
  · simp [UdpServer.recvfrom, hreceived, answer]
  · exact .inl ((h.answers k l hl).resolve_right fun hr ↦ hnot hr.1)

/-- The one answer of the server. -/
theorem Serves.serverSendto (h : Serves A files lines w) {text : List UInt8}
    (hs : w.server.state = .sendto text) (error : Bool) :
    Serves A files lines ({ w with server := w.server.sendto }.send error
      ⟨A.server, w.server.cliAddr, text⟩) := by
  have hnot : w.server.state ≠ .returned := by simp [hs]
  obtain ⟨i, haddr, rfl⟩ := h.sending hs
  refine ⟨by simpa using h.filename, fun q hq ↦ ?_, ?_, fun k l hl ↦ ?_⟩ <;> rw [server_send]
  · rcases mem_send hq with hq | ⟨-, rfl⟩
    · exact .inl ((h.sent q hq).resolve_right fun hr ↦ hnot hr.1)
    · exact .inr ⟨rfl, i, haddr, by rw [haddr]⟩
  · exact .inr ⟨i, haddr, .inr rfl⟩
  · rw [clients_send] at hl
    exact .inl ((h.answers k l hl).resolve_right fun hr ↦ hnot hr.1)

/-- A `recvfrom` of the server that does not fail. -/
def ServerHears (_ : UdpSession n) (e : UdpEvent n) : Prop :=
  ∀ error, e ≠ .serverRecvfrom (.failure error)

theorem Serves.step (h : Serves A files lines w) {e : UdpEvent n} (he : w.enabled A e = true)
    (hg : ServerHears w e) (hs : w.step A files e = some w') : Serves A files lines w' := by
  cases e with
  | clientSendto i error =>
      cases hs
      rw [h.filename]
      refine (h.setClient (c := (w.clients i).sendto A.server) rfl fun l hl ↦ .inl ?_).send error i
      simpa [UdpClient.sendto] using hl
  | clientRecvfrom i a =>
      cases hs
      simp only [enabled, Bool.and_eq_true] at he
      exact h.clientRecvfrom he.2
  | serverRecvfrom a =>
      cases hs
      simp only [enabled, Bool.and_eq_true, decide_eq_true_eq] at he
      cases a with
      | failure error => exact absurd rfl (hg error)
      | datagram d => exact h.serverRecvfrom he.1 he.2
  | serverSendto error =>
      simp only [UdpSession.step] at hs
      split at hs
      · rename_i text hstate
        cases hs
        exact h.serverSendto hstate error
      · cases hs
  | lose q =>
      cases hs
      exact ⟨h.filename, fun q hq ↦ h.sent q (List.mem_of_mem_erase hq), h.server, h.answers⟩

theorem serves_of_hears (h : (system A files lines).Reachable ServerHears w) :
    Serves A files lines w := by
  induction h with
  | init hi =>
      obtain ⟨uninit, rfl⟩ := hi
      exact serves_start lines uninit
  | step _ he hg hs ih => exact ih.step he hg hs

/-- **Every client prints the answer to its own name, or an empty size.**  In every
run in which the server's `recvfrom` does not fail, what is not an empty size is
the server's answer to the name that was typed at this client.  This answer is right
exactly if the file is shorter than 2 GiB or does not exist, and only one client
gets one. -/
theorem own_answer (h : (system A files lines).Reachable ServerHears w) :
    (∀ i l, .answer l ∈ (w.clients i).console → l = .size (getFilename (lines i)) [] ∨
      l = report (getFilename (lines i)) (sendbuf (fileSize files (getFilename (lines i)))) ∧
        (Truthful files (getFilename (lines i)) l ↔
          ∀ length, files (getFilename (lines i)) = some length → length < 2 ^ 31)) ∧
    ∀ i k l l', .answer l ∈ (w.clients i).console → .answer l' ∈ (w.clients k).console →
      l.text ≠ [] → l'.text ≠ [] → i = k := by
  have hserves := serves_of_hears h
  refine ⟨fun i l hl ↦ ?_, fun i k l l' hl hl' hne hne' ↦ ?_⟩
  · refine (hserves.answers i l hl).imp_right ?_
    rintro ⟨-, -, rfl⟩
    exact ⟨rfl, truthful_report_iff (getFilename_spec (lines i)).1⟩
  · have haddr {i : Fin n} {l : Line} (hl : .answer l ∈ (w.clients i).console)
        (hne : l.text ≠ []) : w.server.cliAddr = A.client i := by
      rcases hserves.answers i l hl with rfl | ⟨-, haddr, -⟩
      · exact absurd rfl hne
      · exact haddr
    exact A.injective ((haddr hl hne).symm.trans (haddr hl' hne'))

/-- Two clients and the server on one machine. -/
def twoClients : UdpAddresses 2 where
  client i := ⟨0x7f000001, 5000 + BitVec.ofNat 16 i⟩
  server := ⟨0x7f000001, 6666⟩
  injective := by decide
  client_ne_server := by decide

/-- The names `a` and `b` are typed. -/
def twoLines (i : Fin 2) : List UInt8 := if i.val = 0 then [97] else [98]

/-- There is a file `b` of seven bytes, and no other. -/
def fileB (filename : List UInt8) : Option Nat := if filename = [98] then some 7 else none

/-- What `cliAddr` happens to hold. -/
def anyEndpoint : Endpoint := ⟨0, 0⟩

/-- A test for runs in which the server hears. -/
def serverHearsTest (_ : UdpSession n) : UdpEvent n → Bool
  | .serverRecvfrom (.failure _) => false
  | _ => true

theorem serverHears_of_test (w : UdpSession n) (e : UdpEvent n) (h : serverHearsTest w e = true) :
    ServerHears w e := by
  rintro error rfl
  cases h

/-- The first client has a failing `recvfrom`, the second one gets its answer. -/
theorem own_answer_failed : ∃ w : UdpSession 2,
    .answer (.size [97] []) ∈ (w.clients 0).console ∧
    .answer (.size [98] [55]) ∈ (w.clients 1).console ∧
    (∀ i l, .answer l ∈ (w.clients i).console → l = .size (getFilename (twoLines i)) [] ∨
      l = report (getFilename (twoLines i)) (sendbuf (fileSize fileB (getFilename (twoLines i)))) ∧
        (Truthful fileB (getFilename (twoLines i)) l ↔
          ∀ length, fileB (getFilename (twoLines i)) = some length → length < 2 ^ 31)) ∧
    ∀ i k l l', .answer l ∈ (w.clients i).console → .answer l' ∈ (w.clients k).console →
      l.text ≠ [] → l'.text ≠ [] → i = k := by
  obtain ⟨w, hw, hp⟩ : ∃ w, (system twoClients fileB twoLines).Reachable ServerHears w ∧
      .answer (.size [97] []) ∈ (w.clients 0).console ∧
        .answer (.size [98] [55]) ∈ (w.clients 1).console :=
    System.reachable_of_exec serverHears_of_test (.init ⟨anyEndpoint, rfl⟩)
      [.clientSendto 0 true, .clientRecvfrom 0 (.failure 10022), .clientSendto 1 false,
        .serverRecvfrom (.datagram ⟨twoClients.client 1, [98]⟩), .serverSendto false,
        .clientRecvfrom 1 (.datagram ⟨twoClients.server, [55]⟩)] (by decide)
  exact ⟨w, hp.1, hp.2, own_answer hw⟩

/-! ## Runs in which every call succeeds -/

/-- A call that returns has succeeded. -/
def Succeeds (_ : UdpSession n) : UdpEvent n → Prop
  | .clientSendto _ error | .serverSendto error => error = false
  | .clientRecvfrom _ a | .serverRecvfrom a => ∃ d, a = .datagram d
  | .lose _ => True

/-- A call returns and has succeeded; the network loses nothing. -/
def Reliable (w : UdpSession n) (e : UdpEvent n) : Prop := w.Succeeds e ∧ e.isCall = true

/-- Only the client that is served has returned. -/
structure Served (A : UdpAddresses n) (files : Files) (lines : Fin n → List UInt8)
    (w : UdpSession n) : Prop extends Serves A files lines w where
  served : ∀ i, (w.clients i).state = .returned →
    w.server.state = .returned ∧ w.server.cliAddr = A.client i ∧
      .answer (report (getFilename (lines i)) (answer files lines i)) ∈ (w.clients i).console

/-- Everybody has sent what it should have, and nothing of it has been lost. -/
structure Progress (A : UdpAddresses n) (files : Files) (lines : Fin n → List UInt8)
    (w : UdpSession n) : Prop extends Served A files lines w where
  asked : ∀ i, (w.clients i).state = .sendto ∨
    ⟨A.client i, A.server, getFilename (lines i)⟩ ∈ w.sent
  answered : ∀ i, w.server.state = .returned → w.server.cliAddr = A.client i →
    ⟨A.server, A.client i, answer files lines i⟩ ∈ w.sent

theorem served_start (lines : Fin n → List UInt8) (uninit : Endpoint) :
    Served A files lines (start lines uninit) :=
  ⟨serves_start lines uninit, by simp [start]⟩

theorem progress_start (lines : Fin n → List UInt8) (uninit : Endpoint) :
    Progress A files lines (start lines uninit) :=
  ⟨served_start lines uninit, fun _ ↦ .inl rfl, by simp [start]⟩

/-- Nobody has returned before the server has. -/
theorem Served.not_returned (h : Served A files lines w) (hs : w.server.state ≠ .returned)
    (i : Fin n) : (w.clients i).state ≠ .returned := fun hi ↦ hs (h.served i hi).1

/-- What a client prints for the answer of the server. -/
theorem Serves.printed (h : Serves A files lines w) {i : Fin n} {d : Datagram}
    (hd : w.delivers (A.client i) (.datagram d) = true) :
    .answer (report (getFilename (lines i)) (answer files lines i)) ∈
      ((w.clients i).recvfrom A.server (.datagram d)).console := by
  obtain ⟨-, -, rfl⟩ := h.sent_client hd
  rw [UdpClient.recvfrom, received_datagram _ (length_answer_le i), h.filename]
  exact List.mem_append_right _ (List.mem_cons_of_mem _ (List.mem_singleton_self _))

theorem Served.step (h : Served A files lines w) {e : UdpEvent n} (he : w.enabled A e = true)
    (hg : w.Succeeds e) (hs : w.step A files e = some w') : Served A files lines w' := by
  have hhears : ServerHears w e := by
    rintro error rfl
    obtain ⟨d, hd⟩ := hg
    cases hd
  refine ⟨h.toServes.step he hhears hs, ?_⟩
  cases e with
  | clientSendto i error =>
      cases hg
      cases hs
      refine (Function.forall_update_iff w.clients fun k c ↦ c.state = .returned →
        w.server.state = .returned ∧ w.server.cliAddr = A.client k ∧
          .answer (report (getFilename (lines k)) (answer files lines k)) ∈ c.console).mpr
        ⟨?_, fun k _ ↦ h.served k⟩
      rintro ⟨⟩
  | clientRecvfrom i a =>
      obtain ⟨d, rfl⟩ := hg
      cases hs
      simp only [enabled, Bool.and_eq_true] at he
      obtain ⟨hserver, haddr, -⟩ := h.sent_client he.2
      exact (Function.forall_update_iff w.clients fun k c ↦ c.state = .returned →
        w.server.state = .returned ∧ w.server.cliAddr = A.client k ∧
          .answer (report (getFilename (lines k)) (answer files lines k)) ∈ c.console).mpr
        ⟨fun _ ↦ ⟨hserver, haddr, h.printed he.2⟩, fun k _ ↦ h.served k⟩
  | serverRecvfrom a =>
      cases hs
      simp only [enabled, Bool.and_eq_true, decide_eq_true_eq] at he
      exact fun i hi ↦ absurd hi (h.not_returned (by simp [he.1]) i)
  | serverSendto error =>
      cases hg
      simp only [UdpSession.step] at hs
      split at hs
      · rename_i text hstate
        cases hs
        exact fun i hi ↦ absurd hi (h.not_returned (by simp [hstate]) i)
      · cases hs
  | lose q =>
      cases hs
      exact h.served

theorem Progress.step (h : Progress A files lines w) {e : UdpEvent n}
    (he : w.enabled A e = true) (hg : w.Reliable e) (hs : w.step A files e = some w') :
    Progress A files lines w' := by
  have hserved := h.toServed.step he hg.1 hs
  cases e with
  | clientSendto i error =>
      cases hg.1
      cases hs
      let q : Packet := ⟨A.client i, A.server, (w.clients i).filename⟩
      refine ⟨hserved, ?_, fun k hs hk ↦ List.mem_append_left _ (h.answered k hs hk)⟩
      refine (Function.forall_update_iff w.clients fun k c ↦ c.state = .sendto ∨
        (⟨A.client k, A.server, getFilename (lines k)⟩ : Packet) ∈ w.sent ++ [q]).mpr
        ⟨.inr ?_, fun k _ ↦ (h.asked k).imp_right (List.mem_append_left _)⟩
      rw [← h.filename]
      exact List.mem_append_right _ (List.mem_singleton_self q)
  | clientRecvfrom i a =>
      cases hs
      simp only [enabled, Bool.and_eq_true, decide_eq_true_eq] at he
      exact ⟨hserved, (Function.forall_update_iff w.clients fun k c ↦ c.state = .sendto ∨
        (⟨A.client k, A.server, getFilename (lines k)⟩ : Packet) ∈ w.sent).mpr
        ⟨.inr ((h.asked i).resolve_left (by simp [he.1])), fun k _ ↦ h.asked k⟩, h.answered⟩
  | serverRecvfrom a =>
      cases hs
      exact ⟨hserved, h.asked, by rintro i ⟨⟩⟩
  | serverSendto error =>
      cases hg.1
      simp only [UdpSession.step] at hs
      split at hs
      · rename_i text hstate
        cases hs
        refine ⟨hserved, fun i ↦ (h.asked i).imp_right (List.mem_append_left _),
          fun i _ haddr ↦ ?_⟩
        obtain ⟨k, hk, rfl⟩ := h.sending hstate
        obtain rfl : i = k := A.injective (haddr.symm.trans hk)
        rw [← hk]
        exact List.mem_append_right _ (List.mem_singleton_self _)
      · cases hs
  | lose q => cases hg.2

/-- No call can return that succeeds. -/
def Stuck (A : UdpAddresses n) (w : UdpSession n) : Prop :=
  ∀ e, w.Reliable e → w.enabled A e = false

/-- When nothing can happen any more, the server has served a client. -/
theorem Progress.returned_of_stuck (h : Progress A files lines w) (hn : 0 < n)
    (hstuck : w.Stuck A) : w.server.state = .returned ∧ ∃ i, (w.clients i).state = .returned ∧
      ∀ k, k ≠ i → (w.clients k).state = .recvfrom := by
  have hasked (i : Fin n) : (w.clients i).state ≠ .sendto := fun hi ↦ by
    have := hstuck (.clientSendto i false) ⟨rfl, rfl⟩
    simp [enabled, hi] at this
  have hstate : w.server.state = .returned := by
    cases hs : w.server.state with
    | returned => rfl
    | sendto text =>
        have := hstuck (.serverSendto false) ⟨rfl, rfl⟩
        simp [enabled, hs] at this
    | recvfrom =>
        -- the name of the first client can be received
        let i : Fin n := ⟨0, hn⟩
        have := hstuck (.serverRecvfrom (.datagram ⟨A.client i, getFilename (lines i)⟩))
          ⟨⟨_, rfl⟩, rfl⟩
        simp [enabled, hs, delivers, (h.asked i).resolve_left (hasked i)] at this
  obtain ⟨i, hi, -⟩ := h.server.resolve_left (by simp [hstate])
  refine ⟨hstate, i, ?_, fun k hk ↦ ?_⟩
  · cases hs : (w.clients i).state with
    | returned => rfl
    | sendto => exact absurd hs (hasked i)
    | recvfrom =>
        have := hstuck (.clientRecvfrom i (.datagram ⟨A.server, answer files lines i⟩))
          ⟨⟨_, rfl⟩, rfl⟩
        simp [enabled, hs, delivers, h.answered i hstate hi] at this
  · cases hs : (w.clients k).state with
    | returned => exact absurd (A.injective ((h.served k hs).2.1.symm.trans hi)) hk
    | sendto => exact absurd hs (hasked k)
    | recvfrom => rfl

/-- The other clients wait for an answer that is not theirs. -/
theorem Progress.stuck_of_returned (h : Progress A files lines w)
    (hstate : w.server.state = .returned) {i : Fin n} (hi : (w.clients i).state = .returned)
    (hothers : ∀ k, k ≠ i → (w.clients k).state = .recvfrom) : w.Stuck A := by
  intro e he
  have hstates (k : Fin n) : (w.clients k).state ≠ .sendto := by
    by_cases hk : k = i
    · simp [hk, hi]
    · simp [hothers k hk]
  cases e with
  | clientSendto k error => simp [enabled, hstates k]
  | clientRecvfrom k a =>
      obtain ⟨d, rfl⟩ := he.1
      by_cases hk : k = i
      · simp [enabled, hk, hi]
      · have hnot : ¬ w.delivers (A.client k) (.datagram d) = true := fun hd ↦
          hk (A.injective ((h.sent_client hd).2.1.symm.trans (h.served i hi).2.1))
        simp [enabled, hnot]
  | serverRecvfrom a => simp [enabled, hstate]
  | serverSendto error => simp [enabled, hstate]
  | lose q => cases he.2

/-- When nothing can happen any more. -/
theorem Progress.stuck_iff (h : Progress A files lines w) (hn : 0 < n) :
    w.Stuck A ↔ w.server.state = .returned ∧ ∃ i, (w.clients i).state = .returned ∧
      ∀ k, k ≠ i → (w.clients k).state = .recvfrom := by
  constructor
  · exact h.returned_of_stuck hn
  · rintro ⟨hstate, i, hi, hothers⟩
    exact h.stuck_of_returned hstate hi hothers

/-! ## How long a run can be -/

/-- The calls that are ahead of a client. -/
def clientAhead (c : UdpClient) : Nat :=
  match c.state with
  | .sendto => 2
  | .recvfrom => 1
  | .returned => 0

def serverAhead (s : UdpServer) : Nat :=
  match s.state with
  | .recvfrom => 2
  | .sendto _ => 1
  | .returned => 0

def ahead (w : UdpSession n) : Nat := ∑ i, clientAhead (w.clients i) + serverAhead w.server

theorem ahead_setClient (w : UdpSession n) {i : Fin n} {c : UdpClient}
    (h : clientAhead c + 1 = clientAhead (w.clients i)) :
    (w.setClient i c).ahead + 1 = w.ahead := by
  have hsum : ∑ k, clientAhead ((w.setClient i c).clients k) + 1 =
      ∑ k, clientAhead (w.clients k) := by
    rw [← Finset.add_sum_erase _ _ (Finset.mem_univ i),
      ← Finset.add_sum_erase Finset.univ (fun k ↦ clientAhead (w.clients k)) (Finset.mem_univ i),
      clients_setClient_self, ← h]
    have hrest : ∑ k ∈ Finset.univ.erase i, clientAhead ((w.setClient i c).clients k) =
        ∑ k ∈ Finset.univ.erase i, clientAhead (w.clients k) :=
      Finset.sum_congr rfl fun k hk ↦ by rw [clients_setClient_of_ne (Finset.ne_of_mem_erase hk)]
    rw [hrest]
    omega
  have hserver : (w.setClient i c).server = w.server := rfl
  rw [ahead, ahead, hserver]
  omega

/-- Every call takes one of those ahead. -/
theorem ahead_step {e : UdpEvent n} (he : w.enabled A e = true) (hc : e.isCall = true)
    (hs : w.step A files e = some w') : w'.ahead + 1 = w.ahead := by
  cases e with
  | clientSendto i error =>
      cases hs
      have hstate : (w.clients i).state = .sendto := of_decide_eq_true he
      rw [ahead, clients_send, server_send, ← ahead]
      exact ahead_setClient w (by simp [clientAhead, UdpClient.sendto, hstate])
  | clientRecvfrom i a =>
      cases hs
      simp only [enabled, Bool.and_eq_true, decide_eq_true_eq] at he
      exact ahead_setClient w (by simp [clientAhead, UdpClient.recvfrom, he.1])
  | serverRecvfrom a =>
      cases hs
      simp only [enabled, Bool.and_eq_true, decide_eq_true_eq] at he
      simp [ahead, serverAhead, UdpServer.recvfrom, he.1]
  | serverSendto error =>
      simp only [UdpSession.step] at hs
      split at hs
      · rename_i text hstate
        cases hs
        simp [ahead, serverAhead, UdpServer.sendto, hstate]
      · cases hs
  | lose q => cases hc

theorem countP_run_le {g : UdpSession n → UdpEvent n → Bool} {w₀ : UdpSession n}
    {es : List (UdpEvent n)} (h : (system A files lines).exec g w₀ es = some w) :
    es.countP UdpEvent.isCall ≤ w₀.ahead := by
  refine System.countP_exec_le (I := fun _ ↦ True) (m := ahead) (fun _ _ _ _ _ _ ↦ trivial)
    (fun w e w' _ he _ hs ↦ ?_) trivial h
  split
  · rw [← ahead_step he ‹_› hs]
    exact Nat.lt_succ_self _
  · cases e with
    | lose q => cases hs; exact Nat.le_refl _
    | _ => exact absurd rfl ‹_›

theorem ahead_start (lines : Fin n → List UInt8) (uninit : Endpoint) :
    (start lines uninit).ahead = 2 * n + 2 := by
  simp [ahead, clientAhead, serverAhead, start, Nat.mul_comm]

/-- **One client is served.**  Every run is finite, whatever fails and whatever is
lost.  If no call fails, then a client that has returned has printed the answer to
its name.  If nothing is lost either, a run ends with the server and one client
having returned, and the others wait for ever. -/
theorem one_served (A : UdpAddresses n) (files : Files) (lines : Fin n → List UInt8) (hn : 0 < n) :
    (∀ uninit es w, (system A files lines).exec (fun _ _ ↦ true) (start lines uninit) es = some w →
      es.countP UdpEvent.isCall ≤ 2 * n + 2) ∧
    (∀ w, (system A files lines).Reachable Succeeds w → ∀ i, (w.clients i).state = .returned →
      .answer (report (getFilename (lines i)) (answer files lines i)) ∈ (w.clients i).console) ∧
    ∀ w, (system A files lines).Reachable Reliable w →
      (w.Stuck A ↔ w.server.state = .returned ∧ ∃ i, (w.clients i).state = .returned ∧
        ∀ k, k ≠ i → (w.clients k).state = .recvfrom) := by
  refine ⟨fun uninit es w h ↦ ahead_start lines uninit ▸ countP_run_le h, fun w h ↦ ?_,
    fun w h ↦ ?_⟩
  · have hserved : Served A files lines w := by
      induction h with
      | init hi =>
          obtain ⟨uninit, rfl⟩ := hi
          exact served_start lines uninit
      | step _ he hg hs ih => exact ih.step he hg hs
    exact fun i hi ↦ (hserved.served i hi).2.2
  · have hprogress : Progress A files lines w := by
      induction h with
      | init hi =>
          obtain ⟨uninit, rfl⟩ := hi
          exact progress_start lines uninit
      | step _ he hg hs ih => exact ih.step he hg hs
    exact hprogress.stuck_iff hn

/-- A test for calls that succeed. -/
def reliableTest (_ : UdpSession n) : UdpEvent n → Bool
  | .clientSendto _ error | .serverSendto error => !error
  | .clientRecvfrom _ (.datagram _) | .serverRecvfrom (.datagram _) => true
  | .clientRecvfrom _ (.failure _) | .serverRecvfrom (.failure _) => false
  | .lose _ => false

theorem reliable_of_test (w : UdpSession n) (e : UdpEvent n) (h : reliableTest w e = true) :
    w.Reliable e := by
  cases e with
  | clientSendto i error => exact ⟨by simpa [reliableTest, Succeeds] using h, rfl⟩
  | serverSendto error => exact ⟨by simpa [reliableTest, Succeeds] using h, rfl⟩
  | clientRecvfrom i a =>
      cases a with
      | datagram d => exact ⟨⟨d, rfl⟩, rfl⟩
      | failure error => cases h
  | serverRecvfrom a =>
      cases a with
      | datagram d => exact ⟨⟨d, rfl⟩, rfl⟩
      | failure error => cases h
  | lose q => cases h

/-- Both clients ask, and the first one is never served. -/
theorem one_served_two : 0 < 2 ∧ ∃ w : UdpSession 2, w.Stuck twoClients ∧
    (w.clients 0).state = .recvfrom ∧
      .answer (.size [98] [55]) ∈ (w.clients 1).console := by
  obtain ⟨w, hw, hserver, hfirst, hsecond, hanswer⟩ : ∃ w,
      (system twoClients fileB twoLines).Reachable Reliable w ∧ w.server.state = .returned ∧
        (w.clients 0).state = .recvfrom ∧ (w.clients 1).state = .returned ∧
          report (getFilename (twoLines 1)) (answer fileB twoLines 1) = .size [98] [55] :=
    System.reachable_of_exec reliable_of_test (.init ⟨anyEndpoint, rfl⟩)
      [.clientSendto 0 false, .clientSendto 1 false,
        .serverRecvfrom (.datagram ⟨twoClients.client 1, [98]⟩), .serverSendto false,
        .clientRecvfrom 1 (.datagram ⟨twoClients.server, [55]⟩)] (by decide)
  obtain ⟨-, hprinted, hstuck⟩ := one_served twoClients fileB twoLines (by decide)
  refine ⟨by decide, w, (hstuck w hw).mpr ⟨hserver, 1, hsecond, fun k hk ↦ ?_⟩, hfirst,
    hanswer ▸ hprinted w (hw.mono fun _ _ h ↦ h.1) 1 hsecond⟩
  obtain rfl : k = 0 := by omega
  exact hfirst

end UdpSession

end CppExamples.WinSock.FileSize
