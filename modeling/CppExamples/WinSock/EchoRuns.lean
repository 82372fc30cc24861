import CppExamples.WinSock.EchoSession

/-!
# What comes back

Both programs print how many bytes each of their calls has sent or received, and
nothing of the bytes themselves.

* What the client receives is what it has sent, less what the sends of the server
  have left out.  Its own numbers tell whether something is missing
  (`received_eq_sent_iff`).
* A session is over when both programs have returned, and not before.  If nothing
  fails, everything has come back then (`session_ends`).
-/

namespace CppExamples.WinSock

/-- The numbers that have been printed as sent, all together. -/
def totalSent : List Call → Nat
  | [] => 0
  | .printf (.bytesSent n) :: calls => n + totalSent calls
  | _ :: calls => totalSent calls

/-- The numbers that have been printed as received, all together. -/
def totalReceived : List Call → Nat
  | [] => 0
  | .printf (.bytesReceived n) :: calls => n + totalReceived calls
  | _ :: calls => totalReceived calls

theorem totalSent_append (calls calls' : List Call) :
    totalSent (calls ++ calls') = totalSent calls + totalSent calls' := by
  induction calls using totalSent.induct with
  | case1 => rw [List.nil_append, totalSent, Nat.zero_add]
  | case2 n calls ih => rw [List.cons_append, totalSent, totalSent, ih, Nat.add_assoc]
  | case3 c calls hc ih => rw [List.cons_append, totalSent, totalSent, ih] <;> exact hc

theorem totalReceived_append (calls calls' : List Call) :
    totalReceived (calls ++ calls') = totalReceived calls + totalReceived calls' := by
  induction calls using totalReceived.induct with
  | case1 => rw [List.nil_append, totalReceived, Nat.zero_add]
  | case2 n calls ih => rw [List.cons_append, totalReceived, totalReceived, ih, Nat.add_assoc]
  | case3 c calls hc ih => rw [List.cons_append, totalReceived, totalReceived, ih] <;> exact hc

end CppExamples.WinSock

namespace CppExamples.WinSock.Echo

open CppExamples.Lib

namespace Session

variable {k : Nat} {sendbuf : List UInt8} {uninit : Buffer EchoServer.defaultBuflen}
  {w w' : Session}

/-- The bytes that the sends of the server have taken. -/
def accepted (w : Session) : List UInt8 := w.server.connection.accepted

/-- The server sends back what it has received. -/
theorem pending_serverRecv {k : Nat}
    (hk : w.toServer.delivers EchoServer.defaultBuflen (k + 1) = true) :
    (w.serverRecv (k + 1)).server.pending = (w.toServer.recv (k + 1)).1 := by
  have hlen := (Stream.length_recv hk).1
  have hfits : (w.toServer.recv (k + 1)).1.length ≤ EchoServer.defaultBuflen :=
    Nat.le_trans (Nat.le_of_eq hlen) (Stream.le_of_delivers hk)
  have hfront := Buffer.take_store_length (b := w.server.connection.recvbuf) hfits
  rw [hlen] at hfront
  exact hfront

/-- The bytes of the client, where they are, and the numbers that are printed of
them. -/
structure Echoes (sendbuf : List UInt8) (w : Session) : Prop where
  text : w.client.sendbuf = sendbuf
  unsent : w.client.state = .send → w.client.sent = []
  sent : w.client.sent <+: sendbuf
  toServer : (w.accepted ++ (w.server.pending ++ w.toServer.inFlight)).Sublist w.client.sent
  toClient : w.client.received ++ w.toClient.inFlight = w.accepted
  pending : ∀ n, w.server.state = .send n → w.server.pending.length = n
  clientSent : totalSent w.client.calls = w.client.sent.length
  clientReceived : totalReceived w.client.calls = w.client.received.length
  serverSent : totalSent w.server.connection.calls = w.accepted.length
  serverReceived : totalReceived w.server.connection.calls + w.toServer.inFlight.length =
    w.client.sent.length

namespace Echoes

theorem start : Echoes sendbuf (start k sendbuf uninit) where
  text := rfl
  unsent _ := rfl
  sent := List.nil_prefix
  toServer := .slnil
  toClient := rfl
  pending n h := by cases h
  clientSent := rfl
  clientReceived := rfl
  serverSent := rfl
  serverReceived := rfl

/-- A call of the client that sends nothing and receives nothing. -/
theorem of_client (h : Echoes sendbuf w) {c : Client} {s : Stream} (calls : List Call)
    (hnone : totalSent calls = 0 ∧ totalReceived calls = 0)
    (htext : c.sendbuf = w.client.sendbuf) (hstate : c.state ≠ .send)
    (hsent : c.sent = w.client.sent) (hreceived : c.received = w.client.received)
    (hcalls : c.calls = w.client.calls ++ calls) (hs : s.inFlight = w.toServer.inFlight) :
    Echoes sendbuf { w with client := c, toServer := s } where
  text := htext.trans h.text
  unsent hsend := absurd hsend hstate
  sent := hsent ▸ h.sent
  toServer := by
    rw [hs, hsent]
    exact h.toServer
  toClient := by
    rw [hreceived]
    exact h.toClient
  pending := h.pending
  clientSent := by rw [hcalls, totalSent_append, hnone.1, Nat.add_zero, h.clientSent, hsent]
  clientReceived := by
    rw [hcalls, totalReceived_append, hnone.2, Nat.add_zero, h.clientReceived, hreceived]
  serverSent := h.serverSent
  serverReceived := by rw [hs, h.serverReceived, hsent]

/-- A call of the server that sends nothing and receives nothing, and after which it
will not send. -/
theorem of_server (h : Echoes sendbuf w) {c : Server} {s : Stream} (calls : List Call)
    (hnone : totalSent calls = 0 ∧ totalReceived calls = 0)
    (hstate : ∀ n, c.state ≠ .send n)
    (haccepted : c.connection.accepted = w.server.connection.accepted)
    (hcalls : c.connection.calls = w.server.connection.calls ++ calls)
    (hs : s.inFlight = w.toClient.inFlight) :
    Echoes sendbuf { w with server := c, toClient := s } where
  text := h.text
  unsent := h.unsent
  sent := h.sent
  toServer := by
    have hpending : c.pending = [] := by
      rw [Server.pending]
      split
      · rename_i n hn
        exact absurd hn (hstate n)
      · rfl
    rw [accepted, haccepted, hpending, List.nil_append]
    exact (List.Sublist.append_left (List.sublist_append_right _ _) _).trans h.toServer
  toClient := by
    rw [hs, accepted, haccepted]
    exact h.toClient
  pending n hn := absurd hn (hstate n)
  clientSent := h.clientSent
  clientReceived := h.clientReceived
  serverSent := by
    rw [hcalls, totalSent_append, hnone.1, Nat.add_zero, h.serverSent, accepted, accepted,
      haccepted]
  serverReceived := by rw [hcalls, totalReceived_append, hnone.2, Nat.add_zero, h.serverReceived]

theorem clientSend (h : Echoes sendbuf w) (hs : w.client.state = .send) {r : Except Int Nat}
    (hr : takes w.client.sendbuf.length r = true) : Echoes sendbuf (w.clientSend r) := by
  cases r with
  | error e =>
      exact h.of_client [.send w.client.connectSocket, .printf (.sendFailed e),
        .closesocket w.client.connectSocket, .wsaCleanup] ⟨rfl, rfl⟩ rfl (by rintro ⟨⟩) rfl rfl
        (by simp [Client.exit, Client.log]) rfl
  | ok n =>
      have hle : n ≤ w.client.sendbuf.length := of_decide_eq_true hr
      have hnil := h.unsent hs
      have hlen : (w.client.sendbuf.take n).length = n := List.length_take_of_le hle
      have hserver := h.toServer
      have hsent := h.clientSent
      have hreceived := h.serverReceived
      rw [hnil, List.sublist_nil, List.append_eq_nil_iff, List.append_eq_nil_iff] at hserver
      obtain ⟨haccepted, hpending, hflight⟩ := hserver
      rw [hnil] at hsent
      rw [hnil, hflight, List.length_nil, Nat.add_zero] at hreceived
      refine ⟨h.text, by rintro ⟨⟩, ?_, ?_, h.toClient, h.pending, ?_, ?_, h.serverSent, ?_⟩
      · exact h.text ▸ List.take_prefix n w.client.sendbuf
      · change (w.accepted ++ (w.server.pending ++ (w.toServer.inFlight ++
          w.client.sendbuf.take n))).Sublist (w.client.sendbuf.take n)
        rw [haccepted, hpending, hflight, List.nil_append, List.nil_append, List.nil_append]
      · change totalSent (w.client.calls ++ [.send _] ++ [.printf (.bytesSent n)]) =
          (w.client.sendbuf.take n).length
        rw [totalSent_append, totalSent_append, hsent, hlen]
        simp [totalSent]
      · change totalReceived (w.client.calls ++ [.send _] ++ [.printf (.bytesSent n)]) = _
        rw [totalReceived_append, totalReceived_append, h.clientReceived]
        rfl
      · change totalReceived w.server.connection.calls +
          (w.toServer.inFlight ++ w.client.sendbuf.take n).length = (w.client.sendbuf.take n).length
        rw [hflight, List.nil_append, hreceived, Nat.zero_add]

theorem clientShutdown (h : Echoes sendbuf w) (error : Option Int) :
    Echoes sendbuf (w.clientShutdown error) := by
  cases error with
  | some e =>
      exact h.of_client [.shutdown w.client.connectSocket, .printf (.shutdownFailed e),
        .closesocket w.client.connectSocket, .wsaCleanup] ⟨rfl, rfl⟩ rfl (by rintro ⟨⟩) rfl rfl
        (by simp [Client.exit, Client.log]) rfl
  | none =>
      exact h.of_client [.shutdown w.client.connectSocket] ⟨rfl, rfl⟩ rfl (by rintro ⟨⟩) rfl rfl
        rfl rfl

theorem clientRecv (h : Echoes sendbuf w) (hs : w.client.state = .recv) {k : Nat}
    (hk : w.toClient.delivers EchoServer.defaultBuflen k = true) :
    Echoes sendbuf (w.clientRecv k) := by
  cases k with
  | zero =>
      exact h.of_client [.recv w.client.connectSocket, .printf .connectionClosed,
        .closesocket w.client.connectSocket, .wsaCleanup] ⟨rfl, rfl⟩ rfl (by rintro ⟨⟩) rfl rfl
        (by simp [Client.exit, Client.log]) rfl
  | succ k =>
      refine ⟨h.text, fun hsend ↦ ?_, h.sent, h.toServer, ?_, h.pending, ?_, ?_, h.serverSent,
        h.serverReceived⟩
      · cases hs.symm.trans hsend
      · change w.client.received ++ (w.toClient.recv (k + 1)).1 ++
          (w.toClient.recv (k + 1)).2.inFlight = _
        rw [List.append_assoc, Stream.recv_append, h.toClient]
        rfl
      · change totalSent (w.client.calls ++ [.recv _] ++ [.printf (.bytesReceived (k + 1))]) = _
        rw [totalSent_append, totalSent_append, h.clientSent]
        rfl
      · change totalReceived (w.client.calls ++ [.recv _] ++ [.printf (.bytesReceived (k + 1))]) =
          (w.client.received ++ (w.toClient.recv (k + 1)).1).length
        rw [totalReceived_append, totalReceived_append, h.clientReceived, List.length_append,
          (Stream.length_recv hk).1]
        simp [totalReceived]

theorem clientRecvError (h : Echoes sendbuf w) (e : Int) : Echoes sendbuf (w.clientRecvError e) :=
  h.of_client [.recv w.client.connectSocket, .printf (.recvFailed e),
    .closesocket w.client.connectSocket, .wsaCleanup] ⟨rfl, rfl⟩ rfl (by rintro ⟨⟩) rfl rfl
    (by simp [Client.exit, Client.log]) rfl

theorem serverRecv (h : Echoes sendbuf w) (hs : w.server.state = .recv) {k : Nat}
    (hk : w.toServer.delivers EchoServer.defaultBuflen k = true) :
    Echoes sendbuf (w.serverRecv k) := by
  cases k with
  | zero =>
      refine h.of_server [.recv EchoServer.clientSocket, .printf .connectionClosing] ⟨rfl, rfl⟩ ?_
        rfl ?_ rfl
      · rintro n ⟨⟩
      · simp [EchoServer.Connection.log]
  | succ k =>
      obtain ⟨hlen, hrest⟩ := Stream.length_recv hk
      have hnone : w.server.pending = [] := by rw [Server.pending, hs]
      have hpending := pending_serverRecv hk
      refine ⟨h.text, h.unsent, h.sent, ?_, h.toClient, ?_, h.clientSent, h.clientReceived, ?_, ?_⟩
      · rw [hpending]
        change (w.accepted ++ ((w.toServer.recv (k + 1)).1 ++
          (w.toServer.recv (k + 1)).2.inFlight)).Sublist w.client.sent
        rw [Stream.recv_append]
        simpa [hnone] using h.toServer
      · rintro n ⟨⟩
        rw [hpending, hlen]
      · change totalSent (w.server.connection.calls ++ [.recv _] ++
          [.printf (.bytesReceived (k + 1))]) = _
        rw [totalSent_append, totalSent_append, h.serverSent]
        rfl
      · change totalReceived (w.server.connection.calls ++ [.recv _] ++
          [.printf (.bytesReceived (k + 1))]) + (w.toServer.recv (k + 1)).2.inFlight.length = _
        have hreceived := h.serverReceived
        have hone : totalReceived [.printf (.bytesReceived (k + 1))] = k + 1 := rfl
        have hnone : totalReceived [.recv EchoServer.clientSocket] = 0 := rfl
        rw [totalReceived_append, totalReceived_append, hnone, hone]
        change _ = w.client.sent.length
        omega

theorem serverRecvError (h : Echoes sendbuf w) (e : Int) :
    Echoes sendbuf (w.serverRecvError e) := by
  refine h.of_server [.recv EchoServer.clientSocket, .printf (.recvFailed e),
    .closesocket EchoServer.clientSocket, .wsaCleanup] ⟨rfl, rfl⟩ ?_ rfl ?_ rfl
  · rintro n ⟨⟩
  · simp [Server.exit, Server.log, EchoServer.Connection.log]

theorem serverSend (h : Echoes sendbuf w) {n : Nat} (hs : w.server.state = .send n)
    {r : Except Int Nat} (hr : takes n r = true) : Echoes sendbuf (w.serverSend r) := by
  cases r with
  | error e =>
      refine h.of_server [.send EchoServer.clientSocket, .printf (.sendFailed e),
        .closesocket EchoServer.clientSocket, .wsaCleanup] ⟨rfl, rfl⟩ ?_ rfl ?_ rfl
      · rintro n ⟨⟩
      · simp [Server.exit, Server.log, EchoServer.Connection.log]
  | ok m =>
      have hle : m ≤ n := of_decide_eq_true hr
      have hlen : (w.server.pending.take m).length = m :=
        List.length_take_of_le (h.pending n hs ▸ hle)
      refine ⟨h.text, h.unsent, h.sent, ?_, ?_, ?_, h.clientSent, h.clientReceived, ?_, ?_⟩
      · change (w.accepted ++ w.server.pending.take m ++ ([] ++ w.toServer.inFlight)).Sublist _
        refine List.Sublist.trans ?_ h.toServer
        rw [List.append_assoc, List.nil_append]
        exact List.Sublist.append_left (List.Sublist.append_right (List.take_sublist _ _) _) _
      · change w.client.received ++ (w.toClient.inFlight ++ w.server.pending.take m) =
          w.accepted ++ w.server.pending.take m
        rw [← List.append_assoc, h.toClient]
      · rintro n ⟨⟩
      · change totalSent (w.server.connection.calls ++ [.send _] ++ [.printf (.bytesSent m)]) =
          (w.accepted ++ w.server.pending.take m).length
        rw [totalSent_append, totalSent_append, h.serverSent, List.length_append, hlen]
        simp [totalSent]
      · change totalReceived (w.server.connection.calls ++ [.send _] ++
          [.printf (.bytesSent m)]) + _ = _
        rw [totalReceived_append, totalReceived_append]
        exact h.serverReceived

theorem serverShutdown (h : Echoes sendbuf w) (error : Option Int) :
    Echoes sendbuf (w.serverShutdown error) := by
  cases error with
  | some e =>
      refine h.of_server [.shutdown EchoServer.clientSocket, .printf (.shutdownFailed e),
        .closesocket EchoServer.clientSocket, .wsaCleanup] ⟨rfl, rfl⟩ ?_ rfl ?_ rfl
      · rintro n ⟨⟩
      · simp [Server.exit, Server.log, EchoServer.Connection.log]
  | none =>
      refine h.of_server [.shutdown EchoServer.clientSocket, .closesocket EchoServer.clientSocket,
        .wsaCleanup] ⟨rfl, rfl⟩ ?_ rfl ?_ rfl
      · rintro n ⟨⟩
      · simp [Server.exit, Server.log, EchoServer.Connection.log]

theorem step (h : Echoes sendbuf w) {e : Event} (he : w.enabled e = true) :
    Echoes sendbuf (w.step e) := by
  cases e with
  | clientSend r =>
      simp only [enabled, Bool.and_eq_true, decide_eq_true_eq] at he
      exact h.clientSend he.1 he.2
  | clientShutdown error => exact h.clientShutdown error
  | clientRecv k =>
      simp only [enabled, Bool.and_eq_true, decide_eq_true_eq] at he
      exact h.clientRecv he.1 he.2
  | clientRecvError e => exact h.clientRecvError e
  | serverRecv k =>
      simp only [enabled, Bool.and_eq_true, decide_eq_true_eq] at he
      exact h.serverRecv he.1 he.2
  | serverRecvError e => exact h.serverRecvError e
  | serverSend r =>
      simp only [enabled] at he
      split at he
      · rename_i n hn
        exact h.serverSend hn he
      · cases he
  | serverShutdown error => exact h.serverShutdown error

end Echoes

theorem echoes_of_reachable (h : (system k sendbuf uninit).Reachable Always w) :
    Echoes sendbuf w := by
  induction h with
  | init hi =>
      rw [hi]
      exact .start
  | step _ he _ hs ih =>
      cases hs
      exact ih.step he

/-- **The client can tell from its numbers.**  In every run, whatever fails, what the
client has received is some of the bytes that it has sent, in their order, and it
is all of them exactly if the numbers that it has printed as received add up to
the one that it has printed as sent.  The numbers of the server are in between. -/
theorem received_eq_sent_iff (h : (system k sendbuf uninit).Reachable Always w) :
    w.client.sent <+: sendbuf ∧ w.client.received.Sublist w.client.sent ∧
      (w.client.received = w.client.sent ↔
        totalReceived w.client.calls = totalSent w.client.calls) ∧
      totalReceived w.client.calls ≤ totalSent w.server.connection.calls ∧
      totalSent w.server.connection.calls ≤ totalReceived w.server.connection.calls ∧
      totalReceived w.server.connection.calls ≤ totalSent w.client.calls := by
  have he := echoes_of_reachable h
  have haccepted : w.accepted.Sublist w.client.sent :=
    (List.sublist_append_left _ _).trans he.toServer
  have hsub : w.client.received.Sublist w.client.sent := by
    refine List.Sublist.trans ?_ haccepted
    rw [← he.toClient]
    exact List.sublist_append_left _ _
  refine ⟨he.sent, hsub, ?_, ?_, ?_, ?_⟩
  · rw [he.clientReceived, he.clientSent]
    exact ⟨fun heq ↦ congrArg List.length heq, hsub.eq_of_length⟩
  · rw [he.clientReceived, he.serverSent, ← he.toClient, List.length_append]
    exact Nat.le_add_right _ _
  · have hle := he.toServer.length_le
    rw [List.length_append, List.length_append, ← he.serverReceived] at hle
    rw [he.serverSent]
    omega
  · rw [he.clientSent, ← he.serverReceived]
    exact Nat.le_add_right _ _

/-- Half of the first chunk is not sent back. -/
theorem received_eq_sent_iff_half : ∃ w : Session,
    w.client.received = Echo.sendbuf.take 2 ++ Echo.sendbuf.drop 4 ∧
      w.client.sent <+: Echo.sendbuf ∧ w.client.received.Sublist w.client.sent ∧
      (w.client.received = w.client.sent ↔
        totalReceived w.client.calls = totalSent w.client.calls) ∧
      totalReceived w.client.calls ≤ totalSent w.server.connection.calls ∧
      totalSent w.server.connection.calls ≤ totalReceived w.server.connection.calls ∧
      totalReceived w.server.connection.calls ≤ totalSent w.client.calls := by
  obtain ⟨w, hw, hhalf⟩ : ∃ w, (system 0 Echo.sendbuf default).Reachable Always w ∧
      w.client.received = Echo.sendbuf.take 2 ++ Echo.sendbuf.drop 4 :=
    System.always_of_exec (.init rfl)
      [.clientSend (.ok 14), .serverRecv 4, .serverSend (.ok 2), .clientShutdown none,
        .serverRecv 10, .clientRecv 2, .serverSend (.ok 10), .clientRecv 10] (by decide +kernel)
  exact ⟨w, hhalf, received_eq_sent_iff hw⟩

/-! ## The end -/

/-- What has ended, and what the client knows of it. -/
structure Ends (w : Session) : Prop where
  toServer : w.toServer.ended = true ↔ w.client.state ≠ .send ∧ w.client.state ≠ .shutdown
  toClient : w.toClient.ended = true ↔ ∃ code, w.server.state = .returned code
  closed : .printf .connectionClosed ∈ w.client.calls →
    w.toClient.inFlight = [] ∧ w.toClient.ended = true

namespace Ends

theorem start : Ends (start k sendbuf uninit) where
  toServer := ⟨by rintro ⟨⟩, fun h ↦ absurd rfl h.1⟩
  toClient := ⟨by rintro ⟨⟩, by rintro ⟨_, ⟨⟩⟩⟩
  closed h := by cases h

/-- The end of the client. -/
theorem clientReturn (h : Ends w) {c : Client} (calls : List Call) (code : Int)
    (hcalls : c.calls = w.client.calls ++ calls)
    (hclosed : .printf .connectionClosed ∈ calls →
      w.toClient.inFlight = [] ∧ w.toClient.ended = true) :
    Ends ({ w with client := c }.clientReturn code) where
  toServer := ⟨fun _ ↦ ⟨by rintro ⟨⟩, by rintro ⟨⟩⟩, fun _ ↦ rfl⟩
  toClient := h.toClient
  closed hmem := by
    have hmem : .printf .connectionClosed ∈
        c.calls ++ [.closesocket c.connectSocket, .wsaCleanup] := hmem
    rw [hcalls, List.mem_append, List.mem_append] at hmem
    rcases hmem with (hmem | hmem) | hmem
    · exact h.closed hmem
    · exact hclosed hmem
    · simp at hmem

/-- The end of the server. -/
theorem serverReturn (h : Ends w) (c : Server) {t : Stream}
    (ht : t.inFlight = w.toClient.inFlight) (code : Int) :
    Ends ({ w with server := c, toClient := t }.serverReturn code) where
  toServer := h.toServer
  toClient := ⟨fun _ ↦ ⟨code, rfl⟩, fun _ ↦ rfl⟩
  closed hmem := ⟨ht.trans (h.closed hmem).1, rfl⟩

/-- The client goes on, and `toServer` has ended if it will only receive. -/
theorem client_goes (h : Ends w) {c : Client} {s t : Stream} (calls : List Call)
    (hcalls : c.calls = w.client.calls ++ calls) (hno : .printf .connectionClosed ∉ calls)
    (hs : s.ended = true ↔ c.state ≠ .send ∧ c.state ≠ .shutdown)
    (ht : t.ended = w.toClient.ended) (hflight : w.toClient.inFlight = [] → t.inFlight = []) :
    Ends { w with client := c, toServer := s, toClient := t } where
  toServer := hs
  toClient := by
    rw [ht]
    exact h.toClient
  closed hmem := by
    rw [hcalls, List.mem_append] at hmem
    rw [ht]
    exact (hmem.resolve_right hno |> h.closed).imp_left hflight

/-- The server goes on. -/
theorem server_goes (h : Ends w) {c : Server} {s t : Stream} (hw : w.toClient.ended = false)
    (hc : ∀ code, c.state ≠ .returned code) (hs : s.ended = w.toServer.ended)
    (ht : t.ended = false) : Ends { w with server := c, toServer := s, toClient := t } where
  toServer := by
    rw [hs]
    exact h.toServer
  toClient := by
    rw [ht]
    exact ⟨by rintro ⟨⟩, fun ⟨code, hcode⟩ ↦ absurd hcode (hc code)⟩
  closed hmem := by
    have := (h.closed hmem).2
    rw [hw] at this
    cases this

theorem clientSend (h : Ends w) (hs : w.client.state = .send) (r : Except Int Nat) :
    Ends (w.clientSend r) := by
  cases r with
  | error e =>
      exact h.clientReturn [.send w.client.connectSocket, .printf (.sendFailed e)] 1
        (by simp [Client.log]) (by simp)
  | ok n =>
      have hended : w.toServer.ended = false := by
        rw [← Bool.not_eq_true, h.toServer]
        exact fun hne ↦ hne.1 hs
      refine h.client_goes [.send w.client.connectSocket, .printf (.bytesSent n)]
        (by simp [Client.log]) (by simp) ?_ rfl id
      rw [Stream.ended_send, hended]
      exact ⟨by rintro ⟨⟩, fun hne ↦ absurd rfl hne.2⟩

theorem clientShutdown (h : Ends w) (error : Option Int) : Ends (w.clientShutdown error) := by
  cases error with
  | some e =>
      exact h.clientReturn [.shutdown w.client.connectSocket, .printf (.shutdownFailed e)] 1
        (by simp [Client.log]) (by simp)
  | none =>
      exact h.client_goes [.shutdown w.client.connectSocket] rfl (by simp)
        ⟨fun _ ↦ ⟨by rintro ⟨⟩, by rintro ⟨⟩⟩, fun _ ↦ rfl⟩ rfl id

theorem clientRecv (h : Ends w) {k : Nat}
    (hk : w.toClient.delivers EchoServer.defaultBuflen k = true) : Ends (w.clientRecv k) := by
  cases k with
  | zero =>
      exact h.clientReturn [.recv w.client.connectSocket, .printf .connectionClosed] 0
        (by simp [Client.log]) fun _ ↦ Stream.delivers_zero.mp hk
  | succ k =>
      refine h.client_goes [.recv w.client.connectSocket, .printf (.bytesReceived (k + 1))]
        (by simp [Client.log]) (by simp) h.toServer rfl fun hnil ↦ ?_
      change w.toClient.inFlight.drop (k + 1) = []
      rw [hnil, List.drop_nil]

theorem clientRecvError (h : Ends w) (e : Int) : Ends (w.clientRecvError e) :=
  h.clientReturn [.recv w.client.connectSocket, .printf (.recvFailed e)] 0 (by simp [Client.log])
    (by simp)

/-- As long as the server has not returned, the client may still get something. -/
theorem goes_on (h : Ends w) (hs : ∀ code, w.server.state ≠ .returned code) :
    w.toClient.ended = false := by
  rw [← Bool.not_eq_true, h.toClient]
  exact fun ⟨code, hcode⟩ ↦ hs code hcode

theorem step (h : Ends w) {e : Event} (he : w.enabled e = true) : Ends (w.step e) := by
  cases e with
  | clientSend r =>
      simp only [enabled, Bool.and_eq_true, decide_eq_true_eq] at he
      exact h.clientSend he.1 r
  | clientShutdown error => exact h.clientShutdown error
  | clientRecv k =>
      simp only [enabled, Bool.and_eq_true, decide_eq_true_eq] at he
      exact h.clientRecv he.2
  | clientRecvError e => exact h.clientRecvError e
  | serverRecv k =>
      simp only [enabled, Bool.and_eq_true, decide_eq_true_eq] at he
      have hended := h.goes_on (by rw [he.1]; rintro c ⟨⟩)
      cases k with
      | zero => exact h.server_goes hended (by rintro c ⟨⟩) rfl hended
      | succ k => exact h.server_goes hended (by rintro c ⟨⟩) rfl hended
  | serverRecvError e => exact h.serverReturn _ rfl 1
  | serverSend r =>
      simp only [enabled] at he
      split at he
      · rename_i n hn
        have hended := h.goes_on (by rw [hn]; rintro c ⟨⟩)
        cases r with
        | error e => exact h.serverReturn _ rfl 1
        | ok m => exact h.server_goes hended (by rintro c ⟨⟩) rfl hended
      · cases he
  | serverShutdown error =>
      cases error with
      | some e => exact h.serverReturn _ rfl 1
      | none => exact h.serverReturn _ rfl 0

end Ends

theorem ends_of_reachable (h : (system k sendbuf uninit).Reachable Always w) : w.Ends := by
  induction h with
  | init hi =>
      rw [hi]
      exact .start
  | step _ he _ hs ih =>
      cases hs
      exact ih.step he

/-- The call does what it is called for; a `send` takes all of its bytes. -/
def Succeeds (w : Session) : Event → Prop
  | .clientSend r => r = .ok w.client.sendbuf.length
  | .serverSend r => r = .ok w.server.pending.length
  | .clientShutdown error | .serverShutdown error => error = none
  | .clientRecvError _ | .serverRecvError _ => False
  | .clientRecv _ | .serverRecv _ => True

/-- No call can return that succeeds. -/
def Stuck (w : Session) : Prop := ∀ e, w.Succeeds e → w.enabled e = false

theorem Ends.client_returned (h : Ends w) (hstuck : w.Stuck)
    (hs : ∃ code, w.server.state = .returned code) : ∃ code, w.client.state = .returned code := by
  cases hc : w.client.state with
  | returned code => exact ⟨code, rfl⟩
  | send =>
      have := hstuck (.clientSend (.ok w.client.sendbuf.length)) rfl
      simp [enabled, hc, takes] at this
  | shutdown =>
      have := hstuck (.clientShutdown none) rfl
      simp [enabled, hc] at this
  | recv =>
      obtain ⟨k, hk⟩ := Stream.exists_delivers (n := EchoServer.defaultBuflen) (by decide)
        (.inr (h.toClient.mpr hs))
      have := hstuck (.clientRecv k) trivial
      simp [enabled, hc, hk] at this

theorem Ends.server_returned (h : Ends w) (he : Echoes sendbuf w) (hstuck : w.Stuck) :
    ∃ code, w.server.state = .returned code := by
  cases hs : w.server.state with
  | returned code => exact ⟨code, rfl⟩
  | shutdown =>
      have := hstuck (.serverShutdown none) rfl
      simp [enabled, hs] at this
  | send n =>
      have := hstuck (.serverSend (.ok w.server.pending.length)) rfl
      simp [enabled, hs, takes, he.pending n hs] at this
  | recv =>
      have hended : w.toServer.ended = true := by
        refine h.toServer.mpr ⟨fun hc ↦ ?_, fun hc ↦ ?_⟩
        · have := hstuck (.clientSend (.ok w.client.sendbuf.length)) rfl
          simp [enabled, hc, takes] at this
        · have := hstuck (.clientShutdown none) rfl
          simp [enabled, hc] at this
      obtain ⟨k, hk⟩ := Stream.exists_delivers (n := EchoServer.defaultBuflen) (by decide)
        (.inr hended)
      have := hstuck (.serverRecv k) trivial
      simp [enabled, hs, hk] at this

/-- **Nobody waits for ever**, whatever has failed so far. -/
theorem stuck_iff (h : (system k sendbuf uninit).Reachable Always w) :
    w.Stuck ↔ (∃ code, w.client.state = .returned code) ∧
      ∃ code, w.server.state = .returned code := by
  have hends := ends_of_reachable h
  constructor
  · intro hstuck
    have hs := hends.server_returned (echoes_of_reachable h) hstuck
    exact ⟨hends.client_returned hstuck hs, hs⟩
  · rintro ⟨⟨c, hc⟩, d, hd⟩ e -
    cases e <;> simp [enabled, hc, hd]

/-! ## Runs in which every call succeeds -/

/-- Every byte is on its way or has come back. -/
structure Whole (sendbuf : List UInt8) (w : Session) : Prop where
  sent : w.client.state ≠ .send → w.client.sent = sendbuf
  echoed : w.accepted ++ (w.server.pending ++ w.toServer.inFlight) = w.client.sent
  emptied : w.server.state = .shutdown ∨ (∃ code, w.server.state = .returned code) →
    w.toServer.inFlight = [] ∧ w.toServer.ended = true
  client : ∀ code, w.client.state = .returned code →
    code = 0 ∧ .printf .connectionClosed ∈ w.client.calls
  server : ∀ code, w.server.state = .returned code → code = 0

theorem Whole.start : Whole sendbuf (start k sendbuf uninit) where
  sent h := absurd rfl h
  echoed := rfl
  emptied := by rintro (⟨⟨⟩⟩ | ⟨code, ⟨⟩⟩)
  client := by rintro code ⟨⟩
  server := by rintro code ⟨⟩

theorem Whole.clientSend (h : Whole sendbuf w) (he : Echoes sendbuf w) (hends : Ends w)
    (hs : w.client.state = .send) :
    Whole sendbuf (w.clientSend (.ok w.client.sendbuf.length)) := by
  have hall := h.echoed
  rw [he.unsent hs, List.append_eq_nil_iff, List.append_eq_nil_iff] at hall
  obtain ⟨haccepted, hpending, hflight⟩ := hall
  have htake : w.client.sendbuf.take w.client.sendbuf.length = w.client.sendbuf :=
    List.take_length
  refine ⟨fun _ ↦ htake.trans he.text, ?_, fun hserver ↦ ?_, by rintro code ⟨⟩, h.server⟩
  · change w.accepted ++ (w.server.pending ++ (w.toServer.inFlight ++ _)) = _
    rw [haccepted, hpending, hflight]
    rfl
  · -- the server has not yet come to the end
    exact absurd hs (hends.toServer.mp (h.emptied hserver).2).1

theorem Whole.clientShutdown (h : Whole sendbuf w) (hs : w.client.state = .shutdown) :
    Whole sendbuf (w.clientShutdown none) where
  sent _ := h.sent (by rw [hs]; rintro ⟨⟩)
  echoed := h.echoed
  emptied hserver := ⟨(h.emptied hserver).1, rfl⟩
  client := by rintro code ⟨⟩
  server := h.server

theorem Whole.clientRecv (h : Whole sendbuf w) (hs : w.client.state = .recv) (k : Nat) :
    Whole sendbuf (w.clientRecv k) := by
  have hsent := h.sent (by rw [hs]; rintro ⟨⟩)
  cases k with
  | zero =>
      refine ⟨fun _ ↦ hsent, h.echoed, fun hserver ↦ ⟨(h.emptied hserver).1, rfl⟩, ?_, h.server⟩
      rintro code ⟨⟩
      exact ⟨rfl, by simp [Session.clientRecv, clientReturn, Client.exit, Client.log]⟩
  | succ k =>
      refine ⟨fun _ ↦ hsent, h.echoed, h.emptied, fun code hcode ↦ ?_, h.server⟩
      cases hs.symm.trans hcode

theorem Whole.serverRecv (h : Whole sendbuf w) (hs : w.server.state = .recv) {k : Nat}
    (hk : w.toServer.delivers EchoServer.defaultBuflen k = true) :
    Whole sendbuf (w.serverRecv k) := by
  have hnone : w.server.pending = [] := by rw [Server.pending, hs]
  have hall := h.echoed
  rw [hnone, List.nil_append] at hall
  cases k with
  | zero =>
      exact ⟨h.sent, hall, fun _ ↦ Stream.delivers_zero.mp hk, h.client, by rintro code ⟨⟩⟩
  | succ k =>
      refine ⟨h.sent, ?_, by rintro (⟨⟨⟩⟩ | ⟨code, ⟨⟩⟩), h.client, by rintro code ⟨⟩⟩
      rw [pending_serverRecv hk]
      change w.accepted ++ ((w.toServer.recv (k + 1)).1 ++
        (w.toServer.recv (k + 1)).2.inFlight) = w.client.sent
      rw [Stream.recv_append, hall]

theorem Whole.serverSend (h : Whole sendbuf w) :
    Whole sendbuf (w.serverSend (.ok w.server.pending.length)) := by
  refine ⟨h.sent, ?_, by rintro (⟨⟨⟩⟩ | ⟨code, ⟨⟩⟩), h.client, by rintro code ⟨⟩⟩
  change w.accepted ++ w.server.pending.take w.server.pending.length ++
    ([] ++ w.toServer.inFlight) = w.client.sent
  rw [List.take_length, List.append_assoc, List.nil_append, h.echoed]

theorem Whole.serverShutdown (h : Whole sendbuf w) (hs : w.server.state = .shutdown) :
    Whole sendbuf (w.serverShutdown none) := by
  have hnone : w.server.pending = [] := by rw [Server.pending, hs]
  have hall := h.echoed
  rw [hnone] at hall
  refine ⟨h.sent, hall, fun _ ↦ h.emptied (.inl hs), h.client, ?_⟩
  rintro code ⟨⟩
  rfl

theorem Whole.step (h : Whole sendbuf w) (he : Echoes sendbuf w) (hends : Ends w) {e : Event}
    (hen : w.enabled e = true) (hs : w.Succeeds e) : Whole sendbuf (w.step e) := by
  cases e with
  | clientSend r =>
      cases hs
      simp only [enabled, Bool.and_eq_true, decide_eq_true_eq] at hen
      exact h.clientSend he hends hen.1
  | clientShutdown error =>
      cases hs
      exact h.clientShutdown (of_decide_eq_true hen)
  | clientRecv k =>
      simp only [enabled, Bool.and_eq_true, decide_eq_true_eq] at hen
      exact h.clientRecv hen.1 k
  | clientRecvError e => cases hs
  | serverRecv k =>
      simp only [enabled, Bool.and_eq_true, decide_eq_true_eq] at hen
      exact h.serverRecv hen.1 hen.2
  | serverRecvError e => cases hs
  | serverSend r =>
      cases hs
      exact h.serverSend
  | serverShutdown error =>
      cases hs
      exact h.serverShutdown (of_decide_eq_true hen)

theorem whole_of_succeeds (h : (system k sendbuf uninit).Reachable Succeeds w) :
    Whole sendbuf w := by
  induction h with
  | init hi =>
      rw [hi]
      exact .start
  | step hr he hs ht ih =>
      cases ht
      exact ih.step (echoes_of_reachable hr.always) (ends_of_reachable hr.always) he hs

/-- If nothing fails, the client gets its whole text back. -/
theorem received_of_stuck (h : (system k sendbuf uninit).Reachable Succeeds w)
    (hstuck : w.Stuck) :
    w.client.state = .returned 0 ∧ w.server.state = .returned 0 ∧ w.client.received = sendbuf := by
  have hwhole := whole_of_succeeds h
  obtain ⟨⟨c, hc⟩, d, hd⟩ := (stuck_iff h.always).mp hstuck
  obtain ⟨rfl, hclosed⟩ := hwhole.client c hc
  obtain rfl := hwhole.server d hd
  have hnone : w.server.pending = [] := by rw [Server.pending, hd]
  have hreceived := (echoes_of_reachable h.always).toClient
  have hall := hwhole.echoed
  rw [((ends_of_reachable h.always).closed hclosed).1, List.append_nil] at hreceived
  rw [hnone, (hwhole.emptied (.inr ⟨0, hd⟩)).1, List.append_nil, List.append_nil] at hall
  exact ⟨hc, hd, by rw [hreceived, hall, hwhole.sent (by rw [hc]; rintro ⟨⟩)]⟩

/-! ## The length of a run -/

/-- The calls that are ahead of the client, if nothing more comes to it. -/
def clientAhead (w : Session) : Nat :=
  match w.client.state with
  | .send => 3 * w.client.sendbuf.length + 3
  | .shutdown => 2
  | .recv => 1
  | .returned _ => 0

/-- The same for the server, with the bytes that it will send. -/
def serverAhead (w : Session) : Nat :=
  match w.server.state with
  | .recv => 2
  | .send n => n + 3
  | .shutdown => 1
  | .returned _ => 0

/-- What is ahead of a session.  A byte that is under way to the server is received
there, sent back, and received. -/
def ahead (w : Session) : Nat :=
  w.clientAhead + w.serverAhead + 3 * w.toServer.inFlight.length + w.toClient.inFlight.length

theorem ahead_clientSend (hs : w.client.state = .send) (r : Except Int Nat) :
    (w.clientSend r).ahead < w.ahead := by
  cases r with
  | error e => simp [ahead, clientAhead, serverAhead, clientSend, clientReturn, Client.exit, hs]
  | ok n =>
      have hle : (w.client.sendbuf.take n).length ≤ w.client.sendbuf.length :=
        List.length_take_le' n w.client.sendbuf
      simp only [ahead, clientAhead, serverAhead, clientSend, Client.log, hs, Stream.inFlight_send,
        List.length_append]
      omega

theorem ahead_clientRecv (hs : w.client.state = .recv) {k : Nat}
    (hk : w.toClient.delivers EchoServer.defaultBuflen k = true) :
    (w.clientRecv k).ahead < w.ahead := by
  cases k with
  | zero => simp [ahead, clientAhead, serverAhead, clientRecv, clientReturn, Client.exit, hs]
  | succ k =>
      have hlen := (Stream.length_recv hk).2
      have hstate : (w.clientRecv (k + 1)).client.state = .recv := hs
      have hflight : (w.clientRecv (k + 1)).toClient = (w.toClient.recv (k + 1)).2 := rfl
      have hserver : (w.clientRecv (k + 1)).serverAhead = w.serverAhead := rfl
      have hclient : (w.clientRecv (k + 1)).toServer = w.toServer := rfl
      simp only [ahead, clientAhead, hs, hstate, hflight, hserver, hclient]
      omega

theorem ahead_serverRecv (hs : w.server.state = .recv) {k : Nat}
    (hk : w.toServer.delivers EchoServer.defaultBuflen k = true) :
    (w.serverRecv k).ahead < w.ahead := by
  cases k with
  | zero => simp [ahead, clientAhead, serverAhead, serverRecv, hs]
  | succ k =>
      have hlen := (Stream.length_recv hk).2
      have hstate : (w.serverRecv (k + 1)).server.state = .send (k + 1) := rfl
      have hflight : (w.serverRecv (k + 1)).toServer = (w.toServer.recv (k + 1)).2 := rfl
      have hserver : (w.serverRecv (k + 1)).clientAhead = w.clientAhead := rfl
      have hclient : (w.serverRecv (k + 1)).toClient = w.toClient := rfl
      simp only [ahead, serverAhead, hs, hstate, hflight, hserver, hclient]
      omega

theorem ahead_serverSend {n : Nat} (hs : w.server.state = .send n) {r : Except Int Nat}
    (hr : takes n r = true) : (w.serverSend r).ahead < w.ahead := by
  cases r with
  | error e =>
      simp [ahead, clientAhead, serverAhead, serverSend, serverReturn, Server.exit, hs]
  | ok m =>
      have hle : m ≤ n := of_decide_eq_true hr
      have hlen : (w.server.pending.take m).length ≤ m := List.length_take_le m w.server.pending
      have hclient : (w.serverSend (.ok m)).clientAhead = w.clientAhead := rfl
      simp only [ahead, hclient]
      simp only [serverAhead, serverSend, hs, Stream.inFlight_send, List.length_append]
      omega

theorem ahead_step {e : Event} (he : w.enabled e = true) : (w.step e).ahead < w.ahead := by
  cases e with
  | clientSend r =>
      simp only [enabled, Bool.and_eq_true, decide_eq_true_eq] at he
      exact ahead_clientSend he.1 r
  | clientShutdown error =>
      have hs : w.client.state = .shutdown := of_decide_eq_true he
      cases error <;> simp [ahead, clientAhead, serverAhead, Session.step, clientShutdown,
        clientReturn, Client.exit, hs]
  | clientRecv k =>
      simp only [enabled, Bool.and_eq_true, decide_eq_true_eq] at he
      exact ahead_clientRecv he.1 he.2
  | clientRecvError e =>
      have hs : w.client.state = .recv := of_decide_eq_true he
      simp [ahead, clientAhead, serverAhead, Session.step, clientRecvError, clientReturn,
        Client.exit, hs]
  | serverRecv k =>
      simp only [enabled, Bool.and_eq_true, decide_eq_true_eq] at he
      exact ahead_serverRecv he.1 he.2
  | serverRecvError e =>
      have hs : w.server.state = .recv := of_decide_eq_true he
      simp [ahead, clientAhead, serverAhead, Session.step, serverRecvError, serverReturn,
        Server.exit, hs]
  | serverSend r =>
      simp only [enabled] at he
      split at he
      · rename_i n hn
        exact ahead_serverSend hn he
      · cases he
  | serverShutdown error =>
      have hs : w.server.state = .shutdown := of_decide_eq_true he
      cases error <;> simp [ahead, clientAhead, serverAhead, Session.step, serverShutdown,
        serverReturn, Server.exit, hs]

/-- **Every session ends.**  It is finite, whatever fails, and nothing more can
happen exactly if both programs have returned; if nothing fails, both return 0, and
the client has got its whole text back. -/
theorem session_ends (k : Nat) (sendbuf : List UInt8) (uninit : Buffer EchoServer.defaultBuflen) :
    (∀ es w, (system k sendbuf uninit).exec (fun _ _ ↦ true) (start k sendbuf uninit) es = some w →
      es.length ≤ 3 * sendbuf.length + 5) ∧
    (∀ w, (system k sendbuf uninit).Reachable Always w →
      (w.Stuck ↔ (∃ code, w.client.state = .returned code) ∧
        ∃ code, w.server.state = .returned code)) ∧
    ∀ w, (system k sendbuf uninit).Reachable Succeeds w → w.Stuck →
      w.client.state = .returned 0 ∧ w.server.state = .returned 0 ∧
        w.client.received = sendbuf := by
  refine ⟨fun es w hx ↦ ?_, fun w ↦ stuck_iff, fun w ↦ received_of_stuck⟩
  refine System.length_exec_le (I := fun _ ↦ True) (m := ahead) (fun _ _ _ _ _ _ ↦ trivial)
    (fun w e w' _ he _ hs ↦ ?_) trivial hx
  cases hs
  exact ahead_step he

end Session

end CppExamples.WinSock.Echo
