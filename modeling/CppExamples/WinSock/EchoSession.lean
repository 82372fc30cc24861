import CppExamples.Lib.Stream
import CppExamples.Lib.System
import CppExamples.WinSock.EchoServer
import CppExamples.WinSock.TcpClient

/-!
# The client and the echo server

`MSExample_TCP-Client.cpp` and `MSExample_TCP-Server.cpp` together, from the
established connection on.  The calls of the one and the other return in any
order.

Each of the two programs is still the one of `TcpClient` and `EchoServer`: where a
call of a session returns, the program goes on as `exchange` and `serve` say, and
when it has returned, it has made the calls of a whole run of these
(`follows_of_reachable`).

## What is assumed of Winsock

Any call may fail.  A `send` that does not fail takes some of its bytes, and says
how many.  A `shutdown`, and closing a socket, end the stream that leaves it, without a
reset: what has been sent before still arrives.
-/

namespace CppExamples.WinSock.Echo

open CppExamples.Lib

/-- Where the client is. -/
inductive ClientState where
  | send
  | shutdown
  | recv
  | returned (code : Int)
deriving DecidableEq

/-- Where the server is. -/
inductive ServerState where
  | recv
  | /-- The front of `recvbuf`, of this length, is to be sent back. -/
    send (iResult : Nat)
  | shutdown
  | returned (code : Int)
deriving DecidableEq

structure Client where
  state : ClientState
  connectSocket : Nat
  sendbuf : List UInt8
  calls : List Call
  /-- The bytes that `send` has taken. -/
  sent : List UInt8
  /-- The bytes that `recv` has put into `recvbuf`, one call after the other. -/
  received : List UInt8

structure Server where
  state : ServerState
  connection : EchoServer.Connection

/-- The two programs, and the connection between them. -/
structure Session where
  client : Client
  server : Server
  toServer : Stream
  toClient : Stream

namespace Client

def log (c : Client) (calls : List Call) : Client := { c with calls := c.calls ++ calls }

/-- `closesocket`, `WSACleanup` and `return`. -/
def exit (c : Client) (code : Int) : Client :=
  { c.log [.closesocket c.connectSocket, .wsaCleanup] with state := .returned code }

end Client

namespace Server

def log (c : Server) (calls : List Call) : Server := { c with connection := c.connection.log calls }

/-- `closesocket`, `WSACleanup` and `return`. -/
def exit (c : Server) (code : Int) : Server :=
  { c.log [.closesocket EchoServer.clientSocket, .wsaCleanup] with state := .returned code }

/-- What the server is about to send back. -/
def pending (c : Server) : List UInt8 := match c.state with
  | .send iResult => c.connection.recvbuf.bytes.take iResult
  | _ => []

end Server

namespace Session

/-! ## The client -/

def clientReturn (w : Session) (code : Int) : Session :=
  { w with client := w.client.exit code, toServer := w.toServer.finish }

/-- The `send` of the client. -/
def clientSend (w : Session) (r : Except Int Nat) : Session :=
  let c := w.client.log [.send w.client.connectSocket]
  match r with
  | .error e => { w with client := c.log [.printf (.sendFailed e)] }.clientReturn 1
  | .ok iResult =>
      let sent := c.sendbuf.take iResult
      { w with
        client := { c.log [.printf (.bytesSent iResult)] with sent := sent, state := .shutdown }
        toServer := w.toServer.send sent }

/-- The `shutdown` of the client, with its error, if there is one. -/
def clientShutdown (w : Session) (error : Option Int) : Session :=
  let c := w.client.log [.shutdown w.client.connectSocket]
  match error with
  | some e => { w with client := c.log [.printf (.shutdownFailed e)] }.clientReturn 1
  | none => { w with client := { c with state := .recv }, toServer := w.toServer.finish }

/-- A `recv` of the client that returns `iResult`. -/
def clientRecv (w : Session) (iResult : Nat) : Session :=
  let (bytes, toClient) := w.toClient.recv iResult
  let c := w.client.log [.recv w.client.connectSocket]
  if iResult > 0 then
    { w with
      client := { c.log [.printf (.bytesReceived iResult)] with received := c.received ++ bytes }
      toClient := toClient }
  else { w with client := c.log [.printf .connectionClosed] }.clientReturn 0

/-- A `recv` of the client that fails. -/
def clientRecvError (w : Session) (e : Int) : Session :=
  let c := w.client.log [.recv w.client.connectSocket]
  { w with client := c.log [.printf (.recvFailed e)] }.clientReturn 0

/-! ## The server -/

def serverReturn (w : Session) (code : Int) : Session :=
  { w with server := w.server.exit code, toClient := w.toClient.finish }

/-- A `recv` of the server that returns `iResult`. -/
def serverRecv (w : Session) (iResult : Nat) : Session :=
  let (bytes, toServer) := w.toServer.recv iResult
  let c := { w.server.connection with recvbuf := w.server.connection.recvbuf.store bytes }
  let c := c.log [.recv EchoServer.clientSocket]
  if iResult > 0 then
    { w with
      server := ⟨.send iResult, c.log [.printf (.bytesReceived iResult)]⟩
      toServer := toServer }
  else { w with server := ⟨.shutdown, c.log [.printf .connectionClosing]⟩ }

/-- A `recv` of the server that fails. -/
def serverRecvError (w : Session) (e : Int) : Session :=
  let c := w.server.log [.recv EchoServer.clientSocket]
  { w with server := c.log [.printf (.recvFailed e)] }.serverReturn 1

/-- The `send` of the server. -/
def serverSend (w : Session) (r : Except Int Nat) : Session :=
  let c := w.server.connection.log [.send EchoServer.clientSocket]
  match r with
  | .error e =>
      let c := c.log [.printf (.sendFailed e)]
      { w with server := { w.server with connection := c } }.serverReturn 1
  | .ok iSendResult =>
      let bytes := w.server.pending.take iSendResult
      { w with
        server := ⟨.recv, { c with accepted := c.accepted ++ bytes }.log
          [.printf (.bytesSent iSendResult)]⟩
        toClient := w.toClient.send bytes }

/-- The `shutdown` of the server, with its error, if there is one. -/
def serverShutdown (w : Session) (error : Option Int) : Session :=
  let c := w.server.log [.shutdown EchoServer.clientSocket]
  match error with
  | some e => { w with server := c.log [.printf (.shutdownFailed e)] }.serverReturn 1
  | none => { w with server := c, toClient := w.toClient.finish }.serverReturn 0

end Session

/-! ## The steps -/

/-- The calls that return next. -/
inductive Event where
  | clientSend (r : Except Int Nat)
  | clientShutdown (error : Option Int)
  | clientRecv (iResult : Nat)
  | clientRecvError (e : Int)
  | serverRecv (iResult : Nat)
  | serverRecvError (e : Int)
  | serverSend (r : Except Int Nat)
  | serverShutdown (error : Option Int)

/-- A `send` of so many bytes can return this. -/
def takes (length : Nat) : Except Int Nat → Bool
  | .error _ => true
  | .ok n => n ≤ length

namespace Session

/-- `DEFAULT_BUFLEN` is the same for both programs. -/
def enabled (w : Session) : Event → Bool
  | .clientSend r => w.client.state = .send && takes w.client.sendbuf.length r
  | .clientShutdown _ => w.client.state = .shutdown
  | .clientRecv k => w.client.state = .recv && w.toClient.delivers EchoServer.defaultBuflen k
  | .clientRecvError _ => w.client.state = .recv
  | .serverRecv k => w.server.state = .recv && w.toServer.delivers EchoServer.defaultBuflen k
  | .serverRecvError _ => w.server.state = .recv
  | .serverSend r => match w.server.state with
      | .send iResult => takes iResult r
      | _ => false
  | .serverShutdown _ => w.server.state = .shutdown

def step (w : Session) : Event → Session
  | .clientSend r => w.clientSend r
  | .clientShutdown error => w.clientShutdown error
  | .clientRecv k => w.clientRecv k
  | .clientRecvError e => w.clientRecvError e
  | .serverRecv k => w.serverRecv k
  | .serverRecvError e => w.serverRecvError e
  | .serverSend r => w.serverSend r
  | .serverShutdown error => w.serverShutdown error

/-- The connection is established: to the address `k` of the client, which has the
text `sendbuf`. -/
def start (k : Nat) (sendbuf : List UInt8) (uninit : Buffer EchoServer.defaultBuflen) : Session :=
  ⟨⟨.send, k, sendbuf, [], [], []⟩, ⟨.recv, ⟨uninit, [], []⟩⟩, .idle, .idle⟩

/-- The runs of the two programs.  `sendbuf` is any text, as that of the client is
nowhere looked at; `uninit` is what the `recvbuf` of the server happens to hold. -/
def system (k : Nat) (sendbuf : List UInt8) (uninit : Buffer EchoServer.defaultBuflen) :
    System Session Event where
  init w := w = start k sendbuf uninit
  enabled := enabled
  step w e := some (w.step e)

end Session

/-- `sendbuf` of `main`: "this is a test". -/
def sendbuf : List UInt8 := [116, 104, 105, 115, 32, 105, 115, 32, 97, 32, 116, 101, 115, 116]

/-! ## The two programs in a session -/

/-- What the client has done so far is what `exchange` does, with the bytes it has
got so far. -/
def Client.Follows (c : Client) : Prop :=
  match c.state with
  | .send => c.calls = [] ∧ c.received = []
  | .shutdown => ∃ n, c.calls = [.send c.connectSocket, .printf (.bytesSent n)] ∧ c.received = []
  | .recv => ∃ n rs calls, loop (TcpClient.receive c.connectSocket) [] rs = some (.again calls) ∧
      c.calls = [.send c.connectSocket, .printf (.bytesSent n), .shutdown c.connectSocket] ++
        calls ∧
      c.received = rs.flatMap Recv.bytes
  | .returned code => ∃ env, TcpClient.exchange env c.connectSocket = some (c.calls, code) ∧
      c.received = env.recvs.flatMap Recv.bytes

/-- The same for the server and `serve`. -/
def Server.Follows (uninit : Buffer EchoServer.defaultBuflen) (c : Server) : Prop :=
  match c.state with
  | .recv => ∃ ts, loop EchoServer.turn ⟨uninit, [], []⟩ ts = some (.again c.connection)
  | .send iResult => 0 < iResult ∧ ∃ ts before bytes,
      loop EchoServer.turn ⟨uninit, [], []⟩ ts = some (.again before) ∧ bytes.length = iResult ∧
        c.connection = { before with recvbuf := before.recvbuf.store bytes }.log
          [.recv EchoServer.clientSocket, .printf (.bytesReceived iResult)]
  | .shutdown => ∃ ts, loop EchoServer.turn ⟨uninit, [], []⟩ ts = some (.left c.connection .closed)
  | .returned code => ∃ env,
      EchoServer.serve env uninit = some ⟨c.connection.calls, c.connection.accepted, code⟩

namespace Session

variable {w : Session} {uninit : Buffer EchoServer.defaultBuflen}

theorem follows_clientSend (h : w.client.Follows) (hs : w.client.state = .send)
    (r : Except Int Nat) : (w.clientSend r).client.Follows := by
  rw [Client.Follows, hs] at h
  obtain ⟨hcalls, hreceived⟩ := h
  cases r with
  | error e =>
      refine ⟨⟨2, 0, .ok [], .error e, none, []⟩, ?_, hreceived⟩
      simp [TcpClient.exchange, clientSend, clientReturn, Client.exit, Client.log, hcalls]
  | ok n =>
      refine ⟨n, ?_, hreceived⟩
      simp [clientSend, Client.log, hcalls]

theorem follows_clientShutdown (h : w.client.Follows) (hs : w.client.state = .shutdown)
    (error : Option Int) : (w.clientShutdown error).client.Follows := by
  rw [Client.Follows, hs] at h
  obtain ⟨n, hcalls, hreceived⟩ := h
  cases error with
  | some e =>
      refine ⟨⟨2, 0, .ok [], .ok n, some e, []⟩, ?_, hreceived⟩
      simp [TcpClient.exchange, clientShutdown, clientReturn, Client.exit, Client.log, hcalls]
  | none =>
      refine ⟨n, [], [], rfl, ?_, hreceived⟩
      simp [clientShutdown, Client.log, hcalls]

/-- The end of the loop in which the client receives. -/
theorem follows_clientReturn {n : Nat} {rs : List Recv} {r : Recv} {calls calls' : List Call}
    (hloop : loop (TcpClient.receive w.client.connectSocket) [] rs = some (.again calls))
    (hr : TcpClient.receive w.client.connectSocket calls r = some (.left calls' ()))
    (hbytes : r.bytes = []) (hreceived : w.client.received = rs.flatMap Recv.bytes)
    (hcalls : w.client.calls = [.send w.client.connectSocket, .printf (.bytesSent n),
      .shutdown w.client.connectSocket] ++ calls') : (w.clientReturn 0).client.Follows := by
  refine ⟨⟨2, 0, .ok [], .ok n, none, rs ++ [r]⟩, ?_, ?_⟩
  · change TcpClient.exchange _ w.client.connectSocket = _
    rw [TcpClient.exchange]
    simp only [loop_concat hloop, hr]
    simp [clientReturn, Client.exit, Client.log, hcalls]
  · change w.client.received = (rs ++ [r]).flatMap Recv.bytes
    rw [List.flatMap_append, List.flatMap_singleton, hbytes, List.append_nil, hreceived]

theorem follows_clientRecv (h : w.client.Follows) (hs : w.client.state = .recv) {k : Nat}
    (hk : w.toClient.delivers EchoServer.defaultBuflen k = true) :
    (w.clientRecv k).client.Follows := by
  rw [Client.Follows, hs] at h
  obtain ⟨n, rs, calls, hloop, hcalls, hreceived⟩ := h
  cases k with
  | zero =>
      refine follows_clientReturn (n := n) (r := .closed) hloop rfl rfl hreceived ?_
      simp [Client.log, hcalls]
  | succ k =>
      have hstate : (w.clientRecv (k + 1)).client.state = .recv := hs
      obtain ⟨hlen, -⟩ := Stream.length_recv hk
      rw [Client.Follows, hstate]
      refine ⟨n, rs ++ [.data (w.toClient.recv (k + 1)).1],
        calls ++ [.recv w.client.connectSocket, .printf (.bytesReceived (k + 1))], ?_, ?_, ?_⟩
      · have hpos : (Recv.data (w.toClient.recv (k + 1)).1).result > 0 := by
          rw [Recv.result, hlen]
          omega
        refine (loop_concat hloop _).trans ?_
        rw [TcpClient.receive, if_pos hpos, Recv.bytes, hlen]
      · simp [clientRecv, Client.log, hcalls]
      · simp [clientRecv, Client.log, hreceived, Recv.bytes]

theorem follows_clientRecvError (h : w.client.Follows) (hs : w.client.state = .recv) (e : Int) :
    (w.clientRecvError e).client.Follows := by
  rw [Client.Follows, hs] at h
  obtain ⟨n, rs, calls, hloop, hcalls, hreceived⟩ := h
  refine follows_clientReturn (n := n) (r := .error e) hloop rfl rfl hreceived ?_
  simp [Client.log, hcalls, Recv.lastError]

theorem follows_serverRecv (h : w.server.Follows uninit) (hs : w.server.state = .recv) {k : Nat}
    (hk : w.toServer.delivers EchoServer.defaultBuflen k = true) :
    (w.serverRecv k).server.Follows uninit := by
  rw [Server.Follows, hs] at h
  obtain ⟨ts, hloop⟩ := h
  cases k with
  | zero =>
      refine ⟨ts ++ [⟨.closed, .ok 0⟩], (loop_concat hloop _).trans ?_⟩
      simp [EchoServer.turn, serverRecv, Stream.recv, Recv.result, Recv.bytes,
        EchoServer.Connection.log]
  | succ k =>
      obtain ⟨hlen, -⟩ := Stream.length_recv hk
      refine ⟨Nat.succ_pos k, ts, _, _, hloop, hlen, ?_⟩
      simp [serverRecv, EchoServer.Connection.log]

/-- The server leaves its loop because of a call that has failed. -/
theorem follows_serverReturn (ts : List EchoServer.Turn)
    (hloop : loop EchoServer.turn ⟨uninit, [], []⟩ ts = some (.left w.server.connection .failed)) :
    (w.serverReturn 1).server.Follows uninit := by
  refine ⟨⟨0, none, none, none, none, none, ts, none⟩, ?_⟩
  rw [EchoServer.serve]
  simp only [hloop]
  rfl

theorem follows_serverRecvError (h : w.server.Follows uninit) (hs : w.server.state = .recv)
    (e : Int) : (w.serverRecvError e).server.Follows uninit := by
  rw [Server.Follows, hs] at h
  obtain ⟨ts, hloop⟩ := h
  refine follows_serverReturn (ts ++ [⟨.error e, .ok 0⟩]) ((loop_concat hloop _).trans ?_)
  simp [EchoServer.turn, Recv.result, Recv.bytes, Recv.lastError, Server.log,
    EchoServer.Connection.log]

theorem follows_serverSend (h : w.server.Follows uninit) {n : Nat}
    (hs : w.server.state = .send n) (r : Except Int Nat) :
    (w.serverSend r).server.Follows uninit := by
  rw [Server.Follows, hs] at h
  obtain ⟨hpos, ts, before, bytes, hloop, hlen, hconn⟩ := h
  have hresult : (Recv.data bytes).result > 0 := by
    rw [Recv.result, hlen]
    omega
  cases r with
  | error e =>
      refine follows_serverReturn (ts ++ [⟨.data bytes, .error e⟩])
        ((loop_concat hloop _).trans ?_)
      rw [EchoServer.turn, if_pos hresult]
      simp [hconn, EchoServer.Connection.log, Recv.bytes, Recv.result, hlen]
  | ok m =>
      refine ⟨ts ++ [⟨.data bytes, .ok m⟩], (loop_concat hloop _).trans ?_⟩
      rw [EchoServer.turn, if_pos hresult]
      simp [serverSend, hconn, Server.pending, hs, EchoServer.Connection.log, Recv.bytes,
        Recv.result, hlen]

theorem follows_serverShutdown (h : w.server.Follows uninit) (hs : w.server.state = .shutdown)
    (error : Option Int) : (w.serverShutdown error).server.Follows uninit := by
  rw [Server.Follows, hs] at h
  obtain ⟨ts, hloop⟩ := h
  cases error with
  | some e =>
      refine ⟨⟨0, none, none, none, none, none, ts, some e⟩, ?_⟩
      rw [EchoServer.serve]
      simp only [hloop]
      simp [serverShutdown, serverReturn, Server.exit, Server.log, EchoServer.Connection.log]
  | none =>
      refine ⟨⟨0, none, none, none, none, none, ts, none⟩, ?_⟩
      rw [EchoServer.serve]
      simp only [hloop]
      simp [serverShutdown, serverReturn, Server.exit, Server.log, EchoServer.Connection.log]

/-- **Both programs run as before.** -/
theorem follows_step (h : w.client.Follows ∧ w.server.Follows uninit) {e : Event}
    (he : w.enabled e = true) : (w.step e).client.Follows ∧ (w.step e).server.Follows uninit := by
  obtain ⟨hclient, hserver⟩ := h
  cases e with
  | clientSend r =>
      simp only [enabled, Bool.and_eq_true, decide_eq_true_eq] at he
      refine ⟨follows_clientSend hclient he.1 r, ?_⟩
      cases r <;> exact hserver
  | clientShutdown error =>
      refine ⟨follows_clientShutdown hclient (of_decide_eq_true he) error, ?_⟩
      cases error <;> exact hserver
  | clientRecv k =>
      simp only [enabled, Bool.and_eq_true, decide_eq_true_eq] at he
      refine ⟨follows_clientRecv hclient he.1 he.2, ?_⟩
      cases k <;> exact hserver
  | clientRecvError e => exact ⟨follows_clientRecvError hclient (of_decide_eq_true he) e, hserver⟩
  | serverRecv k =>
      simp only [enabled, Bool.and_eq_true, decide_eq_true_eq] at he
      refine ⟨?_, follows_serverRecv hserver he.1 he.2⟩
      cases k <;> exact hclient
  | serverRecvError e => exact ⟨hclient, follows_serverRecvError hserver (of_decide_eq_true he) e⟩
  | serverSend r =>
      simp only [enabled] at he
      split at he
      · rename_i n hn
        refine ⟨?_, follows_serverSend hserver hn r⟩
        cases r <;> exact hclient
      · cases he
  | serverShutdown error =>
      refine ⟨?_, follows_serverShutdown hserver (of_decide_eq_true he) error⟩
      cases error <;> exact hclient

theorem follows_of_reachable {k : Nat} {sendbuf : List UInt8}
    (h : (system k sendbuf uninit).Reachable Always w) :
    w.client.Follows ∧ w.server.Follows uninit := by
  induction h with
  | init hi =>
      rw [hi]
      exact ⟨⟨rfl, rfl⟩, [], rfl⟩
  | step _ he _ hs ih =>
      cases hs
      exact follows_step ih he

end Session

end CppExamples.WinSock.Echo
