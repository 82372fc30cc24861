import CppExamples.Lib.System
import CppExamples.WinSock.FileSize
import CppExamples.WinSock.Network

/-!
# The size of a file over UDP

`UDP-Client.cpp` and `UDP-Server.cpp`, once their sockets have been opened.  Any
number of clients may have been started, each with a socket of its own; the
server serves one of them and returns.

Neither program looks at what the calls return.  A failed `sendto` is followed by
the same `recvfrom` as a successful one, and a failed `recvfrom` is taken for an
empty text, with the address that was in the variable before.

## What is assumed of Winsock

What arrives at a socket has been sent to it; it may be delayed, doubled and
reordered, and it may be lost, after which it does not arrive any more.  A call may
fail at any time.
-/

namespace CppExamples.WinSock.FileSize

open CppExamples.Lib CppExamples.AsyncUdp

/-- The lines of a client. -/
inductive UdpLine where
  | sendingNameTo (address : BitVec 32)
  | receivedSizeFrom (address : BitVec 32)
  | answer (l : Line)
deriving DecidableEq

/-- The lines of the server. -/
inductive UdpServerLine where
  | receivedNameFrom (address : BitVec 32)
  | file (filename : List UInt8) (fileSize : Int)
  | sendingSizeTo (address : BitVec 32)
deriving DecidableEq

inductive UdpClientState where
  | sendto
  | recvfrom
  | returned
deriving DecidableEq

inductive UdpServerState where
  | recvfrom
  | sendto (sendbuf : List UInt8)
  | returned
deriving DecidableEq

structure UdpClient where
  filename : List UInt8
  state : UdpClientState
  console : List UdpLine
deriving DecidableEq

structure UdpServer where
  cliAddr : Endpoint
  state : UdpServerState
  console : List UdpServerLine
deriving DecidableEq

/-- The sockets of `n` clients and of the server. -/
structure UdpAddresses (n : Nat) where
  client : Fin n → Endpoint
  server : Endpoint
  injective : Function.Injective client
  client_ne_server : ∀ i, client i ≠ server

/-- The source and the bytes that the programs go on with; `address` is what their
variable held before. -/
def received (address : Endpoint) (a : Arrival) : Endpoint × List UInt8 :=
  match recvfrom DEFAULT_BUFLEN a with
  | (recvbuf, .ok source) => (source, recvbuf)
  | (_, .error _) => (address, [])

namespace UdpClient

/-- The call of `sendto`, whether it fails or not. -/
def sendto (c : UdpClient) (addrServer : Endpoint) : UdpClient :=
  { c with
    console := c.console ++ [.sendingNameTo addrServer.address]
    state := .recvfrom }

/-- The call of `recvfrom`, and the end of the client. -/
def recvfrom (c : UdpClient) (addrServer : Endpoint) (a : Arrival) : UdpClient :=
  let (addrServer, size) := received addrServer a
  { c with
    console := c.console ++
      [.receivedSizeFrom addrServer.address, .answer (report c.filename size)]
    state := .returned }

end UdpClient

namespace UdpServer

/-- The call of `recvfrom`, and what the server does up to its `sendto`. -/
def recvfrom (files : Files) (s : UdpServer) (a : Arrival) : UdpServer :=
  let (cliAddr, filename) := received s.cliAddr a
  let fileSize := fileSize files filename
  { cliAddr := cliAddr
    state := .sendto (sendbuf fileSize)
    console := s.console ++ [.receivedNameFrom cliAddr.address, .file filename fileSize,
      .sendingSizeTo cliAddr.address] }

/-- The end of the server. -/
def sendto (s : UdpServer) : UdpServer := { s with state := .returned }

end UdpServer

/-- The clients, the server, and all that has been sent and can still arrive. -/
structure UdpSession (n : Nat) where
  clients : Fin n → UdpClient
  server : UdpServer
  sent : List Packet

/-- What happens next: a call returns, or a datagram is lost. -/
inductive UdpEvent (n : Nat) where
  | clientSendto (i : Fin n) (error : Bool)
  | clientRecvfrom (i : Fin n) (a : Arrival)
  | serverRecvfrom (a : Arrival)
  | serverSendto (error : Bool)
  | lose (q : Packet)

/-- The event is a call of a program. -/
def UdpEvent.isCall {n : Nat} : UdpEvent n → Bool
  | .lose _ => false
  | _ => true

namespace UdpSession

variable {n : Nat} (A : UdpAddresses n)

def setClient (w : UdpSession n) (i : Fin n) (c : UdpClient) : UdpSession n :=
  { w with clients := Function.update w.clients i c }

/-- A call of `sendto`. -/
def send (w : UdpSession n) (error : Bool) (q : Packet) : UdpSession n :=
  if error then w else { w with sent := w.sent ++ [q] }

/-- What the receive meets with can arrive at `dest`. -/
def delivers (w : UdpSession n) (dest : Endpoint) : Arrival → Bool
  | .datagram d => ⟨d.source, dest, d.bytes⟩ ∈ w.sent
  | .failure _ => true

def enabled (w : UdpSession n) : UdpEvent n → Bool
  | .clientSendto i _ => (w.clients i).state = .sendto
  | .clientRecvfrom i a => (w.clients i).state = .recvfrom && w.delivers (A.client i) a
  | .serverRecvfrom a => w.server.state = .recvfrom && w.delivers A.server a
  | .serverSendto _ => match w.server.state with
      | .sendto _ => true
      | _ => false
  | .lose q => q ∈ w.sent

def step (files : Files) (w : UdpSession n) : UdpEvent n → Option (UdpSession n)
  | .clientSendto i error => some <|
      (w.setClient i ((w.clients i).sendto A.server)).send error
        ⟨A.client i, A.server, (w.clients i).filename⟩
  | .clientRecvfrom i a => some (w.setClient i ((w.clients i).recvfrom A.server a))
  | .serverRecvfrom a => some { w with server := w.server.recvfrom files a }
  | .serverSendto error => match w.server.state with
      | .sendto sendbuf => some <|
          { w with server := w.server.sendto }.send error ⟨A.server, w.server.cliAddr, sendbuf⟩
      | _ => none
  | .lose q => some { w with sent := w.sent.erase q }

/-- Line `i` is what will be typed at client `i`; `uninit` is what `cliAddr`
happens to hold. -/
def start (lines : Fin n → List UInt8) (uninit : Endpoint) : UdpSession n where
  clients i := ⟨getFilename (lines i), .sendto, []⟩
  server := ⟨uninit, .recvfrom, []⟩
  sent := []

def system (files : Files) (lines : Fin n → List UInt8) : System (UdpSession n) (UdpEvent n) where
  init w := ∃ uninit, w = start lines uninit
  enabled := enabled A
  step := step A files

/-! ## What the programs do -/

variable {A} {files : Files} {lines : Fin n → List UInt8} {w w' : UdpSession n}

theorem clients_setClient_self (w : UdpSession n) (i : Fin n) (c : UdpClient) :
    (w.setClient i c).clients i = c := Function.update_self ..

theorem clients_setClient_of_ne {i k : Fin n} (h : k ≠ i) (w : UdpSession n) (c : UdpClient) :
    (w.setClient i c).clients k = w.clients k := Function.update_of_ne h ..

@[simp] theorem clients_send (w : UdpSession n) (error : Bool) (q : Packet) :
    (w.send error q).clients = w.clients := by
  cases error <;> rfl

@[simp] theorem server_send (w : UdpSession n) (error : Bool) (q : Packet) :
    (w.send error q).server = w.server := by
  cases error <;> rfl

theorem mem_send {error : Bool} {q q' : Packet} (h : q' ∈ (w.send error q).sent) :
    q' ∈ w.sent ∨ error = false ∧ q' = q := by
  cases error with
  | true => exact .inl h
  | false =>
      rcases List.mem_append.mp h with h | h
      · exact .inl h
      · exact .inr ⟨rfl, List.mem_singleton.mp h⟩

end UdpSession

end CppExamples.WinSock.FileSize
