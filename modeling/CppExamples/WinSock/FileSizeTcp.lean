import CppExamples.Lib.Stream
import CppExamples.Lib.System
import CppExamples.WinSock.FileSize

/-!
# The size of a file over TCP

`TCP-Client.cpp` and `TCP-Server.cpp`, from the established connection on.  The
two programs and the connection between them are one system, in which the steps
of the one and the other come in any order.

The client sends the name and then prints what it receives, piece by piece, until
the connection is closed.  The server receives once, takes what it has got for
the whole name, and answers.  Neither of them knows where a message ends, and TCP
does not tell them.

## What is assumed of Winsock

Any call may fail.  A `send` that does not fail takes some of its bytes, at least
one if there are any; how many they were, neither of the programs looks at.
Closing a socket ends the stream that leaves it, without a reset: what has been sent
before still arrives.
-/

namespace CppExamples.WinSock.FileSize

open CppExamples.Lib

/-- Where the client is. -/
inductive ClientState where
  | send
  | recv
  | shutdown
  | returned (code : Int)
deriving DecidableEq

/-- Where the server is. -/
inductive ServerState where
  | recv
  | send (sendbuf : List UInt8)
  | shutdown
  | returned (code : Int)
deriving DecidableEq

/-- The lines that the server prints once it has accepted the client. -/
inductive ServerLine where
  | fileSize (fileSize : Int)
  | connectionClosing
  | recvFailed
  | sendFailed
  | shutdownFailed
deriving DecidableEq

/-- A client and a server, connected to each other. -/
structure Session where
  /-- The name that the user has typed. -/
  filename : List UInt8
  toServer : Stream
  toClient : Stream
  client : ClientState
  server : ServerState
  clientConsole : List Line
  serverConsole : List ServerLine

namespace Session

/-! ## The client -/

def clientPrint (s : Session) (l : Line) : Session :=
  { s with clientConsole := s.clientConsole ++ [l] }

/-- The end of the client: `closesocket`, `WSACleanup` and `return`. -/
def clientReturn (s : Session) (code : Int) : Session :=
  { s with toServer := s.toServer.finish, client := .returned code }

/-- The `send` of the client, with the number of bytes that it has taken, unless it
has failed. -/
def clientSend (s : Session) : Option Nat → Session
  | none => (s.clientPrint .sendFailed).clientReturn 1
  | some n => { s with toServer := s.toServer.send (s.filename.take n), client := .recv }

/-- A `recv` of the client that returns `k`. -/
def clientRecv (s : Session) (k : Nat) : Session :=
  let (recvbuf, toClient) := s.toClient.recv k
  if k > 0 then { s with toClient := toClient }.clientPrint (report s.filename recvbuf)
  else { s.clientPrint .connectionClosed with client := .shutdown }

/-- A `recv` of the client that fails. -/
def clientRecvError (s : Session) : Session :=
  { s.clientPrint .recvFailed with client := .shutdown }

def clientShutdown (s : Session) (error : Bool) : Session :=
  if error then (s.clientPrint .shutdownFailed).clientReturn 1 else s.clientReturn 0

/-! ## The server -/

def serverPrint (s : Session) (l : ServerLine) : Session :=
  { s with serverConsole := s.serverConsole ++ [l] }

/-- The end of the server: `closesocket`, `WSACleanup` and `return`. -/
def serverReturn (s : Session) (code : Int) : Session :=
  { s with toClient := s.toClient.finish, server := .returned code }

/-- The `recv` of the server, if it returns `k`. -/
def serverRecv (files : Files) (s : Session) (k : Nat) : Session :=
  let (recvbuf, toServer) := s.toServer.recv k
  if k > 0 then
    let fileSize := fileSize files recvbuf
    { s.serverPrint (.fileSize fileSize) with
      toServer := toServer, server := .send (sendbuf fileSize) }
  else
    { (s.serverPrint .connectionClosing).serverPrint .connectionClosing with server := .shutdown }

/-- The `recv` of the server, if it fails. -/
def serverRecvError (s : Session) : Session := (s.serverPrint .recvFailed).serverReturn 1

/-- The `send` of the server, in the same way. -/
def serverSend (s : Session) (sendbuf : List UInt8) : Option Nat → Session
  | none => (s.serverPrint .sendFailed).serverReturn 1
  | some n =>
      { s.serverPrint .connectionClosing with
        toClient := s.toClient.send (sendbuf.take n), server := .shutdown }

def serverShutdown (s : Session) (error : Bool) : Session :=
  if error then (s.serverPrint .shutdownFailed).serverReturn 1 else s.serverReturn 0

end Session

/-! ## The steps -/

/-- The calls that return next. -/
inductive Call where
  | clientSend (r : Option Nat)
  | clientRecv (k : Nat)
  | clientRecvError
  | clientShutdown (error : Bool)
  | serverRecv (k : Nat)
  | serverRecvError
  | serverSend (r : Option Nat)
  | serverShutdown (error : Bool)

/-- The call succeeds; a `send` may still have taken only a part. -/
def Call.Succeeds : Call → Prop
  | .clientSend r | .serverSend r => r ≠ none
  | .clientShutdown error | .serverShutdown error => error = false
  | .clientRecvError | .serverRecvError => False
  | .clientRecv _ | .serverRecv _ => True

/-- What a `send` of so many bytes can return. -/
def takes (length : Nat) : Option Nat → Bool
  | none => true
  | some n => decide (n ≤ length) && decide (n = 0 → length = 0)

namespace Session

/-- The call can return now. -/
def enabled (s : Session) : Call → Bool
  | .clientSend r => s.client = .send && takes s.filename.length r
  | .clientRecv k => s.client = .recv && s.toClient.delivers DEFAULT_BUFLEN k
  | .clientRecvError => s.client = .recv
  | .clientShutdown _ => s.client = .shutdown
  | .serverRecv k => s.server = .recv && s.toServer.delivers DEFAULT_BUFLEN k
  | .serverRecvError => s.server = .recv
  | .serverSend r => match s.server with
      | .send sendbuf => takes sendbuf.length r
      | _ => false
  | .serverShutdown _ => s.server = .shutdown

/-- What the programs do when the call has returned. -/
def step (files : Files) (s : Session) : Call → Option Session
  | .clientSend r => some (s.clientSend r)
  | .clientRecv k => some (s.clientRecv k)
  | .clientRecvError => some s.clientRecvError
  | .clientShutdown error => some (s.clientShutdown error)
  | .serverRecv k => some (s.serverRecv files k)
  | .serverRecvError => some s.serverRecvError
  | .serverSend r => match s.server with
      | .send sendbuf => some (s.serverSend sendbuf r)
      | _ => none
  | .serverShutdown error => some (s.serverShutdown error)

/-- The connection is established, and `line` is what the user will type. -/
def start (line : List UInt8) : Session :=
  ⟨getFilename line, .idle, .idle, .send, .recv, [], []⟩

/-- The runs in which the user types `line`. -/
def system (files : Files) (line : List UInt8) : System Session Call where
  init s := s = start line
  enabled := enabled
  step := step files

end Session

end CppExamples.WinSock.FileSize
