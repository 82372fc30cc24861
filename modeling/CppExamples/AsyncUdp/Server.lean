import CppExamples.AsyncUdp.Socket
import CppExamples.AsyncUdp.Show
import CppExamples.Lib.System

/-!
# The asynchronous echo server `udp_server`

The server starts a receive; `handle_receive_from` sends what came back to where
it came from, or starts the next receive if nothing came; `handle_send_to`
starts the next receive.  One buffer `data_` and one endpoint
`sender_endpoint_` serve all clients, and `handle_send_to` clears the buffer
after it has started the receive, where the constructor clears it before.

## What is assumed of Boost.Asio

As for the client: every started operation completes once, handlers run one at a
time, and a receive stores its datagram at some moment between the call and its
handler.  That moment may lie inside the handler that makes the call; here it
matters in `handle_send_to`, between the call and the `memset`.  A receive can
complete with an error whether it has stored a datagram or not.  A datagram
longer than the buffer is either cut or reported as an error (`Oversize`).

What is sent are the bytes of `data_` at the call of `async_send_to`.  They are still
there when they are read: `data_` is a member, and while a send is outstanding no
receive is (`Server.serving_of_reachable`).
-/

namespace CppExamples.AsyncUdp

open CppExamples.Lib

def UdpServer.maxLength : Nat := 1024

/-- The members of a `udp_server`. -/
structure UdpServer where
  senderEndpoint : Endpoint
  data : Buffer UdpServer.maxLength

/-- What a server gets of a datagram: as much as its buffer can hold. -/
def Datagram.received (d : Datagram) : List UInt8 := d.bytes.take UdpServer.maxLength

/-- What the platform does with a datagram that is longer than the buffer. -/
inductive Oversize where
  | /-- The receive succeeds with the front of the datagram. -/
    truncate
  | /-- The receive completes with an error. -/
    error
deriving DecidableEq

/-- A receive that has stored the datagram can succeed. -/
def Oversize.delivers : Oversize → Datagram → Bool
  | .truncate, _ => true
  | .error, d => decide (d.bytes.length ≤ UdpServer.maxLength)

/-- An asynchronous operation that has not completed. -/
inductive Operation where
  | receive (stored : Option Datagram)
  | send (payload : List UInt8) (dest : Endpoint)
deriving DecidableEq

/-- The operations the server starts, and the handlers that run. -/
inductive Action where
  | asyncReceiveFrom
  /-- The handler of a receive runs: `none` if there was an error, else with the
  datagram that completed the receive. -/
  | handleReceiveFrom (received : Option Datagram)
  | asyncSendTo (payload : List UInt8) (dest : Endpoint)
  | handleSendTo (error : Bool)
deriving DecidableEq

/-- What the server writes to `std::cout` for a datagram. -/
structure RecvData where
  size : Nat
  str : List UInt8
  hex : List UInt8

/-- A server together with its outstanding operations, and the history of the
run so far. -/
structure Server extends UdpServer where
  pending : List Operation
  actions : List Action
  console : List RecvData

namespace Server

/-! ## The members -/

def record (s : Server) (a : Action) : Server := { s with actions := s.actions ++ [a] }

def print (s : Server) (l : RecvData) : Server := { s with console := s.console ++ [l] }

/-- `memset(data_, 0, max_length)` -/
def clear (s : Server) : Server := { s with data := Buffer.fill _ 0 }

/-- `socket_.async_receive_from` into `data_` and `sender_endpoint_`. -/
def asyncReceiveFrom (s : Server) : Server :=
  record { s with pending := s.pending ++ [.receive none] } .asyncReceiveFrom

/-- `socket_.async_send_to` of the first `n` bytes of `data_`, to
`sender_endpoint_`. -/
def asyncSendTo (s : Server) (n : Nat) : Server :=
  record { s with pending := s.pending ++ [.send (s.data.bytes.take n) s.senderEndpoint] }
    (.asyncSendTo (s.data.bytes.take n) s.senderEndpoint)

/-- The constructor; `uninit` is what `data_` happens to hold. -/
def udpServer (uninit : Buffer UdpServer.maxLength) : Server :=
  asyncReceiveFrom <| clear
    { senderEndpoint := ⟨0, 0⟩, data := uninit, pending := [], actions := [], console := [] }

def handleReceiveFrom (s : Server) (error : Bool) (bytesRecvd : Nat) : Server :=
  if !error && bytesRecvd > 0 then
    let recvd := s.data.bytes.take bytesRecvd
    (s.print ⟨bytesRecvd, showStr recvd, showHex recvd⟩).asyncSendTo bytesRecvd
  else
    s.asyncReceiveFrom

/-- The `i`-th outstanding operation is a receive that has not stored anything. -/
def canStore (s : Server) (i : Nat) : Bool := s.pending[i]? = some (.receive none)

/-- The `i`-th outstanding operation stores the datagram `d`. -/
def arrive (s : Server) (i : Nat) (d : Datagram) : Server :=
  { s with
    data := s.data.store d.bytes
    senderEndpoint := d.source
    pending := s.pending.set i (.receive (some d)) }

/-- The datagrams can be stored one after the other. -/
def canStoreAll (s : Server) : List (Nat × Datagram) → Bool
  | [] => true
  | a :: ds => s.canStore a.1 && (s.arrive a.1 a.2).canStoreAll ds

def arriveAll (s : Server) (ds : List (Nat × Datagram)) : Server :=
  ds.foldl (fun s a ↦ s.arrive a.1 a.2) s

/-- `handle_send_to`, which looks at neither of its arguments; the datagrams
`during` are stored between its two statements. -/
def handleSendTo (s : Server) (during : List (Nat × Datagram)) : Server :=
  (s.asyncReceiveFrom.arriveAll during).clear

end Server

/-! ## The events -/

/-- What can happen next in a run of a server. -/
inductive ServerEvent where
  | /-- The `i`-th outstanding operation, a receive, stores a datagram. -/
    arrive (i : Nat) (d : Datagram)
  | /-- The `i`-th outstanding operation, a receive, completes and its handler
    runs. -/
    receiveDone (i : Nat) (error : Bool)
  | /-- The `i`-th outstanding operation, a send, completes and its handler
    runs. -/
    sendDone (i : Nat) (error : Bool) (during : List (Nat × Datagram))

namespace Server

def enabled (p : Oversize) (s : Server) : ServerEvent → Bool
  | .arrive i _ => s.canStore i
  | .receiveDone i error => match s.pending[i]? with
      | some (.receive stored) => error || stored.any p.delivers
      | _ => false
  | .sendDone i _ during => match s.pending[i]? with
      | some (.send _ _) =>
          { s with pending := s.pending.eraseIdx i }.asyncReceiveFrom.canStoreAll during
      | _ => false

def step (s : Server) : ServerEvent → Option Server
  | .arrive i d => some (s.arrive i d)
  | .receiveDone i error => match s.pending[i]? with
      | some (.receive stored) =>
          let received := if error then none else stored
          some (({ s with pending := s.pending.eraseIdx i }.record
            (.handleReceiveFrom received)).handleReceiveFrom error
              (bytesTransferred error (received.elim [] Datagram.received)))
      | _ => none
  | .sendDone i error during => match s.pending[i]? with
      | some (.send _ _) =>
          some (({ s with pending := s.pending.eraseIdx i }.record
            (.handleSendTo error)).handleSendTo during)
      | _ => none

/-- The runs of a server. -/
def system (p : Oversize) : System Server ServerEvent where
  init s := ∃ uninit, s = udpServer uninit
  enabled := enabled p
  step := step

end Server

end CppExamples.AsyncUdp
