import CppExamples.AsyncUdp.Message

/-!
# What crosses a UDP socket

Endpoints, datagrams, and what the programs do with a socket: blocking calls,
and two kinds of asynchronous operation.  An operation is outstanding from the
call that starts it until its completion handler runs.
-/

namespace CppExamples.AsyncUdp

open CppExamples.Lib

/-- A `udp::endpoint` of IPv4. -/
structure Endpoint where
  address : BitVec 32
  port : BitVec 16
deriving DecidableEq, Repr

/-- A datagram as a receive gets it: its bytes, cut by the platform to what the
receive asked for, and the endpoint it came from. -/
structure Datagram where
  source : Endpoint
  bytes : List UInt8
deriving DecidableEq

/-- A datagram on its way. -/
structure Packet where
  source : Endpoint
  dest : Endpoint
  bytes : List UInt8
deriving DecidableEq

/-- What a blocking receive meets with: a datagram, with all of its bytes, or a
failure, with its error code. -/
inductive Arrival where
  | datagram (d : Datagram)
  | failure (error : Nat)

/-- The datagram that a receive with room for `len` bytes gets whole. -/
def Arrival.whole (len : Nat) : Arrival → Option Datagram
  | .datagram d => if d.bytes.length ≤ len then some d else none
  | .failure _ => none

/-- A blocking send: the bytes and the endpoint it is given. -/
structure SendTo where
  dest : Endpoint
  payload : List UInt8
deriving DecidableEq

/-- A call of `async_send_to`: the bytes and the endpoint it is given, as they are at
the call, and whether the socket was open then. -/
structure SendCall where
  payload : List UInt8
  dest : Endpoint
  opened : Bool
deriving DecidableEq

/-- An outstanding `async_receive_from`: whether the socket was open at the
call, and the datagram it has stored into its buffer, if it has. -/
structure PendingReceive where
  opened : Bool
  stored : Option Datagram
deriving DecidableEq

/-- The byte count a handler gets: the whole of what was sent or stored, or none
of it. -/
def bytesTransferred (error : Bool) (bytes : List UInt8) : Nat :=
  if error then 0 else bytes.length

end CppExamples.AsyncUdp
