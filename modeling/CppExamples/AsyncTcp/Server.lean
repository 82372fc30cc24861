import CppExamples.Lib.SharedPtr
import CppExamples.Lib.System

/-!
# The asynchronous TCP daytime server

`tcp_server` creates a `tcp_connection` and starts an accept on its socket; the
handler of the accept starts the connection if there was no error, and in either
case goes on with a new connection.  A connection that is started sends the time
of day out of its own `message_`, and that is all it does.

No list of the connections is kept anywhere.  A connection lives through the
shared pointers to it: the one bound into the handler of its accept, the
parameter and the local variable while the functions run, and the one that
`shared_from_this` makes for the handler of its write.

## What is assumed of Boost.Asio

Every started operation completes once, with an error or without, in whatever
order, and handlers run one at a time.  A handler is destroyed, and the pointers
bound into it are released, when it has run.  A new object is created at any
address that is free.
-/

namespace CppExamples.AsyncTcp

open CppExamples.Lib

/-- A `tcp_connection`: whether its socket is connected, and its `message_`.  The
serial number tells the objects apart that have been at the same address. -/
structure TcpConnection where
  serial : Nat
  connected : Bool
  message : List UInt8
deriving DecidableEq

/-- A write that has not completed: the pointer bound into its handler, and the
bytes of `message_` at the call of `async_write`. -/
structure PendingWrite where
  connection : Nat
  text : List UInt8

/-- A server together with its connections and outstanding operations, and the
history of the run so far, in which a connection goes by its serial number. -/
structure Server where
  /-- The connections that are owned by shared pointers. -/
  connections : Heap TcpConnection
  /-- The number of connections created so far. -/
  created : Nat
  /-- The outstanding accepts: the pointers bound into their handlers. -/
  accepts : List Nat
  writes : List PendingWrite
  /-- The connections whose accepts have succeeded. -/
  accepted : List Nat
  /-- The connections whose accepts have failed. -/
  failed : List Nat
  /-- The calls of `start`. -/
  starts : List Nat
  /-- The calls of `async_write`: the connection, and what it was given to send. -/
  writeCalls : List (Nat × List UInt8)

namespace Server

/-! ## The members -/

/-- `tcp_connection::create`, at the address `p`. -/
def create (w : Server) (p : Nat) : Server :=
  { w with
    connections := w.connections.make p ⟨w.created, false, []⟩
    created := w.created + 1 }

/-- `start_accept`, with the new connection at the address `p`. -/
def startAccept (w : Server) (p : Nat) : Server :=
  let w := w.create p
  let w := { w with connections := w.connections.copy p, accepts := w.accepts ++ [p] }
  -- `new_connection` goes out of scope
  { w with connections := w.connections.release p }

/-- The constructor, with the first connection at the address `p`. -/
def tcpServer (p : Nat) : Server :=
  startAccept
    { connections := .empty, created := 0, accepts := [], writes := [], accepted := [],
      failed := [], starts := [], writeCalls := [] } p

/-- `tcp_connection::start` of the connection at `p`; `now` is the text of
`make_daytime_string`, and `none` is a pointer to nothing. -/
def start (w : Server) (p : Nat) (now : List UInt8) : Option Server :=
  let connections := w.connections.modify p fun c ↦ { c with message := now }
  (connections.get p).map fun c ↦
    { w with
      connections := connections.copy p
      writes := w.writes ++ [⟨p, c.message⟩]
      starts := w.starts ++ [c.serial]
      writeCalls := w.writeCalls ++ [(c.serial, c.message)] }

/-- `handle_accept`, whose first parameter is a pointer passed by value; `fresh`
is the address of the connection that `start_accept` creates. -/
def handleAccept (w : Server) (newConnection : Nat) (error : Bool) (now : List UInt8)
    (fresh : Nat) : Option Server :=
  let w := { w with connections := w.connections.copy newConnection }
  (if !error then w.start newConnection now else some w).map fun w ↦
    let w := w.startAccept fresh
    { w with connections := w.connections.release newConnection }

/-- An accept completes: without an error, the socket of its connection is
connected. -/
def completeAccept (w : Server) (p : Nat) (error : Bool) : Option Server :=
  (w.connections.get p).map fun c ↦
    if error then { w with failed := w.failed ++ [c.serial] }
    else
      { w with
        connections := w.connections.modify p fun c ↦ { c with connected := true }
        accepted := w.accepted ++ [c.serial] }

/-- `handle_write` does nothing, and the pointer bound into it is released. -/
def handleWrite (w : Server) (connection : Nat) : Server :=
  { w with connections := w.connections.release connection }

end Server

/-! ## The events -/

/-- What can happen next in a run of a server. -/
inductive Event where
  | /-- The `i`-th outstanding accept completes and its handler runs. -/
    acceptDone (i : Nat) (error : Bool) (now : List UInt8) (fresh : Nat)
  | /-- The `i`-th outstanding write completes and its handler runs. -/
    writeDone (i : Nat) (error : Bool)

namespace Server

def enabled (w : Server) : Event → Bool
  | .acceptDone i _ _ fresh => w.accepts[i]?.isSome && (w.connections fresh).isNone
  | .writeDone i _ => w.writes[i]?.isSome

def step (w : Server) : Event → Option Server
  | .acceptDone i error now fresh => match w.accepts[i]? with
      | some p => do
          let w ← { w with accepts := w.accepts.eraseIdx i }.completeAccept p error
          let w ← w.handleAccept p error now fresh
          some { w with connections := w.connections.release p }
      | none => none
  | .writeDone i _ => match w.writes[i]? with
      | some b => some ({ w with writes := w.writes.eraseIdx i }.handleWrite b.connection)
      | none => none

/-- The runs of a server. -/
def system : System Server Event where
  init w := ∃ p, w = tcpServer p
  enabled := enabled
  step := step

/-! ## The steps of a server with one accept -/

/-- What can happen while the one outstanding accept is on the connection `c` at
the address `a`. -/
inductive Turn (w : Server) (a : Nat) (c : TcpConnection) : Event → Server → Prop where
  | /-- The accept fails, and another one is started. -/
    failed (now : List UInt8) (fresh : Nat) (hf : w.connections fresh = none) :
      Turn w a c (.acceptDone 0 true now fresh)
        { w with
          connections :=
            (((w.connections.copy a).make fresh ⟨w.created, false, []⟩).release a).release a
          created := w.created + 1
          accepts := [fresh]
          failed := w.failed ++ [c.serial] }
  | /-- The accept succeeds, the connection is started, and another accept is
    started. -/
    accepted (now : List UInt8) (fresh : Nat) (hf : w.connections fresh = none) :
      Turn w a c (.acceptDone 0 false now fresh)
        { w with
          connections :=
            (((((((w.connections.modify a fun c ↦ { c with connected := true }).copy a).modify a
              fun c ↦ { c with message := now }).copy a).make fresh ⟨w.created, false, []⟩).release
                a).release a)
          created := w.created + 1
          accepts := [fresh]
          writes := w.writes ++ [⟨a, now⟩]
          accepted := w.accepted ++ [c.serial]
          starts := w.starts ++ [c.serial]
          writeCalls := w.writeCalls ++ [(c.serial, now)] }
  | written (i : Nat) (b : PendingWrite) (error : Bool) (hb : w.writes[i]? = some b) :
      Turn w a c (.writeDone i error)
        { w with
          connections := w.connections.release b.connection
          writes := w.writes.eraseIdx i }

variable {w w' : Server} {a : Nat} {c : TcpConnection}

/-- **Every step of a server with one accept is a turn.** -/
theorem turn_of_step (ha : w.accepts = [a]) (hc : w.connections.get a = some c) {e : Event}
    (he : w.enabled e = true) (hs : w.step e = some w') : w.Turn a c e w' := by
  cases e with
  | acceptDone i error now fresh =>
      simp only [enabled, Bool.and_eq_true, Option.isNone_iff_eq_none] at he
      obtain ⟨hi, hf⟩ := he
      obtain rfl : i = 0 := by
        obtain ⟨p, hp⟩ := Option.isSome_iff_exists.mp hi
        have hlt := (List.getElem?_eq_some_iff.mp hp).1
        rw [ha, List.length_singleton] at hlt
        omega
      have hfirst : w.accepts[0]? = some a := by rw [ha]; rfl
      have hnone : w.accepts.eraseIdx 0 = [] := by rw [ha]; rfl
      cases error with
      | true =>
          simp only [step, hfirst, hnone, completeAccept, hc, Option.map_some, if_true,
            handleAccept, Bool.not_true, Bool.false_eq_true, if_false, startAccept, create,
            Heap.release_copy_make, List.nil_append, Option.bind_eq_bind, Option.bind_some,
            Option.some.injEq] at hs
          cases hs
          exact .failed now fresh hf
      | false =>
          simp only [step, hfirst, hnone, completeAccept, hc, Option.map_some, if_true,
            handleAccept, Bool.not_false, Bool.false_eq_true, if_false, start, Heap.get_copy,
            Heap.get_modify_self, startAccept, create, Heap.release_copy_make, List.nil_append,
            Option.bind_eq_bind, Option.bind_some, Option.some.injEq] at hs
          cases hs
          exact .accepted now fresh hf
  | writeDone i error =>
      simp only [step] at hs
      split at hs
      · rename_i b hb
        cases hs
        exact .written i b error hb
      · cases hs

end Server

end CppExamples.AsyncTcp
