import CppExamples.AsyncUdp.Server
import CppExamples.Lib.SharedPtr

/-!
# The asynchronous daytime server

The `udp_server` of `boost_udp_server.cpp`.  It starts a receive; the handler of
a receive that has succeeded sends the time of day to where the datagram came
from, and starts the next receive.  One endpoint `remote_endpoint_` takes the
source of every datagram.  The text of a reply is a string of its own, owned by
the pointer that is bound into the handler of the send, so that any number of
replies can be under way.

## What is assumed of Boost.Asio

As for the echo server.  A pending receive may store its datagram, and with it
the source, at any moment after it is started.  Inside `handle_receive` the only
place where that matters is before `async_send_to`, so the event that runs this
handler carries the arrivals `during` that; the receive the handler itself
starts comes after.  A send takes its destination at the call and reads the
string until its handler runs; the pointer bound into a handler is released when
the handler has run.
-/

namespace CppExamples.AsyncUdp.Daytime

open CppExamples.Lib

def recvBufferSize : Nat := 1

/-- The members of a `udp_server`. -/
structure UdpServer where
  remoteEndpoint : Endpoint
  recvBuffer : Buffer recvBufferSize

/-- A reply: its text and its destination at the call of `async_send_to`. -/
structure Reply where
  text : List UInt8
  dest : Endpoint
deriving DecidableEq

/-- A send that has not completed, and the pointer bound into its handler. -/
structure PendingSend where
  message : Nat
  reply : Reply

/-- A server together with its strings and its outstanding operations, and the
history of the run so far. -/
structure Server extends UdpServer where
  /-- The strings that are owned by shared pointers. -/
  strings : Heap (List UInt8)
  /-- The outstanding receives, with the datagrams they have stored. -/
  receives : List (Option Datagram)
  sends : List PendingSend
  /-- The datagrams whose receives have completed without an error. -/
  requests : List Datagram
  /-- The replies started. -/
  replies : List Reply

namespace Server

/-! ## The members -/

def startReceive (w : Server) : Server := { w with receives := w.receives ++ [none] }

/-- The constructor; `uninit` is what `recv_buffer_` happens to hold. -/
def udpServer (uninit : Buffer recvBufferSize) : Server :=
  startReceive
    { remoteEndpoint := ⟨0, 0⟩, recvBuffer := uninit, strings := .empty, receives := [],
      sends := [], requests := [], replies := [] }

/-- `socket_.async_send_to` on the string `message`, to `remote_endpoint_`, with
a copy of the pointer bound into the handler; `none` is a pointer to nothing. -/
def asyncSendTo (w : Server) (message : Nat) : Option Server :=
  (w.strings.get message).map fun text ↦
    { w with
      strings := w.strings.copy message
      sends := w.sends ++ [⟨message, ⟨text, w.remoteEndpoint⟩⟩]
      replies := w.replies ++ [⟨text, w.remoteEndpoint⟩] }

/-- The `i`-th outstanding receive has not stored anything. -/
def canStore (w : Server) (i : Nat) : Bool := w.receives[i]? = some none

/-- The `i`-th outstanding receive stores the datagram `d`. -/
def arrive (w : Server) (i : Nat) (d : Datagram) : Server :=
  { w with
    recvBuffer := w.recvBuffer.store d.bytes
    remoteEndpoint := d.source
    receives := w.receives.set i (some d) }

/-- The datagrams can be stored one after the other. -/
def canStoreAll (w : Server) : List (Nat × Datagram) → Bool
  | [] => true
  | a :: ds => w.canStore a.1 && (w.arrive a.1 a.2).canStoreAll ds

def arriveAll (w : Server) (ds : List (Nat × Datagram)) : Server :=
  ds.foldl (fun w a ↦ w.arrive a.1 a.2) w

/-- `handle_receive`; `now` is the text of `make_daytime_string`, and `message`
the address of the new string that it is moved to. -/
def handleReceive (w : Server) (error : Bool) (now : List UInt8) (message : Nat)
    (during : List (Nat × Datagram)) : Option Server :=
  if !error then
    let w := { w with strings := w.strings.make message now }.arriveAll during
    (w.asyncSendTo message).map fun w ↦
      -- the local pointer goes out of scope
      { w.startReceive with strings := w.strings.release message }
  else
    some w

/-- `handle_send` does nothing, and the pointer bound into it is released. -/
def handleSend (w : Server) (message : Nat) : Server :=
  { w with strings := w.strings.release message }

end Server

/-! ## The events -/

/-- What can happen next in a run of a server. -/
inductive Event where
  | /-- The `i`-th outstanding receive stores a datagram. -/
    arrive (i : Nat) (d : Datagram)
  | /-- The `i`-th outstanding receive completes and its handler runs. -/
    receiveDone (i : Nat) (error : Bool) (now : List UInt8) (message : Nat)
      (during : List (Nat × Datagram))
  | /-- The `i`-th outstanding send completes and its handler runs. -/
    sendDone (i : Nat) (error : Bool)

/-- A receive that has stored the datagram can succeed. -/
def delivers : Oversize → Datagram → Bool
  | .truncate, _ => true
  | .error, d => decide (d.bytes.length ≤ recvBufferSize)

namespace Server

def enabled (p : Oversize) (w : Server) : Event → Bool
  | .arrive i _ => w.canStore i
  | .receiveDone i error _ message during => match w.receives[i]? with
      | some stored => error || (stored.any (delivers p) && (w.strings message).isNone &&
          { w with receives := w.receives.eraseIdx i }.canStoreAll during)
      | none => false
  | .sendDone i _ => w.sends[i]?.isSome

def step (w : Server) : Event → Option Server
  | .arrive i d => some (w.arrive i d)
  | .receiveDone i error now message during => match w.receives[i]? with
      | some stored =>
          let requests := w.requests ++ if error then [] else stored.toList
          { w with receives := w.receives.eraseIdx i, requests := requests }.handleReceive error
            now message during
      | none => none
  | .sendDone i _ => match w.sends[i]? with
      | some c => some ({ w with sends := w.sends.eraseIdx i }.handleSend c.message)
      | none => none

/-- The runs of a server. -/
def system (p : Oversize) : System Server Event where
  init w := ∃ uninit, w = udpServer uninit
  enabled := enabled p
  step := step

/-! ## The steps of a server with at most one receive -/

/-- What can happen while at most one receive is outstanding. -/
inductive Turn (w : Server) : Event → Server → Prop where
  | arrive (d : Datagram) (hr : w.receives = [none]) :
      Turn w (.arrive 0 d)
        { w with
          recvBuffer := w.recvBuffer.store d.bytes
          remoteEndpoint := d.source
          receives := [some d] }
  | /-- The receive fails. -/
    failed (stored : Option Datagram) (now : List UInt8) (message : Nat)
      (during : List (Nat × Datagram)) (hr : w.receives = [stored]) :
      Turn w (.receiveDone 0 true now message during) { w with receives := [] }
  | /-- The receive succeeds, and the request is answered. -/
    answered (d : Datagram) (now : List UInt8) (message : Nat) (hr : w.receives = [some d])
      (hm : w.strings message = none) :
      Turn w (.receiveDone 0 false now message [])
        { w with
          strings := w.strings.make message now
          receives := [none]
          sends := w.sends ++ [⟨message, ⟨now, w.remoteEndpoint⟩⟩]
          requests := w.requests ++ [d]
          replies := w.replies ++ [⟨now, w.remoteEndpoint⟩] }
  | sent (i : Nat) (c : PendingSend) (error : Bool) (hc : w.sends[i]? = some c) :
      Turn w (.sendDone i error)
        { w with strings := w.strings.release c.message, sends := w.sends.eraseIdx i }

variable {w w' : Server} {p : Oversize}

/-- The only outstanding receive is the one at index `0`. -/
theorem receives_of_getElem? (h : w.receives.length ≤ 1) {i : Nat} {r : Option Datagram}
    (hr : w.receives[i]? = some r) : i = 0 ∧ w.receives = [r] := by
  obtain ⟨hi, hget⟩ := List.getElem?_eq_some_iff.mp hr
  obtain rfl : i = 0 := by omega
  obtain ⟨r', hl⟩ := List.length_eq_one_iff.mp (show w.receives.length = 1 by omega)
  simp only [hl, List.getElem_cons_zero] at hget
  exact ⟨rfl, by rw [hl, hget]⟩

/-- **Every step of a server with at most one receive is a turn.** -/
theorem turn_of_step (h : w.receives.length ≤ 1) {e : Event} (he : w.enabled p e = true)
    (hs : w.step e = some w') : w.Turn e w' := by
  cases e with
  | arrive i d =>
      cases hs
      obtain ⟨rfl, hr⟩ := receives_of_getElem? h (of_decide_eq_true he)
      simp only [Server.arrive, hr, List.set_cons_zero]
      exact .arrive d hr
  | receiveDone i error now message during =>
      simp only [enabled, step] at he hs
      split at hs
      · rename_i stored hi
        obtain ⟨rfl, hr⟩ := receives_of_getElem? h hi
        rw [hi] at he
        cases error with
        | true =>
            cases hs
            simp only [hr, List.eraseIdx_cons_zero, List.append_nil, if_true]
            exact .failed stored now message during hr
        | false =>
            simp only [Bool.false_or, Bool.and_eq_true, Option.isNone_iff_eq_none] at he
            obtain ⟨⟨hv, hm⟩, hduring⟩ := he
            obtain ⟨d, rfl, -⟩ := (Option.any_eq_true _ _).mp hv
            obtain rfl : during = [] := by
              cases during with
              | nil => rfl
              | cons a ds => simp [canStoreAll, canStore, hr] at hduring
            simp only [handleReceive, arriveAll, asyncSendTo, startReceive, Heap.get_make_self,
              Heap.release_copy_make, hr, Bool.not_false, if_true, List.foldl_nil, Option.map_some,
              Option.some.injEq] at hs
            cases hs
            exact .answered d now message hr hm
      · cases hs
  | sendDone i error =>
      simp only [step] at hs
      split at hs
      · rename_i c hc
        cases hs
        exact .sent i c error hc
      · cases hs

end Server

end CppExamples.AsyncUdp.Daytime
