import CppExamples.AsyncUdp.Socket
import CppExamples.AsyncUdp.Show
import CppExamples.Lib.System

/-!
# The asynchronous client `udp_client`

The client posts a `do_write` handler for every message it is asked to send.
`do_write` queues the message and starts a send; the handler of a send,
`handle_send_to`, takes the front message off the queue, starts a receive, and
starts another send if the queue is not empty yet; `handle_receive_from` shows
what a receive got.

All receives of a client store into the one object `data_` and write the source
of what they got into the one endpoint `sender_endpoint_`, which is at the same
time the destination of every send.

## What is assumed of Boost.Asio

* Posted handlers run in posting order, and handlers run one at a time.
* Every started operation completes once, in whatever order; a send that was
  started on an open socket may succeed or fail, one started on a closed socket
  fails; a receive that has stored a datagram may succeed.
* `async_send_to` uses the endpoint it is given as it is at the call.  It does not
  copy the bytes: they may be read at any time until the handler of the send runs.
  The buffer that `do_write` gives it is a part of the posted handler and ends with
  it.  A `SendCall` has the bytes that its buffer holds at the call; nothing that a
  client does depends on what is read of them later, which is left to `Network`.
* A receive stores its datagram, and the source of it, at some moment between
  the call of `async_receive_from` and its handler, while the socket is open.
  That moment may lie inside the handler that makes the call.  Inside
  `handle_send_to` the only place where it matters is between `recv_message()`
  and the second `async_send_to`, so the event that runs this handler carries
  the arrivals `during` that.
-/

namespace CppExamples.AsyncUdp

open CppExamples.Lib

/-- The lines the client writes to `std::cout` and `std::cerr`. -/
inductive Line where
  /-- `send data(str):` and a message as text. -/
  | sendData (str : List UInt8)
  /-- `bytes_sent = ` and a count. -/
  | bytesSent (s : Nat)
  /-- `handle_receive_from ` -/
  | handleReceiveFrom
  /-- `recv data(str):` and a reply as text. -/
  | recvData (str : List UInt8)
  /-- `error in handle_send_to:` -/
  | sendError
  /-- `error in handle_receive_from:` -/
  | receiveError
deriving DecidableEq

/-- The members of a `udp_client`. -/
structure UdpClient where
  data : Message
  socketOpen : Bool
  senderEndpoint : Endpoint
  sendMsgQueue : List Message

/-- A send that has not completed, together with the message it is for. -/
structure PendingSend extends SendCall where
  msg : Message

/-- A client together with what its `io_service` holds, and the history of the
run so far. -/
structure Client extends UdpClient where
  /-- The posted `do_write` handlers, the oldest first. -/
  posted : List Message
  /-- The outstanding sends. -/
  sends : List PendingSend
  /-- The outstanding receives. -/
  receives : List PendingReceive
  /-- Every message passed to `send_message` so far. -/
  posts : List Message
  /-- Every call of `async_send_to` so far. -/
  sendCalls : List SendCall
  /-- For every call of `async_receive_from` so far, whether the socket was open. -/
  receiveCalls : List Bool
  /-- The output so far. -/
  console : List Line

namespace Client

/-! ## The members -/

/-- The constructor: `resolved` is the first endpoint that the resolver returns
for the host and the port, and `uninit` is what `data_` happens to hold. -/
def udpClient (resolved : Endpoint) (uninit : Buffer (headerLength + maxBodyLength)) : Client where
  data := ⟨uninit, 0⟩
  socketOpen := true
  senderEndpoint := resolved
  sendMsgQueue := []
  posted := []
  sends := []
  receives := []
  posts := []
  sendCalls := []
  receiveCalls := []
  console := []

def print (w : Client) (l : Line) : Client := { w with console := w.console ++ [l] }

/-- `socket_.close()` -/
def close (w : Client) : Client := { w with socketOpen := false }

/-- `socket_.async_send_to` on the bytes of `msg`, to `sender_endpoint_`. -/
def asyncSendTo (w : Client) (msg : Message) : Client :=
  let call : SendCall := ⟨msg.payload, w.senderEndpoint, w.socketOpen⟩
  { w with sends := w.sends ++ [⟨call, msg⟩], sendCalls := w.sendCalls ++ [call] }

def sendMessage (w : Client) (msg : Message) : Client :=
  { w with posted := w.posted ++ [msg], posts := w.posts ++ [msg] }

def recvMessage (w : Client) : Client :=
  { w with
    receives := w.receives ++ [⟨w.socketOpen, none⟩]
    receiveCalls := w.receiveCalls ++ [w.socketOpen] }

/-- The buffer given to `async_send_to` is the handler's own copy of the
message, while the line printed shows the front of the queue. -/
def doWrite (w : Client) (msg : Message) : Client :=
  let w := { w with sendMsgQueue := w.sendMsgQueue ++ [msg] }
  match w.sendMsgQueue with
  | front :: _ => (w.asyncSendTo msg).print (.sendData (showStr front.payload))
  | [] => w

/-- The `i`-th outstanding receive can store the datagram `d` now. -/
def canStore (w : Client) (i : Nat) (d : Datagram) : Bool :=
  w.socketOpen && decide (d.bytes.length ≤ Message.maxLength) &&
    (w.receives[i]?.any fun r ↦ r.opened && r.stored.isNone)

/-- The `i`-th outstanding receive stores the datagram `d`, if it can. -/
def arrive (w : Client) (i : Nat) (d : Datagram) : Client :=
  if w.canStore i d then
    { w with
      data := { w.data with data := w.data.data.store d.bytes }
      senderEndpoint := d.source
      receives := w.receives.modify i fun r ↦ { r with stored := some d } }
  else w

def arriveAll (w : Client) (ds : List (Nat × Datagram)) : Client :=
  ds.foldl (fun w a ↦ w.arrive a.1 a.2) w

/-- `handle_send_to`; `none` is `pop_front` on an empty deque. -/
def handleSendTo (w : Client) (error : Bool) (s : Nat) (during : List (Nat × Datagram)) :
    Option Client :=
  let w := w.print (.bytesSent s)
  if !error then
    match w.sendMsgQueue with
    | [] => none
    | _ :: queue =>
        let w := ({ w with sendMsgQueue := queue }.recvMessage).arriveAll during
        match w.sendMsgQueue with
        | front :: _ => some (w.asyncSendTo front)
        | [] => some w
  else
    some (w.print .sendError).close

def handleReceiveFrom (w : Client) (error : Bool) (bytesRecvd : Nat) : Client :=
  if !error then
    let w := (w.print .handleReceiveFrom).print
      (.recvData (showStr (w.data.data.bytes.take bytesRecvd)))
    if bytesRecvd > headerLength then
      { w with data := w.data.setBodyLength (bytesRecvd - headerLength) }
    else w
  else
    (w.print .receiveError).close

end Client

/-! ## The events -/

/-- What can happen next in a run of a client. -/
inductive ClientEvent where
  /-- The program calls `send_message`. -/
  | sendMessage (msg : Message)
  /-- The `io_service` runs the oldest posted `do_write`. -/
  | doWrite
  /-- The `i`-th outstanding send completes and its handler runs. -/
  | sendDone (i : Nat) (error : Bool) (during : List (Nat × Datagram))
  /-- The `i`-th outstanding receive stores a datagram. -/
  | arrive (i : Nat) (d : Datagram)
  /-- The `i`-th outstanding receive completes and its handler runs. -/
  | receiveDone (i : Nat) (error : Bool)

namespace Client

def enabled (w : Client) : ClientEvent → Bool
  | .sendMessage _ => true
  | .doWrite => !w.posted.isEmpty
  | .sendDone i error _ => w.sends[i]?.any fun c ↦ error || c.opened
  | .arrive i d => w.canStore i d
  | .receiveDone i error => w.receives[i]?.any fun r ↦ error || r.stored.isSome

def step (w : Client) : ClientEvent → Option Client
  | .sendMessage msg => some (w.sendMessage msg)
  | .doWrite => match w.posted with
      | [] => none
      | msg :: posted => some ({ w with posted := posted }.doWrite msg)
  | .sendDone i error during => match w.sends[i]? with
      | none => none
      | some c => { w with sends := w.sends.eraseIdx i }.handleSendTo error
          (bytesTransferred error c.payload) during
  | .arrive i d => some (w.arrive i d)
  | .receiveDone i error => match w.receives[i]? with
      | none => none
      | some r => some ({ w with receives := w.receives.eraseIdx i }.handleReceiveFrom error
          (bytesTransferred error (r.stored.elim [] Datagram.bytes)))

/-- The runs of a client constructed for the endpoint `resolved`. -/
def system (resolved : Endpoint) : System Client ClientEvent where
  init w := ∃ uninit, w = udpClient resolved uninit
  enabled := enabled
  step := step

/-! ## What a step does -/

/-- What an event does to a client, with a case for every way through the
handlers. -/
inductive Turn (w : Client) : ClientEvent → Client → Prop where
  | sendMessage (msg : Message) : Turn w (.sendMessage msg) (w.sendMessage msg)
  | /-- The queue that `do_write` tests holds what it has just pushed. -/
    doWrite {msg front : Message} {posted queue : List Message} (hp : w.posted = msg :: posted)
      (hq : w.sendMsgQueue ++ [msg] = front :: queue) :
      Turn w .doWrite
        ((asyncSendTo { w with posted := posted, sendMsgQueue := front :: queue } msg).print
          (.sendData (showStr front.payload)))
  | sendError {i : Nat} {c : PendingSend} {during : List (Nat × Datagram)}
      (hc : w.sends[i]? = some c) :
      Turn w (.sendDone i true during)
        (close <| print (print { w with sends := w.sends.eraseIdx i } (.bytesSent 0)) .sendError)
  | /-- A send succeeds, and the queue is empty afterwards. -/
    sentLast {i : Nat} {c : PendingSend} {during : List (Nat × Datagram)} {msg : Message}
      (hc : w.sends[i]? = some c) (hq : w.sendMsgQueue = [msg]) {v : Client}
      (hv : v = print { w with sends := w.sends.eraseIdx i, sendMsgQueue := [] }
        (.bytesSent c.payload.length)) :
      Turn w (.sendDone i false during) (v.recvMessage.arriveAll during)
  | /-- A send succeeds, and the next message of the queue is sent. -/
    sentNext {i : Nat} {c : PendingSend} {during : List (Nat × Datagram)} {msg front : Message}
      {queue : List Message} (hc : w.sends[i]? = some c)
      (hq : w.sendMsgQueue = msg :: front :: queue) {v : Client}
      (hv : v = print { w with sends := w.sends.eraseIdx i, sendMsgQueue := front :: queue }
        (.bytesSent c.payload.length)) :
      Turn w (.sendDone i false during) ((v.recvMessage.arriveAll during).asyncSendTo front)
  | arrive (i : Nat) (d : Datagram) : Turn w (.arrive i d) (w.arrive i d)
  | receiveError {i : Nat} {r : PendingReceive} (hr : w.receives[i]? = some r) :
      Turn w (.receiveDone i true)
        (close <| print { w with receives := w.receives.eraseIdx i } .receiveError)
  | received {i : Nat} {r : PendingReceive} (hr : w.receives[i]? = some r) :
      Turn w (.receiveDone i false)
        (handleReceiveFrom { w with receives := w.receives.eraseIdx i } false
          (r.stored.elim [] Datagram.bytes).length)

/-- **Induction over arrivals**: what each of them keeps, all of them keep. -/
theorem arriveAll_induction {P : Client → Prop} {w : Client} {ds : List (Nat × Datagram)}
    (h : P w) (hP : ∀ v, P v → ∀ a ∈ ds, P (v.arrive a.1 a.2)) : P (w.arriveAll ds) := by
  induction ds generalizing w with
  | nil => exact h
  | cons a ds ih =>
      refine ih (w := w.arrive a.1 a.2) (hP w h a (List.mem_cons_self ..)) ?_
      exact fun v hv b hb ↦ hP v hv b (List.mem_cons_of_mem _ hb)

/-- Arrivals leave the queue alone. -/
theorem sendMsgQueue_arriveAll (w : Client) (ds : List (Nat × Datagram)) :
    (w.arriveAll ds).sendMsgQueue = w.sendMsgQueue := by
  apply arriveAll_induction (P := fun v ↦ v.sendMsgQueue = w.sendMsgQueue) rfl
  rintro v hv a -
  rw [← hv]
  unfold arrive
  split <;> rfl

/-- **Every step is a turn.** -/
theorem turn_of_step {w w' : Client} {e : ClientEvent} (h : w.step e = some w') : w.Turn e w' := by
  cases e with
  | sendMessage m => cases h; exact .sendMessage m
  | doWrite =>
      simp only [step] at h
      split at h
      · cases h
      · rename_i msg posted hp
        obtain ⟨front, queue, hq⟩ : ∃ front queue, w.sendMsgQueue ++ [msg] = front :: queue :=
          List.exists_cons_of_ne_nil (by simp)
        cases h
        simp only [Client.doWrite, hq]
        exact .doWrite hp hq
  | sendDone i error during =>
      simp only [step] at h
      split at h
      · cases h
      · rename_i c hc
        cases error with
        | true => cases h; exact .sendError hc
        | false =>
            simp only [handleSendTo, print, Bool.not_false, if_true, bytesTransferred] at h
            split at h
            · cases h
            · rename_i msg queue hq
              rw [sendMsgQueue_arriveAll] at h
              cases queue with
              | nil => cases h; exact .sentLast hc hq rfl
              | cons front queue => cases h; exact .sentNext hc hq rfl
  | arrive i d => cases h; exact .arrive i d
  | receiveDone i error =>
      simp only [step] at h
      split at h
      · cases h
      · rename_i r hr
        cases error with
        | true => cases h; exact .receiveError hr
        | false => cases h; exact .received hr

end Client

end CppExamples.AsyncUdp
