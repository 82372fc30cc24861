import CppExamples.AsyncUdp.Client

/-!
# What the client sends

Of the state of a client, what it sends depends on five lists only: the
messages passed to `send_message`, those whose `do_write` has not run yet, the
queue, the messages of the outstanding sends, and the payloads given to
`async_send_to`.  `Outbox` is that part of the state and `Outbox.Step` says all
that an event can do to it; `step_outbox` connects the two, so that nothing
below unfolds a handler.

Two handlers start sends.  `do_write` starts one for every message as soon as
it is queued, `handle_send_to` starts one for the front of what is left of the
queue, and only the latter takes messages off.  As long as no `do_write` runs
while a send is outstanding the two agree: there is at most one outstanding
send and the queue holds exactly its message (`Outbox.InStep`).  One `do_write`
more and the message behind the front is sent twice.
-/

namespace CppExamples.AsyncUdp

open CppExamples.Lib

/-- The part of a client's state that decides what is sent. -/
@[ext] structure Outbox where
  posts : List Message
  posted : List Message
  queue : List Message
  inFlight : List Message
  started : List (List UInt8)

/-- What an event does to the outbox. -/
def Outbox.Step (o : Outbox) : ClientEvent → Outbox → Prop
  | .sendMessage m, o' => o' = { o with posts := o.posts ++ [m], posted := o.posted ++ [m] }
  | .doWrite, o' => ∃ m rest, o.posted = m :: rest ∧
      o' = { o with
        posted := rest
        queue := o.queue ++ [m]
        inFlight := o.inFlight ++ [m]
        started := o.started ++ [m.payload] }
  | .sendDone i false _, o' => i < o.inFlight.length ∧ ∃ m rest, o.queue = m :: rest ∧
      o' = { o with
        queue := rest
        inFlight := o.inFlight.eraseIdx i ++ rest.head?.toList
        started := o.started ++ rest.head?.toList.map Message.payload }
  | .sendDone i true _, o' => o' = { o with inFlight := o.inFlight.eraseIdx i }
  | .arrive _ _, o' => o' = o
  | .receiveDone _ _, o' => o' = o

namespace Client

/-- The outbox of a client. -/
def outbox (w : Client) : Outbox where
  posts := w.posts
  posted := w.posted
  queue := w.sendMsgQueue
  inFlight := w.sends.map PendingSend.msg
  started := w.sendCalls.map SendCall.payload

/-! ## The handlers, seen from the outbox -/

@[simp] theorem outbox_print (w : Client) (l : Line) : (w.print l).outbox = w.outbox := rfl
@[simp] theorem outbox_recvMessage (w : Client) : w.recvMessage.outbox = w.outbox := rfl

theorem outbox_asyncSendTo (w : Client) (m : Message) :
    (w.asyncSendTo m).outbox = { w.outbox with
      inFlight := w.outbox.inFlight ++ [m]
      started := w.outbox.started ++ [m.payload] } := by
  simp [outbox, asyncSendTo]

@[simp] theorem outbox_arrive (w : Client) (i : Nat) (d : Datagram) :
    (w.arrive i d).outbox = w.outbox := by
  unfold arrive
  split <;> rfl

@[simp] theorem outbox_arriveAll (w : Client) (ds : List (Nat × Datagram)) :
    (w.arriveAll ds).outbox = w.outbox := by
  apply arriveAll_induction (P := fun v ↦ v.outbox = w.outbox) rfl
  rintro v hv a -
  rw [outbox_arrive, hv]

@[simp] theorem outbox_handleReceiveFrom (w : Client) (error : Bool) (n : Nat) :
    (w.handleReceiveFrom error n).outbox = w.outbox := by
  unfold handleReceiveFrom
  split
  · dsimp only
    split <;> rfl
  · rfl

/-- **What an event can do to the outbox.** -/
theorem step_outbox {w w' : Client} {e : ClientEvent} (h : w.step e = some w') :
    w.outbox.Step e w'.outbox := by
  cases turn_of_step h with
  | sendMessage m => rfl
  | @doWrite msg front posted queue hp hq =>
      refine ⟨msg, posted, hp, ?_⟩
      rw [outbox_print, outbox_asyncSendTo]
      simp [outbox, hq]
  | sendError hc => simp [Outbox.Step, outbox, print, close, List.eraseIdx_map]
  | @sentLast i c during msg hc hq v hv =>
      have hi : i < w.sends.length := (List.getElem?_eq_some_iff.mp hc).1
      refine ⟨by simpa [outbox] using hi, msg, [], hq, ?_⟩
      rw [outbox_arriveAll, outbox_recvMessage, hv]
      simp [outbox, print, List.eraseIdx_map]
  | @sentNext i c during msg front queue hc hq v hv =>
      have hi : i < w.sends.length := (List.getElem?_eq_some_iff.mp hc).1
      refine ⟨by simpa [outbox] using hi, msg, front :: queue, hq, ?_⟩
      rw [outbox_asyncSendTo, outbox_arriveAll, outbox_recvMessage, hv]
      simp [outbox, print, List.eraseIdx_map]
  | arrive i d => exact outbox_arrive w i d
  | receiveError hr => rfl
  | received hr => exact outbox_handleReceiveFrom _ _ _

end Client

/-! ## One send at a time -/

/-- No send completes with an error. -/
def SendsSucceed (_ : Client) (e : ClientEvent) : Prop := ∀ i during, e ≠ .sendDone i true during

/-- A `do_write` runs only while no send is outstanding. -/
def OneAtATime (w : Client) (e : ClientEvent) : Prop := e = .doWrite → w.sends = []

/-- Every send succeeds, and no `do_write` runs while one is outstanding. -/
def Sequential (w : Client) (e : ClientEvent) : Prop := SendsSucceed w e ∧ OneAtATime w e

namespace Outbox

/-- The queue holds exactly the message of the one send that may be
outstanding, and what has been sent is what has been taken from the posts. -/
structure InStep (o : Outbox) : Prop where
  queue_eq : o.queue = o.inFlight
  one : o.inFlight.length ≤ 1
  posts_eq : o.started ++ o.posted.map Message.payload = o.posts.map Message.payload

/-- Sequential steps keep the queue and the sends in step. -/
theorem InStep.step {o o' : Outbox} {e : ClientEvent} (h : o.InStep) (hs : o.Step e o')
    (hsucc : ∀ i during, e ≠ .sendDone i true during) (hone : e = .doWrite → o.inFlight = []) :
    o'.InStep := by
  cases e with
  | sendMessage m =>
      cases hs
      exact ⟨h.queue_eq, h.one, by simp [← h.posts_eq]⟩
  | doWrite =>
      obtain ⟨m, rest, hp, rfl⟩ := hs
      have he := hone rfl
      refine ⟨by rw [h.queue_eq], by simp [he], ?_⟩
      simpa [hp] using h.posts_eq
  | sendDone i error during =>
      cases error with
      | true => exact absurd rfl (hsucc i during)
      | false =>
          obtain ⟨hi, m, rest, hq, rfl⟩ := hs
          -- the queue is the list of outstanding sends, and has one element
          have hlen : (m :: rest).length ≤ 1 := hq ▸ h.queue_eq ▸ h.one
          obtain rfl : rest = [] := by simpa using hlen
          have hf : o.inFlight = [m] := by rw [← h.queue_eq, hq]
          obtain rfl : i = 0 := by simpa [hf] using hi
          exact ⟨by simp [hf], by simp [hf], by simpa using h.posts_eq⟩
  | arrive i d => cases hs; exact h
  | receiveDone i error => cases hs; exact h

end Outbox

end CppExamples.AsyncUdp
