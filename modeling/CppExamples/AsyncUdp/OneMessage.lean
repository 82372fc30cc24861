import CppExamples.AsyncUdp.Heard

/-!
# A client with one message

A client at which one message is posted, and nothing more, goes through the
stages of `OneMessage`: it sends the message once, starts one receive, and shows
what it gets or prints an error.  There is no second send that could outrun the
first one, and no second reply that could overwrite the first.
-/

namespace CppExamples.AsyncUdp

open CppExamples.Lib

/-- The lines a client prints for its only message, if nothing goes wrong. -/
def Message.replied (msg : Message) : List Line :=
  [.sendData (showStr msg.payload), .bytesSent msg.payload.length, .handleReceiveFrom,
    .recvData (showStr msg.payload)]

/-- The lines if the send fails. -/
def Message.sendFailed (msg : Message) : List Line :=
  [.sendData (showStr msg.payload), .bytesSent 0, .sendError]

/-- The lines if the receive fails. -/
def Message.receiveFailed (msg : Message) : List Line :=
  [.sendData (showStr msg.payload), .bytesSent msg.payload.length, .receiveError]

namespace Client

/-- What a client with the message `msg` has to do, what it has sent, and what it
has printed. -/
structure Has (w : Client) (msg : Message) (posted queue : List Message) (sends : List PendingSend)
    (receives : List PendingReceive) (calls : Nat) (console : List Line) : Prop where
  posts : w.posts = [msg]
  posted : w.posted = posted
  queue : w.sendMsgQueue = queue
  sends : w.sends = sends
  receives : w.receives = receives
  calls : w.sendCalls.length = calls
  console : w.console = console

/-- The message is sent, and a receive is outstanding; what it has stored is one
of `H`, and is still in the buffer. -/
def Awaits (H : Datagram → Prop) (msg : Message) (w : Client) : Prop :=
  ∃ r, (∀ d, r.stored = some d → H d ∧ w.data.data.bytes.take d.bytes.length = d.bytes) ∧
    w.Has msg [] [] [] [r] 1 [.sendData (showStr msg.payload), .bytesSent msg.payload.length]

/-- The stages; every datagram that arrives is one of `H`. -/
inductive OneMessage (H : Datagram → Prop) (msg : Message) (w : Client) : Prop where
  | posted (h : w.Has msg [msg] [] [] [] 0 [])
  | sending (c : PendingSend) (hc : c.payload = msg.payload)
      (h : w.Has msg [] [msg] [c] [] 1 [.sendData (showStr msg.payload)])
  | sendFailed (h : w.Has msg [] [msg] [] [] 1 msg.sendFailed)
  | waiting (h : w.Awaits H msg)
  | shown (d : Datagram) (hd : H d)
      (h : w.Has msg [] [] [] [] 1 [.sendData (showStr msg.payload),
        .bytesSent msg.payload.length, .handleReceiveFrom, .recvData (showStr d.bytes)])
  | receiveFailed (h : w.Has msg [] [] [] [] 1 msg.receiveFailed)

variable {H H' : Datagram → Prop} {msg : Message} {w w' : Client}

theorem Awaits.mono (h : w.Awaits H msg) (hH : ∀ d, H d → H' d) : w.Awaits H' msg := by
  obtain ⟨r, hr, h⟩ := h
  exact ⟨r, fun d hd ↦ ⟨hH d (hr d hd).1, (hr d hd).2⟩, h⟩

/-- Of the one receive, at most one datagram is stored. -/
theorem Awaits.arrive (h : w.Awaits H msg) {i : Nat} {d : Datagram} (hd : H d) :
    (w.arrive i d).Awaits H msg := by
  by_cases hc : w.canStore i d = true
  · obtain ⟨r, -, h⟩ := h
    obtain ⟨-, hlen, -⟩ := canStore_iff.mp hc
    have hi : i = 0 := by
      obtain ⟨-, -, r', hi, -⟩ := canStore_iff.mp hc
      have := (List.getElem?_eq_some_iff.mp hi).1
      simpa [h.receives] using this
    rw [Client.arrive, if_pos hc]
    refine ⟨{ r with stored := some d }, ?_, h.posts, h.posted, h.queue, h.sends, ?_, h.calls,
      h.console⟩
    · rintro d' ⟨⟩
      exact ⟨hd, Buffer.take_store_length hlen⟩
    · simp [h.receives, hi]
  · rwa [arrive_of_not_canStore hc]

theorem Awaits.arriveAll (h : w.Awaits H msg) {ds : List (Nat × Datagram)}
    (hd : ∀ a ∈ ds, H a.2) : (w.arriveAll ds).Awaits H msg :=
  arriveAll_induction h fun _ hv a ha ↦ hv.arrive (hd a ha)

/-- The only receive completes, and its datagram is shown. -/
theorem Has.received {r : PendingReceive} {l : List Line} (h : w.Has msg [] [] [] [r] 1 l)
    {d : Datagram} (hd : w.data.data.bytes.take d.bytes.length = d.bytes) :
    (handleReceiveFrom { w with receives := w.receives.eraseIdx 0 } false d.bytes.length).Has msg
      [] [] [] [] 1 (l ++ [.handleReceiveFrom, .recvData (showStr d.bytes)]) := by
  have hnone : w.receives.eraseIdx 0 = [] := by rw [h.receives]; rfl
  have hlines : w.console ++ [.handleReceiveFrom] ++
      [.recvData (showStr (w.data.data.bytes.take d.bytes.length))] =
        l ++ [.handleReceiveFrom, .recvData (showStr d.bytes)] := by
    rw [h.console, hd, List.append_assoc]
    rfl
  unfold handleReceiveFrom
  simp only [Bool.not_false, if_true]
  by_cases hlong : d.bytes.length > headerLength
  · rw [if_pos hlong]
    exact ⟨h.posts, h.posted, h.queue, h.sends, hnone, h.calls, hlines⟩
  · rw [if_neg hlong]
    exact ⟨h.posts, h.posted, h.queue, h.sends, hnone, h.calls, hlines⟩

namespace OneMessage

theorem mono (h : OneMessage H msg w) (hH : ∀ d, H d → H' d) : OneMessage H' msg w := by
  cases h with
  | posted h => exact .posted h
  | sending c hc h => exact .sending c hc h
  | sendFailed h => exact .sendFailed h
  | waiting h => exact .waiting (h.mono hH)
  | shown d hd h => exact .shown d (hH d hd) h
  | receiveFailed h => exact .receiveFailed h

theorem posts_eq (h : OneMessage H msg w) : w.posts = [msg] := by
  cases h with
  | waiting h =>
      obtain ⟨r, -, h⟩ := h
      exact h.posts
  | _ => rename_i h; exact h.posts

/-- The message is sent once at most. -/
theorem sendCalls_le (h : OneMessage H msg w) : w.sendCalls.length ≤ 1 := by
  cases h with
  | waiting h =>
      obtain ⟨r, -, h⟩ := h
      exact h.calls.le
  | posted h => exact h.calls.le.trans (Nat.zero_le _)
  | _ => rename_i h; exact h.calls.le

/-- Only the posted message can be written. -/
theorem doWrite (h : OneMessage H msg w) {m front : Message} {posted queue : List Message}
    (hp : w.posted = m :: posted) (hq : w.sendMsgQueue ++ [m] = front :: queue) :
    OneMessage H msg
      ((asyncSendTo { w with posted := posted, sendMsgQueue := front :: queue } m).print
        (.sendData (showStr front.payload))) := by
  cases h with
  | posted h =>
      cases h.posted.symm.trans hp
      rw [h.queue] at hq
      cases hq
      refine .sending ⟨⟨msg.payload, w.senderEndpoint, w.socketOpen⟩, msg⟩ rfl
        ⟨h.posts, rfl, rfl, ?_, h.receives, ?_, ?_⟩
      · simp [Client.print, asyncSendTo, h.sends]
      · simp [Client.print, asyncSendTo, h.calls]
      · simp [Client.print, asyncSendTo, h.console]
  | waiting h =>
      obtain ⟨r, -, h⟩ := h
      cases h.posted.symm.trans hp
  | _ => rename_i h; cases h.posted.symm.trans hp

/-- A send completes only while the message is being sent. -/
theorem sends_eq (h : OneMessage H msg w) {i : Nat} {c : PendingSend}
    (hc : w.sends[i]? = some c) : i = 0 ∧ c.payload = msg.payload ∧
      w.Has msg [] [msg] [c] [] 1 [.sendData (showStr msg.payload)] := by
  cases h with
  | sending c' hc' h =>
      rw [h.sends, List.getElem?_singleton] at hc
      split at hc
      · cases hc
        exact ⟨‹_›, hc', h⟩
      · cases hc
  | waiting h =>
      obtain ⟨r, -, h⟩ := h
      rw [h.sends] at hc
      cases hc
  | _ =>
      rename_i h
      rw [h.sends] at hc
      cases hc

/-- A receive completes only while a reply is awaited. -/
theorem receives_eq (h : OneMessage H msg w) {i : Nat} {r : PendingReceive}
    (hr : w.receives[i]? = some r) : i = 0 ∧
      (∀ d, r.stored = some d → H d ∧ w.data.data.bytes.take d.bytes.length = d.bytes) ∧
      w.Has msg [] [] [] [r] 1
        [.sendData (showStr msg.payload), .bytesSent msg.payload.length] := by
  cases h with
  | waiting h =>
      obtain ⟨r', hr', h⟩ := h
      rw [h.receives, List.getElem?_singleton] at hr
      split at hr
      · cases hr
        exact ⟨‹_›, hr', h⟩
      · cases hr
  | _ =>
      rename_i h
      rw [h.receives] at hr
      cases hr

/-- **Every step of a client with one message** leads to a stage again. -/
theorem step (h : OneMessage H msg w) {e : ClientEvent} (he : w.enabled e = true)
    (hpost : ∀ m, e ≠ .sendMessage m) (hs : w.step e = some w') (ha : ∀ a ∈ e.arrivals, H a.2) :
    OneMessage H msg w' := by
  cases turn_of_step hs with
  | sendMessage m => exact absurd rfl (hpost m)
  | doWrite hp hq => exact h.doWrite hp hq
  | sendError hc =>
      obtain ⟨rfl, -, h⟩ := h.sends_eq hc
      exact .sendFailed ⟨h.posts, h.posted, h.queue, by simp [Client.close, Client.print, h.sends],
        h.receives, h.calls, by simp [Client.close, Client.print, h.console, Message.sendFailed]⟩
  | @sentLast i c during m hc hq v hv =>
      obtain ⟨rfl, hpayload, h⟩ := h.sends_eq hc
      have hawaits : v.recvMessage.Awaits H msg := by
        rw [hv]
        refine ⟨⟨w.socketOpen, none⟩, by simp, h.posts, h.posted, rfl, ?_, ?_, h.calls, ?_⟩
        · simp [Client.recvMessage, Client.print, h.sends]
        · simp [Client.recvMessage, Client.print, h.receives]
        · simp [Client.recvMessage, Client.print, h.console, hpayload]
      exact .waiting (hawaits.arriveAll ha)
  | sentNext hc hq hv =>
      obtain ⟨-, -, h⟩ := h.sends_eq hc
      cases h.queue.symm.trans hq
  | arrive i d =>
      obtain ⟨-, -, r, hr, -⟩ := canStore_iff.mp he
      obtain ⟨-, hstored, h⟩ := h.receives_eq hr
      have hawaits : w.Awaits H msg := ⟨r, hstored, h⟩
      exact .waiting (hawaits.arrive (ha (i, d) (List.mem_singleton_self _)))
  | receiveError hr =>
      obtain ⟨rfl, -, h⟩ := h.receives_eq hr
      exact .receiveFailed ⟨h.posts, h.posted, h.queue, h.sends,
        by simp [Client.close, Client.print, h.receives], h.calls,
        by simp [Client.close, Client.print, h.console, Message.receiveFailed]⟩
  | @received i r hr =>
      obtain ⟨d, hd⟩ : ∃ d, r.stored = some d := by
        simpa [enabled, hr, Option.isSome_iff_exists] using he
      obtain ⟨rfl, hstored, h⟩ := h.receives_eq hr
      obtain ⟨hH, hdata⟩ := hstored d hd
      rw [hd]
      exact .shown d hH (h.received hdata)

/-- What the client has printed, if every reply that it can get is its message. -/
theorem console_fronts (h : OneMessage H msg w) (hH : ∀ d, H d → d.bytes = msg.payload) :
    w.console <+: msg.replied ∨ w.console <+: msg.sendFailed ∨ w.console <+: msg.receiveFailed := by
  cases h with
  | posted h => exact .inl (h.console ▸ List.nil_prefix)
  | sending c hc h => exact .inl (h.console ▸ ⟨_, rfl⟩)
  | sendFailed h => exact .inr (.inl ⟨[], by rw [h.console, List.append_nil]⟩)
  | waiting h =>
      obtain ⟨r, -, h⟩ := h
      exact .inl (h.console ▸ ⟨_, rfl⟩)
  | shown d hd h => exact .inl ⟨[], by rw [h.console, hH d hd, List.append_nil, Message.replied]⟩
  | receiveFailed h => exact .inr (.inr ⟨[], by rw [h.console, List.append_nil]⟩)

end OneMessage

end Client

end CppExamples.AsyncUdp
