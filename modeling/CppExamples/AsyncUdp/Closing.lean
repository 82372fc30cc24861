import CppExamples.AsyncUdp.Delivery

/-!
# After the close

Both error branches of the client close `socket_`, and nothing opens it again.
None of the handlers asks whether the socket is open, though, so operations are
still started on it: by every `do_write` that was posted, and by the handler of
a send that has succeeded before the close and completes after it.  These two
are the only steps after the close that start anything.

`closed_starts` makes this precise for every run that goes on from a closed
socket: what it starts, and that the receives among it are no more than the
sends that were outstanding at the close.
-/

namespace CppExamples.AsyncUdp

open CppExamples.Lib

/-- The handlers that start an operation: `do_write`, and `handle_send_to`
without an error. -/
def ClientEvent.starts : ClientEvent → Bool
  | .doWrite => true
  | .sendDone _ error _ => !error
  | _ => false

namespace Client

/-- The outstanding sends that were started while the socket was open. -/
def openSends (w : Client) : Nat := w.sends.countP (·.opened)

/-- What has been started between two states of a client whose socket is closed
in both: sends `s` and receives `r`, all of them on the closed socket, and no
more receives than there were sends that could still succeed. -/
structure StartsClosed (w v : Client) (s : List SendCall) (r : List Bool) : Prop where
  closed : v.socketOpen = false
  sends : v.sendCalls = w.sendCalls ++ s
  receives : v.receiveCalls = w.receiveCalls ++ r
  sendsClosed : ∀ c ∈ s, c.opened = false
  receivesClosed : ∀ b ∈ r, b = false
  bound : r.length + v.openSends ≤ w.openSends

namespace StartsClosed

variable {u v w : Client} {s s' : List SendCall} {r r' : List Bool}

/-- Nothing has been started. -/
theorem of_eq (h : v.socketOpen = false) (hs : v.sendCalls = w.sendCalls)
    (hr : v.receiveCalls = w.receiveCalls) (ho : v.openSends ≤ w.openSends) :
    w.StartsClosed v [] [] where
  closed := h
  sends := by rw [hs, List.append_nil]
  receives := by rw [hr, List.append_nil]
  sendsClosed := by simp
  receivesClosed := by simp
  bound := by simpa using ho

theorem trans (h : u.StartsClosed v s r) (h' : v.StartsClosed w s' r') :
    u.StartsClosed w (s ++ s') (r ++ r') where
  closed := h'.closed
  sends := by rw [h'.sends, h.sends, List.append_assoc]
  receives := by rw [h'.receives, h.receives, List.append_assoc]
  sendsClosed := by
    intro c hc
    rcases List.mem_append.mp hc with hc | hc
    · exact h.sendsClosed c hc
    · exact h'.sendsClosed c hc
  receivesClosed := by
    intro b hb
    rcases List.mem_append.mp hb with hb | hb
    · exact h.receivesClosed b hb
    · exact h'.receivesClosed b hb
  bound := by
    have h₁ := h.bound
    have h₂ := h'.bound
    rw [List.length_append]
    omega

end StartsClosed

variable {w w' : Client}

/-- Nothing arrives at a closed socket. -/
theorem arriveAll_of_closed (h : w.socketOpen = false) (ds : List (Nat × Datagram)) :
    w.arriveAll ds = w := by
  apply arriveAll_induction (P := fun v ↦ v = w) rfl
  rintro _ rfl a -
  simp [arrive, canStore, h]

/-- A send that is no longer outstanding. -/
theorem openSends_eraseIdx {i : Nat} {c : PendingSend} (hc : w.sends[i]? = some c) :
    (w.sends.eraseIdx i).countP (·.opened) + (if c.opened then 1 else 0) = w.openSends := by
  obtain ⟨hi, rfl⟩ := List.getElem?_eq_some_iff.mp hc
  rw [openSends, ← (List.getElem_cons_eraseIdx_perm hi).countP_eq, List.countP_cons]

/-- A send on the closed socket. -/
theorem StartsClosed.asyncSendTo {v : Client} {s : List SendCall} {r : List Bool}
    (h : w.StartsClosed v s r) (m : Message) :
    w.StartsClosed (v.asyncSendTo m) (s ++ [⟨m.payload, v.senderEndpoint, false⟩]) r where
  closed := h.closed
  sends := by
    rw [Client.asyncSendTo, h.closed, h.sends, List.append_assoc]
  receives := h.receives
  sendsClosed := by
    intro c hc
    rcases List.mem_append.mp hc with hc | hc
    · exact h.sendsClosed c hc
    · rw [List.mem_singleton.mp hc]
  receivesClosed := h.receivesClosed
  bound := by
    have hopen : (v.asyncSendTo m).openSends = v.openSends := by
      rw [openSends, openSends, Client.asyncSendTo, List.countP_append, h.closed]
      rfl
    rw [hopen]
    exact h.bound

/-- The receive that the handler of a successful send starts, whatever is left of
the queue. -/
theorem startsClosed_sent (h : w.socketOpen = false) {i : Nat} {c : PendingSend}
    (hc : w.sends[i]? = some c) (ho : c.opened = true) (queue : List Message) (l : Line)
    (during : List (Nat × Datagram)) :
    let v := print { w with sends := w.sends.eraseIdx i, sendMsgQueue := queue } l
    w.StartsClosed (v.recvMessage.arriveAll during) [] [false] := by
  intro v
  have hsend := openSends_eraseIdx hc
  rw [if_pos ho, Nat.add_comm] at hsend
  have hclosed : v.recvMessage.socketOpen = false := h
  rw [arriveAll_of_closed hclosed]
  constructor
  case closed => exact h
  case sends => exact (List.append_nil _).symm
  case receives => rw [← h]; rfl
  case sendsClosed => intro c hc; cases hc
  case receivesClosed => intro b hb; exact List.mem_singleton.mp hb
  case bound => exact hsend.le

/-- **One step after the close.**  It starts something exactly if it is one of
the two handlers that do. -/
theorem step_closed {e : ClientEvent} (h : w.socketOpen = false) (he : w.enabled e = true)
    (hs : w.step e = some w') :
    ∃ s r, w.StartsClosed w' s r ∧ ((s = [] ∧ r = []) ↔ e.starts = false) := by
  cases turn_of_step hs with
  | sendMessage m => exact ⟨[], [], .of_eq h rfl rfl le_rfl, by simp [ClientEvent.starts]⟩
  | @doWrite msg front posted queue hp hq =>
      have hv : w.StartsClosed { w with posted := posted, sendMsgQueue := front :: queue } [] [] :=
        .of_eq h rfl rfl le_rfl
      have hw := hv.asyncSendTo msg
      exact ⟨_, _, ⟨hw.closed, hw.sends, hw.receives, hw.sendsClosed, hw.receivesClosed, hw.bound⟩,
        by simp [ClientEvent.starts]⟩
  | sendError hc =>
      refine ⟨[], [], .of_eq rfl rfl rfl ?_, by simp [ClientEvent.starts]⟩
      rw [← openSends_eraseIdx hc]
      exact Nat.le_add_right _ _
  | @sentLast i c during msg hc hq v hv =>
      have ho : c.opened = true := by simpa [enabled, hc] using he
      rw [hv]
      exact ⟨_, _, startsClosed_sent h hc ho [] _ during, by simp [ClientEvent.starts]⟩
  | @sentNext i c during msg front queue hc hq v hv =>
      have ho : c.opened = true := by simpa [enabled, hc] using he
      rw [hv]
      exact ⟨_, _, (startsClosed_sent h hc ho (front :: queue) _ during).asyncSendTo front,
        by simp [ClientEvent.starts]⟩
  | arrive i d =>
      have ha : w.arrive i d = w := arriveAll_of_closed h [(i, d)]
      rw [ha]
      exact ⟨[], [], .of_eq h rfl rfl le_rfl, by simp [ClientEvent.starts]⟩
  | receiveError hr => exact ⟨[], [], .of_eq rfl rfl rfl le_rfl, by simp [ClientEvent.starts]⟩
  | @received i r hr =>
      refine ⟨[], [], ?_, by simp [ClientEvent.starts]⟩
      simp only [handleReceiveFrom, Bool.not_false, if_true]
      split <;> exact .of_eq h rfl rfl le_rfl

/-- **After the close** the socket stays closed, and what the rest of a run
starts is started on the closed socket.  It starts nothing at all exactly if no
`do_write` runs and no send that succeeded before the close completes; and it
starts at most one receive for each of the sends that were outstanding. -/
theorem closed_starts {server : Endpoint} {es : List ClientEvent} (h : w.socketOpen = false)
    (hx : (system server).exec (fun _ _ ↦ true) w es = some w') :
    ∃ s r, w.StartsClosed w' s r ∧ ((s = [] ∧ r = []) ↔ ∀ e ∈ es, e.starts = false) := by
  induction es generalizing w with
  | nil =>
      cases hx
      exact ⟨[], [], .of_eq h rfl rfl le_rfl, by simp⟩
  | cons e es ih =>
      obtain ⟨he, -, v, hv, hx⟩ := System.exec_cons_iff.mp hx
      obtain ⟨s, r, hs, hiff⟩ := step_closed h he hv
      obtain ⟨s', r', hs', hiff'⟩ := ih hs.closed hx
      refine ⟨s ++ s', r ++ r', hs.trans hs', ?_⟩
      rw [List.forall_mem_cons, ← hiff, ← hiff', List.append_eq_nil_iff, List.append_eq_nil_iff]
      tauto

/-- Two messages posted, and the send of the first one fails. -/
def failedFirst : List ClientEvent :=
  [.sendMessage (headerOnly 65), .sendMessage (headerOnly 66), .doWrite, .sendDone 0 true []]

/-- After the failure the second message is sent on the closed socket. -/
theorem closed_starts_doWrite : ∃ w w' : Client, w.socketOpen = false ∧ ∃ s r,
    w.StartsClosed w' s r ∧
      ((s = [] ∧ r = []) ↔ ∀ e ∈ [ClientEvent.doWrite], e.starts = false) := by
  obtain ⟨w, hw, hclosed, hrun⟩ : ∃ w, (system localServer).Reachable Always w ∧
      w.socketOpen = false ∧
        ((system localServer).exec (fun _ _ ↦ true) w [.doWrite]).isSome = true :=
    System.always_of_exec freshClient_reachable failedFirst rfl
  obtain ⟨w', hx⟩ := Option.isSome_iff_exists.mp hrun
  exact ⟨w, w', hclosed, closed_starts hclosed hx⟩

/-- An operation is started on the closed socket. -/
theorem failedFirst_starts_closed :
    ¬ ∀ (server : Endpoint) (w : Client), (system server).Reachable Always w →
      (∀ c ∈ w.sendCalls, c.opened = true) ∧ ∀ b ∈ w.receiveCalls, b = true := by
  intro h
  obtain ⟨w, hw, c, hmem, hopened⟩ : ∃ w, (system localServer).Reachable Always w ∧
      ∃ c ∈ w.sendCalls, c.opened = false :=
    System.always_of_exec freshClient_reachable (failedFirst ++ [.doWrite]) rfl
  have := (h localServer w hw).1 c hmem
  rw [this] at hopened
  cases hopened

end Client

end CppExamples.AsyncUdp
