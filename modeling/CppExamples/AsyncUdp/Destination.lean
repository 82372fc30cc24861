import CppExamples.AsyncUdp.Delivery

/-!
# Where the client sends

Every `async_send_to` of a client takes its destination from `sender_endpoint_`,
which the constructor sets to the resolved server and every receive overwrites
with the source of its datagram.  So the client keeps to its server exactly in
the environments in which nobody else's datagrams reach it:
`sends_to_server_iff` says so for every set of sources.
-/

namespace CppExamples.AsyncUdp

open CppExamples.Lib

/-- The datagrams an event brings, with the receives they are for. -/
def ClientEvent.arrivals : ClientEvent → List (Nat × Datagram)
  | .arrive i d => [(i, d)]
  | .sendDone _ _ during => during
  | _ => []

/-- All datagrams that arrive come from one of the sources in `S`. -/
def ArrivalsFrom (S : Set Endpoint) (_ : Client) (e : ClientEvent) : Prop :=
  ∀ a ∈ e.arrivals, a.2.source ∈ S

namespace Client

/-- The next send goes to the server, as all the sends so far did. -/
structure SendsTo (server : Endpoint) (w : Client) : Prop where
  next : w.senderEndpoint = server
  sent : ∀ c ∈ w.sendCalls, c.dest = server

namespace SendsTo

variable {server : Endpoint} {w : Client}

theorem print (h : w.SendsTo server) (l : Line) : (w.print l).SendsTo server := ⟨h.1, h.2⟩

theorem close (h : w.SendsTo server) : w.close.SendsTo server := ⟨h.1, h.2⟩

theorem recvMessage (h : w.SendsTo server) : w.recvMessage.SendsTo server := ⟨h.1, h.2⟩

theorem asyncSendTo (h : w.SendsTo server) (m : Message) : (w.asyncSendTo m).SendsTo server := by
  refine ⟨h.next, fun c hc ↦ ?_⟩
  rcases List.mem_append.mp hc with hc | hc
  · exact h.sent c hc
  · rw [List.mem_singleton.mp hc]
    exact h.next

/-- Only a datagram from somewhere else can divert the client. -/
theorem arrive (h : w.SendsTo server) {i : Nat} {d : Datagram} (hd : d.source = server) :
    (w.arrive i d).SendsTo server := by
  unfold Client.arrive
  split
  · exact ⟨hd, h.sent⟩
  · exact h

theorem arriveAll (h : w.SendsTo server) {ds : List (Nat × Datagram)}
    (hd : ∀ a ∈ ds, a.2.source = server) : (w.arriveAll ds).SendsTo server :=
  arriveAll_induction h fun _ hv a ha ↦ hv.arrive (hd a ha)

theorem handleReceiveFrom (h : w.SendsTo server) (error : Bool) (n : Nat) :
    (w.handleReceiveFrom error n).SendsTo server := by
  unfold Client.handleReceiveFrom
  split
  · dsimp only
    split <;> exact ⟨h.next, h.sent⟩
  · exact (h.print _).close

/-- While all arrivals are from the server, every step keeps to it. -/
theorem step (h : w.SendsTo server) {e : ClientEvent} (he : ∀ a ∈ e.arrivals, a.2.source = server)
    {w' : Client} (hs : w.step e = some w') : w'.SendsTo server := by
  cases turn_of_step hs with
  | sendMessage m => exact ⟨h.next, h.sent⟩
  | @doWrite msg front posted queue hp hq =>
      have hv : SendsTo server { w with posted := posted, sendMsgQueue := front :: queue } :=
        ⟨h.next, h.sent⟩
      exact (hv.asyncSendTo msg).print _
  | sendError hc => exact ⟨h.next, h.sent⟩
  | @sentLast i c during msg hc hq v hv =>
      have hv : v.SendsTo server := by
        rw [hv]
        exact ⟨h.next, h.sent⟩
      exact hv.recvMessage.arriveAll he
  | @sentNext i c during msg front queue hc hq v hv =>
      have hv : v.SendsTo server := by
        rw [hv]
        exact ⟨h.next, h.sent⟩
      exact (hv.recvMessage.arriveAll he).asyncSendTo front
  | arrive i d => exact h.arrive (he (i, d) (by simp [ClientEvent.arrivals]))
  | receiveError hr => exact ⟨h.next, h.sent⟩
  | @received i r hr =>
      have hv : SendsTo server { w with receives := w.receives.eraseIdx i } := ⟨h.next, h.sent⟩
      exact hv.handleReceiveFrom _ _

end SendsTo

variable {server : Endpoint}

theorem sendsTo_udpClient (uninit : Buffer (headerLength + maxBodyLength)) :
    (udpClient server uninit).SendsTo server := ⟨rfl, nofun⟩

/-- A client that hears from its server only, sends to its server only. -/
theorem sendsTo_of_arrivalsFrom {w : Client}
    (h : (system server).Reachable (ArrivalsFrom {server}) w) : w.SendsTo server := by
  refine h.invariant (I := SendsTo server) ?_ ?_
  · rintro _ ⟨uninit, rfl⟩
    exact sendsTo_udpClient uninit
  · exact fun s e s' _ hi _ hg hs ↦ hi.step (fun a ha ↦ hg a ha) hs

/-! ## A datagram from somewhere else -/

/-- One message sent, then a datagram of `src`, then another message sent. -/
def diverted (src : Endpoint) : List ClientEvent :=
  [.sendMessage (headerOnly 65), .doWrite, .sendDone 0 false [], .arrive 0 ⟨src, [0]⟩,
    .sendMessage (headerOnly 66), .doWrite]

/-- A test for arrivals from one source. -/
def arrivalsTest (src : Endpoint) (_ : Client) (e : ClientEvent) : Bool :=
  e.arrivals.all fun a ↦ a.2.source = src

theorem arrivalsFrom_of_test {S : Set Endpoint} {src : Endpoint} (hS : src ∈ S) (w : Client)
    (e : ClientEvent) (h : arrivalsTest src w e = true) : ArrivalsFrom S w e := by
  intro a ha
  have := List.all_eq_true.mp h a ha
  rw [of_decide_eq_true this]
  exact hS

/-- The second message goes to where the datagram came from. -/
theorem exists_send_to (server : Endpoint) {S : Set Endpoint} {src : Endpoint} (hS : src ∈ S) :
    ∃ w, (system server).Reachable (ArrivalsFrom S) w ∧ ∃ c ∈ w.sendCalls, c.dest = src := by
  have hinit : (system server).Reachable (ArrivalsFrom S) (udpClient server (Buffer.fill _ 0)) :=
    .init ⟨_, rfl⟩
  have hrun : ((system server).exec (arrivalsTest src) (udpClient server (Buffer.fill _ 0))
      (diverted src)).any (fun w ↦ decide (∃ c ∈ w.sendCalls, c.dest = src)) = true := by
    simp only [System.exec, diverted, arrivalsTest, ClientEvent.arrivals, system, List.all_nil,
      List.all_cons, decide_true, Bool.and_true]
    exact decide_eq_true ⟨_, List.mem_cons_of_mem _ (List.mem_cons_self ..), rfl⟩
  exact System.reachable_of_exec (arrivalsFrom_of_test hS) hinit (diverted src) hrun

/-- An endpoint that is not a server of the demo. -/
def stranger : Endpoint := ⟨0x0a000001, 4000⟩

/-- One datagram from a stranger is enough to divert the client. -/
theorem stranger_diverts :
    ¬ ∀ (server : Endpoint) (w : Client), (system server).Reachable Always w →
      ∀ c ∈ w.sendCalls, c.dest = server := by
  intro h
  obtain ⟨w, hw, c, hc, hd⟩ := exists_send_to localServer (Set.mem_singleton stranger)
  have := h localServer w hw.always c hc
  rw [hd] at this
  exact absurd this (by decide)

/-- **The client keeps to its server exactly if nobody else is heard.**  For
every set of sources, all the sends of all the runs whose datagrams come from
those sources go to the endpoint the client was constructed for if and only if
there is no other endpoint among the sources. -/
theorem sends_to_server_iff (server : Endpoint) (S : Set Endpoint) :
    (∀ w, (system server).Reachable (ArrivalsFrom S) w → ∀ c ∈ w.sendCalls, c.dest = server) ↔
      ∀ src ∈ S, src = server := by
  constructor
  · intro h src hS
    obtain ⟨w, hw, c, hc, hd⟩ := exists_send_to server hS
    rw [← hd, h w hw c hc]
  · intro hS w hw
    exact (sendsTo_of_arrivalsFrom (hw.mono fun _ _ hg a ha ↦ hS _ (hg a ha))).sent

end Client

end CppExamples.AsyncUdp
