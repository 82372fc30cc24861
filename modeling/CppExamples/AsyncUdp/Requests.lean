import CppExamples.AsyncUdp.Network
import CppExamples.AsyncUdp.OneMessage

/-!
# The requests of `main`

The `main` of the client constructs three clients for three servers, posts one
message at each of them, and runs the `io_service`.  Here there are any number of
clients, each with a server of its own, and any messages that the server's
buffer can hold.

If the network does not duplicate datagrams, and the message is still in the buffer
of `do_write` when Asio reads it, nothing goes wrong with the buffers of server and
client: each server gets a single datagram, so that nothing is stored in front
of its `memset`, and each client a single reply.  Then everything that a client
prints is what one expects (`requests_shown`).
-/

namespace CppExamples.AsyncUdp

open CppExamples.Lib

namespace Network

variable {n m : Nat} {A : Setting n m} {w w' : Network n m} {p : Oversize}
  {requests : Fin n → Message}

/-- No packet arrives more often than it has been sent. -/
def NoDuplicates (A : Setting n m) (w : Network n m) (e : NetworkEvent n m) : Prop :=
  ∀ q, (w.delivered ++ arrivals A e).count q ≤ (w.packets A).count q

/-- `main` posts nothing once it has called `run`. -/
def NetworkEvent.posts : NetworkEvent n m → Bool
  | .client _ (.sendMessage _) => true
  | _ => false

/-- The messages have been posted. -/
def post (requests : Fin n → Message) (w : Network n m) : Network n m :=
  { w with clients := fun i ↦ (w.clients i).sendMessage (requests i) }

/-- The runs of `main` and of the servers. -/
def mainSystem (A : Setting n m) (p : Oversize) (requests : Fin n → Message) :
    System (Network n m) (NetworkEvent n m) where
  init w := ∃ w₀, (system A p).init w₀ ∧ w = w₀.post requests
  enabled w e := enabled A p w e && !NetworkEvent.posts e
  step := step A

/-! ## One datagram for each server -/

/-- Each client sends at most one message. -/
def SentOnce (w : Network n m) : Prop := ∀ i, (w.clients i).sendCalls.length ≤ 1

/-- Two packets to one server are the same. -/
theorem packet_unique (hhome : Function.Injective A.home) (h : Closed A sameReceived w)
    (hone : w.SentOnce) {j : Fin m} {q q' : Packet} (hq : q ∈ w.packets A)
    (hq' : q' ∈ w.packets A) (hd : q.dest = A.server j) (hd' : q'.dest = A.server j) : q = q' := by
  -- the servers send to clients only
  have hclient : ∀ {q : Packet}, q ∈ w.packets A → q.dest = A.server j →
      ∃ i, ∃ c ∈ (w.clients i).sendCalls.zipIdx, A.home i = j ∧
        q = ⟨A.client i, c.1.dest, A.reads i c.2⟩ := by
    intro q hq hd
    rcases mem_packets.mp hq with ⟨i, c, hc, -, rfl⟩ | ⟨k, payload, dest, ha, rfl⟩
    · have hdest : A.server (A.home i) = A.server j :=
        ((h.clients i).sendsTo.sent c.1 (List.fst_mem_of_mem_zipIdx hc)).symm.trans hd
      exact ⟨i, c, hc, A.server_injective hdest, rfl⟩
    · obtain ⟨i, -, hi, -⟩ := h.asyncSendTo ha
      exact absurd (hi.symm.trans hd) (A.client_ne_server i j)
  obtain ⟨i, c, hc, hi, rfl⟩ := hclient hq hd
  obtain ⟨i', c', hc', hi', rfl⟩ := hclient hq' hd'
  obtain rfl : i = i' := hhome (hi.trans hi'.symm)
  obtain rfl : c = c' := by
    have hlen : (w.clients i).sendCalls.zipIdx.length ≤ 1 := by
      rw [List.length_zipIdx]
      exact hone i
    obtain ⟨a, ha⟩ := List.length_eq_one_iff.mp
      (Nat.le_antisymm hlen (List.length_pos_of_mem hc))
    rw [ha, List.mem_singleton] at hc hc'
    rw [hc, hc']
  rfl

/-- A packet to a server has been sent once. -/
theorem count_packets_le (h : Closed A sameReceived w) (hone : w.SentOnce) {j : Fin m} {q : Packet}
    (hd : q.dest = A.server j) : (w.packets A).count q ≤ 1 := by
  have hservers : ((List.finRange m).flatMap fun j ↦
      (w.servers j).packets (A.server j)).count q = 0 := by
    rw [List.count_eq_zero, List.mem_flatMap]
    rintro ⟨k, -, hq⟩
    obtain ⟨a, ha, hq⟩ := List.mem_filterMap.mp hq
    cases a with
    | asyncSendTo payload dest =>
        cases hq
        obtain ⟨i, -, hi, -⟩ := h.asyncSendTo ha
        exact A.client_ne_server i j (hi.symm.trans hd)
    | asyncReceiveFrom => cases hq
    | handleReceiveFrom received => cases hq
    | handleSendTo error => cases hq
  have hclients : ((List.finRange n).flatMap fun i ↦
      (w.clients i).packets (A.client i) (A.reads i)).Nodup := by
    rw [List.nodup_flatMap]
    refine ⟨fun i _ ↦ ?_, (List.nodup_finRange n).imp fun {i k} hne ↦ ?_⟩
    · have hlen : ((w.clients i).packets (A.client i) (A.reads i)).length ≤ 1 := by
        rw [Client.packets, List.length_map]
        refine (List.length_filter_le _ _).trans ?_
        rw [List.length_zipIdx]
        exact hone i
      exact List.nodup_iff_count_le_one.mpr fun q ↦ List.count_le_length.trans hlen
    · -- packets of different clients come from different sources
      rw [Function.onFun, List.disjoint_left]
      intro q hq hq'
      obtain ⟨c, -, rfl⟩ := List.mem_map.mp hq
      obtain ⟨c', -, hq'⟩ := List.mem_map.mp hq'
      exact hne (A.client_injective (Packet.mk.inj hq').1.symm)
  rw [packets, List.count_append, hservers, Nat.add_zero]
  exact List.nodup_iff_count_le_one.mp hclients q

/-! ## The invariant -/

/-- The packet has arrived. -/
def Delivered (A : Setting n m) (w : Network n m) (j : Fin m) (d : Datagram) : Prop :=
  ⟨d.source, A.server j, d.bytes⟩ ∈ w.delivered

/-- The servers answer the clients, each of which goes through the stages for its
message, and have heard what has arrived. -/
structure Answering (A : Setting n m) (requests : Fin n → Message) (w : Network n m) :
    Prop where
  closed : Closed A sameReceived w
  clients : ∀ i, (w.clients i).OneMessage (w.Sent A (A.client i)) (requests i)
  delivered : ∀ q ∈ w.delivered, q ∈ w.packets A
  heard : ∀ j, (w.servers j).Heard (w.Delivered A j)

theorem answering_init (h : (mainSystem A p requests).init w) : Answering A requests w := by
  obtain ⟨w₀, hinit, rfl⟩ := h
  have hclosed : Closed A sameReceived w₀ := closed_init hinit
  obtain ⟨hclients, hservers, hdelivered⟩ := hinit
  have hgrows : w₀.Grows (w₀.post requests) :=
    ⟨fun _ ↦ List.prefix_rfl, fun _ ↦ List.prefix_append _ _, fun _ ↦ List.prefix_rfl⟩
  refine ⟨⟨fun i ↦ ?_, fun j ↦ (hclosed.servers j).mono hgrows rfl⟩, fun i ↦ ?_, ?_, fun j ↦ ?_⟩
  · have hc := hclosed.clients i
    have hs : (w₀.clients i).step (.sendMessage (requests i)) =
        some ((w₀.post requests).clients i) := rfl
    have hnone {P : Nat × Datagram → Prop} :
        ∀ a ∈ (ClientEvent.sendMessage (requests i)).arrivals, P a := List.forall_mem_nil _
    exact ⟨hc.posted.step (Client.step_outbox hs), hc.sendsTo.step hnone hs,
      (hc.heard.step hs hnone).mono fun d hd ↦ hgrows.sent hd⟩
  · obtain ⟨uninit, hi⟩ := hclients i
    refine .posted ?_
    change ((w₀.clients i).sendMessage (requests i)).Has _ _ _ _ _ _ _
    rw [hi]
    exact ⟨rfl, rfl, rfl, rfl, rfl, rfl, rfl⟩
  · intro q hq
    have hnil : (w₀.post requests).delivered = [] := hdelivered
    rw [hnil] at hq
    cases hq
  · obtain ⟨uninit, hj⟩ := hservers j
    change (w₀.servers j).Heard _
    rw [hj]
    exact Server.heard_udpServer uninit

/-- A server that is sending an answer has heard its one datagram. -/
theorem Answering.unharmed (h : Answering A requests w) (hhome : Function.Injective A.home)
    {j : Fin m} {e : ServerEvent} (he : w.enabled A p (.server j e) = true)
    (hdup : NoDuplicates A w (.server j e)) : Unharmed (w.servers j) e := by
  have hone : w.SentOnce := fun i ↦ (h.clients i).sendCalls_le
  cases e with
  | arrive i d => nofun
  | receiveDone i error => nofun
  | sendDone i error during =>
      intro _ a ha
      exfalso
      obtain ⟨op, hserving⟩ := (h.closed.servers j).serving
      have hen : (w.servers j).enabled p (.sendDone i error during) = true :=
        (Bool.and_eq_true_iff.mp he).1
      obtain ⟨payload, dest, rfl⟩ := Server.sending_of_enabled hserving.pending hen
      obtain ⟨d, hd⟩ := hserving.exists_received
      have hold : ⟨d.source, A.server j, d.bytes⟩ ∈ w.delivered := (h.heard j).received d hd
      have hnew : ⟨a.2.source, A.server j, a.2.bytes⟩ ∈ arrivals A (.server j (.sendDone i error
        during)) := mem_arrived ha
      have hsame := packet_unique hhome h.closed hone (h.delivered _ hold)
        (mem_packets_of_arrivals he hnew) rfl rfl
      -- the packet has arrived before, and arrives again
      rw [← hsame] at hnew
      have hcount := hdup ⟨d.source, A.server j, d.bytes⟩
      rw [List.count_append] at hcount
      have := List.count_pos_iff.mpr hold
      have := List.count_pos_iff.mpr hnew
      have := count_packets_le h.closed hone (q := ⟨d.source, A.server j, d.bytes⟩) rfl
      omega

theorem Answering.step (h : Answering A requests w) (hhome : Function.Injective A.home)
    (hread : w.ReadAtCall A) {e : NetworkEvent n m}
    (he : (mainSystem A p requests).enabled w e = true) (hdup : NoDuplicates A w e)
    (hs : w.step A e = some w') : Answering A requests w' := by
  obtain ⟨he, hpost⟩ := Bool.and_eq_true_iff.mp he
  have hkeeps : KeepsAnswers sameReceived e := by
    cases e with
    | client i e => trivial
    | server j e => exact keeps_of_unharmed (h.unharmed hhome he hdup)
  have hclosed := h.closed.step hread he hkeeps hs
  have hsent : ∀ q ∈ arrivals A e, q ∈ w.packets A := fun q ↦ mem_packets_of_arrivals he
  have hdelivered (hg : w.Grows w') (hw : w'.delivered = w.delivered ++ arrivals A e) :
      ∀ q ∈ w'.delivered, q ∈ w'.packets A := by
    intro q hq
    rw [hw] at hq
    rcases List.mem_append.mp hq with hq | hq
    · exact hg.packets (h.delivered q hq)
    · exact hg.packets (hsent q hq)
  rcases step_cases he hs with ⟨i, e, c, rfl, hen, hst, rfl⟩ | ⟨j, e, s, rfl, hen, hst, rfl⟩
  · have hg := grows_setClient hst (arrivals A (.client i e))
    refine ⟨hclosed, fun k ↦ ?_, hdelivered hg rfl,
      fun j ↦ (h.heard j).mono fun d hd ↦ List.mem_append_left _ hd⟩
    by_cases hk : k = i
    · subst hk
      rw [clients_deliver, clients_setClient_self]
      have hnopost : ∀ msg, e ≠ .sendMessage msg := by
        rintro msg rfl
        cases hpost
      exact ((h.clients k).step hen hnopost hst fun a ha ↦ hsent _ (mem_arrived ha)).mono
        fun d hd ↦ hg.sent hd
    · rw [clients_deliver, clients_setClient_of_ne hk]
      exact (h.clients k).mono fun d hd ↦ hg.sent hd
  · obtain ⟨op, hserving⟩ := (h.closed.servers j).serving
    have hg := grows_setServer hserving.pending hen hst (arrivals A (.server j e))
    have hmono {k : Fin m} : (w.servers k).Heard
        (((w.setServer j s).deliver (arrivals A (.server j e))).Delivered A k) :=
      (h.heard k).mono fun d hd ↦ List.mem_append_left _ hd
    refine ⟨hclosed, fun i ↦ (h.clients i).mono fun d hd ↦ hg.sent hd, hdelivered hg rfl,
      fun k ↦ ?_⟩
    by_cases hk : k = j
    · subst hk
      rw [servers_deliver, servers_setServer_self]
      exact hmono.step hserving.pending hen hst
        fun a ha ↦ List.mem_append_right _ (mem_arrived ha)
    · rw [servers_deliver, servers_setServer_of_ne hk]
      exact hmono

/-- **Every client prints what one expects.**  Each client has a server of its
own and posts one message, which the server's buffer can hold and which Asio reads
as it was at the call, and the network does not duplicate datagrams; everything else
may happen.  Then what a client
prints is the front of one of three texts: its message is sent and comes back, the
send fails, or the receive fails. -/
theorem requests_shown (hhome : Function.Injective A.home)
    (hfit : ∀ i, (requests i).payload.length ≤ UdpServer.maxLength)
    (h : (mainSystem A p requests).Reachable (NoDuplicates A) w) (hread : w.ReadAtCall A)
    (i : Fin n) :
    (w.clients i).console <+: (requests i).replied ∨
      (w.clients i).console <+: (requests i).sendFailed ∨
      (w.clients i).console <+: (requests i).receiveFailed := by
  have hanswering : Answering A requests w := by
    induction h with
    | init hi => exact answering_init hi
    | step _ he hdup hs ih =>
        have hread' := hread.before (Bool.and_eq_true_iff.mp he).1 hs
        exact (ih hread').step hhome hread' he hdup hs
  refine (hanswering.clients i).console_fronts fun d hd ↦ ?_
  obtain ⟨-, msg, hmsg, hok⟩ := hanswering.closed.sent_client hd
  rw [(hanswering.clients i).posts_eq, List.mem_singleton] at hmsg
  subst hmsg
  rw [of_decide_eq_true hok]
  exact Server.received_eq_bytes (hfit i)

/-! ## The three requests -/

/-- How `main` fills its one message object: `body_length`, and a `memcpy` to
`data()` and to `body()`. -/
def fillMessage (msg : Message) (header text : List UInt8) : Message :=
  let msg := (msg.setBodyLength text.length).write 0 (header.take headerLength)
  msg.write headerLength (text.take msg.bodyLength)

/-- The header `1234567890123456789021`, with another last digit for each client. -/
def requestHeader (c : UInt8) : List UInt8 :=
  [49, 50, 51, 52, 53, 54, 55, 56, 57, 48, 49, 50, 51, 52, 53, 54, 55, 56, 57, 48, 50, c]

/-- The text `This is Request seq1 from c1.`, with another digit for each client. -/
def requestText (c : UInt8) : List UInt8 :=
  [84, 104, 105, 115, 32, 105, 115, 32, 82, 101, 113, 117, 101, 115, 116, 32, 115, 101, 113, 49,
    32, 102, 114, 111, 109, 32, 99, c, 46]

/-- The messages of `main`; `uninit` is what `msg` happens to hold at first. -/
def mainRequests (uninit : Buffer (headerLength + maxBodyLength)) : Fin 3 → Message :=
  let msg₁ := fillMessage ⟨uninit, 0⟩ (requestHeader 49) (requestText 49)
  let msg₂ := fillMessage msg₁ (requestHeader 50) (requestText 50)
  let msg₃ := fillMessage msg₂ (requestHeader 51) (requestText 51)
  fun
    | 0 => msg₁
    | 1 => msg₂
    | 2 => msg₃

/-- The servers listen on the ports 8886, 8887 and 8888, and Asio finds the messages
where it was told. -/
def mainSetting : Setting 3 3 where
  reads i _ := (mainRequests (Buffer.fill _ 0) i).payload
  client i := ⟨0x7f000001, 4000 + BitVec.ofNat 16 i⟩
  server j := ⟨0x7f000001, 8886 + BitVec.ofNat 16 j⟩
  home := id
  client_injective := by decide
  server_injective := by decide
  client_ne_server := by decide

/-- A test for runs without duplicates. -/
def noDuplicatesTest (A : Setting n m) (w : Network n m) (e : NetworkEvent n m) : Bool :=
  (w.delivered ++ arrivals A e).all fun q ↦
    (w.delivered ++ arrivals A e).count q ≤ (w.packets A).count q

theorem noDuplicates_of_test (w : Network n m) (e : NetworkEvent n m)
    (h : noDuplicatesTest A w e = true) : NoDuplicates A w e := by
  intro q
  by_cases hq : q ∈ w.delivered ++ arrivals A e
  · exact of_decide_eq_true (List.all_eq_true.mp h q hq)
  · rw [List.count_eq_zero.mpr hq]
    exact Nat.zero_le _

def mainStart : Network 3 3 := post (mainRequests (Buffer.fill _ 0))
  ⟨fun i ↦ .udpClient (mainSetting.server i) (Buffer.fill _ 0),
    fun _ ↦ .udpServer (Buffer.fill _ 0), []⟩

theorem mainStart_reachable {G : Network 3 3 → NetworkEvent 3 3 → Prop} :
    (mainSystem mainSetting p (mainRequests (Buffer.fill _ 0))).Reachable G mainStart :=
  .init ⟨_, ⟨fun _ ↦ ⟨_, rfl⟩, fun _ ↦ ⟨_, rfl⟩, rfl⟩, rfl⟩

/-- Request `i` goes to its server and back. -/
def roundTrip (i : Fin 3) : List (NetworkEvent 3 3) :=
  let bytes := (mainRequests (Buffer.fill _ 0) i).payload
  [.client i .doWrite, .client i (.sendDone 0 false []),
    .server i (.arrive 0 ⟨mainSetting.client i, bytes⟩), .server i (.receiveDone 0 false),
    .client i (.arrive 0 ⟨mainSetting.server i, bytes⟩), .client i (.receiveDone 0 false)]

/-- All three requests come back. -/
theorem requests_shown_main : ∃ w : Network 3 3,
    (∀ i, (w.clients i).console = (mainRequests (Buffer.fill _ 0) i).replied) ∧
      ∀ i, (w.clients i).console <+: (mainRequests (Buffer.fill _ 0) i).replied ∨
        (w.clients i).console <+: (mainRequests (Buffer.fill _ 0) i).sendFailed ∨
        (w.clients i).console <+: (mainRequests (Buffer.fill _ 0) i).receiveFailed := by
  obtain ⟨w, hw, hr, hread⟩ : ∃ w, (mainSystem mainSetting .truncate
      (mainRequests (Buffer.fill _ 0))).Reachable (NoDuplicates mainSetting) w ∧
      (∀ i, (w.clients i).console = (mainRequests (Buffer.fill _ 0) i).replied) ∧
        w.ReadAtCall mainSetting :=
    System.reachable_of_exec noDuplicates_of_test mainStart_reachable
      (roundTrip 0 ++ roundTrip 1 ++ roundTrip 2) (by decide +kernel)
  exact ⟨w, hr, requests_shown Function.injective_id (by decide) hw hread⟩

end Network

end CppExamples.AsyncUdp
