import CppExamples.AsyncUdp.Heard

/-!
# Clients and servers on one network

Any number of `udp_client`s and `udp_server`s, each with a socket of its own;
every client has been constructed for one of the servers.  The network may lose,
delay, duplicate and reorder datagrams, but it invents none: what arrives at a
socket has been sent to it, by the socket it says it comes from.

What a client sends is what Asio reads of the buffer that the client has given to
`async_send_to`, and Asio reads it after the call.  The buffer of `do_write` is gone
by then, so that these bytes are any bytes at all, a parameter of the runs
(`Setting.reads`).  The results here say whose messages arrive where, and are about
the runs in which every buffer is read as it was at the call (`Network.ReadAtCall`).

* Whoever else there is, a client hears from its server only, and what it hears
  are answers to what itself has posted (`own_answers`).  This needs nothing else of
  the runs: the overtaking datagrams of the servers and the lost replies of the
  clients change the bytes of an answer, but never whose it is.
* In the runs in which nothing is stored in front of the `memset` of a server, or
  over a reply that waits for its handler, every reply that a client shows is a
  message of its own, as far as the server's buffer holds it
  (`shows_own_messages`).
-/

namespace CppExamples.AsyncUdp

open CppExamples.Lib

/-- The endpoints of `n` clients and `m` servers, all of them different, and the
server that each client is constructed for. -/
structure Addresses (n m : Nat) where
  client : Fin n → Endpoint
  server : Fin m → Endpoint
  home : Fin n → Fin m
  client_injective : Function.Injective client
  server_injective : Function.Injective server
  client_ne_server : ∀ i j, client i ≠ server j

/-- Where the clients and servers are, and what Asio reads of their buffers: client
`i`'s call number `k` of `async_send_to` sends `reads i k`. -/
structure Setting (n m : Nat) extends Addresses n m where
  reads : Fin n → Nat → List UInt8

/-- What the client, whose socket is at `source`, has given to the network, if
`reads` is what Asio reads of its buffers. -/
def Client.packets (w : Client) (source : Endpoint) (reads : Nat → List UInt8) : List Packet :=
  (w.sendCalls.zipIdx.filter fun c ↦ c.1.opened).map fun c ↦ ⟨source, c.1.dest, reads c.2⟩

def Action.packet (source : Endpoint) : Action → Option Packet
  | .asyncSendTo payload dest => some ⟨source, dest, payload⟩
  | _ => none

/-- What the server, whose socket is at `source`, has given to the network. -/
def Server.packets (s : Server) (source : Endpoint) : List Packet :=
  s.actions.filterMap (Action.packet source)

/-- The datagrams as packets that are addressed to `dest`. -/
def arrived (dest : Endpoint) (ds : List (Nat × Datagram)) : List Packet :=
  ds.map fun a ↦ ⟨a.2.source, dest, a.2.bytes⟩

structure Network (n m : Nat) where
  clients : Fin n → Client
  servers : Fin m → Server
  /-- Every packet that has arrived so far. -/
  delivered : List Packet

inductive NetworkEvent (n m : Nat) where
  | client (i : Fin n) (e : ClientEvent)
  | server (j : Fin m) (e : ServerEvent)

namespace Network

variable {n m : Nat} (A : Setting n m)

/-- The packets that arrive with an event. -/
def arrivals : NetworkEvent n m → List Packet
  | .client i e => arrived (A.client i) e.arrivals
  | .server j e => arrived (A.server j) e.arrivals

def setClient (w : Network n m) (i : Fin n) (c : Client) : Network n m :=
  { w with clients := Function.update w.clients i c }

def setServer (w : Network n m) (j : Fin m) (s : Server) : Network n m :=
  { w with servers := Function.update w.servers j s }

def deliver (w : Network n m) (qs : List Packet) : Network n m :=
  { w with delivered := w.delivered ++ qs }

/-- All that has been sent so far. -/
def packets (w : Network n m) : List Packet :=
  (List.finRange n).flatMap (fun i ↦ (w.clients i).packets (A.client i) (A.reads i)) ++
    (List.finRange m).flatMap fun j ↦ (w.servers j).packets (A.server j)

/-- The program that the event is about can react to it. -/
def accepts (p : Oversize) (w : Network n m) : NetworkEvent n m → Bool
  | .client i e => (w.clients i).enabled e
  | .server j e => (w.servers j).enabled p e

def enabled (p : Oversize) (w : Network n m) (e : NetworkEvent n m) : Bool :=
  w.accepts p e && (arrivals A e).all fun q ↦ q ∈ w.packets A

def react (w : Network n m) : NetworkEvent n m → Option (Network n m)
  | .client i e => ((w.clients i).step e).map (w.setClient i)
  | .server j e => ((w.servers j).step e).map (w.setServer j)

def step (w : Network n m) (e : NetworkEvent n m) : Option (Network n m) :=
  (w.react e).map fun v ↦ v.deliver (arrivals A e)

/-- The runs of the clients and the servers, none of which has done anything yet. -/
def system (p : Oversize) : System (Network n m) (NetworkEvent n m) where
  init w := (∀ i, ∃ uninit, w.clients i = .udpClient (A.server (A.home i)) uninit) ∧
    (∀ j, ∃ uninit, w.servers j = .udpServer uninit) ∧ w.delivered = []
  enabled := enabled A p
  step := step A

variable {A} {w w' : Network n m} {p : Oversize}

/-! ## The network -/

@[simp] theorem clients_setClient_self (w : Network n m) (i : Fin n) (c : Client) :
    (w.setClient i c).clients i = c := Function.update_self ..

theorem clients_setClient_of_ne {i k : Fin n} (h : k ≠ i) (w : Network n m) (c : Client) :
    (w.setClient i c).clients k = w.clients k := Function.update_of_ne h ..

@[simp] theorem servers_setServer_self (w : Network n m) (j : Fin m) (s : Server) :
    (w.setServer j s).servers j = s := Function.update_self ..

theorem servers_setServer_of_ne {j k : Fin m} (h : k ≠ j) (w : Network n m) (s : Server) :
    (w.setServer j s).servers k = w.servers k := Function.update_of_ne h ..

@[simp] theorem clients_deliver (w : Network n m) (qs : List Packet) :
    (w.deliver qs).clients = w.clients := rfl

@[simp] theorem servers_deliver (w : Network n m) (qs : List Packet) :
    (w.deliver qs).servers = w.servers := rfl

/-- A step is one of a client or one of a server. -/
theorem step_cases {e : NetworkEvent n m} (he : w.enabled A p e = true)
    (hs : w.step A e = some w') :
    (∃ i e' c, e = .client i e' ∧ (w.clients i).enabled e' = true ∧
      (w.clients i).step e' = some c ∧ w' = (w.setClient i c).deliver (arrivals A e)) ∨
    ∃ j e' s, e = .server j e' ∧ (w.servers j).enabled p e' = true ∧
      (w.servers j).step e' = some s ∧ w' = (w.setServer j s).deliver (arrivals A e) := by
  obtain ⟨v, hv, rfl⟩ := Option.map_eq_some_iff.mp hs
  have hen := (Bool.and_eq_true_iff.mp he).1
  cases e with
  | client i e =>
      obtain ⟨c, hc, rfl⟩ := Option.map_eq_some_iff.mp hv
      exact .inl ⟨i, e, c, rfl, hen, hc, rfl⟩
  | server j e =>
      obtain ⟨s, hst, rfl⟩ := Option.map_eq_some_iff.mp hv
      exact .inr ⟨j, e, s, rfl, hen, hst, rfl⟩

theorem mem_packets {q : Packet} : q ∈ w.packets A ↔
    (∃ i, ∃ c ∈ (w.clients i).sendCalls.zipIdx, c.1.opened = true ∧
      q = ⟨A.client i, c.1.dest, A.reads i c.2⟩) ∨
      ∃ j payload dest, .asyncSendTo payload dest ∈ (w.servers j).actions ∧
        q = ⟨A.server j, dest, payload⟩ := by
  rw [packets, List.mem_append, List.mem_flatMap, List.mem_flatMap]
  refine or_congr (exists_congr fun i ↦ ?_) (exists_congr fun j ↦ ?_)
  · rw [Client.packets]
    simp only [List.mem_finRange, true_and, List.mem_map, List.mem_filter, and_assoc]
    exact exists_congr fun c ↦ by rw [@eq_comm _ _ q]
  · rw [Server.packets, List.mem_filterMap, and_iff_right (List.mem_finRange j)]
    constructor
    · rintro ⟨a, ha, hq⟩
      cases a with
      | asyncSendTo payload dest =>
          cases hq
          exact ⟨payload, dest, ha, rfl⟩
      | asyncReceiveFrom => cases hq
      | handleReceiveFrom received => cases hq
      | handleSendTo error => cases hq
    · rintro ⟨payload, dest, ha, rfl⟩
      exact ⟨_, ha, rfl⟩

theorem mem_arrived {dest : Endpoint} {ds : List (Nat × Datagram)} {a : Nat × Datagram}
    (ha : a ∈ ds) : ⟨a.2.source, dest, a.2.bytes⟩ ∈ arrived dest ds :=
  List.mem_map_of_mem ha

/-- Nothing arrives that has not been sent. -/
theorem mem_packets_of_arrivals {e : NetworkEvent n m} (he : w.enabled A p e = true) {q : Packet}
    (hq : q ∈ arrivals A e) : q ∈ w.packets A :=
  of_decide_eq_true (List.all_eq_true.mp (Bool.and_eq_true_iff.mp he).2 q hq)

/-- Of every buffer that a client has given to its open socket, Asio reads what it
held at the call. -/
def ReadAtCall (A : Setting n m) (w : Network n m) : Prop :=
  ∀ i, ∀ c ∈ (w.clients i).sendCalls.zipIdx, c.1.opened = true → A.reads i c.2 = c.1.payload

instance (A : Setting n m) (w : Network n m) : Decidable (w.ReadAtCall A) :=
  inferInstanceAs (Decidable (∀ i, ∀ c ∈ (w.clients i).sendCalls.zipIdx,
    c.1.opened = true → A.reads i c.2 = c.1.payload))

/-! ## The invariant -/

/-- The datagram has been sent to `dest`. -/
def Sent (A : Setting n m) (w : Network n m) (dest : Endpoint) (d : Datagram) : Prop :=
  ⟨d.source, dest, d.bytes⟩ ∈ w.packets A

/-- The datagram is a message that was posted at the client it comes from, and
server `j` is the server of this client. -/
def FromClient (A : Setting n m) (w : Network n m) (j : Fin m) (d : Datagram) : Prop :=
  ∃ i, A.home i = j ∧ d.source = A.client i ∧ ∃ msg ∈ (w.clients i).posts, msg.payload = d.bytes

/-- A client sends what was posted, to its server, and has heard what was sent
to it. -/
structure ClientOk (A : Setting n m) (w : Network n m) (i : Fin n) : Prop where
  posted : (w.clients i).outbox.Posted
  sendsTo : (w.clients i).SendsTo (A.server (A.home i))
  heard : (w.clients i).Heard (w.Sent A (A.client i))

/-- A server answers, and what it has heard are messages of its clients. -/
structure ServerOk (A : Setting n m) (ok : Datagram → List UInt8 → Bool) (w : Network n m)
    (j : Fin m) : Prop where
  serving : ∃ op, (w.servers j).Serving ok op
  heard : (w.servers j).Heard (w.FromClient A j)

/-- All clients and servers do what they should. -/
structure Closed (A : Setting n m) (ok : Datagram → List UInt8 → Bool) (w : Network n m) :
    Prop where
  clients : ∀ i, ClientOk A w i
  servers : ∀ j, ServerOk A ok w j

variable {ok : Datagram → List UInt8 → Bool}

theorem closed_init (h : (system A p).init w) : Closed A ok w := by
  obtain ⟨hclients, hservers, -⟩ := h
  refine ⟨fun i ↦ ?_, fun j ↦ ?_⟩
  · obtain ⟨uninit, hi⟩ := hclients i
    refine ⟨?_, ?_, ?_⟩ <;> rw [hi]
    · exact ⟨nofun, nofun, nofun⟩
    · exact Client.sendsTo_udpClient uninit
    · exact Client.heard_udpClient uninit
  · obtain ⟨uninit, hj⟩ := hservers j
    refine ⟨⟨.receive none, ?_⟩, ?_⟩ <;> rw [hj]
    · exact Server.serving_udpServer uninit
    · exact Server.heard_udpServer uninit

/-- What a server has sent answers what one of its clients has posted. -/
theorem Closed.asyncSendTo (h : Closed A ok w) {j : Fin m} {payload : List UInt8} {dest : Endpoint}
    (ha : .asyncSendTo payload dest ∈ (w.servers j).actions) :
    ∃ i, A.home i = j ∧ dest = A.client i ∧
      ∃ msg ∈ (w.clients i).posts, ok ⟨A.client i, msg.payload⟩ payload = true := by
  obtain ⟨op, hserving⟩ := (h.servers j).serving
  obtain ⟨d, hd, hdest, hok⟩ := (Phase.answers_after hserving.after).2.2 payload dest ha
  obtain ⟨i, hhome, hi, msg, hmsg, hpayload⟩ := (h.servers j).heard.received d hd
  refine ⟨i, hhome, hdest.trans hi, msg, hmsg, ?_⟩
  rw [← hi, hpayload]
  exact hok

/-- What arrives at a server comes from one of its clients. -/
theorem Closed.sent_server (h : Closed A ok w) (hread : w.ReadAtCall A) {j : Fin m} {d : Datagram}
    (hd : w.Sent A (A.server j) d) : w.FromClient A j d := by
  rcases mem_packets.mp hd with ⟨i, c, hc, hopened, hq⟩ | ⟨k, payload, dest, ha, hq⟩
  · obtain ⟨hsource, hdest, hbytes⟩ := Packet.mk.inj hq
    have hcall := List.fst_mem_of_mem_zipIdx hc
    obtain ⟨msg, hmsg, hpayload⟩ :=
      (h.clients i).posted.started c.1.payload (List.mem_map_of_mem hcall)
    have hhome : j = A.home i :=
      A.server_injective (hdest.trans ((h.clients i).sendsTo.sent c.1 hcall))
    have hbytes' := hbytes.trans (hread i c hc hopened)
    exact ⟨i, hhome.symm, hsource, msg, hmsg, hpayload.trans hbytes'.symm⟩
  · -- the servers send to clients only
    obtain ⟨-, hdest, -⟩ := Packet.mk.inj hq
    obtain ⟨i, -, hi, -⟩ := h.asyncSendTo ha
    exact absurd (hdest.trans hi).symm (A.client_ne_server i j)

/-- What arrives at a client is an answer of its server to a message of its own. -/
theorem Closed.sent_client (h : Closed A ok w) {i : Fin n} {d : Datagram}
    (hd : w.Sent A (A.client i) d) : d.source = A.server (A.home i) ∧
      ∃ msg ∈ (w.clients i).posts, ok ⟨A.client i, msg.payload⟩ d.bytes = true := by
  rcases mem_packets.mp hd with ⟨k, c, hc, -, hq⟩ | ⟨j, payload, dest, ha, hq⟩
  · -- the clients send to servers only
    obtain ⟨-, hdest, -⟩ := Packet.mk.inj hq
    have hserver := (h.clients k).sendsTo.sent c.1 (List.fst_mem_of_mem_zipIdx hc)
    exact absurd (hdest.trans hserver) (A.client_ne_server i _)
  · obtain ⟨hsource, hdest, hbytes⟩ := Packet.mk.inj hq
    obtain ⟨k, hhome, hk, msg, hmsg, hok⟩ := h.asyncSendTo ha
    obtain rfl : i = k := A.client_injective (hdest.trans hk)
    exact ⟨hhome ▸ hsource, msg, hmsg, hbytes ▸ hok⟩

/-! ## The steps -/

/-- The histories of the second network go on from those of the first. -/
structure Grows (w w' : Network n m) : Prop where
  sendCalls : ∀ i, (w.clients i).sendCalls <+: (w'.clients i).sendCalls
  posts : ∀ i, (w.clients i).posts <+: (w'.clients i).posts
  actions : ∀ j, (w.servers j).actions <+: (w'.servers j).actions

theorem mem_zipIdx_of_prefix {cs cs' : List SendCall} (h : cs <+: cs') {c : SendCall × Nat}
    (hc : c ∈ cs.zipIdx) : c ∈ cs'.zipIdx := by
  obtain ⟨rest, rfl⟩ := h
  rw [List.zipIdx_append]
  exact List.mem_append_left _ hc

theorem Grows.packets (h : w.Grows w') {q : Packet} (hq : q ∈ w.packets A) : q ∈ w'.packets A := by
  rw [mem_packets] at hq ⊢
  rcases hq with ⟨i, c, hc, hq⟩ | ⟨j, payload, dest, ha, hq⟩
  · exact .inl ⟨i, c, mem_zipIdx_of_prefix (h.sendCalls i) hc, hq⟩
  · exact .inr ⟨j, payload, dest, (h.actions j).subset ha, hq⟩

theorem Grows.sent (h : w.Grows w') {dest : Endpoint} {d : Datagram} (hd : w.Sent A dest d) :
    w'.Sent A dest d := h.packets hd

theorem Grows.fromClient (h : w.Grows w') {j : Fin m} {d : Datagram} (hd : w.FromClient A j d) :
    w'.FromClient A j d := by
  obtain ⟨i, hhome, hi, msg, hmsg, hpayload⟩ := hd
  exact ⟨i, hhome, hi, msg, (h.posts i).subset hmsg, hpayload⟩

theorem grows_setClient {i : Fin n} {e : ClientEvent} {c : Client}
    (hs : (w.clients i).step e = some c) (qs : List Packet) :
    w.Grows ((w.setClient i c).deliver qs) where
  sendCalls := (Function.forall_update_iff w.clients fun k c ↦
    (w.clients k).sendCalls <+: c.sendCalls).mpr
      ⟨Client.sendCalls_prefix hs, fun _ _ ↦ List.prefix_rfl⟩
  posts := (Function.forall_update_iff w.clients fun k c ↦ (w.clients k).posts <+: c.posts).mpr
    ⟨Outbox.posts_prefix (Client.step_outbox hs), fun _ _ ↦ List.prefix_rfl⟩
  actions _ := List.prefix_rfl

theorem grows_setServer {j : Fin m} {op : Operation} (hp : (w.servers j).pending = [op])
    {e : ServerEvent} {s : Server} (he : (w.servers j).enabled p e = true)
    (hs : (w.servers j).step e = some s) (qs : List Packet) :
    w.Grows ((w.setServer j s).deliver qs) where
  sendCalls _ := List.prefix_rfl
  posts _ := List.prefix_rfl
  actions := (Function.forall_update_iff w.servers fun k s ↦
    (w.servers k).actions <+: s.actions).mpr
      ⟨Server.actions_prefix hp he hs, fun _ _ ↦ List.prefix_rfl⟩

/-- A client that takes no part in a step. -/
theorem ClientOk.mono {i : Fin n} (h : ClientOk A w i) (hg : w.Grows w')
    (hi : w'.clients i = w.clients i) : ClientOk A w' i where
  posted := hi ▸ h.posted
  sendsTo := hi ▸ h.sendsTo
  heard := by
    rw [hi]
    exact h.heard.mono fun d hd ↦ hg.sent hd

/-- A server that takes no part in a step. -/
theorem ServerOk.mono {j : Fin m} (h : ServerOk A ok w j) (hg : w.Grows w')
    (hj : w'.servers j = w.servers j) : ServerOk A ok w' j where
  serving := hj ▸ h.serving
  heard := by
    rw [hj]
    exact h.heard.mono fun d hd ↦ hg.fromClient hd

theorem Closed.setClient (h : Closed A ok w) {i : Fin n} {e : ClientEvent} {c : Client}
    (hs : (w.clients i).step e = some c) (ha : ∀ a ∈ e.arrivals, w.Sent A (A.client i) a.2)
    (qs : List Packet) : Closed A ok ((w.setClient i c).deliver qs) := by
  have hg := grows_setClient hs qs
  refine ⟨fun k ↦ ?_, fun j ↦ (h.servers j).mono hg rfl⟩
  by_cases hk : k = i
  · subst hk
    have hc := h.clients k
    refine ⟨?_, ?_, ?_⟩ <;> rw [clients_deliver, clients_setClient_self]
    · exact hc.posted.step (Client.step_outbox hs)
    · exact hc.sendsTo.step (fun a hmem ↦ (h.sent_client (ha a hmem)).1) hs
    · exact (hc.heard.step hs ha).mono fun d hd ↦ hg.sent hd
  · exact (h.clients k).mono hg (clients_setClient_of_ne hk w c)

theorem Closed.setServer (h : Closed A ok w) (hread : w.ReadAtCall A) {j : Fin m}
    {e : ServerEvent} {s : Server}
    (he : (w.servers j).enabled p e = true) (hk : Server.Keeps ok e)
    (hs : (w.servers j).step e = some s) (ha : ∀ a ∈ e.arrivals, w.Sent A (A.server j) a.2)
    (qs : List Packet) : Closed A ok ((w.setServer j s).deliver qs) := by
  obtain ⟨op, hserving⟩ := (h.servers j).serving
  have hg := grows_setServer hserving.pending he hs qs
  refine ⟨fun i ↦ (h.clients i).mono hg rfl, fun k ↦ ?_⟩
  by_cases hkj : k = j
  · subst hkj
    refine ⟨?_, ?_⟩ <;> rw [servers_deliver, servers_setServer_self]
    · exact hserving.step he hk hs
    · have harrivals := fun a hmem ↦ h.sent_server hread (ha a hmem)
      exact ((h.servers k).heard.step hserving.pending he hs harrivals).mono
        fun d hd ↦ hg.fromClient hd
  · exact (h.servers k).mono hg (servers_setServer_of_ne hkj w s)

/-- The servers leave answers of the kind `ok` in their buffers. -/
def KeepsAnswers (ok : Datagram → List UInt8 → Bool) : NetworkEvent n m → Prop
  | .client _ _ => True
  | .server _ e => Server.Keeps ok e

/-- **The invariant step.** -/
theorem Closed.step (h : Closed A ok w) (hread : w.ReadAtCall A) {e : NetworkEvent n m}
    (he : w.enabled A p e = true) (hk : KeepsAnswers ok e) (hs : w.step A e = some w') :
    Closed A ok w' := by
  rcases step_cases he hs with ⟨i, e, c, rfl, -, hst, rfl⟩ | ⟨j, e, s, rfl, hen, hst, rfl⟩
  · exact h.setClient hst (fun a ha ↦ mem_packets_of_arrivals he (mem_arrived ha)) _
  · exact h.setServer hread hen hk hst
      (fun a ha ↦ mem_packets_of_arrivals he (mem_arrived ha)) _

/-- What has been read as it was at the call, had been in the state before. -/
theorem ReadAtCall.before (hread : w'.ReadAtCall A) {e : NetworkEvent n m}
    (he : w.enabled A p e = true) (hs : w.step A e = some w') : w.ReadAtCall A := by
  intro i c hc
  refine hread i c ?_
  rcases step_cases he hs with ⟨k, e, c', rfl, -, hst, rfl⟩ | ⟨j, e, s, rfl, -, -, rfl⟩
  · exact mem_zipIdx_of_prefix ((grows_setClient hst _).sendCalls i) hc
  · exact hc

/-- All on one machine. -/
def twoClients : Addresses 2 1 where
  client i := ⟨0x7f000001, 4000 + BitVec.ofNat 16 i⟩
  server _ := ⟨0x7f000001, 8886⟩
  home _ := 0
  client_injective := by decide
  server_injective := by decide
  client_ne_server := by decide

/-- The first client sends an A, the second one a B. -/
def twoLetters : Setting 2 1 where
  toAddresses := twoClients
  reads i _ := (Client.headerOnly (if i = 0 then 65 else 66)).payload

def freshNetwork : Network 2 1 where
  clients _ := .udpClient (twoClients.server 0) (Buffer.fill _ 0)
  servers _ := .udpServer (Buffer.fill _ 0)
  delivered := []

/-- A run can start with a fresh network, whatever its guard. -/
theorem freshNetwork_reachable {G : Network 2 1 → NetworkEvent 2 1 → Prop} :
    (system twoLetters p).Reachable G freshNetwork :=
  .init ⟨fun _ ↦ ⟨_, rfl⟩, fun _ ↦ ⟨_, rfl⟩, rfl⟩

/-- A message is posted at client `i` and sent. -/
def posted (i : Fin 2) (c : UInt8) : List (NetworkEvent 2 1) :=
  [.client i (.sendMessage (Client.headerOnly c)), .client i .doWrite,
    .client i (.sendDone 0 false [])]

/-- What client `i` has sent, as it arrives. -/
def sentBy (i : Fin 2) (c : UInt8) : Datagram :=
  ⟨twoClients.client i, (Client.headerOnly c).payload⟩

/-! ## Whose answers arrive -/

/-- An answer of exactly the bytes that were received. -/
def sameReceived (d : Datagram) (payload : List UInt8) : Bool := payload = d.received

/-- Nothing but zeros is stored in front of the `memset` of a server, and nothing
over a reply that waits for its handler, unless the two agree. -/
def Careful (w : Network n m) : NetworkEvent n m → Prop
  | .client i e => Undisturbed (w.clients i) e
  | .server j e => Unharmed (w.servers j) e

theorem keeps_of_unharmed {s : Server} {e : ServerEvent} (hu : Unharmed s e) :
    Server.Keeps sameReceived e := by
  cases e with
  | arrive i d => exact decide_eq_true rfl
  | receiveDone i error => trivial
  | sendDone i error during =>
      refine fun a ha ↦ decide_eq_true (List.eq_replicate_iff.mpr ⟨rfl, fun b hb ↦ ?_⟩).symm
      exact hu rfl a ha b (List.mem_of_mem_take hb)

/-- What waits at a client is in front of its buffer, and what it has shown was
sent to it. -/
structure Shows (A : Setting n m) (w : Network n m) : Prop where
  closed : Closed A sameReceived w
  intact : ∀ i, (w.clients i).Intact
  shown : ∀ i, (w.clients i).Shown (w.Sent A (A.client i))

theorem shows_init (h : (system A p).init w) : Shows A w := by
  refine ⟨closed_init h, fun i ↦ ?_, fun i ↦ ?_⟩
  all_goals
    obtain ⟨uninit, hi⟩ := h.1 i
    rw [hi]
  · rintro d ⟨r, hr, -⟩
    cases hr
  · exact nofun

theorem Shows.step (h : Shows A w) (hread : w.ReadAtCall A) {e : NetworkEvent n m}
    (he : w.enabled A p e = true) (hc : w.Careful e) (hs : w.step A e = some w') : Shows A w' := by
  have hkeeps : KeepsAnswers sameReceived e := by
    cases e with
    | client i e => trivial
    | server j e => exact keeps_of_unharmed (s := w.servers j) hc
  have hclosed := h.closed.step hread he hkeeps hs
  rcases step_cases he hs with ⟨i, e, c, rfl, hen, hst, rfl⟩ | ⟨j, e, s, rfl, hen, hst, rfl⟩
  · have hg := grows_setClient hst (arrivals A (.client i e))
    have hintact := (Client.step_intact_iff (h.intact i) hst).mpr hc
    have hshown := (h.shown i).step (h.closed.clients i).heard (h.intact i) hen hst
    refine ⟨hclosed, (Function.forall_update_iff w.clients fun _ c ↦ c.Intact).mpr
      ⟨hintact, fun k _ ↦ h.intact k⟩, fun k ↦ ?_⟩
    refine Client.Shown.mono ?_ fun d hd ↦ hg.sent hd
    exact (Function.forall_update_iff w.clients fun k c ↦ c.Shown (w.Sent A (A.client k))).mpr
      ⟨hshown, fun k _ ↦ h.shown k⟩ k
  · obtain ⟨op, hserving⟩ := (h.closed.servers j).serving
    have hg := grows_setServer hserving.pending hen hst (arrivals A (.server j e))
    exact ⟨hclosed, h.intact, fun k ↦ (h.shown k).mono fun d hd ↦ hg.sent hd⟩

theorem shows_of_careful (h : (system A p).Reachable Careful w) (hread : w.ReadAtCall A) :
    Shows A w := by
  induction h with
  | init hi => exact shows_init hi
  | step _ he hc hs ih =>
      have hread' := hread.before he hs
      exact (ih hread').step hread' he hc hs

/-- **Every client shows its own messages.**  In the runs in which no datagram is
lost in one of the buffers, and what the clients send is read as it was at the call,
every reply that a client shows is a message that was
posted at this client, as much of it as the server's buffer can hold. -/
theorem shows_own_messages (h : (system A p).Reachable Careful w) (hread : w.ReadAtCall A)
    (i : Fin n) (str : List UInt8) (hstr : .recvData str ∈ (w.clients i).console) :
    ∃ msg ∈ (w.clients i).posts, str = showStr (msg.payload.take UdpServer.maxLength) := by
  have hshows := shows_of_careful h hread
  obtain ⟨d, hd, rfl⟩ := hshows.shown i str hstr
  obtain ⟨-, msg, hmsg, hok⟩ := hshows.closed.sent_client hd
  exact ⟨msg, hmsg, congrArg showStr (of_decide_eq_true hok)⟩

/-- A test for careful events. -/
def carefulTest (w : Network n m) : NetworkEvent n m → Bool
  | .client i e => Client.undisturbedTest (w.clients i) e
  | .server _ e => !e.beforeClear || e.arrivals.isEmpty

theorem careful_of_test (w : Network n m) (e : NetworkEvent n m) (h : carefulTest w e = true) :
    w.Careful e := by
  cases e with
  | client i e => exact Client.undisturbed_of_test _ e h
  | server j e =>
      intro hb a ha
      have hnil : e.arrivals = [] := by simpa [carefulTest, hb] using h
      rw [hnil] at ha
      cases ha

/-- Both clients post a message, and the second one gets its reply. -/
def careful : List (NetworkEvent 2 1) :=
  posted 0 65 ++ posted 1 66 ++
    [.server 0 (.arrive 0 (sentBy 1 66)), .server 0 (.receiveDone 0 false),
      .client 1 (.arrive 0 ⟨twoClients.server 0, (Client.headerOnly 66).payload⟩),
      .client 1 (.receiveDone 0 false)]

theorem shows_own_messages_careful : ∃ w : Network 2 1,
    .recvData (showStr (Client.headerOnly 66).payload) ∈ (w.clients 1).console ∧
      ∃ msg ∈ (w.clients 1).posts, showStr (Client.headerOnly 66).payload =
        showStr (msg.payload.take UdpServer.maxLength) := by
  obtain ⟨w, hw, hr, hread⟩ : ∃ w, (system twoLetters .truncate).Reachable Careful w ∧
      .recvData (showStr (Client.headerOnly 66).payload) ∈ (w.clients 1).console ∧
        w.ReadAtCall twoLetters :=
    System.reachable_of_exec careful_of_test freshNetwork_reachable careful (by decide)
  exact ⟨w, hr, shows_own_messages hw hread 1 _ hr⟩

end Network

end CppExamples.AsyncUdp
