import CppExamples.AsyncUdp.Network
import CppExamples.Radio.DaytimeServer
import CppExamples.Radio.Malformed

/-!
# The protobuf clients and servers on one network

`udp_boost_protobuf_client.cpp` and `boost_protobuf_server.cpp`, any number of
each, once their sockets are open.  A client sends one byte to its server, waits
for one datagram, parses its whole buffer, and prints the phones.

Two things that go wrong in one program meet here.  The list that a server makes
up takes at most half of the buffer of a client, so that every client parses bytes
that nobody has sent to it.  It shows the two phones of the list first, and
behind them whatever looks like a phone (`phones_shown`).

## What is assumed of the network

It may lose, delay, duplicate and reorder datagrams, but what arrives at a socket
has been sent to it.  A call may fail at any time.
-/

namespace CppExamples.Radio

open CppExamples.Lib CppExamples.AsyncUdp

namespace DaytimeServer

/-! ## The list of a server -/

theorem varintSize_of_lt {n : Nat} (h : n < 128) : Protobuf.varintSize n = 1 := by
  rw [Protobuf.varintSize, Protobuf.varint, Protobuf.varintIn]
  simp [h]

/-- A phone without its time, and the time. -/
theorem byteSizeLong_apply (c : AddCall) : (c.apply .empty).byteSizeLong =
    { c.apply .empty with created := none }.byteSizeLong +
      (1 + (Protobuf.varintSize (secondsToTimestamp c.now).byteSizeLong +
        (secondsToTimestamp c.now).byteSizeLong)) := by
  simp only [AddCall.apply, addPhoneData, Phone.byteSizeLong]
  omega

/-- The list is never as long as the buffer of a client. -/
theorem byteSizeLong_lt (now now' : Int) :
    (phoneListOf (addCalls now now')).byteSizeLong < 128 := by
  have hphone (c : AddCall) (h : { c.apply .empty with created := none }.byteSizeLong ≤ 18) :
      (c.apply .empty).byteSizeLong ≤ 31 := by
    have ht := byteSizeLong_secondsToTimestamp_le c.now
    rw [byteSizeLong_apply, varintSize_of_lt (Nat.lt_of_le_of_lt ht (by decide))]
    omega
  obtain ⟨c, c', hcalls, hlist, hc, hc'⟩ : ∃ c c' : AddCall, addCalls now now' = [c, c'] ∧
      phoneListOf [c, c'] = ⟨[c.apply .empty, c'.apply .empty], []⟩ ∧
      { c.apply .empty with created := none }.byteSizeLong ≤ 18 ∧
      { c'.apply .empty with created := none }.byteSizeLong ≤ 18 :=
    ⟨_, _, rfl, rfl, Nat.le_of_ble_eq_true rfl, Nat.le_of_ble_eq_true rfl⟩
  have h := hphone c hc
  have h' := hphone c' hc'
  rw [hcalls, hlist]
  simp only [PhoneList.byteSizeLong, List.map_cons, List.map_nil, List.sum_cons, List.sum_nil,
    List.length_cons, List.length_nil, Protobuf.serializeUnknownFields,
    varintSize_of_lt (Nat.lt_of_le_of_lt h (by decide)),
    varintSize_of_lt (Nat.lt_of_le_of_lt h' (by decide))]
  omega

/-- The list that is filled in in a pass. -/
def Round.phoneList (r : Round) : PhoneList := phoneListOf (addCalls r.now r.now')

theorem Round.sendable (r : Round) : r.phoneList.Sendable where
  toPlain := plain_phoneListOf _
  names p hp := by
    have hphones : r.phoneList.phones = (addCalls r.now r.now').map (·.apply .empty) := rfl
    rw [hphones] at hp
    obtain ⟨c, hc, rfl⟩ := List.mem_map.mp hp
    simp only [addCalls, List.mem_cons, List.not_mem_nil, or_false] at hc
    rcases hc with rfl | rfl <;> rfl
  size := by
    rw [PhoneList.length_internalSerialize]
    exact (byteSizeLong_lt r.now r.now').le

end DaytimeServer

/-! ## What a client shows of a list -/

variable {l : PhoneList}

/-- What the client shows comes from the list, and from the bytes behind it. -/
theorem phones_receivePhoneList (h : l.Sendable) (recvBuf : Buffer recvBufSize) :
    l.phones <+: (receivePhoneList recvBuf l.internalSerialize).1.phones ∧
      ((receivePhoneList recvBuf l.internalSerialize).1.phones = l.phones ↔
        ¬ PhoneList.StartsPhone PhoneList.recursionLimit
          (recvBuf.bytes.drop l.internalSerialize.length)) := by
  rw [receivePhoneList_eq h]
  exact ⟨PhoneList.prefix_parse, PhoneList.parse_phones_iff⟩

theorem clientPhoneLines_ne_nil (p : Phone) : clientPhoneLines p ≠ [] := by
  simp [clientPhoneLines]

/-- More phones are more lines. -/
theorem flatMap_clientPhoneLines_eq {ps qs : List Phone} (h : ps <+: qs) :
    qs.flatMap clientPhoneLines = ps.flatMap clientPhoneLines ↔ qs = ps := by
  obtain ⟨rest, rfl⟩ := h
  rw [List.flatMap_append, List.append_right_eq_self, List.append_right_eq_self,
    List.flatMap_eq_nil_iff]
  constructor
  · intro hnil
    cases rest with
    | nil => rfl
    | cons p rest => exact absurd (hnil p (List.mem_cons_self ..)) (clientPhoneLines_ne_nil p)
  · rintro rfl p hp
    cases hp

/-- The client never ends up with the list itself, if that is shorter than its
buffer. -/
theorem receivePhoneList_ne (h : l.Sendable) (recvBuf : Buffer recvBufSize)
    (hlt : l.internalSerialize.length < recvBufSize) :
    receivePhoneList recvBuf l.internalSerialize ≠ (l, true) := by
  have hne : recvBuf.bytes.drop l.internalSerialize.length ≠ [] :=
    fun hnil ↦ Nat.ne_of_lt hlt ((drop_eq_nil_iff h recvBuf).mp hnil)
  rw [receivePhoneList_eq h]
  intro heq
  rw [Prod.mk.injEq, decide_eq_true_iff] at heq
  exact PhoneList.parse_ne_self hne (Prod.ext heq.1 heq.2)

/-! ## The programs -/

namespace PhoneService

inductive ClientState where
  | sendTo
  | receiveFrom
  | returned
deriving DecidableEq

structure Client where
  state : ClientState
  console : List PhoneLine
  /-- The error of the exception that has been caught, if there was one. -/
  caught : Option Nat

/-- What the client sends. -/
def sendBuf : List UInt8 := [0]

namespace Client

def catchException (c : Client) (error : Nat) : Client :=
  { c with state := .returned, caught := some error }

/-- The `send_to` of the client, with its error, if there is one. -/
def sendTo (c : Client) : Option Nat → Client
  | some error => c.catchException error
  | none => { c with state := .receiveFrom }

/-- The `receive_from` of the client, and what it does then. -/
def receiveFrom (p : Oversize) (recvBuf : Buffer recvBufSize) (c : Client) : Arrival → Client
  | .failure error => c.catchException error
  | .datagram d =>
      if d.bytes.length ≤ recvBufSize ∨ p = .truncate then
        { c with state := .returned, console := c.console ++ clientMain recvBuf d.bytes }
      else c.catchException DaytimeServer.messageSize

end Client

/-- A server: the passes of its loop, and what they have come to. -/
structure Server where
  rounds : List DaytimeServer.Round
  pass : Pass (List SendTo) DaytimeServer.Exit

namespace Server

/-- The server is in `receive_from`. -/
def waits (s : Server) : Bool := match s.pass with
  | .again _ => true
  | .left _ _ => false

/-- One more pass. -/
def serve (p : Oversize) (s : Server) (r : DaytimeServer.Round) : Option Server :=
  match s.pass with
  | .again sends => (DaytimeServer.body p sends r).map fun pass ↦ ⟨s.rounds ++ [r], pass⟩
  | .left _ _ => none

/-- The calls of `send_to`. -/
def sends (s : Server) : List SendTo := s.pass.state

end Server

end PhoneService

/-- Clients and servers, and all that has been sent. -/
structure PhoneService (n m : Nat) where
  clients : Fin n → PhoneService.Client
  servers : Fin m → PhoneService.Server
  sent : List Packet

namespace PhoneService

inductive Event (n m : Nat) where
  | sendTo (i : Fin n) (error : Option Nat)
  | receiveFrom (i : Fin n) (a : Arrival)
  | /-- A pass of a server. -/
    serve (j : Fin m) (r : DaytimeServer.Round)

variable {n m : Nat} (A : Addresses n m) (p : Oversize) (recvBufs : Fin n → Buffer recvBufSize)

def setClient (w : PhoneService n m) (i : Fin n) (c : Client) : PhoneService n m :=
  { w with clients := Function.update w.clients i c }

def setServer (w : PhoneService n m) (j : Fin m) (s : Server) : PhoneService n m :=
  { w with servers := Function.update w.servers j s }

def send (w : PhoneService n m) (qs : List Packet) : PhoneService n m :=
  { w with sent := w.sent ++ qs }

/-- What the receive meets with can arrive at `dest`. -/
def delivers (w : PhoneService n m) (dest : Endpoint) : Arrival → Bool
  | .datagram d => ⟨d.source, dest, d.bytes⟩ ∈ w.sent
  | .failure _ => true

def enabled (w : PhoneService n m) : Event n m → Bool
  | .sendTo i _ => (w.clients i).state = .sendTo
  | .receiveFrom i a => (w.clients i).state = .receiveFrom && w.delivers (A.client i) a
  | .serve j r => (w.servers j).waits && w.delivers (A.server j) r.arrival

/-- The packets of a call of `send_to`, which may have failed. -/
def packets (source : Endpoint) (error : Option Nat) (sends : List SendTo) : List Packet :=
  if error = none then sends.map fun s ↦ ⟨source, s.dest, s.payload⟩ else []

def step (w : PhoneService n m) : Event n m → Option (PhoneService n m)
  | .sendTo i error => some <| (w.setClient i ((w.clients i).sendTo error)).send
      (packets (A.client i) error [⟨A.server (A.home i), sendBuf⟩])
  | .receiveFrom i a =>
      some (w.setClient i ((w.clients i).receiveFrom p (recvBufs i) a))
  | .serve j r => ((w.servers j).serve p r).map fun s ↦ (w.setServer j s).send
      (packets (A.server j) r.sendError (s.sends.drop (w.servers j).sends.length))

def start : PhoneService n m := ⟨fun _ ↦ ⟨.sendTo, [], none⟩, fun _ ↦ ⟨[], .again []⟩, []⟩

/-- The runs of the clients and servers; `recvBufs` is what the buffers of the
clients happen to hold. -/
def system : System (PhoneService n m) (Event n m) where
  init w := w = start
  enabled := enabled A
  step := step A p recvBufs

variable {A p recvBufs} {w w' : PhoneService n m} {i : Fin n} {j : Fin m}

@[simp] theorem servers_setServer_self (s : Server) : (w.setServer j s).servers j = s :=
  Function.update_self ..

/-- A packet is one of those that have been sent. -/
theorem mem_packets {source : Endpoint} {error : Option Nat} {sends : List SendTo} {q : Packet}
    (h : q ∈ packets source error sends) : ∃ s ∈ sends, q = ⟨source, s.dest, s.payload⟩ := by
  rw [packets] at h
  split at h
  · obtain ⟨s, hs, rfl⟩ := List.mem_map.mp h
    exact ⟨s, hs, rfl⟩
  · cases h

/-! ## Requests and replies -/

/-- The request of a client, as it arrives at its server. -/
def request (A : Addresses n m) (i : Fin n) : Datagram := ⟨A.client i, sendBuf⟩

/-- The byte of a client fits the buffer of a server. -/
theorem receiveFrom_request (i : Fin n) :
    DaytimeServer.receiveFrom p (.datagram (request A i)) = .ok (request A i) := by
  rw [DaytimeServer.receiveFrom, if_pos (.inl (Nat.le_refl 1))]

/-- A pass for the request of a client. -/
def Answers (A : Addresses n m) (w : PhoneService n m) (i : Fin n) (r : DaytimeServer.Round) :
    Prop := r ∈ (w.servers (A.home i)).rounds ∧ r.arrival = .datagram (request A i)

/-- A request of a client to its server, or a reply to one. -/
def Sent (A : Addresses n m) (w : PhoneService n m) (q : Packet) : Prop :=
  ∃ i, q = ⟨A.client i, A.server (A.home i), sendBuf⟩ ∨
    ∃ r, w.Answers A i r ∧ q = ⟨A.server (A.home i), A.client i, r.phoneList.internalSerialize⟩

/-- The invariant of the programs and the network. -/
structure Serves (A : Addresses n m) (p : Oversize) (recvBufs : Fin n → Buffer recvBufSize)
    (w : PhoneService n m) : Prop where
  sent : ∀ q ∈ w.sent, w.Sent A q
  arrived : ∀ j, ∀ r ∈ (w.servers j).rounds, ∀ d, r.arrival = .datagram d →
    ∃ i, A.home i = j ∧ d = request A i
  runs : ∀ j, DaytimeServer.main p (w.servers j).rounds = some (w.servers j).pass
  fresh : ∀ i, (w.clients i).state ≠ .returned → (w.clients i).console = []
  shown : ∀ i, (w.clients i).state = .returned → (w.clients i).caught = none →
    ∃ r, w.Answers A i r ∧
      (w.clients i).console = clientMain (recvBufs i) r.phoneList.internalSerialize

theorem serves_start : Serves A p recvBufs (start : PhoneService n m) where
  sent q hq := by cases hq
  arrived j r hr := by cases hr
  runs j := rfl
  fresh i _ := rfl
  shown i h := by cases h

/-- What has been answered stays answered. -/
theorem Answers.mono {r : DaytimeServer.Round} (h : w.Answers A i r)
    (hw : ∀ j, (w.servers j).rounds <+: (w'.servers j).rounds) : w'.Answers A i r :=
  ⟨(hw _).subset h.1, h.2⟩

theorem Sent.mono {q : Packet} (h : w.Sent A q)
    (hw : ∀ j, (w.servers j).rounds <+: (w'.servers j).rounds) : w'.Sent A q := by
  obtain ⟨i, hq | ⟨r, hr, hq⟩⟩ := h
  · exact ⟨i, .inl hq⟩
  · exact ⟨i, .inr ⟨r, hr.mono hw, hq⟩⟩

/-- What arrives at a server is the request of a client of its own. -/
theorem Serves.request (h : w.Serves A p recvBufs) {d : Datagram}
    (hd : w.delivers (A.server j) (.datagram d) = true) :
    ∃ i, A.home i = j ∧ d = PhoneService.request A i := by
  obtain ⟨i, hq | ⟨r, -, hq⟩⟩ := h.sent _ (of_decide_eq_true hd)
  · rw [Packet.mk.injEq] at hq
    obtain ⟨hsource, hdest, hbytes⟩ := hq
    refine ⟨i, (A.server_injective hdest).symm, ?_⟩
    cases d
    cases hsource
    cases hbytes
    rfl
  · rw [Packet.mk.injEq] at hq
    exact absurd hq.2.1.symm (A.client_ne_server i j)

/-- What arrives at a client is the list of a pass for its request. -/
theorem Serves.reply (h : w.Serves A p recvBufs) {d : Datagram}
    (hd : w.delivers (A.client i) (.datagram d) = true) :
    ∃ r, w.Answers A i r ∧ d.bytes = r.phoneList.internalSerialize := by
  obtain ⟨k, hq | ⟨r, hr, hq⟩⟩ := h.sent _ (of_decide_eq_true hd)
  · rw [Packet.mk.injEq] at hq
    exact absurd hq.2.1 (A.client_ne_server i (A.home k))
  · rw [Packet.mk.injEq] at hq
    obtain ⟨-, hdest, hbytes⟩ := hq
    obtain rfl := A.client_injective hdest
    exact ⟨r, hr, hbytes⟩

/-! ## The steps -/

/-- A step of a client that sends `qs`. -/
theorem Serves.client (h : w.Serves A p recvBufs) {c : Client} {qs : List Packet}
    (hqs : ∀ q ∈ qs, q = ⟨A.client i, A.server (A.home i), sendBuf⟩)
    (hfresh : c.state ≠ .returned → c.console = [])
    (hshown : c.state = .returned → c.caught = none → ∃ r, w.Answers A i r ∧
      c.console = clientMain (recvBufs i) r.phoneList.internalSerialize) :
    ((w.setClient i c).send qs).Serves A p recvBufs where
  sent q hq := by
    rcases List.mem_append.mp hq with hq | hq
    · exact h.sent q hq
    · exact ⟨i, .inl (hqs q hq)⟩
  arrived := h.arrived
  runs := h.runs
  fresh := (Function.forall_update_iff w.clients fun _ c ↦
    c.state ≠ .returned → c.console = []).mpr ⟨hfresh, fun k _ ↦ h.fresh k⟩
  shown := (Function.forall_update_iff w.clients fun k c ↦
    c.state = .returned → c.caught = none → ∃ r, w.Answers A k r ∧
      c.console = clientMain (recvBufs k) r.phoneList.internalSerialize).mpr
    ⟨hshown, fun k _ ↦ h.shown k⟩

theorem Serves.sendTo (h : w.Serves A p recvBufs) (hs : (w.clients i).state = .sendTo)
    (error : Option Nat) : ((w.setClient i ((w.clients i).sendTo error)).send
      (packets (A.client i) error [⟨A.server (A.home i), sendBuf⟩])).Serves A p recvBufs := by
  refine h.client (fun q hq ↦ ?_) ?_ ?_
  · obtain ⟨s, hs, rfl⟩ := mem_packets hq
    rw [List.mem_singleton.mp hs]
  · cases error with
    | some error => exact fun hne ↦ absurd rfl hne
    | none => exact fun _ ↦ h.fresh i (by rw [hs]; rintro ⟨⟩)
  · cases error with
    | some error => rintro - ⟨⟩
    | none => rintro ⟨⟩

theorem Serves.receiveFrom (h : w.Serves A p recvBufs) (hs : (w.clients i).state = .receiveFrom)
    {a : Arrival} (ha : w.delivers (A.client i) a = true) :
    (w.setClient i ((w.clients i).receiveFrom p (recvBufs i) a)).Serves A p recvBufs := by
  have hclient {c : Client} (hstate : c.state = .returned)
      (hshown : c.caught = none → ∃ r, w.Answers A i r ∧
        c.console = clientMain (recvBufs i) r.phoneList.internalSerialize) :
      (w.setClient i c).Serves A p recvBufs := by
    have hnone : ∀ q ∈ ([] : List Packet), q = ⟨A.client i, A.server (A.home i), sendBuf⟩ := by
      rintro q ⟨⟩
    have hsent := h.client hnone (fun hne ↦ absurd hstate hne) fun _ ↦ hshown
    rwa [send, List.append_nil] at hsent
  cases a with
  | failure error => exact hclient rfl (by rintro ⟨⟩)
  | datagram d =>
      obtain ⟨r, hr, hbytes⟩ := h.reply ha
      rw [Client.receiveFrom, if_pos (.inl (hbytes ▸ r.sendable.size))]
      refine hclient rfl fun _ ↦ ⟨r, hr, ?_⟩
      change (w.clients i).console ++ clientMain (recvBufs i) d.bytes = _
      rw [h.fresh i (by rw [hs]; rintro ⟨⟩), List.nil_append, hbytes]

/-- A pass answers the request of a client, or it is the last one. -/
theorem Serves.serve_cases (h : w.Serves A p recvBufs) {r : DaytimeServer.Round}
    (hr : w.delivers (A.server j) r.arrival = true) {s : Server}
    (hs : (w.servers j).serve p r = some s) :
    ∃ sends, (w.servers j).pass = .again sends ∧ DaytimeServer.body p sends r = some s.pass ∧
      s.rounds = (w.servers j).rounds ++ [r] ∧
      ((∃ error, r.arrival = .failure error ∧ s.pass = .left sends (.threw error)) ∨
        ∃ i, A.home i = j ∧ r.arrival = .datagram (PhoneService.request A i) ∧
          s.pass = .again (sends ++ [⟨A.client i, r.phoneList.internalSerialize⟩])) := by
  rw [Server.serve] at hs
  split at hs
  · rename_i sends hsends
    obtain ⟨pass, hpass, rfl⟩ := Option.map_eq_some_iff.mp hs
    refine ⟨sends, hsends, hpass, rfl, ?_⟩
    cases ha : r.arrival with
    | failure error =>
        have hd : DaytimeServer.receiveFrom p r.arrival = .error error := by
          rw [ha, DaytimeServer.receiveFrom]
        rw [DaytimeServer.body_of_failed hd] at hpass
        cases hpass
        exact .inl ⟨error, rfl, rfl⟩
    | datagram d =>
        rw [ha] at hr
        obtain ⟨i, hi, rfl⟩ := h.request hr
        have hd : DaytimeServer.receiveFrom p r.arrival = .ok (PhoneService.request A i) := by
          rw [ha, receiveFrom_request]
        rw [DaytimeServer.body_of_received hd] at hpass
        cases hpass
        exact .inr ⟨i, hi, rfl, rfl⟩
  · cases hs

theorem Serves.serve (h : w.Serves A p recvBufs) {r : DaytimeServer.Round}
    (hr : w.delivers (A.server j) r.arrival = true) {s : Server}
    (hs : (w.servers j).serve p r = some s) :
    ((w.setServer j s).send (packets (A.server j) r.sendError
      (s.sends.drop (w.servers j).sends.length))).Serves A p recvBufs := by
  obtain ⟨sends, hsends, hbody, hrounds, hcase⟩ := h.serve_cases hr hs
  have hmono : ∀ k, (w.servers k).rounds <+: ((w.setServer j s).servers k).rounds :=
    (Function.forall_update_iff w.servers fun k s ↦ (w.servers k).rounds <+: s.rounds).mpr
      ⟨hrounds ▸ List.prefix_append _ _, fun _ _ ↦ List.prefix_rfl⟩
  refine ⟨fun q hq ↦ ?_, ?_, ?_, h.fresh, fun i hret hc ↦ ?_⟩
  · rcases List.mem_append.mp hq with hq | hq
    · exact (h.sent q hq).mono hmono
    · obtain ⟨c, hc, rfl⟩ := mem_packets hq
      rw [Server.sends, Server.sends, hsends] at hc
      rcases hcase with ⟨error, -, hleft⟩ | ⟨i, rfl, hi, hagain⟩
      · rw [hleft, Pass.state, Pass.state, List.drop_length] at hc
        cases hc
      · rw [hagain, Pass.state, Pass.state, List.drop_left, List.mem_singleton] at hc
        subst hc
        refine ⟨i, .inr ⟨r, ⟨?_, hi⟩, rfl⟩⟩
        change r ∈ ((w.setServer _ s).servers _).rounds
        rw [servers_setServer_self, hrounds]
        exact List.mem_append_right _ (List.mem_singleton_self r)
  · refine (Function.forall_update_iff w.servers fun j s ↦ ∀ r ∈ s.rounds, ∀ d,
      r.arrival = .datagram d → ∃ i, A.home i = j ∧ d = PhoneService.request A i).mpr
      ⟨fun r' hr' d hd ↦ ?_, fun k _ ↦ h.arrived k⟩
    rw [hrounds] at hr'
    rcases List.mem_append.mp hr' with hr' | hr'
    · exact h.arrived j r' hr' d hd
    · obtain rfl := List.mem_singleton.mp hr'
      rcases hcase with ⟨error, ha, -⟩ | ⟨i, hi, ha, -⟩
      · rw [ha] at hd
        cases hd
      · rw [ha] at hd
        cases hd
        exact ⟨i, hi, rfl⟩
  · refine (Function.forall_update_iff w.servers fun _ s ↦
      DaytimeServer.main p s.rounds = some s.pass).mpr ⟨?_, fun k _ ↦ h.runs k⟩
    have hloop := h.runs j
    rw [hsends] at hloop
    rw [hrounds, ← hbody]
    exact loop_concat hloop r
  · obtain ⟨r', hr', hshown⟩ := h.shown i hret hc
    exact ⟨r', hr'.mono hmono, hshown⟩

theorem Serves.step (h : w.Serves A p recvBufs) {e : Event n m} (he : w.enabled A e = true)
    (hs : w.step A p recvBufs e = some w') : w'.Serves A p recvBufs := by
  cases e with
  | sendTo i error =>
      cases hs
      exact h.sendTo (of_decide_eq_true he) error
  | receiveFrom i a =>
      cases hs
      simp only [enabled, Bool.and_eq_true, decide_eq_true_eq] at he
      exact h.receiveFrom he.1 he.2
  | serve j r =>
      rw [PhoneService.step, Option.map_eq_some_iff] at hs
      obtain ⟨s, hs, rfl⟩ := hs
      rw [enabled, Bool.and_eq_true] at he
      exact h.serve he.2 hs

theorem serves_of_reachable (h : (system A p recvBufs).Reachable Always w) :
    w.Serves A p recvBufs := by
  induction h with
  | init hi =>
      rw [hi]
      exact serves_start
  | step _ he _ hs ih => exact ih.step he hs

/-- A server leaves its loop only if a receive fails. -/
theorem Serves.waits_iff (h : w.Serves A p recvBufs) (j : Fin m) :
    (w.servers j).waits = true ↔
      ∀ r ∈ (w.servers j).rounds, ∀ error, r.arrival ≠ .failure error := by
  have hgoes := loop_again_iff (DaytimeServer.exists_again_iff p) [] (w.servers j).rounds
  have hrun : loop (DaytimeServer.body p) [] (w.servers j).rounds = some (w.servers j).pass :=
    h.runs j
  rw [hrun] at hgoes
  have hwaits : (w.servers j).waits = true ↔ ∃ t, some (w.servers j).pass = some (.again t) := by
    rw [Server.waits]
    cases (w.servers j).pass <;> simp
  rw [hwaits, hgoes]
  refine forall₂_congr fun r hr ↦ ?_
  cases ha : r.arrival with
  | failure error =>
      rw [DaytimeServer.Round.delivered, ha, DaytimeServer.receiveFrom]
      exact iff_of_false Bool.false_ne_true fun hno ↦ hno error rfl
  | datagram d =>
      obtain ⟨i, -, rfl⟩ := h.arrived j r hr d ha
      rw [DaytimeServer.Round.delivered, ha, receiveFrom_request]
      exact iff_of_true rfl (by rintro error ⟨⟩)

/-- **What the clients show.**  In every run, a client that has returned without an
exception has received the list of a pass of its own server, which this server has
made for the request of the client.  It shows the two phones of the list first, and
nothing else exactly if the parser comes to no phone behind them; but the list that
it has parsed is never the one that was sent.  The servers go on as long as no
receive fails. -/
theorem phones_shown (h : (system A p recvBufs).Reachable Always w) :
    (∀ i, (w.clients i).state = .returned → (w.clients i).caught = none → ∃ r, w.Answers A i r ∧
      r.phoneList.phones.flatMap clientPhoneLines <+: (w.clients i).console ∧
      ((w.clients i).console = r.phoneList.phones.flatMap clientPhoneLines ↔
        ¬ PhoneList.StartsPhone PhoneList.recursionLimit
          ((recvBufs i).bytes.drop r.phoneList.internalSerialize.length)) ∧
      (w.clients i).console = clientMain (recvBufs i) r.phoneList.internalSerialize ∧
      receivePhoneList (recvBufs i) r.phoneList.internalSerialize ≠ (r.phoneList, true)) ∧
    ∀ j, (w.servers j).waits = true ↔
      ∀ r ∈ (w.servers j).rounds, ∀ error, r.arrival ≠ .failure error := by
  have hserves := serves_of_reachable h
  refine ⟨fun i hret hcaught ↦ ?_, hserves.waits_iff⟩
  obtain ⟨r, hr, hconsole⟩ := hserves.shown i hret hcaught
  obtain ⟨hfront, hiff⟩ := phones_receivePhoneList r.sendable (recvBufs i)
  refine ⟨r, hr, ?_, ?_, hconsole, receivePhoneList_ne r.sendable (recvBufs i) ?_⟩
  · obtain ⟨rest, hrest⟩ := hfront
    rw [hconsole, clientMain, ← hrest, List.flatMap_append]
    exact List.prefix_append _ _
  · rw [hconsole, clientMain, flatMap_clientPhoneLines_eq hfront, hiff]
  · rw [PhoneList.length_internalSerialize]
    exact DaytimeServer.byteSizeLong_lt r.now r.now'

/-- Two clients, whose buffers hold zeros; the first one shows its two phones. -/
theorem phones_shown_zeros : ∃ w : PhoneService 2 1,
    (w.clients 0).state = .returned ∧ (w.clients 0).caught = none ∧
    (∀ i, (w.clients i).state = .returned → (w.clients i).caught = none →
      ∃ r, w.Answers Network.twoClients i r ∧
      r.phoneList.phones.flatMap clientPhoneLines <+: (w.clients i).console ∧
      ((w.clients i).console = r.phoneList.phones.flatMap clientPhoneLines ↔
        ¬ PhoneList.StartsPhone PhoneList.recursionLimit
          ((Buffer.fill recvBufSize 0).bytes.drop r.phoneList.internalSerialize.length)) ∧
      (w.clients i).console =
        clientMain (Buffer.fill recvBufSize 0) r.phoneList.internalSerialize ∧
      receivePhoneList (Buffer.fill recvBufSize 0) r.phoneList.internalSerialize ≠
        (r.phoneList, true)) ∧
    ∀ j, (w.servers j).waits = true ↔
      ∀ r ∈ (w.servers j).rounds, ∀ error, r.arrival ≠ .failure error := by
  obtain ⟨w, hw, hret, hcaught⟩ : ∃ w,
      (system Network.twoClients .truncate fun _ ↦ Buffer.fill recvBufSize 0).Reachable Always w ∧
        (w.clients 0).state = .returned ∧ (w.clients 0).caught = none :=
    System.always_of_exec (.init rfl)
      [.sendTo 0 none, .sendTo 1 none,
        .serve 0 ⟨.datagram (request Network.twoClients 0), 0, 0, none⟩,
        .receiveFrom 0 (.datagram ⟨Network.twoClients.server 0,
          (phoneListOf (DaytimeServer.addCalls 0 0)).internalSerialize⟩)] (by decide +kernel)
  exact ⟨w, hret, hcaught, phones_shown hw⟩

end PhoneService

end CppExamples.Radio
