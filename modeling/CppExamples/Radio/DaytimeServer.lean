import CppExamples.AsyncUdp.Server
import CppExamples.Radio.PhoneFile
import CppExamples.WinSock.ReverseServer

/-!
# The protobuf daytime server

`boost_protobuf_server.cpp`: wait for a datagram, fill in a list of two phones,
serialise it, send it to where the datagram came from, for ever.  The receive
throws where it fails, and the handler is outside of the loop; the send is given
an `error_code` that nobody looks at.

With the reverse server this is the second of the two blocking servers.  What
they have in common, and where they differ, is `blockingServers_serve`: both
answer every datagram they get, and both are done with the first receive that
fails; a reply that cannot be sent ends the one and not the other.
-/

namespace CppExamples.Radio

open CppExamples.Lib CppExamples.AsyncUdp

namespace DaytimeServer

/-- The size of `recv_buf`. -/
def recvBufSize : Nat := 1

/-- `boost::asio::error::message_size` -/
def messageSize : Nat := WinSock.WSAEMSGSIZE

/-- `socket.receive_from` into `recv_buf`: the datagram whose source it puts into
`remote_endpoint`, or the error it throws. -/
def receiveFrom (p : Oversize) : Arrival → Except Nat Datagram
  | .datagram d =>
      if d.bytes.length ≤ recvBufSize ∨ p = .truncate then .ok d else .error messageSize
  | .failure error => .error error

/-- The calls of `AddPhoneData` in a pass; `now` and `now'` are what `time(NULL)`
returns in them. -/
def addCalls (now now' : Int) : List AddCall :=
  [⟨none, 1, [70, 114, 101, 115, 110, 111], .EE, true, .ANDROID, now⟩,
    ⟨none, 2, [70, 114, 101, 115, 110, 111, 50], .VODAPHONE, true, .APPLE, now'⟩]

/-- The outcomes of the calls of one pass. -/
structure Round where
  arrival : Arrival
  now : Int
  now' : Int
  /-- The error of `send_to`, if it has one. -/
  sendError : Option Nat

/-- Why the server leaves its loop. -/
inductive Exit where
  | threw (error : Nat)
  | returned (code : Int)

/-- The body of the loop in `main`, where the state is the history of the calls of
`send_to`. -/
def body (p : Oversize) (sends : List SendTo) (r : Round) : Option (Pass (List SendTo) Exit) :=
  match receiveFrom p r.arrival with
  | .error error => some (.left sends (.threw error))
  | .ok d =>
      let phoneList := phoneListOf (addCalls r.now r.now')
      let (ok, stream) := phoneList.serializeToOstream newFile
      if !ok then some (.left sends (.returned (-1)))
      else
        let _ignoredError := r.sendError
        some (.again (sends ++ [⟨d.source, stream.written⟩]))

/-- `main`, from the loop on. -/
def main (p : Oversize) (rounds : List Round) : Option (Pass (List SendTo) Exit) :=
  loop (body p) [] rounds

/-! ## The list of phones -/

/-- A number takes at most eleven bytes, the tag included. -/
theorem fieldSize_le (c : Prop) [Decidable c] (n : Nat) :
    (if c then 1 + Protobuf.varintSize n else 0) ≤ 11 := by
  have := Protobuf.varintSize_le n
  split <;> omega

/-- What `SecondsToTimestamp` returns is serialised in a few bytes. -/
theorem byteSizeLong_secondsToTimestamp_le (now : Int) :
    (secondsToTimestamp now).byteSizeLong ≤ 11 := by
  have := fieldSize_le ((secondsToTimestamp now).seconds ≠ 0) (secondsToTimestamp now).seconds.toNat
  simpa [Protobuf.Timestamp.byteSizeLong, secondsToTimestamp, Protobuf.serializeUnknownFields]
    using this

/-- Apart from its name, a phone is serialised in a few bytes. -/
theorem byteSizeLong_apply_le (c : AddCall) :
    (c.apply .empty).byteSizeLong ≤ c.name.length + 68 := by
  have hname := Protobuf.varintSize_le c.name.length
  have hcreated := byteSizeLong_secondsToTimestamp_le c.now
  have hsize := Protobuf.varintSize_le (secondsToTimestamp c.now).byteSizeLong
  have hid := fieldSize_le (BitVec.ofInt 32 c.id ≠ 0) (BitVec.ofInt 32 c.id).toNat
  have hnet := fieldSize_le (c.phoneNet ≠ 0) (c.phoneNet.signExtend 64).toNat
  have htype := fieldSize_le (c.phoneType ≠ 0) (c.phoneType.signExtend 64).toNat
  have hactive : (if c.activeStatus then 1 + 1 else 0) ≤ 2 := by split <;> omega
  have hstr : (if c.name ≠ [] then
      1 + (Protobuf.varintSize c.name.length + c.name.length) else 0) ≤ 11 + c.name.length := by
    split <;> omega
  have htime : 1 + (Protobuf.varintSize (secondsToTimestamp c.now).byteSizeLong +
      (secondsToTimestamp c.now).byteSizeLong) ≤ 22 := by omega
  have hsum := Nat.add_le_add (Nat.add_le_add (Nat.add_le_add (Nat.add_le_add (Nat.add_le_add
    hstr htime) hid) hnet) hactive) htype
  refine le_trans ?_ (show 11 + c.name.length + 22 + 11 + 11 + 2 + 11 ≤ c.name.length + 68 by omega)
  exact hsum

/-- **The list is always serialised**, whatever the time is. -/
theorem serializeToOstream_addCalls (now now' : Int) :
    (phoneListOf (addCalls now now')).serializeToOstream newFile =
      (true, newFile.write (phoneListOf (addCalls now now')).internalSerialize) := by
  have hsize : (phoneListOf (addCalls now now')).byteSizeLong ≤ PhoneList.maxSerialized := by
    obtain ⟨c, c', hcalls, ht, ht', hn, hn'⟩ : ∃ c c' : AddCall, addCalls now now' = [c, c'] ∧
        c.target = none ∧ c'.target = none ∧ c.name.length = 6 ∧ c'.name.length = 7 :=
      ⟨_, _, rfl, rfl, rfl, rfl, rfl⟩
    have hlist : phoneListOf [c, c'] = ⟨[c.apply .empty, c'.apply .empty], []⟩ := by
      simp [phoneListOf, AddCall.run, ht, ht', PhoneList.empty]
    have hc := byteSizeLong_apply_le c
    have hc' := byteSizeLong_apply_le c'
    have hv := Protobuf.varintSize_le (c.apply .empty).byteSizeLong
    have hv' := Protobuf.varintSize_le (c'.apply .empty).byteSizeLong
    rw [hcalls, hlist]
    simp only [PhoneList.byteSizeLong, PhoneList.maxSerialized, List.map_cons, List.map_nil,
      List.sum_cons, List.sum_nil, List.length_cons, List.length_nil,
      Protobuf.serializeUnknownFields]
    omega
  rw [PhoneList.serializeToOstream, if_neg (Nat.not_lt.mpr hsize)]
  rfl

/-! ## Staying in the loop -/

variable {p : Oversize} {sends : List SendTo} {r : Round}

/-- The datagram that the receive of a pass delivers. -/
def Round.delivered (p : Oversize) (r : Round) : Option Datagram :=
  (receiveFrom p r.arrival).toOption

/-- A pass that receives nothing leaves the loop. -/
theorem body_of_failed {error : Nat} (h : receiveFrom p r.arrival = .error error) :
    body p sends r = some (.left sends (.threw error)) := by
  simp only [body, h]

/-- A pass that receives a datagram answers it, whatever comes of the send. -/
theorem body_of_received {d : Datagram} (h : receiveFrom p r.arrival = .ok d) :
    body p sends r = some (.again
      (sends ++ [⟨d.source, (phoneListOf (addCalls r.now r.now')).internalSerialize⟩])) := by
  simp only [body, h, serializeToOstream_addCalls]
  rfl

/-- A pass leads to the next one exactly if its receive delivers. -/
theorem exists_again_iff (p : Oversize) (sends : List SendTo) (r : Round) :
    (∃ v, body p sends r = some (.again v)) ↔ (r.delivered p).isSome = true := by
  unfold Round.delivered
  cases h : receiveFrom p r.arrival with
  | error error => simp [body_of_failed h, Except.toOption]
  | ok d => simp [body_of_received h, Except.toOption]

/-- The replies so far are for the datagrams that the receives have delivered. -/
def Answered (p : Oversize) (served : List Round) (sends : List SendTo) : Prop :=
  sends.map SendTo.dest = (served.filterMap (Round.delivered p)).map Datagram.source

/-- Every pass answers the datagram it gets. -/
theorem Answered.step {served : List Round} {e : Pass (List SendTo) Exit}
    (h : Answered p served sends) (he : body p sends r = some e) :
    Answered p (served ++ [r]) e.state := by
  unfold Answered at h ⊢
  rw [List.filterMap_append, List.map_append, ← h]
  cases hr : receiveFrom p r.arrival with
  | error error =>
      rw [body_of_failed hr] at he
      cases he
      simp [Pass.state, Round.delivered, hr, Except.toOption]
  | ok d =>
      rw [body_of_received hr] at he
      cases he
      simp [Pass.state, Round.delivered, hr, Except.toOption]

/-- **The protobuf daytime server stays in its loop** exactly as long as every
receive delivers.  Whether it is still in its loop or has left it, the datagrams
that have been delivered have been answered once each. -/
theorem main_serves (p : Oversize) (rounds : List Round) : ∃ e, main p rounds = some e ∧
    Answered p (taken (body p) [] rounds) e.state ∧
    ((∃ v, e = .again v) ↔ ∀ r ∈ rounds, (r.delivered p).isSome = true) := by
  have hdefined (sends : List SendTo) (r : Round) (_ : r ∈ rounds) :
      ∃ e, body p sends r = some e := by
    cases hr : receiveFrom p r.arrival with
    | error error => exact ⟨_, body_of_failed hr⟩
    | ok d => exact ⟨_, body_of_received hr⟩
  exact loop_serves (I := Answered p) rfl hdefined (fun _ _ _ _ hi hb ↦ hi.step hb)
    (exists_again_iff p)

end DaytimeServer

open WinSock in
/-- **The two blocking servers.**  Both answer every datagram that a receive
delivers with one reply to its source, wherever their loops end.  The reverse
server goes on exactly as long as all receives deliver and all replies are sent,
leaving aside datagrams that fill its buffer; the protobuf daytime server goes on
exactly as long as all receives deliver. -/
theorem blockingServers_serve (uninit : Buffer bufferSize) {rounds : List WinSock.Round}
    (hfits : ∀ r ∈ rounds, r.Fits) (p : Oversize) (rounds' : List DaytimeServer.Round) :
    (∃ e, ReverseServer.main uninit rounds = some e ∧
      ReverseServer.Answered
        (taken ReverseServer.body (ReverseServer.start uninit) rounds) e.state ∧
      ((∃ w, e = .again w) ↔ ∀ r ∈ rounds, r.Succeeds)) ∧
    ∃ e, DaytimeServer.main p rounds' = some e ∧
      DaytimeServer.Answered p (taken (DaytimeServer.body p) [] rounds') e.state ∧
      ((∃ sends, e = .again sends) ↔ ∀ r ∈ rounds', (r.delivered p).isSome = true) :=
  ⟨ReverseServer.main_serves uninit hfits, DaytimeServer.main_serves p rounds'⟩

open WinSock in
/-- A datagram answered, and then a reply that cannot be sent: the reverse server
has left its loop, the other one has not. -/
theorem blockingServers_serve_unsent :
    let d : Datagram := ⟨⟨0x7f000001, 4000⟩, [65]⟩
    let rounds : List WinSock.Round := [⟨.datagram d, none⟩, ⟨.datagram d, some 10054⟩]
    let rounds' : List DaytimeServer.Round :=
      [⟨.datagram d, 0, 0, none⟩, ⟨.datagram d, 0, 0, some 10054⟩]
    (∃ e, ReverseServer.main (Buffer.fill _ 0) rounds = some e ∧
      ReverseServer.Answered
        (taken ReverseServer.body (ReverseServer.start (Buffer.fill _ 0)) rounds) e.state ∧
      ((∃ w, e = .again w) ↔ ∀ r ∈ rounds, r.Succeeds)) ∧
    ∃ e, DaytimeServer.main .error rounds' = some e ∧
      DaytimeServer.Answered .error (taken (DaytimeServer.body .error) [] rounds') e.state ∧
      ((∃ sends, e = .again sends) ↔ ∀ r ∈ rounds', (r.delivered .error).isSome = true) := by
  intro d rounds rounds'
  have hfits : ∀ r ∈ rounds, r.Fits := by
    intro r hr d' hd'
    rcases List.mem_pair.mp hr with rfl | rfl <;> cases hd' <;> decide
  exact blockingServers_serve (Buffer.fill _ 0) hfits .error rounds'

open WinSock in
/-- One datagram that is too long for the buffer ends either of the servers. -/
theorem blockingServers_stopped :
    (¬ ∀ (uninit : Buffer bufferSize) (rounds : List WinSock.Round), (∀ r ∈ rounds, r.Fits) →
      ∃ w, ReverseServer.main uninit rounds = some (.again w)) ∧
    ¬ ∀ (p : Oversize) (rounds : List DaytimeServer.Round),
      ∃ sends, DaytimeServer.main p rounds = some (.again sends) := by
  constructor
  · intro h
    have hfits : ∀ r ∈ [(⟨.datagram (UDPSocket.zeros 101), none⟩ : WinSock.Round)], r.Fits := by
      intro r hr d hd
      rw [List.mem_singleton.mp hr] at hd
      cases hd
      simp [UDPSocket.zeros, bufferSize]
    obtain ⟨w, hw⟩ := h (Buffer.fill _ 0) _ hfits
    obtain ⟨e, he, -, hiff⟩ := ReverseServer.main_serves (Buffer.fill _ 0) hfits
    rw [hw] at he
    cases he
    have := (hiff.mp ⟨w, rfl⟩ _ (List.mem_singleton_self _)).1
    simp [Arrival.whole, UDPSocket.zeros, bufferSize] at this
  · intro h
    obtain ⟨sends, hs⟩ := h .error [⟨.datagram (UDPSocket.zeros 2), 0, 0, none⟩]
    obtain ⟨e, he, -, hiff⟩ :=
      DaytimeServer.main_serves .error [⟨.datagram (UDPSocket.zeros 2), 0, 0, none⟩]
    rw [hs] at he
    cases he
    have := hiff.mp ⟨sends, rfl⟩ _ (List.mem_singleton_self _)
    simp [DaytimeServer.Round.delivered, DaytimeServer.receiveFrom, UDPSocket.zeros,
      DaytimeServer.recvBufSize, Except.toOption] at this

end CppExamples.Radio
