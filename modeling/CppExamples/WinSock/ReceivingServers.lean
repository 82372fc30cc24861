import CppExamples.Lib.Loop
import CppExamples.Lib.StringArray
import CppExamples.WinSock.Network

/-!
# The receiving servers

`UDP_protobuf_server.cpp` and the `UDPServer.cpp` of the tutorial: receive a
datagram, print it and where it came from, for ever.  Their loops differ in
nothing but the lines that they print.

The datagram is printed as a C string.  So what is printed of it ends at its first
NUL, as it is meant to: the client of the tutorial sends one.  A datagram without
a NUL is followed by one of those that the buffer has been cleared to, unless it
fills the buffer to the last byte.
-/

namespace CppExamples.WinSock

open CppExamples.Lib CppExamples.AsyncUdp

namespace ReceivingServer

/-- `DEFAULT_BUFLEN`, and the size of `buf`. -/
def bufLen : Nat := 1024

/-- The lines that the servers print. -/
inductive ReceiveLine where
  | /-- `Error receiving from client ` -/
    errorReceiving (error : Nat)
  | /-- `Recieved name from: ` -/
    receivedNameFrom (address : BitVec 32)
  | /-- `Recieved: ` -/
    received (text : List UInt8)
  | /-- `Message recv from ` and ` : ` -/
    messageRecvFrom (address : BitVec 32) (text : List UInt8)
deriving DecidableEq

/-- The buffer, and the output so far. -/
structure State where
  buf : Buffer bufLen
  console : List ReceiveLine

/-- The body of the loop; `message` are the lines for a datagram, by its source and
its text. -/
def body (message : BitVec 32 → List UInt8 → List ReceiveLine) (w : State) (a : Arrival) :
    Option (Pass State Unit) :=
  let buf := Buffer.fill bufLen 0
  let (bytes, result) := recvfrom bufLen a
  let buf := buf.store bytes
  match result with
  | .error error => some (.again ⟨buf, w.console ++ [.errorReceiving error]⟩)
  | .ok source => (cstrIn buf.bytes).map fun text ↦
      .again ⟨buf, w.console ++ message source.address text⟩

/-- What there is to print for an arrival. -/
def printed (message : BitVec 32 → List UInt8 → List ReceiveLine) : Arrival → List ReceiveLine
  | .datagram d => if d.bytes.length ≤ bufLen then message d.source.address (cstr d.bytes)
      else [.errorReceiving WSAEMSGSIZE]
  | .failure error => [.errorReceiving error]

/-- An arrival that is followed by a NUL in the buffer, or has one. -/
def Terminated (a : Arrival) : Prop :=
  ∀ d, a = .datagram d → d.bytes.length = bufLen → 0 ∈ d.bytes

variable {message : BitVec 32 → List UInt8 → List ReceiveLine} {w : State} {a : Arrival}
  {as : List Arrival}

/-- The text in a cleared buffer that a datagram has been received into. -/
theorem cstrIn_store {bytes : List UInt8} (hle : bytes.length ≤ bufLen) :
    cstrIn ((Buffer.fill bufLen 0).store bytes).bytes =
      if bytes.length = bufLen → 0 ∈ bytes then some (cstr bytes) else none := by
  rw [Buffer.bytes_store_of_le hle, Buffer.bytes_fill, List.drop_replicate]
  rcases Nat.eq_or_lt_of_le hle with heq | hlt
  · -- the datagram fills the buffer
    rw [heq, Nat.sub_self, List.replicate_zero, List.append_nil]
    by_cases h0 : 0 ∈ bytes
    · rw [cstrIn_of_mem h0, if_pos fun _ ↦ h0]
    · rw [cstrIn_of_not_mem h0, if_neg fun h ↦ h0 (h rfl)]
  · obtain ⟨k, hk⟩ := Nat.exists_eq_succ_of_ne_zero (Nat.sub_ne_zero_of_lt hlt)
    rw [if_pos fun heq ↦ absurd heq hlt.ne, hk, List.replicate_succ,
      cstrIn_of_mem (List.mem_append_right _ (List.mem_cons_self ..)), cstr_append_cons_zero]

/-- **A pass prints an arrival** if it is terminated. -/
theorem body_of_terminated (h : Terminated a) : ∃ buf,
    body message w a = some (.again ⟨buf, w.console ++ printed message a⟩) := by
  cases a with
  | failure error => exact ⟨_, rfl⟩
  | datagram d =>
      by_cases hle : d.bytes.length ≤ bufLen
      · have htext := cstrIn_store hle
        rw [if_pos (h d rfl)] at htext
        refine ⟨(Buffer.fill bufLen 0).store d.bytes, ?_⟩
        simp [body, recvfrom, printed, hle, List.take_of_length_le hle, htext]
      · refine ⟨(Buffer.fill bufLen 0).store (d.bytes.take bufLen), ?_⟩
        simp [body, recvfrom, printed, hle]

/-- A pass on anything else is undefined. -/
theorem body_of_not_terminated (h : ¬ Terminated a) : body message w a = none := by
  rw [Terminated] at h
  push Not at h
  obtain ⟨d, rfl, hlen, h0⟩ := h
  have htext := cstrIn_store hlen.le
  rw [if_neg fun hmem ↦ h0 (hmem hlen)] at htext
  simp [body, recvfrom, hlen.le, List.take_of_length_le hlen.le, htext]

/-- **The loop prints the arrivals** as long as they are terminated. -/
theorem loop_of_terminated (h : ∀ a ∈ as, Terminated a) : ∃ buf,
    loop (body message) w as = some (.again ⟨buf, w.console ++ as.flatMap (printed message)⟩) := by
  induction as generalizing w with
  | nil => exact ⟨w.buf, by rw [List.flatMap_nil, List.append_nil]; rfl⟩
  | cons a as ih =>
      rw [List.forall_mem_cons] at h
      obtain ⟨buf, hbuf⟩ : ∃ buf, body message w a =
          some (.again ⟨buf, w.console ++ printed message a⟩) := body_of_terminated h.1
      obtain ⟨buf', hbuf'⟩ := ih (w := ⟨buf, w.console ++ printed message a⟩) h.2
      refine ⟨buf', ?_⟩
      rw [loop, hbuf, List.flatMap_cons, ← List.append_assoc]
      exact hbuf'

/-- **The loop is defined exactly as long as the arrivals are terminated.** -/
theorem loop_defined_iff :
    (∃ p, loop (body message) w as = some p) ↔ ∀ a ∈ as, Terminated a := by
  constructor
  · rintro ⟨p, hp⟩
    induction as generalizing w with
    | nil =>
        intro a ha
        cases ha
    | cons a as ih =>
        by_cases ha : Terminated a
        · obtain ⟨buf, hbuf⟩ : ∃ buf, body message w a =
              some (.again ⟨buf, w.console ++ printed message a⟩) := body_of_terminated ha
          rw [loop, hbuf] at hp
          exact List.forall_mem_cons.mpr ⟨ha, ih hp⟩
        · rw [loop, body_of_not_terminated ha] at hp
          cases hp
  · intro h
    obtain ⟨buf, hbuf⟩ : ∃ buf, loop (body message) w as =
        some (.again ⟨buf, w.console ++ as.flatMap (printed message)⟩) := loop_of_terminated h
    exact ⟨_, hbuf⟩

end ReceivingServer

open ReceivingServer

/-- The lines of `UDP_protobuf_server.cpp`. -/
def UdpProtobufServer.message (address : BitVec 32) (text : List UInt8) : List ReceiveLine :=
  [.receivedNameFrom address, .received text]

/-- Its `main`, from the loop on; `uninit` is what the buffer happens to hold. -/
def UdpProtobufServer.main (uninit : Buffer bufLen) (as : List Arrival) :
    Option (Pass State Unit) := loop (body message) ⟨uninit, []⟩ as

/-- The lines of `UDPServer.cpp`. -/
def UDPServer.message (address : BitVec 32) (text : List UInt8) : List ReceiveLine :=
  [.messageRecvFrom address text]

/-- Its `main`, from the loop on. -/
def UDPServer.main (uninit : Buffer bufLen) (as : List Arrival) :
    Option (Pass State Unit) := loop (body message) ⟨uninit, []⟩ as

/-- **The servers print what they receive as text.**  Whatever arrives, in
whatever order, apart from datagrams that fill the buffer and have no NUL, each
server prints for each datagram its bytes in front of the first NUL, and a line
for each error.  These are all the bytes of a datagram exactly if there is no NUL
among them. -/
theorem servers_print {as : List Arrival} (h : ∀ a ∈ as, Terminated a)
    (uninit : Buffer bufLen) :
    (∃ buf, UdpProtobufServer.main uninit as =
      some (.again ⟨buf, as.flatMap (printed UdpProtobufServer.message)⟩)) ∧
    (∃ buf, UDPServer.main uninit as =
      some (.again ⟨buf, as.flatMap (printed UDPServer.message)⟩)) ∧
    ∀ d, .datagram d ∈ as → (cstr d.bytes = d.bytes ↔ 0 ∉ d.bytes) := by
  refine ⟨loop_of_terminated h, loop_of_terminated h, fun d _ ↦ ?_⟩
  rw [cstr_eq_self_iff]
  constructor
  · intro hne h0
    exact hne 0 h0 rfl
  · rintro h0 c hc rfl
    exact h0 hc

/-- The bytes `A`, NUL, `B`. -/
def aNulB : Datagram := ⟨⟨0x7f000001, 4000⟩, [65, 0, 66]⟩

theorem aNulB_terminated : ∀ a ∈ [.datagram aNulB, .failure 10054], Terminated a := by
  intro a ha d hd hlen
  subst hd
  simp only [List.mem_cons, Arrival.datagram.injEq, reduceCtorEq, List.not_mem_nil, or_false]
    at ha
  rw [ha] at hlen
  cases hlen

theorem aNulB_printed :
    ∃ buf, UDPServer.main (Buffer.fill _ 0) [.datagram aNulB, .failure 10054] =
      some (.again ⟨buf, [.messageRecvFrom 0x7f000001 [65], .errorReceiving 10054]⟩) :=
  (servers_print aNulB_terminated (Buffer.fill _ 0)).2.1

/-- Both servers leave out what is behind the NUL. -/
theorem aNulB_cut :
    (∃ buf, UdpProtobufServer.main (Buffer.fill _ 0) [.datagram aNulB, .failure 10054] =
      some (.again ⟨buf,
        [.receivedNameFrom 0x7f000001, .received [65], .errorReceiving 10054]⟩)) ∧
    (∃ buf, UDPServer.main (Buffer.fill _ 0) [.datagram aNulB, .failure 10054] =
      some (.again ⟨buf, [.messageRecvFrom 0x7f000001 [65], .errorReceiving 10054]⟩)) ∧
    aNulB.bytes ≠ [65] :=
  ⟨loop_of_terminated aNulB_terminated, loop_of_terminated aNulB_terminated, by decide⟩

end CppExamples.WinSock
