import CppExamples.AsyncUdp.Socket

/-!
# The class `UDPSocket` of `Network.h`

`RecvFrom` and `SendTo` wrap the calls of Winsock and turn an error into an
exception.  `RecvFrom` does not tell its caller how many bytes it has received:
it puts a zero behind them instead.

The zero is a store of its own, at the index that is the number of bytes.  So the
stores of `RecvFrom` are part of its model, and where they end is a question to
be asked.
-/

namespace CppExamples.WinSock

open CppExamples.Lib CppExamples.AsyncUdp

/-- A `std::system_error`: the code of `WSAGetLastError`, and the text. -/
structure SystemError where
  code : Nat
  what : String
deriving DecidableEq

/-- The error of a receive whose datagram is longer than the buffer. -/
def WSAEMSGSIZE : Nat := 10040

/-- `recvfrom`, with room for `len` bytes: what it puts into the buffer, and the
source or the error.  A datagram that is longer is cut, and is an error. -/
def recvfrom (len : Nat) : Arrival → List UInt8 × Except Nat Endpoint
  | .datagram d =>
      (d.bytes.take len, if d.bytes.length ≤ len then .ok d.source else .error WSAEMSGSIZE)
  | .failure error => ([], .error error)

namespace UDPSocket

/-- `UDPSocket::RecvFrom(buffer, len)`: its stores into the buffer, and what it
returns or throws. -/
def recvFrom (len : Nat) (a : Arrival) : List (Nat × UInt8) × Except SystemError Endpoint :=
  match recvfrom len a with
  | (received, .error error) => (Buffer.storesAt 0 received, .error ⟨error, "recvfrom failed"⟩)
  | (received, .ok source) =>
      (Buffer.storesAt 0 received ++ [(received.length, 0)], .ok source)

/-- `UDPSocket::SendTo`; `error` is the error of `sendto`, if it has one. -/
def sendTo (error : Option Nat) : Except SystemError Unit :=
  match error with
  | none => .ok ()
  | some error => .error ⟨error, "sendto failed"⟩

/-! ## Where the stores end -/

variable {len : Nat} {d : Datagram}

/-- `RecvFrom` on a datagram that is received. -/
theorem recvFrom_datagram (h : d.bytes.length ≤ len) : recvFrom len (.datagram d) =
    (Buffer.storesAt 0 d.bytes ++ [(d.bytes.length, 0)], .ok d.source) := by
  simp [recvFrom, recvfrom, h, List.take_of_length_le h]

/-- **`RecvFrom` stays inside the buffer** of its caller exactly if the datagram
leaves room for the zero. -/
theorem stores_inside_iff (h : d.bytes.length ≤ len) :
    (∀ s ∈ (recvFrom len (.datagram d)).1, s.1 < len) ↔ d.bytes.length < len := by
  rw [recvFrom_datagram h]
  constructor
  · intro hall
    exact hall _ (List.mem_append_right _ (List.mem_singleton_self _))
  · intro hlt s hs
    rcases List.mem_append.mp hs with hs | hs
    · have := Buffer.fst_lt_of_mem_storesAt hs
      omega
    · rw [List.mem_singleton.mp hs]
      exact hlt

/-- What the caller's buffer holds after `RecvFrom`, if that is defined. -/
theorem putAll_recvFrom (b : Buffer len) (h : d.bytes.length < len) :
    b.putAll (recvFrom len (.datagram d)).1 = some (b.store (d.bytes ++ [0])) := by
  have hstores : (recvFrom len (.datagram d)).1 = Buffer.storesAt 0 (d.bytes ++ [0]) := by
    rw [recvFrom_datagram h.le, Buffer.storesAt, Buffer.storesAt, List.zipIdx_append,
      List.map_append, Nat.zero_add]
    rfl
  rw [hstores]
  apply Buffer.putAll_storesAt
  rw [List.length_append, List.length_singleton]
  omega

/-- A datagram of `n` zeros. -/
def zeros (n : Nat) : Datagram := ⟨⟨0x7f000001, 4000⟩, List.replicate n 0⟩

theorem stores_inside_99 : (zeros 99).bytes.length ≤ 100 ∧
    ((∀ s ∈ (recvFrom 100 (.datagram (zeros 99))).1, s.1 < 100) ↔
      (zeros 99).bytes.length < 100) := by
  have h : (zeros 99).bytes.length ≤ 100 := by simp [zeros]
  exact ⟨h, stores_inside_iff h⟩

/-- A datagram of 100 bytes, received into the 100 bytes of the server or of the
client: the zero is stored behind them. -/
theorem stores_outside_100 :
    ¬ ∀ (len : Nat) (d : Datagram), 1 ≤ len → d.bytes.length ≤ len →
      ∀ s ∈ (recvFrom len (.datagram d)).1, s.1 < len := by
  intro h
  have hlen : (zeros 100).bytes.length = 100 := by simp [zeros]
  have hmem : (100, 0) ∈ (recvFrom 100 (.datagram (zeros 100))).1 := by
    rw [recvFrom_datagram hlen.le, hlen]
    exact List.mem_append_right _ (List.mem_singleton_self _)
  exact Nat.lt_irrefl 100 (h 100 (zeros 100) (by decide) hlen.le _ hmem)

end UDPSocket

end CppExamples.WinSock
