import CppExamples.Lib.Buffer
import CppExamples.Radio.PhoneFile

/-!
# The protobuf UDP client

The client receives one datagram into a buffer of 128 bytes, which it does not
initialise, and parses the whole buffer: the length that `receive_from` returns
is not used, and neither is the result of the parse.

So the bytes behind the datagram are parsed too.  They make the parse fail, or
add a phone or an unknown field to what the server has sent; either way the
client ends up with the list of the server only if there are no such bytes.
-/

namespace CppExamples.Radio

open CppExamples.Lib CppExamples.Lib.Protobuf

/-- The size of `recv_buf`. -/
def recvBufSize : Nat := 128

/-- `ParseFromArray`, on the bytes at `data`. -/
def PhoneList.parseFromArray (data : List UInt8) (size : Nat) : PhoneList × Bool :=
  parseFrom (data.take size)

/-- What the client parses out of a datagram that fits the buffer, and whether
the parse succeeds; `recvBuf` is what the buffer happens to hold before. -/
def receivePhoneList (recvBuf : Buffer recvBufSize) (datagram : List UInt8) : PhoneList × Bool :=
  let recvBuf := recvBuf.store datagram
  PhoneList.parseFromArray recvBuf.bytes 128

/-- What the client prints for each phone: the lines of the reader, less the
metadata. -/
def clientPhoneLines (phone : Phone) : List PhoneLine :=
  [.phoneId phone.id, .phoneName phone.name, .phoneNetwork phone.network,
    .phoneActiveStatus phone.active, .phoneType phone.type, .phoneGetTypeName]
    ++ (phone.created.map .createdOn).toList

/-- The client, from the datagram on: it prints the list it has, whether the
parse has succeeded or not. -/
def clientMain (recvBuf : Buffer recvBufSize) (datagram : List UInt8) : List PhoneLine :=
  (receivePhoneList recvBuf datagram).1.phones.flatMap clientPhoneLines

namespace PhoneList

/-- A list that the client is meant to receive: the fields of `radio.proto`,
names that are UTF-8, and an encoding that fits the buffer. -/
structure Sendable (l : PhoneList) : Prop extends l.Plain where
  names : ∀ p ∈ l.phones, isUtf8 p.name = true
  size : l.internalSerialize.length ≤ recvBufSize

theorem Sendable.readable {l : PhoneList} (h : l.Sendable) : ∀ p ∈ l.phones, p.Readable := by
  intro p hp
  refine ⟨h.names p hp, (byteSizeLong_le_of_mem hp).trans ?_⟩
  rw [← length_internalSerialize]
  exact h.size.trans (by decide)

end PhoneList

variable {l : PhoneList}

/-- The client parses the list of the server, and goes on with the bytes that
were in the buffer behind it. -/
theorem receivePhoneList_eq (h : l.Sendable) (recvBuf : Buffer recvBufSize) :
    let rest := recvBuf.bytes.drop l.internalSerialize.length
    let r := (PhoneList.fields PhoneList.recursionLimit).parse l rest
    receivePhoneList recvBuf l.internalSerialize = (r.1, decide (r.2 = .atLimit)) := by
  intro rest r
  have hparse : (PhoneList.fields PhoneList.recursionLimit).parse .empty
      (l.internalSerialize ++ rest) = r :=
    PhoneList.parse_internalSerialize h.toPlain h.readable rest
  have htake : (recvBuf.store l.internalSerialize).bytes.take 128 =
      l.internalSerialize ++ rest := by
    have hlen : (recvBuf.store l.internalSerialize).bytes.length ≤ 128 :=
      (Buffer.length_bytes _).le
    rw [List.take_of_length_le hlen, Buffer.bytes_store_of_le h.size]
  rw [receivePhoneList, PhoneList.parseFromArray, htake, PhoneList.parseFrom, hparse]

/-- The bytes of a buffer behind a datagram. -/
theorem drop_eq_nil_iff (h : l.Sendable) (recvBuf : Buffer recvBufSize) :
    recvBuf.bytes.drop l.internalSerialize.length = [] ↔
      l.internalSerialize.length = recvBufSize := by
  rw [List.drop_eq_nil_iff, Buffer.length_bytes]
  exact ⟨fun hle ↦ Nat.le_antisymm h.size hle, fun heq ↦ heq.ge⟩

/-- A buffer of zeros makes the parse stop right behind the datagram. -/
theorem receivePhoneList_zeros (h : l.Sendable) (hn : l.internalSerialize.length ≠ recvBufSize) :
    (receivePhoneList (Buffer.fill _ 0) l.internalSerialize).2 = false := by
  have hlt : l.internalSerialize.length < recvBufSize := Nat.lt_of_le_of_ne h.size hn
  obtain ⟨k, hk⟩ := Nat.exists_eq_add_of_lt hlt
  have hrest : (Buffer.fill recvBufSize 0).bytes.drop l.internalSerialize.length =
      0 :: List.replicate k 0 := by
    rw [Buffer.bytes_fill, List.drop_replicate, hk, ← List.replicate_succ]
    congr 1
    omega
  have hstop : (PhoneList.fields PhoneList.recursionLimit).parse l (0 :: List.replicate k 0) =
      (l, .lastTag 0 (List.replicate k 0)) :=
    FieldParser.parse_endTag (readTag_cons (by decide : 0 < 128) _) rfl
  rw [receivePhoneList_eq h, hrest, hstop]
  rfl

/-- **The client decodes what the server sent exactly if the datagram fills its
buffer.**  For every list and every content of the buffer, the parse succeeds
and yields the list if and only if its encoding has 128 bytes.  A shorter one
does not even yield the same phones from every content. -/
theorem receivePhoneList_iff (h : l.Sendable) :
    (∀ recvBuf, receivePhoneList recvBuf l.internalSerialize = (l, true) ↔
      l.internalSerialize.length = 128) ∧
    ((∀ recvBuf, (receivePhoneList recvBuf l.internalSerialize).2 = true ∧
        (receivePhoneList recvBuf l.internalSerialize).1.phones = l.phones) ↔
      l.internalSerialize.length = 128) := by
  have hpoint (recvBuf : Buffer recvBufSize) :
      receivePhoneList recvBuf l.internalSerialize = (l, true) ↔
        l.internalSerialize.length = 128 := by
    have hfull : recvBuf.bytes.drop l.internalSerialize.length = [] ↔
        l.internalSerialize.length = 128 := drop_eq_nil_iff h recvBuf
    rw [receivePhoneList_eq h, ← hfull]
    constructor
    · intro heq
      by_contra hne
      rw [Prod.mk.injEq, decide_eq_true_iff] at heq
      exact PhoneList.parse_ne_self hne (Prod.ext heq.1 heq.2)
    · intro hnil
      rw [hnil]
      rfl
  refine ⟨hpoint, fun hall ↦ ?_, fun hn recvBuf ↦ ?_⟩
  · by_contra hne
    have := receivePhoneList_zeros h hne
    rw [(hall _).1] at this
    cases this
  · rw [(hpoint recvBuf).mpr hn]
    exact ⟨rfl, rfl⟩

/-- One phone with a name of 124 letters, which makes 128 bytes. -/
def fullList : PhoneList := ⟨[{ Phone.empty with name := List.replicate 124 97 }], []⟩

theorem fullList_sendable : fullList.Sendable where
  unknownFields := rfl
  phones p hp := by
    obtain rfl := List.mem_singleton.mp hp
    exact ⟨rfl, nofun⟩
  names p hp := by
    obtain rfl := List.mem_singleton.mp hp
    rfl
  size := by decide +kernel

theorem receivePhoneList_fullList :
    receivePhoneList (Buffer.fill _ 0) fullList.internalSerialize = (fullList, true) :=
  ((receivePhoneList_iff fullList_sendable).1 _).mpr (by decide +kernel)

/-- The list that the server sends is shorter than the buffer, and the parse
fails on the zeros behind it. -/
theorem receivePhoneList_fresno :
    ¬ ∀ (l : PhoneList) (recvBuf : Buffer recvBufSize), l.Sendable →
      receivePhoneList recvBuf l.internalSerialize = (l, true) := by
  intro h
  have hplain := plain_phoneListOf (fresnoCalls 1640995200)
  have hsend : (phoneListOf (fresnoCalls 1640995200)).Sendable :=
    { hplain with names := by decide, size := by decide }
  have hzero : (receivePhoneList (Buffer.fill _ 0)
      (phoneListOf (fresnoCalls 1640995200)).internalSerialize).2 = false := by
    decide +kernel
  rw [h _ _ hsend] at hzero
  cases hzero

end CppExamples.Radio
