import CppExamples.Lib.Buffer
import CppExamples.Lib.CString

/-!
# The `message` class

A `message` is a `char` array with room for a header of 22 bytes and a body of
at most 1024, and the length of the body.  `encode_header` prints the length
into the header as text, `decode_header` reads it back.  The class stands twice
in the sources, word for word the same: in `udp_client.cpp`, whose client uses
it, and in `messages.cpp`.

The body length is a `size_t` while `atoi` yields an `int` and `%d` prints one,
so both conversions are part of the model; `SizeT` is the width of `size_t`.
-/

namespace CppExamples.AsyncUdp

open CppExamples.Lib

/-- The widths `size_t` has on the supported platforms. -/
inductive SizeT where
  | bits32 | bits64
deriving DecidableEq, Repr

/-- The number of bits of a `size_t`. -/
def SizeT.bits : SizeT → Nat
  | .bits32 => 32
  | .bits64 => 64

/-- Conversion of an `int` to `size_t`: a negative number wraps around. -/
def SizeT.ofInt (z : SizeT) (v : Int) : Nat := (v % 2 ^ z.bits).toNat

/-- Conversion to `int` of the `size_t` that `%d` is given. -/
def intOfSizeT (n : Nat) : Int := (BitVec.ofNat 32 n).toInt

def headerLength : Nat := 22
def maxBodyLength : Nat := 1024

/-- A `message` object. -/
structure Message where
  data : Buffer (headerLength + maxBodyLength)
  bodyLength : Nat
deriving DecidableEq

namespace Message

def maxLength : Nat := headerLength + maxBodyLength

def length (m : Message) : Nat := headerLength + m.bodyLength

/-- The bytes at `body()`. -/
def body (m : Message) : List UInt8 := m.data.bytes.drop headerLength

/-- The setter `body_length(size_t)`. -/
def setBodyLength (m : Message) (length : Nat) : Message :=
  { m with bodyLength := if length > maxBodyLength then maxBodyLength else length }

/-- `decode_header`: what it returns, and the object afterwards. -/
def decodeHeader (z : SizeT) (m : Message) : Bool × Message :=
  let header := strncat (List.replicate (headerLength + 1) 0) m.data.bytes headerLength
  let bodyLength := z.ofInt (atoi header)
  if bodyLength > maxBodyLength then
    (false, { m with bodyLength := 0 })
  else
    (true, { m with bodyLength := bodyLength })

/-- The local array that `encode_header` prints into. -/
def encodedHeader (m : Message) : Buffer (headerLength + 1) :=
  (Buffer.fill (headerLength + 1) 0).store (sprintfD 4 (intOfSizeT m.bodyLength))

def encodeHeader (m : Message) : Message :=
  { m with data := m.data.store (m.encodedHeader.bytes.take headerLength) }

/-- Bytes stored from the outside into `data()`, from index `off` on. -/
def write (m : Message) (off : Nat) (bytes : List UInt8) : Message :=
  { m with data := m.data.storeAt off bytes }

/-- The bytes that `boost::asio::buffer(m.data(), m.length())` covers. -/
def payload (m : Message) : List UInt8 := m.data.bytes.take m.length

@[simp] theorem setBodyLength_data (m : Message) (n : Nat) :
    (m.setBodyLength n).data = m.data := rfl
@[simp] theorem encodeHeader_bodyLength (m : Message) :
    m.encodeHeader.bodyLength = m.bodyLength := by rw [encodeHeader]
@[simp] theorem write_bodyLength (m : Message) (off : Nat) (bs : List UInt8) :
    (m.write off bs).bodyLength = m.bodyLength := rfl

/-- The setter clamps. -/
@[simp] theorem setBodyLength_bodyLength (m : Message) (n : Nat) :
    (m.setBodyLength n).bodyLength = min n maxBodyLength := by
  simp only [setBodyLength]
  split <;> omega

/-! ## Reachable objects

An object is reachable when it comes out of the constructor, which leaves the
array uninitialised, by calls of the operations and by bytes stored into it. -/

/-- The objects the class allows to build. -/
inductive Reachable (z : SizeT) : Message → Prop
  | constructor (data : Buffer (headerLength + maxBodyLength)) : Reachable z ⟨data, 0⟩
  | setBodyLength {m : Message} (n : Nat) : Reachable z m → Reachable z (m.setBodyLength n)
  | decodeHeader {m : Message} : Reachable z m → Reachable z (m.decodeHeader z).2
  | encodeHeader {m : Message} : Reachable z m → Reachable z m.encodeHeader
  | write {m : Message} (off : Nat) (bytes : List UInt8) : Reachable z m →
      Reachable z (m.write off bytes)

/-- Whatever the header says, decoding it leaves a length the buffer can hold. -/
theorem decodeHeader_bodyLength_le (z : SizeT) (m : Message) :
    (m.decodeHeader z).2.bodyLength ≤ maxBodyLength := by
  simp only [decodeHeader]
  split
  · exact Nat.zero_le _
  · exact Nat.le_of_not_lt ‹_›

/-- The length of a reachable object stays within the buffer. -/
theorem Reachable.bodyLength_le {z : SizeT} {m : Message} (h : Reachable z m) :
    m.bodyLength ≤ maxBodyLength := by
  induction h with
  | constructor data => exact Nat.zero_le _
  | setBodyLength n _ _ => rw [setBodyLength_bodyLength]; exact Nat.min_le_right _ _
  | decodeHeader _ _ => exact decodeHeader_bodyLength_le z _
  | encodeHeader _ ih => rwa [encodeHeader_bodyLength]
  | write off bytes _ ih => rwa [write_bodyLength]

theorem Reachable.length_payload {z : SizeT} {m : Message} (h : Reachable z m) :
    m.payload.length = m.length := by
  have := h.bodyLength_le
  simp only [payload, List.length_take, Buffer.length_bytes, length]
  omega

/-! ## Encoding the header -/

/-- Within the limit, `%d` prints the length as it is. -/
theorem intOfSizeT_of_le {n : Nat} (h : n ≤ maxBodyLength) : intOfSizeT n = n := by
  simp only [maxBodyLength] at h
  have hn : (BitVec.ofNat 32 n).toNat = n := by
    rw [BitVec.toNat_ofNat]
    omega
  rw [intOfSizeT, BitVec.toInt_eq_toNat_of_lt (by omega), hn]

/-- The non-negative `int`s are the same as `size_t`s, whatever its width. -/
theorem ofInt_of_le (z : SizeT) {n : Nat} (h : n ≤ maxBodyLength) : z.ofInt n = n := by
  simp only [maxBodyLength] at h
  cases z <;> simp only [SizeT.ofInt, SizeT.bits] <;> omega

/-- The text of a length within the limit takes four columns. -/
theorem length_headerText {n : Nat} (h : n ≤ maxBodyLength) :
    (sprintfD 4 (intOfSizeT n)).length = 5 := by
  rw [intOfSizeT_of_le h]
  simp only [maxBodyLength] at h
  exact length_sprintfD (by decide) (by omega)

/-- The encoded header starts with the text of the length and its NUL. -/
theorem take_encodedHeader {m : Message} (h : m.bodyLength ≤ maxBodyLength) :
    ∃ rest, m.encodedHeader.bytes.take headerLength = sprintfD 4 m.bodyLength ++ rest := by
  have hl := length_headerText h
  rw [encodedHeader, Buffer.bytes_store_of_le (by simp [hl, headerLength]), List.take_append,
    List.take_of_length_le (by simp [hl, headerLength]), intOfSizeT_of_le h]
  exact ⟨_, rfl⟩

/-- The header of an encoded message. -/
theorem take_encodeHeader (m : Message) :
    m.encodeHeader.data.bytes.take headerLength = m.encodedHeader.bytes.take headerLength := by
  rw [encodeHeader, Buffer.take_store (by simp) (by simp [headerLength]), List.take_take,
    Nat.min_self]

/-- The text of the header depends on the length alone. -/
theorem encodedHeader_encodeHeader (m : Message) :
    m.encodeHeader.encodedHeader = m.encodedHeader := by
  rw [encodedHeader, encodeHeader_bodyLength, encodedHeader]

/-- Encoding the header leaves the body alone. -/
theorem body_encodeHeader (m : Message) : m.encodeHeader.body = m.body :=
  Buffer.drop_store _ (by simp [headerLength])

/-! ## Decoding the header -/

/-- The length a header carries. -/
def headerValue (z : SizeT) (m : Message) : Nat :=
  z.ofInt (atoi (m.data.bytes.take headerLength))

/-- `decode_header` looks at the 22 bytes of the header and nothing else. -/
theorem decodeHeader_eq (z : SizeT) (m : Message) :
    m.decodeHeader z =
      if m.headerValue z > maxBodyLength then (false, { m with bodyLength := 0 })
      else (true, { m with bodyLength := m.headerValue z }) := by
  have hc : cstr (strncat (List.replicate (headerLength + 1) 0) m.data.bytes headerLength)
      = cstr (m.data.bytes.take headerLength) := by
    rw [cstr_strncat]
    rfl
  simp only [decodeHeader, headerValue, atoi_congr hc]
  rfl

theorem decodeHeader_data (z : SizeT) (m : Message) : (m.decodeHeader z).2.data = m.data := by
  rw [decodeHeader_eq]
  split <;> rfl

/-- Decoding the header leaves the body alone. -/
theorem body_decodeHeader (z : SizeT) (m : Message) : (m.decodeHeader z).2.body = m.body := by
  rw [body, body, decodeHeader_data]

/-- A header that carries a valid length is accepted. -/
theorem decodeHeader_of_le {z : SizeT} {m : Message} {n : Nat} (hv : m.headerValue z = n)
    (h : n ≤ maxBodyLength) : m.decodeHeader z = (true, { m with bodyLength := n }) := by
  rw [decodeHeader_eq, hv, if_neg (by omega)]

/-! ## Framing

A sender sets the length, writes the body and encodes the header; a receiver
copies the `length()` bytes of the sender over the front of an object of its
own and decodes the header. -/

/-- The sender's object, ready to be sent. -/
def frame (m : Message) (n : Nat) (content : List UInt8) : Message :=
  ((m.setBodyLength n).write headerLength content).encodeHeader

/-- The receiver's object with the bytes copied into it. -/
def copyIn (m : Message) (bytes : List UInt8) : Message := { m with data := m.data.store bytes }

theorem frame_bodyLength (m : Message) (n : Nat) (content : List UInt8) :
    (m.frame n content).bodyLength = min n maxBodyLength := by simp [frame]

/-- The bytes sent fit any other object. -/
theorem length_payload_frame (m : Message) (n : Nat) (content : List UInt8) :
    (m.frame n content).payload.length = (m.frame n content).length := by
  simp only [payload, List.length_take, Buffer.length_bytes, length, frame_bodyLength]
  omega

/-- The header a receiver of a framed message looks at. -/
theorem headerValue_copyIn_frame (z : SizeT) (s r : Message) (n : Nat) (content : List UInt8) :
    (r.copyIn (s.frame n content).payload).headerValue z = min n maxBodyLength := by
  have hb := frame_bodyLength s n content
  have hle : min n maxBodyLength ≤ maxBodyLength := Nat.min_le_right _ _
  have hl := length_payload_frame s n content
  have hlen : headerLength ≤ (s.frame n content).length := Nat.le_add_right _ _
  have htake : (r.copyIn (s.frame n content).payload).data.bytes.take headerLength
      = (s.frame n content).encodedHeader.bytes.take headerLength := by
    rw [copyIn, Buffer.take_store (by omega) (by rw [hl, length, hb]; omega), payload,
      List.take_take, Nat.min_eq_left hlen, frame, take_encodeHeader, encodedHeader_encodeHeader]
  obtain ⟨rest, hrest⟩ := take_encodedHeader (m := s.frame n content) (by rw [hb]; exact hle)
  rw [headerValue, htake, hrest, hb, atoi_sprintfD (by simp only [intMax, maxBodyLength]; omega),
    ofInt_of_le z hle]

/-- What the receiver finds in its body is what the sender has in its own. -/
theorem take_body_copyIn (s r : Message) (n : Nat) (content : List UInt8) :
    (r.copyIn (s.frame n content).payload).body.take (min n maxBodyLength) =
      (s.frame n content).body.take (min n maxBodyLength) := by
  have hb := frame_bodyLength s n content
  have hl := length_payload_frame s n content
  have hlen : (s.frame n content).length = headerLength + min n maxBodyLength := by
    rw [length, hb]
  rw [body, body, List.take_drop, List.take_drop, ← hlen, copyIn,
    Buffer.take_store (by omega) (by rw [hl, hlen]; omega), payload, List.take_take, Nat.min_self]

/-- **Framing round-trips.**  Whatever the sender's and the receiver's objects
held before, and whatever length the sender asked for, the receiver accepts the
header, ends up with the sender's length, clamped, and with the sender's body;
neither conversion of the header touches a body byte. -/
theorem framing_roundTrip (z : SizeT) (s r : Message) (n : Nat) (content : List UInt8) :
    let sent := s.frame n content
    let copied := r.copyIn sent.payload
    let decoded := copied.decodeHeader z
    decoded.1 = true ∧
      decoded.2.bodyLength = min n maxBodyLength ∧
      decoded.2.length = sent.length ∧
      decoded.2.body.take decoded.2.bodyLength = sent.body.take sent.bodyLength ∧
      sent.body = ((s.setBodyLength n).write headerLength content).body ∧
      decoded.2.body = copied.body := by
  have hv := headerValue_copyIn_frame z s r n content
  have hd := decodeHeader_of_le hv (Nat.min_le_right _ _)
  have hb := frame_bodyLength s n content
  refine ⟨by rw [hd], by rw [hd], by rw [hd, length, length, hb], ?_, body_encodeHeader _,
    body_decodeHeader z _⟩
  rw [body_decodeHeader, hd, hb]
  exact take_body_copyIn s r n content

end Message

end CppExamples.AsyncUdp
