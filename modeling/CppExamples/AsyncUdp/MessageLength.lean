import CppExamples.AsyncUdp.Client

/-!
# The length of a message

Four places assign `body_length_`: the constructor, the setter, `decode_header`
and, through the setter, `handle_receive_from`.  One of them takes the number
from untrusted text, by way of a signed `int`; another subtracts.  Whatever the
order of the calls and whatever bytes are stored in between, the length stays
one that `data_` can hold, so that no send reads behind the array.

An object is what a sequence of operations makes of a new one (`built`); these
are the same objects as the reachable ones of the class.
-/

namespace CppExamples.AsyncUdp

open CppExamples.Lib

namespace Message

/-- What can be done to an object from the outside. -/
inductive Operation where
  | bodyLength (length : Nat)
  | encodeHeader
  | decodeHeader
  | /-- `decode_header` where `atoi` yields `v`, as it may if the number in the
    header does not fit an `int`. -/
    decodeHeaderAs (v : Int)
  | /-- Bytes are stored through `data()` or `body()`. -/
    store (off : Nat) (bytes : List UInt8)
  | /-- The update of the length in `handle_receive_from`. -/
    received (bytesRecvd : Nat)

/-- The object after `decode_header`, if `atoi` yields `v`. -/
def decodedAs (z : SizeT) (m : Message) (v : Int) : Message :=
  if z.ofInt v > maxBodyLength then { m with bodyLength := 0 }
  else { m with bodyLength := z.ofInt v }

/-- The update of the length in `handle_receive_from`. -/
def receivedLength (m : Message) (bytesRecvd : Nat) : Message :=
  if bytesRecvd > headerLength then m.setBodyLength (bytesRecvd - headerLength) else m

def Operation.apply (z : SizeT) (m : Message) : Operation → Message
  | .bodyLength n => m.setBodyLength n
  | .encodeHeader => m.encodeHeader
  | .decodeHeader => (m.decodeHeader z).2
  | .decodeHeaderAs v => m.decodedAs z v
  | .store off bytes => m.write off bytes
  | .received bytesRecvd => m.receivedLength bytesRecvd

/-- What a sequence of operations makes of a new object. -/
def built (z : SizeT) (uninit : Buffer (headerLength + maxBodyLength)) (ops : List Operation) :
    Message := ops.foldl (Operation.apply z) ⟨uninit, 0⟩

variable {z : SizeT} {m : Message}

theorem Reachable.receivedLength (h : m.Reachable z) (n : Nat) :
    (m.receivedLength n).Reachable z := by
  unfold Message.receivedLength
  split
  · exact h.setBodyLength _
  · exact h

/-- The number that `decode_header` itself goes by. -/
theorem snd_decodeHeader (z : SizeT) (m : Message) :
    (m.decodeHeader z).2 = m.decodedAs z (atoi (m.data.bytes.take headerLength)) := by
  rw [decodeHeader_eq, decodedAs, headerValue]
  split <;> rfl

/-- Whatever number `atoi` comes up with, decoding does no more than the setter. -/
theorem Reachable.decodedAs (h : m.Reachable z) (v : Int) : (m.decodedAs z v).Reachable z := by
  unfold Message.decodedAs
  split
  · exact h.setBodyLength 0
  · rename_i hv
    have := h.setBodyLength (z.ofInt v)
    rwa [Message.setBodyLength, if_neg hv] at this

/-- Every operation leads from objects of the class to objects of the class. -/
theorem Reachable.apply (h : m.Reachable z) (op : Operation) : (op.apply z m).Reachable z := by
  cases op with
  | bodyLength n => exact h.setBodyLength n
  | encodeHeader => exact h.encodeHeader
  | decodeHeader => exact h.decodeHeader
  | decodeHeaderAs v => exact h.decodedAs v
  | store off bytes => exact h.write off bytes
  | received n => exact h.receivedLength n

theorem reachable_built (uninit : Buffer (headerLength + maxBodyLength)) (ops : List Operation) :
    (built z uninit ops).Reachable z := by
  suffices hall : ∀ m : Message, m.Reachable z → (ops.foldl (Operation.apply z) m).Reachable z from
    hall _ (.constructor uninit)
  induction ops with
  | nil => exact fun _ h ↦ h
  | cons op ops ih => exact fun m h ↦ ih _ (h.apply op)

/-- One more operation. -/
theorem exists_built_apply (op : Operation) (h : ∃ uninit ops, m = built z uninit ops) :
    ∃ uninit ops, op.apply z m = built z uninit ops := by
  obtain ⟨uninit, ops, rfl⟩ := h
  refine ⟨uninit, ops ++ [op], ?_⟩
  rw [built, built, List.foldl_append]
  rfl

/-- The objects of the class are those that sequences of operations build. -/
theorem reachable_iff_built : m.Reachable z ↔ ∃ uninit ops, m = built z uninit ops := by
  constructor
  · intro h
    induction h with
    | constructor data => exact ⟨data, [], rfl⟩
    | setBodyLength n _ ih => exact exists_built_apply (.bodyLength n) ih
    | decodeHeader _ ih => exact exists_built_apply .decodeHeader ih
    | encodeHeader _ ih => exact exists_built_apply .encodeHeader ih
    | write off bytes _ ih => exact exists_built_apply (.store off bytes) ih
  · rintro ⟨uninit, ops, rfl⟩
    exact reachable_built uninit ops

/-- The buffer `(data(), length())` lies inside `data_`. -/
theorem Reachable.length_le (h : m.Reachable z) : m.length ≤ m.data.bytes.length := by
  rw [Buffer.length_bytes]
  exact Nat.add_le_add_left h.bodyLength_le _

end Message

namespace Client

/-- The messages that a program posts are objects of the class. -/
def PostsMessages (z : SizeT) (_ : Client) (e : ClientEvent) : Prop :=
  ∀ msg, e = .sendMessage msg → ∃ uninit ops, msg = Message.built z uninit ops

/-- The messages a client holds are objects of the class, and what it sends are
the buffers of such objects. -/
structure HoldsMessages (z : SizeT) (w : Client) : Prop where
  data : w.data.Reachable z
  posted : ∀ m ∈ w.posted, m.Reachable z
  queue : ∀ m ∈ w.sendMsgQueue, m.Reachable z
  sent : ∀ c ∈ w.sendCalls, ∃ m : Message, m.Reachable z ∧ c.payload = m.payload

namespace HoldsMessages

variable {z : SizeT} {w : Client}

theorem asyncSendTo (h : w.HoldsMessages z) {m : Message} (hm : m.Reachable z) :
    (w.asyncSendTo m).HoldsMessages z := by
  refine ⟨h.data, h.posted, h.queue, fun c hc ↦ ?_⟩
  rcases List.mem_append.mp hc with hc | hc
  · exact h.sent c hc
  · rw [List.mem_singleton.mp hc]
    exact ⟨m, hm, rfl⟩

/-- A datagram only puts bytes into `data_`. -/
theorem arrive (h : w.HoldsMessages z) (i : Nat) (d : Datagram) :
    (w.arrive i d).HoldsMessages z := by
  unfold Client.arrive
  split
  · exact ⟨h.data.write 0 d.bytes, h.posted, h.queue, h.sent⟩
  · exact h

theorem arriveAll (h : w.HoldsMessages z) (ds : List (Nat × Datagram)) :
    (w.arriveAll ds).HoldsMessages z :=
  arriveAll_induction h fun _ hv a _ ↦ hv.arrive a.1 a.2

/-- `handle_receive_from` updates the length whatever the byte count. -/
theorem handleReceiveFrom (h : w.HoldsMessages z) (n : Nat) :
    (w.handleReceiveFrom false n).HoldsMessages z := by
  have hd := h.data.receivedLength n
  unfold Message.receivedLength at hd
  simp only [Client.handleReceiveFrom, Bool.not_false, if_true]
  split
  · rename_i hn
    rw [if_pos hn] at hd
    exact ⟨hd, h.posted, h.queue, h.sent⟩
  · exact ⟨h.data, h.posted, h.queue, h.sent⟩

/-- Every step keeps to objects of the class, if the posts do. -/
theorem step (h : w.HoldsMessages z) {e : ClientEvent} (he : PostsMessages z w e) {w' : Client}
    (hs : w.step e = some w') : w'.HoldsMessages z := by
  cases turn_of_step hs with
  | sendMessage m =>
      refine ⟨h.data, fun m' hm' ↦ ?_, h.queue, h.sent⟩
      rcases List.mem_append.mp hm' with hm' | hm'
      · exact h.posted m' hm'
      · rw [List.mem_singleton.mp hm']
        exact Message.reachable_iff_built.mpr (he m rfl)
  | @doWrite msg front posted queue hp hq =>
      have hmsg : msg.Reachable z := h.posted msg (by simp [hp])
      have hv : HoldsMessages z { w with posted := posted, sendMsgQueue := front :: queue } := by
        refine ⟨h.data, fun m hm ↦ h.posted m (by simp [hp, hm]), fun m hm ↦ ?_, h.sent⟩
        rcases List.mem_append.mp (hq.symm ▸ hm) with hm | hm
        · exact h.queue m hm
        · rw [List.mem_singleton.mp hm]
          exact hmsg
      have hw := hv.asyncSendTo hmsg
      exact ⟨hw.data, hw.posted, hw.queue, hw.sent⟩
  | sendError hc => exact ⟨h.data, h.posted, h.queue, h.sent⟩
  | @sentLast i c during msg hc hq v hv =>
      have hv : v.recvMessage.HoldsMessages z := by
        rw [hv]
        exact ⟨h.data, h.posted, by simp [recvMessage, print], h.sent⟩
      exact hv.arriveAll during
  | @sentNext i c during msg front queue hc hq v hv =>
      have hqueue : ∀ m ∈ front :: queue, m.Reachable z := fun m hm ↦
        h.queue m (hq ▸ List.mem_cons_of_mem _ hm)
      have hv : v.recvMessage.HoldsMessages z := by
        rw [hv]
        exact ⟨h.data, h.posted, hqueue, h.sent⟩
      exact (hv.arriveAll during).asyncSendTo (hqueue front (by simp))
  | arrive i d => exact h.arrive i d
  | receiveError hr => exact ⟨h.data, h.posted, h.queue, h.sent⟩
  | @received i r hr =>
      have hv : HoldsMessages z { w with receives := w.receives.eraseIdx i } :=
        ⟨h.data, h.posted, h.queue, h.sent⟩
      exact hv.handleReceiveFrom _

end HoldsMessages

variable {z : SizeT} {server : Endpoint} {w : Client}

end Client

end CppExamples.AsyncUdp
