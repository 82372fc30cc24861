import CppExamples.Lib.CString
import CppExamples.Lib.Loop
import CppExamples.WinSock.Network

/-!
# The reverse server

`Server.cpp`: receive a datagram, build a `std::string` out of the buffer,
reverse it, send it back, for ever.  The buffer is the same in every pass, and
the exceptions of `RecvFrom` and `SendTo` are caught outside of the loop.

The string is built from a `char` pointer, so it ends at the first zero.  That is
the zero that `RecvFrom` has stored, if the datagram has none; what earlier
datagrams have left in the buffer is behind it.
-/

namespace CppExamples.WinSock

open CppExamples.Lib CppExamples.AsyncUdp

/-- The size of `buffer`. -/
def bufferSize : Nat := 100

/-- What is left from pass to pass: the buffer, and the history of the calls of
`SendTo`. -/
structure ReverseServer where
  buffer : Buffer bufferSize
  sends : List SendTo

/-- The outcomes of the blocking calls of one pass. -/
structure Round where
  arrival : Arrival
  /-- The error of `sendto`, if it has one. -/
  sendError : Option Nat

namespace ReverseServer

/-- The body of the loop in `main`. -/
def body (w : ReverseServer) (r : Round) : Option (Pass ReverseServer SystemError) :=
  let (stores, result) := UDPSocket.recvFrom bufferSize r.arrival
  match w.buffer.putAll stores with
  | none => none
  | some buffer => match result with
      | .error e => some (.left { w with buffer := buffer } e)
      | .ok add =>
          let input := cstr buffer.bytes
          let w := { buffer := buffer, sends := w.sends ++ [⟨add, input.reverse⟩] }
          match UDPSocket.sendTo r.sendError with
          | .error e => some (.left w e)
          | .ok () => some (.again w)

/-- The state before the loop; `uninit` is what `buffer` happens to hold. -/
def start (uninit : Buffer bufferSize) : ReverseServer := ⟨uninit, []⟩

/-- `main`, from the loop on. -/
def main (uninit : Buffer bufferSize) (rounds : List Round) :
    Option (Pass ReverseServer SystemError) := loop body (start uninit) rounds

variable {w : ReverseServer} {d : Datagram}

/-- The C string in a buffer that a datagram has been received into. -/
theorem cstr_store {n : Nat} {b : Buffer n} {bytes : List UInt8} (h : bytes.length < n) :
    cstr (b.store (bytes ++ [0])).bytes = cstr bytes := by
  have hlen : (bytes ++ [0]).length ≤ n := by
    rw [List.length_append, List.length_singleton]
    omega
  rw [Buffer.bytes_store_of_le hlen, List.append_assoc]
  exact cstr_append_cons_zero _ _

/-- A pass of the loop on a datagram that leaves room for the zero. -/
theorem body_datagram (h : d.bytes.length < bufferSize) (sendError : Option Nat) :
    ∃ buffer, w.body ⟨.datagram d, sendError⟩ =
      let w' : ReverseServer := ⟨buffer, w.sends ++ [⟨d.source, (cstr d.bytes).reverse⟩]⟩
      some (match UDPSocket.sendTo sendError with
        | .error e => .left w' e
        | .ok () => .again w') := by
  refine ⟨w.buffer.store (d.bytes ++ [0]), ?_⟩
  have hstores := UDPSocket.putAll_recvFrom w.buffer h
  rw [UDPSocket.recvFrom_datagram h.le] at hstores
  simp only [body, UDPSocket.recvFrom_datagram h.le, hstores, cstr_store h]
  cases sendError <;> rfl

/-- The reverse of a C string is one. -/
theorem cstr_reverse_cstr (s : List UInt8) : cstr (cstr s).reverse = (cstr s).reverse := by
  rw [cstr_eq_self_iff]
  intro c hc
  exact ne_zero_of_mem_cstr (List.mem_reverse.mp hc)

theorem length_cstr_le (s : List UInt8) : (cstr s).length ≤ s.length :=
  (List.takeWhile_prefix _).length_le

/-- **A pass sends back what is in front of the first zero, reversed.**  For every
datagram that is shorter than the buffer, whatever the buffer held before, a pass
makes one call of `SendTo`, to the source of the datagram, with the bytes in
front of its first zero in reverse order; and a second pass, of any server, on
that reply gives these bytes back.  They are all the bytes of the datagram
exactly if there is no zero among them. -/
theorem body_reverses (h : d.bytes.length < bufferSize) (v : ReverseServer) (source : Endpoint) :
    (∃ w', w.body ⟨.datagram d, none⟩ = some (.again w') ∧
      w'.sends = w.sends ++ [⟨d.source, (cstr d.bytes).reverse⟩]) ∧
    (∃ v', v.body ⟨.datagram ⟨source, (cstr d.bytes).reverse⟩, none⟩ = some (.again v') ∧
      v'.sends = v.sends ++ [⟨source, cstr d.bytes⟩]) ∧
    ((cstr d.bytes).reverse = d.bytes.reverse ↔ ∀ c ∈ d.bytes, c ≠ 0) ∧
    (cstr d.bytes = d.bytes ↔ ∀ c ∈ d.bytes, c ≠ 0) := by
  refine ⟨?_, ?_, ?_, cstr_eq_self_iff⟩
  · obtain ⟨buffer, hb⟩ := body_datagram (w := w) h none
    exact ⟨_, hb, rfl⟩
  · have hback : (⟨source, (cstr d.bytes).reverse⟩ : Datagram).bytes.length < bufferSize := by
      rw [List.length_reverse]
      exact (length_cstr_le _).trans_lt h
    obtain ⟨buffer, hb⟩ := body_datagram (w := v) hback none
    refine ⟨_, hb, ?_⟩
    rw [cstr_reverse_cstr, List.reverse_reverse]
  · rw [List.reverse_inj]
    exact cstr_eq_self_iff

/-- A server that has received nothing yet. -/
def freshServer : ReverseServer := start (Buffer.fill _ 0)

/-- The bytes `A`, zero, `B`. -/
def withZero : Datagram := ⟨⟨0x7f000001, 4000⟩, [65, 0, 66]⟩

theorem withZero_body :
    (∃ w', freshServer.body ⟨.datagram withZero, none⟩ = some (.again w') ∧
      w'.sends = [⟨withZero.source, [65]⟩]) ∧
    (∃ v', freshServer.body ⟨.datagram ⟨withZero.source, [65]⟩, none⟩ = some (.again v') ∧
      v'.sends = [⟨withZero.source, [65]⟩]) ∧
    ([65] = withZero.bytes.reverse ↔ ∀ c ∈ withZero.bytes, c ≠ 0) ∧
    ([65] = withZero.bytes ↔ ∀ c ∈ withZero.bytes, c ≠ 0) :=
  body_reverses (w := freshServer) (d := withZero) (by decide) freshServer withZero.source

/-- The reply to that datagram is `A` alone. -/
theorem withZero_not_reversed :
    ¬ ∀ (w : ReverseServer) (d : Datagram), d.bytes.length < bufferSize →
      ∃ w', w.body ⟨.datagram d, none⟩ = some (.again w') ∧
        w'.sends = w.sends ++ [⟨d.source, d.bytes.reverse⟩] := by
  intro h
  obtain ⟨w', hw, hs⟩ := h freshServer withZero (by decide)
  obtain ⟨buffer, hb⟩ := body_datagram (w := freshServer) (d := withZero) (by decide) none
  rw [hb] at hw
  cases hw
  have hs : ([⟨withZero.source, [65]⟩] : List SendTo) = [⟨withZero.source, [66, 0, 65]⟩] := hs
  exact absurd hs (by decide)

end ReverseServer

/-! ## Staying in the loop -/

/-- A datagram that fills the buffer leaves no room for the zero. -/
def Round.Fits (r : Round) : Prop :=
  ∀ d, r.arrival = .datagram d → d.bytes.length ≠ bufferSize

/-- The receive delivers a datagram, and the send of the reply succeeds. -/
def Round.Succeeds (r : Round) : Prop :=
  (r.arrival.whole bufferSize).isSome = true ∧ r.sendError = none

namespace ReverseServer

variable {w : ReverseServer} {r : Round}

/-- What a pass can come to. -/
inductive Outcome (w : ReverseServer) (r : Round) : Pass ReverseServer SystemError → Prop where
  | /-- The receive fails. -/
    failed (buffer : Buffer bufferSize) (e : SystemError)
      (hr : r.arrival.whole bufferSize = none) : Outcome w r (.left ⟨buffer, w.sends⟩ e)
  | /-- The send of the reply fails. -/
    sendFailed (buffer : Buffer bufferSize) (d : Datagram) (code : Nat)
      (hr : r.arrival.whole bufferSize = some d) (hs : r.sendError = some code) :
      Outcome w r
        (.left ⟨buffer, w.sends ++ [⟨d.source, (cstr d.bytes).reverse⟩]⟩ ⟨code, "sendto failed"⟩)
  | answered (buffer : Buffer bufferSize) (d : Datagram)
      (hr : r.arrival.whole bufferSize = some d) (hs : r.sendError = none) :
      Outcome w r (.again ⟨buffer, w.sends ++ [⟨d.source, (cstr d.bytes).reverse⟩]⟩)

/-- The first bytes of a datagram that is too long still go into the buffer. -/
theorem exists_putAll (b : Buffer bufferSize) (bytes : List UInt8) :
    ∃ buffer, b.putAll (Buffer.storesAt 0 (bytes.take bufferSize)) = some buffer := by
  refine ⟨_, Buffer.putAll_storesAt ?_⟩
  rw [Nat.zero_add, List.length_take]
  exact Nat.min_le_left _ _

/-- **Every pass has an outcome**, unless its datagram fills the buffer. -/
theorem outcome_of_fits (h : r.Fits) : ∃ p, w.body r = some p ∧ w.Outcome r p := by
  obtain ⟨arrival, sendError⟩ := r
  cases arrival with
  | failure error =>
      exact ⟨.left ⟨w.buffer, w.sends⟩ ⟨error, "recvfrom failed"⟩, rfl, .failed _ _ rfl⟩
  | datagram d =>
      have hne : d.bytes.length ≠ bufferSize := h d rfl
      rcases Nat.lt_or_gt_of_ne hne with hlt | hgt
      · have hwhole : (Arrival.datagram d).whole bufferSize = some d := if_pos hlt.le
        obtain ⟨buffer, hb⟩ := body_datagram (w := w) hlt sendError
        refine ⟨_, hb, ?_⟩
        cases sendError with
        | none => exact .answered buffer d hwhole rfl
        | some code => exact .sendFailed buffer d code hwhole rfl
      · have hwhole : (Arrival.datagram d).whole bufferSize = none := if_neg (by omega)
        obtain ⟨buffer, hb⟩ := exists_putAll w.buffer d.bytes
        refine ⟨.left ⟨buffer, w.sends⟩ ⟨WSAEMSGSIZE, "recvfrom failed"⟩, ?_, .failed _ _ hwhole⟩
        simp only [body, UDPSocket.recvFrom, recvfrom, if_neg (Nat.not_le_of_lt hgt), hb]

/-- A pass whose datagram fills the buffer is undefined. -/
theorem body_of_full {d : Datagram} (h : d.bytes.length = bufferSize) (sendError : Option Nat) :
    w.body ⟨.datagram d, sendError⟩ = none := by
  have hput : w.buffer.putAll
      (Buffer.storesAt 0 d.bytes ++ [(d.bytes.length, 0)]) = none := by
    rw [Buffer.putAll_append, Buffer.putAll_storesAt (by omega), Option.bind_some]
    simp [Buffer.putAll, Buffer.put, h]
  simp only [body, UDPSocket.recvFrom_datagram h.le, hput]

theorem fits_of_body {p : Pass ReverseServer SystemError} (hp : w.body r = some p) : r.Fits := by
  obtain ⟨arrival, sendError⟩ := r
  rintro d rfl hfull
  rw [body_of_full hfull] at hp
  cases hp

/-- A pass leads to the next one exactly if both of its calls succeed. -/
theorem exists_again_iff :
    (∃ v, w.body r = some (.again v)) ↔ r.Fits ∧ r.Succeeds := by
  constructor
  · rintro ⟨v, hv⟩
    have hfits := fits_of_body hv
    obtain ⟨p, hp, ho⟩ := outcome_of_fits (w := w) hfits
    rw [hv] at hp
    cases hp
    cases ho with
    | answered buffer d hr hs => exact ⟨hfits, by rw [hr]; rfl, hs⟩
  · rintro ⟨hfits, hwhole, hsend⟩
    obtain ⟨p, hp, ho⟩ := outcome_of_fits (w := w) hfits
    cases ho with
    | failed buffer e hr => rw [hr] at hwhole; cases hwhole
    | sendFailed buffer d code hr hs => rw [hs] at hsend; cases hsend
    | answered buffer d hr hs => exact ⟨_, hp⟩

/-- The replies so far are for the datagrams that the receives have delivered. -/
def Answered (served : List Round) (w : ReverseServer) : Prop :=
  w.sends.map SendTo.dest =
    (served.filterMap fun r ↦ r.arrival.whole bufferSize).map Datagram.source

/-- Every pass answers the datagram it gets, however it ends. -/
theorem Answered.step {served : List Round} {p : Pass ReverseServer SystemError}
    (h : Answered served w) (hp : w.body r = some p) : Answered (served ++ [r]) p.state := by
  obtain ⟨p', hp', ho⟩ := outcome_of_fits (w := w) (fits_of_body hp)
  rw [hp] at hp'
  cases hp'
  unfold Answered at h ⊢
  rw [List.filterMap_append, List.map_append, ← h]
  cases ho with
  | failed buffer e hr => simp [Pass.state, hr]
  | sendFailed buffer d code hr hs => simp [Pass.state, hr]
  | answered buffer d hr hs => simp [Pass.state, hr]

/-- **The reverse server stays in its loop** exactly as long as every receive
delivers and every reply is sent.  Whether it is still in its loop or has left
it, the datagrams that have been delivered have been answered once each. -/
theorem main_serves (uninit : Buffer bufferSize) {rounds : List Round}
    (h : ∀ r ∈ rounds, r.Fits) : ∃ p, main uninit rounds = some p ∧
      Answered (taken body (start uninit) rounds) p.state ∧
      ((∃ w, p = .again w) ↔ ∀ r ∈ rounds, r.Succeeds) := by
  have hdefined (w : ReverseServer) (r : Round) (hr : r ∈ rounds) : ∃ p, w.body r = some p :=
    (outcome_of_fits (h r hr)).imp fun _ hp ↦ hp.1
  obtain ⟨p, hp, hanswered, hiff⟩ := loop_serves (I := Answered) (s := start uninit) rfl hdefined
    (fun _ _ _ _ hi hb ↦ hi.step hb) (fun _ _ ↦ exists_again_iff)
  refine ⟨p, hp, hanswered, hiff.trans ?_⟩
  constructor
  · intro hall r hr
    exact (hall r hr).2
  · intro hall r hr
    exact ⟨h r hr, hall r hr⟩

end ReverseServer

end CppExamples.WinSock
