import CppExamples.AsyncUdp.Echo

/-!
# What the echo server echoes

Two things come between a datagram and its echo.  `handle_send_to` starts the
receive first and clears the buffer afterwards, so a datagram that is stored
between the two comes back as zeros (the constructor does the two in the other
order).  And the buffer of the server is smaller than the messages of the
client: what does not fit is cut, or reported as an error.

The server echoes exactly the bytes of every datagram that neither happens to.
-/

namespace CppExamples.AsyncUdp

open CppExamples.Lib

/-- The datagrams an event brings, with the operations that store them. -/
def ServerEvent.arrivals : ServerEvent → List (Nat × Datagram)
  | .arrive i d => [(i, d)]
  | .receiveDone _ _ => []
  | .sendDone _ _ during => during

/-- The datagrams are stored inside `handle_send_to`, in front of its `memset`. -/
def ServerEvent.beforeClear : ServerEvent → Bool
  | .sendDone _ _ _ => true
  | _ => false

/-- All datagrams that arrive fit the buffer, and none is empty. -/
def Fits (_ : Server) (e : ServerEvent) : Prop :=
  ∀ a ∈ e.arrivals, a.2.bytes ≠ [] ∧ a.2.bytes.length ≤ UdpServer.maxLength

/-- What is stored in front of the `memset` consists of zeros. -/
def Unharmed (_ : Server) (e : ServerEvent) : Prop :=
  e.beforeClear = true → ∀ a ∈ e.arrivals, ∀ b ∈ a.2.bytes, b = 0

/-- An answer of exactly the bytes that were sent. -/
def sameBytes (d : Datagram) (payload : List UInt8) : Bool := payload = d.bytes

namespace Server

variable {s s' : Server} {p : Oversize}

/-- Every send so far answers the receive in front of it, with exactly the bytes
of its datagram. -/
def EchoesExactly (s : Server) : Prop := ∃ q, Phase.after sameBytes s.actions = some q

/-- What fits is received whole. -/
theorem received_eq_bytes {d : Datagram} (h : d.bytes.length ≤ UdpServer.maxLength) :
    d.received = d.bytes := List.take_of_length_le h

theorem received_eq_bytes_iff {d : Datagram} :
    d.received = d.bytes ↔ d.bytes.length ≤ UdpServer.maxLength := by
  rw [Datagram.received, List.take_eq_self_iff]

/-- Zeros are an exact answer to zeros that fit. -/
theorem zeros_eq_bytes_iff {d : Datagram} :
    List.replicate d.received.length 0 = d.bytes ↔
      d.bytes.length ≤ UdpServer.maxLength ∧ ∀ b ∈ d.bytes, b = 0 := by
  rw [eq_comm, List.eq_replicate_iff]
  refine and_congr_left' ?_
  simp only [Datagram.received, List.length_take]
  omega

/-! ## Every run -/

theorem keeps_sameBytes {e : ServerEvent} (hf : Fits s e) (hu : Unharmed s e) :
    Keeps sameBytes e := by
  cases e with
  | arrive i d =>
      exact decide_eq_true (received_eq_bytes (hf (i, d) (by simp [ServerEvent.arrivals])).2)
  | receiveDone i error => trivial
  | sendDone i error during =>
      exact fun a ha ↦ decide_eq_true (zeros_eq_bytes_iff.mpr ⟨(hf a ha).2, hu rfl a ha⟩)

/-- A receive that has stored a datagram which is not empty and can succeed,
does; what the server then sends is the front of the buffer. -/
theorem exists_echo {d : Datagram} (hp : s.pending = [.receive (some d)])
    (hv : p.delivers d = true) (he : d.bytes ≠ []) :
    s.enabled p (.receiveDone 0 false) = true ∧
      ∃ s', s.step (.receiveDone 0 false) = some s' ∧ s'.actions = s.actions ++
        [.handleReceiveFrom (some d),
          .asyncSendTo (s.data.bytes.take d.received.length) s.senderEndpoint] := by
  have hen : s.enabled p (.receiveDone 0 false) = true := by simp [enabled, hp, hv]
  obtain ⟨s', hs⟩ : ∃ s', s.step (.receiveDone 0 false) = some s' := by simp [step, hp]
  refine ⟨hen, s', hs, ?_⟩
  cases turn_of_step hp hen hs with
  | empty d' hp' hb _ _ =>
      rw [hp] at hp'
      cases hp'
      exact absurd hb he
  | echo d' payload hp' _ _ hl _ ha =>
      rw [hp] at hp'
      cases hp'
      rw [ha, hl]

/-- **The server echoes exactly what it received, except what it clears.**  In
every run in which nothing but zeros is stored in front of the `memset`, every
send carries exactly the bytes of the datagram whose receive has just completed;
and if the next event does store something else there, then the send that
answers it does not carry its bytes. -/
theorem echoesExactly_of_unharmed
    (h : (system p).Reachable (fun s e ↦ Fits s e ∧ Unharmed s e) s) :
    s.EchoesExactly ∧ ∀ e s', s.enabled p e = true → Fits s e → s.step e = some s' →
      ¬ Unharmed s e → s'.enabled p (.receiveDone 0 false) = true ∧
        ∃ s'', s'.step (.receiveDone 0 false) = some s'' ∧ ¬ s''.EchoesExactly := by
  obtain ⟨op, hs⟩ := serving_of_keeps (fun _ _ hg ↦ keeps_sameBytes hg.1 hg.2) h
  refine ⟨⟨_, hs.after⟩, fun e s' he hf hst hu ↦ ?_⟩
  -- only a datagram that is stored in front of the `memset` can be harmed
  obtain ⟨hb, a, hmem, b, hbm, hb0⟩ : e.beforeClear = true ∧
      ∃ a ∈ e.arrivals, ∃ b ∈ a.2.bytes, b ≠ 0 := by
    simpa [Unharmed] using hu
  cases turn_of_step hs.pending he hst with
  | overtaken payload dest error d hp hp' hsrc hd ha =>
      obtain rfl : a = (0, d) := by simpa [ServerEvent.arrivals] using hmem
      obtain ⟨hnil, hfit⟩ := hf (0, d) hmem
      have hv : p.delivers d = true := by cases p <;> simp [Oversize.delivers, hfit]
      obtain ⟨hen, s'', hst'', ha''⟩ := exists_echo hp' hv hnil
      refine ⟨hen, s'', hst'', ?_⟩
      rintro ⟨q, hq⟩
      have hafter : Phase.after sameBytes s'.actions = some .listening := by
        rw [ha, Phase.after_append hs.after, (List.cons.inj (hs.pending.symm.trans hp)).1]
        rfl
      rw [ha'', Phase.after_append hafter] at hq
      -- the automaton takes the send only if the cleared buffer is the datagram
      have hzero : s'.data.bytes.take d.received.length = d.bytes := by
        by_contra hc
        simp [Phase.next, hnil, sameBytes, hc] at hq
      rw [hd, Buffer.take_fill (length_received_le d)] at hzero
      exact hb0 ((zeros_eq_bytes_iff.mp hzero).2 b hbm)
  | sent payload dest error hp hp' ha => cases hmem
  | arrive d hp hp' hsrc hd ha => cases hb
  | failed stored hp hp' ha => cases hb
  | empty d hp hnil hp' ha => cases hb
  | echo d payload hp hv hnil hl hp' ha => cases hb

/-- A client of the server. -/
def someClient : Endpoint := ⟨0x7f000001, 4000⟩

/-- A server that has just been constructed. -/
def freshServer : Server := udpServer (Buffer.fill _ 0)

/-- A run can start with a fresh server, whatever its guard. -/
theorem freshServer_reachable {G : Server → ServerEvent → Prop} :
    (system p).Reachable G freshServer := .init ⟨_, rfl⟩

/-- One datagram is received and echoed, and a second one arrives inside the
handler of the echo. -/
def overtaken : List ServerEvent :=
  [.arrive 0 ⟨someClient, [65]⟩, .receiveDone 0 false,
    .sendDone 0 false [(0, ⟨someClient, [66]⟩)], .receiveDone 0 false]

/-- A test for datagrams that are not empty and fit the buffer. -/
def fitsTest (_ : Server) (e : ServerEvent) : Bool :=
  e.arrivals.all fun a ↦ !a.2.bytes.isEmpty && decide (a.2.bytes.length ≤ UdpServer.maxLength)

theorem fits_of_test (s : Server) (e : ServerEvent) (h : fitsTest s e = true) : Fits s e := by
  intro a ha
  have := List.all_eq_true.mp h a ha
  simpa using this

/-- A test for runs in which nothing but zeros is cleared. -/
def unharmedTest (s : Server) (e : ServerEvent) : Bool :=
  fitsTest s e && (!e.beforeClear || e.arrivals.all fun a ↦ a.2.bytes.all (· == 0))

theorem unharmed_of_test (s : Server) (e : ServerEvent) (h : unharmedTest s e = true) :
    Fits s e ∧ Unharmed s e := by
  obtain ⟨hf, hu⟩ := Bool.and_eq_true_iff.mp h
  refine ⟨fits_of_test s e hf, fun hb a ha b hmem ↦ ?_⟩
  rw [hb, Bool.not_true, Bool.false_or] at hu
  exact eq_of_beq (List.all_eq_true.mp (List.all_eq_true.mp hu a ha) b hmem)

/-- The datagram that arrives inside the handler of the echo is a zero, so that
clearing the buffer does not change it. -/
theorem zeroEcho_exact : ∃ s : Server, s.actions.length = 7 ∧ s.EchoesExactly := by
  obtain ⟨s, hs, hl⟩ : ∃ s, (system .truncate).Reachable (fun s e ↦ Fits s e ∧ Unharmed s e) s ∧
      s.actions.length = 7 :=
    System.reachable_of_exec unharmed_of_test freshServer_reachable
      [.arrive 0 ⟨someClient, [65]⟩, .receiveDone 0 false,
        .sendDone 0 false [(0, ⟨someClient, [0]⟩)], .receiveDone 0 false] rfl
  exact ⟨s, hl, (echoesExactly_of_unharmed hs).1⟩

/-- The second datagram comes back as zeros. -/
theorem overtaken_not_echoed :
    ¬ ∀ (p : Oversize) (s : Server), (system p).Reachable Fits s → s.EchoesExactly := by
  intro h
  obtain ⟨s, hs, hl⟩ : ∃ s, (system .truncate).Reachable Fits s ∧
      Phase.after sameBytes s.actions = none :=
    System.reachable_of_exec fits_of_test freshServer_reachable overtaken rfl
  obtain ⟨q, hq⟩ := h .truncate s hs
  rw [hl] at hq
  cases hq

/-! ## The messages of the client -/

/-- When the receive that has stored `d` completes, the server sends exactly the
bytes of `d` back to their source. -/
def EchoesWhole (p : Oversize) (s : Server) (d : Datagram) : Prop :=
  ∃ s', s.enabled p (.receiveDone 0 (!p.delivers d)) = true ∧
    s.step (.receiveDone 0 (!p.delivers d)) = some s' ∧
      s'.actions = s.actions ++ [.handleReceiveFrom (some d), .asyncSendTo d.bytes d.source]

/-- The echo is whole exactly if the datagram fits and is still in the buffer. -/
theorem echoesWhole_iff {d : Datagram} (hp : s.pending = [.receive (some d)])
    (hs : s.senderEndpoint = d.source) (hne : d.bytes ≠ []) :
    s.EchoesWhole p d ↔
      d.bytes.length ≤ UdpServer.maxLength ∧
        s.data.bytes.take d.received.length = d.bytes := by
  have hfit : s.data.bytes.take d.received.length = d.bytes →
      d.bytes.length ≤ UdpServer.maxLength := by
    intro h
    calc d.bytes.length = (s.data.bytes.take d.received.length).length := by rw [h]
      _ ≤ d.received.length := List.length_take_le _ _
      _ ≤ UdpServer.maxLength := length_received_le d
  rw [and_iff_right_of_imp hfit, EchoesWhole]
  cases hv : p.delivers d with
  | true =>
      obtain ⟨hen, s', hst, ha⟩ := exists_echo hp hv hne
      rw [hs] at ha
      constructor
      · rintro ⟨s'', -, hst'', ha''⟩
        obtain rfl : s' = s'' := Option.some.inj (hst.symm.trans hst'')
        simpa [ha] using ha''
      · intro h
        exact ⟨s', hen, hst, by rw [ha, h]⟩
  | false =>
      -- a datagram that is reported as an error is longer than the buffer
      refine iff_of_false ?_ fun h ↦ ?_
      · rintro ⟨s', hen, hst, ha⟩
        cases turn_of_step hp hen hst with
        | failed stored _ _ ha' =>
            rw [ha'] at ha
            simp at ha
      · cases p with
        | truncate => cases hv
        | error => exact of_decide_eq_false hv (hfit h)

/-- **The messages that come back whole.**  A message of the client that a
server stores, sent as one datagram, comes back with the same bytes if and only
if it is no longer than the buffer of the server and was not cleared. -/
theorem echoesWhole_message_iff {z : SizeT} {m : Message} (hm : m.Reachable z)
    (hr : (system p).Reachable Always s) {e : ServerEvent} (he : s.enabled p e = true)
    (hst : s.step e = some s') {i : Nat} {src : Endpoint}
    (hi : (i, ⟨src, m.payload⟩) ∈ e.arrivals) :
    s'.EchoesWhole p ⟨src, m.payload⟩ ↔
      m.length ≤ UdpServer.maxLength ∧ (e.beforeClear = true → ∀ b ∈ m.payload, b = 0) := by
  have hlen : m.payload.length = m.length := hm.length_payload
  have hne : m.payload ≠ [] := by
    rw [← List.length_pos_iff, hlen, Message.length, headerLength]
    omega
  obtain ⟨op, hs⟩ := serving_of_keeps (fun _ e _ ↦ keeps_sameLength e) hr
  cases turn_of_step hs.pending he hst with
  | arrive d hp hp' hsrc hd ha =>
      obtain ⟨-, rfl⟩ : i = 0 ∧ _ = d := by simpa [ServerEvent.arrivals] using hi
      rw [echoesWhole_iff hp' hsrc hne, hd, take_store_received, received_eq_bytes_iff, and_self,
        hlen]
      simp [ServerEvent.beforeClear]
  | overtaken payload dest error d hp hp' hsrc hd ha =>
      obtain ⟨-, rfl⟩ : i = 0 ∧ _ = d := by simpa [ServerEvent.arrivals] using hi
      rw [echoesWhole_iff hp' hsrc hne, hd, Buffer.take_fill (length_received_le _),
        zeros_eq_bytes_iff, ← and_assoc, and_self, hlen]
      simp [ServerEvent.beforeClear]
  | sent payload dest error hp hp' ha => cases hi
  | failed stored hp hp' ha => cases hi
  | empty d hp hb hp' ha => cases hi
  | echo d payload hp hv hb hl hp' ha => cases hi

/-- A message with a body of `n` zero bytes, or the longest there is. -/
def zeroMessage (n : Nat) : Message := Message.setBodyLength ⟨Buffer.fill _ 0, 0⟩ n

theorem zeroMessage_reachable (z : SizeT) (n : Nat) : (zeroMessage n).Reachable z :=
  .setBodyLength n (.constructor _)

/-- The longest body that comes back is 1002 bytes. -/
theorem zeroMessage_echoed : ∃ s : Server,
    s.EchoesWhole .truncate ⟨someClient, (zeroMessage 1002).payload⟩ := by
  let d : Datagram := ⟨someClient, (zeroMessage 1002).payload⟩
  have hen : freshServer.enabled .truncate (.arrive 0 d) = true := by decide
  have hi : (0, d) ∈ (ServerEvent.arrive 0 d).arrivals := by simp [ServerEvent.arrivals]
  exact ⟨freshServer.arrive 0 d,
    (echoesWhole_message_iff (zeroMessage_reachable .bits64 1002) freshServer_reachable hen rfl
      hi).mpr ⟨by decide, nofun⟩⟩

/-- A body of 1003 bytes fits the client's buffer and not the server's, and does
not come back whole whatever the platform does with the excess. -/
theorem zeroMessage_not_echoed :
    ¬ ∃ p : Oversize, ∀ (z : SizeT) (m : Message) (s s' : Server) (i : Nat) (src : Endpoint),
      m.Reachable z → (system p).Reachable Always s →
      s.enabled p (.arrive i ⟨src, m.payload⟩) = true →
      s.step (.arrive i ⟨src, m.payload⟩) = some s' → s'.EchoesWhole p ⟨src, m.payload⟩ := by
  rintro ⟨p, h⟩
  have hm := zeroMessage_reachable .bits64 1003
  have hlen : (zeroMessage 1003).payload.length = 1025 := hm.length_payload
  have hne : (zeroMessage 1003).payload ≠ [] := by
    rw [← List.length_pos_iff, hlen]
    decide
  have hw := h .bits64 (zeroMessage 1003) freshServer _ 0 someClient hm freshServer_reachable
    (by cases p <;> decide) rfl
  have hfit := ((echoesWhole_iff rfl rfl hne).mp hw).1
  rw [hlen] at hfit
  exact absurd hfit (by decide)

end Server

end CppExamples.AsyncUdp
