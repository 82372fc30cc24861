import CppExamples.AsyncTcp.Network
import CppExamples.TcpDaytime.Blocking

/-!
# The two daytime servers look the same

To its clients, the asynchronous server is the blocking one: what the clients of
the one can print in some run, the clients of the other can print in some run.

* The asynchronous server simulates the blocking one, with one write outstanding
  at a time (`Simulates.step`).
* Whatever the service has done for its clients so far, the blocking server can
  do for one client after the other (`exists_blocking`).
-/

namespace CppExamples.TcpDaytime

open CppExamples.Lib Service

namespace Blocking

variable {n : Nat} {w w' : Network n} {v : AsyncTcp.Network n}

/-- The asynchronous server is where the blocking one is. -/
structure Simulates (v : AsyncTcp.Network n) (w : Network n) : Prop where
  represents : ∃ t, v.Represents t
  clients : v.clients = w.clients
  idle : (∀ i text sent, w.server ≠ .write i text sent) → v.server.writes = []
  writing : ∀ i text sent, w.server = .write i text sent → v.server.writes.length = 1 ∧
    ∃ b c, v.write 0 = some (b, c) ∧ v.peer c.serial = some i ∧ b.text = text ∧
      v.sent c.serial = sent

theorem simulates_start (p : Nat) :
    Simulates ⟨AsyncTcp.Server.tcpServer p, .start n, fun _ ↦ none, fun _ ↦ 0⟩
      (Network.start n) where
  represents := ⟨_, AsyncTcp.Network.represents_start p⟩
  clients := rfl
  idle _ := rfl
  writing := by simp [Network.start]

/-- `accept` returns. -/
theorem Simulates.accept (h : Simulates v w) {i : Fin n} (now : List UInt8)
    (hs : w.server = .accept) (hi : i ∈ w.clients.backlog) :
    ∃ fresh v', v.enabled (.accepted 0 i now fresh) = true ∧
      v.step (.accepted 0 i now fresh) = some v' ∧
        Simulates v' ⟨.write i now 0, w.clients.accept i, w.served ++ [(i, now)]⟩ := by
  obtain ⟨t, ht⟩ := h.represents
  obtain ⟨a, m, hwriting⟩ := ht.writing
  obtain ⟨fresh, hfresh⟩ := hwriting.exists_fresh
  have he : v.enabled (.accepted 0 i now fresh) = true := by
    simp [AsyncTcp.Network.enabled, AsyncTcp.Server.enabled, hwriting.accepts, hfresh, h.clients,
      hi]
  obtain ⟨v', hv'⟩ := ht.exists_step he
  have ht' := ht.accepted he hv'
  obtain ⟨p, c, hp, hc, hserver, hclients, hsent, hpeer⟩ := AsyncTcp.Network.step_accepted hv'
  obtain rfl : p = a := by
    have hmem := List.mem_of_getElem? hp
    rwa [hwriting.accepts, List.mem_singleton] at hmem
  cases hc.symm.trans hwriting.waiting
  have he' : v.server.enabled (.acceptDone 0 false now fresh) = true := by
    simp [AsyncTcp.Server.enabled, hwriting.accepts, hfresh]
  obtain ⟨⟨a', hwriting'⟩, hpending, haccepted, hcalls⟩ := hwriting.accepted he' hserver
  have hempty : v.server.pending = [] := by
    rw [AsyncTcp.Server.pending, h.idle (by simp [hs]), List.map_nil]
  rw [hempty, List.nil_append] at hpending
  obtain ⟨b, c, hwrite, hserial⟩ :=
    AsyncTcp.Network.exists_write (w := v') (j := 0) (s := m) (by rw [hpending]; rfl)
  obtain ⟨-, -, -, -, htext, -⟩ := ht'.write hwrite
  have hnow : (c.serial, now) ∈ v'.server.writeCalls := by simp [hcalls, hserial]
  have hnew : m ∉ v.server.accepted := fun hm ↦
    absurd (hwriting.lt_of_accepted hm) (Nat.lt_irrefl m)
  refine ⟨fresh, v', he, hv', ⟨_, ht'⟩, by rw [hclients, h.clients],
    fun hno ↦ absurd rfl (hno i now 0), fun k text sent hk ↦ ?_⟩
  cases hk
  refine ⟨?_, b, c, hwrite, ?_, hwriting'.text_unique htext hnow, ?_⟩
  · rw [← AsyncTcp.Server.length_pending, hpending, List.length_singleton]
  · rw [hpeer, hserial, Function.update_self]
  · rw [hsent, hserial, (ht.unsent m hnew).2]

/-- The `write` sends some more of `message`. -/
theorem Simulates.send (h : Simulates v w) {i : Fin n} {message : List UInt8} {sent k : Nat}
    (hs : w.server = .write i message sent) (hk : 0 < k) (hle : sent + k ≤ message.length) :
    ∃ v', v.enabled (.send 0 k) = true ∧ v.step (.send 0 k) = some v' ∧
      Simulates v' ⟨.write i message (sent + k),
        w.clients.send i ((message.drop sent).take k), w.served⟩ := by
  obtain ⟨t, ht⟩ := h.represents
  obtain ⟨hone, b, c, hwrite, hi, htext, hsentc⟩ := h.writing i message sent hs
  have he : v.enabled (.send 0 k) = true := by
    simp [AsyncTcp.Network.enabled, hwrite, hk, hsentc, htext, hle]
  obtain ⟨v', hv'⟩ := ht.exists_step he
  obtain ⟨k', t', -, -, ht'⟩ := ht.send he hv'
  obtain ⟨b', c', i', hwrite', hi', hserver, hclients, hsent, hpeer⟩ :=
    AsyncTcp.Network.step_send hv'
  cases hwrite.symm.trans hwrite'
  cases hi.symm.trans hi'
  obtain ⟨-, -, -, hmessage, -⟩ := ht.write hwrite
  refine ⟨v', he, hv', ⟨t', ht'⟩, ?_, fun hno ↦ absurd rfl (hno i message (sent + k)),
    fun k' text sent' hk' ↦ ?_⟩
  · rw [hclients, h.clients, hmessage, htext, hsentc]
  · cases hk'
    refine ⟨by rw [hserver, hone], b, c, ?_, by rw [hpeer, hi], htext, ?_⟩
    · rw [AsyncTcp.Network.write, hserver]
      exact hwrite
    · rw [hsent, Function.update_self, hsentc]

/-- The `write` ends, and the connection is closed. -/
theorem Simulates.writeDone (h : Simulates v w) {i : Fin n} {message : List UInt8} {sent : Nat}
    {error : Bool} (hs : w.server = .write i message sent)
    (hdone : error = true ∨ sent = message.length) :
    ∃ v', v.enabled (.writeDone 0 error) = true ∧ v.step (.writeDone 0 error) = some v' ∧
      Simulates v' ⟨.accept, w.clients.close i, w.served⟩ := by
  obtain ⟨t, ht⟩ := h.represents
  obtain ⟨a, m, hwriting⟩ := ht.writing
  obtain ⟨hone, b, c, hwrite, hi, htext, hsentc⟩ := h.writing i message sent hs
  have he : v.enabled (.writeDone 0 error) = true := by
    simp [AsyncTcp.Network.enabled, hwrite, hsentc, htext, hdone]
  obtain ⟨v', hv'⟩ := ht.exists_step he
  obtain ⟨-, -, -, t', -, -, -, -, ht'⟩ := ht.writeDone hv'
  obtain ⟨b', c', i', hwrite', hi', hserver, hsent, hpeer, hclients⟩ :=
    AsyncTcp.Network.step_writeDone hv'
  cases hwrite.symm.trans hwrite'
  cases hi.symm.trans hi'
  obtain ⟨hb, hserial, hmem, -⟩ := ht.write hwrite
  obtain ⟨-, hpending, -, -, hgone⟩ := hwriting.written hb hserver
  have hempty : v'.server.writes.length = 0 := by
    rw [← AsyncTcp.Server.length_pending, hpending, hserial, List.length_erase_of_mem hmem,
      AsyncTcp.Server.length_pending, hone]
  refine ⟨v', he, hv', ⟨t', ht'⟩, ?_, fun _ ↦ List.length_eq_zero_iff.mp hempty,
    by simp⟩
  rw [hclients, hgone, Option.isNone_none, if_pos rfl, h.clients]

/-- **The simulation step.** -/
theorem Simulates.step (h : Simulates v w) {e : NetworkEvent n} (he : w.enabled e = true)
    (hs : w.step e = some w') : Simulates v w' ∨ ∃ e' v', v.enabled e' = true ∧
      v.step e' = some v' ∧ Simulates v' w' ∧ (w.WritesSucceed e → v.WritesSucceed e') := by
  cases e with
  | call i e =>
      cases hs
      obtain ⟨t, ht⟩ := h.represents
      have he' : (v.clients.client i).enabled e = true := h.clients ▸ he
      refine .inr ⟨.call i e, _, he', rfl, ⟨⟨_, ht.call he'⟩, ?_, h.idle, h.writing⟩,
        by simp [AsyncTcp.Network.WritesSucceed]⟩
      rw [h.clients]
  | accept i now =>
      cases hs
      simp only [Network.enabled, Bool.and_eq_true, decide_eq_true_eq, Clients.waits_iff] at he
      obtain ⟨fresh, v', he', hs', h'⟩ := h.accept now he.1 he.2
      exact .inr ⟨_, v', he', hs', h', by simp [AsyncTcp.Network.WritesSucceed]⟩
  | acceptError =>
      cases hs
      have hstate : w.server = .accept := of_decide_eq_true he
      exact .inl ⟨h.represents, h.clients, fun _ ↦ h.idle (by simp [hstate]), by simp⟩
  | send k =>
      cases hserver : w.server with
      | accept => simp [Network.enabled, hserver] at he
      | returned => simp [Network.enabled, hserver] at he
      | write i message sent =>
          simp only [Network.enabled, hserver, Bool.and_eq_true, decide_eq_true_eq] at he
          simp only [Network.step, hserver, Option.some.injEq] at hs
          obtain ⟨v', he', hs', h'⟩ := h.send hserver he.1 he.2
          exact .inr ⟨_, v', he', hs', hs ▸ h', by simp [AsyncTcp.Network.WritesSucceed]⟩
  | writeDone error =>
      cases hserver : w.server with
      | accept => simp [Network.enabled, hserver] at he
      | returned => simp [Network.enabled, hserver] at he
      | write i message sent =>
          simp only [Network.enabled, hserver, Bool.or_eq_true, decide_eq_true_eq] at he
          simp only [Network.step, hserver, Option.some.injEq] at hs
          obtain ⟨v', he', hs', h'⟩ := h.writeDone hserver he
          refine .inr ⟨_, v', he', hs', hs ▸ h', fun hg j hj ↦ ?_⟩
          cases hj
          exact hg rfl

/-- **The asynchronous server can do what the blocking one does.** -/
theorem exists_simulates {G : Network n → NetworkEvent n → Prop}
    {G' : AsyncTcp.Network n → AsyncTcp.NetworkEvent n → Prop}
    (hG : ∀ w e v e', G w e → (w.WritesSucceed e → v.WritesSucceed e') → G' v e')
    (h : (Network.system n).Reachable G w) :
    ∃ v, (AsyncTcp.Network.system n).Reachable G' v ∧ v.clients = w.clients := by
  suffices hex : ∃ v, (AsyncTcp.Network.system n).Reachable G' v ∧ Simulates v w by
    obtain ⟨v, hv, hsim⟩ := hex
    exact ⟨v, hv, hsim.clients⟩
  refine h.simulate (R := fun w v ↦ Simulates v w) ?_ ?_
  · rintro _ rfl
    exact ⟨_, ⟨0, rfl⟩, simulates_start 0⟩
  · intro w e w' v _ hv hsim he hg hs
    rcases hsim.step he hs with h' | ⟨e', v', he', hs', h', hguard⟩
    · exact ⟨v, hv, h'⟩
    · exact ⟨v', hv.step he' (hG w e v e' hg hguard) hs', h'⟩

/-! ## One client after the other -/

/-- From `w` the run can go on to `w'`, where client `i` is `c`, the server is at
`s`, and the other clients are as before. -/
structure Continues (G : Network n → NetworkEvent n → Prop) (w w' : Network n) (i : Fin n)
    (c : Client) (s : ServerState n) : Prop where
  reachable : (Network.system n).Reachable G w'
  server : w'.server = s
  client : w'.clients.client i = c
  others : ∀ k, k ≠ i → w'.clients.client k = w.clients.client k

variable {G : Network n → NetworkEvent n → Prop} {i : Fin n} {c : Client} {s : ServerState n}

theorem Continues.call (h : Continues G w w' i c s) (hG : ∀ w e, e ≠ .writeDone true → G w e)
    {e : ClientCall} (he : c.enabled e = true) : ∃ w'', Continues G w w'' i (c.step e) s := by
  have he' : (w'.clients.client i).enabled e = true := h.client ▸ he
  refine ⟨_, h.reachable.step (e := .call i e) he' (hG _ _ (by simp)) rfl, h.server, ?_,
    fun k hk ↦ ?_⟩
  · rw [Clients.client_call_self, h.client]
  · rw [Clients.client_call_of_ne hk, h.others k hk]

/-- A client can read as much as it likes of what has arrived. -/
theorem Continues.read {l : List UInt8}
    (h : Continues G w w' i ⟨.read, ⟨l, true⟩, [], false⟩ s)
    (hG : ∀ w e, e ≠ .writeDone true → G w e) {m : Nat} (hm : m ≤ l.length) :
    ∃ w'', Continues G w w'' i ⟨.read, ⟨l.drop m, true⟩, l.take m, false⟩ s := by
  induction m with
  | zero => exact ⟨w', h⟩
  | succ m ih =>
      obtain ⟨w₁, h₁⟩ := ih (Nat.le_of_succ_le hm)
      have hpos : 0 < (l.drop m).length := by
        rw [List.length_drop]
        omega
      have hdel : Stream.delivers ⟨l.drop m, true⟩ bufSize 1 = true := by
        rw [Stream.delivers, if_neg (List.length_pos_iff.mp hpos)]
        simp only [Bool.and_eq_true, decide_eq_true_eq]
        exact ⟨⟨Nat.one_pos, by decide⟩, hpos⟩
      obtain ⟨w₂, h₂⟩ := h₁.call hG (e := .readSome 1) (by rw [Client.enabled, hdel]; rfl)
      refine ⟨w₂, h₂.reachable, h₂.server, ?_, h₂.others⟩
      have hstep : Client.step ⟨.read, ⟨l.drop m, true⟩, l.take m, false⟩ (.readSome 1) =
          ⟨.read, ⟨(l.drop m).drop 1, true⟩, l.take m ++ (l.drop m).take 1, false⟩ := rfl
      rw [h₂.client, hstep, List.drop_drop, ← List.take_add]

/-- A client that has just been started is accepted. -/
theorem Continues.accept (h : Continues G w w' i .start .accept)
    (hG : ∀ w e, e ≠ .writeDone true → G w e) (text : List UInt8) :
    ∃ w'', Continues G w w'' i ⟨.read, .idle, [], false⟩ (.write i text 0) := by
  let w₁ : Network n := { w' with clients := w'.clients.call i (.connect false) }
  have hconnect : w'.enabled (.call i (.connect false)) = true := by
    simp [Network.enabled, h.client, Client.enabled, Client.start]
  have hq : i ∈ w₁.clients.backlog := Service.mem_backlog_call.mpr (.inr ⟨rfl, rfl⟩)
  have haccept : w₁.enabled (.accept i text) = true := by
    simp [Network.enabled, w₁, h.server, hq]
  have h₁ : (Network.system n).Reachable G w₁ :=
    h.reachable.step (e := .call i (.connect false)) hconnect (hG _ _ (by simp)) rfl
  refine ⟨_, h₁.step (e := .accept i text) haccept (hG _ _ (by simp)) rfl, rfl, ?_,
    fun k hk ↦ ?_⟩
  · have hclient : w₁.clients.client i = Client.step .start (.connect false) := by
      rw [Clients.client_call_self, h.client]
    exact hclient
  · have hclient : w₁.clients.client k = w'.clients.client k := Clients.client_call_of_ne hk _
    exact hclient.trans (h.others k hk)

/-- The server sends the first `N` bytes of the text. -/
theorem Continues.send {text : List UInt8}
    (h : Continues G w w' i ⟨.read, .idle, [], false⟩ (.write i text 0))
    (hG : ∀ w e, e ≠ .writeDone true → G w e) {N : Nat} (hN : N ≤ text.length) :
    ∃ w'', Continues G w w'' i ⟨.read, ⟨text.take N, false⟩, [], false⟩ (.write i text N) := by
  cases N with
  | zero => exact ⟨w', h⟩
  | succ N =>
      have he : w'.enabled (.send (N + 1)) = true := by
        simp [Network.enabled, h.server, hN]
      have hs : w'.step (.send (N + 1)) = some
          ⟨.write i text (0 + (N + 1)), w'.clients.send i ((text.drop 0).take (N + 1)),
            w'.served⟩ := by
        rw [Network.step, h.server]
      have hg : G w' (.send (N + 1)) := hG _ _ (by simp)
      refine ⟨_, h.reachable.step (e := .send (N + 1)) he hg hs, by rw [Nat.zero_add], ?_,
        fun k hk ↦ ?_⟩
      · rw [Clients.send, Clients.client_modifySocket_self, h.client]
        rfl
      · rw [Clients.send, Clients.client_modifySocket_of_ne hk, h.others k hk]

/-- The server closes the connection, after an error if there is more to send. -/
theorem Continues.close {text : List UInt8} {N : Nat} (h : Continues G w w' i c (.write i text N))
    (hG : ∀ w e, e ≠ .writeDone true → G w e) (hcut : N = text.length ∨ ∀ w e, G w e) :
    ∃ w'', Continues G w w'' i { c with socket := c.socket.finish } .accept := by
  obtain ⟨error, he, hg⟩ : ∃ error, w'.enabled (.writeDone error) = true ∧
      G w' (.writeDone error) := by
    rcases hcut with hcut | hcut
    · exact ⟨false, by simp [Network.enabled, h.server, hcut], hG _ _ (by simp)⟩
    · exact ⟨true, by simp [Network.enabled, h.server], hcut _ _⟩
  have hs : w'.step (.writeDone error) = some
      ⟨.accept, w'.clients.close i, w'.served⟩ := by
    rw [Network.step, h.server]
  refine ⟨_, h.reachable.step (e := .writeDone error) he hg hs, rfl, ?_, fun k hk ↦ ?_⟩
  · rw [Clients.close, Clients.client_modifySocket_self, h.client]
  · rw [Clients.close, Clients.client_modifySocket_of_ne hk, h.others k hk]

/-- A client that has not been accepted. -/
theorem Continues.output_unserved (h : Continues G w w' i .start .accept)
    (hG : ∀ w e, e ≠ .writeDone true → G w e) (hc : Conveyed c none) :
    ∃ w'' c', Continues G w w'' i c' .accept ∧ c'.output = c.output := by
  obtain ⟨hidle, hcout⟩ := hc.unserved rfl
  have hcerr : c.cerr = true ↔ c.state = .returned := by
    refine ⟨hc.caught, fun hstate ↦ ?_⟩
    by_contra hno
    have hended := (hc.done ⟨hstate, Bool.eq_false_iff.mpr hno⟩).2
    rw [hidle] at hended
    cases hended
  cases hstate : c.state with
  | connect =>
      have hno : c.cerr = false := Bool.eq_false_iff.mpr (by simp [hcerr, hstate])
      exact ⟨w', .start, h, by rw [Client.output, Client.output, hstate, hcout, hno]; rfl⟩
  | read =>
      have hno : c.cerr = false := Bool.eq_false_iff.mpr (by simp [hcerr, hstate])
      obtain ⟨w₁, h₁⟩ := h.call hG (e := .connect false) rfl
      exact ⟨w₁, _, h₁, by rw [Client.output, Client.output, hstate, hcout, hno]; rfl⟩
  | returned =>
      obtain ⟨w₁, h₁⟩ := h.call hG (e := .connect true) rfl
      exact ⟨w₁, _, h₁, by rw [Client.output, Client.output, hstate, hcout, hcerr.mpr hstate]; rfl⟩

/-- A client that has been accepted. -/
theorem Continues.output_served {t : Supply} (h : Continues G w w' i .start .accept)
    (hG : ∀ w e, e ≠ .writeDone true → G w e) (hc : Conveyed c (some t))
    (hcut : (t.closed = true → t.sent = t.text.length) ∨ ∀ w e, G w e) :
    ∃ w'' c', Continues G w w'' i c' .accept ∧ c'.output = c.output := by
  obtain ⟨hstate, hle, hbytes, hended⟩ := hc.served t rfl
  -- if the client has come to the end, no more may be sent than it has printed
  let N := if c.Done then t.sent else t.text.length
  have hN : N ≤ t.text.length ∧ t.sent ≤ N := by
    simp only [N]
    split <;> omega
  have hend : N = t.text.length ∨ ∀ w e, G w e := by
    refine hcut.imp_left fun hcut ↦ ?_
    simp only [N]
    split
    · rename_i hdone
      exact hcut (hended.symm.trans (hc.done hdone).2)
    · rfl
  have hcout : c.cout <+: t.text.take N := by
    refine List.IsPrefix.trans ⟨_, hbytes⟩ ?_
    rw [← Nat.min_eq_left hN.2, ← List.take_take]
    exact List.take_prefix _ _
  obtain ⟨w₁, h₁⟩ := h.accept hG t.text
  obtain ⟨w₂, h₂⟩ := h₁.send hG hN.1
  obtain ⟨w₃, h₃⟩ := h₂.close hG hend
  obtain ⟨w₄, h₄⟩ := h₃.read hG hcout.length_le
  rw [← List.prefix_iff_eq_take.mp hcout] at h₄
  cases hs : c.state with
  | connect => exact absurd hs hstate
  | read =>
      have hno : c.cerr = false := Bool.eq_false_iff.mpr fun hcerr ↦ by
        cases hs.symm.trans (hc.caught hcerr)
      exact ⟨w₄, _, h₄, by rw [Client.output, Client.output, hs, hno]⟩
  | returned =>
      cases hcerr : c.cerr with
      | true =>
          obtain ⟨w₅, h₅⟩ := h₄.call hG (e := .readError) rfl
          exact ⟨w₅, _, h₅, by rw [Client.output, Client.output, hs, hcerr]; rfl⟩
      | false =>
          have hdone : c.Done := ⟨hs, hcerr⟩
          have hall : c.cout = t.text.take N := by
            rw [(hc.done hdone).1, List.append_nil] at hbytes
            simp only [N, if_pos hdone, hbytes]
          rw [← hall, List.drop_length] at h₄
          obtain ⟨w₅, h₅⟩ := h₄.call hG (e := .readSome 0) rfl
          exact ⟨w₅, _, h₅, by rw [Client.output, Client.output, hs, hcerr]; rfl⟩

/-- **Whatever the service has done for its clients, the blocking server can do
for one after the other**, as far as the clients show it. -/
theorem exists_blocking {t : Service n} (ht : t.Conveys) (hG : ∀ w e, e ≠ .writeDone true → G w e)
    (hcut : (∀ i u, t.supply i = some u → u.closed = true → u.sent = u.text.length) ∨
      ∀ w e, G w e) : ∃ w, (Network.system n).Reachable G w ∧
        ∀ i, (w.clients.client i).output = (t.clients.client i).output := by
  have hsome (l : List (Fin n)) (hl : l.Nodup) : ∃ w, (Network.system n).Reachable G w ∧
      w.server = .accept ∧ ∀ i, (i ∈ l → (w.clients.client i).output =
        (t.clients.client i).output) ∧ (i ∉ l → w.clients.client i = .start) := by
    induction l with
    | nil =>
        exact ⟨Network.start n, .init rfl, rfl, fun i ↦ ⟨by simp, fun _ ↦ rfl⟩⟩
    | cons k l ih =>
        obtain ⟨hk, hl⟩ := List.nodup_cons.mp hl
        obtain ⟨w, hw, hserver, hclients⟩ := ih hl
        have hstart : Continues G w w k .start .accept :=
          ⟨hw, hserver, (hclients k).2 hk, fun _ _ ↦ rfl⟩
        obtain ⟨w', c', h', houtput⟩ : ∃ w' c', Continues G w w' k c' .accept ∧
            c'.output = (t.clients.client k).output := by
          have hc := ht.conveyed k
          cases hu : t.supply k with
          | none => exact hstart.output_unserved hG (hu ▸ hc)
          | some u => exact hstart.output_served hG (hu ▸ hc) (hcut.imp_left fun h ↦ h k u hu)
        refine ⟨w', h'.reachable, h'.server, fun i ↦ ⟨fun hi ↦ ?_, fun hi ↦ ?_⟩⟩
        · rcases List.mem_cons.mp hi with rfl | hi
          · rw [h'.client, houtput]
          · have hik : i ≠ k := fun he ↦ hk (he ▸ hi)
            rw [h'.others i hik, (hclients i).1 hi]
        · obtain ⟨hik, hi⟩ := not_or.mp (mt List.mem_cons.mpr hi)
          rw [h'.others i hik, (hclients i).2 hi]
  obtain ⟨w, hw, -, hclients⟩ := hsome (List.finRange n) (List.nodup_finRange n)
  exact ⟨w, hw, fun i ↦ (hclients i).1 (List.mem_finRange i)⟩

/-- **The clients cannot tell the two servers apart.**  Where any number of
clients of the blocking server can be, and what they can have printed, is where
clients of the asynchronous server can be, and what they can have printed; and
the same if no write fails. -/
theorem same_output (n : Nat) (o : Fin n → ClientState × List UInt8 × Bool) :
    ((∃ w, (Network.system n).Reachable Always w ∧ ∀ i, (w.clients.client i).output = o i) ↔
      ∃ v, (AsyncTcp.Network.system n).Reachable Always v ∧
        ∀ i, (v.clients.client i).output = o i) ∧
    ((∃ w, (Network.system n).Reachable Network.WritesSucceed w ∧
        ∀ i, (w.clients.client i).output = o i) ↔
      ∃ v, (AsyncTcp.Network.system n).Reachable AsyncTcp.Network.WritesSucceed v ∧
        ∀ i, (v.clients.client i).output = o i) := by
  refine ⟨⟨?_, ?_⟩, ⟨?_, ?_⟩⟩
  · rintro ⟨w, hw, ho⟩
    obtain ⟨v, hv, hclients⟩ := exists_simulates (fun _ _ _ _ _ _ ↦ trivial) hw
    exact ⟨v, hv, fun i ↦ by rw [hclients, ho i]⟩
  · rintro ⟨v, hv, ho⟩
    obtain ⟨t, ht⟩ := AsyncTcp.Network.exists_represents hv
    obtain ⟨w, hw, hclients⟩ := exists_blocking ht.conveys (fun _ _ _ ↦ trivial)
      (.inr fun _ _ ↦ trivial)
    exact ⟨w, hw, fun i ↦ by rw [hclients i, ht.clients, ho i]⟩
  · rintro ⟨w, hw, ho⟩
    obtain ⟨v, hv, hclients⟩ := exists_simulates (fun _ _ _ _ hg hw ↦ hw hg) hw
    exact ⟨v, hv, fun i ↦ by rw [hclients, ho i]⟩
  · rintro ⟨v, hv, ho⟩
    obtain ⟨t, hwhole, ht⟩ := AsyncTcp.Network.exists_whole hv
    obtain ⟨w, hw, hclients⟩ := exists_blocking ht.conveys (fun _ _ hg ↦ hg)
      (.inl fun i u ↦ Service.sent_of_whole hwhole)
    exact ⟨w, hw, fun i ↦ by rw [hclients i, ht.clients, ho i]⟩

end Blocking

end CppExamples.TcpDaytime
