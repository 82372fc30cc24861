import CppExamples.AsyncTcp.Network

/-!
# What the clients of the asynchronous server print

A client prints a front of one text, which was given to one connection, and no
other client is on this connection (`daytime_shown`).  A write that fails cuts
the text, and a client cannot tell this from the end of the text.  If nothing
fails, every run comes to an end, and then all the clients have returned, each
with the whole text of its connection (`all_served`).
-/

namespace CppExamples.AsyncTcp

open CppExamples.Lib CppExamples.TcpDaytime

namespace Network

variable {n : Nat} {w w' : Network n} {t : Service n}

/-- In a run in which no write fails, a connection that has ended has sent all of
its text. -/
theorem sent_of_ended (h : (system n).Reachable WritesSucceed w) {s : Nat} {text : List UInt8}
    (hs : (s, text) ∈ w.server.writeCalls) (hp : some s ∉ w.server.pending) :
    w.sent s = text.length := by
  obtain ⟨t, hwhole, ht⟩ := exists_whole h
  obtain ⟨a, m, hwriting⟩ := ht.writing
  obtain ⟨i, text', -, htext, hsupply⟩ := ht.served s (hwriting.accepted_of_called hs)
  cases hwriting.text_unique hs htext
  exact Service.sent_of_whole hwhole hsupply (decide_eq_true hp)

/-- **Every client prints a front of the text of its own connection**, whatever
fails; a client that has come to the end of the connection has printed all that
the connection has sent, and its write has completed.  If no write has failed,
this is the whole text. -/
theorem daytime_shown (h : (system n).Reachable Always w) (i : Fin n) :
    (∀ s, w.peer s ≠ some i) ∧ (w.clients.client i).cout = [] ∧ ¬ (w.clients.client i).Done ∨
    ∃ s text, (∀ s', w.peer s' = some i ↔ s' = s) ∧ (s, text) ∈ w.server.writeCalls ∧
      (w.clients.client i).cout <+: text ∧
      ((w.clients.client i).Done → some s ∉ w.server.pending ∧
        (w.clients.client i).cout = text.take (w.sent s) ∧
        ((system n).Reachable WritesSucceed w → (w.clients.client i).cout = text)) := by
  obtain ⟨t, ht⟩ := exists_represents h
  obtain ⟨hunserved, hserved⟩ := ht.conveys.printed i
  rw [ht.clients] at hunserved hserved
  by_cases hpeer : ∀ s, w.peer s ≠ some i
  · exact .inl ⟨hpeer, hunserved (ht.unserved i hpeer)⟩
  · obtain ⟨s, hs⟩ := not_forall.mp hpeer
    have hs := not_not.mp hs
    obtain ⟨text, htext, hsupply⟩ := ht.supply_of_peer hs
    obtain ⟨hfront, hdone⟩ := hserved _ hsupply
    refine .inr ⟨s, text, fun s' ↦ ⟨fun hs' ↦ ht.unique s' s i hs' hs, fun he ↦ he ▸ hs⟩, htext,
      hfront, fun hd ↦ ?_⟩
    obtain ⟨hclosed, hall⟩ := hdone hd
    have hended : some s ∉ w.server.pending := of_decide_eq_true hclosed
    refine ⟨hended, hall, fun hw ↦ ?_⟩
    rw [hall, sent_of_ended hw htext hended, List.take_length]

/-- Two clients that are served at the same time; the write to the second one
fails after one byte of two. -/
theorem daytime_shown_twoClients : ∃ w : Network 2, (w.clients.client 0).cout = [66, 10] ∧
    (w.clients.client 1).cout = [65] ∧ (w.clients.client 1).Done ∧ ∀ i,
    ((∀ s, w.peer s ≠ some i) ∧ (w.clients.client i).cout = [] ∧ ¬ (w.clients.client i).Done ∨
      ∃ s text, (∀ s', w.peer s' = some i ↔ s' = s) ∧ (s, text) ∈ w.server.writeCalls ∧
        (w.clients.client i).cout <+: text ∧
        ((w.clients.client i).Done → some s ∉ w.server.pending ∧
          (w.clients.client i).cout = text.take (w.sent s) ∧
          ((system 2).Reachable WritesSucceed w → (w.clients.client i).cout = text))) := by
  obtain ⟨w, hw, hfirst, hsecond, hdone⟩ : ∃ w, (system 2).Reachable Always w ∧
      (w.clients.client 0).cout = [66, 10] ∧ (w.clients.client 1).cout = [65] ∧
        (w.clients.client 1).Done :=
    System.always_of_exec (.init ⟨0, rfl⟩)
      [.call 1 (.connect false), .call 0 (.connect false), .accepted 0 1 [65, 10] 1,
        .accepted 0 0 [66, 10] 2, .send 1 2, .send 0 1, .call 1 (.readSome 1),
        .writeDone 0 true, .call 0 (.readSome 1), .writeDone 0 false, .call 0 (.readSome 1),
        .call 1 (.readSome 0), .call 0 (.readSome 0)] (by decide)
  exact ⟨w, hfirst, hsecond, hdone, daytime_shown hw⟩

/-! ## Runs in which nothing fails -/

/-- No call, no accept and no write fails. -/
def Succeeds (_ : Network n) : NetworkEvent n → Prop
  | .call _ e => e.Succeeds
  | .failed _ _ => False
  | .writeDone _ error => error = false
  | .accepted _ _ _ _ | .send _ _ => True

instance (w : Network n) (e : NetworkEvent n) : Decidable (w.Succeeds e) :=
  match e with
  | .call _ e => inferInstanceAs (Decidable e.Succeeds)
  | .failed _ _ => .isFalse id
  | .writeDone _ error => inferInstanceAs (Decidable (error = false))
  | .accepted _ _ _ _ | .send _ _ => .isTrue trivial

theorem writesSucceed_of_succeeds (w : Network n) (e : NetworkEvent n) (h : w.Succeeds e) :
    w.WritesSucceed e := by
  rintro j rfl
  cases h

/-- Nothing that succeeds can happen. -/
def Stuck (w : Network n) : Prop := ∀ e, w.Succeeds e → w.enabled e = false

theorem cerr_step_client {c : Client} {e : ClientCall} (he : e.Succeeds) (h : c.cerr = false) :
    (c.step e).cerr = false := by
  cases e with
  | connect error =>
      cases he
      exact h
  | readSome len =>
      simp only [Client.step, Client.readSome]
      split <;> exact h
  | readError => cases he

theorem cerr_modifySocket {v : Clients n} {i k : Fin n} {f : Stream → Stream} :
    ((v.modifySocket i f).client k).cerr = (v.client k).cerr := by
  by_cases hki : k = i
  · rw [hki, Clients.client_modifySocket_self]
  · rw [Clients.client_modifySocket_of_ne hki]

/-- No client reports an error. -/
theorem cerr_of_succeeds (h : (system n).Reachable Succeeds w) (i : Fin n) :
    (w.clients.client i).cerr = false := by
  induction h with
  | init hi =>
      obtain ⟨p, rfl⟩ := hi
      rfl
  | @step w w' e _ he hg hs ih =>
      cases e with
      | call k e =>
          cases hs
          by_cases hik : i = k
          · subst hik
            rw [Clients.client_call_self]
            exact cerr_step_client hg ih
          · rw [Clients.client_call_of_ne hik]
            exact ih
      | accepted j k now fresh =>
          obtain ⟨p, c, -, -, -, hclients, -⟩ := step_accepted hs
          rw [hclients]
          exact ih
      | failed j fresh => cases hg
      | send j k =>
          obtain ⟨b, c, k, -, -, -, hclients, -⟩ := step_send hs
          rw [hclients, Clients.send, cerr_modifySocket]
          exact ih
      | writeDone j error =>
          obtain ⟨b, c, k, -, -, -, -, -, hclients⟩ := step_writeDone hs
          rw [hclients]
          split
          · rw [Clients.close, cerr_modifySocket]
            exact ih
          · exact ih

theorem done_of_returned (h : (system n).Reachable Succeeds w) {i : Fin n}
    (hi : (w.clients.client i).state = .returned) : (w.clients.client i).Done :=
  ⟨hi, cerr_of_succeeds h i⟩

/-- A write that is outstanding can go on. -/
theorem exists_enabled_of_pending (ht : Represents w t) {s : Nat}
    (hs : some s ∈ w.server.pending) : ∃ e, w.Succeeds e ∧ w.enabled e = true := by
  obtain ⟨j, hj⟩ := List.getElem?_of_mem hs
  obtain ⟨b, c, hwrite, rfl⟩ := exists_write hj
  obtain ⟨-, -, -, -, -, i, -, hsupply⟩ := ht.write hwrite
  have hle : w.sent c.serial ≤ b.text.length := ((ht.conveys.conveyed i).served _ hsupply).2.1
  rcases Nat.lt_or_eq_of_le hle with hlt | heq
  · refine ⟨.send j 1, trivial, ?_⟩
    simp only [enabled, hwrite, Option.any_some, Bool.and_eq_true, decide_eq_true_eq]
    exact ⟨Nat.one_pos, hlt⟩
  · refine ⟨.writeDone j false, rfl, ?_⟩
    simp [enabled, hwrite, heq]

/-- A client that waits can be accepted. -/
theorem exists_enabled_of_backlog (ht : Represents w t) {i : Fin n} (hi : i ∈ w.clients.backlog) :
    ∃ e, w.Succeeds e ∧ w.enabled e = true := by
  obtain ⟨a, m, hwriting⟩ := ht.writing
  obtain ⟨fresh, hfresh⟩ := hwriting.exists_fresh
  refine ⟨.accepted 0 i [] fresh, trivial, ?_⟩
  simp [enabled, hi, Server.enabled, hwriting.accepts, hfresh]

/-- **Nothing can happen any more exactly if every client has returned.** -/
theorem stuck_iff (h : (system n).Reachable Succeeds w) :
    w.Stuck ↔ ∀ i, (w.clients.client i).state = .returned := by
  obtain ⟨t, ht⟩ := exists_represents h.always
  constructor
  · intro hstuck i
    have hno {e : NetworkEvent n} (he : w.Succeeds e) : ¬ w.enabled e = true := by
      rw [hstuck e he]
      exact Bool.false_ne_true
    rw [← ht.clients]
    refine ht.conveys.returned_of_quiet ?_ (fun k u hu ↦ ?_) (fun k e he ↦ ?_) i
    · refine List.eq_nil_iff_forall_not_mem.mpr fun k hk ↦ ?_
      obtain ⟨e, he, hen⟩ := exists_enabled_of_backlog ht (ht.clients ▸ hk)
      exact hno he hen
    · by_contra hopen
      have hpeer : ¬ ∀ s, w.peer s ≠ some k := fun hpeer ↦ by
        rw [ht.unserved k hpeer] at hu
        cases hu
      obtain ⟨s, hs⟩ := not_forall.mp hpeer
      obtain ⟨text, -, hsupply⟩ := ht.supply_of_peer (not_not.mp hs)
      cases hu.symm.trans hsupply
      obtain ⟨e, he, hen⟩ := exists_enabled_of_pending ht
        (s := s) (by simpa using hopen)
      exact hno he hen
    · rw [ht.clients]
      exact hstuck (.call k e) he
  · intro hall e he
    have hended {k : Fin n} {u : Supply} (hu : t.supply k = some u) : u.closed = true :=
      (((ht.conveys.printed k).2 u hu).2 (ht.clients ▸ done_of_returned h (hall k))).1
    have hwrite (j : Nat) : w.write j = none := by
      cases hb : w.write j with
      | none => rfl
      | some r =>
          obtain ⟨-, -, -, -, -, k, -, hsupply⟩ := ht.write hb
          cases hended hsupply
    cases e with
    | call k e => cases e <;> simp [enabled, Client.enabled, hall k]
    | accepted j k now fresh =>
        have hk : k ∉ w.clients.backlog := fun hk ↦ by
          have hnone := (ht.conveys.waiting k (ht.clients ▸ hk)).1
          exact ((ht.conveys.printed k).1 hnone).2 (ht.clients ▸ done_of_returned h (hall k))
        simp [enabled, hk]
    | failed j fresh => cases he
    | send j m => simp [enabled, hwrite j]
    | writeDone j error => simp [enabled, hwrite j]

/-- **Every run of the network is short.** -/
theorem length_run_le {L : Nat} {p : Nat} {es : List (NetworkEvent n)}
    (hx : (system n).exec (short L) ⟨Server.tcpServer p, .start n, fun _ ↦ none, fun _ ↦ 0⟩ es =
      some w) : es.length ≤ (2 * L + 4) * n := by
  have hstep (w : Network n) (e : NetworkEvent n) (w' : Network n) (t : Service n)
      (hr : Represents w t) (he : w.enabled e = true) (hg : short L w e = true)
      (hs : w.step e = some w') : ∃ e' t', t.enabled e' = true ∧ t.short L e' = true ∧
        t.step e' = some t' ∧ Represents w' t' := by
    rcases hr.step he hs with ⟨⟨j, fresh, rfl⟩, -⟩ | ⟨e', t', he', hs', h', -, hshort⟩
    · cases hg
    · exact ⟨e', t', he', hshort L hg, hs', h'⟩
  obtain ⟨es', t', hlen, hx', -⟩ := System.exec_simulate (M := system n) (N := Service.system n)
    hstep (represents_start p) hx
  exact hlen ▸ Service.length_run_le hx'

/-- **Everybody is served.**  A run of the server and `n` clients in which no
accept fails has at most `2L + 4` steps for each client, if no text is longer
than `L`, whatever else fails.  If nothing fails, it can go no further exactly if
all the clients have returned, and a client that has returned has printed the
whole text of its connection. -/
theorem all_served (n : Nat) :
    (∀ L p es w, (system n).exec (short L) ⟨Server.tcpServer p, .start n, fun _ ↦ none, fun _ ↦ 0⟩
      es = some w → es.length ≤ (2 * L + 4) * n) ∧
    ∀ w, (system n).Reachable Succeeds w →
      (w.Stuck ↔ ∀ i, (w.clients.client i).state = .returned) ∧
      ∀ i, (w.clients.client i).state = .returned → ∃ s, w.peer s = some i ∧
        (s, (w.clients.client i).cout) ∈ w.server.writeCalls := by
  refine ⟨fun L p es w ↦ length_run_le, fun w h ↦ ⟨stuck_iff h, fun i hi ↦ ?_⟩⟩
  obtain ⟨t, ht⟩ := exists_represents h.always
  have hdone := done_of_returned h hi
  obtain ⟨hunserved, hserved⟩ := ht.conveys.printed i
  rw [ht.clients] at hunserved hserved
  have hpeer : ¬ ∀ s, w.peer s ≠ some i := fun hpeer ↦ (hunserved (ht.unserved i hpeer)).2 hdone
  obtain ⟨s, hs⟩ := not_forall.mp hpeer
  obtain ⟨text, htext, hsupply⟩ := ht.supply_of_peer (not_not.mp hs)
  obtain ⟨hclosed, hall⟩ := (hserved _ hsupply).2 hdone
  have hsent := sent_of_ended (h.mono writesSucceed_of_succeeds) htext (of_decide_eq_true hclosed)
  refine ⟨s, not_not.mp hs, ?_⟩
  rwa [hall, hsent, List.take_length]

/-- Two clients, one after the other, and the second one is accepted first. -/
theorem all_served_two : ∃ w : Network 2, w.Stuck ∧ w.server.writeCalls = [(0, [65]), (1, [66])] ∧
    w.peer 0 = some 1 ∧ ∃ s, w.peer s = some 1 ∧
      (s, (w.clients.client 1).cout) ∈ w.server.writeCalls := by
  obtain ⟨w, hw, hfirst, hsecond, hcalls, hpeer⟩ : ∃ w, (system 2).Reachable Succeeds w ∧
      (w.clients.client 0).state = .returned ∧ (w.clients.client 1).state = .returned ∧
        w.server.writeCalls = [(0, [65]), (1, [66])] ∧ w.peer 0 = some 1 :=
    System.reachable_of_exec (g := fun w e ↦ decide (w.Succeeds e))
      (fun _ _ ↦ of_decide_eq_true) (.init ⟨0, rfl⟩)
      [.call 1 (.connect false), .accepted 0 1 [65] 1, .send 0 1, .writeDone 0 false,
        .call 1 (.readSome 1), .call 0 (.connect false), .call 1 (.readSome 0),
        .accepted 0 0 [66] 0, .send 0 1, .call 0 (.readSome 1), .writeDone 0 false,
        .call 0 (.readSome 0)] (by decide)
  obtain ⟨hstuck, hprinted⟩ := (all_served 2).2 w hw
  refine ⟨w, hstuck.mpr fun i ↦ ?_, hcalls, hpeer, hprinted 1 hsecond⟩
  cases i using Fin.cases with
  | zero => exact hfirst
  | succ k =>
      obtain rfl : k = 0 := Subsingleton.elim _ _
      exact hsecond

end Network

end CppExamples.AsyncTcp
