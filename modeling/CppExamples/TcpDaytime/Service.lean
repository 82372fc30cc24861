import CppExamples.Lib.System
import CppExamples.TcpDaytime.Clients
import Mathlib.Algebra.Order.BigOperators.Group.Finset
import Mathlib.Data.Fintype.BigOperators

/-!
# What a daytime server is for

The service that both TCP daytime servers provide, without the way in which they
do it: each client that waits is accepted once and given a text, the text is sent
to this client, in pieces, and then the connection is closed.

`Conveys` says that the bytes that a client has printed and those on the way to
it are what has been sent, and `Conveys.step` that every step of the service
keeps this.  `printed` is what follows for the clients, `length_run_le` that they
come to an end, and `served_of_quiet` that all of them have been served then.
-/

namespace CppExamples.TcpDaytime

open CppExamples.Lib

/-- What has been done for a client that has been accepted. -/
structure Supply where
  text : List UInt8
  /-- How many bytes of `text` have been sent. -/
  sent : Nat
  closed : Bool
deriving DecidableEq

/-- The clients and what has been done for them. -/
structure Service (n : Nat) where
  clients : Clients n
  supply : Fin n → Option Supply

/-- A step of a client or of the service. -/
inductive ServiceEvent (n : Nat) where
  | call (i : Fin n) (e : ClientCall)
  | accept (i : Fin n) (text : List UInt8)
  | send (i : Fin n) (k : Nat)
  | close (i : Fin n)

namespace Service

variable {n : Nat}

def start (n : Nat) : Service n := ⟨.start n, fun _ ↦ none⟩

def enabled (w : Service n) : ServiceEvent n → Bool
  | .call i e => (w.clients.client i).enabled e
  | .accept i _ => w.clients.waits i
  | .send i k => (w.supply i).any fun t ↦ !t.closed && 0 < k && t.sent + k ≤ t.text.length
  | .close i => (w.supply i).any fun t ↦ !t.closed

/-- The state once `t` is what has been done for client `i`. -/
def serve (w : Service n) (i : Fin n) (clients : Clients n) (t : Supply) : Service n :=
  { clients := clients, supply := Function.update w.supply i (some t) }

def step (w : Service n) : ServiceEvent n → Option (Service n)
  | .call i e => some { w with clients := w.clients.call i e }
  | .accept i text => some (w.serve i (w.clients.accept i) ⟨text, 0, false⟩)
  | .send i k => (w.supply i).map fun t ↦
      w.serve i (w.clients.send i ((t.text.drop t.sent).take k)) { t with sent := t.sent + k }
  | .close i => (w.supply i).map fun t ↦
      w.serve i (w.clients.close i) { t with closed := true }

def system (n : Nat) : System (Service n) (ServiceEvent n) where
  init w := w = start n
  enabled := enabled
  step := step

section Serve

variable {w : Service n} {i k : Fin n} {clients : Clients n} {t : Supply}

@[simp] theorem clients_serve : (w.serve i clients t).clients = clients := rfl

@[simp] theorem supply_serve_self : (w.serve i clients t).supply i = some t :=
  Function.update_self ..

theorem supply_serve_of_ne (h : k ≠ i) : (w.serve i clients t).supply k = w.supply k :=
  Function.update_of_ne h ..

end Serve

/-! ## The invariant -/

/-- What a client has printed and what is under way to it. -/
structure Conveyed (c : Client) (s : Option Supply) : Prop where
  unserved : s = none → c.socket = .idle ∧ c.cout = []
  served : ∀ t, s = some t → c.state ≠ .connect ∧ t.sent ≤ t.text.length ∧
    c.cout ++ c.socket.inFlight = t.text.take t.sent ∧ c.socket.ended = t.closed
  done : c.Done → c.socket.inFlight = [] ∧ c.socket.ended = true
  caught : c.cerr = true → c.state = .returned

/-- Every client that waits to be accepted has connected and has not been served. -/
structure Conveys (w : Service n) : Prop where
  nodup : w.clients.backlog.Nodup
  waiting : ∀ i ∈ w.clients.backlog, w.supply i = none ∧ (w.clients.client i).state ≠ .connect
  reading : ∀ i, (w.clients.client i).state = .read →
    i ∈ w.clients.backlog ∨ (w.supply i).isSome = true
  conveyed : ∀ i, Conveyed (w.clients.client i) (w.supply i)

theorem conveys_start (n : Nat) : (start n).Conveys where
  nodup := List.nodup_nil
  waiting i hi := absurd hi List.not_mem_nil
  reading i hi := by cases hi
  conveyed _ := ⟨fun _ ↦ ⟨rfl, rfl⟩, by simp [start],
    by simp [start, Clients.start, Client.start, Client.Done],
    by simp [start, Clients.start, Client.start]⟩

section Conveyed

variable {c : Client} {s : Option Supply} {t : Supply} {k : Nat}

/-- A call of the client returns. -/
theorem Conveyed.call (h : Conveyed c s) {e : ClientCall} (he : c.enabled e = true) :
    Conveyed (c.step e) s := by
  cases e with
  | connect error =>
      have hstate : c.state = .connect := of_decide_eq_true he
      have hnot {t : Supply} : s ≠ some t := fun ht ↦ (h.served t ht).1 hstate
      cases error with
      | true =>
          exact ⟨h.unserved, fun t ht ↦ absurd ht hnot,
            (by simp [Client.Done, Client.step, Client.connect, Client.caught]), fun _ ↦ rfl⟩
      | false =>
          refine ⟨h.unserved, fun t ht ↦ absurd ht hnot,
            (by simp [Client.Done, Client.step, Client.connect]), fun hcerr ↦ ?_⟩
          cases hstate.symm.trans (h.caught hcerr)
  | readSome len =>
      simp only [Client.enabled, Bool.and_eq_true, decide_eq_true_eq] at he
      obtain ⟨hstate, hdel⟩ := he
      cases len with
      | zero =>
          have hend := Stream.delivers_zero.mp hdel
          refine ⟨h.unserved, fun t ht ↦ ⟨?_, (h.served t ht).2⟩, fun _ ↦ hend, fun _ ↦ rfl⟩
          simp [Client.step, Client.readSome]
      | succ k =>
          refine ⟨fun hs ↦ ?_, fun t ht ↦ ?_, fun hdone ↦ ?_, h.caught⟩
          · -- nothing can be read from a socket that is idle
            rw [(h.unserved hs).1] at hdel
            simp [Stream.delivers] at hdel
          · obtain ⟨-, hle, hbytes, hended⟩ := h.served t ht
            refine ⟨by simp [Client.step, Client.readSome, hstate], hle, ?_, hended⟩
            rw [← hbytes, ← Stream.recv_append c.socket (k + 1), ← List.append_assoc]
            rfl
          · simp [Client.step, Client.readSome, Client.Done, hstate] at hdone
  | readError =>
      refine ⟨h.unserved, fun t ht ↦ ⟨?_, (h.served t ht).2⟩, fun hdone ↦ ?_, fun _ ↦ rfl⟩
      · simp [Client.step, Client.caught]
      · simp [Client.Done, Client.step, Client.caught] at hdone

/-- Bytes are sent to a client. -/
theorem Conveyed.send (h : Conveyed c (some t)) (ho : t.closed = false)
    (hk : t.sent + k ≤ t.text.length) :
    Conveyed { c with socket := c.socket.send ((t.text.drop t.sent).take k) }
      (some { t with sent := t.sent + k }) := by
  obtain ⟨hstate, -, hbytes, hended⟩ := h.served t rfl
  refine ⟨by simp, fun u hu ↦ ?_, fun hdone ↦ ?_, h.caught⟩
  · cases hu
    refine ⟨hstate, hk, ?_, hended⟩
    rw [Stream.inFlight_send, ← List.append_assoc, hbytes, ← List.take_add]
  · -- the client has not come to the end of an open connection
    have := (h.done hdone).2
    rw [hended, ho] at this
    cases this

/-- The connection to a client is closed. -/
theorem Conveyed.close (h : Conveyed c (some t)) :
    Conveyed { c with socket := c.socket.finish } (some { t with closed := true }) := by
  obtain ⟨hstate, hle, hbytes, -⟩ := h.served t rfl
  refine ⟨by simp, fun u hu ↦ ?_, fun hdone ↦ ⟨(h.done hdone).1, rfl⟩, h.caught⟩
  cases hu
  exact ⟨hstate, hle, hbytes, rfl⟩

/-- A client is accepted. -/
theorem Conveyed.accept (h : Conveyed c none) (hstate : c.state ≠ .connect) (text : List UInt8) :
    Conveyed c (some ⟨text, 0, false⟩) := by
  obtain ⟨hidle, hcout⟩ := h.unserved rfl
  refine ⟨by simp, fun u hu ↦ ?_, h.done, h.caught⟩
  cases hu
  exact ⟨hstate, Nat.zero_le _, by simp [hidle, hcout], by rw [hidle]; rfl⟩

end Conveyed

variable {w w' : Service n}

/-- Something is done on the connection to a client that has been accepted. -/
theorem Conveys.modifySocket (h : w.Conveys) {i : Fin n} {f : Stream → Stream} {t t' : Supply}
    (ht : w.supply i = some t)
    (hc : Conveyed { w.clients.client i with socket := f (w.clients.client i).socket } (some t')) :
    (w.serve i (w.clients.modifySocket i f) t').Conveys := by
  refine ⟨h.nodup, fun k hk ↦ ?_, fun k hk ↦ ?_, fun k ↦ ?_⟩
  · obtain ⟨hnone, hstate⟩ := h.waiting k hk
    have hki : k ≠ i := fun he ↦ by
      rw [he, ht] at hnone
      cases hnone
    exact ⟨by rw [supply_serve_of_ne hki, hnone],
      by rwa [clients_serve, Clients.client_modifySocket_of_ne hki]⟩
  · by_cases hki : k = i
    · subst hki
      exact .inr (by rw [supply_serve_self]; rfl)
    · rw [clients_serve, Clients.client_modifySocket_of_ne hki] at hk
      rw [supply_serve_of_ne hki]
      exact h.reading k hk
  · by_cases hki : k = i
    · subst hki
      rw [clients_serve, Clients.client_modifySocket_self, supply_serve_self]
      exact hc
    · rw [clients_serve, Clients.client_modifySocket_of_ne hki, supply_serve_of_ne hki]
      exact h.conveyed k

/-- The clients that wait after a call. -/
theorem mem_backlog_call {v : Clients n} {i k : Fin n} {e : ClientCall} :
    k ∈ (v.call i e).backlog ↔ k ∈ v.backlog ∨ e = .connect false ∧ k = i := by
  simp only [Clients.call]
  split <;> simp [*]

theorem Conveys.call (h : w.Conveys) {i : Fin n} {e : ClientCall}
    (he : (w.clients.client i).enabled e = true) :
    Conveys { w with clients := w.clients.call i e } := by
  have hconnect (h' : e = .connect false) : (w.clients.client i).state = .connect := by
    rw [h'] at he
    exact of_decide_eq_true he
  have hnew (h' : e = .connect false) : i ∉ w.clients.backlog := fun hi ↦
    (h.waiting i hi).2 (hconnect h')
  refine ⟨?_, fun k hk ↦ ?_, fun k hk ↦ ?_, fun k ↦ ?_⟩
  · simp only [Clients.call]
    split
    · rename_i h'
      exact List.nodup_append.mpr ⟨h.nodup, List.nodup_singleton i, fun a ha b hb hab ↦
        hnew h' (by rwa [← List.mem_singleton.mp hb, ← hab])⟩
    · exact h.nodup
  · by_cases hki : k = i
    · subst hki
      rcases mem_backlog_call.mp hk with hk | ⟨rfl, -⟩
      · obtain ⟨hnone, hstate⟩ := h.waiting k hk
        refine ⟨hnone, ?_⟩
        rw [Clients.client_call_self]
        cases e with
        | connect error => exact absurd (of_decide_eq_true he) hstate
        | readSome len =>
            simp only [Client.step, Client.readSome]
            split
            · simp
            · exact hstate
        | readError => simp [Client.step, Client.caught]
      · refine ⟨?_, by simp [Client.step, Client.connect]⟩
        cases hs : w.supply k with
        | none => rfl
        | some t => exact absurd (hconnect rfl) ((h.conveyed k).served t hs).1
    · rw [Clients.client_call_of_ne hki]
      exact h.waiting k ((mem_backlog_call.mp hk).resolve_right fun hr ↦ hki hr.2)
  · by_cases hki : k = i
    · subst hki
      rw [Clients.client_call_self] at hk
      cases e with
      | connect error =>
          cases error with
          | true => cases hk
          | false => exact .inl (mem_backlog_call.mpr (.inr ⟨rfl, rfl⟩))
      | readSome len =>
          simp only [Client.enabled, Bool.and_eq_true, decide_eq_true_eq] at he
          exact (h.reading k he.1).imp_left fun hq ↦ mem_backlog_call.mpr (.inl hq)
      | readError => cases hk
    · rw [Clients.client_call_of_ne hki] at hk
      exact (h.reading k hk).imp_left fun hq ↦ mem_backlog_call.mpr (.inl hq)
  · by_cases hki : k = i
    · subst hki
      rw [Clients.client_call_self]
      exact (h.conveyed k).call he
    · rw [Clients.client_call_of_ne hki]
      exact h.conveyed k

theorem Conveys.accept (h : w.Conveys) {i : Fin n} (hi : i ∈ w.clients.backlog)
    (text : List UInt8) :
    (w.serve i (w.clients.accept i) ⟨text, 0, false⟩).Conveys := by
  obtain ⟨hnone, hstate⟩ := h.waiting i hi
  refine ⟨h.nodup.erase i, fun k hk ↦ ?_, fun k hk ↦ ?_, fun k ↦ ?_⟩
  · obtain ⟨hki, hk⟩ := h.nodup.mem_erase_iff.mp hk
    rw [supply_serve_of_ne hki]
    exact h.waiting k hk
  · by_cases hki : k = i
    · subst hki
      exact .inr (by rw [supply_serve_self]; rfl)
    · rw [supply_serve_of_ne hki]
      exact (h.reading k hk).imp_left fun hq ↦ h.nodup.mem_erase_iff.mpr ⟨hki, hq⟩
  · by_cases hki : k = i
    · subst hki
      rw [supply_serve_self]
      exact Conveyed.accept (hnone ▸ h.conveyed k) hstate text
    · rw [supply_serve_of_ne hki]
      exact h.conveyed k

/-- **Every step conveys**, of the service and of its clients. -/
theorem Conveys.step (h : w.Conveys) {e : ServiceEvent n} (he : w.enabled e = true)
    (hs : w.step e = some w') : w'.Conveys := by
  cases e with
  | call i e =>
      cases hs
      exact h.call he
  | accept i text =>
      cases hs
      exact h.accept (Clients.waits_iff.mp he) text
  | send i k =>
      obtain ⟨t, ht, rfl⟩ := Option.map_eq_some_iff.mp hs
      simp only [enabled, ht, Option.any_some, Bool.and_eq_true, Bool.not_eq_true',
        decide_eq_true_eq] at he
      exact h.modifySocket ht ((ht ▸ h.conveyed i).send he.1.1 he.2)
  | close i =>
      obtain ⟨t, ht, rfl⟩ := Option.map_eq_some_iff.mp hs
      exact h.modifySocket ht (ht ▸ h.conveyed i).close

/-! ## What the clients print -/

/-- **A client prints what has been sent to it**, and nothing before it has been
accepted.  A client that has come to the end of its connection has printed all
that has been sent. -/
theorem Conveys.printed (h : w.Conveys) (i : Fin n) :
    (w.supply i = none → (w.clients.client i).cout = [] ∧ ¬ (w.clients.client i).Done) ∧
    ∀ t, w.supply i = some t → (w.clients.client i).cout <+: t.text ∧
      ((w.clients.client i).Done → t.closed = true ∧
        (w.clients.client i).cout = t.text.take t.sent) := by
  have hc := h.conveyed i
  refine ⟨fun hnone ↦ ⟨(hc.unserved hnone).2, fun hdone ↦ ?_⟩, fun t ht ↦ ?_⟩
  · have := (hc.done hdone).2
    rw [(hc.unserved hnone).1] at this
    cases this
  · obtain ⟨-, -, hbytes, hended⟩ := hc.served t ht
    refine ⟨?_, fun hdone ↦ ?_⟩
    · exact List.IsPrefix.trans ⟨_, hbytes⟩ (List.take_prefix _ _)
    · obtain ⟨hnil, hend⟩ := hc.done hdone
      rw [hnil, List.append_nil] at hbytes
      exact ⟨hended.symm.trans hend, hbytes⟩

/-- A connection is closed when all of its text has been sent. -/
def Whole (w : Service n) : ServiceEvent n → Prop
  | .close i => ∀ t, w.supply i = some t → t.sent = t.text.length
  | _ => True

theorem sent_of_whole (h : (system n).Reachable Whole w) {i : Fin n} {t : Supply}
    (ht : w.supply i = some t) (hc : t.closed = true) : t.sent = t.text.length := by
  induction h generalizing i t with
  | init hi =>
      cases hi
      cases ht
  | @step w w' e _ he hg hs ih =>
      cases e with
      | call k e =>
          cases hs
          exact ih ht hc
      | accept k text =>
          cases hs
          by_cases hik : i = k
          · subst hik
            rw [supply_serve_self] at ht
            cases ht
            cases hc
          · exact ih (supply_serve_of_ne hik ▸ ht) hc
      | send k m =>
          obtain ⟨u, hu, rfl⟩ := Option.map_eq_some_iff.mp hs
          by_cases hik : i = k
          · subst hik
            rw [supply_serve_self] at ht
            cases ht
            have hopen : w.enabled (.send i m) = true := he
            simp only [enabled, hu, Option.any_some, Bool.and_eq_true, Bool.not_eq_true'] at hopen
            exact absurd (hopen.1.1.symm.trans hc) Bool.false_ne_true
          · exact ih (supply_serve_of_ne hik ▸ ht) hc
      | close k =>
          obtain ⟨u, hu, rfl⟩ := Option.map_eq_some_iff.mp hs
          by_cases hik : i = k
          · subst hik
            rw [supply_serve_self] at ht
            cases ht
            exact hg u hu
          · exact ih (supply_serve_of_ne hik ▸ ht) hc

/-- If nobody waits and every connection is closed, the clients can come to their
ends. -/
theorem Conveys.returned_of_quiet (h : w.Conveys) (hb : w.clients.backlog = [])
    (hc : ∀ i t, w.supply i = some t → t.closed = true)
    (hq : ∀ i e, e.Succeeds → (w.clients.client i).enabled e = false) (i : Fin n) :
    (w.clients.client i).state = .returned := by
  cases hs : (w.clients.client i).state with
  | returned => rfl
  | connect =>
      have := hq i (.connect false) rfl
      simp [Client.enabled, hs] at this
  | read =>
      obtain ⟨t, ht⟩ := Option.isSome_iff_exists.mp ((h.reading i hs).resolve_left (by simp [hb]))
      have hended := ((h.conveyed i).served t ht).2.2.2
      obtain ⟨k, hk⟩ := Stream.exists_delivers (n := bufSize) (by decide)
        (.inr (hended.trans (hc i t ht)))
      have := hq i (.readSome k) trivial
      simp [Client.enabled, hs, hk] at this

/-! ## How long a run can be -/

/-- A bound for the steps that are ahead of a client, if no text is longer than
`L`; a byte that has not been sent is counted twice, once for its way to the
client and once for the client. -/
def ahead (L : Nat) (c : Client) (s : Option Supply) : Nat :=
  (match c.state with
    | .connect => 2
    | .read => 1
    | .returned => 0) + c.socket.inFlight.length +
  match s with
    | none => 2 * L + 2
    | some t => 2 * (t.text.length - t.sent) + if t.closed then 0 else 1

/-- A text that a client is given is not longer than `L`. -/
def short (L : Nat) (_ : Service n) : ServiceEvent n → Bool
  | .accept _ text => text.length ≤ L
  | _ => true

theorem ahead_step_call {L : Nat} {c : Client} {s : Option Supply} {e : ClientCall}
    (he : c.enabled e = true) : ahead L (c.step e) s < ahead L c s := by
  cases e with
  | connect error =>
      have hstate : c.state = .connect := of_decide_eq_true he
      cases error <;> simp [ahead, Client.step, Client.connect, Client.caught, hstate]
  | readSome len =>
      simp only [Client.enabled, Bool.and_eq_true, decide_eq_true_eq] at he
      obtain ⟨hstate, hdel⟩ := he
      cases len with
      | zero => simp [ahead, Client.step, Client.readSome, hstate]
      | succ k =>
          have := (Stream.length_recv hdel).2
          simp only [ahead, Client.step, Client.readSome, hstate]
          simp
          omega
  | readError =>
      have hstate : c.state = .read := of_decide_eq_true he
      simp [ahead, Client.step, Client.caught, hstate]

/-- A step that is about client `i`, and takes some of what is ahead of it. -/
theorem sum_ahead_lt (w w' : Service n) {L : Nat} (i : Fin n)
    (hi : ahead L (w'.clients.client i) (w'.supply i) < ahead L (w.clients.client i) (w.supply i))
    (hk : ∀ k, k ≠ i → w'.clients.client k = w.clients.client k ∧ w'.supply k = w.supply k) :
    ∑ k, ahead L (w'.clients.client k) (w'.supply k) <
      ∑ k, ahead L (w.clients.client k) (w.supply k) := by
  refine Finset.sum_lt_sum (fun k _ ↦ ?_) ⟨i, Finset.mem_univ i, hi⟩
  by_cases hki : k = i
  · exact hki ▸ hi.le
  · obtain ⟨hc, hs⟩ := hk k hki
    rw [hc, hs]

theorem Conveys.sum_ahead_lt_of_step (h : w.Conveys) {L : Nat} {e : ServiceEvent n}
    (he : w.enabled e = true) (hg : short L w e = true) (hs : w.step e = some w') :
    ∑ k, ahead L (w'.clients.client k) (w'.supply k) <
      ∑ k, ahead L (w.clients.client k) (w.supply k) := by
  cases e with
  | call i e =>
      cases hs
      refine sum_ahead_lt w _ i ?_ fun k hk ↦ ⟨Clients.client_call_of_ne hk e, rfl⟩
      rw [Clients.client_call_self]
      exact ahead_step_call he
  | accept i text =>
      cases hs
      refine sum_ahead_lt w _ i ?_ fun k hk ↦ ⟨rfl, supply_serve_of_ne hk⟩
      have hlen : text.length ≤ L := of_decide_eq_true hg
      rw [supply_serve_self, (h.waiting i (Clients.waits_iff.mp he)).1]
      simp only [ahead, clients_serve, Clients.client_accept]
      simp
      omega
  | send i k =>
      obtain ⟨t, ht, rfl⟩ := Option.map_eq_some_iff.mp hs
      simp only [enabled, ht, Option.any_some, Bool.and_eq_true, Bool.not_eq_true',
        decide_eq_true_eq] at he
      refine sum_ahead_lt w _ i ?_ fun k hk ↦
        ⟨Clients.client_modifySocket_of_ne (w := w.clients) hk (·.send _), supply_serve_of_ne hk⟩
      rw [supply_serve_self, ht, clients_serve, Clients.send, Clients.client_modifySocket_self]
      simp only [ahead, Stream.inFlight_send, List.length_append, List.length_take,
        List.length_drop]
      omega
  | close i =>
      obtain ⟨t, ht, rfl⟩ := Option.map_eq_some_iff.mp hs
      simp only [enabled, ht, Option.any_some, Bool.not_eq_true'] at he
      refine sum_ahead_lt w _ i ?_ fun k hk ↦
        ⟨Clients.client_modifySocket_of_ne (w := w.clients) hk (·.finish), supply_serve_of_ne hk⟩
      rw [supply_serve_self, ht, clients_serve, Clients.close, Clients.client_modifySocket_self]
      simp [ahead, he]

/-- **Every run comes to an end.** -/
theorem length_run_le {L : Nat} {es : List (ServiceEvent n)}
    (hx : (system n).exec (short L) (start n) es = some w) : es.length ≤ (2 * L + 4) * n := by
  have hsum := System.length_exec_le (I := Conveys)
    (m := fun w ↦ ∑ k, ahead L (w.clients.client k) (w.supply k))
    (fun _ _ _ h he hs ↦ h.step he hs) (fun _ _ _ h he hg hs ↦ h.sum_ahead_lt_of_step he hg hs)
    (conveys_start n) hx
  have hstart (k : Fin n) : ahead L ((start n).clients.client k) ((start n).supply k) =
      2 * L + 4 := by
    simp only [ahead, start, Clients.start, Client.start, Stream.inFlight_idle, List.length_nil]
    omega
  simp only [hstart, Finset.sum_const, Finset.card_univ, Fintype.card_fin, Nat.nsmul_eq_mul] at hsum
  rwa [Nat.mul_comm] at hsum

end Service

end CppExamples.TcpDaytime
