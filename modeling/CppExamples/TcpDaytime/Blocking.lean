import CppExamples.Lib.Simulation
import CppExamples.TcpDaytime.Service

/-!
# The blocking daytime server and its clients

`Boost_TCP_Server_Main.cpp` accepts a client, sends it the time of day and closes
the connection, and only then accepts the next one.  An error of the `write` is
ignored; an `accept` that fails throws, and the server returns.

`Represents` says that this is the same service that the asynchronous server
provides, except that at most one connection is open at a time.  So every client
prints a front of the text that was made for it, and the whole of it if no `write`
fails (`served_shown`).
-/

namespace CppExamples.TcpDaytime

open CppExamples.Lib

namespace Blocking

/-- Where the `main` of the server is. -/
inductive ServerState (n : Nat) where
  | accept
  | /-- In the `write` of `message` to client `i`, of which `sent` bytes have been sent. -/
    write (i : Fin n) (message : List UInt8) (sent : Nat)
  | returned
deriving DecidableEq

/-- The server and `n` clients. -/
structure Network (n : Nat) where
  server : ServerState n
  clients : Clients n
  /-- The clients that have been accepted so far, and the `message` for each of them. -/
  served : List (Fin n × List UInt8)

/-- What can happen next. -/
inductive NetworkEvent (n : Nat) where
  | call (i : Fin n) (e : ClientCall)
  | /-- `accept` returns with client `i`, and `make_daytime_string` with `now`. -/
    accept (i : Fin n) (now : List UInt8)
  | acceptError
  | /-- The `write` sends `k` more bytes. -/
    send (k : Nat)
  | writeDone (error : Bool)

namespace Network

variable {n : Nat}

def enabled (w : Network n) : NetworkEvent n → Bool
  | .call i e => (w.clients.client i).enabled e
  | .accept i _ => w.server = .accept && w.clients.waits i
  | .acceptError => w.server = .accept
  | .send k => match w.server with
      | .write _ message sent => 0 < k && sent + k ≤ message.length
      | _ => false
  | .writeDone error => match w.server with
      | .write _ message sent => error || sent = message.length
      | _ => false

def step (w : Network n) : NetworkEvent n → Option (Network n)
  | .call i e => some { w with clients := w.clients.call i e }
  | .accept i now => some
      { server := .write i now 0
        clients := w.clients.accept i
        served := w.served ++ [(i, now)] }
  | .acceptError => some { w with server := .returned }
  | .send k => match w.server with
      | .write i message sent => some
          { w with
            server := .write i message (sent + k)
            clients := w.clients.send i ((message.drop sent).take k) }
      | _ => none
  | .writeDone _ => match w.server with
      -- the error is ignored, and the destructor of `socket` closes the connection
      | .write i _ _ => some { w with server := .accept, clients := w.clients.close i }
      | _ => none

def start (n : Nat) : Network n := ⟨.accept, .start n, []⟩

/-- The runs of the server and `n` clients. -/
def system (n : Nat) : System (Network n) (NetworkEvent n) where
  init w := w = start n
  enabled := enabled
  step := step

/-! ## The refinement -/

/-- What the server has done for its clients so far is `t`. -/
structure Represents (w : Network n) (t : Service n) : Prop where
  conveys : t.Conveys
  clients : t.clients = w.clients
  nodup : (w.served.map Prod.fst).Nodup
  unserved : ∀ i, i ∉ w.served.map Prod.fst → t.supply i = none
  served : ∀ i text, (i, text) ∈ w.served → ∃ sent closed, t.supply i = some ⟨text, sent, closed⟩
  current : ∀ i text sent, w.server = .write i text sent ↔
    t.supply i = some ⟨text, sent, false⟩

variable {w w' : Network n} {t : Service n}

theorem represents_start (n : Nat) : Represents (start n) (.start n) where
  conveys := Service.conveys_start n
  clients := rfl
  nodup := List.nodup_nil
  unserved _ _ := rfl
  served := by simp [start]
  current := by simp [start, Service.start]

/-- A client that has been accepted has been given a text. -/
theorem Represents.supply_of_served (h : Represents w t) {i : Fin n}
    (hi : i ∈ w.served.map Prod.fst) : ∃ text sent closed, (i, text) ∈ w.served ∧
      t.supply i = some ⟨text, sent, closed⟩ := by
  obtain ⟨⟨k, text⟩, hmem, rfl⟩ := List.mem_map.mp hi
  obtain ⟨sent, closed, hsupply⟩ := h.served k text hmem
  exact ⟨text, sent, closed, hmem, hsupply⟩

theorem Represents.call (h : Represents w t) {i : Fin n} {e : ClientCall}
    (he : (w.clients.client i).enabled e = true) :
    Represents { w with clients := w.clients.call i e }
      { t with clients := t.clients.call i e } where
  conveys := h.conveys.call (h.clients ▸ he)
  clients := by rw [h.clients]
  nodup := h.nodup
  unserved := h.unserved
  served := h.served
  current := h.current

theorem Represents.accept (h : Represents w t) {i : Fin n} {now : List UInt8}
    (hs : w.server = .accept) (hi : i ∈ w.clients.backlog) :
    Represents ⟨.write i now 0, w.clients.accept i, w.served ++ [(i, now)]⟩
      (t.serve i (t.clients.accept i) ⟨now, 0, false⟩) := by
  rw [← h.clients] at hi
  have hnone : t.supply i = none := (h.conveys.waiting i hi).1
  have hnew : i ∉ w.served.map Prod.fst := fun hmem ↦ by
    obtain ⟨text, sent, closed, -, hsupply⟩ := h.supply_of_served hmem
    rw [hnone] at hsupply
    cases hsupply
  refine ⟨h.conveys.accept hi now, ?_, ?_, fun k hk ↦ ?_, fun k text hk ↦ ?_,
    fun k text sent ↦ ?_⟩
  · rw [Service.clients_serve, h.clients]
  · rw [List.map_append, List.map_singleton, List.nodup_append]
    refine ⟨h.nodup, List.nodup_singleton _, fun a ha b hb hab ↦ hnew ?_⟩
    have hbi : b = i := List.mem_singleton.mp hb
    rwa [← hbi, ← hab]
  · rw [List.map_append, List.mem_append, List.map_singleton, List.mem_singleton, not_or] at hk
    rw [Service.supply_serve_of_ne hk.2]
    exact h.unserved k hk.1
  · rw [List.mem_append, List.mem_singleton] at hk
    rcases hk with hk | hk
    · have hki : k ≠ i := fun he ↦ hnew (he ▸ List.mem_map_of_mem hk)
      rw [Service.supply_serve_of_ne hki]
      exact h.served k text hk
    · cases hk
      exact ⟨0, false, Service.supply_serve_self⟩
  · by_cases hki : k = i
    · subst hki
      rw [Service.supply_serve_self]
      simp
    · rw [Service.supply_serve_of_ne hki, ← h.current, hs]
      simp [Ne.symm hki]

/-- More has been done for the client that is written to. -/
theorem Represents.serve (h : Represents w t) {i : Fin n} {text : List UInt8} {sent m : Nat}
    {closed : Bool} {clients : Clients n} (hs : w.server = .write i text sent)
    (hconveys : (t.serve i clients ⟨text, m, closed⟩).Conveys) :
    Represents ⟨if closed then .accept else .write i text m, clients, w.served⟩
      (t.serve i clients ⟨text, m, closed⟩) := by
  have hsupply : t.supply i = some ⟨text, sent, false⟩ := (h.current i text sent).mp hs
  refine ⟨hconveys, rfl, h.nodup, fun k hk ↦ ?_, fun k text' hk ↦ ?_, fun k text' sent' ↦ ?_⟩
  · have hki : k ≠ i := fun he ↦ by
      rw [he] at hk
      rw [h.unserved i hk] at hsupply
      cases hsupply
    rw [Service.supply_serve_of_ne hki]
    exact h.unserved k hk
  · obtain ⟨sent', closed', hsupply'⟩ := h.served k text' hk
    by_cases hki : k = i
    · subst hki
      cases hsupply.symm.trans hsupply'
      exact ⟨m, closed, Service.supply_serve_self⟩
    · rw [Service.supply_serve_of_ne hki]
      exact ⟨sent', closed', hsupply'⟩
  · by_cases hki : k = i
    · subst hki
      rw [Service.supply_serve_self]
      cases closed <;> simp
    · rw [Service.supply_serve_of_ne hki, ← h.current, hs]
      cases closed <;> simp [Ne.symm hki]

/-- No `write` fails. -/
def WritesSucceed (_ : Network n) (e : NetworkEvent n) : Prop := e ≠ .writeDone true

/-- **The refinement step.**  A step of the network is a step of the service,
unless it is an `accept` that fails. -/
theorem Represents.step (h : Represents w t) {e : NetworkEvent n} (he : w.enabled e = true)
    (hs : w.step e = some w') : e = .acceptError ∧ Represents w' t ∨
      ∃ e' t', t.enabled e' = true ∧ t.step e' = some t' ∧ Represents w' t' ∧
        (w.WritesSucceed e → t.Whole e') := by
  cases e with
  | call i e =>
      cases hs
      have he' : t.enabled (.call i e) = true := by
        rw [Service.enabled, h.clients]
        exact he
      exact .inr ⟨.call i e, _, he', rfl, h.call he, fun _ ↦ trivial⟩
  | accept i now =>
      cases hs
      simp only [enabled, Bool.and_eq_true, decide_eq_true_eq, Clients.waits_iff] at he
      have he' : t.enabled (.accept i now) = true := Clients.waits_iff.mpr (h.clients ▸ he.2)
      exact .inr ⟨.accept i now, _, he', rfl, h.accept he.1 he.2, fun _ ↦ trivial⟩
  | acceptError =>
      cases hs
      refine .inl ⟨rfl, h.conveys, h.clients, h.nodup, h.unserved, h.served,
        fun i text sent ↦ ?_⟩
      rw [← h.current, of_decide_eq_true he]
      simp
  | send k =>
      cases hserver : w.server with
      | accept => simp [enabled, hserver] at he
      | returned => simp [enabled, hserver] at he
      | write i text sent =>
          simp only [enabled, hserver, Bool.and_eq_true, decide_eq_true_eq] at he
          simp only [Network.step, hserver, Option.some.injEq] at hs
          have hsupply := (h.current i text sent).mp hserver
          have he' : t.enabled (.send i k) = true := by
            simp [Service.enabled, hsupply, he.1, he.2]
          have hs' : t.step (.send i k) = some (t.serve i
              (t.clients.send i ((text.drop sent).take k)) ⟨text, sent + k, false⟩) := by
            rw [Service.step, hsupply, Option.map_some]
          refine .inr ⟨.send i k, _, he', hs', ?_, fun _ ↦ trivial⟩
          rw [← hs, ← h.clients]
          exact h.serve hserver (h.conveys.step he' hs')
  | writeDone error =>
      cases hserver : w.server with
      | accept => simp [enabled, hserver] at he
      | returned => simp [enabled, hserver] at he
      | write i text sent =>
          simp only [Network.step, hserver, Option.some.injEq] at hs
          have hsupply := (h.current i text sent).mp hserver
          have he' : t.enabled (.close i) = true := by simp [Service.enabled, hsupply]
          have hs' : t.step (.close i) = some (t.serve i (t.clients.close i)
              ⟨text, sent, true⟩) := by
            rw [Service.step, hsupply, Option.map_some]
          refine .inr ⟨.close i, _, he', hs', ?_, fun hg u hu ↦ ?_⟩
          · rw [← hs, ← h.clients]
            exact h.serve hserver (h.conveys.step he' hs')
          · cases hsupply.symm.trans hu
            obtain rfl : error = false := by
              cases error with
              | true => exact absurd rfl hg
              | false => rfl
            simpa [enabled, hserver] using he

theorem exists_represents (h : (system n).Reachable Always w) : ∃ t, Represents w t := by
  refine h.invariant (I := fun w ↦ ∃ t, Represents w t) ?_ ?_
  · rintro _ rfl
    exact ⟨_, represents_start n⟩
  · rintro w e w' - ⟨t, h⟩ he - hs
    rcases h.step he hs with ⟨-, h'⟩ | ⟨-, t', -, -, h', -⟩
    · exact ⟨t, h'⟩
    · exact ⟨t', h'⟩

theorem exists_whole (h : (system n).Reachable WritesSucceed w) :
    ∃ t, (Service.system n).Reachable Service.Whole t ∧ Represents w t := by
  refine h.simulate ?_ ?_
  · rintro _ rfl
    exact ⟨_, rfl, represents_start n⟩
  · intro w e w' t _ ht hr he hg hs
    rcases hr.step he hs with ⟨-, h'⟩ | ⟨e', t', he', hs', h', hwhole⟩
    · exact ⟨t, ht, h'⟩
    · exact ⟨t', ht.step he' (hwhole hg) hs', h'⟩

/-! ## What the clients print -/

/-- **Every client prints a front of the text that was made for it**, whatever
fails, and it is served once at most; a client that has come to the end of the
connection has printed the whole text, unless a `write` has failed. -/
theorem served_shown (h : (system n).Reachable Always w) :
    (w.served.map Prod.fst).Nodup ∧ ∀ i,
      (i ∉ w.served.map Prod.fst →
        (w.clients.client i).cout = [] ∧ ¬ (w.clients.client i).Done) ∧
      ∀ text, (i, text) ∈ w.served → (w.clients.client i).cout <+: text ∧
        ((w.clients.client i).Done → (∀ sent, w.server ≠ .write i text sent) ∧
          ((system n).Reachable WritesSucceed w → (w.clients.client i).cout = text)) := by
  obtain ⟨t, ht⟩ := exists_represents h
  refine ⟨ht.nodup, fun i ↦ ?_⟩
  obtain ⟨hunserved, hserved⟩ := ht.conveys.printed i
  rw [ht.clients] at hunserved hserved
  refine ⟨fun hi ↦ hunserved (ht.unserved i hi), fun text hi ↦ ?_⟩
  obtain ⟨sent, closed, hsupply⟩ := ht.served i text hi
  obtain ⟨hfront, hdone⟩ := hserved _ hsupply
  refine ⟨hfront, fun hd ↦ ⟨fun sent' hs ↦ ?_, fun hw ↦ ?_⟩⟩
  · have hclosed : closed = true := (hdone hd).1
    cases hclosed
    cases hsupply.symm.trans ((ht.current i text sent').mp hs)
  · obtain ⟨u, hwhole, hu⟩ := exists_whole hw
    obtain ⟨m, closed', hsupply'⟩ := hu.served i text hi
    have hprinted := (hu.conveys.printed i).2 _ hsupply'
    rw [hu.clients] at hprinted
    obtain ⟨hclosed, hall⟩ := hprinted.2 hd
    have hsent : m = text.length := Service.sent_of_whole hwhole hsupply' hclosed
    rw [hall, hsent, List.take_length]

end Network

end Blocking

end CppExamples.TcpDaytime
