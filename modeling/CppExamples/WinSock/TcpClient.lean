import CppExamples.Lib.Loop
import CppExamples.WinSock.Calls

/-!
# The TCP client

`MSExample_TCP-Client.cpp`: get a list of addresses, connect to the first one
that accepts, send a line, and receive until the other side is done.

Every exit gives back what is held at that point, with one exception.  The loop
over the addresses holds the list of them, and leaves `main` where a socket
cannot be created; the list is not freed there.
-/

namespace CppExamples.WinSock.TcpClient

open CppExamples.Lib

/-- What becomes of an address in the loop. -/
inductive Attempt where
  | /-- `socket` fails. -/
    noSocket (error : Int)
  | /-- `connect` fails. -/
    refused
  | accepted
deriving DecidableEq

/-- The outcomes of the calls. -/
structure Env where
  argc : Nat
  wsaStartup : Int
  getaddrinfo : Except Int (List Attempt)
  send : Except Int Nat
  /-- The error of `shutdown`, if it has one. -/
  shutdown : Option Int
  recvs : List Recv

/-- How the loop over the addresses ends. -/
inductive Connecting where
  | noSocket (error : Int)
  | unable
  | connected (k : Nat)
deriving DecidableEq

/-- The loop over the addresses, from the one at index `k` on. -/
def connectLoop (k : Nat) : List Attempt → List Call × Connecting
  | [] => ([], .unable)
  | .noSocket error :: _ => ([.socket none], .noSocket error)
  | .refused :: rest =>
      let (calls, result) := connectLoop (k + 1) rest
      (.socket (some k) :: .connect k :: .closesocket k :: .nextAddress :: calls, result)
  | .accepted :: _ => ([.socket (some k), .connect k], .connected k)

/-- The body of the loop that receives. -/
def receive (k : Nat) (calls : List Call) (r : Recv) : Option (Pass (List Call) Unit) :=
  if r.result > 0 then
    some (.again (calls ++ [.recv k, .printf (.bytesReceived r.bytes.length)]))
  else if r.result = 0 then some (.left (calls ++ [.recv k, .printf .connectionClosed]) ())
  else some (.left (calls ++ [.recv k, .printf (.recvFailed r.lastError)]) ())

/-- `main`, from the connection on: the calls, and what is returned; `none` while
the loop that receives goes on. -/
def exchange (env : Env) (k : Nat) : Option (List Call × Int) :=
  match env.send with
  | .error e => some ([.send k, .printf (.sendFailed e), .closesocket k, .wsaCleanup], 1)
  | .ok n => match env.shutdown with
      | some e =>
          some ([.send k, .printf (.bytesSent n), .shutdown k, .printf (.shutdownFailed e),
            .closesocket k, .wsaCleanup], 1)
      | none => match loop (receive k) [] env.recvs with
          | some (.left calls ()) =>
              some ([.send k, .printf (.bytesSent n), .shutdown k] ++
                (calls ++ [.closesocket k, .wsaCleanup]), 0)
          | _ => none

/-- `main` -/
def main (env : Env) : Option (List Call × Int) :=
  if env.argc ≠ 2 then some ([.printf .usage], 1)
  else if env.wsaStartup ≠ 0 then
    some ([.wsaStartup false, .printf (.wsaStartupFailed env.wsaStartup)], 1)
  else match env.getaddrinfo with
    | .error e =>
        some ([.wsaStartup true, .getaddrinfo false, .printf (.getaddrinfoFailed e), .wsaCleanup],
          1)
    | .ok result => match connectLoop 0 result with
        | (calls, .noSocket e) =>
            some ([.wsaStartup true, .getaddrinfo true] ++
              (calls ++ [.printf (.socketFailed e), .wsaCleanup]), 1)
        | (calls, .unable) =>
            some ([.wsaStartup true, .getaddrinfo true] ++
              (calls ++ [.freeaddrinfo, .printf .unableToConnect, .wsaCleanup]), 1)
        | (calls, .connected k) => (exchange env k).map fun r ↦
            ([.wsaStartup true, .getaddrinfo true] ++ (calls ++ (.freeaddrinfo :: r.1)), r.2)

section Connect

variable {k m : Nat} {s : Life} {as : List Attempt}

/-- The loop over the addresses uses the list of them, and its own sockets. -/
theorem accesses_connectLoop (a : Access Resource) (ha : a ∈ accesses (connectLoop k as).1) :
    a = .use .addrinfo ∨ ∃ j, k ≤ j ∧ a.resource = .socket j := by
  induction as generalizing k with
  | nil => cases ha
  | cons attempt as ih =>
      have hown (b : Access Resource) (hb : b.resource = .socket k) :
          b = .use .addrinfo ∨ ∃ j, k ≤ j ∧ b.resource = .socket j :=
        .inr ⟨k, Nat.le_refl k, hb⟩
      cases attempt with
      | noSocket e =>
          exact .inl (List.mem_singleton.mp ha)
      | refused =>
          simp only [connectLoop, accesses_cons, Call.accesses, Option.map_some,
            Option.toList_some, List.cons_append, List.nil_append, List.mem_cons] at ha
          rcases ha with rfl | rfl | rfl | rfl | rfl | rfl | ha
          · exact .inl rfl
          · exact hown _ rfl
          · exact .inl rfl
          · exact hown _ rfl
          · exact hown _ rfl
          · exact .inl rfl
          · rcases ih ha with h | ⟨j, hj, h⟩
            · exact .inl h
            · exact .inr ⟨j, by omega, h⟩
      | accepted =>
          simp only [connectLoop, accesses_cons, accesses_nil, Call.accesses, Option.map_some,
            Option.toList_some, List.cons_append, List.nil_append, List.mem_cons,
            List.not_mem_nil, or_false] at ha
          rcases ha with rfl | rfl | rfl | rfl
          · exact .inl rfl
          · exact hown _ rfl
          · exact .inl rfl
          · exact hown _ rfl

/-- It keeps off Winsock itself. -/
theorem winsock_connectLoop : lifeAfter .winsock s (connectLoop k as).1 = some s := by
  refine life_of_forall_ne fun a ha hres ↦ ?_
  rcases accesses_connectLoop a ha with rfl | ⟨j, -, h⟩
  · cases hres
  · rw [h] at hres
    cases hres

/-- It keeps off the sockets of the addresses in front. -/
theorem earlier_connectLoop {j : Nat} (hj : j < k) :
    lifeAfter (.socket j) s (connectLoop k as).1 = some s := by
  refine life_of_forall_ne fun a ha hres ↦ ?_
  rcases accesses_connectLoop a ha with rfl | ⟨i, hi, h⟩
  · cases hres
  · rw [h, Resource.socket.injEq] at hres
    omega

/-- The list of addresses is still there at the end. -/
theorem addrinfo_connectLoop :
    lifeAfter .addrinfo .live (connectLoop k as).1 = some .live := by
  induction as generalizing k with
  | nil => rfl
  | cons attempt as ih =>
      cases attempt with
      | noSocket e => rfl
      | refused => exact ih
      | accepted => rfl

/-- **The connection** is to the first address that accepts. -/
theorem findIdx_of_connected (h : (connectLoop k as).2 = .connected m) :
    ∃ i, m = k + i ∧ as.findIdx? (· = .accepted) = some i := by
  induction as generalizing k with
  | nil => cases h
  | cons attempt as ih =>
      cases attempt with
      | noSocket e => cases h
      | refused =>
          obtain ⟨i, rfl, hi⟩ := ih h
          refine ⟨i + 1, by omega, ?_⟩
          rw [List.findIdx?_cons, hi]
          rfl
      | accepted =>
          cases h
          exact ⟨0, rfl, rfl⟩

/-- It is one that the loop has come to. -/
theorem le_of_connected (h : (connectLoop k as).2 = .connected m) : k ≤ m := by
  obtain ⟨i, rfl, -⟩ := findIdx_of_connected h
  exact Nat.le_add_right k i

/-- **The sockets of the loop.**  All of them are closed but the one of the
connection. -/
theorem socket_connectLoop {j : Nat} (hj : k ≤ j) :
    (connectLoop k as).2 = .connected j ∧
        lifeAfter (.socket j) .unborn (connectLoop k as).1 = some .live ∨
      (connectLoop k as).2 ≠ .connected j ∧
        (lifeAfter (.socket j) .unborn (connectLoop k as).1 = some .unborn ∨
          lifeAfter (.socket j) .unborn (connectLoop k as).1 = some .dead) := by
  induction as generalizing k with
  | nil => exact .inr ⟨by rintro ⟨⟩, .inl rfl⟩
  | cons attempt as ih =>
      cases attempt with
      | noSocket e => exact .inr ⟨by rintro ⟨⟩, .inl rfl⟩
      | refused =>
          rcases Nat.eq_or_lt_of_le hj with rfl | hlt
          · refine .inr ⟨fun h ↦ ?_, .inr ?_⟩
            · have hle : k + 1 ≤ k := le_of_connected h
              omega
            · simpa [connectLoop, lifeAfter_cons, Call.accesses] using
                earlier_connectLoop (Nat.lt_succ_self k)
          · have hne : k ≠ j := Nat.ne_of_lt hlt
            simpa [connectLoop, lifeAfter_cons, Call.accesses, hne] using ih hlt
      | accepted =>
          rcases Nat.eq_or_lt_of_le hj with rfl | hlt
          · refine .inl ⟨rfl, ?_⟩
            simp [connectLoop, lifeAfter_cons, Call.accesses]
          · have hne : k ≠ j := Nat.ne_of_lt hlt
            refine .inr ⟨fun h ↦ hne (Connecting.connected.inj h), .inl ?_⟩
            simp [connectLoop, lifeAfter_cons, Call.accesses, hne]

/-- **The exit from the loop** is taken where the socket fails for an address
before the first one that accepts. -/
theorem noSocket_iff : (∃ e, (connectLoop k as).2 = .noSocket e) ↔
    ∃ e, Attempt.noSocket e ∈ as.takeWhile (· ≠ .accepted) := by
  induction as generalizing k with
  | nil => simp [connectLoop]
  | cons attempt as ih =>
      cases attempt with
      | noSocket e => exact ⟨fun _ ↦ ⟨e, by simp⟩, fun _ ↦ ⟨e, rfl⟩⟩
      | refused =>
          rw [List.takeWhile_cons_of_pos (by decide)]
          simpa [connectLoop] using ih
      | accepted => simp [connectLoop]

end Connect

section Exchange

variable {env : Env} {k : Nat}

/-- The loop that receives uses the socket of the connection, and nothing
else. -/
theorem loop_receive_calls {p : Pass (List Call) Unit} {rs : List Recv}
    (hp : loop (receive k) [] rs = some p) :
    ∀ c ∈ p.state, c = .recv k ∨ ∃ l, c = .printf l := by
  refine loop_invariant (I := fun _ calls ↦ ∀ c ∈ calls, c = .recv k ∨ ∃ l, c = .printf l)
    (fun before calls r p hcalls hp c hc ↦ ?_) [] (fun c hc ↦ by cases hc) hp
  have hpass : ∃ l, p.state = calls ++ [.recv k, .printf l] := by
    rw [receive] at hp
    split at hp
    · cases hp
      exact ⟨_, rfl⟩
    · split at hp <;> cases hp <;> exact ⟨_, rfl⟩
  obtain ⟨l, hl⟩ := hpass
  rw [hl, List.mem_append, List.mem_cons, List.mem_singleton] at hc
  rcases hc with hc | rfl | rfl
  · exact hcalls c hc
  · exact .inl rfl
  · exact .inr ⟨l, rfl⟩

/-- **What is done with the connection**: calls that use its socket, and then the
socket is closed and Winsock is cleaned up. -/
theorem exchange_calls {r : List Call × Int} (h : exchange env k = some r) :
    ∃ used, r.1 = used ++ [.closesocket k, .wsaCleanup] ∧
      ∀ c ∈ used, c = .recv k ∨ c = .send k ∨ c = .shutdown k ∨ ∃ l, c = .printf l := by
  rw [exchange] at h
  split at h
  · rename_i e _
    obtain rfl := Option.some.inj h
    exact ⟨[.send k, .printf (.sendFailed e)], rfl, by simp⟩
  · rename_i n _
    split at h
    · rename_i e _
      obtain rfl := Option.some.inj h
      exact ⟨[.send k, .printf (.bytesSent n), .shutdown k, .printf (.shutdownFailed e)], rfl,
        by simp⟩
    · split at h
      · rename_i calls hcalls
        obtain rfl := Option.some.inj h
        refine ⟨[.send k, .printf (.bytesSent n), .shutdown k] ++ calls, by simp, ?_⟩
        intro c hc
        rcases List.mem_append.mp hc with hc | hc
        · simp only [List.mem_cons, List.not_mem_nil, or_false] at hc
          rcases hc with rfl | rfl | rfl
          · exact .inr (.inl rfl)
          · exact .inr (.inr (.inr ⟨_, rfl⟩))
          · exact .inr (.inr (.inl rfl))
        · rcases loop_receive_calls hcalls c hc with rfl | hl
          · exact .inl rfl
          · exact .inr (.inr (.inr hl))
      · cases h

/-- The lives of the resources from the connection on. -/
theorem life_exchange {r : List Call × Int} (h : exchange env k = some r) (q : Resource) :
    if q = .winsock ∨ q = .socket k then lifeAfter q .live r.1 = some .dead
    else ∀ s, lifeAfter q s r.1 = some s := by
  obtain ⟨used, hr, hused⟩ := exchange_calls h
  rw [hr]
  exact lifeAfter_closing (onlyUse_of_mem hused) q

end Exchange

/-- The socket of the connection that a call uses. -/
def connection : Call → Option Nat
  | .send k => some k
  | .recv k => some k
  | .shutdown k => some k
  | _ => none

/-- A connection that is used is to the first address that accepts. -/
def UsesFirst (env : Env) (calls : List Call) : Prop :=
  ∀ c ∈ calls, ∀ k, connection c = some k →
    ∃ as, env.getaddrinfo = .ok as ∧ as.findIdx? (· = .accepted) = some k

/-- The loop over the addresses makes connections and does not use them. -/
theorem connection_connectLoop {k : Nat} {as : List Attempt} {c : Call}
    (hc : c ∈ (connectLoop k as).1) : connection c = none := by
  induction as generalizing k with
  | nil => cases hc
  | cons attempt as ih =>
      cases attempt with
      | noSocket e =>
          obtain rfl := List.mem_singleton.mp hc
          rfl
      | refused =>
          simp only [connectLoop, List.mem_cons] at hc
          rcases hc with rfl | rfl | rfl | rfl | hc
          · rfl
          · rfl
          · rfl
          · rfl
          · exact ih hc
      | accepted =>
          simp only [connectLoop, List.mem_cons, List.not_mem_nil, or_false] at hc
          rcases hc with rfl | rfl <;> rfl

section Main

variable {env : Env} {calls : List Call} {code : Int}

/-- Where `main` ends, after Winsock has started. -/
theorem main_cases (h : main env = some (calls, code)) (hstart : .wsaStartup true ∈ calls) :
    (∃ e, env.getaddrinfo = .error e ∧ calls = [.wsaStartup true, .getaddrinfo false,
        .printf (.getaddrinfoFailed e), .wsaCleanup]) ∨
      ∃ as, env.getaddrinfo = .ok as ∧
        ((∃ e, (connectLoop 0 as).2 = .noSocket e ∧
            calls = [.wsaStartup true, .getaddrinfo true] ++
              ((connectLoop 0 as).1 ++ [.printf (.socketFailed e), .wsaCleanup])) ∨
          ((connectLoop 0 as).2 = .unable ∧
            calls = [.wsaStartup true, .getaddrinfo true] ++
              ((connectLoop 0 as).1 ++ [.freeaddrinfo, .printf .unableToConnect, .wsaCleanup])) ∨
          ∃ k r, (connectLoop 0 as).2 = .connected k ∧ exchange env k = some r ∧
            calls = [.wsaStartup true, .getaddrinfo true] ++
              ((connectLoop 0 as).1 ++ (.freeaddrinfo :: r.1))) := by
  rw [main] at h
  split at h
  · cases h
    simp at hstart
  · split at h
    · cases h
      simp at hstart
    · split at h
      · rename_i e he
        cases h
        exact .inl ⟨e, he, rfl⟩
      · rename_i as has
        refine .inr ⟨as, has, ?_⟩
        split at h
        · rename_i tried e heq
          cases h
          exact .inl ⟨e, by rw [heq], by rw [heq]⟩
        · rename_i tried heq
          cases h
          exact .inr (.inl ⟨by rw [heq], by rw [heq]⟩)
        · rename_i tried k heq
          obtain ⟨r, hr, hcalls⟩ := Option.map_eq_some_iff.mp h
          cases hcalls
          exact .inr (.inr ⟨k, r, by rw [heq], hr, by rw [heq]⟩)

/-- The calls of `main` around the loop over the addresses and after it. -/
theorem lifeAfter_main {q : Resource} {s t : Life} {tried rest : List Call}
    (hs : lifeAfter q .unborn [.wsaStartup true, .getaddrinfo true] = some s)
    (ht : lifeAfter q s tried = some t) :
    lifeAfter q .unborn ([.wsaStartup true, .getaddrinfo true] ++ (tried ++ rest)) =
      lifeAfter q t rest := by
  rw [lifeAfter_append, hs, Option.bind_some, lifeAfter_append, ht, Option.bind_some]

/-- Without a connection the list of addresses is all that is left. -/
theorem givenBack_of_unable {as : List Attempt} (h : (connectLoop 0 as).2 = .unable) :
    GivenBack ([.wsaStartup true, .getaddrinfo true] ++
      ((connectLoop 0 as).1 ++ [.freeaddrinfo, .printf .unableToConnect, .wsaCleanup])) := by
  refine givenBack_of_life fun q ↦ ?_
  cases q with
  | winsock =>
      right
      rw [lifeAfter_main rfl winsock_connectLoop]
      rfl
  | addrinfo =>
      right
      rw [lifeAfter_main rfl addrinfo_connectLoop]
      rfl
  | socket j =>
      have hsock := @socket_connectLoop 0 as j (Nat.zero_le j)
      rcases hsock with ⟨hj, -⟩ | ⟨-, hj⟩
      · rw [h] at hj
        cases hj
      · rcases hj with hj | hj
        · left
          rw [lifeAfter_main rfl hj]
          rfl
        · right
          rw [lifeAfter_main rfl hj]
          rfl

/-- With one, the socket of it is closed in the end. -/
theorem givenBack_of_connected {as : List Attempt} {k : Nat} {r : List Call × Int}
    (h : (connectLoop 0 as).2 = .connected k) (hr : exchange env k = some r) :
    GivenBack ([.wsaStartup true, .getaddrinfo true] ++
      ((connectLoop 0 as).1 ++ (.freeaddrinfo :: r.1))) := by
  refine givenBack_of_life fun q ↦ ?_
  have hlife := life_exchange hr q
  cases q with
  | winsock =>
      right
      rw [if_pos (.inl rfl)] at hlife
      rw [lifeAfter_main rfl winsock_connectLoop, lifeAfter_cons]
      exact hlife
  | addrinfo =>
      right
      rw [if_neg (by simp)] at hlife
      rw [lifeAfter_main rfl addrinfo_connectLoop, lifeAfter_cons]
      exact hlife .dead
  | socket j =>
      have hsock := @socket_connectLoop 0 as j (Nat.zero_le j)
      rcases hsock with ⟨hj, hlive⟩ | ⟨hj, hdone⟩
      · right
        rw [h, Connecting.connected.injEq] at hj
        rw [if_pos (.inr (by rw [hj]))] at hlife
        rw [lifeAfter_main rfl hlive, lifeAfter_cons]
        exact hlife
      · rw [if_neg (by simpa [h, eq_comm] using hj)] at hlife
        rcases hdone with hdone | hdone
        · left
          rw [lifeAfter_main rfl hdone, lifeAfter_cons]
          exact hlife .unborn
        · right
          rw [lifeAfter_main rfl hdone, lifeAfter_cons]
          exact hlife .dead

/-- At the exit from the loop the list of addresses is still live. -/
theorem not_givenBack_of_noSocket {as : List Attempt} {e : Int} :
    ¬ GivenBack ([.wsaStartup true, .getaddrinfo true] ++
      ((connectLoop 0 as).1 ++ [.printf (.socketFailed e), .wsaCleanup])) := by
  apply not_givenBack_of_addrinfo
  rw [lifeAfter_main rfl addrinfo_connectLoop]
  rfl

/-- Without a connection there is nothing to use. -/
theorem usesFirst_of_tried {as : List Attempt} {before after : List Call}
    (hbefore : ∀ c ∈ before, connection c = none) (hafter : ∀ c ∈ after, connection c = none) :
    UsesFirst env (before ++ ((connectLoop 0 as).1 ++ after)) := by
  intro c hc k hk
  have hnone : connection c = none := by
    rcases List.mem_append.mp hc with hc | hc
    · exact hbefore c hc
    · rcases List.mem_append.mp hc with hc | hc
      · exact connection_connectLoop hc
      · exact hafter c hc
  rw [hnone] at hk
  cases hk

/-- With one, it is the one that is used. -/
theorem usesFirst_of_connected {as : List Attempt} {k : Nat} {r : List Call × Int}
    (has : env.getaddrinfo = .ok as) (h : (connectLoop 0 as).2 = .connected k)
    (hr : exchange env k = some r) :
    UsesFirst env ([.wsaStartup true, .getaddrinfo true] ++
      ((connectLoop 0 as).1 ++ (.freeaddrinfo :: r.1))) := by
  obtain ⟨i, hi, hfirst⟩ := findIdx_of_connected h
  rw [Nat.zero_add] at hi
  obtain ⟨used, hcalls, hused⟩ := exchange_calls hr
  have hk : ∀ c ∈ r.1, connection c = none ∨ connection c = some k := by
    intro c hc
    rw [hcalls] at hc
    rcases List.mem_append.mp hc with hc | hc
    · rcases hused c hc with rfl | rfl | rfl | ⟨l, rfl⟩
      · exact .inr rfl
      · exact .inr rfl
      · exact .inr rfl
      · exact .inl rfl
    · simp only [List.mem_cons, List.not_mem_nil, or_false] at hc
      rcases hc with rfl | rfl <;> exact .inl rfl
  intro c hc j hj
  have hmem : c ∈ r.1 := by
    rcases List.mem_append.mp hc with hc | hc
    · simp only [List.mem_cons, List.not_mem_nil, or_false] at hc
      rcases hc with rfl | rfl <;> cases hj
    · rcases List.mem_append.mp hc with hc | hc
      · rw [connection_connectLoop hc] at hj
        cases hj
      · rcases List.mem_cons.mp hc with rfl | hc
        · cases hj
        · exact hc
  rcases hk c hmem with hnone | hsome
  · rw [hnone] at hj
    cases hj
  · rw [hsome] at hj
    cases hj
    exact ⟨as, has, by rw [hfirst, hi]⟩

/-- **Every exit but one gives everything back.**  Whatever the calls come to,
after `main` the sockets are closed, the list of addresses is freed and Winsock is
cleaned up, once each, and a connection was to the first address that accepts;
unless a socket could not be created for an address before that one. -/
theorem main_givesBack_iff (h : main env = some (calls, code))
    (hstart : .wsaStartup true ∈ calls) :
    (GivenBack calls ∧ UsesFirst env calls) ↔ ∀ as, env.getaddrinfo = .ok as →
      ∀ e, .noSocket e ∉ as.takeWhile (· ≠ .accepted) := by
  rcases main_cases h hstart with ⟨e, he, rfl⟩ | ⟨as, has, hcase⟩
  · refine iff_of_true ⟨givenBack_of_life fun q ↦ ?_, ?_⟩ ?_
    · cases q with
      | winsock => exact .inr rfl
      | addrinfo => exact .inl rfl
      | socket j => exact .inl rfl
    · intro c hc k hk
      simp only [List.mem_cons, List.not_mem_nil, or_false] at hc
      rcases hc with rfl | rfl | rfl | rfl <;> cases hk
    · intro as has
      rw [he] at has
      cases has
  · have hcond : (∀ as', env.getaddrinfo = .ok as' →
        ∀ e, .noSocket e ∉ as'.takeWhile (· ≠ .accepted)) ↔
          ¬ ∃ e, (connectLoop 0 as).2 = .noSocket e := by
      rw [noSocket_iff, has]
      simp
    rw [hcond]
    rcases hcase with ⟨e, he, rfl⟩ | ⟨hunable, rfl⟩ | ⟨k, r, hk, hr, rfl⟩
    · exact iff_of_false (fun hback ↦ not_givenBack_of_noSocket hback.1) fun hno ↦ hno ⟨e, he⟩
    · refine iff_of_true ⟨givenBack_of_unable hunable, ?_⟩ ?_
      · exact usesFirst_of_tried (by simp [connection]) (by simp [connection])
      · rintro ⟨e, he⟩
        rw [hunable] at he
        cases he
    · refine iff_of_true ⟨givenBack_of_connected hk hr, usesFirst_of_connected has hk hr⟩ ?_
      rintro ⟨e, he⟩
      rw [hk] at he
      cases he

/-- A first address that refuses, and a second one that accepts. -/
def secondAccepts : Env where
  argc := 2
  wsaStartup := 0
  getaddrinfo := .ok [.refused, .accepted]
  send := .ok 14
  shutdown := none
  recvs := [.data [104, 105], .closed]

theorem secondAccepts_givesBack :
    ∃ calls, main secondAccepts = some (calls, 0) ∧ GivenBack calls ∧
      UsesFirst secondAccepts calls := by
  have hrun : main secondAccepts = some (_, 0) := rfl
  refine ⟨_, hrun, (main_givesBack_iff hrun (by simp)).mpr ?_⟩
  rintro as ⟨⟩ e
  simp

/-- An address for which there is no socket. -/
def noneSupported : Env := { secondAccepts with getaddrinfo := .ok [.noSocket 10047, .accepted] }

theorem noneSupported_leaks :
    ∃ calls, main noneSupported = some (calls, 1) ∧ .wsaStartup true ∈ calls ∧
      ¬ GivenBack calls :=
  ⟨_, rfl, by simp, not_givenBack_of_addrinfo rfl⟩

end Main

end CppExamples.WinSock.TcpClient
