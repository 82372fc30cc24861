import CppExamples.Lib.Buffer
import CppExamples.Lib.Loop
import CppExamples.WinSock.Calls

/-!
# The TCP echo server

`MSExample_TCP-Server.cpp`: accept one connection, send back what it receives,
until the other side is done.

`send` may take fewer bytes than it is given, and says how many.  The server
prints that number and goes on to the next `recv`; the rest of the chunk is not
sent.
-/

namespace CppExamples.WinSock.EchoServer

open CppExamples.Lib

/-- `DEFAULT_BUFLEN` -/
def defaultBuflen : Nat := 512

/-- The outcomes of the calls of one pass: of `recv`, and of `send`, which is not
called if nothing has come. -/
structure Turn where
  recv : Recv
  send : Except Int Nat

/-- The outcomes of all calls; where there is only a number, it is the error, if
there is one. -/
structure Env where
  wsaStartup : Int
  getaddrinfo : Option Int
  socket : Option Int
  bind : Option Int
  listen : Option Int
  accept : Option Int
  turns : List Turn
  shutdown : Option Int

/-- What the loop leaves behind: the buffer, its calls, and the bytes that `send`
has taken. -/
structure Connection where
  recvbuf : Buffer defaultBuflen
  calls : List Call
  accepted : List UInt8

/-- Why the loop ends. -/
inductive Ending where
  | /-- `iResult` is zero. -/
    closed
  | /-- One of the calls has failed. -/
    failed
deriving DecidableEq

/-- The sockets, by the order of their creation. -/
def listenSocket : Nat := 0

def clientSocket : Nat := 1

/-- Further calls. -/
def Connection.log (w : Connection) (calls : List Call) : Connection :=
  { w with calls := w.calls ++ calls }

/-- The body of the loop. -/
def turn (w : Connection) (t : Turn) : Option (Pass Connection Ending) :=
  let recvbuf := w.recvbuf.store t.recv.bytes
  let w := { w with recvbuf := recvbuf }.log [.recv clientSocket]
  if t.recv.result > 0 then
    let iResult := t.recv.result.toNat
    let w := w.log [.printf (.bytesReceived iResult), .send clientSocket]
    match t.send with
    | .error e => some (.left (w.log [.printf (.sendFailed e)]) .failed)
    | .ok iSendResult =>
        let accepted := w.accepted ++ (recvbuf.bytes.take iResult).take iSendResult
        some (.again ({ w with accepted := accepted }.log [.printf (.bytesSent iSendResult)]))
  else if t.recv.result = 0 then some (.left (w.log [.printf .connectionClosing]) .closed)
  else some (.left (w.log [.printf (.recvFailed t.recv.lastError)]) .failed)

/-- What is left of a run: the calls, the bytes that `send` has taken, and what
is returned. -/
structure Result where
  calls : List Call
  accepted : List UInt8
  code : Int

/-- `main`, from the connection on; `none` while the loop goes on. -/
def serve (env : Env) (uninit : Buffer defaultBuflen) : Option Result :=
  match loop turn ⟨uninit, [], []⟩ env.turns with
  | some (.left w .failed) =>
      some ⟨w.calls ++ [.closesocket clientSocket, .wsaCleanup], w.accepted, 1⟩
  | some (.left w .closed) => match env.shutdown with
      | some e => some ⟨w.calls ++ [.shutdown clientSocket, .printf (.shutdownFailed e)] ++
          [.closesocket clientSocket, .wsaCleanup], w.accepted, 1⟩
      | none => some ⟨w.calls ++ [.shutdown clientSocket] ++
          [.closesocket clientSocket, .wsaCleanup], w.accepted, 0⟩
  | _ => none

/-- `main`; `uninit` is what `recvbuf` happens to hold. -/
def main (env : Env) (uninit : Buffer defaultBuflen) : Option Result :=
  if env.wsaStartup ≠ 0 then
    some ⟨[.wsaStartup false, .printf (.wsaStartupFailed env.wsaStartup)], [], 1⟩
  else match env.getaddrinfo with
  | some e => some ⟨[.wsaStartup true, .getaddrinfo false, .printf (.getaddrinfoFailed e),
      .wsaCleanup], [], 1⟩
  | none => match env.socket with
  | some e => some ⟨[.wsaStartup true, .getaddrinfo true, .socket none,
      .printf (.socketFailed e), .freeaddrinfo, .wsaCleanup], [], 1⟩
  | none => match env.bind with
  | some e => some ⟨[.wsaStartup true, .getaddrinfo true, .socket (some listenSocket),
      .bind listenSocket, .printf (.bindFailed e), .freeaddrinfo, .closesocket listenSocket,
      .wsaCleanup], [], 1⟩
  | none => match env.listen with
  | some e => some ⟨[.wsaStartup true, .getaddrinfo true, .socket (some listenSocket),
      .bind listenSocket, .freeaddrinfo, .listen listenSocket, .printf (.listenFailed e),
      .closesocket listenSocket, .wsaCleanup], [], 1⟩
  | none => match env.accept with
  | some e => some ⟨[.wsaStartup true, .getaddrinfo true, .socket (some listenSocket),
      .bind listenSocket, .freeaddrinfo, .listen listenSocket, .accept listenSocket none,
      .printf (.acceptFailed e), .closesocket listenSocket, .wsaCleanup], [], 1⟩
  | none => (serve env uninit).map fun r ↦ { r with
      calls := [.wsaStartup true, .getaddrinfo true, .socket (some listenSocket),
        .bind listenSocket, .freeaddrinfo, .listen listenSocket,
        .accept listenSocket (some clientSocket), .closesocket listenSocket] ++ r.calls }

section Turns

variable {w : Connection} {p : Pass Connection Ending}

/-- The calls of a pass. -/
theorem calls_turn {t : Turn} (hp : turn w t = some p) :
    ∃ calls, p.state.calls = w.calls ++ calls ∧ OnlyUse clientSocket calls := by
  rw [turn] at hp
  split at hp
  · split at hp
    · rename_i e _
      cases hp
      refine ⟨[.recv clientSocket, .printf (.bytesReceived t.recv.result.toNat),
        .send clientSocket, .printf (.sendFailed e)], ?_, onlyUse_of_mem (by simp)⟩
      simp [Pass.state, Connection.log]
    · rename_i n _
      cases hp
      refine ⟨[.recv clientSocket, .printf (.bytesReceived t.recv.result.toNat),
        .send clientSocket, .printf (.bytesSent n)], ?_, onlyUse_of_mem (by simp)⟩
      simp [Pass.state, Connection.log]
  · split at hp
    · cases hp
      refine ⟨[.recv clientSocket, .printf .connectionClosing], ?_, onlyUse_of_mem (by simp)⟩
      simp [Pass.state, Connection.log]
    · cases hp
      refine ⟨[.recv clientSocket, .printf (.recvFailed t.recv.lastError)], ?_,
        onlyUse_of_mem (by simp)⟩
      simp [Pass.state, Connection.log]

theorem onlyUse_loop {uninit : Buffer defaultBuflen} {ts : List Turn}
    (hp : loop turn ⟨uninit, [], []⟩ ts = some p) : OnlyUse clientSocket p.state.calls := by
  refine loop_invariant (I := fun _ w ↦ OnlyUse clientSocket w.calls)
    (fun before w t p hw hp ↦ ?_) [] (fun a ha ↦ by cases ha) hp
  obtain ⟨calls, hcalls, huse⟩ := calls_turn hp
  rw [hcalls]
  exact hw.append huse

/-- A chunk, and how many of its bytes `send` takes. -/
def echoed (c : List UInt8 × Nat) : Turn := ⟨.data c.1, .ok c.2⟩

/-- **A pass sends the front of the chunk**, whatever the buffer held before. -/
theorem turn_echoed {c : List UInt8 × Nat} (hpos : 0 < c.1.length)
    (hle : c.1.length ≤ defaultBuflen) :
    ∃ w', turn w (echoed c) = some (.again w') ∧
      w'.accepted = w.accepted ++ c.1.take c.2 := by
  have hresult : (echoed c).recv.result > 0 := Int.natCast_pos.mpr hpos
  rw [turn, if_pos hresult]
  refine ⟨_, rfl, ?_⟩
  have hfront : (w.recvbuf.store c.1).bytes.take c.1.length = c.1 := Buffer.take_store_length hle
  simp [Connection.log, echoed, Recv.result, Recv.bytes, hfront]

/-- **The loop sends the fronts of the chunks**, one after the other. -/
theorem loop_echoed {chunks : List (List UInt8 × Nat)}
    (hsize : ∀ c ∈ chunks, 0 < c.1.length ∧ c.1.length ≤ defaultBuflen)
    (send : Except Int Nat) (rest : List Turn) :
    ∃ w', loop turn w (chunks.map echoed ++ ⟨.closed, send⟩ :: rest) =
        some (.left w' .closed) ∧
      w'.accepted = w.accepted ++ chunks.flatMap fun c ↦ c.1.take c.2 := by
  induction chunks generalizing w with
  | nil => exact ⟨_, rfl, (List.append_nil _).symm⟩
  | cons c chunks ih =>
      rw [List.forall_mem_cons] at hsize
      obtain ⟨w₁, hw₁, hacc₁⟩ := turn_echoed (w := w) hsize.1.1 hsize.1.2
      obtain ⟨w', hw', hacc'⟩ := ih (w := w₁) hsize.2
      refine ⟨w', ?_, ?_⟩
      · rw [List.map_cons, List.cons_append, loop, hw₁]
        exact hw'
      · rw [hacc', hacc₁, List.flatMap_cons, List.append_assoc]

/-- Fronts of chunks make up the chunks only if each is the whole chunk. -/
theorem flatMap_take_eq_iff {chunks : List (List UInt8 × Nat)} :
    chunks.flatMap (fun c ↦ c.1.take c.2) = chunks.flatMap Prod.fst ↔
      ∀ c ∈ chunks, c.1.length ≤ c.2 := by
  induction chunks with
  | nil => simp
  | cons c chunks ih =>
      rw [List.forall_mem_cons, ← ih, List.flatMap_cons, List.flatMap_cons]
      have hle (cs : List (List UInt8 × Nat)) :
          (cs.flatMap fun c ↦ c.1.take c.2).length ≤ (cs.flatMap Prod.fst).length := by
        induction cs with
        | nil => simp
        | cons d cs ih =>
            simp only [List.flatMap_cons, List.length_append, List.length_take]
            omega
      constructor
      · intro h
        have hlen := congrArg List.length h
        have hrest := hle chunks
        simp only [List.length_append, List.length_take] at hlen
        have hc : c.1.length ≤ c.2 := by omega
        rw [List.take_of_length_le hc, List.append_cancel_left_eq] at h
        exact ⟨hc, h⟩
      · rintro ⟨hc, h⟩
        rw [List.take_of_length_le hc, h]

end Turns

section Main

variable {env : Env} {uninit : Buffer defaultBuflen} {r : Result}

/-- **The calls from the connection on.** -/
theorem calls_serve (h : serve env uninit = some r) :
    ∃ used, r.calls = used ++ [.closesocket clientSocket, .wsaCleanup] ∧
      OnlyUse clientSocket used := by
  rw [serve] at h
  split at h
  · rename_i w hw
    obtain rfl := Option.some.inj h
    exact ⟨_, rfl, onlyUse_loop hw⟩
  · rename_i w hw
    split at h
    · obtain rfl := Option.some.inj h
      exact ⟨_, rfl, (onlyUse_loop hw).append (onlyUse_of_mem (by simp))⟩
    · obtain rfl := Option.some.inj h
      exact ⟨_, rfl, (onlyUse_loop hw).append (onlyUse_of_mem (by simp))⟩
  · cases h

/-- It is enough to look at the resources that there are before the connection. -/
theorem givenBack_of_early {calls : List Call}
    (hwin : lifeAfter .winsock .unborn calls = some .unborn ∨
      lifeAfter .winsock .unborn calls = some .dead)
    (hinfo : lifeAfter .addrinfo .unborn calls = some .unborn ∨
      lifeAfter .addrinfo .unborn calls = some .dead)
    (hlisten : lifeAfter (.socket listenSocket) .unborn calls = some .unborn ∨
      lifeAfter (.socket listenSocket) .unborn calls = some .dead)
    (hother : ∀ j, lifeAfter (.socket (j + 1)) .unborn calls = some .unborn) :
    GivenBack calls := by
  refine givenBack_of_life fun q ↦ ?_
  rcases q with _ | _ | _ | j
  · exact hwin
  · exact hinfo
  · exact hlisten
  · exact .inl (hother j)

/-- The calls before the connection. -/
def opening : List Call :=
  [.wsaStartup true, .getaddrinfo true, .socket (some listenSocket), .bind listenSocket,
    .freeaddrinfo, .listen listenSocket, .accept listenSocket (some clientSocket),
    .closesocket listenSocket]

/-- **An exit before the connection** gives everything back, and returns 1. -/
theorem main_cases (h : main env uninit = some r) : r.code = 1 ∧ GivenBack r.calls ∨
    ∃ r', serve env uninit = some r' ∧ r = { r' with calls := opening ++ r'.calls } := by
  rw [main] at h
  split at h
  · cases h
    exact .inl ⟨rfl, givenBack_of_early (.inl rfl) (.inl rfl) (.inl rfl) fun _ ↦ rfl⟩
  · split at h
    · cases h
      exact .inl ⟨rfl, givenBack_of_early (.inr rfl) (.inl rfl) (.inl rfl) fun _ ↦ rfl⟩
    · split at h
      · cases h
        exact .inl ⟨rfl, givenBack_of_early (.inr rfl) (.inr rfl) (.inl rfl) fun _ ↦ rfl⟩
      · split at h
        · cases h
          exact .inl ⟨rfl, givenBack_of_early (.inr rfl) (.inr rfl) (.inr rfl) fun _ ↦ rfl⟩
        · split at h
          · cases h
            exact .inl ⟨rfl, givenBack_of_early (.inr rfl) (.inr rfl) (.inr rfl) fun _ ↦ rfl⟩
          · split at h
            · cases h
              exact .inl ⟨rfl, givenBack_of_early (.inr rfl) (.inr rfl) (.inr rfl) fun _ ↦ rfl⟩
            · obtain ⟨r', hr', hr⟩ := Option.map_eq_some_iff.mp h
              exact .inr ⟨r', hr', hr.symm⟩

/-- **The echo server gives everything back**, wherever it ends. -/
theorem givenBack_of_main (h : main env uninit = some r) : GivenBack r.calls := by
  rcases main_cases h with ⟨-, hback⟩ | ⟨r', hr', rfl⟩
  · exact hback
  · obtain ⟨used, hused, huse⟩ := calls_serve hr'
    refine givenBack_of_life fun q ↦ ?_
    have hclose := lifeAfter_closing huse q
    rw [← hused] at hclose
    rcases q with _ | _ | _ | _ | j
    · rw [if_pos (.inl rfl)] at hclose
      right
      rw [lifeAfter_append]
      exact hclose
    · rw [if_neg (by simp)] at hclose
      right
      rw [lifeAfter_append]
      exact hclose .dead
    · rw [if_neg (by simp [clientSocket])] at hclose
      right
      rw [lifeAfter_append]
      exact hclose .dead
    · rw [if_pos (.inr rfl)] at hclose
      right
      rw [lifeAfter_append]
      exact hclose
    · rw [if_neg (by simp [clientSocket])] at hclose
      left
      rw [lifeAfter_append]
      exact hclose .unborn

/-- **The echo server echoes what `send` takes.**  Whatever chunks come in, if the
other side then closes the connection and the server ends well, the bytes that
`send` has taken are the bytes received exactly if it has taken every chunk
whole. -/
theorem main_echoes_iff {chunks : List (List UInt8 × Nat)} {send : Except Int Nat}
    {rest : List Turn} (hturns : env.turns = chunks.map echoed ++ ⟨.closed, send⟩ :: rest)
    (hsize : ∀ c ∈ chunks, 0 < c.1.length ∧ c.1.length ≤ defaultBuflen)
    (h : main env uninit = some r) (hcode : r.code = 0) :
    r.accepted = chunks.flatMap Prod.fst ↔ ∀ c ∈ chunks, c.1.length ≤ c.2 := by
  rcases main_cases h with ⟨hone, -⟩ | ⟨r', hr', rfl⟩
  · rw [hone] at hcode
    cases hcode
  · obtain ⟨w', hw', hacc⟩ := loop_echoed (w := ⟨uninit, [], []⟩) hsize send rest
    have haccepted : r'.accepted = w'.accepted := by
      rw [serve, hturns, hw'] at hr'
      dsimp only at hr'
      split at hr' <;> cases hr' <;> rfl
    change r'.accepted = _ ↔ _
    rw [haccepted, hacc, List.nil_append, flatMap_take_eq_iff]

/-- Nothing goes wrong, and `send` takes this much of these chunks. -/
def allWell (chunks : List (List UInt8 × Nat)) : Env where
  wsaStartup := 0
  getaddrinfo := none
  socket := none
  bind := none
  listen := none
  accept := none
  turns := chunks.map echoed ++ [⟨.closed, .ok 0⟩]
  shutdown := none

def twoChunks (second : Nat) : List (List UInt8 × Nat) := [([104, 105], 2), ([33, 10], second)]

theorem twoChunks_echoed :
    ∃ r, main (allWell (twoChunks 2)) (Buffer.fill _ 0) = some r ∧ r.code = 0 ∧
      r.accepted = (twoChunks 2).flatMap Prod.fst := by
  have hturns : (allWell (twoChunks 2)).turns =
      (twoChunks 2).map echoed ++ ⟨.closed, .ok 0⟩ :: [] := rfl
  refine ⟨_, rfl, rfl, (main_echoes_iff hturns ?_ rfl rfl).mpr ?_⟩
  · simp [twoChunks, defaultBuflen]
  · simp [twoChunks]

/-- If the second `send` takes one of two bytes, the other one is lost, and the
server ends as if nothing had happened. -/
theorem twoChunks_cut :
    ∃ r, main (allWell (twoChunks 1)) (Buffer.fill _ 0) = some r ∧ r.code = 0 ∧
      r.accepted = [104, 105, 33] ∧ r.accepted ≠ (twoChunks 1).flatMap Prod.fst :=
  ⟨_, rfl, rfl, rfl, by decide⟩

end Main

end CppExamples.WinSock.EchoServer
