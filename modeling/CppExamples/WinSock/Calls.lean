import CppExamples.Lib.Lifetime

/-!
# The calls of Winsock

The programs of the MSDN example call Winsock in a fixed order and give up at the
first call that fails.  A run of such a program is the list of its calls, with
what becomes of them, and of the lines it prints.

Three kinds of things have to be given back: Winsock itself, the list of
addresses that `getaddrinfo` returns, and the sockets.  `Call.accesses` says what
a call does with them; a socket goes by the order of its creation.
-/

namespace CppExamples.WinSock

open CppExamples.Lib

/-- The result of `recv` with room for some bytes. -/
inductive Recv where
  | /-- The bytes that have come, at least one. -/
    data (bytes : List UInt8)
  | /-- The other side has closed the connection. -/
    closed
  | /-- `SOCKET_ERROR` -/
    error (code : Int)

/-- The bytes that `recv` puts into the buffer. -/
def Recv.bytes : Recv → List UInt8
  | .data bytes => bytes
  | _ => []

/-- The number that `recv` returns. -/
def Recv.result : Recv → Int
  | .data bytes => bytes.length
  | .closed => 0
  | .error _ => -1

/-- What `WSAGetLastError` returns after `recv`. -/
def Recv.lastError : Recv → Int
  | .error code => code
  | _ => 0

/-- The lines that the programs print. -/
inductive Line where
  | usage
  | wsaStartupFailed (error : Int)
  | getaddrinfoFailed (error : Int)
  | socketFailed (error : Int)
  | bindFailed (error : Int)
  | listenFailed (error : Int)
  | acceptFailed (error : Int)
  | unableToConnect
  | bytesSent (n : Nat)
  | bytesReceived (n : Nat)
  | connectionClosed
  | connectionClosing
  | sendFailed (error : Int)
  | recvFailed (error : Int)
  | shutdownFailed (error : Int)
deriving DecidableEq

/-- What a program has to give back. -/
inductive Resource where
  | winsock
  | addrinfo
  | socket (k : Nat)
deriving DecidableEq

/-- A call, and what becomes of it where that matters. -/
inductive Call where
  | wsaStartup (ok : Bool)
  | getaddrinfo (ok : Bool)
  | /-- `socket`, with the members of an address. -/
    socket (new : Option Nat)
  | /-- `connect`, to an address. -/
    connect (k : Nat)
  | /-- `bind`, to an address. -/
    bind (k : Nat)
  | /-- `ptr = ptr->ai_next` -/
    nextAddress
  | freeaddrinfo
  | listen (k : Nat)
  | accept (k : Nat) (new : Option Nat)
  | send (k : Nat)
  | recv (k : Nat)
  | shutdown (k : Nat)
  | closesocket (k : Nat)
  | wsaCleanup
  | printf (l : Line)

/-- What a call does with the resources. -/
def Call.accesses : Call → List (Access Resource)
  | .wsaStartup ok => if ok then [.acquire .winsock] else []
  | .getaddrinfo ok => if ok then [.acquire .addrinfo] else []
  | .socket new => .use .addrinfo :: (new.map fun k ↦ .acquire (.socket k)).toList
  | .connect k => [.use .addrinfo, .use (.socket k)]
  | .bind k => [.use .addrinfo, .use (.socket k)]
  | .nextAddress => [.use .addrinfo]
  | .freeaddrinfo => [.release .addrinfo]
  | .listen k => [.use (.socket k)]
  | .accept k new => .use (.socket k) :: (new.map fun k ↦ .acquire (.socket k)).toList
  | .send k => [.use (.socket k)]
  | .recv k => [.use (.socket k)]
  | .shutdown k => [.use (.socket k)]
  | .closesocket k => [.release (.socket k)]
  | .wsaCleanup => [.release .winsock]
  | .printf _ => []

/-- What a list of calls does with the resources. -/
def accesses (calls : List Call) : List (Access Resource) := calls.flatMap Call.accesses

@[simp] theorem accesses_nil : accesses [] = [] := rfl

@[simp] theorem accesses_cons (c : Call) (calls : List Call) :
    accesses (c :: calls) = c.accesses ++ accesses calls := List.flatMap_cons

@[simp] theorem accesses_append (calls calls' : List Call) :
    accesses (calls ++ calls') = accesses calls ++ accesses calls' := List.flatMap_append

variable {calls calls' : List Call}

/-- Calls that use the socket `k`, and nothing else. -/
def OnlyUse (k : Nat) (calls : List Call) : Prop := ∀ a ∈ accesses calls, a = .use (.socket k)

theorem OnlyUse.append {k : Nat} (h : OnlyUse k calls) (h' : OnlyUse k calls') :
    OnlyUse k (calls ++ calls') := by
  intro a ha
  rw [accesses_append] at ha
  exact (List.mem_append.mp ha).elim (h a) (h' a)

/-- The calls on a connection. -/
theorem onlyUse_of_mem {k : Nat} (h : ∀ c ∈ calls, c = .recv k ∨ c = .send k ∨
    c = .shutdown k ∨ ∃ l, c = .printf l) : OnlyUse k calls := by
  intro a ha
  obtain ⟨c, hc, ha⟩ := List.mem_flatMap.mp ha
  rcases h c hc with rfl | rfl | rfl | ⟨l, rfl⟩
  · exact List.mem_singleton.mp ha
  · exact List.mem_singleton.mp ha
  · exact List.mem_singleton.mp ha
  · cases ha

/-- What has become of a resource after a list of calls. -/
def lifeAfter (r : Resource) (s : Life) (calls : List Call) : Option Life :=
  life r s (accesses calls)

@[simp] theorem lifeAfter_nil (r : Resource) (s : Life) : lifeAfter r s [] = some s := rfl

theorem lifeAfter_append (r : Resource) (s : Life) (calls calls' : List Call) :
    lifeAfter r s (calls ++ calls') =
      (lifeAfter r s calls).bind fun s' ↦ lifeAfter r s' calls' := by
  rw [lifeAfter, accesses_append, life_append]
  rfl

theorem lifeAfter_cons (r : Resource) (s : Life) (c : Call) (calls : List Call) :
    lifeAfter r s (c :: calls) = (life r s c.accesses).bind fun s' ↦ lifeAfter r s' calls :=
  life_append

/-- **The end of a connection**: calls that only use its socket, and then the
socket is closed and Winsock is cleaned up. -/
theorem lifeAfter_closing {k : Nat} (h : OnlyUse k calls) (r : Resource) :
    if r = .winsock ∨ r = .socket k then
      lifeAfter r .live (calls ++ [.closesocket k, .wsaCleanup]) = some .dead
    else ∀ s, lifeAfter r s (calls ++ [.closesocket k, .wsaCleanup]) = some s := by
  split
  · rename_i hr
    have hlive : lifeAfter r .live calls = some .live :=
      life_live_of_uses fun a ha ↦ ⟨_, h a ha⟩
    rcases hr with rfl | rfl
    · simp [lifeAfter_append, hlive, lifeAfter_cons, Call.accesses]
    · simp [lifeAfter_append, hlive, lifeAfter_cons, Call.accesses]
  · rename_i hr
    push Not at hr
    intro s
    have hsame : lifeAfter r s calls = some s := life_of_forall_ne fun a ha ↦ by
      rw [h a ha]
      exact hr.2.symm
    simp [lifeAfter_append, hsame, lifeAfter_cons, Call.accesses, hr.1.symm, hr.2.symm]

/-- **Everything has been given back**: Winsock has been cleaned up once, every
list of addresses has been freed once and not been used afterwards, and every
socket has been closed once. -/
structure GivenBack (calls : List Call) : Prop where
  winsock : .acquire .winsock ∈ accesses calls → (accesses calls).count (.release .winsock) = 1
  addrinfo : .acquire .addrinfo ∈ accesses calls →
    (accesses calls).count (.release .addrinfo) = 1 ∧
      ∀ before after, accesses calls = before ++ .release .addrinfo :: after →
        .use .addrinfo ∉ after
  sockets : ∀ k, .acquire (.socket k) ∈ accesses calls →
    (accesses calls).count (.release (.socket k)) = 1

/-- It is enough that no resource is live at the end. -/
theorem givenBack_of_life
    (h : ∀ r, lifeAfter r .unborn calls = some .unborn ∨ lifeAfter r .unborn calls = some .dead) :
    GivenBack calls := by
  have hdead (r : Resource) (hr : .acquire r ∈ accesses calls) :
      life r .unborn (accesses calls) = some .dead := by
    refine (h r).resolve_left fun hunborn ↦ ?_
    have hpos := List.count_pos_iff.mpr hr
    rw [(not_acquired hunborn).1] at hpos
    exact Nat.lt_irrefl 0 hpos
  refine ⟨fun hr ↦ (released_once (hdead _ hr)).2.1, fun hr ↦ ?_, fun k hr ↦ ?_⟩
  · obtain ⟨-, hone, hafter⟩ := released_once (hdead _ hr)
    refine ⟨hone, fun before after heq hmem ↦ ?_⟩
    exact hafter before after heq _ hmem rfl
  · exact (released_once (hdead _ hr)).2.1

/-- A list of addresses that is live at the end has not been given back. -/
theorem not_givenBack_of_addrinfo (h : lifeAfter .addrinfo .unborn calls = some .live) :
    ¬ GivenBack calls := by
  obtain ⟨hacq, hrel⟩ := not_released h
  intro hback
  have hmem : .acquire .addrinfo ∈ accesses calls := List.count_pos_iff.mp (by omega)
  rw [(hback.addrinfo hmem).1] at hrel
  cases hrel

end CppExamples.WinSock
