import CppExamples.Lib.Stream
import Mathlib.Logic.Function.Basic

/-!
# The clients of the TCP daytime servers

`ClientMain.cpp`, run any number of times, and the connections to one server, as
far as the clients see them.  A client connects and then prints what it receives,
piece by piece, until the server has closed the connection.

## What is assumed of Boost.Asio

`connect` succeeds or throws.  A client that has connected waits in the backlog
of the server until the server accepts it, and a socket that nobody has accepted
is silent.  `read_some` returns some of the bytes that have arrived, as many as
there is room for; it reports `eof` when the server has closed the connection and
everything has been read; and it may fail at any time.
-/

namespace CppExamples.TcpDaytime

open CppExamples.Lib

/-- The size of `buf`. -/
def bufSize : Nat := 128

/-- Where the `main` of a client is. -/
inductive ClientState where
  | connect
  | read
  | returned
deriving DecidableEq

/-- A client and what the server sends to it. -/
structure Client where
  state : ClientState
  /-- What is under way to `socket`. -/
  socket : Stream
  /-- All that has been written to `std::cout`. -/
  cout : List UInt8
  /-- `e.what()` has been written to `std::cerr`. -/
  cerr : Bool
deriving DecidableEq

namespace Client

/-- The program has been started and the host resolved. -/
def start : Client := ⟨.connect, .idle, [], false⟩

/-- An exception is caught. -/
def caught (c : Client) : Client := { c with state := .returned, cerr := true }

def connect (c : Client) (error : Bool) : Client :=
  if error then c.caught else { c with state := .read }

/-- A `read_some` that reports `len` bytes, or `eof` if it is 0. -/
def readSome (c : Client) (len : Nat) : Client :=
  let (buf, socket) := c.socket.recv len
  if len = 0 then { c with state := .returned }
  else { c with socket := socket, cout := c.cout ++ buf }

/-- What a user sees of the client. -/
def output (c : Client) : ClientState × List UInt8 × Bool := (c.state, c.cout, c.cerr)

/-- The client has come to the end of the connection, and not to an error. -/
def Done (c : Client) : Prop := c.state = .returned ∧ c.cerr = false

instance (c : Client) : Decidable c.Done := inferInstanceAs (Decidable (_ ∧ _))

end Client

/-- The calls of a client that return. -/
inductive ClientCall where
  | connect (error : Bool)
  | readSome (len : Nat)
  | readError
deriving DecidableEq

/-- The call succeeds. -/
def ClientCall.Succeeds : ClientCall → Prop
  | .connect error => error = false
  | .readSome _ => True
  | .readError => False

instance (e : ClientCall) : Decidable e.Succeeds :=
  match e with
  | .connect error => inferInstanceAs (Decidable (error = false))
  | .readSome _ => .isTrue trivial
  | .readError => .isFalse id

namespace Client

/-- The call can return now. -/
def enabled (c : Client) : ClientCall → Bool
  | .connect _ => c.state = .connect
  | .readSome len => c.state = .read && c.socket.delivers bufSize len
  | .readError => c.state = .read

/-- What the client does when the call has returned. -/
def step (c : Client) : ClientCall → Client
  | .connect error => c.connect error
  | .readSome len => c.readSome len
  | .readError => c.caught

end Client

/-- The clients, and those of them that wait to be accepted. -/
structure Clients (n : Nat) where
  client : Fin n → Client
  backlog : List (Fin n)

namespace Clients

variable {n : Nat}

def start (n : Nat) : Clients n := ⟨fun _ ↦ .start, []⟩

/-- Client `i` waits to be accepted. -/
def waits (w : Clients n) (i : Fin n) : Bool := i ∈ w.backlog

/-- A call of client `i` returns. -/
def call (w : Clients n) (i : Fin n) (e : ClientCall) : Clients n :=
  { client := Function.update w.client i ((w.client i).step e)
    backlog := if e = .connect false then w.backlog ++ [i] else w.backlog }

/-! ## What the server does to them -/

def accept (w : Clients n) (i : Fin n) : Clients n := { w with backlog := w.backlog.erase i }

def modifySocket (w : Clients n) (i : Fin n) (f : Stream → Stream) : Clients n :=
  let c := w.client i
  { w with client := Function.update w.client i { c with socket := f c.socket } }

/-- The server sends on its end of the connection to `i`. -/
def send (w : Clients n) (i : Fin n) (bytes : List UInt8) : Clients n :=
  w.modifySocket i (·.send bytes)

/-- The server closes its end of the connection to `i`. -/
def close (w : Clients n) (i : Fin n) : Clients n := w.modifySocket i (·.finish)

variable {w : Clients n} {i k : Fin n}

@[simp] theorem waits_iff : w.waits i = true ↔ i ∈ w.backlog := decide_eq_true_iff

@[simp] theorem client_call_self (e : ClientCall) :
    (w.call i e).client i = (w.client i).step e := Function.update_self ..

theorem client_call_of_ne (h : k ≠ i) (e : ClientCall) : (w.call i e).client k = w.client k :=
  Function.update_of_ne h ..

@[simp] theorem client_accept : (w.accept i).client = w.client := rfl

@[simp] theorem client_modifySocket_self (f : Stream → Stream) :
    (w.modifySocket i f).client i = { w.client i with socket := f (w.client i).socket } :=
  Function.update_self ..

theorem client_modifySocket_of_ne (h : k ≠ i) (f : Stream → Stream) :
    (w.modifySocket i f).client k = w.client k := Function.update_of_ne h ..

end Clients

end CppExamples.TcpDaytime
