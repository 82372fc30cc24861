import CppExamples.Lib.Pipe
import CppExamples.Lib.System
import CppExamples.Nanomsg.Pair

/-!
# Two nodes that send each other their names

`node0` and `node1` of `ExampleCode.cpp`, connected to each other.  Each of them
receives, sleeps, and sends its name, for ever.  To begin with both receive and
neither has sent anything; what sets them going is the timeout of `nn_recv`.

## What is assumed of nanomsg

The two sockets stay connected, and no message is lost.  There is a buffer at
each end for the messages of each direction, which holds a number of them.
`nn_recv` returns a message if one has arrived, and times out only if none has;
`nn_send` returns when there is room for its message.
-/

namespace CppExamples.Nanomsg

open CppExamples.Lib

/-- The two nodes. -/
inductive NodeId where
  | node0 | node1
deriving DecidableEq

namespace NodeId

def other : NodeId → NodeId
  | node0 => node1
  | node1 => node0

/-- `NODE0` and `NODE1`. -/
def name : NodeId → List UInt8
  | node0 => [110, 111, 100, 101, 48]
  | node1 => [110, 111, 100, 101, 49]

@[simp] theorem other_other (i : NodeId) : i.other.other = i := by cases i <;> rfl

theorem other_ne (i : NodeId) : i.other ≠ i := by cases i <;> decide

/-- There are no others. -/
theorem eq_or_eq_other (i k : NodeId) : k = i ∨ k = i.other := by
  cases i <;> cases k <;> simp [other]

theorem zero_not_mem_name (i : NodeId) : ∀ c ∈ i.name, c ≠ 0 := by cases i <;> simp [name]

end NodeId

/-- Where a node is in the loop of `send_recv`. -/
inductive Phase where
  | recv
  | sleep
  | /-- In `nn_send`; the line of `send_name` has been printed. -/
    send
deriving DecidableEq

/-- The two nodes, and the messages between them. -/
structure Exchange where
  node : NodeId → Node
  phase : NodeId → Phase
  /-- The messages from a node to the other one. -/
  pipe : NodeId → Pipe (List UInt8)
  /-- How often a call of `nn_recv` has timed out so far. -/
  timeouts : Nat

/-- What happens next. -/
inductive ExchangeEvent where
  | /-- `nn_recv` returns a message at node `i`. -/
    recv (i : NodeId)
  | timeout (i : NodeId)
  | /-- Node `i` has slept, and prints that it sends. -/
    wake (i : NodeId)
  | /-- `nn_send` returns at node `i`. -/
    send (i : NodeId)
  | /-- A message of node `i` arrives at the other one. -/
    move (i : NodeId)
deriving DecidableEq

namespace Exchange

/-- What comes of a call of `recv_name`. -/
def received (w : Exchange) (i : NodeId) (r : Received) : Option Exchange :=
  (Node.recvName i.name (w.node i) r).map fun p ↦
    { w with
      node := Function.update w.node i p.1
      phase := Function.update w.phase i .sleep }

def setPipe (w : Exchange) (i : NodeId) (c : Pipe (List UInt8)) : Exchange :=
  { w with pipe := Function.update w.pipe i c }

/-- The part of `send_name` in front of `nn_send`. -/
def printSending (w : Exchange) (i : NodeId) : Exchange :=
  { w with
    node := Function.update w.node i ((w.node i).print (.sending i.name i.name))
    phase := Function.update w.phase i .send }

/-- The `nn_send` of `send_name`. -/
def nnSend (w : Exchange) (i : NodeId) : Exchange :=
  let message := i.name ++ [0]
  let node := w.node i
  { w with
    node := Function.update w.node i { node with sends := node.sends ++ [message] }
    phase := Function.update w.phase i .recv
    pipe := Function.update w.pipe i ((w.pipe i).put message) }

section Update

variable {w : Exchange} {i k : NodeId}

@[simp] theorem pipe_setPipe_self {c : Pipe (List UInt8)} : (w.setPipe i c).pipe i = c :=
  Function.update_self ..

theorem pipe_setPipe_of_ne (h : k ≠ i) {c : Pipe (List UInt8)} :
    (w.setPipe i c).pipe k = w.pipe k := Function.update_of_ne h ..

@[simp] theorem node_printSending_self :
    (w.printSending i).node i = (w.node i).print (.sending i.name i.name) :=
  Function.update_self ..

theorem node_printSending_of_ne (h : k ≠ i) : (w.printSending i).node k = w.node k :=
  Function.update_of_ne h ..

end Update

variable (sendSize recvSize : Nat)

/-- `sendSize` and `recvSize` are the numbers of messages for which there is room. -/
def enabled (w : Exchange) : ExchangeEvent → Bool
  | .recv i => w.phase i = .recv && (w.pipe i.other).arrived ≠ []
  | .timeout i => w.phase i = .recv && (w.pipe i.other).arrived = []
  | .wake i => w.phase i = .sleep
  | .send i => w.phase i = .send && (w.pipe i).hasRoom sendSize
  | .move i => (w.pipe i).canMove recvSize

def step (w : Exchange) : ExchangeEvent → Option Exchange
  | .recv i => match (w.pipe i.other).arrived with
      | m :: _ => (w.setPipe i.other (w.pipe i.other).take).received i (.message m)
      | [] => none
  | .timeout i => { w with timeouts := w.timeouts + 1 }.received i .timeout
  | .wake i => some (w.printSending i)
  | .send i => some (w.nnSend i)
  | .move i => some (w.setPipe i (w.pipe i).move)

/-- Both nodes are in front of their loops. -/
def start : Exchange := ⟨fun _ ↦ .start, fun _ ↦ .recv, fun _ ↦ .empty, 0⟩

/-- The runs of the two nodes. -/
def system : System Exchange ExchangeEvent where
  init w := w = start
  enabled := enabled sendSize recvSize
  step := step

/-- Between its sleep and its next `nn_recv` a node has done what `send_name` does. -/
theorem node_nnSend_printSending (w : Exchange) (i : NodeId) :
    ((w.printSending i).nnSend i).node i = Node.sendName i.name (w.node i) := by
  simp [printSending, nnSend, Node.sendName, Node.print]

end Exchange

end CppExamples.Nanomsg
