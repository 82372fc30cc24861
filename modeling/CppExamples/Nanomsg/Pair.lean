import CppExamples.Lib.Lifetime
import CppExamples.Lib.Loop
import CppExamples.Lib.StringArray

/-!
# The nanomsg pair

`ExampleCode.cpp`, and the same program in `testPairExample.cpp`: two nodes that
send each other their names, and print what they receive.

`nn_recv` allocates a buffer for the message it returns.  The program frees the
buffer where it prints the message, and it prints the messages that are not
empty; the buffer of an empty one is left over.  What it prints is the C string at
the start of the buffer, which a peer other than this program need not have ended.

## What is assumed of nanomsg

With `NN_MSG`, `nn_recv` allocates a buffer for every message, also for an empty
one, and returns the size of the message; after a timeout it returns -1, and there
is no buffer.
-/

namespace CppExamples.Nanomsg

open CppExamples.Lib

/-- What a call of `nn_recv` meets with. -/
inductive Received where
  | message (bytes : List UInt8)
  | timeout
deriving DecidableEq

/-- The lines that a node prints. -/
inductive Line where
  | received (name text : List UInt8)
  | sending (name text : List UInt8)
deriving DecidableEq

/-- What a node has done so far.  Buffers go by the order of their allocation. -/
structure Node where
  /-- How many buffers `nn_recv` has allocated. -/
  buffers : Nat
  /-- What has been done with them. -/
  accesses : List (Access Nat)
  sends : List (List UInt8)
  console : List Line

namespace Node

def print (w : Node) (l : Line) : Node := { w with console := w.console ++ [l] }

def access (w : Node) (a : Access Nat) : Node := { w with accesses := w.accesses ++ [a] }

/-- `nn_recv` with `NN_MSG`: what it returns, and the buffer with its contents. -/
def nnRecv (w : Node) : Received → Node × Int × Option (Nat × List UInt8)
  | .message bytes =>
      ({ w with buffers := w.buffers + 1 }.access (.acquire w.buffers), bytes.length,
        some (w.buffers, bytes))
  | .timeout => (w, -1, none)

/-- `send_name`, whose message is the name with its NUL. -/
def sendName (name : List UInt8) (w : Node) : Node :=
  let w := w.print (.sending name name)
  { w with sends := w.sends ++ [name ++ [0]] }

/-- `recv_name`: what it returns; `none` if it prints something that is not in the
buffer. -/
def recvName (name : List UInt8) (w : Node) (r : Received) : Option (Node × Int) :=
  let (w, result, buf) := w.nnRecv r
  if result > 0 then match buf with
    | none => none
    | some (k, bytes) => (cstrIn bytes).map fun text ↦
        (((w.access (.use k)).print (.received name text)).access (.release k), result)
  else some (w, result)

/-- The body of the loop in `send_recv`. -/
def body (name : List UInt8) (w : Node) (r : Received) : Option (Pass Node Unit) :=
  (recvName name w r).map fun p ↦ .again (sendName name p.1)

/-- A node before the loop. -/
def start : Node := ⟨0, [], [], []⟩

/-- `send_recv`, from the loop on. -/
def sendRecv (name : List UInt8) (rs : List Received) : Option (Pass Node Unit) :=
  loop (body name) start rs

/-! ## Buffers -/

/-- Every buffer so far has been allocated, used and freed, once each and in this
order. -/
def AllFreed (w : Node) : Prop :=
  ∀ k, life k .unborn w.accesses = some (if k < w.buffers then .dead else .unborn)

/-- In the course of a run, every call of `recv_name` prints what is in the buffer
of its message, and leaves no buffer behind; after a timeout it does nothing. -/
def Safe (name : List UInt8) (rs : List Received) : Prop :=
  ∀ before r after, rs = before ++ r :: after → ∃ w w' result,
    sendRecv name before = some (.again w) ∧ recvName name w r = some (w', result) ∧
      w'.AllFreed ∧ (r = .timeout → w'.accesses = w.accesses)

variable {name bytes : List UInt8} {w : Node} {rs : List Received}

theorem allFreed_start : start.AllFreed := fun k ↦ by simp [start]

/-- `send_name` has nothing to do with the buffers. -/
theorem AllFreed.sendName (h : w.AllFreed) : (sendName name w).AllFreed := h

/-- An empty message: the buffer is allocated, and that is all. -/
theorem recvName_empty : recvName name w (.message []) =
    some ({ w with buffers := w.buffers + 1 }.access (.acquire w.buffers), 0) := rfl

/-- Any other message is printed, and its buffer is freed. -/
theorem recvName_message (h : bytes ≠ []) : recvName name w (.message bytes) =
    (cstrIn bytes).map fun text ↦
      (⟨w.buffers + 1, w.accesses ++ [.acquire w.buffers, .use w.buffers, .release w.buffers],
        w.sends, w.console ++ [.received name text]⟩, (bytes.length : Int)) := by
  have hpos : (bytes.length : Int) > 0 := Int.natCast_pos.mpr (List.length_pos_iff.mpr h)
  rw [recvName, nnRecv]
  dsimp only
  rw [if_pos hpos]
  simp [access, print]

/-- **A call on a message with a NUL** prints the string in front of it, and frees
the buffer. -/
theorem recvName_of_mem (name : List UInt8) (h : w.AllFreed) (h0 : 0 ∈ bytes) : ∃ w',
    recvName name w (.message bytes) = some (w', (bytes.length : Int)) ∧ w'.AllFreed ∧
      w'.console = w.console ++ [.received name (cstr bytes)] := by
  have hne : bytes ≠ [] := List.ne_nil_of_mem h0
  refine ⟨_, by rw [recvName_message hne, cstrIn_of_mem h0]; rfl, fun k ↦ ?_, rfl⟩
  rw [life_append, h k, Option.bind_some]
  by_cases hk : w.buffers = k
  · subst hk
    simp
  · have hlt : k < w.buffers + 1 ↔ k < w.buffers := by omega
    simp [hk, hlt]

/-- **A call on any other message** leaves a buffer behind, or prints what is not
in it. -/
theorem not_allFreed_of_not_mem (h0 : 0 ∉ bytes) {w' : Node} {result : Int}
    (hw : recvName name w (.message bytes) = some (w', result)) : ¬ w'.AllFreed := by
  by_cases hne : bytes = []
  · subst hne
    rw [recvName_empty] at hw
    cases hw
    intro h
    have hlast : life w.buffers .unborn (w.accesses ++ [.acquire w.buffers]) = some .dead :=
      (h w.buffers).trans (congrArg some (if_pos (Nat.lt_succ_self _)))
    rw [life_append] at hlast
    obtain ⟨s, -, hs⟩ := Option.bind_eq_some_iff.mp hlast
    -- an allocation is not the end of a life
    have hself : (Access.acquire w.buffers).resource = w.buffers := rfl
    rw [life_cons_self hself] at hs
    cases s <;> cases hs
  · rw [recvName_message hne, cstrIn_of_not_mem h0] at hw
    cases hw

/-- **The loop over messages with a NUL** leaves no buffer behind. -/
theorem loop_of_mem (name : List UInt8) (h : ∀ bytes, .message bytes ∈ rs → 0 ∈ bytes)
    (hw : w.AllFreed) : ∃ w', loop (body name) w rs = some (.again w') ∧ w'.AllFreed := by
  induction rs generalizing w with
  | nil => exact ⟨w, rfl, hw⟩
  | cons r rs ih =>
      have hrest : ∀ bytes, .message bytes ∈ rs → 0 ∈ bytes := fun bytes hb ↦
        h bytes (List.mem_cons_of_mem _ hb)
      cases r with
      | timeout => exact ih hrest hw.sendName
      | message bytes =>
          obtain ⟨w', hw', hfreed, -⟩ := recvName_of_mem name hw
            (h bytes (List.mem_cons_self ..))
          rw [loop, body, hw']
          exact ih hrest hfreed.sendName

/-- **A run is safe exactly if every message has a NUL**: whatever the peer sends
and however many timeouts there are in between, every call of `recv_name` then
prints what is in the message and frees its buffer once. -/
theorem safe_iff : Safe name rs ↔ ∀ bytes, .message bytes ∈ rs → 0 ∈ bytes := by
  constructor
  · intro h bytes hb
    obtain ⟨before, after, hrs⟩ := List.append_of_mem hb
    obtain ⟨w, w', result, -, hw', hfreed, -⟩ := h before (.message bytes) after hrs
    by_contra h0
    exact not_allFreed_of_not_mem h0 hw' hfreed
  · rintro h before r after rfl
    have hbefore : ∀ bytes, .message bytes ∈ before → 0 ∈ bytes := fun bytes hb ↦
      h bytes (List.mem_append_left _ hb)
    obtain ⟨w, hw, hfreed⟩ := loop_of_mem name hbefore allFreed_start
    cases r with
    | timeout => exact ⟨w, w, -1, hw, rfl, hfreed, fun _ ↦ rfl⟩
    | message bytes =>
        have hmem : .message bytes ∈ before ++ .message bytes :: after := by simp
        obtain ⟨w', hw', hfreed', -⟩ := recvName_of_mem name hfreed (h bytes hmem)
        exact ⟨w, w', _, hw, hw', hfreed', by rintro ⟨⟩⟩

/-- The name `node0`. -/
def node0 : List UInt8 := [110, 111, 100, 101, 48]

/-- The buffer of an empty message is never freed, and a message without a NUL is
read past its end. -/
theorem empty_leaks :
    (∃ w, recvName node0 start (.message []) = some (w, 0) ∧
      w.accesses = [.acquire 0]) ∧
    recvName node0 start (.message node0) = none ∧
      ¬ Safe node0 [.message []] ∧ ¬ Safe node0 [.message node0] := by
  have hunsafe (bytes : List UInt8) (h0 : 0 ∉ bytes) : ¬ Safe node0 [.message bytes] := by
    intro h
    obtain ⟨w, w', result, -, hw', hfreed, -⟩ := h [] (.message bytes) [] rfl
    exact not_allFreed_of_not_mem h0 hw' hfreed
  exact ⟨⟨_, rfl, rfl⟩, rfl, hunsafe [] (by decide), hunsafe node0 (by decide)⟩

end Node

end CppExamples.Nanomsg
