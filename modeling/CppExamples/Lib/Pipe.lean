import Mathlib.Data.List.Basic

/-!
# Pipes of messages

One direction of a connection that carries whole messages, with a bounded buffer
at each end.  A message is put into the buffer of the sender, moves on to the
buffer of the receiver when there is room, and is taken from there.  What has been
put is what has been taken and what is still in the pipe, in this order.
-/

namespace CppExamples.Lib

universe u

/-- The messages in a pipe, the oldest first. -/
structure Pipe (μ : Type u) where
  /-- In the buffer of the sender. -/
  sent : List μ
  /-- In the buffer of the receiver. -/
  arrived : List μ
deriving DecidableEq

namespace Pipe

variable {μ : Type u}

def empty : Pipe μ := ⟨[], []⟩

def put (c : Pipe μ) (m : μ) : Pipe μ := { c with sent := c.sent ++ [m] }

/-- The next message moves on. -/
def move (c : Pipe μ) : Pipe μ := ⟨c.sent.tail, c.arrived ++ c.sent.take 1⟩

def take (c : Pipe μ) : Pipe μ := { c with arrived := c.arrived.tail }

/-- There is room for another message at the sender. -/
def hasRoom (c : Pipe μ) (size : Nat) : Bool := c.sent.length < size

/-- A message can move on. -/
def canMove (c : Pipe μ) (size : Nat) : Bool := c.sent ≠ [] && c.arrived.length < size

def contents (c : Pipe μ) : List μ := c.arrived ++ c.sent

variable {c : Pipe μ} {m : μ}

@[simp] theorem contents_empty : (empty : Pipe μ).contents = [] := rfl

@[simp] theorem contents_put : (c.put m).contents = c.contents ++ [m] := by
  simp [contents, put]

/-- **A move changes nothing but the place.** -/
@[simp] theorem contents_move : c.move.contents = c.contents := by
  cases hs : c.sent <;> simp [contents, move, hs]

theorem contents_take {ms : List μ} (h : c.arrived = m :: ms) :
    c.contents = m :: c.take.contents := by
  simp [contents, take, h]

/-! ## Room -/

/-- The two buffers are not fuller than they can be. -/
structure Fits (c : Pipe μ) (sendSize recvSize : Nat) : Prop where
  sent : c.sent.length ≤ sendSize
  arrived : c.arrived.length ≤ recvSize

variable {sendSize recvSize : Nat}

theorem fits_empty : (empty : Pipe μ).Fits sendSize recvSize := ⟨Nat.zero_le _, Nat.zero_le _⟩

theorem Fits.put (h : c.Fits sendSize recvSize) (hr : c.hasRoom sendSize = true) :
    (c.put m).Fits sendSize recvSize := by
  refine ⟨?_, h.arrived⟩
  have hlt : c.sent.length < sendSize := of_decide_eq_true hr
  simpa [Pipe.put] using Nat.succ_le_of_lt hlt

theorem Fits.move (h : c.Fits sendSize recvSize) (hm : c.canMove recvSize = true) :
    c.move.Fits sendSize recvSize := by
  simp only [canMove, Bool.and_eq_true, decide_eq_true_eq] at hm
  obtain ⟨hnil, hlt⟩ := hm
  obtain ⟨m, ms, hs⟩ := List.exists_cons_of_ne_nil hnil
  have hle := h.sent
  rw [hs, List.length_cons] at hle
  constructor
  · simp only [Pipe.move, hs, List.tail_cons]
    omega
  · simp only [Pipe.move, hs, List.length_append, List.take_succ_cons, List.take_zero,
      List.length_singleton]
    omega

theorem Fits.take (h : c.Fits sendSize recvSize) : c.take.Fits sendSize recvSize := by
  refine ⟨h.sent, ?_⟩
  rw [Pipe.take, List.length_tail]
  exact Nat.le_trans (Nat.sub_le _ _) h.arrived

/-- A pipe in which nothing can move and for which there is no room is full. -/
theorem Fits.length_contents (h : c.Fits sendSize recvSize) (hs : 0 < sendSize)
    (hr : c.hasRoom sendSize = false) (hm : c.canMove recvSize = false) :
    c.contents.length = sendSize + recvSize := by
  have hsent : ¬ c.sent.length < sendSize := of_decide_eq_false hr
  have hnil : c.sent ≠ [] := List.length_pos_iff.mp (by omega)
  have harrived : ¬ c.arrived.length < recvSize := by simpa [canMove, hnil] using hm
  have hle := h.sent
  have hle' := h.arrived
  rw [contents, List.length_append]
  omega

/-- A pipe whose receiver finds nothing is not full. -/
theorem Fits.length_contents_le (h : c.Fits sendSize recvSize) (ha : c.arrived = []) :
    c.contents.length ≤ sendSize := by
  rw [contents, ha, List.nil_append]
  exact h.sent

theorem Fits.length_le (h : c.Fits sendSize recvSize) :
    c.contents.length ≤ sendSize + recvSize := by
  have hle := h.sent
  have hle' := h.arrived
  rw [contents, List.length_append]
  omega

end Pipe

end CppExamples.Lib
