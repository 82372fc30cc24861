import Mathlib.Data.List.Basic

/-!
# Streams of bytes

One direction of a connection.  The bytes that are sent arrive at the other end,
all of them and in their order, but not in the pieces in which they were sent: a
receive returns some of the bytes that are under way, at least one, and waits if
there are none.  It returns no bytes only once the sender has ended the stream
and everything has arrived.
-/

namespace CppExamples.Lib

/-- One direction of a connection. -/
structure Stream where
  inFlight : List UInt8
  /-- The sender will send nothing more. -/
  ended : Bool
deriving DecidableEq

namespace Stream

def idle : Stream := ⟨[], false⟩

def send (c : Stream) (bytes : List UInt8) : Stream := { c with inFlight := c.inFlight ++ bytes }

def finish (c : Stream) : Stream := { c with ended := true }

/-- A receive of at most `n` bytes can return `k` bytes. -/
def delivers (c : Stream) (n k : Nat) : Bool :=
  if c.inFlight = [] then c.ended && decide (k = 0)
  else decide (0 < k) && decide (k ≤ n) && decide (k ≤ c.inFlight.length)

/-- A receive of `k` bytes: what it returns, and what is under way then. -/
def recv (c : Stream) (k : Nat) : List UInt8 × Stream :=
  (c.inFlight.take k, { c with inFlight := c.inFlight.drop k })

variable {c : Stream} {n k : Nat}

@[simp] theorem inFlight_idle : idle.inFlight = [] := rfl

@[simp] theorem ended_idle : idle.ended = false := rfl

@[simp] theorem inFlight_send (c : Stream) (bytes : List UInt8) :
    (c.send bytes).inFlight = c.inFlight ++ bytes := rfl

@[simp] theorem ended_send (c : Stream) (bytes : List UInt8) : (c.send bytes).ended = c.ended := rfl

@[simp] theorem inFlight_finish (c : Stream) : c.finish.inFlight = c.inFlight := rfl

@[simp] theorem ended_finish (c : Stream) : c.finish.ended = true := rfl

@[simp] theorem ended_recv (c : Stream) (k : Nat) : (c.recv k).2.ended = c.ended := rfl

/-- **No byte gets lost.** -/
theorem recv_append (c : Stream) (k : Nat) : (c.recv k).1 ++ (c.recv k).2.inFlight = c.inFlight :=
  List.take_append_drop k c.inFlight

theorem recv_prefix (c : Stream) (k : Nat) : (c.recv k).1 <+: c.inFlight := List.take_prefix _ _

/-- A receive of everything that is under way. -/
theorem recv_length (c : Stream) : c.recv c.inFlight.length = (c.inFlight, ⟨[], c.ended⟩) := by
  rw [recv, List.take_length, List.drop_length]

/-- A receive that returns nothing is at the end of the stream. -/
theorem delivers_zero : c.delivers n 0 = true ↔ c.inFlight = [] ∧ c.ended = true := by
  rw [delivers]
  split <;> simp [*]

/-- A receive that returns something has made the stream shorter. -/
theorem length_recv (h : c.delivers n (k + 1) = true) :
    (c.recv (k + 1)).1.length = k + 1 ∧
      (c.recv (k + 1)).2.inFlight.length + (k + 1) = c.inFlight.length := by
  rw [delivers] at h
  split at h
  · simp at h
  · simp only [Bool.and_eq_true, decide_eq_true_eq] at h
    simp only [recv, List.length_take, List.length_drop]
    omega

/-- A receive returns no more than there is room for. -/
theorem le_of_delivers (h : c.delivers n k = true) : k ≤ n := by
  rw [delivers] at h
  split at h <;> simp only [Bool.and_eq_true, decide_eq_true_eq] at h <;> omega

theorem recv_ne_nil (h : c.delivers n (k + 1) = true) : (c.recv (k + 1)).1 ≠ [] := by
  intro hnil
  have := (length_recv h).1
  rw [hnil] at this
  cases this

/-- A receive waits only if nothing is under way and the sender may go on. -/
theorem exists_delivers (hn : 0 < n) (h : c.inFlight ≠ [] ∨ c.ended = true) :
    ∃ k, c.delivers n k = true := by
  by_cases hnil : c.inFlight = []
  · exact ⟨0, delivers_zero.mpr ⟨hnil, h.resolve_left (not_not_intro hnil)⟩⟩
  · have hpos := List.length_pos_iff.mpr hnil
    refine ⟨1, ?_⟩
    rw [delivers, if_neg hnil, decide_eq_true Nat.one_pos, decide_eq_true (show 1 ≤ n from hn),
      decide_eq_true (show 1 ≤ c.inFlight.length from hpos)]
    rfl

end Stream

end CppExamples.Lib
