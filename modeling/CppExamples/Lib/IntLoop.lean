import CppExamples.Lib.CString

/-!
# Loops that count with an `int`

`for (int i = start; test(i); i++)` around a body that may be undefined, which is
`none`.  The counter is an `int`: to increment the largest one is undefined too,
which is also why such a loop always comes to an end.

* `intLoop` is the loop.
* `intLoop_upto` is the invariant rule for a loop that counts up to some bound:
  a body that is defined wherever the invariant holds, and carries it on to the
  next value of the counter, brings it from the start to the bound.
-/

namespace CppExamples.Lib

universe u

/-- `++` on an `int`. -/
def increment (v : Int) : Option Int := if v < intMax then some (v + 1) else none

theorem increment_of_lt {v : Int} (h : v < intMax) : increment v = some (v + 1) := if_pos h

variable {σ : Type u} {test : Int → Bool} {body : Int → σ → Option σ}

/-- `for (int i = …; test(i); i++) body(i)` -/
def intLoop (test : Int → Bool) (body : Int → σ → Option σ) (i : Int) (s : σ) : Option σ :=
  if test i then
    (body i s).bind fun t ↦ if i < intMax then intLoop test body (i + 1) t else none
  else
    some s
termination_by (intMax - i).toNat

/-- A pass of the loop. -/
theorem intLoop_of_test {i : Int} {s t : σ} (htest : test i = true) (hi : i < intMax)
    (ht : body i s = some t) : intLoop test body i s = intLoop test body (i + 1) t := by
  rw [intLoop, if_pos htest, ht, Option.bind_some, if_pos hi]

/-- The end of the loop. -/
theorem intLoop_of_not_test {i : Int} {s : σ} (htest : ¬ test i = true) :
    intLoop test body i s = some s := by
  rw [intLoop, if_neg htest]

/-- **The invariant rule** for counting up to a bound. -/
theorem intLoop_upto {I : Nat → σ → Prop} {n : Nat} (hn : (n : Int) ≤ intMax)
    (htest : ∀ i, test i = true ↔ i < n)
    (hbody : ∀ k < n, ∀ s, I k s → ∃ t, body k s = some t ∧ I (k + 1) t)
    {k : Nat} (hk : k ≤ n) {s : σ} (h : I k s) :
    ∃ t, intLoop test body k s = some t ∧ I n t := by
  induction hk using Nat.decreasingInduction generalizing s with
  | self => exact ⟨s, intLoop_of_not_test (by simp [htest]), h⟩
  | of_succ k hk ih =>
      obtain ⟨t, ht, hI⟩ := hbody k hk s h
      have hk' : (k : Int) < n := Int.ofNat_lt.mpr hk
      rw [intLoop_of_test ((htest k).mpr hk') (lt_of_lt_of_le hk' hn) ht]
      exact ih hI

end CppExamples.Lib
