import Mathlib.Data.List.Basic

/-!
# Event-driven systems and their runs

A program whose handlers are run by an event loop is a state `σ`, a type of
events `ε`, and a reaction to each event.  Which event comes next is up to the
environment: `enabled s e` says that the environment may deliver `e` in state
`s`, and `step s e` is what the program then does.  A reaction may have
undefined behaviour, in which case it is `none` and the run cannot go on.

`Reachable G s` is reachability along the runs all of whose steps satisfy the
guard `G`.  The unguarded runs are those with `G = Always`.  Conditions under
which a program keeps a property are guards: they restrict the environment and
never the program.

* `Reachable.invariant` is the one induction over runs; every safety result
  about a particular system is an instance of it.
* `exec` runs a list of events, so that a run can be exhibited by computation,
  and `exec_reachable` turns such a computation into reachability.
-/

namespace CppExamples.Lib

universe u v

/-- A program driven by events. -/
structure System (σ : Type u) (ε : Type v) where
  /-- The states a run may start in. -/
  init : σ → Prop
  /-- The environment may deliver this event now. -/
  enabled : σ → ε → Bool
  /-- The reaction of the program, or `none` if it has undefined behaviour. -/
  step : σ → ε → Option σ

variable {σ : Type u} {ε : Type v}

/-- The guard that every step satisfies. -/
def Always : σ → ε → Prop := fun _ _ ↦ True

namespace System

variable (M : System σ ε)

/-- `M.Reachable G s`: some run of `M`, all of whose steps satisfy `G`, ends
in `s`. -/
inductive Reachable (G : σ → ε → Prop) : σ → Prop
  | /-- A run of no steps. -/
    init {s : σ} : M.init s → Reachable G s
  | /-- One more step at the end. -/
    step {s s' : σ} {e : ε} : Reachable G s → M.enabled s e = true → G s e →
      M.step s e = some s' → Reachable G s'

variable {M}

/-- **The invariant rule.**  A property of the initial states that every
guarded step preserves holds along all guarded runs.  The step case may use
that the state before the step is itself reachable. -/
theorem Reachable.invariant {G : σ → ε → Prop} {I : σ → Prop} (h₀ : ∀ s, M.init s → I s)
    (hs : ∀ s e s', M.Reachable G s → I s → M.enabled s e = true → G s e →
      M.step s e = some s' → I s') {s : σ} (h : M.Reachable G s) : I s := by
  induction h with
  | init hi => exact h₀ _ hi
  | step hr he hg ht ih => exact hs _ _ _ hr ih he hg ht

/-- Weakening the guard keeps every run. -/
theorem Reachable.mono {G G' : σ → ε → Prop} (hG : ∀ s e, G s e → G' s e) {s : σ}
    (h : M.Reachable G s) : M.Reachable G' s := by
  induction h with
  | init hi => exact .init hi
  | step _ he hg ht ih => exact .step ih he (hG _ _ hg) ht

/-- A guarded run is a run. -/
theorem Reachable.always {G : σ → ε → Prop} {s : σ} (h : M.Reachable G s) :
    M.Reachable Always s := h.mono fun _ _ _ ↦ trivial

variable (M)

/-- Run a list of events, all of which must pass the test `g`; `none` if one of
them fails it, is not enabled when its turn comes, or leads to undefined
behaviour. -/
def exec (g : σ → ε → Bool) : σ → List ε → Option σ
  | s, [] => some s
  | s, e :: es => if M.enabled s e && g s e then (M.step s e).bind (exec g · es) else none

variable {M}

/-- The first event of an execution is a step of the system. -/
theorem exec_cons_iff {g : σ → ε → Bool} {s s'' : σ} {e : ε} {es : List ε} :
    M.exec g s (e :: es) = some s'' ↔ M.enabled s e = true ∧ g s e = true ∧
      ∃ s', M.step s e = some s' ∧ M.exec g s' es = some s'' := by
  simp only [exec]
  split
  · rename_i h
    rw [Bool.and_eq_true] at h
    simp [h, Option.bind_eq_some_iff]
  · rename_i h
    simp only [Bool.and_eq_true, not_and] at h
    simp only [reduceCtorEq, false_iff, not_and]
    exact fun he hg _ ↦ h he hg

/-- What every step preserves, an execution preserves. -/
theorem exec_invariant {g : σ → ε → Bool} {I : σ → Prop}
    (hI : ∀ s e s', I s → M.enabled s e = true → M.step s e = some s' → I s') {s s' : σ}
    {es : List ε} (h : I s) (hx : M.exec g s es = some s') : I s' := by
  induction es generalizing s with
  | nil => cases hx; exact h
  | cons e es ih =>
      obtain ⟨he, -, t, ht, hx⟩ := exec_cons_iff.mp hx
      exact ih (hI s e t h he ht) hx

/-- **The measure rule.**  If no step from a state with the invariant adds to a
measure, and those of the events `c` take something from it, an execution has no
more of these events than the measure is at its start. -/
theorem countP_exec_le {g : σ → ε → Bool} {I : σ → Prop} {m : σ → Nat} {c : ε → Bool}
    (hI : ∀ s e s', I s → M.enabled s e = true → M.step s e = some s' → I s')
    (hm : ∀ s e s', I s → M.enabled s e = true → g s e = true → M.step s e = some s' →
      if c e then m s' < m s else m s' ≤ m s) {s s' : σ} {es : List ε} (h : I s)
    (hx : M.exec g s es = some s') : es.countP c ≤ m s := by
  induction es generalizing s with
  | nil => exact Nat.zero_le _
  | cons e es ih =>
      obtain ⟨he, hg, t, ht, hx⟩ := exec_cons_iff.mp hx
      have hstep := hm s e t h he hg ht
      have hrest := ih (hI s e t h he ht) hx
      rw [List.countP_cons]
      split at hstep
      · rw [if_pos ‹_›]
        exact Nat.lt_of_le_of_lt hrest hstep
      · rw [if_neg ‹_›]
        exact Nat.le_trans hrest hstep

/-- If every step takes something from the measure, it bounds the length. -/
theorem length_exec_le {g : σ → ε → Bool} {I : σ → Prop} {m : σ → Nat}
    (hI : ∀ s e s', I s → M.enabled s e = true → M.step s e = some s' → I s')
    (hm : ∀ s e s', I s → M.enabled s e = true → g s e = true → M.step s e = some s' →
      m s' < m s) {s s' : σ} {es : List ε} (h : I s) (hx : M.exec g s es = some s') :
    es.length ≤ m s := by
  have hcount : es.countP (fun _ ↦ true) ≤ m s := by
    refine countP_exec_le hI (fun s e t hs he hg ht ↦ ?_) h hx
    rw [if_pos rfl]
    exact hm s e t hs he hg ht
  rwa [List.countP_true] at hcount

/-- An execution under a test for the guard extends a guarded run. -/
theorem exec_reachable {G : σ → ε → Prop} {g : σ → ε → Bool}
    (hG : ∀ s e, g s e = true → G s e) {s s' : σ} {es : List ε} (h : M.Reachable G s)
    (hx : M.exec g s es = some s') : M.Reachable G s' := by
  induction es generalizing s with
  | nil => cases hx; exact h
  | cons e es ih =>
      obtain ⟨he, hg, t, ht, hx⟩ := exec_cons_iff.mp hx
      exact ih (h.step he (hG s e hg) ht) hx

variable {P : σ → Prop} [DecidablePred P]

/-- The state an execution ends in is reachable, and what it is found to satisfy
there is true of it. -/
theorem reachable_of_exec {G : σ → ε → Prop} {g : σ → ε → Bool}
    (hG : ∀ s e, g s e = true → G s e) {s : σ} (h : M.Reachable G s) (es : List ε)
    (hx : (M.exec g s es).any (fun s' ↦ decide (P s')) = true) :
    ∃ s', M.Reachable G s' ∧ P s' := by
  obtain ⟨s', hs, hp⟩ := (Option.any_eq_true _ _).mp hx
  exact ⟨s', exec_reachable hG h hs, of_decide_eq_true hp⟩

/-- The same for unguarded runs. -/
theorem always_of_exec {s : σ} (h : M.Reachable Always s) (es : List ε)
    (hx : (M.exec (fun _ _ ↦ true) s es).any (fun s' ↦ decide (P s')) = true) :
    ∃ s', M.Reachable Always s' ∧ P s' :=
  reachable_of_exec (fun _ _ _ ↦ trivial) h es hx

end System

end CppExamples.Lib
