import Mathlib.Data.List.Basic

/-!
# Lifetimes of resources

A program acquires a resource, uses it, and releases it.  What it does with its
resources is a trace of accesses, and each resource has a life of its own in the
trace: it has not been acquired yet, or it is live, or it has been released.  An
access that does not fit the life of its resource is an error: a use before or
after the life, a second release, a second acquisition.

* `life r s t` is what becomes of the resource `r` in the trace `t`; it is `none`
  after an error, and it composes over the parts of a trace.
* `released_once` is what a life that has ended is good for: one release, and
  nothing after it.
* `not_released` and `not_acquired` are for the other two ends; the resource of
  the first one has leaked.
-/

namespace CppExamples.Lib

universe u

/-- What a program does with a resource. -/
inductive Access (ρ : Type u) where
  | acquire (r : ρ)
  | use (r : ρ)
  | release (r : ρ)
deriving DecidableEq

/-- How far a resource has come. -/
inductive Life where
  | unborn | live | dead
deriving DecidableEq

variable {ρ : Type u}

/-- The resource of an access. -/
def Access.resource : Access ρ → ρ
  | .acquire r => r
  | .use r => r
  | .release r => r

/-- What an access to it makes of a resource. -/
def Life.next : Life → Access ρ → Option Life
  | .unborn, .acquire _ => some .live
  | .live, .use _ => some .live
  | .live, .release _ => some .dead
  | _, _ => none

variable [DecidableEq ρ]

/-- What becomes of the resource `r` in a trace. -/
def life (r : ρ) : Life → List (Access ρ) → Option Life
  | s, [] => some s
  | s, a :: t => if a.resource = r then (s.next a).bind fun s' ↦ life r s' t else life r s t

variable {r r' : ρ} {s s' : Life} {a : Access ρ} {t t' : List (Access ρ)}

@[simp] theorem life_nil : life r s [] = some s := rfl

theorem life_cons_self (h : a.resource = r) :
    life r s (a :: t) = (s.next a).bind fun s' ↦ life r s' t := if_pos h

theorem life_cons_of_ne (h : a.resource ≠ r) : life r s (a :: t) = life r s t := if_neg h

@[simp] theorem life_acquire : life r .unborn (.acquire r :: t) = life r .live t := if_pos rfl

@[simp] theorem life_use : life r .live (.use r :: t) = life r .live t := if_pos rfl

@[simp] theorem life_release : life r .live (.release r :: t) = life r .dead t := if_pos rfl

@[simp] theorem life_acquire_of_ne (h : r' ≠ r) : life r s (.acquire r' :: t) = life r s t :=
  if_neg h

@[simp] theorem life_use_of_ne (h : r' ≠ r) : life r s (.use r' :: t) = life r s t := if_neg h

@[simp] theorem life_release_of_ne (h : r' ≠ r) : life r s (.release r' :: t) = life r s t :=
  if_neg h

/-- The life in a trace is the life in its parts, one after the other. -/
theorem life_append : life r s (t ++ t') = (life r s t).bind fun s' ↦ life r s' t' := by
  induction t generalizing s with
  | nil => rfl
  | cons a t ih =>
      by_cases h : a.resource = r
      · rw [List.cons_append, life_cons_self h, life_cons_self h]
        cases s.next a with
        | none => rfl
        | some s₁ => exact ih
      · rw [List.cons_append, life_cons_of_ne h, life_cons_of_ne h, ih]

/-- Accesses to other resources do not matter. -/
theorem life_of_forall_ne (h : ∀ a ∈ t, a.resource ≠ r) : life r s t = some s := by
  induction t with
  | nil => rfl
  | cons a t ih =>
      rw [life_cons_of_ne (h a (List.mem_cons_self ..))]
      exact ih fun b hb ↦ h b (List.mem_cons_of_mem _ hb)

/-- A resource that is live is so after any uses. -/
theorem life_live_of_uses (h : ∀ a ∈ t, ∃ q, a = .use q) : life r .live t = some .live := by
  induction t with
  | nil => rfl
  | cons a t ih =>
      obtain ⟨q, rfl⟩ := h a (List.mem_cons_self ..)
      have hrest := ih fun b hb ↦ h b (List.mem_cons_of_mem _ hb)
      by_cases hq : q = r
      · rwa [hq, life_use]
      · rwa [life_use_of_ne hq]

/-- After its release a resource is not accessed any more. -/
theorem forall_ne_of_dead (h : life r .dead t = some s) : ∀ a ∈ t, a.resource ≠ r := by
  induction t with
  | nil => intro a ha; cases ha
  | cons b t ih =>
      by_cases hb : b.resource = r
      · rw [life_cons_self hb] at h
        cases b <;> cases h
      · rw [life_cons_of_ne hb] at h
        intro a ha
        rcases List.mem_cons.mp ha with rfl | ha
        · exact hb
        · exact ih h a ha

/-- How often a resource has been acquired so far, and released. -/
def Life.acquired : Life → Nat
  | .unborn => 0
  | .live => 1
  | .dead => 1

def Life.released : Life → Nat
  | .unborn => 0
  | .live => 0
  | .dead => 1

/-- Acquisitions and releases, one access further. -/
theorem Life.counts_of_next (ha : a.resource = r) (h : s.next a = some s') :
    [a].count (.acquire r) + s.acquired = s'.acquired ∧
      [a].count (.release r) + s.released = s'.released := by
  subst ha
  cases s <;> cases a <;> cases h <;> simp [Access.resource, Life.acquired, Life.released]

/-- **Acquisitions and releases are counted by the life** of a resource. -/
theorem counts_of_life (h : life r s t = some s') :
    t.count (.acquire r) + s.acquired = s'.acquired ∧
      t.count (.release r) + s.released = s'.released := by
  induction t generalizing s with
  | nil =>
      cases h
      simp
  | cons a t ih =>
      rw [List.count_cons, List.count_cons, ← List.count_singleton, ← List.count_singleton]
      by_cases ha : a.resource = r
      · rw [life_cons_self ha] at h
        obtain ⟨s₁, hs, h⟩ := Option.bind_eq_some_iff.mp h
        obtain ⟨hacq, hrel⟩ := ih h
        obtain ⟨hacq', hrel'⟩ := Life.counts_of_next ha hs
        constructor
        · rw [Nat.add_assoc, hacq', hacq]
        · rw [Nat.add_assoc, hrel', hrel]
      · rw [life_cons_of_ne ha] at h
        have hnone (b : Access ρ) (hb : b.resource = r) : [a].count b = 0 := by
          rw [List.count_eq_zero, List.mem_singleton]
          rintro rfl
          exact ha hb
        rw [hnone (.acquire r) rfl, hnone (.release r) rfl]
        exact ih h

/-- **A life that has ended**: one acquisition, one release, and nothing after
it. -/
theorem released_once (h : life r .unborn t = some .dead) :
    t.count (.acquire r) = 1 ∧ t.count (.release r) = 1 ∧
      ∀ t₁ t₂, t = t₁ ++ .release r :: t₂ → ∀ a ∈ t₂, a.resource ≠ r := by
  obtain ⟨hacq, hrel⟩ := counts_of_life h
  refine ⟨hacq, hrel, ?_⟩
  rintro t₁ t₂ rfl
  rw [life_append] at h
  obtain ⟨s₁, -, h⟩ := Option.bind_eq_some_iff.mp h
  have hself : (Access.release r).resource = r := rfl
  rw [life_cons_self hself] at h
  obtain ⟨s₂, hs, h⟩ := Option.bind_eq_some_iff.mp h
  have hdead : s₂ = .dead := by
    cases s₁ <;> cases hs
    rfl
  rw [hdead] at h
  exact forall_ne_of_dead h

/-- **A life that has not ended** is a leak. -/
theorem not_released (h : life r .unborn t = some .live) :
    t.count (.acquire r) = 1 ∧ t.count (.release r) = 0 := counts_of_life h

/-- A resource that is never acquired is not released either. -/
theorem not_acquired (h : life r .unborn t = some .unborn) :
    t.count (.acquire r) = 0 ∧ t.count (.release r) = 0 := counts_of_life h

end CppExamples.Lib
