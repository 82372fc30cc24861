import Mathlib.Data.List.Basic

/-!
# Loops of blocking calls

A program that does the same thing over and over, with calls that wait for the
environment: the outcomes of the calls of one pass are an input `ι` of the body.
A pass leads to the next one, or it leaves the loop, because of an exception or a
return, with a reason in `ρ`; what it does may also be undefined, which is `none`.

* `loop` runs the body for as many passes as there are inputs, or until a pass
  leaves it; `taken` are the inputs that its passes take.
* `loop_invariant` is the induction over the passes: what every pass keeps holds
  wherever the loop ends.
* `loop_again_iff` is for the question how long the loop goes on: if it is the
  inputs alone that decide whether a pass leads to the next, then the loop goes
  on exactly as long as they say so.
* `loop_serves` puts the two together.
-/

namespace CppExamples.Lib

universe u v w

/-- The end of one pass of a loop. -/
inductive Pass (σ : Type u) (ρ : Type v) where
  | /-- On to the next pass. -/
    again (s : σ)
  | /-- Out of the loop. -/
    left (s : σ) (reason : ρ)

/-- The state at the end of a pass. -/
def Pass.state {σ : Type u} {ρ : Type v} : Pass σ ρ → σ
  | .again s => s
  | .left s _ => s

variable {σ : Type u} {ρ : Type v} {ι : Type w} {body : σ → ι → Option (Pass σ ρ)}

/-- A loop without an end of its own. -/
def loop (body : σ → ι → Option (Pass σ ρ)) : σ → List ι → Option (Pass σ ρ)
  | s, [] => some (.again s)
  | s, i :: is => match body s i with
      | some (.again t) => loop body t is
      | p => p

/-- The inputs of the passes that a loop makes. -/
def taken (body : σ → ι → Option (Pass σ ρ)) : σ → List ι → List ι
  | _, [] => []
  | s, i :: is => match body s i with
      | some (.again t) => i :: taken body t is
      | _ => [i]

/-- A loop over some inputs and then others. -/
theorem loop_append (s : σ) (is js : List ι) :
    loop body s (is ++ js) = match loop body s is with
      | some (.again t) => loop body t js
      | p => p := by
  induction is generalizing s with
  | nil => rfl
  | cons i is ih =>
      rw [List.cons_append, loop, loop]
      split
      · exact ih _
      · rename_i hno
        split
        · rename_i t ht
          exact absurd ht (hno t)
        · rfl

/-- One more pass. -/
theorem loop_concat {s t : σ} {is : List ι} (h : loop body s is = some (.again t)) (i : ι) :
    loop body s (is ++ [i]) = body t i := by
  rw [loop_append, h]
  simp only [loop]
  split
  · rename_i u hu
    exact hu.symm
  · rfl

/-- **The invariant rule** for loops, where the inputs so far are part of the
invariant. -/
theorem loop_invariant {I : List ι → σ → Prop}
    (hI : ∀ before s i p, I before s → body s i = some p → I (before ++ [i]) p.state)
    (before : List ι) {is : List ι} {s : σ} {p : Pass σ ρ} (h : I before s)
    (hp : loop body s is = some p) :
    I (before ++ taken body s is) p.state := by
  induction is generalizing before s with
  | nil =>
      cases hp
      rwa [taken, List.append_nil]
  | cons i is ih =>
      rw [loop] at hp
      rw [taken]
      split at hp
      · rename_i u hu
        have hi := ih _ (hI before s i _ h hu) hp
        rwa [List.append_assoc] at hi
      · exact hI before s i p h hp

/-- A loop whose passes are defined is defined. -/
theorem exists_loop (is : List ι) (h : ∀ s, ∀ i ∈ is, ∃ p, body s i = some p) (s : σ) :
    ∃ p, loop body s is = some p := by
  induction is generalizing s with
  | nil => exact ⟨_, rfl⟩
  | cons i is ih =>
      obtain ⟨p, hp⟩ := h s i (List.mem_cons_self ..)
      rw [loop, hp]
      cases p with
      | again t => exact ih (fun s j hj ↦ h s j (List.mem_cons_of_mem _ hj)) t
      | left t r => exact ⟨_, rfl⟩

/-- **The loop goes on** exactly as long as every input lets it. -/
theorem loop_again_iff {C : ι → Prop} (hC : ∀ s i, (∃ t, body s i = some (.again t)) ↔ C i)
    (s : σ) (is : List ι) : (∃ t, loop body s is = some (.again t)) ↔ ∀ i ∈ is, C i := by
  induction is generalizing s with
  | nil => simp [loop]
  | cons i is ih =>
      rw [List.forall_mem_cons, ← hC s i]
      constructor
      · rintro ⟨t, ht⟩
        rw [loop] at ht
        split at ht
        · rename_i u hu
          exact ⟨⟨u, hu⟩, (ih u).mp ⟨t, ht⟩⟩
        · rename_i hno
          exact absurd ht (hno t)
      · rintro ⟨⟨u, hu⟩, hrest⟩
        rw [loop, hu]
        exact (ih u).mpr hrest

/-- **A loop for requests.**  If its passes are defined, each of them keeps the
invariant, and it is the inputs that decide whether a pass leads to the next,
then the invariant holds wherever the loop ends, and it goes on exactly as long
as the inputs say so. -/
theorem loop_serves {I : List ι → σ → Prop} {C : ι → Prop} {s : σ} {is : List ι} (h : I [] s)
    (hdef : ∀ s, ∀ i ∈ is, ∃ p, body s i = some p)
    (hI : ∀ before s i p, I before s → body s i = some p → I (before ++ [i]) p.state)
    (hC : ∀ s i, (∃ t, body s i = some (.again t)) ↔ C i) :
    ∃ p, loop body s is = some p ∧ I (taken body s is) p.state ∧
      ((∃ t, p = .again t) ↔ ∀ i ∈ is, C i) := by
  obtain ⟨p, hp⟩ := exists_loop is hdef s
  have hgoes := loop_again_iff hC s is
  rw [hp] at hgoes
  simp only [Option.some.injEq] at hgoes
  exact ⟨p, hp, loop_invariant hI [] h hp, hgoes⟩

end CppExamples.Lib
