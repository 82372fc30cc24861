import CppExamples.Lib.System

/-!
# Simulation

One system simulates another if each step of the other is matched by a run of
the one.  `Reachable.simulate` carries whole runs over, so that what is known of
every state of the simulating system is known of the other.  `exec_simulate` is
for steps that are matched one by one; it keeps the number of the steps.
-/

namespace CppExamples.Lib.System

universe u v

variable {σ τ : Type u} {ε δ : Type v} {M : System σ ε} {N : System τ δ} {R : σ → τ → Prop}

/-- **The simulation rule.**  A relation that holds of the initial states, and
that some run of `N` restores after each step of `M`, relates every reachable
state of `M` to one of `N`. -/
theorem Reachable.simulate {G : σ → ε → Prop} {G' : τ → δ → Prop}
    (h₀ : ∀ s, M.init s → ∃ t, N.init t ∧ R s t)
    (hs : ∀ s e s' t, M.Reachable G s → N.Reachable G' t → R s t → M.enabled s e = true → G s e →
      M.step s e = some s' → ∃ t', N.Reachable G' t' ∧ R s' t') {s : σ} (h : M.Reachable G s) :
    ∃ t, N.Reachable G' t ∧ R s t := by
  induction h with
  | init hi =>
      obtain ⟨t, ht, hr⟩ := h₀ _ hi
      exact ⟨t, .init ht, hr⟩
  | step hreach he hg hstep ih =>
      obtain ⟨t, ht, hr⟩ := ih
      exact hs _ _ _ t hreach ht hr he hg hstep

/-- A relation that a single step of `N` restores after each step of `M` relates
executions of one length. -/
theorem exec_simulate {g : σ → ε → Bool} {g' : τ → δ → Bool}
    (hs : ∀ s e s' t, R s t → M.enabled s e = true → g s e = true → M.step s e = some s' →
      ∃ e' t', N.enabled t e' = true ∧ g' t e' = true ∧ N.step t e' = some t' ∧ R s' t')
    {s s' : σ} {t : τ} {es : List ε} (hr : R s t) (hx : M.exec g s es = some s') :
    ∃ es' t', es'.length = es.length ∧ N.exec g' t es' = some t' ∧ R s' t' := by
  induction es generalizing s t with
  | nil =>
      cases hx
      exact ⟨[], t, rfl, rfl, hr⟩
  | cons e es ih =>
      obtain ⟨he, hg, u, hu, hx⟩ := exec_cons_iff.mp hx
      obtain ⟨e', t₁, he', hg', ht₁, hr₁⟩ := hs s e u t hr he hg hu
      obtain ⟨es', t', hlen, hx', hr'⟩ := ih hr₁ hx
      exact ⟨e' :: es', t', by rw [List.length_cons, List.length_cons, hlen],
        exec_cons_iff.mpr ⟨he', hg', t₁, ht₁, hx'⟩, hr'⟩

end CppExamples.Lib.System
