import X402Mesh.Lib.Transition

set_option autoImplicit false

/-!
# Simulations between two step functions

The lower one may take steps of its own, and one of its steps may be several of the upper one. What
both show stays the same.
-/

namespace Transition

variable {σ α τ β γ : Type}

structure Simulation (step : σ → α → Option σ) (upper : τ → β → Option τ) (shown : α → Option γ)
    (shownAbove : β → Option γ) (allowed : α → Prop) where
  related : σ → τ → Prop
  matched : ∀ {s s' : σ} {t : τ} {a : α}, related s t → allowed a → step s a = some s' →
    ∃ labels t', replay upper t labels = some t' ∧
      labels.filterMap shownAbove = (shown a).toList ∧ related s' t'

variable {step : σ → α → Option σ} {upper : τ → β → Option τ} {shown : α → Option γ}
variable {shownAbove : β → Option γ} {allowed : α → Prop}

theorem replay_append (start : σ) (first second : List α) :
    replay step start (first ++ second) = (replay step start first).bind (replay step · second) := by
  induction first generalizing start with
  | nil => rfl
  | cons a rest ih =>
    cases taken : step start a with
    | none => simp [replay, taken]
    | some next => simpa [replay, taken] using ih next

theorem Simulation.run (simulation : Simulation step upper shown shownAbove allowed) {s s' : σ}
    {t : τ} (related : simulation.related s t) (labels : List α) (ok : ∀ a ∈ labels, allowed a)
    (ran : replay step s labels = some s') :
    ∃ above t', replay upper t above = some t' ∧
      above.filterMap shownAbove = labels.filterMap shown ∧ simulation.related s' t' := by
  induction labels generalizing s t with
  | nil =>
    obtain rfl : s = s' := by simpa [replay] using ran
    exact ⟨[], t, rfl, rfl, related⟩
  | cons a rest ih =>
    obtain ⟨next, taken, later⟩ := Option.bind_eq_some_iff.mp ran
    rw [List.forall_mem_cons] at ok
    obtain ⟨first, middle, stepped, same, related'⟩ := simulation.matched related ok.1 taken
    obtain ⟨second, last, continued, same', related''⟩ := ih related' ok.2 later
    refine ⟨first ++ second, last, ?_, ?_, related''⟩
    · rw [replay_append, stepped]
      exact continued
    · rw [List.filterMap_append, same, same', List.filterMap_cons]
      cases shown a <;> rfl

end Transition
