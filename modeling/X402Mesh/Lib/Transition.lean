import Mathlib.Data.List.Basic

set_option autoImplicit false

/-!
# Runs of a partial step function

A label carries every choice of the environment, so `step` is a function. `Run` keeps to the
steps that a guard allows.
-/

namespace Transition

variable {σ α : Type} (step : σ → α → Option σ) (allowed : σ → α → Prop)

inductive Run (start : σ) : σ → Prop
  | refl : Run start start
  | tail {s s' : σ} {a : α} : Run start s → allowed s a → step s a = some s' → Run start s'

def replay : σ → List α → Option σ
  | s, [] => some s
  | s, a :: rest => (step s a).bind fun s' => replay s' rest

def Allows : σ → List α → Prop
  | _, [] => True
  | s, a :: rest => allowed s a ∧ ∀ s', step s a = some s' → Allows s' rest

variable {step allowed}

theorem Run.invariant {P : σ → Prop} {start s : σ} (run : Run step allowed start s)
    (init : P start)
    (preserved : ∀ s a s', P s → allowed s a → step s a = some s' → P s') : P s := by
  induction run with
  | refl => exact init
  | tail _ ok taken ih => exact preserved _ _ _ ih ok taken

theorem Run.mono {weaker : σ → α → Prop} {start s : σ} (run : Run step allowed start s)
    (weaken : ∀ s a, allowed s a → weaker s a) : Run step weaker start s := by
  induction run with
  | refl => exact .refl
  | tail _ ok taken ih => exact .tail ih (weaken _ _ ok) taken

theorem Run.trans {a b c : σ} (left : Run step allowed a b) (right : Run step allowed b c) :
    Run step allowed a c := by
  induction right with
  | refl => exact left
  | tail _ ok taken ih => exact .tail ih ok taken

theorem Run.single {s s' : σ} {a : α} (ok : allowed s a) (taken : step s a = some s') :
    Run step allowed s s' :=
  .tail .refl ok taken

theorem run_of_replay {start s : σ} (labels : List α) (ok : Allows step allowed start labels)
    (replayed : replay step start labels = some s) : Run step allowed start s := by
  induction labels generalizing start with
  | nil =>
    obtain rfl : start = s := by simpa [replay] using replayed
    exact .refl
  | cons a rest ih =>
    cases taken : step start a with
    | none => simp [replay, taken] at replayed
    | some next =>
      simp only [replay, taken, Option.bind_some] at replayed
      exact (Run.single ok.1 taken).trans (ih (ok.2 next taken) replayed)

theorem replay_concat (start : σ) (labels : List α) (a : α) :
    replay step start (labels ++ [a]) = (replay step start labels).bind (step · a) := by
  induction labels generalizing start with
  | nil => cases h : step start a <;> simp [replay, h]
  | cons b rest ih =>
    cases taken : step start b with
    | none => simp [replay, taken]
    | some next => simp [replay, taken, ih]

theorem allows_of_forall {start : σ} (labels : List α) (ok : ∀ s, ∀ a ∈ labels, allowed s a) :
    Allows step allowed start labels := by
  induction labels generalizing start with
  | nil => trivial
  | cons a rest ih =>
    exact ⟨ok start a (by simp), fun _ _ => ih fun s a member => ok s a (by simp [member])⟩

theorem run_of_replay_all {start s : σ} (p : α → Bool) (labels : List α)
    (ok : labels.all p = true) (replayed : replay step start labels = some s) :
    Run step (fun _ a => p a = true) start s :=
  run_of_replay labels (allows_of_forall labels fun _ => List.all_eq_true.mp ok) replayed

-- Labels that a computable guard lets pass one by one.
theorem run_of_guarded {start s : σ} (p : σ → α → Bool) (labels : List α)
    (replayed : replay (fun s a => if p s a then step s a else none) start labels = some s) :
    Run step (fun s a => p s a = true) start s := by
  induction labels generalizing start with
  | nil =>
    obtain rfl : start = s := by simpa [replay] using replayed
    exact .refl
  | cons a rest ih =>
    obtain ⟨next, passed, later⟩ := Option.bind_eq_some_iff.mp replayed
    obtain ⟨ok, taken⟩ := Option.ite_none_right_eq_some.mp passed
    have first : Run step (fun s a => p s a = true) start next := .single ok taken
    exact first.trans (ih later)

-- The same for a guard that is decided at each label, with the labels kept.
theorem allows_of_guarded [∀ s a, Decidable (allowed s a)] {start s : σ} (labels : List α)
    (replayed : replay (fun s a => if allowed s a then step s a else none) start labels = some s) :
    Allows step allowed start labels ∧ replay step start labels = some s := by
  induction labels generalizing start with
  | nil => exact ⟨trivial, replayed⟩
  | cons a rest ih =>
    obtain ⟨next, passed, later⟩ := Option.bind_eq_some_iff.mp replayed
    obtain ⟨ok, taken⟩ := Option.ite_none_right_eq_some.mp passed
    obtain ⟨allows, replayed'⟩ := ih later
    refine ⟨⟨ok, fun other reached => ?_⟩, ?_⟩
    · obtain rfl : next = other := by simpa [taken] using reached
      exact allows
    · simpa [replay, taken] using replayed'

end Transition
