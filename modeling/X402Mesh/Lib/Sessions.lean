import Mathlib.Algebra.GroupWithZero.Nat
import Mathlib.Data.List.Perm.Basic
import X402Mesh.Lib.Transition

set_option autoImplicit false

/-!
# Sessions that are served side by side

The sessions stand in a list, and each event is for one of them.
-/

namespace Sessions

variable {σ ε : Type}

theorem set_split {sessions : List σ} {i : Nat} {e : σ} (found : sessions[i]? = some e) :
    ∃ front back, sessions = front ++ e :: back ∧
      ∀ e', sessions.set i e' = front ++ e' :: back := by
  obtain ⟨below, rfl⟩ := List.getElem?_eq_some_iff.mp found
  refine ⟨sessions.take i, sessions.drop (i + 1), ?_, fun e' => ?_⟩
  · rw [List.getElem_cons_drop, List.take_append_drop]
  · rw [List.set_eq_take_append_cons_drop, if_pos below]

variable {β : Type} (held : σ → Option β)

-- A session that keeps what it holds.
theorem held_set_same {sessions : List σ} {i : Nat} {e e' : σ} (found : sessions[i]? = some e)
    (same : held e' = held e) : (sessions.set i e').filterMap held = sessions.filterMap held := by
  obtain ⟨front, back, rfl, replaced⟩ := set_split found
  rw [replaced, List.filterMap_append, List.filterMap_append, List.filterMap_cons,
    List.filterMap_cons, same]

-- A session that gives up what it holds.
theorem held_set_none {sessions : List σ} {i : Nat} {e e' : σ} (found : sessions[i]? = some e)
    {b : β} (before : held e = some b) (after : held e' = none) :
    (sessions.filterMap held).Perm (b :: (sessions.set i e').filterMap held) := by
  obtain ⟨front, back, rfl, replaced⟩ := set_split found
  rw [replaced, List.filterMap_append, List.filterMap_append, List.filterMap_cons,
    List.filterMap_cons, before, after]
  exact List.perm_middle

-- Only those that hold something have a share in a sum.
theorem sum_le_held {f : σ → Nat} {most : Nat} {sessions : List σ}
    (bounded : ∀ e ∈ sessions, f e ≤ most) (free : ∀ e ∈ sessions, held e = none → f e = 0) :
    (sessions.map f).sum ≤ (sessions.filterMap held).length * most := by
  induction sessions with
  | nil => simp
  | cons e rest ih =>
    rw [List.forall_mem_cons] at bounded free
    have later := ih bounded.2 free.2
    cases holds : held e with
    | none =>
      have nothing := free.1 holds
      simp only [List.map_cons, List.sum_cons, List.filterMap_cons, holds]
      omega
    | some b =>
      have share := bounded.1
      simp only [List.map_cons, List.sum_cons, List.filterMap_cons, holds, List.length_cons,
        Nat.succ_mul]
      omega

theorem forall_set {P : σ → Prop} {sessions : List σ} (all : ∀ e ∈ sessions, P e) {i : Nat}
    {e' : σ} (new : P e') : ∀ e ∈ sessions.set i e', P e := by
  intro e member
  rcases List.mem_or_eq_of_mem_set member with old | rfl
  · exact all e old
  · exact new

section own

variable {S α : Type} {step : S → α → Option S} {sessions : S → List σ} {P : σ → Prop}
variable (on : σ → ε → σ) (own : Nat → α → Option ε)

-- What the event of a label makes of the session.
def after (e : σ) (event : Option ε) : σ := (event.map (on e)).getD e

theorem replay_own
    (kept : ∀ e event, P e → P (on e event))
    (each : ∀ s a s' i e, step s a = some s' → (sessions s)[i]? = some e → P e →
      (sessions s')[i]? = some (after on e (own i a)))
    {s s' : S} (labels : List α) (replayed : Transition.replay step s labels = some s') {i : Nat}
    {e : σ} (found : (sessions s)[i]? = some e) (held : P e) :
    (sessions s')[i]? = some ((labels.filterMap (own i)).foldl on e) := by
  induction labels generalizing s e with
  | nil =>
    obtain rfl := Option.some.inj replayed
    exact found
  | cons a rest ih =>
    obtain ⟨next, taken, later⟩ := Option.bind_eq_some_iff.mp replayed
    have moved := each s a next i e taken found held
    cases addressed : own i a with
    | none =>
      rw [addressed] at moved
      rw [List.filterMap_cons_none addressed]
      exact ih later moved held
    | some event =>
      rw [addressed] at moved
      rw [List.filterMap_cons_some addressed]
      exact ih later moved (kept e event held)

end own

end Sessions
