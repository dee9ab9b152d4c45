import Mathlib.Data.List.Basic
import Mathlib.Data.List.Perm.Basic
import X402Mesh.Lib.Transition

set_option autoImplicit false

/-!
# Pools of calls over a shared state

Each call takes its commands one at a time, between those of the others. Calls that never overlap
leave what they would leave one after the other, in the order in which they finish.
-/

namespace List

variable {α β : Type}

theorem filterMap_found_perm (f : α → Option β) (l : List α) (i : Nat) (a : α)
    (found : l[i]? = some a) :
    (l.filterMap f).Perm ((f a).toList ++ (l.eraseIdx i).filterMap f) := by
  obtain ⟨bound, rfl⟩ := List.getElem?_eq_some_iff.mp found
  have split := (List.getElem_cons_eraseIdx_perm bound).symm.filterMap f
  rw [List.filterMap_cons] at split
  cases own : f l[i] <;> simpa [own] using split

theorem filterMap_set_perm (f : α → Option β) (l : List α) (i : Nat) (a b : α)
    (found : l[i]? = some a) :
    ((l.set i b).filterMap f).Perm ((f b).toList ++ (l.eraseIdx i).filterMap f) := by
  obtain ⟨bound, rfl⟩ := List.getElem?_eq_some_iff.mp found
  have split := (List.set_perm_cons_eraseIdx bound b).filterMap f
  rw [List.filterMap_cons] at split
  cases own : f b <;> simpa [own] using split

-- The one element that is looked at, and all the others.
theorem countP_found (p : α → Bool) {l : List α} {i : Nat} {a : α} (found : l[i]? = some a) :
    l.countP p = (p a).toNat + (l.eraseIdx i).countP p := by
  obtain ⟨bound, rfl⟩ := List.getElem?_eq_some_iff.mp found
  rw [← (List.getElem_cons_eraseIdx_perm bound).countP_eq, List.countP_cons]
  cases p l[i] <;> simp [Nat.add_comm]

theorem countP_set_found (p : α → Bool) {l : List α} {i : Nat} {a : α} (found : l[i]? = some a)
    (b : α) : (l.set i b).countP p = (p b).toNat + (l.eraseIdx i).countP p := by
  obtain ⟨bound, -⟩ := List.getElem?_eq_some_iff.mp found
  rw [(List.set_perm_cons_eraseIdx bound b).countP_eq, List.countP_cons]
  cases p b <;> simp [Nat.add_comm]

theorem countP_set_add (p : α → Bool) (l : List α) (i : Nat) (a b : α) (found : l[i]? = some a) :
    (l.set i b).countP p + (p a).toNat = l.countP p + (p b).toNat := by
  rw [countP_found p found, countP_set_found p found b]
  omega

end List

namespace Pool

structure Slot (κ π : Type) where
  call : κ
  point : π
  deriving DecidableEq, Repr

end Pool

structure Pool (σ κ π : Type) where
  shared : σ
  slots : List (Pool.Slot κ π)

namespace Pool

variable {σ κ π τ : Type}

inductive Phase
  | before | inside | after
  deriving DecidableEq, Repr

def start (shared : σ) (calls : List κ) (point : π) : Pool σ κ π :=
  ⟨shared, calls.map fun call => ⟨call, point⟩⟩

def step (advance : σ → κ → π → Option (σ × π)) (pool : Pool σ κ π) (i : Nat) :
    Option (Pool σ κ π) := do
  let slot ← pool.slots[i]?
  let (shared, point) ← advance pool.shared slot.call slot.point
  return ⟨shared, pool.slots.set i ⟨slot.call, point⟩⟩

theorem step_inv {advance : σ → κ → π → Option (σ × π)} {pool pool' : Pool σ κ π} {i : Nat}
    (taken : step advance pool i = some pool') :
    ∃ slot shared point, pool.slots[i]? = some slot ∧
      advance pool.shared slot.call slot.point = some (shared, point) ∧
      pool' = ⟨shared, pool.slots.set i ⟨slot.call, point⟩⟩ := by
  simp only [step, Option.bind_eq_bind, Option.bind_eq_some_iff, Option.pure_def,
    Option.some.injEq, Prod.exists] at taken
  obtain ⟨slot, found, shared, point, advanced, rfl⟩ := taken
  exact ⟨slot, shared, point, found, advanced, rfl⟩

theorem run_calls {advance : σ → κ → π → Option (σ × π)} {allowed : Pool σ κ π → Nat → Prop}
    {shared : σ} {calls : List κ} {point : π} {pool : Pool σ κ π}
    (run : Transition.Run (step advance) allowed (start shared calls point) pool) :
    pool.slots.map (·.call) = calls := by
  apply run.invariant (P := fun pool => pool.slots.map (·.call) = calls)
  next => simp [start, Function.comp_def]
  next =>
    rintro pool i pool' same - taken
    obtain ⟨slot, shared, point, found, -, rfl⟩ := step_inv taken
    obtain ⟨bound, rfl⟩ := List.getElem?_eq_some_iff.mp found
    have unchanged : (pool.slots.map (·.call)).set i pool.slots[i].call =
        pool.slots.map (·.call) := by
      have mapped : i < (pool.slots.map (·.call)).length := by simpa using bound
      have own := List.set_getElem_self mapped
      rwa [List.getElem_map] at own
    rw [List.map_set, unchanged, same]

/-- What `advance` has to keep to for its calls to be atomic in `view`: `mid t call point` holds of
the shared state while `call` is inside, where `t` is the view it found. -/
structure Atomic (advance : σ → κ → π → Option (σ × π)) (phase : κ → π → Phase) (view : σ → τ)
    (effect : τ → κ → τ) (mid : τ → κ → π → σ → Prop) : Prop where
  enters : ∀ s s' call point point', advance s call point = some (s', point') →
    phase call point = .before →
      phase call point' = .inside ∧ mid (view s) call point' s'
  goes : ∀ t s s' call point point', advance s call point = some (s', point') →
    phase call point = .inside → mid t call point s →
      phase call point' = .inside ∧ mid t call point' s' ∨
        phase call point' = .after ∧ view s' = effect t call
  idles : ∀ s s' call point point', advance s call point = some (s', point') →
    phase call point = .after →
      phase call point' = .after ∧ view s' = view s ∧
        ∀ t other point, mid t other point s → mid t other point s'

section atomic

variable {advance : σ → κ → π → Option (σ × π)} {phase : κ → π → Phase} {view : σ → τ}
variable {effect : τ → κ → τ} {mid : τ → κ → π → σ → Prop}

def inside (phase : κ → π → Phase) (slot : Slot κ π) : Bool := phase slot.call slot.point = .inside

def unfinished (phase : κ → π → Phase) (slot : Slot κ π) : Option κ :=
  if phase slot.call slot.point = .after then none else some slot.call

def vacant (phase : κ → π → Phase) (pool : Pool σ κ π) : Bool :=
  pool.slots.all fun slot => !inside phase slot

-- A call enters only while no other is inside.
def alone (phase : κ → π → Phase) (pool : Pool σ κ π) (i : Nat) : Bool :=
  match pool.slots[i]? with
  | some slot => phase slot.call slot.point ≠ .before || pool.vacant phase
  | none => true

-- `order` lists the calls that have finished.
structure Serial (phase : κ → π → Phase) (view : σ → τ) (effect : τ → κ → τ)
    (mid : τ → κ → π → σ → Prop) (first : τ) (calls : List κ) (order : List κ)
    (pool : Pool σ κ π) : Prop where
  accounted : (order ++ pool.slots.filterMap (unfinished phase)).Perm calls
  shared : pool.vacant phase = true ∧ view pool.shared = order.foldl effect first ∨
    ∃ (i : Nat) (slot : Slot κ π), pool.slots[i]? = some slot ∧ phase slot.call slot.point = .inside ∧
      (∀ (j : Nat) (other : Slot κ π), pool.slots[j]? = some other → phase other.call other.point = .inside → j = i) ∧
      mid (order.foldl effect first) slot.call slot.point pool.shared

theorem vacant_of_slots {pool : Pool σ κ π}
    (none_inside : ∀ (j : Nat) (slot : Slot κ π), pool.slots[j]? = some slot →
      phase slot.call slot.point ≠ .inside) : pool.vacant phase = true := by
  simp only [vacant, inside, List.all_eq_true, Bool.not_eq_true', decide_eq_false_iff_not]
  intro slot member
  obtain ⟨j, bound, rfl⟩ := List.getElem_of_mem member
  exact none_inside j _ (List.getElem?_eq_getElem bound)

theorem not_inside_of_vacant {pool : Pool σ κ π} (vacant : pool.vacant phase = true) {j : Nat}
    {slot : Slot κ π} (found : pool.slots[j]? = some slot) :
    phase slot.call slot.point ≠ .inside := by
  simp only [Pool.vacant, inside, List.all_eq_true, Bool.not_eq_true',
    decide_eq_false_iff_not] at vacant
  exact vacant slot (List.mem_of_getElem? found)

-- The slots of a pool after one of them has moved.
theorem slot_after {pool : Pool σ κ π} {i j : Nat} {slot moved other : Slot κ π}
    (found : pool.slots[i]? = some slot)
    (after : (pool.slots.set i moved)[j]? = some other) :
    j = i ∧ other = moved ∨ j ≠ i ∧ pool.slots[j]? = some other := by
  have bound := (List.getElem?_eq_some_iff.mp found).1
  by_cases same : j = i
  · subst same
    rw [List.getElem?_set_self bound] at after
    exact .inl ⟨rfl, (Option.some.inj after).symm⟩
  · rw [List.getElem?_set_ne (Ne.symm same)] at after
    exact .inr ⟨same, after⟩

theorem unfinished_kept {pool : Pool σ κ π} {i : Nat} {slot : Slot κ π} {point : π}
    (found : pool.slots[i]? = some slot)
    (same : unfinished phase ⟨slot.call, point⟩ = unfinished phase slot) :
    ((pool.slots.set i ⟨slot.call, point⟩).filterMap (unfinished phase)).Perm
      (pool.slots.filterMap (unfinished phase)) := by
  have before := List.filterMap_found_perm (unfinished phase) pool.slots i slot found
  have after := List.filterMap_set_perm (unfinished phase) pool.slots i slot ⟨slot.call, point⟩ found
  rw [same] at after
  exact after.trans before.symm

theorem step_serial (atomic : Atomic advance phase view effect mid) {first : τ} {calls : List κ}
    {order : List κ} {pool pool' : Pool σ κ π} {i : Nat} (free : alone phase pool i = true)
    (taken : step advance pool i = some pool')
    (held : Serial phase view effect mid first calls order pool) :
    ∃ order', Serial phase view effect mid first calls order' pool' := by
  obtain ⟨slot, shared, point, found, advanced, rfl⟩ := step_inv taken
  cases stage : phase slot.call slot.point with
  | before =>
    -- Nobody is inside, and now this call is.
    have vacant : pool.vacant phase = true := by simpa [alone, found, stage] using free
    obtain ⟨entered, mid⟩ := atomic.enters _ _ _ _ _ advanced stage
    refine ⟨order, ?_, .inr ⟨i, ⟨slot.call, point⟩, ?_, entered, ?_, ?_⟩⟩
    next =>
      refine .trans (List.Perm.append_left order (unfinished_kept found ?_)) held.accounted
      simp [unfinished, entered, stage]
    next => exact List.getElem?_set_self (List.getElem?_eq_some_iff.mp found).1
    next =>
      intro j other after inside
      rcases slot_after found after with ⟨same, -⟩ | ⟨-, old⟩
      · exact same
      · exact absurd inside (not_inside_of_vacant vacant old)
    next =>
      rcases held.shared with ⟨-, same⟩ | ⟨j, other, old, inside, -⟩
      · rwa [← same]
      · exact absurd inside (not_inside_of_vacant vacant old)
  | inside =>
    obtain ⟨holds, unique⟩ : mid (order.foldl effect first) slot.call slot.point pool.shared ∧
        ∀ (j : Nat) (other : Slot κ π), pool.slots[j]? = some other →
          phase other.call other.point = .inside → j = i := by
      rcases held.shared with ⟨vacant, -⟩ | ⟨j, other, old, -, unique, holds⟩
      · exact absurd stage (not_inside_of_vacant vacant found)
      · obtain rfl := unique i slot found stage
        obtain rfl := Option.some.inj (found.symm.trans old)
        exact ⟨holds, unique⟩
    rcases atomic.goes _ _ _ _ _ _ advanced stage holds with ⟨inside, mid⟩ | ⟨after, applied⟩
    · refine ⟨order, ?_, .inr ⟨i, ⟨slot.call, point⟩, ?_, inside, ?_, mid⟩⟩
      next =>
        refine .trans (List.Perm.append_left order (unfinished_kept found ?_)) held.accounted
        simp [unfinished, inside, stage]
      next => exact List.getElem?_set_self (List.getElem?_eq_some_iff.mp found).1
      next =>
        intro j other after inside
        rcases slot_after found after with ⟨same, -⟩ | ⟨-, old⟩
        · exact same
        · exact unique j other old inside
    · refine ⟨order ++ [slot.call], ?_, .inl ⟨?_, ?_⟩⟩
      next =>
        have before := List.filterMap_found_perm (unfinished phase) pool.slots i slot found
        have later := List.filterMap_set_perm (unfinished phase) pool.slots i slot
          ⟨slot.call, point⟩ found
        simp only [unfinished, stage, after, reduceCtorEq, if_false, if_true, Option.toList_some,
          Option.toList_none, List.nil_append] at before later
        rw [List.append_assoc]
        refine .trans (List.Perm.append_left order ?_) held.accounted
        exact (List.Perm.append_left [slot.call] later).trans before.symm
      next =>
        apply vacant_of_slots
        intro j other now inside
        rcases slot_after found now with ⟨-, rfl⟩ | ⟨different, old⟩
        · rw [after] at inside
          cases inside
        · exact different (unique j other old inside)
      next => rw [List.foldl_append, List.foldl_cons, List.foldl_nil, applied]
  | after =>
    obtain ⟨still, same, kept⟩ := atomic.idles _ _ _ _ _ advanced stage
    have moved {j : Nat} {other : Slot κ π}
        (now : (pool.slots.set i ⟨slot.call, point⟩)[j]? = some other)
        (inside : phase other.call other.point = .inside) : pool.slots[j]? = some other := by
      rcases slot_after found now with ⟨-, rfl⟩ | ⟨-, old⟩
      · rw [still] at inside
        cases inside
      · exact old
    refine ⟨order, ?_, ?_⟩
    next =>
      refine .trans (List.Perm.append_left order (unfinished_kept found ?_)) held.accounted
      simp [unfinished, still, stage]
    next =>
      rcases held.shared with ⟨vacant, viewed⟩ | ⟨j, other, old, inside, unique, holds⟩
      · refine .inl ⟨vacant_of_slots fun j other now inside => ?_, same.trans viewed⟩
        exact not_inside_of_vacant vacant (moved now inside) inside
      · have apart : j ≠ i := by
          rintro rfl
          obtain rfl := Option.some.inj (found.symm.trans old)
          rw [stage] at inside
          cases inside
        refine .inr ⟨j, other, ?_, inside, fun k third now within => ?_, kept _ _ _ holds⟩
        · rwa [List.getElem?_set_ne (Ne.symm apart)]
        · exact unique k third (moved now within) within

-- A run in which nobody enters while another is inside leaves what some order of the calls leaves.
theorem run_serial (atomic : Atomic advance phase view effect mid) {shared : σ} {calls : List κ}
    {point : π} {pool : Pool σ κ π}
    (outside : ∀ call ∈ calls, phase call point ≠ .inside)
    (run : Transition.Run (step advance) (fun pool i => alone phase pool i = true)
      (start shared calls point) pool)
    (finished : ∀ slot ∈ pool.slots, phase slot.call slot.point = .after) :
    ∃ order : List κ, order.Perm (calls.filter fun call => phase call point ≠ .after) ∧
      view pool.shared = order.foldl effect (view shared) := by
  have init : ∃ order, Serial phase view effect mid (view shared)
      (calls.filter fun call => phase call point ≠ .after) order (start shared calls point) := by
    refine ⟨[], ?_, .inl ⟨?_, rfl⟩⟩
    next =>
      rw [List.nil_append, start, List.filterMap_map]
      have same : calls.filterMap ((unfinished phase) ∘ fun call => ⟨call, point⟩) =
          calls.filter fun call => phase call point ≠ .after := by
        rw [← List.filterMap_eq_filter]
        apply List.filterMap_congr
        intro call _
        by_cases ended : phase call point = .after <;> simp [unfinished, ended, Option.guard]
      rw [same]
    next =>
      apply vacant_of_slots
      intro j slot found
      obtain ⟨call, member, rfl⟩ := List.mem_map.mp (List.mem_of_getElem? found)
      exact outside call member
  have kept : ∃ order, Serial phase view effect mid (view shared)
      (calls.filter fun call => phase call point ≠ .after) order pool := by
    apply run.invariant init
    rintro _ _ _ ⟨order, held⟩ free taken
    exact step_serial atomic free taken held
  obtain ⟨order, serial⟩ := kept
  have none_left : pool.slots.filterMap (unfinished phase) = [] := by
    apply List.filterMap_eq_nil_iff.mpr
    intro slot member
    simp [unfinished, finished slot member]
  refine ⟨order, by simpa [none_left] using serial.accounted, ?_⟩
  rcases serial.shared with ⟨-, viewed⟩ | ⟨i, slot, found, inside, -⟩
  · exact viewed
  · rw [finished slot (List.mem_of_getElem? found)] at inside
    cases inside

end atomic

end Pool
