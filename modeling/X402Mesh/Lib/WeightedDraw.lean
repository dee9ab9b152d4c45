import Mathlib.Algebra.Order.BigOperators.Group.List
import Mathlib.Algebra.Order.Field.Basic
import Mathlib.Tactic.Linarith

set_option autoImplicit false

namespace WeightedDraw

variable {K : Type} [Field K] [LinearOrder K] [IsStrictOrderedRing K]

def pick : List K → K → Option Nat
  | [], _ => none
  | w :: rest, threshold =>
    if threshold - w < 0 then some 0 else (pick rest (threshold - w)).map (· + 1)

def before (weights : List K) (i : Nat) : K := (weights.take i).sum

omit [LinearOrder K] [IsStrictOrderedRing K] in
@[simp] theorem before_zero (weights : List K) : before weights 0 = 0 := rfl

omit [LinearOrder K] [IsStrictOrderedRing K] in
@[simp] theorem before_cons (w : K) (rest : List K) (i : Nat) :
    before (w :: rest) (i + 1) = w + before rest i := by
  simp [before]

theorem before_nonneg {weights : List K} (positive : ∀ w ∈ weights, 0 < w) (i : Nat) :
    0 ≤ before weights i :=
  List.sum_nonneg fun w member => (positive w (List.take_subset i weights member)).le

theorem before_le_sum {weights : List K} (positive : ∀ w ∈ weights, 0 < w) (i : Nat) :
    before weights i ≤ weights.sum := by
  have split := congrArg List.sum (List.take_append_drop i weights)
  have left : 0 ≤ (weights.drop i).sum :=
    List.sum_nonneg fun w member => (positive w (List.drop_subset i weights member)).le
  rw [List.sum_append] at split
  rw [before, ← split]
  linarith

omit [LinearOrder K] [IsStrictOrderedRing K] in
theorem before_succ {weights : List K} {i : Nat} (inside : i < weights.length) :
    before weights (i + 1) = before weights i + weights[i] := by
  rw [before, before, List.take_add_one, List.getElem?_eq_getElem inside, List.sum_append]
  simp

theorem pick_eq_some {weights : List K} (positive : ∀ w ∈ weights, 0 < w) {threshold : K}
    (start : 0 ≤ threshold) (i : Nat) : pick weights threshold = some i ↔
      i < weights.length ∧ before weights i ≤ threshold ∧ threshold < before weights (i + 1) := by
  induction weights generalizing threshold i with
  | nil => simp [pick]
  | cons w rest ih =>
    have tail : ∀ v ∈ rest, 0 < v := fun v member => positive v (List.mem_cons_of_mem _ member)
    by_cases below : threshold - w < 0
    next =>
      rw [pick, if_pos below]
      cases i with
      | zero => simpa [start] using below
      | succ k =>
        have sum := before_nonneg tail k
        simp only [Option.some.injEq, before_cons, reduceCtorEq, false_iff, not_and]
        intro _ reached
        linarith
    next =>
      rw [pick, if_neg below]
      cases i with
      | zero => simpa using fun _ => not_lt.mp below
      | succ k =>
        have later := ih tail (not_lt.mp below) k
        simp only [Option.map_eq_some_iff, Nat.add_right_cancel_iff, exists_eq_right, later,
          List.length_cons, before_cons, Nat.add_lt_add_iff_right]
        constructor
        · intro within
          exact ⟨within.1, by linarith, by linarith⟩
        · intro within
          exact ⟨within.1, by linarith, by linarith⟩

theorem pick_eq_none {weights : List K} (threshold : K)
    (positive : ∀ w ∈ weights, 0 < w) (start : 0 ≤ threshold) :
    pick weights threshold = none ↔ weights.sum ≤ threshold := by
  induction weights generalizing threshold with
  | nil => simpa [pick] using start
  | cons w rest ih =>
    have tail : ∀ v ∈ rest, 0 < v := fun v member => positive v (List.mem_cons_of_mem _ member)
    have sum := List.sum_nonneg fun v member => (tail v member).le
    by_cases below : threshold - w < 0
    next =>
      simp only [pick, if_pos below, reduceCtorEq, List.sum_cons, false_iff]
      linarith
    next =>
      simp only [pick, if_neg below, Option.map_eq_none_iff, ih _ tail (not_lt.mp below),
        List.sum_cons]
      constructor <;> intro bound <;> linarith

-- The last entry also takes what no interval holds.
def chosen (weights : List K) (unit : K) : Nat :=
  (pick weights (unit * weights.sum)).getD (weights.length - 1)

section Unit

variable {weights : List K} (positive : ∀ w ∈ weights, 0 < w) {unit : K} (low : 0 ≤ unit)
  (high : unit ≤ 1)

include positive low high

theorem chosen_iff {i : Nat} (inside : i < weights.length) : chosen weights unit = i ↔
    (before weights i ≤ unit * weights.sum ∧ unit * weights.sum < before weights (i + 1)) ∨
      (unit = 1 ∧ i + 1 = weights.length) := by
  have total : 0 < weights.sum :=
    List.sum_pos _ positive (List.length_pos_iff.mp (Nat.zero_lt_of_lt inside))
  have start : 0 ≤ unit * weights.sum := mul_nonneg low total.le
  cases found : pick weights (unit * weights.sum) with
  | none =>
    have whole := (pick_eq_none _ positive start).mp found
    obtain rfl : unit = 1 := le_antisymm high (by nlinarith)
    have bound := before_le_sum positive (i + 1)
    rw [chosen, found, Option.getD_none]
    simp only [one_mul, not_lt.mpr bound, and_false, true_and, false_or]
    omega
  | some k =>
    have within := (pick_eq_some positive start k).mp found
    have short : unit ≠ 1 := by
      rintro rfl
      have bound := before_le_sum positive (k + 1)
      linarith [within.2.2]
    have others := pick_eq_some positive start i
    simp only [chosen, found, Option.getD_some, short, false_and, or_false]
    rw [found, Option.some.injEq] at others
    exact others.trans ⟨fun all => all.2, fun both => ⟨inside, both⟩⟩

end Unit

-- A weight's share of the whole, when no weight is more than one above the floor.
theorem share_ge {weights : List K} {floor : K} (positive : 0 < floor)
    (bounds : ∀ w ∈ weights, floor ≤ w ∧ w ≤ 1 + floor) {i : Nat} (inside : i < weights.length) :
    floor / (weights.length * (1 + floor)) ≤ weights[i] / weights.sum := by
  have own := bounds _ (List.getElem_mem inside)
  have total : 0 < weights.sum :=
    List.sum_pos _ (fun w member => positive.trans_le (bounds w member).1)
      (List.length_pos_iff.mp (Nat.zero_lt_of_lt inside))
  have most : weights.sum ≤ weights.length * (1 + floor) := by
    have bound := List.sum_le_card_nsmul weights (1 + floor) fun w member => (bounds w member).2
    rwa [nsmul_eq_mul] at bound
  exact div_le_div₀ (positive.le.trans own.1) own.1 total most

end WeightedDraw
