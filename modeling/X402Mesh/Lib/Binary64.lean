import Mathlib.Data.Int.Log
import Mathlib.Data.Rat.Floor
import Mathlib.Tactic.Linarith
import Mathlib.Tactic.LinearCombination
import Mathlib.Tactic.Ring

set_option autoImplicit false

-- The exponent is not bounded: what is rounded here neither overflows nor gets below the normal
-- range.

namespace Binary64

-- The nearest integer, to even on a tie.
def nearest (q : ℚ) : ℤ :=
  if q < ⌊q⌋ + 1 / 2 ∨ (q = ⌊q⌋ + 1 / 2 ∧ ⌊q⌋ % 2 = 0) then ⌊q⌋ else ⌊q⌋ + 1

-- The place of the last of 53 digits.
def unit (x : ℚ) : ℚ := 2 ^ (Int.log 2 |x| - 52)

def rounded (x : ℚ) : ℚ := nearest (x / unit x) * unit x

def IsDouble (x : ℚ) : Prop := ∃ k e : ℤ, |k| ≤ 2 ^ 53 ∧ x = k * 2 ^ e

theorem unit_pos (x : ℚ) : 0 < unit x := zpow_pos (by norm_num) _

theorem floor_le_nearest (q : ℚ) : ⌊q⌋ ≤ nearest q := by
  unfold nearest
  split <;> omega

theorem nearest_le_floor (q : ℚ) : nearest q ≤ ⌊q⌋ + 1 := by
  unfold nearest
  split <;> omega

theorem nearest_intCast (n : ℤ) : nearest n = n := by
  have floor : ⌊(n : ℚ)⌋ = n := Int.floor_intCast n
  rw [nearest, floor, if_pos]
  left
  linarith

theorem nearest_mono {p q : ℚ} (below : p ≤ q) : nearest p ≤ nearest q := by
  have floors : ⌊p⌋ ≤ ⌊q⌋ := Int.floor_le_floor below
  rcases floors.lt_or_eq with apart | same
  next =>
    have left := nearest_le_floor p
    have right := floor_le_nearest q
    omega
  next =>
    unfold nearest
    rw [same]
    split
    next => split <;> omega
    next up =>
      have later : ¬ (q < ⌊q⌋ + 1 / 2 ∨ (q = ⌊q⌋ + 1 / 2 ∧ ⌊q⌋ % 2 = 0)) := by
        intro down
        apply up
        rcases lt_or_eq_of_le below with less | equal
        · left
          rcases down with early | ⟨tie, -⟩ <;> linarith
        · exact equal ▸ down
      rw [if_neg later]

-- Where a tie goes up, the values below an even integer are those below the middle.
theorem nearest_lt_iff (q : ℚ) {k : ℤ} (even : k % 2 = 0) :
    nearest q < k ↔ q < k - 1 / 2 := by
  have low := Int.floor_le q
  have high := Int.lt_floor_add_one q
  unfold nearest
  constructor
  next =>
    intro below
    split at below
    next down =>
      have before : (⌊q⌋ : ℚ) + 1 ≤ k := by exact_mod_cast below
      rcases down with early | ⟨tie, floorEven⟩
      · linarith
      · have farther : (⌊q⌋ : ℚ) + 2 ≤ k := by
          have step : ⌊q⌋ + 2 ≤ k := by omega
          exact_mod_cast step
        linarith
    next =>
      have before : (⌊q⌋ : ℚ) + 2 ≤ k := by
        have step : ⌊q⌋ + 2 ≤ k := by omega
        exact_mod_cast step
      linarith
  next =>
    intro below
    have floors : ⌊q⌋ < k := by
      have less : (⌊q⌋ : ℚ) < k := by linarith
      exact_mod_cast less
    split
    next => exact floors
    next up =>
      by_contra reached
      obtain rfl : k = ⌊q⌋ + 1 := by omega
      push_cast at below
      exact up (.inl (by linarith))

theorem rounded_zero : rounded 0 = 0 := by simp [rounded, nearest]

theorem log_bounds {x : ℚ} (positive : 0 < x) :
    (2 : ℚ) ^ Int.log 2 x ≤ x ∧ x < 2 ^ (Int.log 2 x + 1) := by
  have low := Int.zpow_log_le_self (b := 2) (by norm_num) positive
  have high := Int.lt_zpow_succ_log_self (b := 2) (by norm_num) x
  push_cast at low high
  exact ⟨low, high⟩

theorem unit_of_log {x : ℚ} {L : ℤ} (low : (2 : ℚ) ^ L ≤ x) (high : x < 2 ^ (L + 1)) :
    unit x = 2 ^ (L - 52) := by
  have positive : 0 < x := lt_of_lt_of_le (zpow_pos (by norm_num) _) low
  have above : L ≤ Int.log 2 x := by
    rw [← Int.zpow_le_iff_le_log (by norm_num) positive]
    exact_mod_cast low
  have below : Int.log 2 x < L + 1 := by
    rw [← Int.lt_zpow_iff_log_lt (by norm_num) positive]
    exact_mod_cast high
  obtain same : Int.log 2 x = L := by omega
  rw [unit, abs_of_pos positive, same]

theorem two_pow_shift (L n : ℤ) : (2 : ℚ) ^ (L + n) = 2 ^ L * 2 ^ n := zpow_add₀ (by norm_num) L n

-- A number that is a whole multiple of its unit is not changed.
theorem rounded_of_multiple {x : ℚ} (m : ℤ) (multiple : x = m * unit x) : rounded x = x := by
  have quotient : x / unit x = m := by
    rw [div_eq_iff (unit_pos x).ne']
    exact multiple
  rw [rounded, quotient, nearest_intCast]
  exact multiple.symm

theorem rounded_of_isDouble {x : ℚ} (double : IsDouble x) : rounded x = x := by
  obtain ⟨k, e, bound, rfl⟩ := double
  by_cases zero : (k : ℚ) = 0
  next => simp [zero, rounded_zero]
  next =>
    have power : (0 : ℚ) < 2 ^ e := zpow_pos (by norm_num) e
    have size : |(k : ℚ) * 2 ^ e| = |(k : ℚ)| * 2 ^ e := by rw [abs_mul, abs_of_pos power]
    have positive : 0 < |(k : ℚ) * 2 ^ e| := by
      rw [size]
      exact mul_pos (abs_pos.mpr zero) power
    have most : |(k : ℚ)| ≤ 2 ^ 53 := by exact_mod_cast bound
    generalize log : Int.log 2 |(k : ℚ) * 2 ^ e| = L
    have low := (log_bounds positive).1
    rw [log, size] at low
    by_cases fits : L ≤ 52 + e
    next =>
      obtain ⟨n, places⟩ := Int.eq_ofNat_of_zero_le (by omega : 0 ≤ 52 + e - L)
      apply rounded_of_multiple (k * 2 ^ n)
      have split : e = L - 52 + n := by omega
      rw [unit, log]
      push_cast
      conv_lhs => rw [split, two_pow_shift, zpow_natCast]
      ring
    next =>
      -- The digits are those of a power of two, which has the unit of the next binade.
      have above : (2 : ℚ) ^ (53 + e) ≤ 2 ^ L := zpow_le_zpow_right₀ (by norm_num) (by omega)
      have below : |(k : ℚ)| * 2 ^ e ≤ 2 ^ (53 + e) := by
        rw [two_pow_shift]
        exact mul_le_mul_of_nonneg_right (by exact_mod_cast most) power.le
      have exponent : L = 53 + e := by
        have squeezed : (2 : ℚ) ^ L ≤ 2 ^ (53 + e) := low.trans below
        have bounded := (zpow_le_zpow_iff_right₀ (by norm_num : (1 : ℚ) < 2)).mp squeezed
        omega
      have digits : |(k : ℚ)| = 2 ^ 53 := by
        rw [exponent, two_pow_shift] at low
        apply le_antisymm most
        exact_mod_cast le_of_mul_le_mul_right low power
      have half : (2 : ℚ) ^ e * 2 = 2 ^ (L - 52) := by
        have next : L - 52 = e + 1 := by omega
        rw [next, two_pow_shift, zpow_one]
      rcases abs_choice (k : ℚ) with same | flipped
      next =>
        apply rounded_of_multiple (2 ^ 52)
        rw [unit, log, ← half, ← same, digits]
        push_cast
        ring
      next =>
        apply rounded_of_multiple (-2 ^ 52)
        have value : (k : ℚ) = -2 ^ 53 := by rw [← digits, flipped, neg_neg]
        rw [unit, log, ← half, value]
        push_cast
        ring

theorem nearest_bound {x : ℚ} (positive : 0 < x) :
    2 ^ 52 ≤ nearest (x / unit x) ∧ nearest (x / unit x) ≤ 2 ^ 53 := by
  obtain ⟨low, high⟩ := log_bounds positive
  have shape : unit x = 2 ^ (Int.log 2 x - 52) := by rw [unit, abs_of_pos positive]
  have start : (2 : ℚ) ^ Int.log 2 x = 2 ^ (52 : ℕ) * unit x := by
    rw [shape, ← zpow_natCast, ← two_pow_shift]
    congr 1
    push_cast
    ring
  have finish : (2 : ℚ) ^ (Int.log 2 x + 1) = 2 ^ (53 : ℕ) * unit x := by
    rw [two_pow_shift, start]
    ring
  rw [start] at low
  rw [finish] at high
  constructor
  next =>
    have bound : ((2 ^ 52 : ℤ) : ℚ) ≤ x / unit x := by
      rw [le_div_iff₀ (unit_pos x)]
      exact_mod_cast low
    have reached := nearest_mono bound
    rwa [nearest_intCast] at reached
  next =>
    have bound : x / unit x ≤ ((2 ^ 53 : ℤ) : ℚ) := by
      rw [div_le_iff₀ (unit_pos x)]
      exact_mod_cast high.le
    have reached := nearest_mono bound
    rwa [nearest_intCast] at reached

-- Rounding does not leave the binade, its upper end included.
theorem rounded_bounds {x : ℚ} {L : ℤ} (low : (2 : ℚ) ^ L ≤ x) (high : x < 2 ^ (L + 1)) :
    2 ^ L ≤ rounded x ∧ rounded x ≤ 2 ^ (L + 1) := by
  have positive : 0 < x := lt_of_lt_of_le (zpow_pos (by norm_num) _) low
  obtain ⟨least, most⟩ := nearest_bound positive
  have shape := unit_of_log low high
  have start : (2 : ℚ) ^ L = 2 ^ 52 * unit x := by
    rw [shape, ← zpow_natCast, ← two_pow_shift]
    congr 1
    push_cast
    ring
  have finish : (2 : ℚ) ^ (L + 1) = 2 ^ 53 * unit x := by
    rw [two_pow_shift, start]
    ring
  rw [start, finish, rounded]
  constructor
  · exact mul_le_mul_of_nonneg_right (by exact_mod_cast least) (unit_pos x).le
  · exact mul_le_mul_of_nonneg_right (by exact_mod_cast most) (unit_pos x).le

theorem rounded_nonpos {x : ℚ} (sign : x ≤ 0) : rounded x ≤ 0 := by
  have quotient : x / unit x ≤ ((0 : ℤ) : ℚ) := by
    simpa using div_nonpos_of_nonpos_of_nonneg sign (unit_pos x).le
  have digits := nearest_mono quotient
  rw [nearest_intCast] at digits
  exact mul_nonpos_of_nonpos_of_nonneg (by exact_mod_cast digits) (unit_pos x).le

theorem rounded_mono {x y : ℚ} (sign : 0 ≤ x) (below : x ≤ y) : rounded x ≤ rounded y := by
  rcases sign.eq_or_lt with rfl | positive
  next =>
    rcases below.eq_or_lt with rfl | above
    · exact le_refl _
    · obtain ⟨low, high⟩ := log_bounds above
      rw [rounded_zero]
      exact (zpow_pos (by norm_num) _).le.trans (rounded_bounds low high).1
  next =>
    obtain ⟨low, high⟩ := log_bounds positive
    obtain ⟨low', high'⟩ := log_bounds (positive.trans_le below)
    rcases (Int.log_mono_right (b := 2) positive below).eq_or_lt with same | apart
    next =>
      have units : unit x = unit y := by
        rw [unit_of_log low high, unit_of_log low' high', same]
      rw [rounded, rounded, units]
      have digits := nearest_mono (div_le_div_of_nonneg_right below (unit_pos y).le)
      exact mul_le_mul_of_nonneg_right (by exact_mod_cast digits) (unit_pos y).le
    next =>
      calc rounded x ≤ 2 ^ (Int.log 2 x + 1) := (rounded_bounds low high).2
        _ ≤ 2 ^ Int.log 2 y := zpow_le_zpow_right₀ (by norm_num) (by omega)
        _ ≤ rounded y := (rounded_bounds low' high').1

theorem rounded_le {x y : ℚ} (sign : 0 ≤ y) (double : IsDouble y) (below : x ≤ y) :
    rounded x ≤ y := by
  rcases le_or_gt x 0 with negative | positive
  · exact (rounded_nonpos negative).trans sign
  · calc rounded x ≤ rounded y := rounded_mono positive.le below
      _ = y := rounded_of_isDouble double

-- The middle between a double and the one before it.
def cut (y : ℚ) : ℚ := y - unit y / 2

theorem cut_lt (y : ℚ) : cut y < y := by
  have place := unit_pos y
  rw [cut]
  linarith

-- A double whose last digit is even, and that is not the first of its binade.
theorem rounded_lt_iff (x : ℚ) {y : ℚ} (L j : ℤ) (value : y = j * 2 ^ (L - 51))
    (low : (2 : ℚ) ^ L < y) (high : y < 2 ^ (L + 1)) : rounded x < y ↔ x < cut y := by
  have shape : unit y = 2 ^ (L - 52) := unit_of_log low.le high
  obtain ⟨k, even, whole⟩ : ∃ k : ℤ, k % 2 = 0 ∧ y = k * unit y := by
    refine ⟨2 * j, Int.mul_emod_right 2 j, ?_⟩
    have step : L - 51 = L - 52 + 1 := by omega
    rw [shape, value, step, two_pow_shift, zpow_one]
    push_cast
    ring
  have place : (0 : ℚ) < unit y := unit_pos y
  have start : (2 : ℚ) ^ L = 2 ^ 52 * unit y := by
    rw [shape, ← zpow_natCast, ← two_pow_shift]
    congr 1
    push_cast
    ring
  have digits : (2 ^ 52 : ℤ) + 1 ≤ k := by
    have more : (2 ^ 52 : ℚ) * unit y < k * unit y := by
      rw [← start, ← whole]
      exact low
    have less : (2 ^ 52 : ℚ) < k := lt_of_mul_lt_mul_right more place.le
    exact_mod_cast less
  have middle : cut y = (k - 1 / 2) * unit y := by
    rw [cut]
    linear_combination whole
  have inside : (2 : ℚ) ^ L ≤ cut y := by
    have enough : (2 ^ 52 : ℚ) + 1 ≤ k := by exact_mod_cast digits
    rw [middle, start]
    exact mul_le_mul_of_nonneg_right (by linarith) place.le
  have below := cut_lt y
  constructor
  next =>
    intro less
    by_contra reached
    have least : rounded (cut y) ≤ rounded x :=
      rounded_mono ((zpow_pos (by norm_num) L).le.trans inside) (not_lt.mp reached)
    have up : y ≤ rounded (cut y) := by
      have units : unit (cut y) = unit y := by
        rw [shape]
        exact unit_of_log inside (below.trans high)
      rw [rounded, units, middle, mul_div_assoc, div_self place.ne', mul_one]
      have top : k ≤ nearest ((k : ℚ) - 1 / 2) := by
        by_contra lower
        exact absurd ((nearest_lt_iff _ even).mp (not_le.mp lower)) (lt_irrefl _)
      conv_lhs => rw [whole]
      exact mul_le_mul_of_nonneg_right (by exact_mod_cast top) place.le
    exact absurd less (not_lt.mpr (up.trans least))
  next =>
    intro less
    rcases le_or_gt x 0 with negative | positive
    next =>
      exact (rounded_nonpos negative).trans_lt ((zpow_pos (by norm_num) L).trans low)
    next =>
      obtain ⟨from', until'⟩ := log_bounds positive
      rcases lt_trichotomy (Int.log 2 x) L with lower | same | higher
      next =>
        calc rounded x ≤ 2 ^ (Int.log 2 x + 1) := (rounded_bounds from' until').2
          _ ≤ 2 ^ L := zpow_le_zpow_right₀ (by norm_num) (by omega)
          _ < y := low
      next =>
        have units : unit x = unit y := by
          rw [shape, ← same]
          exact unit_of_log from' until'
        have quotient : x / unit y < k - 1 / 2 := by
          rw [div_lt_iff₀ place, ← middle]
          exact less
        have digitsBelow := (nearest_lt_iff _ even).mpr quotient
        rw [rounded, units]
        conv_rhs => rw [whole]
        exact mul_lt_mul_of_pos_right (by exact_mod_cast digitsBelow) place
      next =>
        have past : (2 : ℚ) ^ (L + 1) ≤ x :=
          (zpow_le_zpow_right₀ (by norm_num) (by omega)).trans from'
        linarith

theorem le_cut {y : ℚ} (positive : 0 < y) : 1023 / 1024 * y ≤ cut y := by
  have small : unit y ≤ 1 / 512 * y := by
    have low := (log_bounds positive).1
    have shape : unit y = 2 ^ (-52 : ℤ) * 2 ^ Int.log 2 y := by
      rw [unit, abs_of_pos positive, ← two_pow_shift]
      congr 1
      ring
    rw [shape]
    exact mul_le_mul (by norm_num) low (zpow_pos (by norm_num) _).le (by norm_num)
  rw [cut]
  linarith

theorem isDouble_quarters (n : ℤ) (small : |n| ≤ 2 ^ 53) : IsDouble (n / 4) :=
  ⟨n, -2, small, by norm_num [div_eq_mul_inv]⟩

theorem IsDouble.twice {x : ℚ} (double : IsDouble x) : IsDouble (x * 2) := by
  obtain ⟨k, e, bound, rfl⟩ := double
  refine ⟨k, e + 1, bound, ?_⟩
  rw [two_pow_shift, zpow_one, mul_assoc]

-- Twice a double of the upper half of the unit interval, less one, is a double.
theorem IsDouble.centred {x : ℚ} (double : IsDouble x) (upper : 1 / 2 ≤ x) (below : x < 1) :
    IsDouble (x * 2 - 1) := by
  have shape : unit x = 2 ^ (-53 : ℤ) :=
    unit_of_log (L := -1) (by norm_num; linarith) (by norm_num; exact below)
  have same := rounded_of_isDouble double
  have positive : 0 < x := by linarith
  obtain ⟨least, most⟩ := nearest_bound positive
  rw [rounded, shape] at same
  rw [shape] at least most
  generalize nearest (x / 2 ^ (-53 : ℤ)) = m at same least most
  refine ⟨m - 2 ^ 52, -52, ?_, ?_⟩
  · rw [abs_le]
    constructor <;> omega
  · rw [← same]
    push_cast
    norm_num
    ring

end Binary64
