import Mathlib.Algebra.Order.Ring.Rat
import X402Mesh.Lib.Binary64
import X402Mesh.Shared.Config

set_option autoImplicit false

-- The jitter is computed in doubles, and the delay is rounded to whole milliseconds.

namespace X402Mesh.NodeDaemon.Backoff

open Binary64

def defaultHeartbeatIntervalMs : Int := 15000

def heartbeatIntervalMs (env : String → Option String) : Option Int :=
  Config.intField defaultHeartbeatIntervalMs 1000 600000 (env "MESH_HEARTBEAT_INTERVAL_MS")

def defaultMaxBackoffMs : Int := 120000

def jitterFraction : ℚ := rounded (1 / 5)

structure Options where
  heartbeatIntervalMs : Int
  maxBackoffMs : Int := defaultMaxBackoffMs
  deriving DecidableEq

def exponential (options : Options) (consecutiveFailures : Nat) : Int :=
  options.heartbeatIntervalMs * 2 ^ min consecutiveFailures 16

def nextDelayMs (options : Options) (consecutiveFailures : Nat) : Int :=
  if consecutiveFailures = 0 then options.heartbeatIntervalMs
  else min options.maxBackoffMs (exponential options consecutiveFailures)

-- `Math.round`
def mathRound (x : ℚ) : Int := (x + 1 / 2).floor

def jitter (delayMs : Int) (random : ℚ) : Int :=
  let spread := rounded (delayMs * jitterFraction)
  let offset := rounded (rounded (rounded (random * 2) - 1) * spread)
  max 1 (mathRound (rounded (delayMs + offset)))

/-- What the jitter source may draw. -/
structure Draw where
  value : ℚ
  double : IsDouble value
  nonneg : 0 ≤ value
  below : value < 1

/-- What is expected of the delays: the one armed after this failure keeps to the ceiling, and
before the jitter they grow with the streak from the steady interval. -/
structure WithinBounds (options : Options) (streak : Nat) (draw : Draw) : Prop where
  ceiling : 0 < streak → jitter (nextDelayMs options streak) draw.value ≤ options.maxBackoffMs
  monotone : ∀ a b, a ≤ b → nextDelayMs options a ≤ nextDelayMs options b
  steady : ∀ a, options.heartbeatIntervalMs ≤ nextDelayMs options a

/-- The share of a fifth of the delay stays below what is left up to the ceiling and half a
millisecond; either bound is the middle between two doubles, where rounding turns up. -/
def Fits (delayMs most : Int) (draw : Draw) : Prop :=
  (2 * draw.value - 1) * rounded (delayMs * jitterFraction) < cut (cut (most + 1 / 2) - delayMs)

def LeavesRoom (options : Options) (streak : Nat) (draw : Draw) : Prop :=
  Fits (min options.maxBackoffMs (exponential options streak)) options.maxBackoffMs draw

variable {options : Options} {streak : Nat}

theorem exponential_mono (positive : 0 ≤ options.heartbeatIntervalMs) {a b : Nat} (longer : a ≤ b) :
    exponential options a ≤ exponential options b := by
  have exponent : min a 16 ≤ min b 16 := by omega
  have powers : (2 : Int) ^ min a 16 ≤ 2 ^ min b 16 := pow_le_pow_right₀ (by decide) exponent
  exact mul_le_mul_of_nonneg_left powers positive

theorem interval_le_exponential (positive : 0 ≤ options.heartbeatIntervalMs) (a : Nat) :
    options.heartbeatIntervalMs ≤ exponential options a := by
  simpa [exponential] using exponential_mono positive (Nat.zero_le a)

theorem nextDelayMs_steady (positive : 0 ≤ options.heartbeatIntervalMs)
    (below : options.heartbeatIntervalMs ≤ options.maxBackoffMs) (a : Nat) :
    options.heartbeatIntervalMs ≤ nextDelayMs options a := by
  unfold nextDelayMs
  split
  next => exact le_refl _
  next => exact le_min below (interval_le_exponential positive a)

theorem nextDelayMs_mono (positive : 0 ≤ options.heartbeatIntervalMs)
    (below : options.heartbeatIntervalMs ≤ options.maxBackoffMs) {a b : Nat} (longer : a ≤ b) :
    nextDelayMs options a ≤ nextDelayMs options b := by
  by_cases first : a = 0
  next =>
    have start : nextDelayMs options a = options.heartbeatIntervalMs := if_pos first
    rw [start]
    exact nextDelayMs_steady positive below b
  next =>
    have later : b ≠ 0 := by omega
    rw [nextDelayMs, if_neg first, nextDelayMs, if_neg later]
    exact min_le_min_left _ (exponential_mono positive longer)

theorem mathRound_le (x : ℚ) (n : Int) : mathRound x ≤ n ↔ x < n + 1 / 2 := by
  have floors : mathRound x ≤ n ↔ ¬ ((n + 1 : Int) : ℚ) ≤ x + 1 / 2 := by
    rw [← Rat.le_floor_iff, mathRound]
    omega
  rw [floors, not_le]
  push_cast
  constructor <;> intro bound <;> linarith

section jitter

variable {delayMs most : Int} (draw : Draw)

-- The share of the spread that the draw stands for.
theorem share_upper (upper : 1 / 2 ≤ draw.value) :
    rounded (rounded (draw.value * 2) - 1) = 2 * draw.value - 1 := by
  rw [rounded_of_isDouble draw.double.twice,
    rounded_of_isDouble (draw.double.centred upper draw.below)]
  ring

theorem share_lower (lower : draw.value < 1 / 2) :
    rounded (rounded (draw.value * 2) - 1) ≤ 0 := by
  rw [rounded_of_isDouble draw.double.twice]
  apply rounded_nonpos
  linarith

theorem share_le_one : rounded (rounded (draw.value * 2) - 1) ≤ 1 := by
  have below := draw.below
  rcases le_or_gt (1 / 2) draw.value with upper | lower
  · rw [share_upper draw upper]
    linarith
  · exact (share_lower draw lower).trans zero_le_one

theorem jitterFraction_bounds : 0 ≤ jitterFraction ∧ jitterFraction ≤ 1 / 4 := by
  constructor
  next =>
    have sign : rounded 0 ≤ jitterFraction := rounded_mono (le_refl 0) (by norm_num)
    rwa [rounded_zero] at sign
  next =>
    have quarter := isDouble_quarters 1 (by norm_num)
    push_cast at quarter
    exact rounded_le (by norm_num) quarter (by norm_num)

theorem spread_bounds (positive : 0 < delayMs) (small : delayMs < 2 ^ 50) :
    0 ≤ rounded (delayMs * jitterFraction) ∧
      rounded (delayMs * jitterFraction) ≤ delayMs / 4 := by
  obtain ⟨sign, quarter⟩ := jitterFraction_bounds
  have delay : (0 : ℚ) < delayMs := by exact_mod_cast positive
  constructor
  next =>
    have least := rounded_mono (le_refl 0) (mul_nonneg delay.le sign)
    rwa [rounded_zero] at least
  next =>
    apply rounded_le (by linarith) (isDouble_quarters delayMs ?_)
    · linarith [mul_le_mul_of_nonneg_left quarter delay.le]
    · rw [abs_of_pos positive]
      omega

theorem mul_spread_le (positive : 0 < delayMs) (small : delayMs < 2 ^ 50) {share : ℚ}
    (whole : share ≤ 1) : share * rounded (delayMs * jitterFraction) ≤ delayMs / 4 := by
  obtain ⟨sign, quarter⟩ := spread_bounds positive small
  calc share * rounded (delayMs * jitterFraction)
      ≤ 1 * rounded (delayMs * jitterFraction) := mul_le_mul_of_nonneg_right whole sign
    _ ≤ delayMs / 4 := by linarith

theorem jitter_le_iff (positive : 1 ≤ most) :
    jitter delayMs draw.value ≤ most ↔
      rounded (delayMs + rounded (rounded (rounded (draw.value * 2) - 1) *
        rounded (delayMs * jitterFraction))) < most + 1 / 2 := by
  simp only [jitter, max_le_iff, positive, true_and, mathRound_le]

-- Far from the ceiling there is room for any draw.
theorem jitter_far (positive : 0 < delayMs) (small : delayMs < 2 ^ 50) (large : 1000 ≤ most)
    (far : 4 * delayMs ≤ 3 * most + 2) :
    jitter delayMs draw.value ≤ most ∧ Fits delayMs most draw := by
  have delay : (0 : ℚ) < delayMs := by exact_mod_cast positive
  have ceiling : (1000 : ℚ) ≤ most := by exact_mod_cast large
  have apart : 4 * (delayMs : ℚ) ≤ 3 * most + 2 := by exact_mod_cast far
  constructor
  next =>
    rw [jitter_le_iff draw (by omega)]
    have quarter : rounded (rounded (rounded (draw.value * 2) - 1) *
        rounded (delayMs * jitterFraction)) ≤ delayMs / 4 := by
      apply rounded_le (by linarith) (isDouble_quarters delayMs ?_)
      · exact mul_spread_le positive small (share_le_one draw)
      · rw [abs_of_pos positive]
        omega
    generalize rounded (rounded (rounded (draw.value * 2) - 1) *
      rounded (delayMs * jitterFraction)) = offset at quarter ⊢
    have fives := isDouble_quarters (5 * delayMs) (by rw [abs_of_pos (by omega)]; omega)
    push_cast at fives
    have sum : rounded (delayMs + offset) ≤ 5 * delayMs / 4 :=
      rounded_le (by linarith) fives (by linarith)
    linarith
  next =>
    have ceilingCut := le_cut (by linarith : (0 : ℚ) < most + 1 / 2)
    have roomCut := le_cut (by linarith : (0 : ℚ) < cut (most + 1 / 2) - delayMs)
    have used := mul_spread_le positive small (by linarith [draw.below] : 2 * draw.value - 1 ≤ 1)
    unfold Fits
    linarith

section near

variable {m n : Nat}

theorem log_bounds_nat (some_ms : 0 < m) :
    (2 : ℚ) ^ (Nat.log 2 m : ℤ) ≤ m ∧ (m : ℚ) + 1 ≤ 2 ^ ((Nat.log 2 m : ℤ) + 1) := by
  constructor
  next =>
    rw [zpow_natCast]
    exact_mod_cast Nat.pow_log_le_self 2 some_ms.ne'
  next =>
    have exponent : (Nat.log 2 m : ℤ) + 1 = (Nat.log 2 m + 1 : Nat) := by push_cast; ring
    rw [exponent, zpow_natCast]
    exact_mod_cast Nat.lt_pow_succ_log_self (by norm_num) m

-- Half a millisecond past the ceiling.
theorem rounded_lt_ceiling (x : ℚ) (log : Nat.log 2 m ≤ 50) (some_ms : 0 < m) :
    rounded x < (m : ℚ) + 1 / 2 ↔ x < cut (m + 1 / 2) := by
  obtain ⟨low, high⟩ := log_bounds_nat some_ms
  obtain ⟨a, split⟩ := Nat.exists_eq_add_of_le log
  apply rounded_lt_iff x (Nat.log 2 m) ((2 * m + 1) * 2 ^ a)
  · have exponent : (Nat.log 2 m : ℤ) - 51 = -1 - a := by omega
    rw [exponent, zpow_sub₀ (by norm_num), zpow_natCast]
    push_cast
    field_simp
  · linarith
  · linarith

theorem cut_ceiling (some_ms : 0 < m) :
    cut ((m : ℚ) + 1 / 2) = m + 1 / 2 - 2 ^ ((Nat.log 2 m : ℤ) - 53) := by
  obtain ⟨low, high⟩ := log_bounds_nat some_ms
  have place : unit ((m : ℚ) + 1 / 2) = 2 ^ ((Nat.log 2 m : ℤ) - 52) :=
    unit_of_log (by linarith) (by linarith)
  have half : (Nat.log 2 m : ℤ) - 52 = (Nat.log 2 m : ℤ) - 53 + 1 := by ring
  rw [cut, place, half, two_pow_shift, zpow_one]
  ring

theorem tiny_le {L : Nat} (log : L ≤ 50) : (2 : ℚ) ^ ((L : ℤ) - 53) ≤ 1 / 8 := by
  calc (2 : ℚ) ^ ((L : ℤ) - 53) ≤ 2 ^ (-3 : ℤ) := zpow_le_zpow_right₀ (by norm_num) (by omega)
    _ = 1 / 8 := by norm_num

-- The room that is left, when it is a small part of the ceiling.
theorem rounded_lt_room (x : ℚ) {L : Nat} (log : L ≤ 50) (near : 4 * n < 2 ^ (L + 1)) :
    rounded x < (n : ℚ) + 1 / 2 - 2 ^ ((L : ℤ) - 53) ↔
      x < cut (n + 1 / 2 - 2 ^ ((L : ℤ) - 53)) := by
  have tiny := tiny_le log
  have some_part : (0 : ℚ) < 2 ^ ((L : ℤ) - 53) := zpow_pos (by norm_num) _
  rcases Nat.eq_zero_or_pos n with rfl | some_ms
  next =>
    apply rounded_lt_iff x (-2) (2 ^ 52 - 2 ^ L)
    · rw [zpow_sub₀ (by norm_num), zpow_natCast]
      push_cast
      norm_num
      ring
    · norm_num
      linarith
    · norm_num
      linarith
  next =>
    obtain ⟨low, high⟩ := log_bounds_nat some_ms
    have steps : Nat.log 2 n + 2 ≤ L := by
      have power : 2 ^ (Nat.log 2 n + 2) < 2 ^ (L + 1) := by
        have least := Nat.pow_log_le_self 2 some_ms.ne'
        rw [pow_add]
        omega
      have exponents := (Nat.pow_lt_pow_iff_right (by norm_num)).mp power
      omega
    obtain ⟨q, split⟩ := Nat.exists_eq_add_of_le steps
    obtain ⟨p, whole⟩ := Nat.exists_eq_add_of_le (by omega : Nat.log 2 n ≤ 50)
    apply rounded_lt_iff x (Nat.log 2 n) ((2 * n + 1) * 2 ^ p - 2 ^ q)
    · have outer : (L : ℤ) - 53 = q + (Nat.log 2 n - 51) := by omega
      have inner : (Nat.log 2 n : ℤ) - 51 = -1 - p := by omega
      rw [outer, two_pow_shift, inner, zpow_sub₀ (by norm_num), zpow_natCast, zpow_natCast]
      push_cast
      field_simp
    · linarith
    · linarith

end near

theorem jitter_le (positive : 0 < delayMs) (small : delayMs < 2 ^ 50) (large : 1000 ≤ most)
    (below : delayMs ≤ most) : jitter delayMs draw.value ≤ most ↔ Fits delayMs most draw := by
  by_cases far : 4 * delayMs ≤ 3 * most + 2
  next =>
    obtain ⟨kept, fits⟩ := jitter_far draw positive small large far
    exact ⟨fun _ => fits, fun _ => kept⟩
  next =>
    obtain ⟨m, rfl⟩ := Int.eq_ofNat_of_zero_le (by omega : 0 ≤ most)
    obtain ⟨n, left⟩ := Int.eq_ofNat_of_zero_le (by omega : 0 ≤ (m : ℤ) - delayMs)
    have delay : (delayMs : ℚ) = m - n := by
      have split : delayMs = m - n := by omega
      rw [split]
      push_cast
      ring
    have log : Nat.log 2 m ≤ 50 := by
      have size : m < 2 ^ 51 := by omega
      exact Nat.lt_succ_iff.mp (Nat.log_lt_of_lt_pow (by omega) size)
    have near : 4 * n < 2 ^ (Nat.log 2 m + 1) := by
      have most_ms := Nat.lt_pow_succ_log_self (by norm_num : 1 < 2) m
      omega
    have some_ms : 0 < m := by omega
    have room : cut ((m : ℚ) + 1 / 2) - delayMs = n + 1 / 2 - 2 ^ ((Nat.log 2 m : ℤ) - 53) := by
      rw [cut_ceiling some_ms, delay]
      ring
    rw [jitter_le_iff draw (by omega), Int.cast_natCast, rounded_lt_ceiling _ log some_ms,
      ← lt_sub_iff_add_lt', room, rounded_lt_room _ log near, Fits, Int.cast_natCast, room]
    rcases le_or_gt (1 / 2) draw.value with upper | lower
    next => rw [share_upper draw upper]
    next =>
      -- Half the draws take from the delay, and nothing is asked of them.
      have sign := (spread_bounds positive small).1
      have left_over : 0 < cut ((n : ℚ) + 1 / 2 - 2 ^ ((Nat.log 2 m : ℤ) - 53)) := by
        have some_room : (0 : ℚ) < n + 1 / 2 - 2 ^ ((Nat.log 2 m : ℤ) - 53) := by
          have tiny := tiny_le log
          have whole : (0 : ℚ) ≤ n := by positivity
          linarith
        exact (by linarith : (0 : ℚ) < _).trans_le (le_cut some_room)
      have taken := mul_nonpos_of_nonpos_of_nonneg (share_lower draw lower) sign
      have exact_taken := mul_nonpos_of_nonpos_of_nonneg
        (by linarith : 2 * draw.value - 1 ≤ 0) sign
      exact ⟨fun _ => exact_taken.trans_lt left_over, fun _ => taken.trans_lt left_over⟩

end jitter

theorem nextDelayMs_failed (later : 0 < streak) :
    nextDelayMs options streak = min options.maxBackoffMs (exponential options streak) :=
  if_neg (by omega)

theorem exponential_bounds (least : 1000 ≤ options.heartbeatIntervalMs)
    (most : options.heartbeatIntervalMs ≤ 600000) (streak : Nat) :
    0 < exponential options streak ∧ exponential options streak < 2 ^ 50 := by
  have power : (2 : Int) ^ min streak 16 ≤ 2 ^ 16 := pow_le_pow_right₀ (by decide) (by omega)
  have positive : (0 : Int) < 2 ^ min streak 16 := by positivity
  unfold exponential
  constructor
  · exact mul_pos (by omega) positive
  · calc options.heartbeatIntervalMs * 2 ^ min streak 16
        ≤ 600000 * 2 ^ 16 := mul_le_mul most power positive.le (by decide)
      _ < 2 ^ 50 := by norm_num

/-- The delays keep to their bounds exactly when the steady interval is no longer than the ceiling
and, after a failure, the draw leaves room below it. -/
theorem withinBounds_iff (env : String → Option String) (interval maxBackoffMs : Int) (streak : Nat)
    (draw : Draw) (accepted : heartbeatIntervalMs env = some interval) :
    WithinBounds ⟨interval, maxBackoffMs⟩ streak draw ↔
      interval ≤ maxBackoffMs ∧
        (0 < streak → LeavesRoom ⟨interval, maxBackoffMs⟩ streak draw) := by
  obtain ⟨least, most⟩ := Config.intField_bounds accepted
  have kept (below : interval ≤ maxBackoffMs) (later : 0 < streak) :
      jitter (nextDelayMs ⟨interval, maxBackoffMs⟩ streak) draw.value ≤ maxBackoffMs ↔
        LeavesRoom ⟨interval, maxBackoffMs⟩ streak draw := by
    obtain ⟨positive, small⟩ :=
      @exponential_bounds ⟨interval, maxBackoffMs⟩ least most streak
    rw [nextDelayMs_failed later]
    refine jitter_le draw (lt_min ?_ positive) ((min_le_right _ _).trans_lt small) (by omega)
      (min_le_left _ _)
    change 0 < maxBackoffMs
    omega
  constructor
  next =>
    intro bounds
    have below : interval ≤ maxBackoffMs := (bounds.steady 1).trans (min_le_left _ _)
    exact ⟨below, fun later => (kept below later).mp (bounds.ceiling later)⟩
  next =>
    rintro ⟨below, room⟩
    constructor
    case ceiling => exact fun later => (kept below later).mpr (room later)
    case monotone =>
      exact fun a b longer => nextDelayMs_mono (by simp only; omega) below longer
    case steady =>
      exact nextDelayMs_steady (by simp only; omega) below

def threeQuarters : Draw where
  value := 3 / 4
  double := ⟨3, -2, by norm_num, by norm_num⟩
  nonneg := by norm_num
  below := by norm_num

theorem withinBounds_first : WithinBounds ⟨15000, 120000⟩ 1 threeQuarters := by
  apply (withinBounds_iff (fun _ => none) 15000 120000 1 threeQuarters rfl).mpr
  refine ⟨by decide, fun _ => ?_⟩
  have delay : min 120000 (exponential ⟨15000, 120000⟩ 1) = 30000 := by decide
  unfold LeavesRoom
  rw [delay]
  exact (jitter_far threeQuarters (by decide) (by decide) (by decide) (by decide)).2

theorem backoff_out_of_bounds :
    heartbeatIntervalMs (fun _ => none) = some 15000 ∧
      defaultMaxBackoffMs <
        jitter (nextDelayMs ⟨15000, defaultMaxBackoffMs⟩ 4) threeQuarters.value ∧
      ¬ WithinBounds ⟨15000, defaultMaxBackoffMs⟩ 4 threeQuarters ∧
      heartbeatIntervalMs (fun _ => some "600000") = some 600000 ∧
      nextDelayMs ⟨600000, defaultMaxBackoffMs⟩ 1 = 120000 ∧
      ¬ WithinBounds ⟨600000, defaultMaxBackoffMs⟩ 1 threeQuarters := by
  have saturated : nextDelayMs ⟨15000, defaultMaxBackoffMs⟩ 4 = 120000 := by decide
  have past : ¬ jitter 120000 threeQuarters.value ≤ defaultMaxBackoffMs := by
    rw [jitter_le threeQuarters (by decide) (by decide) (by decide) (by decide), Fits, not_lt]
    have eighth : 1 / 8 ≤ jitterFraction := by
      have least := rounded_mono (by norm_num) (by norm_num : (1 / 8 : ℚ) ≤ 1 / 5)
      rwa [rounded_of_isDouble ⟨1, -3, by norm_num, by norm_num⟩] at least
    have spread : (15000 : ℚ) ≤ rounded ((120000 : Int) * jitterFraction) := by
      have least := rounded_mono (by norm_num)
        (by push_cast; linarith : (15000 : ℚ) ≤ (120000 : Int) * jitterFraction)
      rwa [rounded_of_isDouble ⟨15000, 0, by norm_num, by norm_num⟩] at least
    have room := (cut_lt (cut ((defaultMaxBackoffMs : Int) + 1 / 2) - (120000 : Int))).trans
      (sub_lt_sub_right (cut_lt _) _)
    have share : 2 * threeQuarters.value - 1 = 1 / 2 := by norm_num [threeQuarters]
    rw [share]
    norm_num [defaultMaxBackoffMs] at room spread ⊢
    linarith
  have faster : nextDelayMs ⟨600000, defaultMaxBackoffMs⟩ 1 = 120000 := by decide
  refine ⟨rfl, ?_, fun bounds => ?_, by decide, faster, fun bounds => ?_⟩
  next =>
    rw [saturated]
    omega
  next =>
    have kept := bounds.ceiling (by decide)
    rw [saturated] at kept
    exact past kept
  next =>
    have kept := bounds.steady 1
    rw [faster] at kept
    exact absurd kept (by decide)

end X402Mesh.NodeDaemon.Backoff
