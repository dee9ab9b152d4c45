import Mathlib.Algebra.Order.Field.Basic
import Mathlib.Tactic.Linarith
import Mathlib.Tactic.Positivity

set_option autoImplicit false

/-!
# Token buckets

A bucket starts full, refills at a steady rate up to its capacity and pays one token for every
request that it grants. No window of time sees more grants than the capacity and what the rate
gives over the window.
-/

namespace TokenBucket

structure Meter (K : Type) [Zero K] [LT K] where
  capacity : K
  rate : K
  capacity_pos : 0 < capacity
  rate_pos : 0 < rate

structure Level (K : Type) where
  tokens : K
  since : K

variable {K : Type} [Field K] [LinearOrder K]

namespace Meter

variable (meter : Meter K)

def refill (now : K) : Option (Level K) → Level K
  | none => ⟨meter.capacity, now⟩
  | some level =>
    ⟨min meter.capacity (level.tokens + max 0 (now - level.since) * meter.rate), now⟩

def grants (now : K) (held : Option (Level K)) : Bool := 1 ≤ (meter.refill now held).tokens

def pay (now : K) (held : Option (Level K)) : Level K :=
  let level := meter.refill now held
  if meter.grants now held then ⟨level.tokens - 1, now⟩ else level

def answers : Option (Level K) → List K → List (K × Bool)
  | _, [] => []
  | held, now :: rest => (now, meter.grants now held) :: answers (some (meter.pay now held)) rest

def Sound (level : Level K) : Prop := 0 ≤ level.tokens ∧ level.tokens ≤ meter.capacity

@[simp] theorem refill_since (now : K) (held : Option (Level K)) :
    (meter.refill now held).since = now := by
  cases held <;> rfl

@[simp] theorem pay_since (now : K) (held : Option (Level K)) :
    (meter.pay now held).since = now := by
  simp only [pay]
  split <;> simp

theorem refill_le (now : K) (held : Option (Level K)) :
    (meter.refill now held).tokens ≤ meter.capacity := by
  cases held with
  | none => exact le_rfl
  | some level => exact min_le_left _ _

-- What a request takes out is what it is granted.
theorem pay_tokens (now : K) (held : Option (Level K)) :
    (if meter.grants now held then 1 else 0) + (meter.pay now held).tokens =
      (meter.refill now held).tokens := by
  simp only [pay]
  split <;> simp

theorem never_grants (small : meter.capacity < 1) (now : K) (held : Option (Level K)) :
    meter.grants now held = false := by
  have bound := meter.refill_le now held
  simpa only [grants, decide_eq_false_iff_not, not_le] using bound.trans_lt small

def granted (opens closes : K) (answered : List (K × Bool)) : Nat :=
  answered.countP fun answer => answer.2 && (opens ≤ answer.1 && answer.1 ≤ closes)

theorem granted_cons_inside {opens closes now : K} (grant : Bool) (rest : List (K × Bool))
    (after : opens ≤ now) (before : now ≤ closes) :
    (granted opens closes ((now, grant) :: rest) : K) =
      (if grant then 1 else 0) + granted opens closes rest := by
  cases grant <;> simp [granted, after, before, add_comm]

omit [Field K] in
theorem granted_cons_early {opens closes now : K} (grant : Bool) (rest : List (K × Bool))
    (before : now < opens) :
    granted opens closes ((now, grant) :: rest) = granted opens closes rest := by
  simp [granted, not_le.mpr before]

omit [Field K] in
theorem granted_late {opens closes : K} (answered : List (K × Bool))
    (late : ∀ answer ∈ answered, closes < answer.1) : granted opens closes answered = 0 := by
  rw [granted, List.countP_eq_zero]
  intro answer member
  simp [not_le.mpr (late answer member)]

theorem mem_answers {held : Option (Level K)} {times : List K} {answer : K × Bool}
    (member : answer ∈ meter.answers held times) : answer.1 ∈ times := by
  induction times generalizing held with
  | nil => cases member
  | cons now rest ih =>
    cases member with
    | head => simp
    | tail _ member => exact List.mem_cons_of_mem _ (ih member)

-- Nothing counts once the window has closed.
theorem granted_closed {opens closes now : K} (held : Option (Level K)) (rest : List K)
    (closed : closes < now) (later : ∀ time ∈ rest, now ≤ time) :
    granted opens closes (meter.answers held (now :: rest)) = 0 := by
  apply granted_late
  intro answer member
  cases List.mem_cons.mp (meter.mem_answers member) with
  | inl same => rwa [same]
  | inr tail => exact closed.trans_le (later _ tail)

variable [IsStrictOrderedRing K]

theorem refill_sound (now : K) (held : Option (Level K)) (sound : ∀ level ∈ held, meter.Sound level) :
    meter.Sound (meter.refill now held) := by
  refine ⟨?_, meter.refill_le now held⟩
  cases held with
  | none => exact meter.capacity_pos.le
  | some level =>
    have tokens := (sound level rfl).1
    have given : 0 ≤ max 0 (now - level.since) * meter.rate :=
      mul_nonneg (le_max_left _ _) meter.rate_pos.le
    exact le_min meter.capacity_pos.le (add_nonneg tokens given)

theorem pay_sound (now : K) (held : Option (Level K)) (sound : ∀ level ∈ held, meter.Sound level) :
    meter.Sound (meter.pay now held) := by
  have full := meter.refill_sound now held sound
  simp only [pay]
  split
  next enough =>
    have one : 1 ≤ (meter.refill now held).tokens := of_decide_eq_true enough
    exact ⟨sub_nonneg.mpr one, (sub_le_self _ zero_le_one).trans full.2⟩
  next => exact full

theorem refill_gain (now : K) (level : Level K) (later : level.since ≤ now) :
    (meter.refill now (some level)).tokens ≤ level.tokens + (now - level.since) * meter.rate := by
  have elapsed : max 0 (now - level.since) = now - level.since :=
    max_eq_right (sub_nonneg.mpr later)
  simp only [refill, elapsed]
  exact min_le_right _ _

-- What is left in the bucket and what the rate still brings pay for every further grant.
theorem granted_le_tokens (opens closes : K) (level : Level K) (times : List K)
    (sound : meter.Sound level) (open' : opens ≤ level.since) (within : level.since ≤ closes)
    (later : ∀ now ∈ times, level.since ≤ now) (ordered : times.Pairwise (· ≤ ·)) :
    (granted opens closes (meter.answers (some level) times) : K) ≤
      level.tokens + (closes - level.since) * meter.rate := by
  induction times generalizing level with
  | nil =>
    have left : 0 ≤ (closes - level.since) * meter.rate :=
      mul_nonneg (sub_nonneg.mpr within) meter.rate_pos.le
    simpa [answers, granted] using add_nonneg sound.1 left
  | cons now rest ih =>
    rw [List.pairwise_cons] at ordered
    have since := later now (by simp)
    by_cases inside : now ≤ closes
    next =>
      have next := ih (meter.pay now (some level))
        (meter.pay_sound now _ (by simpa using sound)) (by simpa using open'.trans since)
        (by simpa using inside) (by simpa using ordered.1) ordered.2
      have paid := meter.pay_tokens now (some level)
      have gain := meter.refill_gain now level since
      rw [pay_since] at next
      rw [answers, granted_cons_inside _ _ (open'.trans since) inside]
      linarith
    next =>
      have left : 0 ≤ (closes - level.since) * meter.rate :=
        mul_nonneg (sub_nonneg.mpr within) meter.rate_pos.le
      rw [meter.granted_closed _ rest (not_le.mp inside) ordered.1, Nat.cast_zero]
      exact add_nonneg sound.1 left

theorem granted_le (opens closes : K) (window : opens ≤ closes) (held : Option (Level K))
    (times : List K) (sound : ∀ level ∈ held, meter.Sound level) (ordered : times.Pairwise (· ≤ ·)) :
    (granted opens closes (meter.answers held times) : K) ≤
      meter.capacity + (closes - opens) * meter.rate := by
  have full : 0 ≤ meter.capacity + (closes - opens) * meter.rate :=
    add_nonneg meter.capacity_pos.le (mul_nonneg (sub_nonneg.mpr window) meter.rate_pos.le)
  induction times generalizing held with
  | nil => simpa [answers, granted] using full
  | cons now rest ih =>
    rw [List.pairwise_cons] at ordered
    have paid := meter.pay_sound now held sound
    by_cases early : now < opens
    next =>
      rw [answers, granted_cons_early _ _ early]
      exact ih _ (by simpa using paid) ordered.2
    have after := not_lt.mp early
    by_cases inside : now ≤ closes
    next =>
      have next := meter.granted_le_tokens opens closes (meter.pay now held) rest paid
        (by simpa using after) (by simpa using inside) (by simpa using ordered.1) ordered.2
      have tokens := meter.pay_tokens now held
      have bound := meter.refill_le now held
      have shorter : (closes - now) * meter.rate ≤ (closes - opens) * meter.rate :=
        mul_le_mul_of_nonneg_right (by linarith) meter.rate_pos.le
      rw [pay_since] at next
      rw [answers, granted_cons_inside _ _ after inside]
      linarith
    next =>
      rw [meter.granted_closed _ rest (not_le.mp inside) ordered.1, Nat.cast_zero]
      exact full

theorem grants_after_wait (level : Level K) (wait : K) (one : 1 ≤ meter.capacity) (later : 0 ≤ wait)
    (enough : 1 - level.tokens ≤ wait * meter.rate) :
    meter.grants (level.since + wait) (some level) = true := by
  have elapsed : max 0 (level.since + wait - level.since) = wait := by
    rw [add_sub_cancel_left, max_eq_right later]
  have reached : 1 ≤ level.tokens + wait * meter.rate := by linarith
  simpa only [grants, refill, elapsed, decide_eq_true_eq, le_min_iff] using ⟨one, reached⟩

end Meter

end TokenBucket
