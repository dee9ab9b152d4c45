import Mathlib.Data.Rat.Floor
import X402Mesh.Lib.OrderedMap
import X402Mesh.Lib.TokenBucket
import X402Mesh.Lib.Transition
import X402Mesh.Shared.Errors

set_option autoImplicit false

-- One bucket per remote address, in a map that drops its least recently used key. The arithmetic is
-- that of the rationals.

namespace X402Mesh.Gateway.RateLimit

inductive Number
  | finite (value : Rat)
  | infinity
  | negativeInfinity
  | nan
  deriving DecidableEq

-- A comparison with NaN is false.
def Number.below (size : Nat) : Number → Bool
  | finite value => value < size
  | infinity => false
  | negativeInfinity => true
  | nan => false

structure RateLimitOptions where
  capacity : Number
  refillPerSecond : Number
  maxKeys : Option Number

def defaultMaxKeys : Nat := 10000

structure Limiter where
  capacity : Rat
  refillPerSecond : Rat
  maxKeys : Number
  capacity_pos : 0 < capacity
  refill_pos : 0 < refillPerSecond

def positive? : Number → Option { value : Rat // 0 < value }
  | .finite value => if bound : 0 < value then some ⟨value, bound⟩ else none
  | _ => none

def rateLimit (options : RateLimitOptions) : Except String Limiter :=
  match positive? options.capacity with
  | none => .error "rateLimit: capacity must be a positive number"
  | some capacity =>
    match positive? options.refillPerSecond with
    | none => .error "rateLimit: refillPerSecond must be a positive number"
    | some refill =>
      .ok ⟨capacity, refill, options.maxKeys.getD (.finite defaultMaxKeys), capacity.2, refill.2⟩

theorem positive?_eq_some (number : Number) (value : { value : Rat // 0 < value }) :
    positive? number = some value ↔ number = .finite value := by
  cases number with
  | finite q =>
    simp only [positive?, Number.finite.injEq]
    split
    next bound => simp [Subtype.ext_iff]
    next bound =>
      simp only [reduceCtorEq, false_iff]
      intro same
      exact bound (same ▸ value.2)
  | infinity => simp [positive?]
  | negativeInfinity => simp [positive?]
  | nan => simp [positive?]

-- A limiter is what the constructor makes of some options, and of no others.
theorem rateLimit_eq_ok (options : RateLimitOptions) (limiter : Limiter) :
    rateLimit options = .ok limiter ↔ options.capacity = .finite limiter.capacity ∧
      options.refillPerSecond = .finite limiter.refillPerSecond ∧
      options.maxKeys.getD (.finite defaultMaxKeys) = limiter.maxKeys := by
  have capacity := positive?_eq_some options.capacity ⟨_, limiter.capacity_pos⟩
  have refill := positive?_eq_some options.refillPerSecond ⟨_, limiter.refill_pos⟩
  rw [← capacity, ← refill]
  cases limiter
  simp only [rateLimit]
  cases found : positive? options.capacity with
  | none => simp
  | some first =>
    cases other : positive? options.refillPerSecond with
    | none => simp
    | some second => simp [Subtype.ext_iff]

structure Bucket where
  tokens : Rat
  updatedAt : Rat
  deriving DecidableEq

abbrev Buckets := OrderedMap String Bucket

structure Request where
  ip : Option String
  remoteAddress : Option String
  now : Rat

def rateLimitKey (request : Request) : String :=
  "ip:" ++ (request.ip <|> request.remoteAddress).getD "unknown"

inductive Verdict
  | limited (retryAfterSeconds : Int) (limit : Rat) (windowSeconds : Int)
  | passed (limit : Rat) (remaining : Int)
  deriving DecidableEq

def Verdict.admitted : Verdict → Bool
  | limited .. => false
  | passed .. => true

namespace Limiter

variable (limiter : Limiter)

def refill (now : Rat) : Option Bucket → Bucket
  | none => ⟨limiter.capacity, now⟩
  | some bucket =>
    let elapsedSeconds := max 0 (now - bucket.updatedAt) / 1000
    ⟨min limiter.capacity (bucket.tokens + elapsedSeconds * limiter.refillPerSecond), now⟩

def waitSeconds (tokens : Rat) : Int := max 1 ⌈(1 - tokens) / limiter.refillPerSecond⌉

-- `Math.round` goes up from a half.
def windowSeconds : Int := ⌊limiter.capacity / limiter.refillPerSecond + 1 / 2⌋

def evict (buckets : Buckets) : Buckets :=
  if limiter.maxKeys.below buckets.size then buckets.drop 1 else buckets

def handle (buckets : Buckets) (request : Request) : Verdict × Buckets :=
  let key := rateLimitKey request
  let found := buckets.get? key
  let bucket := limiter.refill request.now found
  -- Taken out and set again, so that it goes to the recently used end.
  let others := if found.isSome then buckets.erase key else buckets
  if bucket.tokens < 1 then
    (.limited (limiter.waitSeconds bucket.tokens) limiter.capacity limiter.windowSeconds,
      others.set key bucket)
  else
    let bucket := { bucket with tokens := bucket.tokens - 1 }
    (.passed limiter.capacity ⌊bucket.tokens⌋, limiter.evict (others.set key bucket))

def after (buckets : Buckets) (requests : List Request) : Buckets :=
  requests.foldl (fun buckets request => (limiter.handle buckets request).2) buckets

def verdicts : Buckets → List Request → List (Request × Verdict)
  | _, [] => []
  | buckets, request :: rest =>
    let answered := limiter.handle buckets request
    (request, answered.1) :: verdicts answered.2 rest

-- The key's bucket, once it is in the map, is never evicted from it.
def Keeps (key : String) : Buckets → List Request → Prop
  | _, [] => True
  | buckets, request :: rest =>
    let answered := limiter.handle buckets request
    (buckets.contains key ∨ rateLimitKey request = key → answered.2.contains key) ∧
      Keeps key answered.2 rest

instance decidableKeeps (key : String) :
    (buckets : Buckets) → (requests : List Request) → Decidable (limiter.Keeps key buckets requests)
  | _, [] => isTrue trivial
  | buckets, request :: rest =>
    have := decidableKeeps key (limiter.handle buckets request).2 rest
    inferInstanceAs (Decidable (_ ∧ _))

def meter : TokenBucket.Meter ℚ where
  capacity := limiter.capacity
  rate := limiter.refillPerSecond / 1000
  capacity_pos := limiter.capacity_pos
  rate_pos := div_pos limiter.refill_pos (by norm_num)

def level (bucket : Bucket) : TokenBucket.Level ℚ := ⟨bucket.tokens, bucket.updatedAt⟩

theorem level_refill (now : Rat) (found : Option Bucket) :
    level (limiter.refill now found) = limiter.meter.refill now (found.map level) := by
  cases found with
  | none => rfl
  | some bucket =>
    simp only [level, refill, Option.map_some, TokenBucket.Meter.refill, meter,
      TokenBucket.Level.mk.injEq, and_true]
    congr 2
    ring

variable {limiter}

theorem evict_get? {buckets : Buckets} {key : String} {bucket : Bucket}
    (found : (limiter.evict buckets).get? key = some bucket) : buckets.get? key = some bucket := by
  rw [evict] at found
  split at found
  · exact OrderedMap.get?_drop_some _ _ _ _ found
  · exact found

theorem moved_get? (buckets : Buckets) (key other : String) (bucket : Bucket) :
    ((if (buckets.get? key).isSome then buckets.erase key else buckets).set key bucket).get? other =
      if other = key then some bucket else buckets.get? other := by
  rw [OrderedMap.get?_set]
  by_cases same : other = key
  · rw [if_pos same, if_pos same]
  · rw [if_neg same, if_neg same]
    split
    · rw [OrderedMap.get?_erase, if_neg same]
    · rfl

section Step

variable (limiter) (buckets : Buckets) (request : Request)

theorem handle_admitted : (limiter.handle buckets request).1.admitted =
    limiter.meter.grants request.now ((buckets.get? (rateLimitKey request)).map level) := by
  have tokens := congrArg TokenBucket.Level.tokens
    (limiter.level_refill request.now (buckets.get? (rateLimitKey request)))
  simp only [handle, TokenBucket.Meter.grants, ← tokens]
  split
  next short => exact (decide_eq_false (not_le.mpr short)).symm
  next enough => exact (decide_eq_true (not_lt.mp enough)).symm

-- Its own bucket is what a bucket of that key alone makes of the request.
theorem handle_own {bucket : Bucket}
    (held : (limiter.handle buckets request).2.get? (rateLimitKey request) = some bucket) :
    level bucket =
      limiter.meter.pay request.now ((buckets.get? (rateLimitKey request)).map level) := by
  have refilled := limiter.level_refill request.now (buckets.get? (rateLimitKey request))
  have tokens := congrArg TokenBucket.Level.tokens refilled
  simp only [handle] at held
  simp only [TokenBucket.Meter.pay, TokenBucket.Meter.grants, ← refilled]
  split at held
  next short =>
    rw [moved_get?, if_pos rfl, Option.some.injEq] at held
    rw [if_neg (by rw [decide_eq_true_eq]; exact not_le.mpr short), held]
  next enough =>
    have kept := evict_get? held
    rw [moved_get?, if_pos rfl, Option.some.injEq] at kept
    have since : (limiter.refill request.now (buckets.get? (rateLimitKey request))).updatedAt =
        request.now := by
      cases buckets.get? (rateLimitKey request) <;> rfl
    rw [if_pos (by exact decide_eq_true (not_lt.mp enough)), ← kept, level, since]
    rfl

-- Another key's bucket stays as it was, or goes.
theorem handle_other {key : String} {bucket : Bucket} (other : key ≠ rateLimitKey request)
    (held : (limiter.handle buckets request).2.get? key = some bucket) :
    buckets.get? key = some bucket := by
  simp only [handle] at held
  split at held
  next => rwa [moved_get?, if_neg other] at held
  next =>
    have kept := evict_get? held
    rwa [moved_get?, if_neg other] at kept

theorem handle_limited {seconds windowSeconds : Int} {limit : Rat}
    (refused : (limiter.handle buckets request).1 = .limited seconds limit windowSeconds) :
    ∃ bucket, (limiter.handle buckets request).2.get? (rateLimitKey request) = some bucket ∧
      bucket.updatedAt = request.now ∧ seconds = limiter.waitSeconds bucket.tokens := by
  simp only [handle] at refused ⊢
  split at refused
  next short =>
    rw [if_pos short]
    refine ⟨_, by rw [moved_get?, if_pos rfl], ?_, by cases refused; rfl⟩
    cases buckets.get? (rateLimitKey request) <;> rfl
  next => cases refused

theorem handle_kept {key : String} (other : key ≠ rateLimitKey request)
    (kept : buckets.contains key → (limiter.handle buckets request).2.contains key) :
    (limiter.handle buckets request).2.get? key = buckets.get? key := by
  cases found : (limiter.handle buckets request).2.get? key with
  | some bucket => rw [handle_other limiter buckets request other found]
  | none =>
    cases held : buckets.get? key with
    | none => rfl
    | some bucket =>
      have still := kept (by rw [OrderedMap.contains, held]; rfl)
      rw [OrderedMap.contains, found] at still
      cases still

end Step

def Sound (limiter : Limiter) (buckets : Buckets) : Prop :=
  ∀ key bucket, buckets.get? key = some bucket → limiter.meter.Sound (level bucket)

theorem Sound.held {buckets : Buckets} (sound : limiter.Sound buckets) (key : String) :
    ∀ held ∈ (buckets.get? key).map level, limiter.meter.Sound held := by
  intro held member
  obtain ⟨bucket, found, rfl⟩ := Option.mem_map.mp member
  exact sound key bucket found

theorem Sound.handle {buckets : Buckets} (sound : limiter.Sound buckets) (request : Request) :
    limiter.Sound (limiter.handle buckets request).2 := by
  intro key bucket found
  by_cases own : key = rateLimitKey request
  next =>
    subst own
    rw [handle_own limiter buckets request found]
    exact limiter.meter.pay_sound request.now _ (sound.held _)
  next => exact sound key bucket (handle_other limiter buckets request own found)

theorem Sound.after {buckets : Buckets} (sound : limiter.Sound buckets) (requests : List Request) :
    limiter.Sound (limiter.after buckets requests) := by
  induction requests generalizing buckets with
  | nil => exact sound
  | cons request rest ih => exact ih (sound.handle request)

theorem sound_empty : limiter.Sound .empty := by
  intro key bucket found
  cases found

-- The times at which a key's requests come.
def timesOf (key : String) (requests : List Request) : List Rat :=
  (requests.filter fun request => rateLimitKey request = key).map Request.now

def answersOf (key : String) (verdicts : List (Request × Verdict)) : List (Rat × Bool) :=
  (verdicts.filter fun answered => rateLimitKey answered.1 = key).map fun answered =>
    (answered.1.now, answered.2.admitted)

-- The map serves the key as a bucket of its own would.
theorem answersOf_verdicts (key : String) (buckets : Buckets) (requests : List Request)
    (kept : limiter.Keeps key buckets requests) :
    answersOf key (limiter.verdicts buckets requests) =
      limiter.meter.answers ((buckets.get? key).map level) (timesOf key requests) := by
  induction requests generalizing buckets with
  | nil => rfl
  | cons request rest ih =>
    have later := ih _ kept.2
    by_cases own : rateLimitKey request = key
    next =>
      have present := kept.1 (.inr own)
      obtain ⟨bucket, found⟩ := Option.isSome_iff_exists.mp present
      have paid := handle_own limiter buckets request (own.symm ▸ found)
      have granted := handle_admitted limiter buckets request
      rw [found, Option.map_some, paid] at later
      simp only [answersOf, timesOf] at later
      simp only [answersOf, timesOf, verdicts, own, decide_true, List.filter_cons_of_pos,
        List.map_cons, TokenBucket.Meter.answers, granted] at later ⊢
      rw [later]
    next =>
      have same := handle_kept limiter buckets request (Ne.symm own)
        fun held => kept.1 (.inl held)
      rw [same] at later
      simp only [answersOf, timesOf] at later
      simp only [answersOf, timesOf, verdicts, own, decide_false, Bool.false_eq_true,
        not_false_eq_true, List.filter_cons_of_neg]
      exact later

theorem timesOf_ordered (key : String) (requests : List Request)
    (ordered : (requests.map Request.now).Pairwise (· ≤ ·)) :
    (timesOf key requests).Pairwise (· ≤ ·) :=
  ordered.sublist (List.filter_sublist.map _)

def admittedWithin (key : String) (opens closes : Rat) (verdicts : List (Request × Verdict)) : Nat :=
  verdicts.countP fun answered => rateLimitKey answered.1 = key && answered.2.admitted &&
    (opens ≤ answered.1.now && answered.1.now ≤ closes)

theorem admittedWithin_eq (key : String) (opens closes : Rat) (verdicts : List (Request × Verdict)) :
    admittedWithin key opens closes verdicts =
      TokenBucket.Meter.granted opens closes (answersOf key verdicts) := by
  rw [admittedWithin, TokenBucket.Meter.granted, answersOf, List.countP_map, List.countP_filter]
  congr 1
  funext answered
  simp only [Function.comp_apply]
  cases decide (rateLimitKey answered.1 = key) <;> simp

end Limiter

/-- Within any window a key is admitted no more often than its capacity and the refill over the
window allow, and no bucket ever leaves its range. -/
theorem admitted_within_le (limiter : Limiter) :
    (∀ requests key opens closes, (requests.map Request.now).Pairwise (· ≤ ·) →
      limiter.Keeps key .empty requests → opens ≤ closes →
      (Limiter.admittedWithin key opens closes (limiter.verdicts .empty requests) : ℚ) ≤
        limiter.capacity + limiter.refillPerSecond * (closes - opens) / 1000) ∧
    ∀ requests key bucket, (limiter.after .empty requests).get? key = some bucket →
      0 ≤ bucket.tokens ∧ bucket.tokens ≤ limiter.capacity := by
  constructor
  next =>
    intro requests key opens closes ordered kept window
    have bound := limiter.meter.granted_le opens closes window none (Limiter.timesOf key requests)
      (by simp) (Limiter.timesOf_ordered key requests ordered)
    have same := Limiter.answersOf_verdicts key .empty requests kept
    rw [OrderedMap.get?_empty, Option.map_none] at same
    rw [Limiter.admittedWithin_eq, same]
    refine bound.trans (le_of_eq ?_)
    simp only [Limiter.meter]
    ring
  next =>
    intro requests key bucket found
    exact Limiter.sound_empty.after requests key bucket found

def twoTokens : Limiter := ⟨2, 1, .finite 10000, by norm_num, by norm_num⟩

def burst : List Request :=
  [⟨some "a", none, 0⟩, ⟨some "a", none, 100⟩, ⟨none, some "b", 150⟩, ⟨some "a", none, 200⟩]

theorem admitted_within_le_burst :
    Limiter.admittedWithin "ip:a" 0 200 (twoTokens.verdicts .empty burst) = 2 ∧
      (Limiter.admittedWithin "ip:a" 0 200 (twoTokens.verdicts .empty burst) : ℚ) ≤
        2 + 1 * (200 - 0) / 1000 ∧
      ∃ bucket, (twoTokens.after .empty burst).get? "ip:a" = some bucket ∧
        0 ≤ bucket.tokens ∧ bucket.tokens ≤ 2 := by
  have kept : (twoTokens.after .empty burst).get? "ip:a" = some ⟨1 / 5, 200⟩ := by decide +kernel
  obtain ⟨window, tokens⟩ := admitted_within_le twoTokens
  refine ⟨by decide +kernel, ?_, _, kept, tokens burst "ip:a" _ kept⟩
  exact window burst "ip:a" 0 200 (by decide +kernel) (by decide +kernel) (by norm_num)

namespace Limiter

/-- Whoever is told to wait, and whose bucket is left alone meanwhile, is admitted then. -/
def RetryHonest (limiter : Limiter) : Prop :=
  ∀ (requests : List Request) (request : Request) (seconds windowSeconds : Int) (limit : Rat)
      (others : List Request) (again : Request),
    let refused := limiter.handle (limiter.after .empty requests) request
    refused.1 = .limited seconds limit windowSeconds →
    (∀ other ∈ others, rateLimitKey other ≠ rateLimitKey request) →
    limiter.Keeps (rateLimitKey request) refused.2 others →
    rateLimitKey again = rateLimitKey request → again.now = request.now + 1000 * seconds →
    (limiter.handle (limiter.after refused.2 others) again).1.admitted = true

theorem after_kept (limiter : Limiter) (key : String) (buckets : Buckets) (others : List Request)
    (apart : ∀ other ∈ others, rateLimitKey other ≠ key) (kept : limiter.Keeps key buckets others) :
    (limiter.after buckets others).get? key = buckets.get? key := by
  induction others generalizing buckets with
  | nil => rfl
  | cons other rest ih =>
    have first := handle_kept limiter buckets other (Ne.symm (apart other (by simp)))
      fun held => kept.1 (.inl held)
    have later := ih _ (fun r member => apart r (by simp [member])) kept.2
    exact later.trans first

theorem waitSeconds_enough (limiter : Limiter) (tokens : Rat) :
    1 - tokens ≤ limiter.waitSeconds tokens * limiter.refillPerSecond := by
  have ceiling := Int.le_ceil ((1 - tokens) / limiter.refillPerSecond)
  have most : ((⌈(1 - tokens) / limiter.refillPerSecond⌉ : Int) : ℚ) ≤ limiter.waitSeconds tokens :=
    Int.cast_le.mpr (le_max_right _ _)
  exact (div_le_iff₀ limiter.refill_pos).mp (ceiling.trans most)

theorem retryHonest_of_capacity (limiter : Limiter) (one : 1 ≤ limiter.capacity) :
    limiter.RetryHonest := by
  intro requests request seconds windowSeconds limit others again refused limited apart kept same time
  obtain ⟨bucket, held, since, rfl⟩ := handle_limited limiter _ _ limited
  have still := (limiter.after_kept _ _ others apart kept).trans held
  have wait := limiter.waitSeconds_enough bucket.tokens
  have least : (0 : ℚ) ≤ limiter.waitSeconds bucket.tokens := by
    exact_mod_cast le_trans zero_le_one (le_max_left _ _)
  rw [handle_admitted, same, still, time, ← since]
  apply limiter.meter.grants_after_wait (level bucket)
  · exact one
  · linarith
  · simp only [level, meter]
    linarith

-- Below a capacity of one the first request of all is refused, and so is every later one.
theorem capacity_of_retryHonest (limiter : Limiter) (honest : limiter.RetryHonest) :
    1 ≤ limiter.capacity := by
  by_contra small
  have short : limiter.meter.capacity < 1 := not_le.mp small
  have probe (now : Rat) : (limiter.handle .empty ⟨none, none, now⟩).1.admitted = false := by
    rw [handle_admitted, limiter.meter.never_grants short]
  cases verdict : (limiter.handle .empty ⟨none, none, 0⟩).1 with
  | passed limit remaining =>
    have refused := probe 0
    rw [verdict] at refused
    cases refused
  | limited seconds limit windowSeconds =>
    have admitted := honest [] ⟨none, none, 0⟩ seconds windowSeconds limit []
      ⟨none, none, 0 + 1000 * seconds⟩ verdict (by simp) trivial rfl rfl
    rw [handle_admitted, limiter.meter.never_grants short] at admitted
    cases admitted

end Limiter

theorem retry_honest_iff (limiter : Limiter) : limiter.RetryHonest ↔ 1 ≤ limiter.capacity :=
  ⟨limiter.capacity_of_retryHonest, limiter.retryHonest_of_capacity⟩

-- Half a token is a capacity that the constructor takes.
def halfToken : Limiter := ⟨1 / 2, 1, .finite 10000, by norm_num, by norm_num⟩

theorem retry_dishonest : rateLimit ⟨.finite (1 / 2), .finite 1, none⟩ = .ok halfToken ∧
    ¬ halfToken.RetryHonest := by
  refine ⟨(rateLimit_eq_ok _ _).mpr ⟨rfl, rfl, rfl⟩, fun honest => ?_⟩
  have first : (halfToken.handle .empty ⟨some "a", none, 0⟩).1 = .limited 1 (1 / 2) 1 := by
    decide +kernel
  have second := honest [] ⟨some "a", none, 0⟩ 1 1 (1 / 2) [] ⟨some "a", none, 1000⟩ first (by simp)
    trivial rfl (by norm_num)
  revert second
  decide +kernel

end X402Mesh.Gateway.RateLimit
