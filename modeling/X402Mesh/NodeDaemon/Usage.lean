import X402Mesh.Lib.JsNumber
import X402Mesh.Lib.JsValue

set_option autoImplicit false

-- Token counts are doubles, so a sum or a difference of two of them is rounded.

namespace X402Mesh.NodeDaemon.Usage

open Js

def asCount : Value → Option Nat
  | .number (.finite x) => if x.den = 1 ∧ 0 ≤ x.num then some x.num.toNat else none
  | _ => none

def count (n : Nat) : Number := .finite n

def exponents : Nat := 1024

-- The least power of two that no double reaches.
def tooLarge : Nat := 2 ^ exponents

-- `a + b`
def plus (a b : Nat) : Number :=
  let sum := JsNumber.round (a + b)
  if sum < tooLarge then count sum else .infinite false

-- `Math.max(0, total - part)`
def remainder (total part : Nat) : Number := count (JsNumber.round (total - part))

structure ChatCompletionUsage where
  promptTokens : Number
  completionTokens : Number
  totalTokens : Number
  deriving DecidableEq

def normalizeUsage (value : Value) : ChatCompletionUsage :=
  let prompt := asCount (value.field (units "prompt_tokens"))
  let completion := asCount (value.field (units "completion_tokens"))
  let total := asCount (value.field (units "total_tokens"))
  match prompt, completion with
  | some prompt, some completion =>
    { promptTokens := count prompt
      completionTokens := count completion
      totalTokens := (total.map count).getD (plus prompt completion) }
  | prompt, completion =>
    match total with
    | some total =>
      { promptTokens := (prompt.map count).getD (remainder total (completion.getD 0))
        completionTokens := (completion.map count).getD (remainder total (prompt.getD 0))
        totalTokens := count total }
    | none =>
      { promptTokens := count (prompt.getD 0)
        completionTokens := count (completion.getD 0)
        totalTokens := plus (prompt.getD 0) (completion.getD 0) }

def Reported (usage : Value) (name : String) (n : Nat) : Prop :=
  usage.field (units name) = .number (count n)

theorem asCount_eq_some {v : Value} {n : Nat} : asCount v = some n ↔ v = .number (count n) := by
  constructor
  next =>
    intro counted
    unfold asCount at counted
    split at counted
    next x =>
      obtain ⟨⟨whole, sign⟩, taken⟩ := Option.ite_none_right_eq_some.mp counted
      obtain rfl := Option.some.inj taken
      have same : ((x.num.toNat : Nat) : ℚ) = x := by
        have lifted : ((x.num.toNat : Nat) : Int) = x.num := Int.toNat_of_nonneg sign
        apply Rat.ext
        · simpa using lifted
        · simpa using whole.symm
      simp [count, same]
    next => simp at counted
  next =>
    rintro rfl
    simp [asCount, count]

theorem reported_iff (usage : Value) (name : String) (n : Nat) :
    Reported usage name n ↔ asCount (usage.field (units name)) = some n :=
  asCount_eq_some.symm

theorem count_inj {a b : Nat} : count a = count b ↔ a = b := by
  simp only [count, Number.finite.injEq, Rat.natCast_inj]

-- A natural number that a JavaScript number can hold.
def IsDouble (n : Nat) : Prop := JsNumber.round n = n ∧ n < tooLarge

structure Fits (usage : Value) (prompt completion total : Nat) : Prop where
  doubles : IsDouble prompt ∧ IsDouble completion ∧ IsDouble total
  prompt_kept : ∀ n, Reported usage "prompt_tokens" n → prompt = n
  completion_kept : ∀ n, Reported usage "completion_tokens" n → completion = n
  total_kept : ∀ n, Reported usage "total_tokens" n → total = n
  adds_up : prompt + completion = total

def Extendable (usage : Value) : Prop := ∃ prompt completion total, Fits usage prompt completion total

def Consistent (usage : Value) (block : ChatCompletionUsage) : Prop :=
  ∃ prompt completion total, block = ⟨count prompt, count completion, count total⟩ ∧
    Fits usage prompt completion total

def OnlyTotal (usage : Value) : Prop :=
  (∀ n, ¬ Reported usage "prompt_tokens" n) ∧ (∀ n, ¬ Reported usage "completion_tokens" n) ∧
    ∃ n, 0 < n ∧ Reported usage "total_tokens" n

theorem small_double {n : Nat} (small : n < 2 ^ 53) : IsDouble n := by
  have below : 2 ^ 53 ≤ tooLarge := by
    have grows : ∀ n, 53 ≤ n → 2 ^ 53 ≤ 2 ^ n := fun n => Nat.pow_le_pow_right (by decide)
    exact grows exponents (by decide)
  exact ⟨if_pos small, Nat.lt_of_lt_of_le small below⟩

theorem plus_exact {a b : Nat} (double : IsDouble (a + b)) : plus a b = count (a + b) := by
  simp [plus, double.1, double.2]

theorem remainder_exact {total part rest : Nat} (double : IsDouble rest)
    (sum : part + rest = total) : remainder total part = count rest := by
  have left : total - part = rest := by omega
  rw [remainder, left, double.1]

variable {usage : Value} {name : String}

theorem absent (missing : asCount (usage.field (units name)) = none) (n : Nat) :
    ¬ Reported usage name n := by
  intro told
  simp [(reported_iff usage name n).mp told] at missing

theorem told_once {a n : Nat} (told : asCount (usage.field (units name)) = some a)
    (again : Reported usage name n) : a = n := by
  simpa [told] using (reported_iff usage name n).mp again

theorem Fits.prompt_told {p c t a : Nat} (fits : Fits usage p c t)
    (told : asCount (usage.field (units "prompt_tokens")) = some a) : p = a :=
  fits.prompt_kept a ((reported_iff ..).mpr told)

theorem Fits.completion_told {p c t a : Nat} (fits : Fits usage p c t)
    (told : asCount (usage.field (units "completion_tokens")) = some a) : c = a :=
  fits.completion_kept a ((reported_iff ..).mpr told)

theorem Fits.total_told {p c t a : Nat} (fits : Fits usage p c t)
    (told : asCount (usage.field (units "total_tokens")) = some a) : t = a :=
  fits.total_kept a ((reported_iff ..).mpr told)

theorem normalizeUsage_summed (missing : asCount (usage.field (units "total_tokens")) = none) :
    normalizeUsage usage =
      let prompt := (asCount (usage.field (units "prompt_tokens"))).getD 0
      let completion := (asCount (usage.field (units "completion_tokens"))).getD 0
      ⟨count prompt, count completion, plus prompt completion⟩ := by
  unfold normalizeUsage
  cases asCount (usage.field (units "prompt_tokens")) <;>
    cases asCount (usage.field (units "completion_tokens")) <;> simp [missing]

theorem normalizeUsage_filled {t : Nat}
    (told : asCount (usage.field (units "total_tokens")) = some t) :
    normalizeUsage usage =
      let prompt := asCount (usage.field (units "prompt_tokens"))
      let completion := asCount (usage.field (units "completion_tokens"))
      ⟨(prompt.map count).getD (remainder t (completion.getD 0)),
        (completion.map count).getD (remainder t (prompt.getD 0)), count t⟩ := by
  unfold normalizeUsage
  cases asCount (usage.field (units "prompt_tokens")) <;>
    cases asCount (usage.field (units "completion_tokens")) <;> simp [told]

-- Without a total, a missing part is taken to be zero.
theorem fits_summed {p c t : Nat} (fits : Fits usage p c t)
    (missing : asCount (usage.field (units "total_tokens")) = none) :
    let prompt := (asCount (usage.field (units "prompt_tokens"))).getD 0
    let completion := (asCount (usage.field (units "completion_tokens"))).getD 0
    Fits usage prompt completion (prompt + completion) := by
  have zero : IsDouble 0 := small_double (by decide)
  have sum := fits.adds_up
  constructor
  case doubles =>
    cases prompt : asCount (usage.field (units "prompt_tokens")) with
    | none =>
      cases completion : asCount (usage.field (units "completion_tokens")) with
      | none => simp [zero]
      | some b =>
        obtain rfl := fits.completion_told completion
        simpa using ⟨zero, fits.doubles.2.1⟩
    | some a =>
      obtain rfl := fits.prompt_told prompt
      cases completion : asCount (usage.field (units "completion_tokens")) with
      | none => simpa using ⟨fits.doubles.1, zero, fits.doubles.1⟩
      | some b =>
        obtain rfl := fits.completion_told completion
        simpa [sum] using fits.doubles
  case prompt_kept =>
    intro n told
    simp [(reported_iff ..).mp told]
  case completion_kept =>
    intro n told
    simp [(reported_iff ..).mp told]
  case total_kept =>
    intro n told
    exact absurd told (absent missing n)
  case adds_up => rfl

theorem normalizeUsage_consistent_of_total {p c t : Nat} (fits : Fits usage p c t)
    (told : asCount (usage.field (units "total_tokens")) = some t) (more : ¬ OnlyTotal usage) :
    normalizeUsage usage = ⟨count p, count c, count t⟩ := by
  have sum := fits.adds_up
  have completion_left : remainder t p = count c := remainder_exact fits.doubles.2.1 sum
  have prompt_left : remainder t c = count p :=
    remainder_exact fits.doubles.1 ((Nat.add_comm c p).trans sum)
  rw [normalizeUsage_filled told]
  cases prompt : asCount (usage.field (units "prompt_tokens")) with
  | some a =>
    obtain rfl := fits.prompt_told prompt
    cases completion : asCount (usage.field (units "completion_tokens")) with
    | none => simp [completion_left]
    | some b => simp [fits.completion_told completion]
  | none =>
    cases completion : asCount (usage.field (units "completion_tokens")) with
    | some b =>
      obtain rfl := fits.completion_told completion
      simp [prompt_left]
    | none =>
      have none_left : t = 0 := by
        by_contra positive
        exact more ⟨absent prompt, absent completion, t, Nat.pos_of_ne_zero positive,
          (reported_iff ..).mpr told⟩
      obtain ⟨rfl, rfl⟩ : p = 0 ∧ c = 0 := by omega
      simp [completion_left]

-- Each of the two parts is filled with the whole of the total.
theorem normalizeUsage_onlyTotal (only : OnlyTotal usage) :
    ∃ t, 0 < t ∧ Reported usage "total_tokens" t ∧
      normalizeUsage usage = ⟨remainder t 0, remainder t 0, count t⟩ := by
  obtain ⟨no_prompt, no_completion, t, positive, told⟩ := only
  have prompt : asCount (usage.field (units "prompt_tokens")) = none :=
    Option.eq_none_iff_forall_ne_some.mpr fun n found => no_prompt n ((reported_iff ..).mpr found)
  have completion : asCount (usage.field (units "completion_tokens")) = none :=
    Option.eq_none_iff_forall_ne_some.mpr fun n found =>
      no_completion n ((reported_iff ..).mpr found)
  refine ⟨t, positive, told, ?_⟩
  rw [normalizeUsage_filled ((reported_iff ..).mp told)]
  simp [prompt, completion]

theorem inconsistent_of_onlyTotal {p c t : Nat} (fits : Fits usage p c t) (only : OnlyTotal usage) :
    ¬ Consistent usage (normalizeUsage usage) := by
  rintro ⟨prompt, completion, total, block, consistent⟩
  obtain ⟨t', positive, told, filled⟩ := normalizeUsage_onlyTotal only
  have same : t = t' := fits.total_kept t' told
  subst same
  have whole : remainder t 0 = count t := remainder_exact fits.doubles.2.2 (by omega)
  have sum := consistent.adds_up
  simp only [block, whole, ChatCompletionUsage.mk.injEq, count_inj] at filled
  omega

theorem normalizeUsage_consistent_iff (usage : Value) (possible : Extendable usage) :
    Consistent usage (normalizeUsage usage) ↔ ¬ OnlyTotal usage := by
  obtain ⟨p, c, t, fits⟩ := possible
  constructor
  next => exact fun consistent only => inconsistent_of_onlyTotal fits only consistent
  next =>
    intro more
    cases total : asCount (usage.field (units "total_tokens")) with
    | none =>
      have summed := fits_summed fits total
      refine ⟨_, _, _, ?_, summed⟩
      rw [normalizeUsage_summed total]
      simp [plus_exact summed.doubles.2.2]
    | some d =>
      obtain rfl := fits.total_told total
      exact ⟨p, c, t, normalizeUsage_consistent_of_total fits total more, fits⟩

def partsUsage : Value :=
  .object [(units "prompt_tokens", .number (count 12)), (units "total_tokens", .number (count 20))]

theorem partsUsage_fits : Fits partsUsage 12 8 20 where
  doubles := ⟨small_double (by decide), small_double (by decide), small_double (by decide)⟩
  prompt_kept _ told := told_once rfl told
  completion_kept n told := absurd told (absent rfl n)
  total_kept _ told := told_once rfl told
  adds_up := rfl

theorem normalizeUsage_consistent_parts :
    Consistent partsUsage (normalizeUsage partsUsage) ↔ ¬ OnlyTotal partsUsage :=
  normalizeUsage_consistent_iff partsUsage ⟨12, 8, 20, partsUsage_fits⟩

def totalUsage : Value := .object [(units "total_tokens", .number (count 5))]

theorem totalUsage_fits : Fits totalUsage 2 3 5 where
  doubles := ⟨small_double (by decide), small_double (by decide), small_double (by decide)⟩
  prompt_kept n told := absurd told (absent rfl n)
  completion_kept n told := absurd told (absent rfl n)
  total_kept _ told := told_once rfl told
  adds_up := rfl

theorem total_counted_twice :
    Extendable totalUsage ∧ normalizeUsage totalUsage = ⟨count 5, count 5, count 5⟩ ∧
      ¬ Consistent totalUsage (normalizeUsage totalUsage) := by
  have only : OnlyTotal totalUsage :=
    ⟨absent rfl, absent rfl, 5, by decide, (reported_iff ..).mpr rfl⟩
  refine ⟨⟨2, 3, 5, totalUsage_fits⟩, rfl, inconsistent_of_onlyTotal totalUsage_fits only⟩

end X402Mesh.NodeDaemon.Usage
