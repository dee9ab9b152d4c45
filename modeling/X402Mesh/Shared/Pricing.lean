import Mathlib.Algebra.Order.BigOperators.Group.List
import Mathlib.Data.Rat.Floor
import X402Mesh.Shared.Money

set_option autoImplicit false

namespace X402Mesh.Pricing

open Money

def bpsDenominator : Int := 10000

structure PriceSplit where
  inbound : Int
  payout : Int
  margin : Int
  deriving DecidableEq, Repr

def PriceSplit.legs (split : PriceSplit) : List (String × String) :=
  [("inbound", toString split.inbound), ("payout", toString split.payout),
    ("margin", toString split.margin)]

def computeSplit (inbound : Int) (marginBps : Int) : Except MeshError PriceSplit :=
  if inbound < 0 then
    .error ⟨.pricing, "inbound amount must be non-negative", [("inbound", toString inbound)]⟩
  else if marginBps < 0 ∨ marginBps > 10000 then
    .error ⟨.pricing, "marginBps must be an integer in [0, 10000]",
      [("marginBps", toString marginBps)]⟩
  else
    let margin := (inbound * marginBps).tdiv bpsDenominator
    let payout := inbound - margin
    let split : PriceSplit := ⟨inbound, payout, margin⟩
    if margin < 0 ∨ payout < 0 then
      .error ⟨.pricing, "price split produced a negative leg",
        split.legs ++ [("marginBps", toString marginBps)]⟩
    else if payout + margin ≠ inbound then
      .error ⟨.pricing, "price split violates inbound === payout + margin",
        split.legs ++ [("marginBps", toString marginBps)]⟩
    else .ok split

def assertSplitInvariant (split : PriceSplit) : Except MeshError Unit :=
  if split.inbound < 0 ∨ split.payout < 0 ∨ split.margin < 0 then
    .error ⟨.pricing, "price split legs must all be non-negative", split.legs⟩
  else if split.inbound - split.payout ≠ split.margin then
    .error ⟨.pricing, "price split violates inbound - payout === margin", split.legs⟩
  else .ok ()

theorem computeSplit_inbound (inbound : Int) (marginBps : Int) (split : PriceSplit)
    (priced : computeSplit inbound marginBps = .ok split) : split.inbound = inbound := by
  simp only [computeSplit] at priced
  split_ifs at priced
  injection priced with same
  rw [← same]

theorem assertSplitInvariant_ok (split : PriceSplit) (sound : assertSplitInvariant split = .ok ()) :
    0 ≤ split.inbound ∧ 0 ≤ split.payout ∧ 0 ≤ split.margin ∧
      split.inbound - split.payout = split.margin := by
  simp only [assertSplitInvariant] at sound
  split_ifs at sound with negative unequal
  omega

-- Rounding never makes the negative-leg or sum guards fire.
theorem computeSplit_ok (inbound : Int) (marginBps : Int) (charged : 0 ≤ inbound)
    (low : 0 ≤ marginBps) (high : marginBps ≤ 10000) :
    ∃ split, computeSplit inbound marginBps = .ok split ∧ assertSplitInvariant split = .ok () := by
  have product : 0 ≤ inbound * marginBps := mul_nonneg charged low
  have bound : inbound * marginBps ≤ 10000 * inbound := by nlinarith
  have margin : 0 ≤ (inbound * marginBps).tdiv bpsDenominator :=
    Int.tdiv_nonneg product (by decide)
  have payout : (inbound * marginBps).tdiv bpsDenominator ≤ inbound := by
    rw [Int.tdiv_eq_ediv_of_nonneg product, bpsDenominator]
    omega
  refine ⟨⟨inbound, inbound - (inbound * marginBps).tdiv bpsDenominator,
    (inbound * marginBps).tdiv bpsDenominator⟩, ?_, ?_⟩
  · simp only [computeSplit]
    rw [if_neg (by omega), if_neg (by omega), if_neg (by omega), if_neg (by omega)]
  · simp only [assertSplitInvariant]
    rw [if_neg (by omega), if_neg (by omega)]

-- What `computeSplit` answers with inside its domain.
def splitOf (marginBps inbound : Int) : PriceSplit :=
  ⟨inbound, inbound - inbound * marginBps / 10000, inbound * marginBps / 10000⟩

section Domain

variable {marginBps : Int} (low : 0 ≤ marginBps) (high : marginBps ≤ 10000)

include low high

theorem splitOf_legs {inbound : Int} (charged : 0 ≤ inbound) :
    0 ≤ (splitOf marginBps inbound).payout ∧ 0 ≤ (splitOf marginBps inbound).margin := by
  have product : 0 ≤ inbound * marginBps := mul_nonneg charged low
  have bound : inbound * marginBps ≤ inbound * 10000 := mul_le_mul_of_nonneg_left high charged
  simp only [splitOf]
  omega

theorem computeSplit_eq {inbound : Int} (charged : 0 ≤ inbound) :
    computeSplit inbound marginBps = .ok (splitOf marginBps inbound) := by
  have legs := splitOf_legs low high charged
  have product : 0 ≤ inbound * marginBps := mul_nonneg charged low
  simp only [splitOf] at legs
  simp only [computeSplit, bpsDenominator, Int.tdiv_eq_ediv_of_nonneg product]
  rw [if_neg (by omega), if_neg (by omega), if_neg (by omega), if_neg (by omega)]
  rfl

theorem assertSplitInvariant_splitOf {inbound : Int} (charged : 0 ≤ inbound) :
    assertSplitInvariant (splitOf marginBps inbound) = .ok () := by
  have legs := splitOf_legs low high charged
  have given : (splitOf marginBps inbound).inbound = inbound := rfl
  have left : (splitOf marginBps inbound).payout =
      inbound - (splitOf marginBps inbound).margin := rfl
  simp only [assertSplitInvariant]
  rw [if_neg (by omega), if_neg (by omega)]

-- The margin takes at most the whole of every further unit, so neither leg shrinks.
theorem splitOf_mono {smaller larger : Int} (order : smaller ≤ larger) :
    (splitOf marginBps smaller).payout ≤ (splitOf marginBps larger).payout ∧
      (splitOf marginBps smaller).margin ≤ (splitOf marginBps larger).margin := by
  obtain ⟨extra, rfl⟩ : ∃ extra, larger = smaller + extra := ⟨larger - smaller, by omega⟩
  have charged : 0 ≤ extra := by omega
  have product : 0 ≤ extra * marginBps := mul_nonneg charged low
  have bound : extra * marginBps ≤ extra * 10000 := mul_le_mul_of_nonneg_left high charged
  have whole : (smaller + extra) * marginBps = smaller * marginBps + extra * marginBps :=
    add_mul smaller extra marginBps
  simp only [splitOf, whole]
  omega

theorem mapM_computeSplit (amounts : List Int) (charged : ∀ inbound ∈ amounts, 0 ≤ inbound) :
    amounts.mapM (computeSplit · marginBps) = .ok (amounts.map (splitOf marginBps)) := by
  induction amounts with
  | nil => rfl
  | cons inbound rest ih =>
    have first := computeSplit_eq low high (charged inbound (by simp))
    have others := ih fun a member => charged a (by simp [member])
    rw [List.mapM_cons, first, others]
    rfl

end Domain

def PriceSplit.sumOf (leg : PriceSplit → Int) (splits : List PriceSplit) : Int :=
  (splits.map leg).sum

theorem payouts_sum (marginBps : Int) (amounts : List Int) :
    PriceSplit.sumOf PriceSplit.payout (amounts.map (splitOf marginBps)) =
      amounts.sum - PriceSplit.sumOf PriceSplit.margin (amounts.map (splitOf marginBps)) := by
  induction amounts with
  | nil => rfl
  | cons inbound rest ih =>
    simp only [PriceSplit.sumOf, List.map_cons, List.sum_cons, splitOf] at ih ⊢
    omega

-- Every part rounds down on its own, and loses at most 9999 ten-thousandths by it.
theorem margins_sum (marginBps : Int) (amounts : List Int) :
    10000 * PriceSplit.sumOf PriceSplit.margin (amounts.map (splitOf marginBps)) ≤
        amounts.sum * marginBps ∧
      amounts.sum * marginBps ≤
        10000 * PriceSplit.sumOf PriceSplit.margin (amounts.map (splitOf marginBps)) +
          9999 * amounts.length := by
  induction amounts with
  | nil => simp [PriceSplit.sumOf]
  | cons inbound rest ih =>
    simp only [PriceSplit.sumOf, List.map_cons, List.sum_cons, List.length_cons, add_mul,
      splitOf] at ih ⊢
    omega

theorem split_laws (marginBps : Int) (low : 0 ≤ marginBps) (high : marginBps ≤ 10000) :
    (∀ inbound, 0 ≤ inbound → ∃ split, computeSplit inbound marginBps = .ok split ∧
      split.margin = ⌊(inbound : ℚ) * marginBps / 10000⌋ ∧
      0 ≤ split.payout ∧ 0 ≤ split.margin ∧ split.inbound = inbound ∧
      split.payout + split.margin = inbound ∧ assertSplitInvariant split = .ok ()) ∧
    (∀ smaller larger, 0 ≤ smaller → smaller ≤ larger → ∃ less more,
      computeSplit smaller marginBps = .ok less ∧ computeSplit larger marginBps = .ok more ∧
      less.payout ≤ more.payout ∧ less.margin ≤ more.margin) ∧
    (∀ amounts : List Int, amounts ≠ [] → (∀ inbound ∈ amounts, 0 ≤ inbound) →
      ∃ splits total, amounts.mapM (computeSplit · marginBps) = .ok splits ∧
        computeSplit amounts.sum marginBps = .ok total ∧
        PriceSplit.sumOf PriceSplit.margin splits ≤ total.margin ∧
        total.margin - amounts.length < PriceSplit.sumOf PriceSplit.margin splits ∧
        total.payout ≤ PriceSplit.sumOf PriceSplit.payout splits ∧
        PriceSplit.sumOf PriceSplit.payout splits < total.payout + amounts.length) := by
  refine ⟨?single, ?monotone, ?batch⟩
  case single =>
    intro inbound charged
    have legs := splitOf_legs low high charged
    have floor : ⌊(inbound : ℚ) * marginBps / 10000⌋ = inbound * marginBps / 10000 := by
      exact_mod_cast Rat.floor_intCast_div_natCast (inbound * marginBps) 10000
    refine ⟨splitOf marginBps inbound, computeSplit_eq low high charged, floor.symm, legs.1, legs.2,
      rfl, ?_, assertSplitInvariant_splitOf low high charged⟩
    simp only [splitOf]
    omega
  case monotone =>
    intro smaller larger charged order
    exact ⟨_, _, computeSplit_eq low high charged, computeSplit_eq low high (charged.trans order),
      splitOf_mono low high order⟩
  case batch =>
    intro amounts some charged
    have parts := margins_sum marginBps amounts
    have payouts := payouts_sum marginBps amounts
    have length : 0 < amounts.length := List.length_pos_of_ne_nil some
    refine ⟨_, _, mapM_computeSplit low high amounts charged,
      computeSplit_eq low high (List.sum_nonneg charged), ?_⟩
    rw [payouts]
    simp only [splitOf]
    omega

theorem split_laws_default : ∃ splits total,
    [199, 1, 7].mapM (computeSplit · 1500) = .ok splits ∧
      computeSplit 207 1500 = .ok total ∧ PriceSplit.sumOf PriceSplit.margin splits ≤ total.margin ∧
      total.margin - 3 < PriceSplit.sumOf PriceSplit.margin splits ∧
      total.payout ≤ PriceSplit.sumOf PriceSplit.payout splits ∧
      PriceSplit.sumOf PriceSplit.payout splits < total.payout + 3 :=
  (split_laws 1500 (by decide) (by decide)).2.2 [199, 1, 7] (by decide) (by decide)

end X402Mesh.Pricing
