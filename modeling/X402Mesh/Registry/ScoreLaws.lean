import Mathlib.Algebra.Order.Field.Basic
import Mathlib.Tactic.FieldSimp
import Mathlib.Tactic.Linarith
import X402Mesh.Registry.Draws

set_option autoImplicit false

namespace X402Mesh.Registry

theorem clamp01_mono {v w : Rat} (order : v ≤ w) : clamp01 v ≤ clamp01 w := by
  unfold clamp01
  split_ifs <;> linarith

theorem normalizeNumber_mono (low high : Rat) {v w : Rat} (order : v ≤ w) :
    normalizeNumber v low high ≤ normalizeNumber w low high := by
  unfold normalizeNumber
  split
  next => exact le_rfl
  next wide =>
    have span : 0 < high - low := not_le.mp wide
    exact clamp01_mono (div_le_div_of_nonneg_right (by linarith) span.le)

theorem normalizeNumber_scale (factor value low high : Rat) (positive : 0 < factor) :
    normalizeNumber (factor * value) (factor * low) (factor * high) =
      normalizeNumber value low high := by
  have span : factor * high - factor * low ≤ 0 ↔ high - low ≤ 0 := by
    rw [← mul_sub]
    simpa using mul_le_mul_iff_right₀ (b := high - low) (c := 0) positive
  simp only [normalizeNumber, span]
  split
  next => rfl
  next => rw [← mul_sub, ← mul_sub, mul_div_mul_left _ _ positive.ne']

theorem normalizeAtomic_within (value low high : Int) :
    0 ≤ normalizeAtomic value low high ∧ normalizeAtomic value low high ≤ 1 := by
  simp only [normalizeAtomic]
  split_ifs with flat below above
  · exact ⟨le_rfl, zero_le_one⟩
  · exact ⟨le_rfl, zero_le_one⟩
  · exact ⟨zero_le_one, le_rfl⟩
  · have scaled : 0 ≤ (value - low) * ratioScale / (high - low) ∧
        (value - low) * ratioScale / (high - low) ≤ ratioScale := by
      refine ⟨Int.ediv_nonneg (mul_nonneg (by omega) (by decide)) (by omega), ?_⟩
      apply Int.ediv_le_of_le_mul (by omega)
      rw [mul_comm]
      exact mul_le_mul_of_nonneg_left (by omega) (by decide)
    have positive : (0 : ℚ) < ratioScale := by norm_num [ratioScale]
    exact ⟨div_nonneg (by exact_mod_cast scaled.1) positive.le,
      (div_le_one positive).mpr (by exact_mod_cast scaled.2)⟩

theorem normalizeAtomic_mono (low high : Int) {v w : Int} (order : v ≤ w) :
    normalizeAtomic v low high ≤ normalizeAtomic w low high := by
  have most := (normalizeAtomic_within v low high).2
  have least := (normalizeAtomic_within w low high).1
  by_cases flat : high - low ≤ 0
  · simp [normalizeAtomic, flat]
  by_cases below : v - low ≤ 0
  · have start : normalizeAtomic v low high = 0 := by simp [normalizeAtomic, flat, below]
    rwa [start]
  have inside : ¬ w - low ≤ 0 := by omega
  by_cases above : w - low ≥ high - low
  · have full : normalizeAtomic w low high = 1 := by simp [normalizeAtomic, flat, inside, above]
    rwa [full]
  -- Both fall between the extremes, where the ratios are truncated alike.
  have short : ¬ v - low ≥ high - low := by omega
  simp only [normalizeAtomic, flat, below, inside, above, short, if_false]
  have scaled : (v - low) * ratioScale ≤ (w - low) * ratioScale :=
    mul_le_mul_of_nonneg_right (by omega) (by decide)
  have floors : (v - low) * ratioScale / (high - low) ≤ (w - low) * ratioScale / (high - low) :=
    Int.ediv_le_ediv (by omega) scaled
  have positive : (0 : ℚ) < ratioScale := by norm_num [ratioScale]
  exact div_le_div_of_nonneg_right (by exact_mod_cast floors) positive.le

theorem normalizeAtomic_scale (factor value low high : Int) (positive : 0 < factor) :
    normalizeAtomic (factor * value) (factor * low) (factor * high) =
      normalizeAtomic value low high := by
  have signs (x : Int) : factor * x ≤ 0 ↔ x ≤ 0 := by
    simpa using mul_le_mul_iff_right₀ (b := x) (c := 0) positive
  have whole (x y : Int) : factor * x ≥ factor * y ↔ x ≥ y := mul_le_mul_iff_right₀ positive
  have ratio (x y : Int) : factor * x * ratioScale / (factor * y) = x * ratioScale / y := by
    rw [mul_assoc, Int.mul_ediv_mul_of_pos _ _ positive]
  simp only [normalizeAtomic, ← mul_sub, signs, whole, ratio]

-- A function that keeps the smaller of two keeps the smallest of all.
theorem min?_map_hom {α β : Type} [Min α] [Min β] (f : α → β)
    (keeps : ∀ a b, f (min a b) = min (f a) (f b)) (values : List α) :
    (values.map f).min? = values.min?.map f := by
  cases values with
  | nil => rfl
  | cons first rest =>
    change some ((rest.map f).foldl min (f first)) = some (f (rest.foldl min first))
    rw [Option.some.injEq]
    induction rest generalizing first with
    | nil => rfl
    | cons next rest ih =>
      rw [List.map_cons, List.foldl_cons, List.foldl_cons, ← keeps]
      exact ih (min first next)

theorem max?_map_hom {α β : Type} [Max α] [Max β] (f : α → β)
    (keeps : ∀ a b, f (max a b) = max (f a) (f b)) (values : List α) :
    (values.map f).max? = values.max?.map f := by
  cases values with
  | nil => rfl
  | cons first rest =>
    change some ((rest.map f).foldl max (f first)) = some (f (rest.foldl max first))
    rw [Option.some.injEq]
    induction rest generalizing first with
    | nil => rfl
    | cons next rest ih =>
      rw [List.map_cons, List.foldl_cons, List.foldl_cons, ← keeps]
      exact ih (max first next)

namespace NodeSelector

variable (options : NodeSelectorOptions)

structure Admissible (l p q : Rat) : Prop where
  latency : 0 ≤ l
  price : 0 ≤ p
  quality : 0 ≤ q
  some : ¬ (l = 0 ∧ p = 0 ∧ q = 0)

theorem checkWeight_ok (name : String) {value : Rat} (nonneg : 0 ≤ value) :
    checkWeight name (some value) = .ok value :=
  if_neg (not_lt.mpr nonneg)

theorem normalizeWeights_ok {l p q : Rat} (ok : Admissible l p q) : 0 < l + p + q ∧
    normalizeWeights ⟨some l, some p, some q⟩ =
      .ok (l / (l + p + q), p / (l + p + q), q / (l + p + q)) := by
  have total : 0 < l + p + q := by
    have nonneg := add_nonneg (add_nonneg ok.latency ok.price) ok.quality
    refine lt_of_le_of_ne nonneg fun zero => ok.some ⟨?_, ?_, ?_⟩ <;>
      linarith [ok.latency, ok.price, ok.quality]
  refine ⟨total, ?_⟩
  rw [normalizeWeights, checkWeight_ok _ ok.latency, checkWeight_ok _ ok.price,
    checkWeight_ok _ ok.quality]
  exact if_neg (not_le.mpr total)

def termsOf (l p q : Rat) (ctx : ScoreContext) (p95 : Rat) (quoted : Int) (score : Rat) : Rat :=
  clamp01 (l * (1 - normalizeNumber p95 ctx.minLatencyMs ctx.maxLatencyMs) +
    p * (1 - normalizeAtomic quoted ctx.minPriceAtomic ctx.maxPriceAtomic) + q * clamp01 score)

def Priced (model : String) (e : Eligible) : Prop :=
  nodePriceAtomic options e.record model = some e.price

theorem scoreNode_eq {l p q : Rat} (ok : Admissible l p q) {ctx : ScoreContext}
    (weights : ctx.weights = ⟨some l, some p, some q⟩) {e : Eligible}
    (priced : Priced options ctx.model e) : scoreNode options e.record ctx =
      .ok (termsOf (l / (l + p + q)) (p / (l + p + q)) (q / (l + p + q)) ctx
        e.record.health.latencyMsP95 e.price e.record.health.qualityScore) := by
  have quoted : nodePriceAtomic options e.record ctx.model = some e.price := priced
  rw [scoreNode, weights, (normalizeWeights_ok ok).2, quoted]
  rfl

theorem termsOf_mono {l p q : Rat} (ok : 0 ≤ l ∧ 0 ≤ p ∧ 0 ≤ q) (ctx : ScoreContext)
    {fast slow : Rat} {cheap dear : Int} {good bad : Rat} (faster : fast ≤ slow)
    (cheaper : cheap ≤ dear) (better : bad ≤ good) :
    termsOf l p q ctx slow dear bad ≤ termsOf l p q ctx fast cheap good := by
  have latency := mul_le_mul_of_nonneg_left
    (sub_le_sub_left (normalizeNumber_mono ctx.minLatencyMs ctx.maxLatencyMs faster) 1) ok.1
  have price := mul_le_mul_of_nonneg_left
    (sub_le_sub_left (normalizeAtomic_mono ctx.minPriceAtomic ctx.maxPriceAtomic cheaper) 1) ok.2.1
  have quality := mul_le_mul_of_nonneg_left (clamp01_mono better) ok.2.2
  exact clamp01_mono (add_le_add (add_le_add latency price) quality)

structure Rescaled (k : Rat) (m : Int) (e e' : Eligible) : Prop where
  latency : e'.record.health.latencyMsP95 = k * e.record.health.latencyMsP95
  price : e'.price = m * e.price
  quality : e'.record.health.qualityScore = e.record.health.qualityScore

section Scaling

variable {k : Rat} {m : Int} {es es' : List Eligible} (rescaled : List.Forall₂ (Rescaled k m) es es')

include rescaled

theorem latencies_rescaled : es'.map (·.record.health.latencyMsP95) =
    (es.map (·.record.health.latencyMsP95)).map (k * ·) := by
  induction rescaled with
  | nil => rfl
  | cons same _ ih => simpa [same.latency] using ih

theorem prices_rescaled : es'.map (·.price) = (es.map (·.price)).map (m * ·) := by
  induction rescaled with
  | nil => rfl
  | cons same _ ih => simpa [same.price] using ih

theorem context_rescaled (model : String) (weights : ScoreWeights) (fast : 0 < k) (cheap : 0 < m) :
    context model weights es' =
      { model := model
        minLatencyMs := k * (context model weights es).minLatencyMs
        maxLatencyMs := k * (context model weights es).maxLatencyMs
        minPriceAtomic := m * (context model weights es).minPriceAtomic
        maxPriceAtomic := m * (context model weights es).maxPriceAtomic
        weights := weights } := by
  have low := min?_map_hom (fun v : Rat => k * v) fun a b => mul_min_of_nonneg a b fast.le
  have high := max?_map_hom (fun v : Rat => k * v) fun a b => mul_max_of_nonneg a b fast.le
  have cheapest := min?_map_hom (fun v : Int => m * v) fun a b => mul_min_of_nonneg a b cheap.le
  have dearest := max?_map_hom (fun v : Int => m * v) fun a b => mul_max_of_nonneg a b cheap.le
  have scaled {α : Type} (f : α → α) (zero : α) (fixed : f zero = zero) (o : Option α) :
      (o.map f).getD zero = f (o.getD zero) := by
    cases o with
    | none => exact fixed.symm
    | some v => rfl
  simp only [context, latencies_rescaled rescaled, prices_rescaled rescaled, low, high, cheapest,
    dearest]
  rw [scaled _ _ (mul_zero k), scaled _ _ (mul_zero k), scaled _ _ (mul_zero m),
    scaled _ _ (mul_zero m)]

end Scaling

theorem scoreNode_rescaled {l p q : Rat} (ok : Admissible l p q) {model : String}
    {es es' : List Eligible} {k : Rat} {m : Int} (fast : 0 < k) (cheap : 0 < m)
    (rescaled : List.Forall₂ (Rescaled k m) es es') {e e' : Eligible} (same : Rescaled k m e e')
    (priced : Priced options model e) (quoted : Priced options model e') :
    scoreNode options e'.record (context model ⟨some l, some p, some q⟩ es') =
      scoreNode options e.record (context model ⟨some l, some p, some q⟩ es) := by
  have before : (context model ⟨some l, some p, some q⟩ es).weights = ⟨some l, some p, some q⟩ := rfl
  have after : (context model ⟨some l, some p, some q⟩ es').weights = ⟨some l, some p, some q⟩ := rfl
  rw [scoreNode_eq options ok before priced, scoreNode_eq options ok after quoted,
    context_rescaled rescaled model _ fast cheap]
  simp only [termsOf, same.latency, same.price, same.quality, normalizeNumber_scale _ _ _ _ fast,
    normalizeAtomic_scale _ _ _ _ cheap]

/-- The score stays within its bounds, follows each of its terms, and ignores the units of both. -/
theorem score_laws (model : String) (l p q : Rat) (ok : Admissible l p q) (es : List Eligible)
    (priced : ∀ e ∈ es, Priced options model e) :
    let scored (es : List Eligible) (e : Eligible) :=
      scoreNode options e.record (context model ⟨some l, some p, some q⟩ es)
    (∀ e ∈ es, ∃ s, scored es e = .ok s ∧ 0 ≤ s ∧ s ≤ 1) ∧
    (∀ a ∈ es, ∀ b ∈ es, a.record.health.latencyMsP95 ≤ b.record.health.latencyMsP95 →
      a.price ≤ b.price → b.record.health.qualityScore ≤ a.record.health.qualityScore →
      ∃ s t, scored es a = .ok s ∧ scored es b = .ok t ∧ t ≤ s) ∧
    ∀ (k : Rat) (m : Int) (es' : List Eligible), 0 < k → 0 < m →
      (∀ e ∈ es', Priced options model e) → List.Forall₂ (Rescaled k m) es es' →
      List.Forall₂ (fun e e' => scored es' e' = scored es e) es es' := by
  intro scored
  have weights : (context model ⟨some l, some p, some q⟩ es).weights = ⟨some l, some p, some q⟩ := rfl
  have total := (normalizeWeights_ok ok).1
  have nonneg : 0 ≤ l / (l + p + q) ∧ 0 ≤ p / (l + p + q) ∧ 0 ≤ q / (l + p + q) :=
    ⟨div_nonneg ok.latency total.le, div_nonneg ok.price total.le, div_nonneg ok.quality total.le⟩
  refine ⟨fun e member => ?within, fun a memberA b memberB faster cheaper better => ?mono,
    fun k m es' fast cheap quoted rescaled => ?scale⟩
  case within =>
    have score := scoreNode_eq options ok weights (priced e member)
    exact ⟨_, score, scoreNode_within options score⟩
  case mono =>
    exact ⟨_, _, scoreNode_eq options ok weights (priced a memberA),
      scoreNode_eq options ok weights (priced b memberB),
      termsOf_mono nonneg _ faster cheaper better⟩
  case scale =>
    apply List.forall₂_iff_get.mpr
    refine ⟨rescaled.length_eq, fun i inside reached => ?_⟩
    have same := (List.forall₂_iff_get.mp rescaled).2 i inside reached
    exact scoreNode_rescaled options ok fast cheap rescaled same
      (priced _ (List.get_mem es ⟨i, inside⟩)) (quoted _ (List.get_mem es' ⟨i, reached⟩))

theorem score_laws_two_nodes :
    ∃ s t, scoreNode ⟨none, none, String.toLower⟩ demoNode
        (context "llama3.1:8b" ⟨some 2, some 1, some 0⟩ [⟨demoNode, 10000⟩, ⟨slowNode, 10000⟩]) =
          .ok s ∧
      scoreNode ⟨none, none, String.toLower⟩ slowNode
        (context "llama3.1:8b" ⟨some 2, some 1, some 0⟩ [⟨demoNode, 10000⟩, ⟨slowNode, 10000⟩]) =
          .ok t ∧ t ≤ s := by
  have weights : Admissible 2 1 0 := by constructor <;> norm_num
  have priced : ∀ e ∈ [(⟨demoNode, 10000⟩ : Eligible), ⟨slowNode, 10000⟩],
      Priced ⟨none, none, String.toLower⟩ "llama3.1:8b" e := by
    intro e member
    simp only [List.mem_cons, List.not_mem_nil, or_false] at member
    rcases member with rfl | rfl
    · exact Eq.trans (by decide +kernel) rfl
    · exact Eq.trans (by decide +kernel) rfl
  have laws := score_laws ⟨none, none, String.toLower⟩ "llama3.1:8b" 2 1 0 weights _ priced
  exact laws.2.1 ⟨demoNode, 10000⟩ List.mem_cons_self ⟨slowNode, 10000⟩
    (List.mem_cons_of_mem _ List.mem_cons_self) (by decide) le_rfl (by decide)

end NodeSelector

end X402Mesh.Registry
