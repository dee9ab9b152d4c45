import X402Mesh.Lib.Utf8Decoder
import X402Mesh.Registry.Selector

set_option autoImplicit false

-- As with the ratios of a node's health, the arithmetic is that of the rationals.

namespace X402Mesh.Registry

/-- A weight that is NaN or infinite is none. -/
structure ScoreWeights where
  latency : Option Rat
  price : Option Rat
  quality : Option Rat
  deriving DecidableEq

def defaultWeights : ScoreWeights := ⟨some (4 / 10), some (3 / 10), some (3 / 10)⟩

structure ScoreContext where
  model : String
  minLatencyMs : Rat
  maxLatencyMs : Rat
  minPriceAtomic : Int
  maxPriceAtomic : Int
  weights : ScoreWeights

def ratioScale : Int := 1000000

def checkWeight (name : String) : Option Rat → Except MeshError Rat
  | some value =>
    if value < 0 then
      .error ⟨.config, "scoring weight \"" ++ name ++ "\" must be a non-negative finite number",
        [("weight", name)]⟩
    else .ok value
  | none =>
    .error ⟨.config, "scoring weight \"" ++ name ++ "\" must be a non-negative finite number",
      [("weight", name)]⟩

-- The latency, the price and the quality.
def normalizeWeights (w : ScoreWeights) : Except MeshError (Rat × Rat × Rat) := do
  let latency ← checkWeight "latency" w.latency
  let price ← checkWeight "price" w.price
  let quality ← checkWeight "quality" w.quality
  let total := latency + price + quality
  if total ≤ 0 then .error ⟨.config, "scoring weights must not all be zero", []⟩
  else return (latency / total, price / total, quality / total)

def normalizeNumber (value low high : Rat) : Rat :=
  if high - low ≤ 0 then 0 else clamp01 ((value - low) / (high - low))

def normalizeAtomic (value low high : Int) : Rat :=
  let span := high - low
  let offset := value - low
  if span ≤ 0 then 0
  else if offset ≤ 0 then 0
  else if offset ≥ span then 1
  else ((offset * ratioScale / span : Int) : Rat) / ratioScale

namespace NodeSelector

variable (options : NodeSelectorOptions)

def scoreNode (record : NodeRecord) (ctx : ScoreContext) : Except MeshError Rat := do
  let (latency, price, quality) ← normalizeWeights ctx.weights
  let latencyTerm :=
    1 - normalizeNumber record.health.latencyMsP95 ctx.minLatencyMs ctx.maxLatencyMs
  let priceTerm :=
    match nodePriceAtomic options record ctx.model with
    | none => 0
    | some quoted => 1 - normalizeAtomic quoted ctx.minPriceAtomic ctx.maxPriceAtomic
  let qualityTerm := clamp01 record.health.qualityScore
  return clamp01 (latency * latencyTerm + price * priceTerm + quality * qualityTerm)

structure Eligible where
  record : NodeRecord
  price : Int

structure Candidate where
  record : NodeRecord
  price : Int
  score : Rat

/-- The reason is the UTF-16 units of a text. -/
structure NodeSelection where
  node : NodeRecord
  score : Rat
  reason : List Nat

-- `rng` is what the source of randomness answers, none where that is not finite.
structure Draw where
  weights : ScoreWeights
  weightFloor : Option Rat
  rng : Option Rat

def defaultWeightFloor : Rat := 5 / 100

def Draw.floor (draw : Draw) : Rat :=
  match draw.weightFloor with
  | some floor => if 0 < floor then floor else defaultWeightFloor
  | none => defaultWeightFloor

def accepted (now : Int) (model : String) (excluded : List String) (records : List NodeRecord) :
    List Eligible :=
  records.filterMap fun record =>
    match filter options now model excluded record with
    | .ok price => some ⟨record, price⟩
    | .error _ => none

-- Node ids are ASCII, where the order of code points is that of UTF-16 units.
def sortById (eligible : List Eligible) : List Eligible :=
  eligible.mergeSort fun a b => a.record.registration.nodeId ≤ b.record.registration.nodeId

def context (model : String) (weights : ScoreWeights) (eligible : List Eligible) : ScoreContext where
  model := model
  minLatencyMs := ((eligible.map (·.record.health.latencyMsP95)).min?).getD 0
  maxLatencyMs := ((eligible.map (·.record.health.latencyMsP95)).max?).getD 0
  minPriceAtomic := ((eligible.map (·.price)).min?).getD 0
  maxPriceAtomic := ((eligible.map (·.price)).max?).getD 0
  weights := weights

-- The first candidate that takes the threshold below zero.
def walk (floor : Rat) : List Candidate → Rat → Option Candidate
  | [], _ => none
  | candidate :: rest, threshold =>
    let threshold := threshold - (candidate.score + floor)
    if threshold < 0 then some candidate else walk floor rest threshold

def weightedChoice (draw : Draw) (candidates : List Candidate) : Except MeshError Candidate :=
  let total := (candidates.map fun c => c.score + draw.floor).sum
  let unit :=
    match draw.rng with
    | some value => min 1 (max 0 value)
    | none => 0
  match walk draw.floor candidates (unit * total) with
  | some picked => .ok picked
  | none =>
    match candidates.getLast? with
    | some last => .ok last
    | none => .error ⟨.noCapacity, "weighted selection was called with an empty candidate set", []⟩

-- `toFixed`: the nearer decimal, and the larger one on a tie.
def toFixed (digits : Nat) (value : Rat) : String :=
  let scaled := (|value| * 10 ^ digits + 1 / 2).floor.toNat
  let decimals := Nat.toDigits 10 (scaled % 10 ^ digits)
  (if value < 0 then "-" else "") ++ toString (scaled / 10 ^ digits) ++ "." ++
    String.ofList (List.replicate (digits - decimals.length) '0' ++ decimals)

def mathRound (value : Rat) : Int := (value + 1 / 2).floor

def maxReason : Nat := 512

def describeSelection (chosen : Candidate) (candidateCount : Nat) (model : String) : List Nat :=
  let h := chosen.record.health
  let reason :=
    "selected " ++ chosen.record.registration.nodeId ++ " for \"" ++ model ++ "\" with score " ++
      toFixed 4 chosen.score ++ " from " ++ toString candidateCount ++ " candidate" ++
      (if candidateCount = 1 then "" else "s") ++ ": p50 " ++ toString (mathRound h.latencyMsP50) ++
      "ms, p95 " ++ toString (mathRound h.latencyMsP95) ++ "ms, price " ++
      Money.atomicToUsdc chosen.price ++ " USDC/1k tokens, quality " ++ toFixed 3 h.qualityScore ++
      ", uptime " ++ toFixed 3 h.uptimeRatio ++ ", load " ++ toString h.inFlight ++ "/" ++
      toString h.maxConcurrency
  (Utf8.units reason.toList).take maxReason

def select (draw : Draw) (records : List NodeRecord) (now : Int) (model : String)
    (excluded : List String) : Except MeshError NodeSelection := do
  let eligible := accepted options now model excluded records
  if eligible.isEmpty then .error (noCapacity options now model excluded records)
  else
    let eligible := sortById eligible
    let ctx := context model draw.weights eligible
    let candidates ← eligible.mapM fun e =>
      (scoreNode options e.record ctx).map fun score => (⟨e.record, e.price, score⟩ : Candidate)
    let chosen ← weightedChoice draw candidates
    return ⟨chosen.record, chosen.score, describeSelection chosen candidates.length model⟩

theorem mem_accepted {now : Int} {model : String} {excluded : List String}
    {records : List NodeRecord} {e : Eligible} :
    e ∈ accepted options now model excluded records ↔
      e.record ∈ records ∧ filter options now model excluded e.record = .ok e.price := by
  unfold accepted
  rw [List.mem_filterMap]
  constructor
  · rintro ⟨record, member, kept⟩
    cases passes : filter options now model excluded record with
    | ok price =>
      simp only [passes, Option.some.injEq] at kept
      subst kept
      exact ⟨member, passes⟩
    | error why => simp [passes] at kept
  · rintro ⟨member, passes⟩
    exact ⟨e.record, member, by rw [passes]⟩

theorem walk_mem {floor : Rat} {candidates : List Candidate} {threshold : Rat} {picked : Candidate}
    (walked : walk floor candidates threshold = some picked) : picked ∈ candidates := by
  induction candidates generalizing threshold with
  | nil => cases walked
  | cons candidate rest ih =>
    unfold walk at walked
    dsimp only at walked
    split at walked
    next =>
      cases walked
      exact List.mem_cons_self
    next => exact List.mem_cons_of_mem candidate (ih walked)

theorem weightedChoice_mem (draw : Draw) {candidates : List Candidate} (some_left : candidates ≠ []) :
    ∃ chosen, weightedChoice draw candidates = .ok chosen ∧ chosen ∈ candidates := by
  unfold weightedChoice
  dsimp only
  split
  next picked walked => exact ⟨picked, rfl, walk_mem walked⟩
  next =>
    rw [List.getLast?_eq_some_getLast some_left]
    exact ⟨_, rfl, List.getLast_mem some_left⟩

theorem scoreNode_ok (record : NodeRecord) {ctx : ScoreContext}
    (admissible : (normalizeWeights ctx.weights).isOk = true) :
    ∃ score, scoreNode options record ctx = .ok score := by
  unfold scoreNode
  cases normal : normalizeWeights ctx.weights with
  | ok weights => exact ⟨_, rfl⟩
  | error e => simp [normal, Except.isOk, Except.toBool] at admissible

theorem scored_ok (eligible : List Eligible) {ctx : ScoreContext}
    (admissible : (normalizeWeights ctx.weights).isOk = true) :
    ∃ candidates, (eligible.mapM fun e =>
        (scoreNode options e.record ctx).map fun score => (⟨e.record, e.price, score⟩ : Candidate)) =
          .ok candidates ∧
      candidates.map (fun c => (⟨c.record, c.price⟩ : Eligible)) = eligible := by
  induction eligible with
  | nil => exact ⟨[], rfl, rfl⟩
  | cons e rest ih =>
    obtain ⟨score, scored⟩ := scoreNode_ok options e.record admissible
    obtain ⟨candidates, later, same⟩ := ih
    refine ⟨⟨e.record, e.price, score⟩ :: candidates, ?_, by rw [List.map_cons, same]⟩
    rw [List.mapM_cons, scored, later]
    rfl

theorem select_cases (draw : Draw) (records : List NodeRecord) (now : Int) (model : String)
    (excluded : List String) (admissible : (normalizeWeights draw.weights).isOk = true) :
    (accepted options now model excluded records = [] ∧
        select options draw records now model excluded =
          .error (noCapacity options now model excluded records)) ∨
      ∃ e ∈ accepted options now model excluded records, ∃ score reason,
        select options draw records now model excluded = .ok ⟨e.record, score, reason⟩ := by
  unfold select
  dsimp only
  cases found : accepted options now model excluded records with
  | nil => exact .inl ⟨rfl, rfl⟩
  | cons first rest =>
    have weighed : (normalizeWeights
        (context model draw.weights (sortById (first :: rest))).weights).isOk = true := admissible
    obtain ⟨candidates, scored, same⟩ := scored_ok options (sortById (first :: rest)) weighed
    have some_left : candidates ≠ [] := by
      intro none_left
      have length := congrArg List.length same
      simp [none_left, sortById] at length
    obtain ⟨chosen, picked, member⟩ := weightedChoice_mem draw some_left
    have sorted : (⟨chosen.record, chosen.price⟩ : Eligible) ∈ sortById (first :: rest) := by
      rw [← same]
      exact List.mem_map_of_mem (f := fun c : Candidate => (⟨c.record, c.price⟩ : Eligible)) member
    refine .inr ⟨_, List.mem_mergeSort.mp sorted, chosen.score,
      describeSelection chosen candidates.length model, ?_⟩
    simp only [List.isEmpty_cons, Bool.false_eq_true, if_false, scored]
    change (weightedChoice draw candidates >>= _) = _
    rw [picked]
    rfl

theorem scored_error {eligible : List Eligible} (some_left : eligible ≠ []) {ctx : ScoreContext}
    (refused : (normalizeWeights ctx.weights).isOk = false) :
    ∃ e, (eligible.mapM fun e =>
      (scoreNode options e.record ctx).map fun score => (⟨e.record, e.price, score⟩ : Candidate)) =
        .error e := by
  cases eligible with
  | nil => exact absurd rfl some_left
  | cons first rest =>
    cases normal : normalizeWeights ctx.weights with
    | ok weights => simp [normal, Except.isOk, Except.toBool] at refused
    | error e =>
      refine ⟨e, ?_⟩
      rw [List.mapM_cons, scoreNode, normal]
      rfl

theorem select_mem {draw : Draw} {records : List NodeRecord} {now : Int} {model : String}
    {excluded : List String} {selection : NodeSelection}
    (selected : select options draw records now model excluded = .ok selection) :
    ∃ e ∈ accepted options now model excluded records, selection.node = e.record := by
  cases admissible : (normalizeWeights draw.weights).isOk with
  | true =>
    rcases select_cases options draw records now model excluded admissible with
      ⟨-, refused⟩ | ⟨e, member, score, reason, chosen⟩
    · rw [selected] at refused
      cases refused
    · rw [selected] at chosen
      obtain rfl := Except.ok.inj chosen
      exact ⟨e, member, rfl⟩
  | false =>
    unfold select at selected
    dsimp only at selected
    cases found : accepted options now model excluded records with
    | nil =>
      rw [found] at selected
      cases selected
    | cons first rest =>
      have some_left : sortById (first :: rest) ≠ [] := by
        intro none_left
        have length := congrArg List.length none_left
        simp [sortById] at length
      have refused : (normalizeWeights
          (context model draw.weights (sortById (first :: rest))).weights).isOk = false := admissible
      obtain ⟨e, failed⟩ := scored_error options some_left refused
      rw [found] at selected
      simp only [List.isEmpty_cons, Bool.false_eq_true, if_false, failed] at selected
      cases selected

end NodeSelector

end X402Mesh.Registry
