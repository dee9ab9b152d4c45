import X402Mesh.Lib.WeightedDraw
import X402Mesh.Registry.Schemas
import X402Mesh.Registry.Score

set_option autoImplicit false

namespace X402Mesh.Registry.NodeSelector

open WeightedDraw

variable (options : NodeSelectorOptions)

def Eligible.id (e : Eligible) : String := e.record.registration.nodeId

def Candidate.id (c : Candidate) : String := c.record.registration.nodeId

-- The candidates of a selection, sorted and scored.
def candidatesOf (weights : ScoreWeights) (model : String) (eligible : List Eligible) :
    Except MeshError (List Candidate) :=
  (sortById eligible).mapM fun e =>
    (scoreNode options e.record (context model weights (sortById eligible))).map fun score =>
      ⟨e.record, e.price, score⟩

theorem select_eq (draw : Draw) (records : List NodeRecord) (now : Int) (model : String)
    (excluded : List String) (some_left : accepted options now model excluded records ≠ []) :
    select options draw records now model excluded =
      (candidatesOf options draw.weights model (accepted options now model excluded records)).bind
        fun candidates => (weightedChoice draw candidates).map fun chosen =>
          ⟨chosen.record, chosen.score, describeSelection chosen candidates.length model⟩ := by
  have listed : (accepted options now model excluded records).isEmpty = false := by
    simpa using some_left
  rw [select]
  simp only [listed, Bool.false_eq_true, if_false]
  rfl

theorem sortById_sorted (eligible : List Eligible) :
    (sortById eligible).Pairwise fun a b => a.id ≤ b.id := by
  let order (a b : Eligible) : Bool := a.record.registration.nodeId ≤ b.record.registration.nodeId
  have trans (a b c : Eligible) (first : order a b = true) (second : order b c = true) :
      order a c = true :=
    decide_eq_true (String.le_trans (of_decide_eq_true first) (of_decide_eq_true second))
  have total (a b : Eligible) : (order a b || order b a) = true := by
    have either := String.le_total a.record.registration.nodeId b.record.registration.nodeId
    simpa [order] using either
  have sorted := List.pairwise_mergeSort trans total eligible
  exact sorted.imp fun below => of_decide_eq_true below

theorem sortById_perm {a b : List Eligible} (same : a.Perm b) (distinct : (a.map Eligible.id).Nodup) :
    sortById a = sortById b := by
  have inA : (sortById a).Perm a := List.mergeSort_perm _ _
  have inB : (sortById b).Perm b := List.mergeSort_perm _ _
  apply List.Perm.eq_of_pairwise _ (sortById_sorted a) (sortById_sorted b)
    (inA.trans (same.trans inB.symm))
  intro x y memberX memberY below above
  exact List.inj_on_of_nodup_map distinct (inA.subset memberX)
    (same.symm.subset (inB.subset memberY)) (String.le_antisymm below above)

theorem select_perm (draw : Draw) {records others : List NodeRecord} (now : Int) (model : String)
    (excluded : List String) (same : records.Perm others)
    (distinct : ((accepted options now model excluded records).map Eligible.id).Nodup) :
    select options draw records now model excluded =
      select options draw others now model excluded := by
  have eligible : (accepted options now model excluded records).Perm
      (accepted options now model excluded others) := same.filterMap _
  have sorted := sortById_perm eligible distinct
  have empty : (accepted options now model excluded records).isEmpty =
      (accepted options now model excluded others).isEmpty := by
    rw [Bool.eq_iff_iff, List.isEmpty_iff_length_eq_zero, List.isEmpty_iff_length_eq_zero,
      eligible.length_eq]
  have tally : noCapacity options now model excluded records =
      noCapacity options now model excluded others := by
    have counts (why : Rejection) : rejected options now model excluded records why =
        rejected options now model excluded others why := same.countP_eq _
    simp only [noCapacity, counts, same.length_eq]
  simp only [select, sorted, empty, tally]

def Draw.unit (draw : Draw) : Rat :=
  match draw.rng with
  | some value => min 1 (max 0 value)
  | none => 0

def Draw.shares (draw : Draw) (candidates : List Candidate) : List Rat :=
  candidates.map fun c => c.score + draw.floor

theorem Draw.floor_pos (draw : Draw) : 0 < draw.floor := by
  unfold floor
  split
  next floor => split_ifs <;> first | assumption | norm_num [defaultWeightFloor]
  next => norm_num [defaultWeightFloor]

theorem Draw.unit_bounds (draw : Draw) : 0 ≤ draw.unit ∧ draw.unit ≤ 1 := by
  unfold unit
  split
  next => exact ⟨le_min zero_le_one (le_max_left _ _), min_le_left _ _⟩
  next => exact ⟨le_rfl, zero_le_one⟩

theorem weightedChoice_eq (draw : Draw) (candidates : List Candidate) :
    weightedChoice draw candidates =
      match walk draw.floor candidates (draw.unit * (draw.shares candidates).sum) with
      | some picked => .ok picked
      | none =>
        match candidates.getLast? with
        | some last => .ok last
        | none =>
          .error ⟨.noCapacity, "weighted selection was called with an empty candidate set", []⟩ :=
  rfl

theorem walk_pick (floor : Rat) (candidates : List Candidate) (threshold : Rat) :
    walk floor candidates threshold =
      (pick (candidates.map fun c => c.score + floor) threshold).bind (candidates[·]?) := by
  induction candidates generalizing threshold with
  | nil => rfl
  | cons candidate rest ih =>
    simp only [walk, List.map_cons, pick]
    split
    next => rfl
    next =>
      rw [ih]
      cases pick (rest.map fun c => c.score + floor) (threshold - (candidate.score + floor)) <;> rfl

theorem scoreNode_within {record : NodeRecord} {ctx : ScoreContext} {score : Rat}
    (scored : scoreNode options record ctx = .ok score) : 0 ≤ score ∧ score ≤ 1 := by
  unfold scoreNode at scored
  cases normal : normalizeWeights ctx.weights with
  | ok weights =>
    rw [normal] at scored
    obtain rfl := Except.ok.inj scored
    exact clamp01_bounds _
  | error e =>
    rw [normal] at scored
    cases scored

theorem candidatesOf_shape {weights : ScoreWeights} {model : String} {eligible : List Eligible}
    {candidates : List Candidate}
    (scored : candidatesOf options weights model eligible = .ok candidates) :
    candidates.map (fun c => (⟨c.record, c.price⟩ : Eligible)) = sortById eligible ∧
      ∀ c ∈ candidates, 0 ≤ c.score ∧ c.score ≤ 1 := by
  unfold candidatesOf at scored
  generalize context model weights (sortById eligible) = ctx at scored
  generalize sortById eligible = sorted at scored
  induction sorted generalizing candidates with
  | nil =>
    obtain rfl := Except.ok.inj scored
    simp
  | cons e rest ih =>
    rw [List.mapM_cons] at scored
    cases first : scoreNode options e.record ctx with
    | error why => rw [first] at scored; cases scored
    | ok score =>
      rw [first] at scored
      cases others : rest.mapM fun e =>
          (scoreNode options e.record ctx).map fun score => (⟨e.record, e.price, score⟩ : Candidate) with
      | error why =>
        rw [others] at scored
        cases scored
      | ok tail =>
        rw [others] at scored
        obtain rfl := Except.ok.inj scored
        obtain ⟨shape, bounds⟩ := ih others
        refine ⟨by rw [List.map_cons, shape], fun c member => ?_⟩
        cases List.mem_cons.mp member with
        | inl same => rw [same]; exact scoreNode_within options first
        | inr later => exact bounds c later

section Scored

variable {candidates : List Candidate} (bounds : ∀ c ∈ candidates, 0 ≤ c.score ∧ c.score ≤ 1)

include bounds

theorem shares_within (draw : Draw) :
    ∀ w ∈ draw.shares candidates, draw.floor ≤ w ∧ w ≤ 1 + draw.floor := by
  intro w member
  obtain ⟨c, listed, rfl⟩ := List.mem_map.mp member
  have score := bounds c listed
  constructor <;> linarith

theorem shares_pos (draw : Draw) : ∀ w ∈ draw.shares candidates, 0 < w :=
  fun w member => draw.floor_pos.trans_le (shares_within bounds draw w member).1

theorem weightedChoice_chosen (draw : Draw) (some_left : candidates ≠ []) :
    ∃ inside : chosen (draw.shares candidates) draw.unit < candidates.length,
      weightedChoice draw candidates =
        .ok candidates[chosen (draw.shares candidates) draw.unit] := by
  have length : (draw.shares candidates).length = candidates.length := List.length_map _
  have positive := shares_pos bounds draw
  have start : 0 ≤ draw.unit * (draw.shares candidates).sum :=
    mul_nonneg draw.unit_bounds.1 (List.sum_nonneg fun w member => (positive w member).le)
  have walked : walk draw.floor candidates (draw.unit * (draw.shares candidates).sum) = _ :=
    walk_pick draw.floor candidates _
  rw [← Draw.shares] at walked
  rw [weightedChoice_eq, walked]
  cases found : pick (draw.shares candidates) (draw.unit * (draw.shares candidates).sum) with
  | none =>
    have last : chosen (draw.shares candidates) draw.unit = candidates.length - 1 := by
      rw [chosen, found, length]
      rfl
    have positive := List.length_pos_iff.mpr some_left
    refine ⟨by omega, ?_⟩
    simp only [last, Option.bind_none, List.getLast?_eq_some_getLast some_left,
      List.getLast_eq_getElem]
  | some i =>
    have within := (pick_eq_some positive start i).mp found
    have taken : chosen (draw.shares candidates) draw.unit = i := by
      rw [chosen, found]
      rfl
    have inside : i < candidates.length := length ▸ within.1
    refine ⟨by omega, ?_⟩
    simp only [taken, Option.bind_some, List.getElem?_eq_getElem inside]

end Scored

section Selected

variable {draw : Draw} {records : List NodeRecord} {now : Int} {model : String}
  {excluded : List String} {candidates : List Candidate}
  (distinct : ((accepted options now model excluded records).map Eligible.id).Nodup)
  (scored : candidatesOf options draw.weights model (accepted options now model excluded records) =
    .ok candidates)

include distinct scored

theorem candidates_ordered : (candidates.map Candidate.id).Pairwise (· < ·) := by
  obtain ⟨shape, -⟩ := candidatesOf_shape options scored
  have ids : candidates.map Candidate.id =
      (sortById (accepted options now model excluded records)).map Eligible.id := by
    rw [← shape, List.map_map]
    rfl
  have apart : ((sortById (accepted options now model excluded records)).map Eligible.id).Nodup :=
    ((List.mergeSort_perm _ _).map Eligible.id).nodup_iff.mpr distinct
  have sorted := List.pairwise_map.mpr (sortById_sorted (accepted options now model excluded records))
  rw [ids]
  refine (sorted.and apart).imp fun both => ?_
  exact String.not_le.mp fun above => both.2 (String.le_antisymm both.1 above)

theorem select_iff {i : Nat} (inside : i < candidates.length) :
    (∃ score reason, select options draw records now model excluded =
      .ok ⟨candidates[i].record, score, reason⟩) ↔
        chosen (draw.shares candidates) draw.unit = i := by
  obtain ⟨shape, bounds⟩ := candidatesOf_shape options scored
  have some_left : candidates ≠ [] := List.length_pos_iff.mp (Nat.zero_lt_of_lt inside)
  have eligible : accepted options now model excluded records ≠ [] := by
    intro none_left
    have nothing : sortById [] = [] := List.mergeSort_nil
    rw [none_left, nothing] at shape
    exact some_left (List.map_eq_nil_iff.mp shape)
  obtain ⟨reached, picked⟩ := weightedChoice_chosen bounds draw some_left
  have outcome := select_eq options draw records now model excluded eligible
  rw [scored, Except.bind, picked, Except.map] at outcome
  rw [outcome]
  constructor
  next =>
    intro same
    obtain ⟨score, reason, same⟩ := same
    have record := congrArg NodeSelection.node (Except.ok.inj same)
    have ids : (candidates.map Candidate.id)[chosen (draw.shares candidates) draw.unit]? =
        (candidates.map Candidate.id)[i]? := by
      simpa [Candidate.id, reached, inside] using
        congrArg (fun r : NodeRecord => r.registration.nodeId) record
    have apart : (candidates.map Candidate.id).Nodup := by
      refine List.Pairwise.imp ?_ (candidates_ordered options distinct scored)
      intro a b order same
      exact String.lt_irrefl b (same ▸ order)
    exact List.getElem?_inj (by simpa using reached) apart |>.mp ids
  next =>
    rintro rfl
    exact ⟨_, _, rfl⟩

end Selected

/-- The draw is exact, and the order of the store plays no part in it. -/
theorem draw_exact (draw : Draw) (now : Int) (model : String) (excluded : List String)
    (records : List NodeRecord)
    (distinct : ((accepted options now model excluded records).map Eligible.id).Nodup) :
    (∀ others, records.Perm others → select options draw records now model excluded =
      select options draw others now model excluded) ∧
    ∀ candidates, candidatesOf options draw.weights model
        (accepted options now model excluded records) = .ok candidates →
      (candidates.map Candidate.id).Pairwise (· < ·) ∧
      ∀ (i : Nat) (inside : i < candidates.length),
        let shares := draw.shares candidates
        let returned (draw : Draw) := ∃ score reason, select options draw records now model excluded =
          .ok ⟨candidates[i].record, score, reason⟩
        (returned draw ↔ ((shares.take i).sum ≤ draw.unit * shares.sum ∧
            draw.unit * shares.sum < (shares.take i).sum + (candidates[i].score + draw.floor)) ∨
          (draw.unit = 1 ∧ i + 1 = candidates.length)) ∧
        ∃ opens closes, 0 ≤ opens ∧ closes ≤ 1 ∧
          draw.floor / (candidates.length * (1 + draw.floor)) ≤ closes - opens ∧
          ∀ unit : Rat, 0 ≤ unit → unit < 1 →
            (returned { draw with rng := some unit } ↔ opens ≤ unit ∧ unit < closes) := by
  refine ⟨fun others same => select_perm options draw now model excluded same distinct, ?_⟩
  intro candidates scored
  obtain ⟨-, bounds⟩ := candidatesOf_shape options scored
  refine ⟨candidates_ordered options distinct scored, ?_⟩
  intro i inside shares returned
  have length : shares.length = candidates.length := List.length_map _
  have positive : ∀ w ∈ shares, 0 < w := shares_pos bounds draw
  have within : i < shares.length := by omega
  have total : 0 < shares.sum :=
    List.sum_pos _ positive (List.length_pos_iff.mp (Nat.zero_lt_of_lt within))
  have own : shares[i] = candidates[i].score + draw.floor := by simp [shares, Draw.shares]
  have upTo : before shares (i + 1) = before shares i + shares[i] := before_succ within
  have unit := draw.unit_bounds
  constructor
  next =>
    have interval := chosen_iff positive unit.1 unit.2 within
    rw [upTo, own, length] at interval
    exact (select_iff options distinct scored inside).trans interval
  next =>
    refine ⟨before shares i / shares.sum, before shares (i + 1) / shares.sum,
      div_nonneg (before_nonneg positive i) total.le,
      (div_le_one total).mpr (before_le_sum positive (i + 1)), ?_, ?_⟩
    · have share := share_ge draw.floor_pos (shares_within bounds draw) within
      rw [← sub_div, upTo, add_sub_cancel_left]
      rwa [length] at share
    · intro value low high
      let pinned : Draw := { draw with rng := some value }
      have drawn : pinned.unit = value := by
        simp only [Draw.unit, pinned]
        rw [max_eq_right low, min_eq_right high.le]
      have interval := chosen_iff positive low high.le within
      have short : value ≠ 1 := high.ne
      have weighed : candidatesOf options pinned.weights model
          (accepted options now model excluded records) = .ok candidates := scored
      have same : returned pinned ↔ chosen shares pinned.unit = i :=
        select_iff options distinct weighed inside
      rw [drawn, interval] at same
      rw [same, div_le_iff₀ total, lt_div_iff₀ total]
      simp [short]

def slowNode : NodeRecord :=
  { demoNode with
    registration := { demoNode.registration with nodeId := "node-b" }
    health := { demoNode.health with nodeId := "node-b", latencyMsP95 := 120 } }

def demoOptions : NodeSelectorOptions := ⟨none, none, String.toLower⟩

theorem accepted_two_nodes :
    accepted demoOptions 1700000000000 "llama3.1:8b" [] [demoNode, slowNode] =
      [⟨demoNode, 10000⟩, ⟨slowNode, 10000⟩] := by
  have first : filter demoOptions 1700000000000 "llama3.1:8b" [] demoNode = .ok 10000 := by
    decide +kernel
  have second : filter demoOptions 1700000000000 "llama3.1:8b" [] slowNode = .ok 10000 := by
    decide +kernel
  simp only [accepted, List.filterMap_cons, List.filterMap_nil, first, second]

theorem candidates_two_nodes :
    candidatesOf demoOptions defaultWeights "llama3.1:8b"
        [⟨demoNode, 10000⟩, ⟨slowNode, 10000⟩] =
      .ok [⟨demoNode, 10000, 1⟩, ⟨slowNode, 10000, 3 / 5⟩] := by
  have sorted : sortById [⟨demoNode, 10000⟩, ⟨slowNode, 10000⟩] =
      [⟨demoNode, 10000⟩, ⟨slowNode, 10000⟩] := List.mergeSort_of_pairwise (by decide +kernel)
  have first : scoreNode demoOptions demoNode (context "llama3.1:8b" defaultWeights
      [⟨demoNode, 10000⟩, ⟨slowNode, 10000⟩]) = .ok 1 := by
    decide +kernel
  have second : scoreNode demoOptions slowNode (context "llama3.1:8b" defaultWeights
      [⟨demoNode, 10000⟩, ⟨slowNode, 10000⟩]) = .ok (3 / 5) := by
    decide +kernel
  rw [candidatesOf, sorted, List.mapM_cons, List.mapM_cons, List.mapM_nil, first, second]
  rfl

-- Weights of 21/20 and 13/20: half of the total falls in the first of the two intervals.
theorem draw_exact_two_nodes :
    let selected (unit : Rat) (records : List NodeRecord) :=
      select demoOptions ⟨defaultWeights, none, some unit⟩ records 1700000000000 "llama3.1:8b" []
    selected (1 / 2) [demoNode, slowNode] = selected (1 / 2) [slowNode, demoNode] ∧
      (∃ score reason, selected (1 / 2) [demoNode, slowNode] = .ok ⟨demoNode, score, reason⟩) ∧
      ∃ opens closes : Rat, 0 ≤ opens ∧ closes ≤ 1 ∧ 1 / 42 ≤ closes - opens ∧
        ∀ unit : Rat, 0 ≤ unit → unit < 1 →
          ((∃ score reason, selected unit [demoNode, slowNode] = .ok ⟨slowNode, score, reason⟩) ↔
            opens ≤ unit ∧ unit < closes) := by
  intro selected
  obtain ⟨order, exact⟩ := draw_exact demoOptions ⟨defaultWeights, none, some (1 / 2)⟩
    1700000000000 "llama3.1:8b" [] [demoNode, slowNode] (by rw [accepted_two_nodes]; decide)
  rw [accepted_two_nodes] at exact
  obtain ⟨-, each⟩ := exact _ candidates_two_nodes
  obtain ⟨drawn, -⟩ := each 0 (by decide)
  obtain ⟨-, opens, closes, least, most, share, interval⟩ := each 1 (by decide)
  refine ⟨order _ (List.Perm.swap slowNode demoNode []), ?_, ?_⟩
  · exact drawn.mpr (.inl (by decide +kernel))
  · refine ⟨opens, closes, least, most, le_trans (by decide +kernel) share, interval⟩

end X402Mesh.Registry.NodeSelector
