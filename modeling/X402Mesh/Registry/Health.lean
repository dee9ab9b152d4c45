import X402Mesh.Registry.Fallback
import X402Mesh.Registry.Schemas

set_option autoImplicit false

namespace X402Mesh.Registry

variable (sdk : Sdk)

def StoreOp.valid : StoreOp → Bool
  | .upsert record => record.valid sdk
  | _ => true

def MemoryNodeStore.run (store : MemoryNodeStore) (ops : List StoreOp) : MemoryNodeStore :=
  ops.foldl StoreOp.onMemory store

def outcomeOf (nodeId : String) : StoreOp → Option RequestOutcome
  | .recordOutcome other o => if other = nodeId then some (normalizeOutcome o) else none
  | _ => none

def outcomes (nodeId : String) (ops : List StoreOp) : List RequestOutcome :=
  ops.filterMap (outcomeOf nodeId)

def countInFlight (nodeId : String) (count : Nat) : StoreOp → Nat
  | .beginRequest other => if other = nodeId then count + 1 else count
  | .endRequest other => if other = nodeId then count - 1 else count
  | _ => count

def inFlightAfter (nodeId : String) (start : Nat) (ops : List StoreOp) : Nat :=
  ops.foldl (countInFlight nodeId) start

structure Measured where
  latencyMsP50 : Rat
  latencyMsP95 : Rat
  uptimeRatio : Rat
  qualityScore : Rat
  consecutiveFailures : Nat
  deriving DecidableEq

def NodeHealth.measured (health : NodeHealth) : Measured :=
  ⟨health.latencyMsP50, health.latencyMsP95, health.uptimeRatio, health.qualityScore,
    health.consecutiveFailures⟩

def measure (window : List RequestOutcome) : Measured :=
  let latencies := (window.map (·.latencyMs)).mergeSort (· ≤ ·)
  let uptimeRatio := clamp01 ((window.countP (·.success) : Rat) / window.length)
  let failurePenalty := max 0 (1 - (failureStreak window : Rat) / unhealthyConsecutiveFailures)
  ⟨percentile latencies 50, percentile latencies 95, uptimeRatio,
    clamp01 (uptimeRatio * failurePenalty), failureStreak window⟩

def lastThreeFailed (outcomes : List RequestOutcome) : Prop :=
  ∃ earlier a b c, outcomes = earlier ++ [a, b, c] ∧
    a.success = false ∧ b.success = false ∧ c.success = false

-- `ops` are the calls since the first upsert of the node.
structure NonForgeable (nodeId : String) (first : NodeRecord) (ops : List StoreOp)
    (record : NodeRecord) : Prop where
  measured : outcomes nodeId ops ≠ [] →
    record.health.measured = measure (MemoryNodeStore.bounded (outcomes nodeId ops))
  inFlight : record.health.inFlight = inFlightAfter nodeId first.health.inFlight ops
  registeredAt : record.registeredAt = first.registeredAt
  verdict : record.health.healthy = true → ¬ lastThreeFailed (outcomes nodeId ops)

structure Advances (earlier later : NodeRecord) : Prop where
  totalRequests : earlier.totalRequests ≤ later.totalRequests
  totalPaid : Money.decimalValue earlier.totalPaidAtomic.toList ≤
    Money.decimalValue later.totalPaidAtomic.toList
  lastSeenAt : earlier.health.lastSeenAt ≤ later.health.lastSeenAt

theorem Advances.refl (record : NodeRecord) : Advances record record :=
  ⟨le_refl _, le_refl _, le_refl _⟩

theorem Advances.trans {a b c : NodeRecord} (first : Advances a b) (second : Advances b c) :
    Advances a c :=
  ⟨le_trans first.totalRequests second.totalRequests, le_trans first.totalPaid second.totalPaid,
    le_trans first.lastSeenAt second.lastSeenAt⟩

theorem deriveHealth_measured (base : NodeHealth) {window : List RequestOutcome}
    (some_outcome : window ≠ []) : (deriveHealth base window).measured = measure window := by
  simp [deriveHealth, some_outcome, NodeHealth.measured, measure]

theorem mergeRecord_measured (existing incoming : NodeRecord) {window : List RequestOutcome}
    (some_outcome : window ≠ []) :
    (mergeRecord (some existing) incoming window).health.measured = measure window ∧
      ((mergeRecord (some existing) incoming window).health.healthy = true →
        failureStreak window < unhealthyConsecutiveFailures) := by
  have empty : window.isEmpty = false := by simpa using some_outcome
  constructor
  · rw [← deriveHealth_measured { incoming.health with
      inFlight := existing.health.inFlight
      lastSeenAt := max existing.health.lastSeenAt incoming.health.lastSeenAt } some_outcome]
    simp only [mergeRecord, empty, Bool.false_eq_true, if_false]
    rfl
  · intro healthy
    simp only [mergeRecord, empty, Bool.false_eq_true, if_false, Bool.and_eq_true] at healthy
    simpa [deriveHealth, some_outcome] using healthy.2

theorem maxAtomic_decimal {a b : String} (left : Text.isDecimal a.toList = true)
    (right : Text.isDecimal b.toList = true) :
    Text.isDecimal (maxAtomic a b).toList = true ∧
      Money.decimalValue a.toList ≤ Money.decimalValue (maxAtomic a b).toList := by
  simp only [maxAtomic, tryAtomic, left, right, if_true]
  split
  next => exact ⟨left, le_refl _⟩
  next smaller => exact ⟨right, by omega⟩

theorem mergeRecord_advances (existing incoming : NodeRecord) (window : List RequestOutcome)
    (held : Text.isDecimal existing.totalPaidAtomic.toList = true)
    (valid : Text.isDecimal incoming.totalPaidAtomic.toList = true) :
    Advances existing (mergeRecord (some existing) incoming window) := by
  have seen := mergeRecord_seen_max existing incoming window
  exact ⟨le_max_left _ _, (maxAtomic_decimal held valid).2, le_trans (le_max_left _ _) seen⟩

theorem valid_total {record : NodeRecord} (valid : record.valid sdk = true) :
    Text.isDecimal record.totalPaidAtomic.toList = true := by
  unfold NodeRecord.valid parseNodeRecord at valid
  split at valid
  next fits =>
    simp only [Bool.and_eq_true] at fits
    exact fits.1.2
  next => cases valid

namespace MemoryNodeStore

theorem bounded_push (window : List RequestOutcome) (o : RequestOutcome) :
    bounded (bounded window ++ [o]) = bounded (window ++ [o]) := by
  have front : bounded window ++ [o] =
      (window ++ [o]).drop (window.length - healthWindowSize) :=
    (List.drop_append_of_le_length (Nat.sub_le _ _)).symm
  have cut : window.length - healthWindowSize +
      ((bounded window ++ [o]).length - healthWindowSize) =
        (window ++ [o]).length - healthWindowSize := by
    simp only [bounded, List.length_drop, List.length_append, List.length_singleton,
      healthWindowSize]
    omega
  calc bounded (bounded window ++ [o])
      = (bounded window ++ [o]).drop ((bounded window ++ [o]).length - healthWindowSize) := rfl
    _ = (window ++ [o]).drop (window.length - healthWindowSize +
          ((bounded window ++ [o]).length - healthWindowSize)) := by
        rw [← List.drop_drop, ← front]
    _ = bounded (window ++ [o]) := by rw [cut, bounded]

end MemoryNodeStore

open MemoryNodeStore

theorem outcomes_concat (nodeId : String) (ops : List StoreOp) (op : StoreOp) :
    outcomes nodeId (ops ++ [op]) = outcomes nodeId ops ++ (outcomeOf nodeId op).toList := by
  unfold outcomes
  rw [List.filterMap_append]
  cases noted : outcomeOf nodeId op <;> simp [noted]

theorem inFlightAfter_concat (nodeId : String) (start : Nat) (ops : List StoreOp) (op : StoreOp) :
    inFlightAfter nodeId start (ops ++ [op]) =
      countInFlight nodeId (inFlightAfter nodeId start ops) op := by
  simp [inFlightAfter]

-- The cut of the window never reaches its last three entries.
theorem streak_of_failed {recorded : List RequestOutcome} (failed : lastThreeFailed recorded) :
    unhealthyConsecutiveFailures ≤ failureStreak (bounded recorded) := by
  obtain ⟨earlier, a, b, c, rfl, first, second, third⟩ := failed
  have kept : bounded (earlier ++ [a, b, c]) =
      earlier.drop ((earlier ++ [a, b, c]).length - healthWindowSize) ++ [a] ++ [b] ++ [c] := by
    unfold bounded
    rw [List.drop_append_of_le_length]
    · simp
    · simp only [List.length_append, List.length_cons, List.length_nil, healthWindowSize]
      omega
  rw [kept]
  simp only [failureStreak_concat, first, second, third, unhealthyConsecutiveFailures,
    Bool.false_eq_true, if_false]
  omega

structure Attested (nodeId : String) (first : NodeRecord) (ops : List StoreOp)
    (store : MemoryNodeStore) (record : NodeRecord) : Prop where
  found : store.get nodeId = some record
  window : store.window nodeId = bounded (outcomes nodeId ops)
  measured : outcomes nodeId ops ≠ [] →
    record.health.measured = measure (bounded (outcomes nodeId ops))
  healthy : outcomes nodeId ops ≠ [] → record.health.healthy = true →
    failureStreak (bounded (outcomes nodeId ops)) < unhealthyConsecutiveFailures
  inFlight : record.health.inFlight = inFlightAfter nodeId first.health.inFlight ops
  registeredAt : record.registeredAt = first.registeredAt
  total : Text.isDecimal record.totalPaidAtomic.toList = true

theorem Attested.nonForgeable {nodeId : String} {first record : NodeRecord} {ops : List StoreOp}
    {store : MemoryNodeStore} (held : Attested nodeId first ops store record) :
    NonForgeable nodeId first ops record where
  measured := held.measured
  inFlight := held.inFlight
  registeredAt := held.registeredAt
  verdict := by
    intro healthy failed
    have streak := streak_of_failed failed
    obtain ⟨earlier, a, b, c, recorded, -⟩ := failed
    have below := held.healthy (by simp [recorded]) healthy
    omega

theorem bounded_eq_nil {window : List RequestOutcome} : bounded window = [] ↔ window = [] := by
  simp only [bounded, List.drop_eq_nil_iff, healthWindowSize]
  constructor
  · intro short
    cases window with
    | nil => rfl
    | cons o rest =>
      simp only [List.length_cons] at short
      omega
  · rintro rfl
    simp

theorem silent_elsewhere {nodeId : String} {op : StoreOp} (other : nodeId ≠ op.nodeId)
    (count : Nat) : outcomeOf nodeId op = none ∧ countInFlight nodeId count op = count := by
  cases op <;> simp_all [outcomeOf, countInFlight, StoreOp.nodeId, eq_comm]

-- A call that brings no outcome and leaves the measures as they are.
theorem Attested.quiet {nodeId : String} {first record later : NodeRecord} {ops : List StoreOp}
    {store : MemoryNodeStore} {op : StoreOp} (held : Attested nodeId first ops store record)
    (silent : outcomeOf nodeId op = none) (found : (op.onMemory store).get nodeId = some later)
    (window : (op.onMemory store).window nodeId = store.window nodeId)
    (measured : outcomes nodeId ops ≠ [] →
      later.health.measured = measure (bounded (outcomes nodeId ops)))
    (healthy : outcomes nodeId ops ≠ [] → later.health.healthy = true →
      failureStreak (bounded (outcomes nodeId ops)) < unhealthyConsecutiveFailures)
    (inFlight : later.health.inFlight = countInFlight nodeId record.health.inFlight op)
    (registeredAt : later.registeredAt = record.registeredAt)
    (total : Text.isDecimal later.totalPaidAtomic.toList = true) :
    Attested nodeId first (ops ++ [op]) (op.onMemory store) later := by
  have same : outcomes nodeId (ops ++ [op]) = outcomes nodeId ops := by
    rw [outcomes_concat, silent, Option.toList_none, List.append_nil]
  constructor
  case found => exact found
  case window => rw [window, same, held.window]
  case measured => rwa [same]
  case healthy => rwa [same]
  case inFlight => rw [inFlight, inFlightAfter_concat, held.inFlight]
  case registeredAt => rw [registeredAt, held.registeredAt]
  case total => exact total

theorem Attested.upsert {first record incoming : NodeRecord} {ops : List StoreOp}
    {store : MemoryNodeStore}
    (held : Attested incoming.registration.nodeId first ops store record)
    (valid : incoming.valid sdk = true) :
    ∃ later, Attested incoming.registration.nodeId first (ops ++ [.upsert incoming])
        (store.upsert incoming) later ∧ Advances record later := by
  have found := store.get_upsert incoming incoming.registration.nodeId
  rw [if_pos rfl, held.found] at found
  have window := store.window_upsert incoming incoming.registration.nodeId
  have decimal := valid_total sdk valid
  refine ⟨_, held.quiet rfl found window ?_ ?_ ?_ rfl ?_, ?_⟩
  · intro recorded
    rw [held.window]
    exact (mergeRecord_measured record incoming (mt bounded_eq_nil.mp recorded)).1
  · intro recorded
    rw [held.window]
    exact (mergeRecord_measured record incoming (mt bounded_eq_nil.mp recorded)).2
  · exact (mergeRecord_owner record incoming _).1
  · exact (maxAtomic_decimal held.total decimal).1
  · exact mergeRecord_advances record incoming _ held.total decimal

theorem Attested.recordOutcome {nodeId : String} {first record : NodeRecord} {ops : List StoreOp}
    {store : MemoryNodeStore} (held : Attested nodeId first ops store record)
    (o : ReportedOutcome) :
    ∃ later, Attested nodeId first (ops ++ [.recordOutcome nodeId o])
        (store.recordOutcome nodeId o) later ∧ Advances record later := by
  have found := store.get_recordOutcome nodeId o nodeId
  rw [if_pos rfl, held.found, held.window, bounded_push, Option.map_some] at found
  have window := store.window_recordOutcome nodeId o nodeId
  rw [if_pos ⟨rfl, by rw [held.found]; rfl⟩, held.window, bounded_push] at window
  have recorded : outcomes nodeId (ops ++ [.recordOutcome nodeId o]) =
      outcomes nodeId ops ++ [normalizeOutcome o] := by
    simp [outcomes_concat, outcomeOf]
  have filled : bounded (outcomes nodeId ops ++ [normalizeOutcome o]) ≠ [] := bounded_ne_nil _ _
  refine ⟨_, ⟨found, ?_, ?_, ?_, ?_, held.registeredAt, held.total⟩, ?_⟩
  · rw [recorded, window]
  · rw [recorded]
    exact fun _ => deriveHealth_measured record.health filled
  · rw [recorded]
    intro _ healthy
    rw [(deriveHealth_window record.health _ filled).1] at healthy
    exact of_decide_eq_true healthy
  · rw [inFlightAfter_concat, ← held.inFlight]
    exact (deriveHealth_owner record.health _).1
  · exact ⟨Nat.le_succ _, le_refl _, deriveHealth_seen _ _⟩

theorem Attested.setInFlight {nodeId : String} {first record : NodeRecord} {ops : List StoreOp}
    {store : MemoryNodeStore} {op : StoreOp} (held : Attested nodeId first ops store record)
    (revise : Nat → Nat) (sets : op.onMemory store = store.setInFlight nodeId revise)
    (silent : outcomeOf nodeId op = none)
    (counts : countInFlight nodeId record.health.inFlight op = revise record.health.inFlight) :
    ∃ later, Attested nodeId first (ops ++ [op]) (op.onMemory store) later ∧
      Advances record later := by
  have found := store.get_setInFlight nodeId revise nodeId
  rw [if_pos rfl, held.found, Option.map_some, ← sets] at found
  have window := store.window_setInFlight nodeId revise nodeId
  rw [← sets] at window
  exact ⟨_, held.quiet silent found window held.measured held.healthy counts.symm rfl held.total,
    le_refl _, le_refl _, le_refl _⟩

theorem Attested.step {nodeId : String} {first record : NodeRecord} {ops : List StoreOp}
    {store : MemoryNodeStore} (held : Attested nodeId first ops store record) {op : StoreOp}
    (valid : op.valid sdk = true) (kept : op ≠ .remove nodeId) :
    ∃ later, Attested nodeId first (ops ++ [op]) (op.onMemory store) later ∧
      Advances record later := by
  by_cases own : nodeId = op.nodeId
  · subst own
    cases op with
    | upsert incoming => exact held.upsert sdk valid
    | recordOutcome nodeId o => exact held.recordOutcome o
    | beginRequest nodeId =>
      exact held.setInFlight (· + 1) rfl rfl (if_pos rfl)
    | endRequest nodeId =>
      exact held.setInFlight (· - 1) rfl rfl (if_pos rfl)
    | remove nodeId => exact absurd rfl kept
  · obtain ⟨same_get, same_window⟩ := Shared.get_onMemory_other own store
    obtain ⟨silent, uncounted⟩ := silent_elsewhere own record.health.inFlight
    exact ⟨record, held.quiet silent (same_get.trans held.found) same_window held.measured
      held.healthy uncounted.symm rfl held.total, .refl record⟩

theorem Attested.run {nodeId : String} {first record : NodeRecord} {ops : List StoreOp}
    {store : MemoryNodeStore} (held : Attested nodeId first ops store record)
    (later : List StoreOp) (valid : ∀ op ∈ later, op.valid sdk = true)
    (kept : .remove nodeId ∉ later) :
    ∃ last, Attested nodeId first (ops ++ later) (store.run later) last ∧
      Advances record last := by
  induction later generalizing ops store record with
  | nil => exact ⟨record, by rwa [List.append_nil], .refl record⟩
  | cons op rest ih =>
    obtain ⟨next, reached, grown⟩ := held.step sdk (valid op List.mem_cons_self)
      (fun same => kept (same ▸ List.mem_cons_self))
    obtain ⟨last, ended, further⟩ := ih reached
      (fun other member => valid other (List.mem_cons_of_mem op member))
      (fun member => kept (List.mem_cons_of_mem op member))
    rw [List.append_assoc] at ended
    exact ⟨last, ended, grown.trans further⟩

theorem run_window_unknown (ops : List StoreOp) (nodeId : String)
    (unknown : (MemoryNodeStore.empty.run ops).get nodeId = none) :
    (MemoryNodeStore.empty.run ops).window nodeId = [] := by
  have step (ops : List StoreOp) (store : MemoryNodeStore)
      (held : ∀ nodeId, store.get nodeId = none → store.window nodeId = []) :
      ∀ nodeId, (store.run ops).get nodeId = none → (store.run ops).window nodeId = [] := by
    induction ops generalizing store with
    | nil => exact held
    | cons op rest ih => exact ih (op.onMemory store) (Shared.window_unknown held op)
  exact step ops .empty (fun _ _ => rfl) nodeId unknown

-- The first upsert of a node that the store does not have.
theorem attested_first (before : List StoreOp) {first : NodeRecord}
    (valid : first.valid sdk = true)
    (unseen : (MemoryNodeStore.empty.run before).get first.registration.nodeId = none) :
    Attested first.registration.nodeId first []
      ((MemoryNodeStore.empty.run before).upsert first) first where
  found := by
    rw [MemoryNodeStore.get_upsert, if_pos rfl, unseen]
    rfl
  window := by
    rw [MemoryNodeStore.window_upsert, run_window_unknown before _ unseen]
    rfl
  measured := fun recorded => absurd rfl recorded
  healthy := fun recorded => absurd rfl recorded
  inFlight := rfl
  registeredAt := rfl
  total := valid_total sdk valid

theorem health_non_forgeable (before earlier later : List StoreOp) (first : NodeRecord)
    (valid : ∀ op ∈ .upsert first :: (earlier ++ later), op.valid sdk = true)
    (unseen : (MemoryNodeStore.empty.run before).get first.registration.nodeId = none)
    (kept : .remove first.registration.nodeId ∉ earlier ++ later) :
    ∃ record last,
      (MemoryNodeStore.empty.run (before ++ .upsert first :: earlier)).get
        first.registration.nodeId = some record ∧
      (MemoryNodeStore.empty.run (before ++ .upsert first :: (earlier ++ later))).get
        first.registration.nodeId = some last ∧
      NonForgeable first.registration.nodeId first earlier record ∧
      NonForgeable first.registration.nodeId first (earlier ++ later) last ∧
      Advances record last := by
  have start := attested_first sdk before (valid _ List.mem_cons_self) unseen
  obtain ⟨record, reached, -⟩ := start.run sdk earlier
    (fun op member => valid op (List.mem_cons_of_mem _ (List.mem_append_left later member)))
    (fun member => kept (List.mem_append_left later member))
  obtain ⟨last, ended, grown⟩ := reached.run sdk later
    (fun op member => valid op (List.mem_cons_of_mem _ (List.mem_append_right earlier member)))
    (fun member => kept (List.mem_append_right earlier member))
  have split (ops : List StoreOp) : MemoryNodeStore.empty.run (before ++ .upsert first :: ops) =
      ((MemoryNodeStore.empty.run before).upsert first).run ops := by
    simp [MemoryNodeStore.run, StoreOp.onMemory]
  have both (store : MemoryNodeStore) :
      store.run (earlier ++ later) = (store.run earlier).run later := by
    simp [MemoryNodeStore.run]
  refine ⟨record, last, ?_, ?_, reached.nonForgeable, ended.nonForgeable, grown⟩
  · rw [split]
    exact reached.found
  · rw [split, both]
    exact ended.found

-- Three failures, and a heartbeat that calls the node healthy.
theorem health_non_forgeable_benched :
    ∃ last,
      (MemoryNodeStore.empty.run
        ([.beginRequest "node-a", .upsert demoNode] ++
          List.replicate 3 (.recordOutcome "node-a" ⟨false, none, some 5⟩) ++
          [.upsert { demoNode with totalPaidAtomic := "7" }])).get "node-a" = some last ∧
        last.health.healthy = false ∧ Advances demoNode last := by
  obtain ⟨record, last, start, ended, -, held, grown⟩ :=
    health_non_forgeable demoSdk [.beginRequest "node-a"] []
      (List.replicate 3 (.recordOutcome "node-a" ⟨false, none, some 5⟩) ++
        [.upsert { demoNode with totalPaidAtomic := "7" }]) demoNode
      (by decide +kernel) rfl (by decide)
  have first : record = demoNode := by
    have stored : (MemoryNodeStore.empty.run [.beginRequest "node-a", .upsert demoNode]).get
        "node-a" = some demoNode := by decide
    exact Option.some.inj (start.symm.trans stored)
  subst first
  refine ⟨last, ended, ?_, grown⟩
  by_contra healthy
  exact held.verdict (by simpa using healthy) ⟨[], _, _, _, rfl, rfl, rfl, rfl⟩

end X402Mesh.Registry
