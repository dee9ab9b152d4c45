import X402Mesh.Registry.Health

set_option autoImplicit false

namespace X402Mesh.Registry

open MemoryNodeStore

-- The calls that may make the node healthy, or forget it.
def StoreOp.mayRevive (nodeId : String) : StoreOp → Bool
  | .upsert record => record.registration.nodeId == nodeId && record.health.healthy
  | .recordOutcome other o => other == nodeId && o.success
  | .remove other => other == nodeId
  | _ => false

structure Marked (nodeId : String) (store : MemoryNodeStore) : Prop where
  unhealthy : ∃ record, store.get nodeId = some record ∧ record.health.healthy = false
  failing : 2 ≤ failureStreak (store.window nodeId)

theorem failureStreak_drop (window : List RequestOutcome) (count : Nat) :
    failureStreak (window.drop count) = min (window.length - count) (failureStreak window) := by
  unfold failureStreak
  rw [List.reverse_drop, ← List.take_takeWhile, List.length_take]

theorem failureStreak_failed (window : List RequestOutcome) {o : RequestOutcome}
    (failed : o.success = false) :
    failureStreak (bounded (window ++ [o])) = min healthWindowSize (failureStreak window + 1) := by
  have long : failureStreak window ≤ window.length := by
    unfold failureStreak
    calc (window.reverse.takeWhile fun o => !o.success).length
        ≤ window.reverse.length := (List.takeWhile_sublist _).length_le
      _ = window.length := List.length_reverse
  unfold bounded
  rw [failureStreak_drop, failureStreak_concat, failed, List.length_append, List.length_singleton]
  simp only [Bool.false_eq_true, if_false]
  omega

theorem mergeRecord_marked (existing : Option NodeRecord) {incoming : NodeRecord}
    (window : List RequestOutcome) (unhealthy : incoming.health.healthy = false) :
    (mergeRecord existing incoming window).health.healthy = false := by
  cases existing with
  | none => exact unhealthy
  | some existing =>
    unfold mergeRecord
    dsimp only
    split
    next => exact unhealthy
    next => simp [unhealthy]

theorem Marked.upsert {nodeId : String} {store : MemoryNodeStore} (held : Marked nodeId store)
    {record : NodeRecord}
    (quiet : record.registration.nodeId = nodeId → record.health.healthy = false) :
    Marked nodeId (store.upsert record) := by
  obtain ⟨known, found, unhealthy⟩ := held.unhealthy
  constructor
  case unhealthy =>
    rw [store.get_upsert]
    by_cases own : nodeId = record.registration.nodeId
    · rw [if_pos own]
      exact ⟨_, rfl, mergeRecord_marked _ _ (quiet own.symm)⟩
    · rw [if_neg own]
      exact ⟨known, found, unhealthy⟩
  case failing =>
    rw [store.window_upsert]
    exact held.failing

theorem Marked.recordOutcome {nodeId : String} {store : MemoryNodeStore}
    (held : Marked nodeId store) {o : ReportedOutcome} (failed : o.success = false) :
    Marked nodeId (store.recordOutcome nodeId o) := by
  obtain ⟨known, found, -⟩ := held.unhealthy
  have streak := failureStreak_failed (store.window nodeId) (o := normalizeOutcome o) failed
  have longer : unhealthyConsecutiveFailures ≤
      failureStreak (bounded (store.window nodeId ++ [normalizeOutcome o])) := by
    have failing := held.failing
    simp only [streak, healthWindowSize, unhealthyConsecutiveFailures]
    omega
  constructor
  case unhealthy =>
    rw [store.get_recordOutcome, if_pos rfl, found]
    refine ⟨_, rfl, ?_⟩
    rw [(deriveHealth_window _ _ (bounded_ne_nil _ _)).1]
    exact decide_eq_false (by omega)
  case failing =>
    rw [store.window_recordOutcome, if_pos ⟨rfl, by rw [found]; rfl⟩]
    simp only [unhealthyConsecutiveFailures] at longer
    omega

theorem Marked.setInFlight {nodeId : String} {store : MemoryNodeStore}
    (held : Marked nodeId store) (revise : Nat → Nat) :
    Marked nodeId (store.setInFlight nodeId revise) := by
  obtain ⟨known, found, unhealthy⟩ := held.unhealthy
  constructor
  case unhealthy =>
    rw [store.get_setInFlight, if_pos rfl, found]
    exact ⟨_, rfl, unhealthy⟩
  case failing =>
    rw [store.window_setInFlight]
    exact held.failing

theorem Marked.step {nodeId : String} {store : MemoryNodeStore} (held : Marked nodeId store)
    {op : StoreOp} (quiet : op.mayRevive nodeId = false) : Marked nodeId (op.onMemory store) := by
  by_cases own : nodeId = op.nodeId
  · cases op with
    | upsert record =>
      apply held.upsert
      intro same
      simpa [StoreOp.mayRevive, same] using quiet
    | recordOutcome other o =>
      obtain rfl : nodeId = other := own
      exact held.recordOutcome (by simpa [StoreOp.mayRevive] using quiet)
    | beginRequest other =>
      obtain rfl : nodeId = other := own
      exact held.setInFlight (· + 1)
    | endRequest other =>
      obtain rfl : nodeId = other := own
      exact held.setInFlight (· - 1)
    | remove other =>
      obtain rfl : nodeId = other := own
      simp [StoreOp.mayRevive] at quiet
  · obtain ⟨same_get, same_window⟩ := Shared.get_onMemory_other own store
    constructor
    case unhealthy =>
      rw [same_get]
      exact held.unhealthy
    case failing =>
      rw [same_window]
      exact held.failing

theorem Marked.run {nodeId : String} {store : MemoryNodeStore} (held : Marked nodeId store)
    {later : List StoreOp} (quiet : ∀ op ∈ later, op.mayRevive nodeId = false) :
    Marked nodeId (store.run later) := by
  induction later generalizing store with
  | nil => exact held
  | cons op rest ih =>
    have next := held.step (quiet op List.mem_cons_self)
    exact ih next fun other member => quiet other (List.mem_cons_of_mem op member)

theorem marked_upsert {store : MemoryNodeStore} {record : NodeRecord}
    (unhealthy : record.health.healthy = false)
    (failing : 2 ≤ failureStreak (store.window record.registration.nodeId)) :
    Marked record.registration.nodeId (store.upsert record) := by
  constructor
  case unhealthy =>
    rw [store.get_upsert, if_pos rfl]
    exact ⟨_, rfl, mergeRecord_marked _ _ unhealthy⟩
  case failing =>
    rw [store.window_upsert]
    exact failing

-- One failure too few for the threshold makes the node healthy again.
theorem failure_revives (store : MemoryNodeStore) (record : NodeRecord) {o : ReportedOutcome}
    (failed : o.success = false)
    (few : failureStreak (store.window record.registration.nodeId) < 2) :
    ∃ stored, ((store.upsert record).recordOutcome record.registration.nodeId o).get
      record.registration.nodeId = some stored ∧ stored.health.healthy = true := by
  have streak := failureStreak_failed (store.window record.registration.nodeId)
    (o := normalizeOutcome o) failed
  rw [MemoryNodeStore.get_recordOutcome, if_pos rfl, store.get_upsert, if_pos rfl,
    store.window_upsert]
  refine ⟨_, rfl, ?_⟩
  rw [(deriveHealth_window _ _ (bounded_ne_nil _ _)).1]
  apply decide_eq_true
  simp only [streak, unhealthyConsecutiveFailures]
  omega

theorem unhealthy_mark_survives (before : List StoreOp) (record : NodeRecord)
    (unhealthy : record.health.healthy = false) :
    (∀ later : List StoreOp, (∀ op ∈ later, op.mayRevive record.registration.nodeId = false) →
      ∃ stored, (((MemoryNodeStore.empty.run before).upsert record).run later).get
        record.registration.nodeId = some stored ∧ stored.health.healthy = false) ↔
    2 ≤ failureStreak ((MemoryNodeStore.empty.run before).window record.registration.nodeId) := by
  constructor
  · intro survives
    by_contra few
    let failed : ReportedOutcome := ⟨false, none, none⟩
    obtain ⟨stored, found, marked⟩ := survives [.recordOutcome record.registration.nodeId failed]
      (by simp [StoreOp.mayRevive, failed])
    obtain ⟨revived, found', healthy⟩ := failure_revives (MemoryNodeStore.empty.run before) record
      (o := failed) rfl (by omega)
    obtain rfl := Option.some.inj (found.symm.trans found')
    rw [marked] at healthy
    cases healthy
  · intro failing later quiet
    exact ((marked_upsert unhealthy failing).run quiet).unhealthy

-- A node that failed twice is marked, and fails again.
theorem unhealthy_mark_survives_failing :
    ∃ stored, (((MemoryNodeStore.empty.run
        [.upsert demoNode, .recordOutcome "node-a" ⟨false, none, none⟩,
          .recordOutcome "node-a" ⟨false, none, none⟩]).upsert
        { demoNode with health := { demoNode.health with healthy := false } }).run
          [.beginRequest "node-a", .recordOutcome "node-a" ⟨false, none, none⟩,
            .endRequest "node-a"]).get "node-a" = some stored ∧ stored.health.healthy = false :=
  (unhealthy_mark_survives
    [.upsert demoNode, .recordOutcome "node-a" ⟨false, none, none⟩,
      .recordOutcome "node-a" ⟨false, none, none⟩]
    { demoNode with health := { demoNode.health with healthy := false } } rfl).mpr
    (by decide) _ (by decide)

-- The mark of a node without outcomes is gone with its first failure.
theorem failure_clears_mark :
    ¬ ∀ (before : List StoreOp) (known record : NodeRecord),
      (MemoryNodeStore.empty.run before).get record.registration.nodeId = some known →
      record.health.healthy = false →
      ∀ later : List StoreOp, (∀ op ∈ later, op.mayRevive record.registration.nodeId = false) →
        ∃ stored, (((MemoryNodeStore.empty.run before).upsert record).run later).get
          record.registration.nodeId = some stored ∧ stored.health.healthy = false := by
  intro claimed
  obtain ⟨stored, found, marked⟩ := claimed [.upsert demoNode] demoNode
    { demoNode with health := { demoNode.health with healthy := false } } rfl rfl
    [.recordOutcome "node-a" ⟨false, none, none⟩] (by decide)
  obtain ⟨revived, found', healthy⟩ := failure_revives (MemoryNodeStore.empty.run [.upsert demoNode])
    { demoNode with health := { demoNode.health with healthy := false } }
    (o := ⟨false, none, none⟩) rfl (by decide)
  obtain rfl := Option.some.inj (found.symm.trans found')
  rw [marked] at healthy
  cases healthy

end X402Mesh.Registry
