import X402Mesh.Settlement.Accruing

set_option autoImplicit false

namespace X402Mesh.Settlement.Service

open Registry

variable (cfg : Deps)

-- The requests of a row that recovery can pay.
def rowIds (row : PersistedAccrual) : List String := requestIdsOf (row.records.filter (·.usable))

structure Recovered (before after : Service) (operatorAddress : String) (ops : List StoreOp)
    (runs : List PayoutRun) : Prop where
  accruals : after.accruals = before.accruals
  arrays : after.arrays = before.arrays
  accepted : after.accepted = before.accepted
  claimed : ∀ id ∈ before.claimed, id ∈ after.claimed
  payouts : after.payouts = before.payouts ++ runs
  outbox : after.outbox = before.outbox ++ runs.flatMap fun run => calls cfg run.job run.progress
  pending : ∀ key, ∃ records : List SettlementRecord, after.pending key =
    before.pending key ++ records.map .putLedger ++ if key = operatorAddress then ops else []

def dropOp (stored : PersistedAccrual) : StoreOp :=
  match stored.batchId with
  | some batchId => .removeBatch batchId
  | none => .removeOpen stored.operatorAddress

def rowUnder (stored : PersistedAccrual) (records : List StoredRecord) (batchId : String) :
    PersistedAccrual :=
  { stored with records := records, batchId := some batchId }

def recoveredRun (stored : PersistedAccrual) (records : List StoredRecord) (batchId : String)
    (summed : Int) (resumed : Bool) : PayoutRun :=
  let job := batchJob batchId stored.operatorAddress summed (records.map (·.cast)) resumed
  ⟨job, Progress.start cfg.attempts job⟩

theorem recoveredRun_requestIds (stored : PersistedAccrual) (records : List StoredRecord)
    (batchId : String) (summed : Int) (resumed : Bool) :
    (recoveredRun cfg stored records batchId summed resumed).job.requestIds =
      requestIdsOf records := by
  simp only [recoveredRun, batchJob, PayoutJob.requestIds, requestIdsOf, List.map_map]
  rfl

inductive Outcome (now : Nat → Nat) (stored : PersistedAccrual) (records : List StoredRecord) :
    List StoreOp → List PayoutRun → Prop
  | dropped (none_owed : records = [] ∨ sumPayouts (records.map (·.cast)) = some 0) :
      Outcome now stored records [dropOp stored] []
  | stopped (unsummed : sumPayouts (records.map (·.cast)) = none) : Outcome now stored records [] []
  | resumed (batchId : String) (summed : Int) (id : resumedId stored = some batchId)
      (sum : sumPayouts (records.map (·.cast)) = some summed) (owes : summed ≠ 0) :
      Outcome now stored records [.putBatch batchId (rowUnder stored records batchId)]
        [recoveredRun cfg stored records batchId summed true]
  | fresh (batchId : String) (summed : Int) (id : resumedId stored = none)
      (sum : sumPayouts (records.map (·.cast)) = some summed) (owes : summed ≠ 0)
      (numbered : ∃ seq, batchId = recoveredIdOf (now seq) seq) :
      Outcome now stored records
        [.putBatch batchId (rowUnder stored records batchId), .removeOpen stored.operatorAddress]
        [recoveredRun cfg stored records batchId summed false]

theorem dropRecovered_recovered (stored : cfg.accrualStore = true) (svc : Service)
    (row : PersistedAccrual) :
    Recovered cfg svc (dropRecovered cfg (svc.dropLiability row.batchId) row)
      row.operatorAddress [dropOp row] [] := by
  cases id : row.batchId with
  | none =>
    refine ⟨by simp [dropRecovered, dropLiability, id], by simp [dropRecovered, dropLiability, id],
      by simp [dropRecovered, dropLiability, id], by simp [dropRecovered, dropLiability, id],
      by simp [dropRecovered, dropLiability, id], by simp [dropRecovered, dropLiability, id],
      fun key => ⟨[], ?_⟩⟩
    simp [dropRecovered, dropLiability, dropOp, id, pending_enqueueStore, stored]
  | some batchId =>
    refine ⟨by simp [dropRecovered, dropLiability, id], by simp [dropRecovered, dropLiability, id],
      by simp [dropRecovered, dropLiability, id], by simp [dropRecovered, dropLiability, id],
      by simp [dropRecovered, dropLiability, id], by simp [dropRecovered, dropLiability, id],
      fun key => ⟨[], ?_⟩⟩
    simp only [dropRecovered, dropLiability, dropOp, id, pending_enqueueStore, stored, and_true]
    simp [pending, chain]

theorem Recovered.after_bookkeeping {cfg : Deps} {a b c : Service} {operatorAddress : String}
    {ops : List StoreOp} {runs : List PayoutRun} (kept : Bookkeeping a b)
    (recovered : Recovered cfg b c operatorAddress ops runs) :
    Recovered cfg a c operatorAddress ops runs where
  accruals := recovered.accruals.trans kept.accruals
  arrays := recovered.arrays.trans kept.arrays
  accepted := recovered.accepted.trans kept.accepted
  claimed := fun id held => recovered.claimed id (kept.claimed id held)
  payouts := by rw [recovered.payouts, kept.payouts]
  outbox := by rw [recovered.outbox, kept.outbox]
  pending := by
    intro key
    obtain ⟨first, firstWrites⟩ := kept.pending key
    obtain ⟨second, secondWrites⟩ := recovered.pending key
    exact ⟨first ++ second, by simp [firstWrites, secondWrites]⟩

theorem Bookkeeping.recovered {a b : Service} (kept : Bookkeeping a b) (operatorAddress : String) :
    Recovered cfg a b operatorAddress [] [] where
  accruals := kept.accruals
  arrays := kept.arrays
  accepted := kept.accepted
  claimed := kept.claimed
  payouts := by simp [kept.payouts]
  outbox := by simp [kept.outbox]
  pending := by
    intro key
    obtain ⟨records, writes⟩ := kept.pending key
    exact ⟨records, by simp [writes]⟩

theorem payRow_recovered (stored : cfg.accrualStore = true) (svc : Service)
    (row : PersistedAccrual) (records : List StoredRecord) (summed : Int) (batchId : String)
    (resumed : Bool) :
    Recovered cfg svc (payRow cfg svc row records summed batchId resumed) row.operatorAddress
      (.putBatch batchId (rowUnder row records batchId) ::
        if resumed then [] else [.removeOpen row.operatorAddress])
      [recoveredRun cfg row records batchId summed resumed] where
  accruals := by simp [payRow, runPayout]
  arrays := by simp [payRow, runPayout]
  accepted := by simp [payRow, runPayout]
  claimed := by simp [payRow, runPayout]
  payouts := by simp [payRow, runPayout, recoveredRun]
  outbox := by simp [payRow, runPayout, recoveredRun]
  pending := by
    intro key
    have queued := pending_enqueueStore cfg
      { svc with
        batchLiabilities := svc.batchLiabilities.set batchId
          (liability batchId row.operatorAddress summed records.length row.firstAt) }
      row.operatorAddress
      (.putBatch batchId (rowUnder row records batchId) ::
        if resumed then [] else [.removeOpen row.operatorAddress]) key
    simp only [stored, and_true] at queued
    refine ⟨[], ?_⟩
    rw [List.map_nil, List.append_nil]
    exact queued

theorem recoverPay_outcome (stored : cfg.accrualStore = true) (svc : Service)
    (row : PersistedAccrual) (records : List StoredRecord) (summed : Int) (now : Nat → Nat)
    (sum : sumPayouts (records.map (·.cast)) = some summed) (owes : summed ≠ 0) :
    ∃ ops runs, Outcome cfg now row records ops runs ∧
      Recovered cfg svc (recoverPay cfg svc row records summed now) row.operatorAddress ops runs := by
  unfold recoverPay
  cases id : resumedId row with
  | some batchId =>
    exact ⟨_, _, .resumed batchId summed id sum owes,
      payRow_recovered cfg stored svc row records summed batchId true⟩
  | none =>
    have paid := payRow_recovered cfg stored { svc with batchSeq := svc.batchSeq + 1 } row records
      summed (recoveredIdOf (now (svc.batchSeq + 1)) (svc.batchSeq + 1)) false
    exact ⟨_, _, .fresh _ summed id sum owes ⟨svc.batchSeq + 1, rfl⟩, { paid with }⟩

-- One row of the loop, once the earlier ones have not stopped it.
theorem recoverRow_outcome (stored : cfg.accrualStore = true) (now : Nat → Nat) (state : Recovery)
    (going : state.stopped = false) (row : PersistedAccrual) :
    ∃ ops runs, Outcome cfg now row (payable state.handled row) ops runs ∧
      Recovered cfg state.svc (recoverRow cfg now state row).svc row.operatorAddress ops runs ∧
      (recoverRow cfg now state row).handled =
        requestIdsOf (payable state.handled row) ++ state.handled ∧
      ((recoverRow cfg now state row).stopped = true → ops = [] ∧ runs = []) := by
  unfold recoverRow
  simp only [going, Bool.false_eq_true, if_false]
  by_cases empty : payable state.handled row = []
  · simp only [empty, List.isEmpty_nil, if_true]
    exact ⟨_, _, .dropped (.inl rfl), dropRecovered_recovered cfg stored state.svc row, rfl,
      by simp⟩
  · simp only [List.isEmpty_iff, empty, if_false]
    have seeded := reseed_bookkeeping cfg state.svc
      ((payable state.handled row).map (·.cast))
    cases sum : sumPayouts ((payable state.handled row).map (·.cast)) with
    | none => exact ⟨_, _, .stopped sum, seeded.recovered cfg _, rfl, fun _ => ⟨rfl, rfl⟩⟩
    | some summed =>
      dsimp only
      by_cases zero : summed = 0
      · rw [if_pos zero]
        exact ⟨_, _, .dropped (.inr (zero ▸ sum)),
          (dropRecovered_recovered cfg stored _ row).after_bookkeeping seeded, rfl, by simp⟩
      · rw [if_neg zero]
        obtain ⟨ops, runs, outcome, recovered⟩ :=
          recoverPay_outcome cfg stored _ row (payable state.handled row) summed now sum zero
        exact ⟨ops, runs, outcome, recovered.after_bookkeeping seeded, rfl, by simp⟩

theorem recoverRow_stopped (now : Nat → Nat) (state : Recovery) (stopped : state.stopped = true)
    (row : PersistedAccrual) : recoverRow cfg now state row = state := by
  simp [recoverRow, stopped]

theorem mem_payable (handled : List String) (row : PersistedAccrual) (record : StoredRecord) :
    record ∈ payable handled row ↔
      record ∈ row.records ∧ record.usable = true ∧ record.requestId.getD "" ∉ handled := by
  simp only [payable, List.mem_filter, decide_eq_true_eq, and_assoc]

theorem mem_rowIds (row : PersistedAccrual) (id : String) :
    id ∈ rowIds row ↔
      ∃ record ∈ row.records, record.usable = true ∧ record.requestId.getD "" = id := by
  simp [rowIds, requestIdsOf, and_assoc]

-- Every request of the row is handled once the row is.
theorem rowIds_handled (handled : List String) (row : PersistedAccrual) (id : String)
    (member : id ∈ rowIds row) : id ∈ requestIdsOf (payable handled row) ++ handled := by
  obtain ⟨record, inside, usable, rfl⟩ := (mem_rowIds row id).mp member
  by_cases earlier : record.requestId.getD "" ∈ handled
  · exact List.mem_append_right _ earlier
  · refine List.mem_append_left _ (List.mem_map.mpr ⟨record, ?_, rfl⟩)
    exact (mem_payable handled row record).mpr ⟨inside, usable, earlier⟩

theorem payable_ids (handled : List String) (row : PersistedAccrual) (id : String)
    (member : id ∈ requestIdsOf (payable handled row)) : id ∈ rowIds row ∧ id ∉ handled := by
  obtain ⟨record, inside, rfl⟩ := List.mem_map.mp member
  obtain ⟨present, usable, fresh⟩ := (mem_payable handled row record).mp inside
  exact ⟨(mem_rowIds row _).mpr ⟨record, present, usable, rfl⟩, fresh⟩

structure RowStep (now : Nat → Nat) (state : Recovery) (row : PersistedAccrual)
    (ops : List StoreOp) (runs : List PayoutRun) (after : Recovery) : Prop where
  outcome : Outcome cfg now row (payable state.handled row) ops runs
  recovered : Recovered cfg state.svc after.svc row.operatorAddress ops runs
  handled : after.handled = requestIdsOf (payable state.handled row) ++ state.handled

-- What every row keeps, the whole loop keeps.
theorem recoverRows_induction (stored : cfg.accrualStore = true) (now : Nat → Nat)
    {P : Recovery → Prop} (rows : List PersistedAccrual)
    (kept : ∀ state row ops runs after, row ∈ rows → P state → state.stopped = false →
      RowStep cfg now state row ops runs after → P after)
    (state : Recovery) (init : P state) : P (rows.foldl (recoverRow cfg now) state) := by
  induction rows generalizing state with
  | nil => exact init
  | cons row rest ih =>
    rw [List.foldl_cons]
    apply ih fun state other ops runs after member => kept state other ops runs after (by simp [member])
    cases going : state.stopped with
    | true => rwa [recoverRow_stopped cfg now state going row]
    | false =>
      obtain ⟨ops, runs, outcome, recovered, handled, -⟩ :=
        recoverRow_outcome cfg stored now state going row
      exact kept state row ops runs _ (by simp) init going ⟨outcome, recovered, handled⟩

-- Unless the loop has stopped, every request of a row that it has passed is handled.
theorem recoverRows_handled (stored : cfg.accrualStore = true) (now : Nat → Nat)
    (rows : List PersistedAccrual) (state : Recovery)
    (going : (rows.foldl (recoverRow cfg now) state).stopped = false) :
    state.stopped = false ∧
      (∀ id ∈ state.handled, id ∈ (rows.foldl (recoverRow cfg now) state).handled) ∧
      ∀ row ∈ rows, ∀ id ∈ rowIds row,
        id ∈ (rows.foldl (recoverRow cfg now) state).handled := by
  induction rows generalizing state with
  | nil => exact ⟨going, fun _ held => held, by simp⟩
  | cons row rest ih =>
    rw [List.foldl_cons] at going ⊢
    obtain ⟨running, handled, later⟩ := ih _ going
    have before : state.stopped = false := by
      by_contra halted
      rw [recoverRow_stopped cfg now state (by simpa using halted) row] at running
      exact halted running
    obtain ⟨ops, runs, -, -, own, -⟩ := recoverRow_outcome cfg stored now state before row
    refine ⟨before, fun id held => handled id ?_, fun other member id inside => ?_⟩
    · rw [own]
      exact List.mem_append_right _ held
    · rcases List.mem_cons.mp member with rfl | tail
      · apply handled
        rw [own]
        exact rowIds_handled state.handled other id inside
      · exact later other tail id inside

end X402Mesh.Settlement.Service
