import X402Mesh.Registry.AccrualKeys
import X402Mesh.Settlement.Pass
import X402Mesh.Settlement.World

set_option autoImplicit false

namespace X402Mesh.Settlement.Service

open Registry Money Text

variable (cfg : Deps) (now : Nat → Nat)

-- `recoverAccruals` with how it ends: `stopped` says that it rejects.
def boot (history : Option (List StoredRecord))
    (loaded : Option (List PersistedAccrual × List PersistedAccrual)) : Recovery :=
  let svc := hydrateLedger cfg .init history
  match loaded with
  | some (openRows, batches) =>
    if cfg.accrualStore then (batches ++ openRows).foldl (recoverRow cfg now) ⟨svc, [], false⟩
    else ⟨svc, [], false⟩
  | none => ⟨svc, [], false⟩

theorem boot_svc (history : Option (List StoredRecord))
    (loaded : Option (List PersistedAccrual × List PersistedAccrual)) :
    (boot cfg now history loaded).svc =
      recoverAccruals cfg (hydrateLedger cfg .init history) loaded now := by
  unfold boot recoverAccruals
  cases loaded with
  | none => simp
  | some loaded => cases stored : cfg.accrualStore <;> simp

theorem boot_pass (stored : cfg.accrualStore = true) (history : Option (List StoredRecord))
    (openRows batches : List PersistedAccrual) :
    Pass cfg now [] 0 (batches ++ openRows)
      (boot cfg now history (some (openRows, batches))).svc.payouts
      (boot cfg now history (some (openRows, batches))).stopped := by
  have hydrated := hydrateLedger_bookkeeping cfg .init history
  obtain ⟨runs, pass, started⟩ := recoverRows_pass cfg now (batches ++ openRows)
    ⟨hydrateLedger cfg .init history, [], false⟩ rfl
  have seq : (hydrateLedger cfg .init history).batchSeq = 0 := hydrated.batchSeq
  have none_before : (hydrateLedger cfg .init history).payouts = [] := hydrated.payouts
  simp only [boot, stored, if_true]
  simp only [seq] at pass
  rw [started, none_before, List.nil_append]
  exact pass

theorem sumPayouts_isSome (records : List SettlementRecord) :
    (sumPayouts records).isSome = true ↔
      ∀ record ∈ records, (bigInt record.payoutAtomic).isSome = true := by
  induction records with
  | nil => simp [sumPayouts]
  | cons record rest ih =>
    rw [List.forall_mem_cons, ← ih]
    cases first : bigInt record.payoutAtomic <;> cases tail : sumPayouts rest <;>
      simp [sumPayouts, first, tail]

-- Every amount that is left to a row when its turn comes is a number for `BigInt`.
def Readable (rows : List PersistedAccrual) : Prop :=
  ∀ before row after, rows = before ++ row :: after → ∀ record ∈ remaining before row,
    (bigInt (record.payoutAtomic.getD "")).isSome = true

theorem readable_iff_summable (rows : List PersistedAccrual) :
    Readable rows ↔ Summable [] rows := by
  unfold Readable Summable
  apply forall_congr'
  intro before
  apply forall₃_congr
  intro row after split
  rw [amount, sumPayouts_isSome, List.append_nil]
  simp only [List.forall_mem_map]
  exact Iff.rfl

structure WellFormed (row : PersistedAccrual) : Prop where
  records : ∀ record ∈ row.records, record.usable = true ∧
    ∃ text, record.payoutAtomic = some text ∧ isDecimal text.toList = true
  owes : ∃ summed, amount row.records = some summed ∧ 0 < summed

/-- The index reads of `loadAll`: each id once, and every id that has a row. -/
structure Indexed (rows : Rows) (addresses batchIds : List String) : Prop where
  open_once : addresses.Nodup
  batch_once : batchIds.Nodup
  open_listed : ∀ id ∈ rows.openRows.keys, id ∈ addresses
  batch_listed : ∀ id ∈ rows.batchRows.keys, id ∈ batchIds

-- No other row of the store lists a request of this one.
def Uncovered (rows : Rows) (key : RowKey) (row : PersistedAccrual) : Prop :=
  ∀ id ∈ rowIds row, ∀ other stored, rows.find other = some stored → other ≠ key →
    id ∉ rowIds stored

structure RowByRow (rows : Rows) (after : Recovery) : Prop where
  resolves : after.stopped = false
  served : ∀ key row, rows.find key = some row → WellFormed row → Uncovered rows key row →
    ∃ run ∈ after.svc.payouts, run.job.receiver = row.operatorAddress ∧
      run.job.records = row.records.map (·.cast) ∧
      amount row.records = some run.job.amountAtomic

-- `loadAll` drops a batch row that does not name its batch.
def BatchesNamed (rows : Rows) : Prop :=
  ∀ batchId row, rows.batchRows.get? batchId = some row → WellFormed row →
    Uncovered rows (.batch batchId) row → Rows.named row = true

-- What `loadAll` makes of the value under a key.
def loads (rows : Rows) : RowKey → Option PersistedAccrual
  | .openRow operatorAddress => rows.openRows.get? operatorAddress
  | .batch batchId => (rows.batchRows.get? batchId).filter Rows.named

def keysOf (addresses batchIds : List String) : List RowKey :=
  batchIds.map .batch ++ addresses.map .openRow

section load

variable {rows : Rows} {addresses batchIds : List String} {key : RowKey} {row : PersistedAccrual}

theorem loaded_eq : rows.readBatches batchIds ++ rows.readOpen addresses =
    (keysOf addresses batchIds).filterMap (loads rows) := by
  simp only [keysOf, List.filterMap_append, List.filterMap_map, Rows.readBatches, Rows.readOpen,
    List.filter_filterMap]
  rfl

theorem find_of_loads (loaded : loads rows key = some row) : rows.find key = some row := by
  cases key with
  | openRow operatorAddress => exact loaded
  | batch batchId => exact (Option.filter_eq_some_iff.mp loaded).1

theorem loads_of_find (named : BatchesNamed rows) (found : rows.find key = some row)
    (formed : WellFormed row) (uncovered : Uncovered rows key row) : loads rows key = some row := by
  cases key with
  | openRow operatorAddress => exact found
  | batch batchId =>
    exact Option.filter_eq_some_iff.mpr ⟨found, named batchId row found formed uncovered⟩

theorem Indexed.keys_nodup (indexed : Indexed rows addresses batchIds) :
    (keysOf addresses batchIds).Nodup := by
  refine List.nodup_append.mpr ⟨indexed.batch_once.map fun _ _ => RowKey.batch.inj,
    indexed.open_once.map fun _ _ => RowKey.openRow.inj, ?_⟩
  intro first left second right same
  obtain ⟨batchId, -, rfl⟩ := List.mem_map.mp left
  obtain ⟨operatorAddress, -, rfl⟩ := List.mem_map.mp right
  cases same

theorem Indexed.mem_keys (indexed : Indexed rows addresses batchIds)
    (found : rows.find key = some row) : key ∈ keysOf addresses batchIds := by
  cases key with
  | openRow operatorAddress =>
    have listed := indexed.open_listed _ ((rows.openRows.mem_keys _).mpr ⟨row, found⟩)
    exact List.mem_append_right _ (List.mem_map_of_mem listed)
  | batch batchId =>
    have listed := indexed.batch_listed _ ((rows.batchRows.mem_keys _).mpr ⟨row, found⟩)
    exact List.mem_append_left _ (List.mem_map_of_mem listed)

-- A row that is loaded has its place, and what comes before and after it has other keys.
theorem Indexed.split (indexed : Indexed rows addresses batchIds)
    (loaded : loads rows key = some row) :
    ∃ before later, rows.readBatches batchIds ++ rows.readOpen addresses = before ++ row :: later ∧
      ∀ stored ∈ before ++ later, ∃ other, other ≠ key ∧ rows.find other = some stored := by
  have unique := indexed.keys_nodup
  obtain ⟨front, back, cut⟩ := List.append_of_mem (indexed.mem_keys (find_of_loads loaded))
  rw [cut] at unique
  have apart : key ∉ front ++ back := (List.nodup_middle.mp unique).notMem
  refine ⟨front.filterMap (loads rows), back.filterMap (loads rows), ?_, ?_⟩
  · rw [loaded_eq, cut, List.filterMap_append, List.filterMap_cons_some loaded]
  · intro stored member
    rw [← List.filterMap_append] at member
    obtain ⟨other, among, found⟩ := List.mem_filterMap.mp member
    exact ⟨other, fun same => apart (same ▸ among), find_of_loads found⟩

end load

theorem remaining_uncovered (before : List PersistedAccrual) (row : PersistedAccrual)
    (formed : WellFormed row) (apart : ∀ id ∈ rowIds row, ∀ other ∈ before, id ∉ rowIds other) :
    remaining before row = row.records := by
  unfold remaining payable
  rw [List.filter_eq_self.mpr fun record member => (formed.records record member).1]
  apply List.filter_eq_self.mpr
  intro record member
  have listed : record.requestId.getD "" ∈ rowIds row :=
    (mem_rowIds row _).mpr ⟨record, member, (formed.records record member).1, rfl⟩
  simp only [List.mem_flatMap, not_exists, not_and, decide_eq_true_eq]
  intro other earlier
  exact apart _ listed other earlier

theorem PaidAs.pays {cfg : Deps} {now : Nat → Nat} {seq next : Nat} {row : PersistedAccrual}
    {records : List StoredRecord} {run : PayoutRun} (paid : PaidAs cfg now seq row records run next) :
    run.job.receiver = row.operatorAddress ∧ run.job.records = records.map (·.cast) ∧
      amount records = some run.job.amountAtomic ∧
      run.progress = Progress.start cfg.attempts run.job := by
  cases paid with
  | resumed sum => exact ⟨rfl, rfl, sum, rfl⟩
  | fresh sum => exact ⟨rfl, rfl, sum, rfl⟩

theorem boot_source (stored : cfg.accrualStore = true) (history : Option (List StoredRecord))
    (openRows batches : List PersistedAccrual) (run : PayoutRun)
    (member : run ∈ (boot cfg now history (some (openRows, batches))).svc.payouts) :
    ∃ row ∈ batches ++ openRows, ∀ record ∈ run.job.records, record.requestId ∈ rowIds row := by
  have pass := boot_pass cfg now stored history openRows batches
  obtain ⟨before, row, after, seq, next, split, -, paid⟩ := pass.source run member
  refine ⟨row, by simp [split], fun record among => ?_⟩
  rw [List.append_nil] at paid
  rw [paid.pays.2.1] at among
  obtain ⟨kept, inside, rfl⟩ := List.mem_map.mp among
  exact (payable_ids _ row _ (List.mem_map_of_mem inside)).1

theorem row_by_row_iff (stored : cfg.accrualStore = true) (history : Option (List StoredRecord))
    (rows : Rows) (addresses batchIds : List String) (indexed : Indexed rows addresses batchIds) :
    RowByRow rows (boot cfg now history (some (World.loadAll rows addresses batchIds))) ↔
      Readable (rows.readBatches batchIds ++ rows.readOpen addresses) ∧ BatchesNamed rows := by
  have pass := boot_pass cfg now stored history (rows.readOpen addresses)
    (rows.readBatches batchIds)
  rw [readable_iff_summable, ← pass.summable]
  constructor
  · intro rowByRow
    refine ⟨rowByRow.resolves, fun batchId row found formed uncovered => ?_⟩
    obtain ⟨run, member, -, records, -⟩ :=
      rowByRow.served (.batch batchId) row found formed uncovered
    obtain ⟨source, loaded, covers⟩ := boot_source cfg now stored history _ _ run member
    obtain ⟨summed, sum, positive⟩ := formed.owes
    have some_record : row.records ≠ [] := by
      intro none_there
      rw [none_there] at sum
      obtain rfl : 0 = summed := Option.some.inj sum
      omega
    obtain ⟨record, inside⟩ := List.exists_mem_of_ne_nil _ some_record
    have usable := (formed.records record inside).1
    have listed : record.requestId.getD "" ∈ rowIds row :=
      (mem_rowIds row _).mpr ⟨record, inside, usable, rfl⟩
    have shared : record.requestId.getD "" ∈ rowIds source :=
      covers record.cast (records ▸ List.mem_map_of_mem inside)
    rw [loaded_eq] at loaded
    obtain ⟨key, -, loads⟩ := List.mem_filterMap.mp loaded
    by_cases same : key = .batch batchId
    next =>
      subst same
      obtain ⟨present, named⟩ := Option.filter_eq_some_iff.mp loads
      obtain rfl : row = source := Option.some.inj (found.symm.trans present)
      exact named
    next => exact absurd shared (uncovered _ listed key source (find_of_loads loads) same)
  · rintro ⟨resolves, named⟩
    refine ⟨resolves, fun key row found formed uncovered => ?_⟩
    obtain ⟨before, later, split, others⟩ :=
      indexed.split (loads_of_find named found formed uncovered)
    obtain ⟨summed, sum, positive⟩ := formed.owes
    have whole : remaining before row = row.records := by
      refine remaining_uncovered before row formed fun id listed other earlier => ?_
      obtain ⟨place, apart, present⟩ := others other (List.mem_append_left _ earlier)
      exact uncovered id listed place other present apart
    have owed : amount (remaining before row) = some summed := by
      rw [whole]
      exact sum
    have reached : Summable [] before := fun first other rest inside =>
      pass.summable.mp resolves first other (rest ++ row :: later) (by simp [split, inside])
    obtain ⟨run, member, seq, next, paid⟩ := pass.serves before row later split reached summed
      (by rw [List.append_nil]; exact owed) (by omega)
    rw [List.append_nil] at paid
    change PaidAs cfg now seq row (remaining before row) run next at paid
    rw [whole] at paid
    obtain ⟨receiver, records, due, -⟩ := paid.pays
    exact ⟨run, member, receiver, records, due⟩

def storedAs (requestId payoutAtomic operatorAddress : String) (status : Status) : StoredRecord :=
  SettlementRecord.stored
    { requestId := requestId
      nodeId := "node-a"
      payerAddress := "PAYER"
      operatorAddress := operatorAddress
      inboundAtomic := "2000"
      payoutAtomic := payoutAtomic
      marginAtomic := "300"
      inboundTxId := "IN-" ++ requestId
      payoutTxId := none
      batchId := none
      status := status
      error := none
      createdAt := 0
      settledAt := none }

def openRow (operatorAddress requestId payoutAtomic : String) : PersistedAccrual :=
  ⟨operatorAddress, [storedAs requestId payoutAtomic operatorAddress .accrued], some 0, none⟩

def storeOf (openRows : List PersistedAccrual) : Rows := openRows.foldl Rows.putOpen .empty

-- A row under the key of a batch that has no `batchId` of its own.
def unnamedStore : Rows := Rows.empty.putBatch "b1" (openRow "OPERATOR" "r1" "1700")

theorem recovery_stops_at_unreadable_amount :
    let rows := storeOf [openRow "OPERATOR-A" "r1" "17oo", openRow "OPERATOR-B" "r2" "1700"]
    let loaded := World.loadAll rows ["OPERATOR-A", "OPERATOR-B"] []
    (Indexed rows ["OPERATOR-A", "OPERATOR-B"] [] ∧
      (boot World.demoDeps (fun _ => 20) none (some loaded)).stopped = true ∧
      ¬ RowByRow rows (boot World.demoDeps (fun _ => 20) none (some loaded))) ∧
    Indexed unnamedStore [] ["b1"] ∧
      ¬ RowByRow unnamedStore
        (boot World.demoDeps (fun _ => 20) none (some (World.loadAll unnamedStore [] ["b1"]))) := by
  intro rows loaded
  have halts : (boot World.demoDeps (fun _ => 20) none (some loaded)).stopped = true := by
    decide
  have none_started : (boot World.demoDeps (fun _ => 20) none
      (some (World.loadAll unnamedStore [] ["b1"]))).svc.payouts = [] := by decide
  refine ⟨⟨⟨by decide, by decide, by decide, by decide⟩, halts, fun rowByRow => ?_⟩,
    ⟨by decide, by decide, by decide, by decide⟩, fun rowByRow => ?_⟩
  · have resolves := rowByRow.resolves
    rw [halts] at resolves
    cases resolves
  · have formed : WellFormed (openRow "OPERATOR" "r1" "1700") := by
      refine ⟨fun record member => ?_, 1700, by decide, by decide⟩
      obtain rfl := List.mem_singleton.mp member
      exact ⟨by decide, "1700", rfl, by decide⟩
    have uncovered : Uncovered unnamedStore (.batch "b1") (openRow "OPERATOR" "r1" "1700") := by
      intro id listed other stored found apart
      cases other with
      | openRow => cases found
      | batch batchId =>
        have named := (unnamedStore.batchRows.mem_keys batchId).mpr ⟨stored, found⟩
        obtain rfl := List.mem_singleton.mp named
        exact absurd rfl apart
    obtain ⟨run, member, -⟩ := rowByRow.served _ _ rfl formed uncovered
    rw [none_started] at member
    cases member

theorem row_by_row_two_operators :
    let rows := storeOf [openRow "OPERATOR-A" "r1" "1700", openRow "OPERATOR-B" "r2" "1700"]
    RowByRow rows (boot World.demoDeps (fun _ => 20) none
      (some (World.loadAll rows ["OPERATOR-B", "OPERATOR-A"] []))) := by
  intro rows
  apply (row_by_row_iff World.demoDeps (fun _ => 20) rfl none rows ["OPERATOR-B", "OPERATOR-A"] []
    ⟨by decide, by decide, by decide, by decide⟩).mpr
  refine ⟨?_, ?_⟩
  · rw [readable_iff_summable]
    have pass := boot_pass World.demoDeps (fun _ => 20) rfl none
      (rows.readOpen ["OPERATOR-B", "OPERATOR-A"]) (rows.readBatches [])
    exact pass.summable.mp (by decide)
  · intro batchId row found
    cases found

-- The awaits a payout goes through while they end with `events`.
def trail (attempts : Nat) : Progress → List PayoutEvent → List Progress
  | progress, [] => [progress]
  | progress, event :: rest =>
    match progress.next attempts event with
    | some next => progress :: trail attempts next rest
    | none => [progress]

def payoutCalls (run : PayoutRun) (events : List PayoutEvent) : List PayoutRequest :=
  (trail cfg.attempts run.progress events).flatMap (calls cfg run.job)

-- The lookup that comes first has ended without finding the payout.
def missed : List PayoutEvent → Bool
  | .lookup outcome :: _ => outcome.answer.isNone
  | _ => false

def restoredSettled (history : Option (List StoredRecord)) (requestId : String) : Prop :=
  ((hydrateLedger cfg .init history).ledger.get? requestId).map (·.status) = some .settled

instance (history : Option (List StoredRecord)) (requestId : String) :
    Decidable (restoredSettled cfg history requestId) := inferInstanceAs (Decidable (_ = _))

theorem mem_payoutCalls (run : PayoutRun) (events : List PayoutEvent) (request : PayoutRequest) :
    request ∈ payoutCalls cfg run events ↔
      (∃ progress ∈ trail cfg.attempts run.progress events, progress.isPaying = true) ∧
        request = payoutRequest cfg run.job := by
  unfold payoutCalls calls
  simp only [List.mem_flatMap]
  constructor
  · rintro ⟨progress, visited, member⟩
    split at member
    next paying => exact ⟨⟨progress, visited, paying⟩, by simpa using member⟩
    next => cases member
  · rintro ⟨⟨progress, visited, paying⟩, rfl⟩
    exact ⟨progress, visited, by simp [paying]⟩

-- The awaits of a payout that is allowed no attempt.
def attemptless : Progress → Bool
  | .checkingFirst | .checkingLate _ | .settled _ | .failed _ => true
  | _ => false

theorem next_attemptless (progress next : Progress) (event : PayoutEvent)
    (idle : attemptless progress = true) (advanced : progress.next 0 event = some next) :
    attemptless next = true := by
  cases progress with
  | checkingFirst =>
    cases event with
    | lookup outcome =>
      simp only [Progress.next] at advanced
      cases answer : outcome.answer <;> simp [answer, Progress.firstAttempt] at advanced <;>
        subst advanced <;> rfl
    | _ => cases advanced
  | checkingLate reason =>
    cases event with
    | lookup outcome =>
      simp only [Progress.next] at advanced
      cases answer : outcome.answer <;> simp [answer] at advanced <;> subst advanced <;> rfl
    | _ => cases advanced
  | settled txId => cases event <;> cases advanced
  | failed reason => cases event <;> cases advanced
  | _ => cases idle

theorem trail_attemptless (events : List PayoutEvent) (progress : Progress)
    (idle : attemptless progress = true) :
    ∀ visited ∈ trail 0 progress events, visited.isPaying = false := by
  have unpaid (p : Progress) (idle : attemptless p = true) : p.isPaying = false := by
    cases p <;> first | rfl | cases idle
  induction events generalizing progress with
  | nil => simpa [trail] using unpaid progress idle
  | cons event rest ih =>
    simp only [trail]
    split
    next next advanced =>
      rw [List.forall_mem_cons]
      exact ⟨unpaid progress idle, ih next (next_attemptless progress next event idle advanced)⟩
    next => simpa using unpaid progress idle

theorem trail_head (attempts : Nat) (progress : Progress) (events : List PayoutEvent) :
    progress ∈ trail attempts progress events := by
  cases events with
  | nil => simp [trail]
  | cons event rest =>
    simp only [trail]
    split <;> simp

-- When a payout that has just been started comes to call `pay`.
theorem start_pays_iff (attempts : Nat) (job : PayoutJob) (events : List PayoutEvent) :
    (∃ progress ∈ trail attempts (Progress.start attempts job) events, progress.isPaying = true) ↔
      attempts ≠ 0 ∧ (job.checkLandedFirst = true → missed events = true) := by
  unfold Progress.start
  by_cases none_allowed : attempts = 0
  · subst none_allowed
    have idle : attemptless (if job.checkLandedFirst = true then .checkingFirst
        else Progress.firstAttempt 0) = true := by
      cases job.checkLandedFirst <;> rfl
    have unpaid := trail_attemptless events _ idle
    simp only [ne_eq, not_true_eq_false, false_and, iff_false, not_exists, not_and,
      Bool.not_eq_true]
    exact unpaid
  · have first : Progress.firstAttempt attempts = .paying 1 := by
      simp [Progress.firstAttempt, Nat.one_le_iff_ne_zero, none_allowed]
    cases job.checkLandedFirst with
    | false =>
      simp only [Bool.false_eq_true, if_false, first, false_implies, and_true]
      exact ⟨fun _ => none_allowed, fun _ => ⟨_, trail_head attempts _ events, rfl⟩⟩
    | true =>
      simp only [if_true, forall_const, none_allowed, ne_eq, not_false_eq_true, true_and]
      cases events with
      | nil => simp [trail, missed, Progress.isPaying]
      | cons event rest =>
        cases event with
        | lookup outcome =>
          cases answer : outcome.answer with
          | none =>
            simp only [missed, answer, Option.isNone_none, iff_true]
            refine ⟨.paying 1, ?_, rfl⟩
            simp only [trail, Progress.next, answer, first]
            exact List.mem_cons_of_mem _ (trail_head attempts _ rest)
          | some txId =>
            have ended : trail attempts (.settled txId) rest = [.settled txId] := by
              cases rest with
              | nil => rfl
              | cons event rest => cases event <;> rfl
            simp [missed, answer, trail, Progress.next, ended, Progress.isPaying]
        | _ => simp [missed, trail, Progress.next, Progress.isPaying]

theorem PaidAs.pays_iff {seq next : Nat} {row : PersistedAccrual} {records : List StoredRecord}
    {run : PayoutRun} (paid : PaidAs cfg now seq row records run next)
    (events : String → List PayoutEvent) :
    payoutCalls cfg run (events run.job.payoutId) ≠ [] ↔
      ¬ (cfg.attempts = 0 ∨
        ∃ batchId, resumedId row = some batchId ∧ missed (events ("batch/" ++ batchId)) = false) := by
  have started := paid.pays.2.2.2
  have called : payoutCalls cfg run (events run.job.payoutId) ≠ [] ↔
      cfg.attempts ≠ 0 ∧
        (run.job.checkLandedFirst = true → missed (events run.job.payoutId) = true) := by
    rw [← start_pays_iff, ← started]
    constructor
    · intro made
      obtain ⟨request, called⟩ := List.exists_mem_of_ne_nil _ made
      exact ((mem_payoutCalls cfg run _ request).mp called).1
    · intro visited
      exact List.ne_nil_of_mem ((mem_payoutCalls cfg run _ _).mpr ⟨visited, rfl⟩)
  rw [called]
  cases paid with
  | resumed sum owes id => simp [recoveredRun, batchJob, id]
  | fresh sum owes id => simp [recoveredRun, batchJob, id]

theorem settled_never_repaid_iff (stored : cfg.accrualStore = true)
    (history : Option (List StoredRecord)) (openRows batches : List PersistedAccrual)
    (events : String → List PayoutEvent) :
    (∀ run ∈ (boot cfg now history (some (openRows, batches))).svc.payouts,
      ∀ request ∈ payoutCalls cfg run (events run.job.payoutId), ∀ record ∈ request.records,
        ¬ restoredSettled cfg history record.requestId) ↔
      ∀ before row after, batches ++ openRows = before ++ row :: after → Readable before →
        (∃ record ∈ remaining before row,
          restoredSettled cfg history (record.requestId.getD "")) →
        amount (remaining before row) = none ∨ amount (remaining before row) = some 0 ∨
          cfg.attempts = 0 ∨
          ∃ batchId, resumedId row = some batchId ∧
            missed (events ("batch/" ++ batchId)) = false := by
  have pass := boot_pass cfg now stored history openRows batches
  constructor
  · intro unpaid before row after split readable listed
    obtain ⟨record, member, settled⟩ := listed
    cases sum : amount (remaining before row) with
    | none => exact .inl rfl
    | some summed =>
      by_cases owes : summed = 0
      · exact .inr (.inl (by rw [owes]))
      · obtain ⟨run, started, seq, next, paid⟩ := pass.serves before row after split
          ((readable_iff_summable before).mp readable) summed (by rw [List.append_nil]; exact sum)
          owes
        rw [List.append_nil] at paid
        refine .inr (.inr (not_not.mp fun able => ?_))
        obtain ⟨request, called⟩ :=
          List.exists_mem_of_ne_nil _ ((paid.pays_iff cfg now events).mpr able)
        have made := ((mem_payoutCalls cfg run _ request).mp called).2
        apply unpaid run started request called record.cast _ settled
        rw [made]
        change record.cast ∈ run.job.records
        rw [paid.pays.2.1]
        exact List.mem_map_of_mem member
  · intro guarded run started request called record member settled
    obtain ⟨before, row, after, seq, next, split, readable, paid⟩ := pass.source run started
    rw [List.append_nil] at paid
    have made := ((mem_payoutCalls cfg run _ request).mp called).2
    rw [made] at member
    change record ∈ run.job.records at member
    rw [paid.pays.2.1] at member
    obtain ⟨raw, inside, rfl⟩ := List.mem_map.mp member
    have able := (paid.pays_iff cfg now events).mp (List.ne_nil_of_mem called)
    have sum : amount (remaining before row) = some run.job.amountAtomic := paid.pays.2.2.1
    rcases guarded before row after split ((readable_iff_summable before).mpr readable)
        ⟨raw, inside, settled⟩ with unsummed | zero | held
    · rw [sum] at unsummed
      cases unsummed
    · rw [sum] at zero
      cases paid with
      | resumed _ owes => exact owes (by simpa [recoveredRun, batchJob] using zero)
      | fresh _ owes => exact owes (by simpa [recoveredRun, batchJob] using zero)
    · exact able held

def audited : Deps := { World.demoDeps with ledgerStore := true }

-- The open row was never dropped, and the ledger shows its request as settled.
theorem settled_request_repaid :
    ∃ (history : List StoredRecord) (openRows : List PersistedAccrual),
      ∃ run ∈ (boot audited (fun _ => 20) (some history) (some (openRows, []))).svc.payouts,
      ∃ request ∈ payoutCalls audited run [], ∃ record ∈ request.records,
        restoredSettled audited (some history) record.requestId :=
  ⟨[storedAs "r1" "1700" "OPERATOR" .settled], [openRow "OPERATOR" "r1" "1700"], by decide⟩

-- The payout of a stored batch had landed, and the first lookup finds it.
theorem settled_batch_found :
    restoredSettled audited (some [storedAs "r1" "1700" "OPERATOR" .settled]) "r1" ∧
      ∀ run ∈ (boot audited (fun _ => 20) (some [storedAs "r1" "1700" "OPERATOR" .settled])
          (some ([], [{ openRow "OPERATOR" "r1" "1700" with batchId := some "b1" }]))).svc.payouts,
        ∀ request ∈ payoutCalls audited run [.lookup (.found "TX")], ∀ record ∈ request.records,
          ¬ restoredSettled audited (some [storedAs "r1" "1700" "OPERATOR" .settled])
            record.requestId := by
  refine ⟨by decide, ?_⟩
  apply (settled_never_repaid_iff audited (fun _ => 20) rfl
    (some [storedAs "r1" "1700" "OPERATOR" .settled]) []
    [{ openRow "OPERATOR" "r1" "1700" with batchId := some "b1" }]
    fun _ => [.lookup (.found "TX")]).mpr
  intro before row after split _ _
  have only : before = [] := by
    cases before with
    | nil => rfl
    | cons first rest => simp at split
  subst only
  simp only [List.append_nil, List.nil_append, List.cons.injEq] at split
  exact .inr (.inr (.inr ⟨"b1", by rw [← split.1]; rfl, rfl⟩))

end X402Mesh.Settlement.Service
