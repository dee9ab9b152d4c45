import X402Mesh.Settlement.Boot

set_option autoImplicit false

namespace X402Mesh.Settlement

open Registry Money Text

namespace Service

variable (cfg : Deps)

section claims

variable (svc : Service)

theorem flushAccrual_claimed (operatorAddress : String) (now : Nat) :
    (flushAccrual cfg svc operatorAddress now).claimed = svc.claimed := by
  unfold flushAccrual
  cases svc.accruals.get? operatorAddress with
  | none => rfl
  | some accrual =>
    dsimp only
    split
    next => rfl
    next => cases sumPayouts accrual.records <;> simp [carve, runPayout]

theorem flushPayouts_claimed (now : Nat → Nat) :
    (flushPayouts cfg svc now).claimed = svc.claimed := by
  unfold flushPayouts
  induction svc.accruals.keys generalizing svc with
  | nil => rfl
  | cons operatorAddress rest ih =>
    rw [List.foldl_cons, ih, flushAccrual_claimed]

theorem push_claimed (record : SettlementRecord) (payout : Int) (accruedAt flushedAt : Nat) :
    (push cfg svc record payout accruedAt flushedAt).claimed = svc.claimed := by
  unfold push
  dsimp only
  split
  next => rw [flushAccrual_claimed, putAccrual_claimed]
  next =>
    split
    next => rw [flushAccrual_claimed, putAccrual_claimed]
    next => simp [armTimer, persistOpen]

theorem schedule_claims (record : SettlementRecord) (now : Readings) :
    ∀ id ∈ svc.claimed, id ∈ (schedule cfg svc record now).claimed := by
  intro id held
  unfold schedule
  cases bigInt record.payoutAtomic with
  | none => exact held
  | some payout =>
    dsimp only
    split
    next => exact (updateAll_bookkeeping cfg svc _ _).claimed id held
    next =>
      split
      next =>
        rw [accrue, push_claimed]
        exact (update_bookkeeping cfg { svc with accepted := svc.accepted ++ [record] } _ _).claimed
          id held
      next => exact held

theorem settleInbound_claims (inbound : InboundSettlement) (now : Readings) :
    ∀ id ∈ svc.claimed, id ∈ (settleInbound cfg svc inbound now).claimed := by
  intro id held
  unfold settleInbound
  cases svc.routing.get? inbound.requestId with
  | none => exact held
  | some note =>
    dsimp only
    split
    next => exact held
    next =>
      cases openRecord cfg inbound note now.createdAt with
      | error e => exact List.mem_cons_of_mem _ held
      | ok record =>
        apply schedule_claims
        exact (remember_bookkeeping cfg _ record).claimed id (List.mem_cons_of_mem _ held)

-- A claimed request is not taken on again.
theorem settleInbound_claimed (inbound : InboundSettlement) (now : Readings)
    (claimed : inbound.requestId ∈ svc.claimed) :
    (settleInbound cfg svc inbound now).payouts = svc.payouts ∧
      (settleInbound cfg svc inbound now).accruals = svc.accruals ∧
      (settleInbound cfg svc inbound now).outbox = svc.outbox := by
  unfold settleInbound
  cases svc.routing.get? inbound.requestId with
  | none => exact ⟨rfl, rfl, rfl⟩
  | some note => simp [claimed]

theorem resumePayout_claims (svc' : Service) (index : Nat) (event : PayoutEvent)
    (attemptAt settledAt : Nat)
    (resumed : resumePayout cfg svc index event attemptAt settledAt = some svc') :
    ∀ id ∈ svc.claimed, id ∈ svc'.claimed := by
  intro id held
  obtain ⟨run, progress, -, -, kept⟩ :=
    resumePayout_cases cfg svc svc' index event attemptAt settledAt resumed
  apply kept.claimed
  rw [(discharged_frame cfg _ run.job progress attemptAt).2.2.1]
  exact held

theorem reseed_claims (records : List SettlementRecord) :
    ∀ record ∈ records, record.requestId ∈ (reseed cfg svc records).claimed := by
  induction records generalizing svc with
  | nil => simp
  | cons first rest ih =>
    intro record member
    rcases List.mem_cons.mp member with rfl | later
    · apply (reseed_bookkeeping cfg _ rest).claimed
      dsimp only
      split
      next => exact List.mem_cons_self
      next => exact (remember_bookkeeping cfg _ record).claimed _ List.mem_cons_self
    · exact ih _ record later

theorem dropRecovered_claimed (row : PersistedAccrual) :
    (dropRecovered cfg (svc.dropLiability row.batchId) row).claimed = svc.claimed := by
  cases id : row.batchId <;> simp [dropRecovered, dropLiability, id]

theorem recoverPay_claimed (row : PersistedAccrual) (records : List StoredRecord) (summed : Int)
    (now : Nat → Nat) : (recoverPay cfg svc row records summed now).claimed = svc.claimed := by
  cases id : resumedId row <;> simp [recoverPay, payRow, runPayout, id]

end claims

-- Every request that recovery has handled is claimed.
def Recovery.Claims (state : Recovery) : Prop := ∀ id ∈ state.handled, id ∈ state.svc.claimed

theorem recoverRow_claims (now : Nat → Nat) (state : Recovery) (claims : state.Claims)
    (row : PersistedAccrual) : (recoverRow cfg now state row).Claims ∧
      ∀ id ∈ state.svc.claimed, id ∈ (recoverRow cfg now state row).svc.claimed := by
  have seeded (id : String) (member : id ∈ requestIdsOf (payable state.handled row) ++ state.handled) :
      id ∈ (reseed cfg state.svc ((payable state.handled row).map (·.cast))).claimed := by
    rcases List.mem_append.mp member with own | earlier
    · obtain ⟨record, inside, rfl⟩ := List.mem_map.mp own
      exact reseed_claims cfg state.svc _ record.cast (List.mem_map_of_mem inside)
    · exact (reseed_bookkeeping cfg state.svc _).claimed id (claims id earlier)
  have kept := (reseed_bookkeeping cfg state.svc ((payable state.handled row).map (·.cast))).claimed
  unfold recoverRow Recovery.Claims
  dsimp only
  split
  next => exact ⟨claims, fun _ held => held⟩
  next =>
    split
    next =>
      rw [dropRecovered_claimed]
      exact ⟨claims, fun _ held => held⟩
    next =>
      cases sumPayouts ((payable state.handled row).map (·.cast)) with
      | none => exact ⟨seeded, kept⟩
      | some summed =>
        dsimp only
        split
        next =>
          rw [dropRecovered_claimed]
          exact ⟨seeded, kept⟩
        next =>
          rw [recoverPay_claimed]
          exact ⟨seeded, kept⟩

theorem recoverRows_claims (now : Nat → Nat) (rows : List PersistedAccrual) (state : Recovery)
    (claims : state.Claims) : (rows.foldl (recoverRow cfg now) state).Claims ∧
      ∀ id ∈ state.svc.claimed, id ∈ (rows.foldl (recoverRow cfg now) state).svc.claimed := by
  induction rows generalizing state with
  | nil => exact ⟨claims, fun _ held => held⟩
  | cons row rest ih =>
    rw [List.foldl_cons]
    obtain ⟨covered, kept⟩ := recoverRow_claims cfg now state claims row
    obtain ⟨coveredLater, keptLater⟩ := ih _ covered
    exact ⟨coveredLater, fun id held => keptLater id (kept id held)⟩

theorem recoverAccruals_claims (svc : Service)
    (loaded : Option (List PersistedAccrual × List PersistedAccrual)) (now : Nat → Nat) :
    ∀ id ∈ svc.claimed, id ∈ (recoverAccruals cfg svc loaded now).claimed := by
  intro id held
  unfold recoverAccruals
  split
  next =>
    cases loaded with
    | none => exact held
    | some loaded =>
      have own : Recovery.Claims ⟨svc, [], false⟩ := by simp [Recovery.Claims]
      exact (recoverRows_claims cfg now _ ⟨svc, [], false⟩ own).2 id held
  next => exact held

end Service

namespace World

variable {ι : Type} [DecidableEq ι] {cfg : Deps}

-- Process `i` goes on: everything may happen except its own restart.
def staysUp (i : ι) : Action ι → Prop
  | .restart j => j ≠ i
  | .boot j .. => j ≠ i
  | _ => True

theorem turn_claims {w : World ι} {i j : ι} {svc : Service}
    (claims : ∀ id ∈ (w.service i).claimed, id ∈ svc.claimed) :
    ∀ id ∈ (w.service j).claimed, id ∈ ((w.turn i svc).service j).claimed := by
  intro id held
  rw [turn_service]
  split
  next same => exact claims id (same ▸ held)
  next => exact held

theorem setWrites_claims {w : World ι} {i j : ι} {key : String} {works : List (Work StoreOp)} :
    ∀ id ∈ (w.service j).claimed, id ∈ ((w.setWrites i key works).service j).claimed := by
  intro id held
  rw [setWrites_service]
  split
  next same => exact same ▸ held
  next => exact held

theorem step_claims {w w' : World ι} {i : ι} {a : Action ι} (up : staysUp i a)
    (taken : step cfg w a = some w') :
    ∀ id ∈ (w.service i).claimed, id ∈ (w'.service i).claimed := by
  cases a with
  | recordRouting j requestId nodeId operatorAddress now =>
    cases taken
    exact turn_claims fun _ held => held
  | settleInbound j inbound now =>
    cases taken
    exact turn_claims (Service.settleInbound_claims cfg _ inbound now)
  | deadline j operatorAddress now =>
    rw [deadline_inv taken]
    apply turn_claims
    rw [Service.flushAccrual_claimed]
    exact fun _ held => held
  | flushPayouts j now =>
    cases taken
    apply turn_claims
    rw [Service.flushPayouts_claimed]
    exact fun _ held => held
  | payout j index event attemptAt settledAt =>
    obtain ⟨svc, run, progress, resumed, -, -, rfl⟩ := payout_inv taken
    have claims := Service.resumePayout_claims cfg (w.service j) svc index event attemptAt settledAt
      resumed
    exact turn_claims (w := w.recordOutcome run.job event progress) claims
  | callWrite j key =>
    obtain ⟨works, -, rfl⟩ := callWrite_inv taken
    exact setWrites_claims
  | applyWrite j key =>
    obtain ⟨op, works, rows, -, -, rfl⟩ := applyWrite_inv taken
    exact setWrites_claims (w := w.withRows rows)
  | resolveWrite j key =>
    obtain ⟨op, works, -, rfl⟩ := resolveWrite_inv taken
    exact setWrites_claims (w := { w with trace := w.trace ++ completed op })
  | rejectWrite j key =>
    obtain ⟨works, -, rfl⟩ := rejectWrite_inv taken
    exact setWrites_claims
  | readOpen j addresses =>
    rw [readOpen_inv taken]
    exact fun _ held => held
  | readBatches j batchIds =>
    rw [readBatches_inv taken]
    exact fun _ held => held
  | hydrateLedger j history =>
    cases taken
    exact turn_claims (Service.hydrateLedger_bookkeeping cfg _ history).claimed
  | recoverAccruals j ok now =>
    cases taken
    exact turn_claims (Service.recoverAccruals_claims cfg _ _ now)
  | restart j =>
    cases taken
    intro id held
    rw [restart_service, if_neg (Ne.symm up)]
    exact held
  | boot j addresses batchIds history ok now =>
    obtain ⟨-, -, rfl⟩ := boot_inv taken
    intro id held
    rw [turn_service, if_neg (Ne.symm up), restart_service, if_neg (Ne.symm up)]
    exact held

theorem run_claims {w w' : World ι} {i : ι}
    (run : Transition.Run (step cfg) (fun _ a => staysUp i a) w w') :
    ∀ id ∈ (w.service i).claimed, id ∈ (w'.service i).claimed := by
  induction run with
  | refl => exact fun _ held => held
  | tail _ up taken ih => exact fun id held => step_claims up taken id (ih id held)

end World

namespace Service

structure StoredDebt (rows : List PersistedAccrual) : Prop where
  positive : ∀ row ∈ rows, ∀ record ∈ row.records, record.usable = true →
    ∃ text, record.payoutAtomic = some text ∧ isDecimal text.toList = true ∧
      0 < decimalValue text.toList
  once : ∀ row ∈ rows, (rowIds row).Nodup

structure PaysRow (cfg : Deps) (rows : List PersistedAccrual) (row : PersistedAccrual)
    (run : PayoutRun) : Prop where
  receiver : run.job.receiver = row.operatorAddress
  records : run.job.records.Sublist ((row.records.filter (·.usable)).map (·.cast))
  summed : sumPayouts run.job.records = some run.job.amountAtomic
  started : run.progress = Progress.start cfg.attempts run.job
  resumed : ∀ batchId, resumedId row = some batchId →
    run.job.payoutId = "batch/" ++ batchId ∧ run.job.batchId = some batchId ∧
      run.job.checkLandedFirst = true
  fresh : resumedId row = none → ∃ batchId, run.job.payoutId = "batch/" ++ batchId ∧
    run.job.batchId = some batchId ∧ run.job.checkLandedFirst = false ∧
      ∀ other ∈ rows, other.batchId ≠ some batchId

structure Partitions (cfg : Deps) (rows : List PersistedAccrual) (runs : List PayoutRun) :
    Prop where
  once : (runs.flatMap (·.job.requestIds)).Nodup
  covers : ∀ id, id ∈ runs.flatMap (·.job.requestIds) ↔ id ∈ rows.flatMap rowIds
  served : ∃ served, served.Sublist rows ∧ List.Forall₂ (PaysRow cfg rows) served runs
  distinct : runs.Pairwise fun a b =>
    a.job.checkLandedFirst = true ∧ b.job.checkLandedFirst = true ∨ a.job.batchId ≠ b.job.batchId

theorem StoredDebt.tail {row : PersistedAccrual} {rest : List PersistedAccrual}
    (debt : StoredDebt (row :: rest)) : StoredDebt rest :=
  ⟨fun other member => debt.positive other (List.mem_cons_of_mem _ member),
    fun other member => debt.once other (List.mem_cons_of_mem _ member)⟩

-- What is left of a row owes something, unless nothing is left.
theorem StoredDebt.amount {row : PersistedAccrual} {rest : List PersistedAccrual}
    (debt : StoredDebt (row :: rest)) (handled : List String) :
    ∃ summed, amount (payable handled row) = some summed ∧
      (payable handled row ≠ [] → summed ≠ 0) := by
  have positive : ∀ record ∈ payable handled row,
      ∃ payout, bigInt record.cast.payoutAtomic = some payout ∧ 0 < payout := by
    intro record member
    obtain ⟨inside, usable, -⟩ := (mem_payable handled row record).mp member
    obtain ⟨text, shown, digits, owes⟩ := debt.positive row (by simp) record inside usable
    have parsed := bigInt_decimal text.toList digits
    rw [String.ofList_toList] at parsed
    exact ⟨_, by simpa [StoredRecord.cast, shown] using parsed, owes⟩
  have total (records : List StoredRecord)
      (positive : ∀ record ∈ records,
        ∃ payout, bigInt record.cast.payoutAtomic = some payout ∧ 0 < payout) :
      ∃ summed, sumPayouts (records.map (·.cast)) = some summed ∧ 0 ≤ summed ∧
        (records ≠ [] → 0 < summed) := by
    induction records with
    | nil => exact ⟨0, rfl, by omega, by simp⟩
    | cons record rest ih =>
      obtain ⟨payout, parsed, owes⟩ := positive record (by simp)
      obtain ⟨summed, later, least, -⟩ := ih fun other member => positive other (by simp [member])
      exact ⟨payout + summed, by simp [sumPayouts, parsed, later], by omega, fun _ => by omega⟩
  obtain ⟨summed, sum, -, owes⟩ := total _ positive
  refine ⟨summed, sum, fun left => ?_⟩
  have := owes left
  omega

theorem PaidAs.requestIds {cfg : Deps} {now : Nat → Nat} {seq next : Nat}
    {row : PersistedAccrual} {records : List StoredRecord} {run : PayoutRun}
    (paid : PaidAs cfg now seq row records run next) :
    run.job.requestIds = requestIdsOf records := by
  rw [PayoutJob.requestIds, paid.pays.2.1, List.map_map]
  rfl

variable {cfg : Deps} {now : Nat → Nat} {handled : List String} {seq : Nat}
variable {rows : List PersistedAccrual} {runs : List PayoutRun} {stopped : Bool}

-- The payouts of a pass cover what the rows list and nothing was handled of.
theorem Pass.covers (pass : Pass cfg now handled seq rows runs stopped) (debt : StoredDebt rows)
    (id : String) :
    id ∈ runs.flatMap (·.job.requestIds) ↔ id ∈ rows.flatMap rowIds ∧ id ∉ handled := by
  have split (handled : List String) (row : PersistedAccrual) (later : Prop) :
      id ∈ requestIdsOf (payable handled row) ∨
          later ∧ id ∉ requestIdsOf (payable handled row) ++ handled ↔
        (id ∈ rowIds row ∨ later) ∧ id ∉ handled := by
    have own := payable_ids handled row id
    have all := mem_handled handled row id
    rw [List.mem_append] at all ⊢
    tauto
  induction pass with
  | done => simp
  | @halted handled seq row rest unsummed =>
    obtain ⟨summed, sum, -⟩ := debt.amount handled
    rw [unsummed] at sum
    cases sum
  | @nothing handled seq row rest runs stopped zero later ih =>
    obtain ⟨summed, sum, owes⟩ := debt.amount handled
    have empty : payable handled row = [] := by
      by_contra left
      rw [zero] at sum
      exact owes left (Option.some.inj sum).symm
    have tail : _ ↔ _ := ih debt.tail
    have parted := split handled row (id ∈ rest.flatMap rowIds)
    rw [List.flatMap_cons, List.mem_append (s := rowIds row), ← parted, tail]
    simp [empty, requestIdsOf]
  | @pays handled seq next row rest run runs stopped paid later ih =>
    have tail : _ ↔ _ := ih debt.tail
    rw [List.flatMap_cons, List.mem_append, tail, paid.requestIds]
    rw [List.flatMap_cons (f := rowIds), List.mem_append (s := rowIds row)]
    exact split handled row (id ∈ rest.flatMap rowIds)

theorem Pass.stopped_of_debt (pass : Pass cfg now handled seq rows runs stopped)
    (debt : StoredDebt rows) : stopped = false := by
  induction pass with
  | done => rfl
  | @halted handled seq row rest unsummed =>
    obtain ⟨summed, sum, -⟩ := debt.amount handled
    rw [unsummed] at sum
    cases sum
  | nothing _ _ ih => exact ih debt.tail
  | pays _ _ ih => exact ih debt.tail

theorem Pass.once (pass : Pass cfg now handled seq rows runs stopped) (debt : StoredDebt rows) :
    (runs.flatMap (·.job.requestIds)).Nodup := by
  induction pass with
  | done => simp
  | halted => simp
  | nothing _ _ ih => exact ih debt.tail
  | @pays handled seq next row rest run runs stopped paid later ih =>
    rw [List.flatMap_cons, List.nodup_append]
    refine ⟨?_, ih debt.tail, ?_⟩
    next =>
      rw [paid.requestIds]
      apply List.Nodup.sublist _ (debt.once row (by simp))
      exact (List.filter_sublist (p := _)).map _
    next =>
      intro id own other elsewhere same
      subst same
      rw [paid.requestIds] at own
      exact ((later.covers debt.tail id).mp elsewhere).2 (List.mem_append_left _ own)

-- Cut at its dash, such an id is the name of a clock reading and a number with an `r` before it.
theorem recoveredIdOf_cut (a b : Nat) :
    recoveredIdOf a b = toString36 a ++ "-" ++ ("r" ++ toString36 b) := by
  have dash : "-r" = "-" ++ "r" := rfl
  rw [recoveredIdOf, dash, String.append_assoc, String.append_assoc, String.append_assoc]

theorem recoveredIdOf_injective {m n : Nat}
    (same : recoveredIdOf (now m) m = recoveredIdOf (now n) n) : m = n := by
  rw [recoveredIdOf_cut, recoveredIdOf_cut] at same
  obtain ⟨-, suffix⟩ := dash_cut _ _ _ _ same
  exact toString36_injective (String.append_right_inj "r" |>.mp suffix)

theorem PaidAs.paysRow {seq next : Nat} {row : PersistedAccrual} {run : PayoutRun}
    {all : List PersistedAccrual}
    (unused : ∀ other ∈ all, ∀ n, other.batchId ≠ some (recoveredIdOf (now n) n))
    (paid : PaidAs cfg now seq row (payable handled row) run next) : PaysRow cfg all row run := by
  obtain ⟨receiver, records, summed, started⟩ := paid.pays
  refine ⟨receiver, ?_, by rw [records]; exact summed, started, ?_, ?_⟩
  next =>
    rw [records]
    exact (List.filter_sublist (p := _)).map _
  next =>
    intro batchId id
    cases paid with
    | resumed _ _ own =>
      obtain rfl := Option.some.inj (own.symm.trans id)
      exact ⟨rfl, rfl, rfl⟩
    | fresh _ _ absent => cases absent.symm.trans id
  next =>
    intro absent
    cases paid with
    | resumed _ _ own => cases own.symm.trans absent
    | fresh => exact ⟨_, rfl, rfl, rfl, fun other member => unused other member _⟩

theorem Pass.served (pass : Pass cfg now handled seq rows runs stopped)
    (all : List PersistedAccrual)
    (unused : ∀ other ∈ all, ∀ n, other.batchId ≠ some (recoveredIdOf (now n) n)) :
    ∃ served, served.Sublist rows ∧ List.Forall₂ (PaysRow cfg all) served runs := by
  induction pass with
  | done => exact ⟨[], .slnil, .nil⟩
  | halted => exact ⟨[], List.nil_sublist _, .nil⟩
  | nothing _ _ ih =>
    obtain ⟨served, inside, paid⟩ := ih
    exact ⟨served, inside.cons _, paid⟩
  | @pays handled seq next row rest run runs stopped own _ ih =>
    obtain ⟨served, inside, paid⟩ := ih
    exact ⟨row :: served, inside.cons_cons _, .cons (own.paysRow unused) paid⟩

-- A payout that is not resumed is numbered after `seq`.
theorem Pass.numbered (pass : Pass cfg now handled seq rows runs stopped) :
    ∀ run ∈ runs, run.job.checkLandedFirst = true ∧ (∃ row ∈ rows, run.job.batchId = row.batchId) ∨
      run.job.checkLandedFirst = false ∧
        ∃ n, seq < n ∧ run.job.batchId = some (recoveredIdOf (now n) n) := by
  induction pass with
  | done => simp
  | halted => simp
  | nothing _ _ ih =>
    intro run member
    apply (ih run member).imp_left
    rintro ⟨first, row, inside, id⟩
    exact ⟨first, row, List.mem_cons_of_mem _ inside, id⟩
  | @pays handled seq next row rest run runs stopped paid _ ih =>
    intro other member
    have grown : seq ≤ next := by
      cases paid with
      | resumed => exact Nat.le_refl _
      | fresh => exact Nat.le_succ _
    rcases List.mem_cons.mp member with rfl | tail
    · cases paid with
      | resumed _ _ id =>
        refine .inl ⟨rfl, row, by simp, ?_⟩
        exact ((Option.filter_eq_some_iff.mp id).1).symm
      | fresh => exact .inr ⟨rfl, seq + 1, by omega, rfl⟩
    · rcases ih other tail with ⟨first, row, inside, id⟩ | ⟨first, n, above, id⟩
      · exact .inl ⟨first, row, List.mem_cons_of_mem _ inside, id⟩
      · exact .inr ⟨first, n, by omega, id⟩

theorem Pass.distinct (pass : Pass cfg now handled seq rows runs stopped)
    (unused : ∀ other ∈ rows, ∀ n, other.batchId ≠ some (recoveredIdOf (now n) n)) :
    runs.Pairwise fun a b =>
      a.job.checkLandedFirst = true ∧ b.job.checkLandedFirst = true ∨
        a.job.batchId ≠ b.job.batchId := by
  induction pass with
  | done => exact .nil
  | halted => exact .nil
  | nothing _ _ ih => exact ih fun other member => unused other (List.mem_cons_of_mem _ member)
  | @pays handled seq next row rest run runs stopped paid later ih =>
    have unusedLater := fun other member => unused other (List.mem_cons_of_mem row member)
    refine .cons (fun other member => ?_) (ih unusedLater)
    cases paid with
    | resumed sum owes id =>
      have own : row.batchId = _ := (Option.filter_eq_some_iff.mp id).1
      rcases later.numbered other member with ⟨first, -⟩ | ⟨-, n, -, name⟩
      · exact .inl ⟨rfl, first⟩
      · refine .inr fun same => unused row (by simp) n ?_
        exact own.trans (same.trans name)
    | fresh =>
      rcases later.numbered other member with ⟨-, stored, inside, name⟩ | ⟨-, n, above, name⟩
      · refine .inr fun same => unusedLater stored inside (seq + 1) ?_
        exact name.symm.trans same.symm
      · refine .inr fun same => ?_
        have equal := recoveredIdOf_injective (Option.some.inj (same.trans name))
        omega

theorem Pass.partitions (pass : Pass cfg now [] seq rows runs stopped) (debt : StoredDebt rows)
    (unused : ∀ row ∈ rows, ∀ n, row.batchId ≠ some (recoveredIdOf (now n) n)) :
    Partitions cfg rows runs where
  once := pass.once debt
  covers := fun id => by simpa using pass.covers debt id
  served := pass.served rows unused
  distinct := pass.distinct unused

/-- Whatever the reads of process `i` have answered. A row that `loadAll` takes from the batch index
carries an id, and one written by `putOpen` carries none. -/
theorem recovery_partitions {ι : Type} [DecidableEq ι] (stored : cfg.accrualStore = true)
    (w w' : World ι) (i : ι)
    (debt : StoredDebt ((w.reads i).batches ++ (w.reads i).openRows))
    (unused : ∀ row ∈ (w.reads i).batches ++ (w.reads i).openRows,
      ∀ n, row.batchId ≠ some (recoveredIdOf (now n) n))
    (taken : World.step cfg w (.recoverAccruals i true now) = some w') :
    ∃ runs, (w'.service i).payouts = (w.service i).payouts ++ runs ∧
      Partitions cfg ((w.reads i).batches ++ (w.reads i).openRows) runs ∧
      ∀ later, Transition.Run (World.step cfg) (fun _ a => World.staysUp i a) w' later →
        ∀ inbound readings,
          inbound.requestId ∈ ((w.reads i).batches ++ (w.reads i).openRows).flatMap rowIds →
            let after := settleInbound cfg (later.service i) inbound readings
            after.payouts = (later.service i).payouts ∧
              after.accruals = (later.service i).accruals ∧
              after.outbox = (later.service i).outbox := by
  obtain ⟨runs, pass, started⟩ := recoverRows_pass cfg now
    ((w.reads i).batches ++ (w.reads i).openRows) ⟨w.service i, [], false⟩ rfl
  have recovered : w' = w.turn i (((w.reads i).batches ++ (w.reads i).openRows).foldl
      (recoverRow cfg now) ⟨w.service i, [], false⟩).svc := by
    simpa [World.step, recoverAccruals, stored] using taken.symm
  have service : w'.service i = { (((w.reads i).batches ++ (w.reads i).openRows).foldl
      (recoverRow cfg now) ⟨w.service i, [], false⟩).svc with outbox := [] } := by
    rw [recovered, World.turn_service, if_pos rfl]
  refine ⟨runs, by rw [service]; exact started, pass.partitions debt unused, ?_⟩
  intro later run inbound readings listed
  have going := pass.stopped_of_debt debt
  obtain ⟨-, -, handled⟩ := recoverRows_handled cfg stored now _ _ going
  have claims := (recoverRows_claims cfg now ((w.reads i).batches ++ (w.reads i).openRows)
    ⟨w.service i, [], false⟩ (by simp [Recovery.Claims])).1
  obtain ⟨row, member, inside⟩ := List.mem_flatMap.mp listed
  have claimed : inbound.requestId ∈ (w'.service i).claimed := by
    rw [service]
    exact claims _ (handled row member _ inside)
  exact settleInbound_claimed cfg _ inbound readings (World.run_claims run _ claimed)

def overlapping : List PersistedAccrual × List PersistedAccrual :=
  ([⟨"OPERATOR", [storedAs "r1" "1700" "OPERATOR" .accrued, storedAs "r2" "1700" "OPERATOR" .accrued,
      { storedAs "r3" "1700" "OPERATOR" .accrued with payoutAtomic := none }], some 0, none⟩],
    [{ openRow "OPERATOR" "r1" "1700" with batchId := some "b1" }])

def overlapped : World Unit :=
  { (World.start Rows.empty : World Unit) with
    reads := fun _ => ⟨overlapping.1, overlapping.2⟩ }

theorem overlapping_debt : StoredDebt (overlapping.2 ++ overlapping.1) := by
  constructor
  next =>
    have amounts : ∀ row ∈ overlapping.2 ++ overlapping.1, ∀ record ∈ row.records,
        record.usable = true → record.payoutAtomic = some "1700" := by decide
    intro row member record inside usable
    exact ⟨"1700", amounts row member record inside usable, by decide, by decide⟩
  next => decide

theorem recovery_partitions_overlap :
    ∃ w', World.step World.demoDeps overlapped (.recoverAccruals () true fun _ => 20) = some w' ∧
      ∃ runs, (w'.service ()).payouts = [] ++ runs ∧
        Partitions World.demoDeps (overlapping.2 ++ overlapping.1) runs := by
  have unused : ∀ row ∈ overlapping.2 ++ overlapping.1,
      ∀ n, row.batchId ≠ some (recoveredIdOf 20 n) := by
    intro row member n same
    have names : ∀ row ∈ overlapping.2 ++ overlapping.1,
        row.batchId = none ∨ row.batchId = some "b1" := by decide
    rcases names row member with unnamed | named
    · cases unnamed.symm.trans same
    · have text := congrArg String.toList (Option.some.inj (named.symm.trans same))
      have twenty : toString36 20 = "k" := by decide
      simp [recoveredIdOf, twenty] at text
  refine ⟨_, rfl, ?_⟩
  obtain ⟨runs, started, partitions, -⟩ := @recovery_partitions World.demoDeps
    (fun _ => 20) Unit _ rfl overlapped _ () overlapping_debt unused rfl
  exact ⟨runs, started, partitions⟩

end Service

end X402Mesh.Settlement
