import X402Mesh.Settlement.Conservation
import X402Mesh.Settlement.RowView

set_option autoImplicit false

namespace X402Mesh.Settlement

open Registry Service

variable (cfg : Deps)

def openRow (accrual : Accrual) : PersistedAccrual :=
  persisted accrual.operatorAddress accrual.records accrual.firstAt none

structure RowFor (job : PayoutJob) (row : PersistedAccrual) : Prop where
  operatorAddress : row.operatorAddress = job.receiver
  records : row.records = job.records.map (·.stored)
  batchId : row.batchId = job.batchId

def BatchOf (svc : Service) (batchId receiver : String) : Prop :=
  ∃ (n : Nat) (run : PayoutRun), svc.payouts[n]? = some run ∧ run.job.batchId = some batchId ∧
    run.job.receiver = receiver

/-- What the writes still to come make of the rows. The open row of `dirty` is owed a write. -/
structure Durable (dirty : Option String) (rows : Rows) (svc : Service) : Prop where
  openRows : ∀ key, dirty ≠ some key →
    openAfter svc.arrays key (svc.pending key) (rows.openRows.get? key) =
      (svc.accruals.get? key).map openRow
  batchRows : ∀ (n : Nat) (run : PayoutRun) (batchId : String), svc.payouts[n]? = some run →
    run.job.batchId = some batchId →
    let after := batchAfter batchId (svc.pending run.job.receiver) (rows.batchRows.get? batchId)
    if run.progress.isSettled then after = none else ∃ row, after = some row ∧ RowFor run.job row
  ownKey : ∀ key op, op ∈ svc.pending key → ∀ other, openKey op = some other → other = key
  ownBatch : ∀ key op, op ∈ svc.pending key → ∀ batchId, batchKey op = some batchId →
    BatchOf svc batchId key
  stored : ∀ batchId row, rows.batchRows.get? batchId = some row →
    ∃ receiver, BatchOf svc batchId receiver

theorem durable_init : Durable none .empty .init where
  openRows := by intro key _; rfl
  batchRows := by intro n run batchId found; simp [Service.init] at found
  ownKey := by simp
  ownBatch := by simp
  stored := by intro batchId row found; cases found

theorem batchAfter_append (batchId : String) (first second : List StoreOp)
    (row : Option PersistedAccrual) :
    batchAfter batchId (first ++ second) row = batchAfter batchId second (batchAfter batchId first row) :=
  List.foldl_append

theorem openAfter_append (arrays : String → Nat → List SettlementRecord) (key : String)
    (first second : List StoreOp) (row : Option PersistedAccrual) :
    openAfter arrays key (first ++ second) row =
      openAfter arrays key second (openAfter arrays key first row) :=
  List.foldl_append

theorem Durable.bookkeeping {dirty : Option String} {rows : Rows} {before after : Service}
    (durable : Durable dirty rows before) (kept : Bookkeeping before after) :
    Durable dirty rows after where
  openRows := by
    intro key clean
    obtain ⟨records, queued⟩ := kept.pending key
    rw [queued, openAfter_append, openAfter_ledger, kept.arrays, kept.accruals]
    exact durable.openRows key clean
  batchRows := by
    intro n run batchId found id
    rw [kept.payouts] at found
    obtain ⟨records, queued⟩ := kept.pending run.job.receiver
    rw [queued, batchAfter_append, batchAfter_ledger]
    exact durable.batchRows n run batchId found id
  ownKey := by
    intro key op member other own
    obtain ⟨records, queued⟩ := kept.pending key
    rw [queued, List.mem_append] at member
    rcases member with old | ledger
    · exact durable.ownKey key op old other own
    · obtain ⟨record, -, rfl⟩ := List.mem_map.mp ledger
      cases own
  ownBatch := by
    intro key op member batchId own
    obtain ⟨records, queued⟩ := kept.pending key
    rw [queued, List.mem_append] at member
    unfold BatchOf
    rw [kept.payouts]
    rcases member with old | ledger
    · exact durable.ownBatch key op old batchId own
    · obtain ⟨record, -, rfl⟩ := List.mem_map.mp ledger
      cases own
  stored := by
    unfold BatchOf
    rw [kept.payouts]
    exact durable.stored

section turns

variable {cfg} {rows : Rows} {svc : Service}

theorem Durable.hold (stored : cfg.accrualStore = true) (durable : Durable none rows svc)
    (sound : Sound svc) (record : SettlementRecord) (accruedAt : Nat) :
    Durable none rows (hold cfg svc record accruedAt) where
  openRows := by
    intro key _
    have keyed := svc.grown_operatorAddress record accruedAt sound
    rw [hold_pending cfg svc record accruedAt sound, hold_get? cfg svc record accruedAt sound,
      openAfter_append]
    by_cases same : key = record.operatorAddress
    · simp [same, stored, openAfter, openStep, openRow, putAccrual, keyed]
    · have untouched : (Service.hold cfg svc record accruedAt).arrays key = svc.arrays key := by
        funext serial
        simp [putAccrual, keyed, same]
      rw [if_neg (fun here => same here.1), if_neg same]
      have same := openAfter_congr svc.arrays _ key untouched (svc.pending key)
        (rows.openRows.get? key)
      exact same.trans (durable.openRows key (by simp))
  batchRows := by
    intro n run batchId found id
    rw [hold_payouts] at found
    rw [hold_pending cfg svc record accruedAt sound, batchAfter_append]
    have before := durable.batchRows n run batchId found id
    split
    · simpa [batchAfter, batchStep] using before
    · simpa [batchAfter] using before
  ownKey := by
    intro key op member other own
    rw [hold_pending cfg svc record accruedAt sound, List.mem_append] at member
    rcases member with old | added
    · exact durable.ownKey key op old other own
    · split at added
      · rename_i here
        obtain rfl := List.mem_singleton.mp added
        simpa [openKey, here.1, eq_comm] using own
      · cases added
  ownBatch := by
    intro key op member batchId own
    rw [hold_pending cfg svc record accruedAt sound, List.mem_append] at member
    unfold BatchOf
    rw [hold_payouts]
    rcases member with old | added
    · exact durable.ownBatch key op old batchId own
    · split at added
      · obtain rfl := List.mem_singleton.mp added
        cases own
      · cases added
  stored := by
    unfold BatchOf
    rw [hold_payouts]
    exact durable.stored

theorem Durable.putAccrual (durable : Durable none rows svc) (sound : Sound svc)
    (record : SettlementRecord) (accruedAt : Nat) :
    Durable (some record.operatorAddress) rows
      (svc.putAccrual (svc.grown record accruedAt)) where
  openRows := by
    intro key clean
    have keyed := svc.grown_operatorAddress record accruedAt sound
    have other : key ≠ record.operatorAddress := fun same => clean (by rw [same])
    have untouched : (svc.putAccrual (svc.grown record accruedAt)).arrays key = svc.arrays key := by
      funext serial
      simp [Service.putAccrual, keyed, other]
    rw [openAfter_congr svc.arrays _ key untouched, putAccrual_other svc _ key (by rwa [keyed])]
    exact durable.openRows key (by simp)
  batchRows := durable.batchRows
  ownKey := durable.ownKey
  ownBatch := durable.ownBatch
  stored := durable.stored

theorem BatchOf.detach {batchId receiver : String} (known : BatchOf svc batchId receiver)
    (operatorAddress : String) (accrual : Accrual) (now : Nat) :
    BatchOf (detach cfg svc operatorAddress accrual now) batchId receiver := by
  obtain ⟨n, run, found, rest⟩ := known
  refine ⟨n, run, ?_, rest⟩
  rw [detach_payouts, getElem?_concat]
  exact .inl found

theorem Durable.detach (stored : cfg.accrualStore = true) {dirty : Option String}
    (durable : Durable dirty rows svc) (conserved : Conserved svc) (operatorAddress : String)
    (accrual : Accrual) (now : Nat) (found : svc.accruals.get? operatorAddress = some accrual)
    (only : ∀ key, dirty = some key → key = operatorAddress) :
    Durable none rows (detach cfg svc operatorAddress accrual now) where
  openRows := by
    intro key _
    rw [detach_pending, detach_accruals, detach_arrays, openAfter_append, OrderedMap.get?_erase]
    by_cases same : key = operatorAddress
    · simp [same, stored, openAfter, openStep]
    · have clean : dirty ≠ some key := fun owed => same (only key owed)
      simpa [same, openAfter] using durable.openRows key clean
  batchRows := by
    intro n run batchId present id
    rw [detach_payouts, getElem?_concat] at present
    rw [detach_pending, batchAfter_append]
    rcases present with old | ⟨-, rfl⟩
    · have other : svc.detachedId now ≠ batchId := fun same =>
        conserved.detachedId_fresh now old (by rw [id, same])
      have before := durable.batchRows n run batchId old id
      split
      · simpa [batchAfter, batchStep, other] using before
      · simpa [batchAfter] using before
    · obtain rfl : svc.detachedId now = batchId := by
        simpa [detachedJob, batchJob] using id
      simp only [start_unsettled, Bool.false_eq_true, if_false]
      have held := conserved.sound _ _ found
      refine ⟨persisted accrual.operatorAddress accrual.records accrual.firstAt
        (some (svc.detachedId now)), ?_, held.keyed, rfl, rfl⟩
      simp [detachedJob, batchJob, stored, batchAfter, batchStep]
  ownKey := by
    intro key op member other own
    rw [detach_pending, List.mem_append] at member
    rcases member with old | added
    · exact durable.ownKey key op old other own
    · split at added
      · rename_i here
        simp only [List.mem_cons, List.not_mem_nil, or_false] at added
        rcases added with rfl | rfl
        · cases own
        · simpa [openKey, here.1, eq_comm] using own
      · cases added
  ownBatch := by
    intro key op member batchId own
    rw [detach_pending, List.mem_append] at member
    rcases member with old | added
    · exact (durable.ownBatch key op old batchId own).detach operatorAddress accrual now
    · split at added
      · rename_i here
        simp only [List.mem_cons, List.not_mem_nil, or_false] at added
        rcases added with rfl | rfl
        · obtain rfl : svc.detachedId now = batchId := by simpa [batchKey] using own
          have last : (Service.detach cfg svc operatorAddress accrual now).payouts[
              svc.payouts.length]? = some ⟨svc.detachedJob operatorAddress accrual now,
                Progress.start cfg.attempts (svc.detachedJob operatorAddress accrual now)⟩ := by
            simp
          exact ⟨_, _, last, rfl, here.1.symm⟩
        · cases own
      · cases added
  stored := by
    intro batchId row found
    obtain ⟨receiver, known⟩ := durable.stored batchId row found
    exact ⟨receiver, known.detach operatorAddress accrual now⟩

theorem Durable.flushAccrual (stored : cfg.accrualStore = true) (durable : Durable none rows svc)
    (conserved : Conserved svc) (operatorAddress : String) (now : Nat) :
    Durable none rows (flushAccrual cfg svc operatorAddress now) := by
  cases found : svc.accruals.get? operatorAddress with
  | none => rwa [flushAccrual_absent cfg svc _ now found]
  | some accrual =>
    rw [flushAccrual_found cfg svc _ now accrual found (conserved.sound _ _ found)]
    exact durable.detach stored conserved _ _ now found (by simp)

theorem Durable.settleInbound (stored : cfg.accrualStore = true)
    (batching : 0 < cfg.batchMinAtomic) (durable : Durable none rows svc)
    (conserved : Conserved svc) (inbound : InboundSettlement) (now : Readings) :
    Durable none rows (settleInbound cfg svc inbound now) := by
  rcases settleInbound_cases cfg batching svc inbound now with
    quiet | ⟨record, base, kept, -, fresh, claimed, priced, pushed⟩
  · exact durable.bookkeeping quiet
  · have taken : Durable none rows { svc with accepted := svc.accepted ++ [record] } :=
      { durable with }
    have based := taken.bookkeeping kept
    have unchanged : Sound { svc with accepted := svc.accepted ++ [record] } :=
      conserved.sound.mono rfl rfl fun _ _ found => found
    have sound := unchanged.bookkeeping kept
    rw [pushed]
    rcases push_cases cfg base record now.accruedAt now.flushedAt sound priced claimed with
      held | flushed
    · rw [held]
      exact based.hold stored sound record now.accruedAt
    · rw [flushed]
      have put := conserved.putAccrual record now.accruedAt kept fresh claimed priced
      refine (based.putAccrual sound record now.accruedAt).detach stored put _ _ _ ?_ ?_
      · simp [Service.putAccrual, base.grown_operatorAddress record now.accruedAt sound]
      · intro key same
        simpa [eq_comm] using same

theorem BatchOf.moved {batchId receiver : String} (known : BatchOf svc batchId receiver)
    (index : Nat) (run : PayoutRun) (progress : Progress)
    (found : svc.payouts[index]? = some run) :
    BatchOf (moved cfg svc index run.job progress) batchId receiver := by
  obtain ⟨n, other, present, id, received⟩ := known
  by_cases same : n = index
  · subst same
    obtain rfl : run = other := by simpa [found] using present
    refine ⟨n, ⟨run.job, progress⟩, ?_, id, received⟩
    simp [Service.moved, (List.getElem?_eq_some_iff.mp found).1]
  · refine ⟨n, other, ?_, id, received⟩
    simpa [Service.moved, Ne.symm same] using present

theorem Service.JobSound.payee {job : PayoutJob} (sound : JobSound job) : payee job = job.receiver := by
  unfold Service.payee
  cases records : job.records with
  | nil => exact absurd records sound.nonempty
  | cons record rest => simpa using sound.operator record (by simp [records])

theorem Durable.resumePayout (stored : cfg.accrualStore = true)
    (durable : Durable none rows svc) (conserved : Conserved svc) {svc' : Service} (index : Nat)
    (event : PayoutEvent) (attemptAt settledAt : Nat)
    (resumed : resumePayout cfg svc index event attemptAt settledAt = some svc') :
    Durable none rows svc' := by
  obtain ⟨run, progress, found, advanced, kept⟩ :=
    resumePayout_cases cfg svc svc' index event attemptAt settledAt resumed
  refine Durable.bookkeeping ?_ kept
  obtain ⟨accruals, arrays, -, -, -, payouts, -, -⟩ :=
    discharged_frame cfg (moved cfg svc index run.job progress) run.job progress attemptAt
  have queued := discharged_pending cfg (moved cfg svc index run.job progress) run.job progress
    attemptAt
  obtain ⟨now, id⟩ := (conserved.numbered index run found).batchId
  have payee := (conserved.jobSound run (List.mem_of_getElem? found)).payee
  have known {batchId receiver : String} (before : BatchOf svc batchId receiver) :
      BatchOf (discharged cfg (moved cfg svc index run.job progress) run.job progress attemptAt)
        batchId receiver := by
    unfold BatchOf
    rw [payouts]
    exact before.moved index run progress found
  exact {
    openRows := by
      intro key clean
      rw [queued, openAfter_append, arrays, accruals]
      have before := durable.openRows key clean
      split
      · rw [id]
        exact before
      · exact before
    batchRows := by
      intro n other batchId present own
      rw [payouts] at present
      obtain ⟨before, old, job, elsewhere, here⟩ :=
        moved_job cfg svc index run progress found n other present
      have earlier := durable.batchRows n before batchId old (by rw [job, own])
      rw [queued, batchAfter_append, id]
      by_cases same : n = index
      · obtain rfl : run = before := by simpa [same, found] using old
        have batch : batchIdOf now (index + 1) = batchId := by
          simpa using id.symm.trans ((congrArg PayoutJob.batchId job).trans own)
        rw [here same, ← job]
        simp only [next_unsettled advanced, Bool.false_eq_true, if_false] at earlier
        by_cases ends : progress.isSettled = true
        · simp [ends, payee, stored, batchAfter, batchStep, batch]
        · simpa [ends, batchAfter] using earlier
      · obtain rfl := elsewhere same
        have other : batchIdOf now (index + 1) ≠ batchId := fun clash =>
          same (conserved.index_unique old found (by rw [own, id, clash]))
        split
        · simpa [batchAfter, batchStep, other] using earlier
        · simpa [batchAfter] using earlier
    ownKey := by
      intro key op member other own
      rw [queued, List.mem_append] at member
      rcases member with old | added
      · exact durable.ownKey key op old other own
      · split at added
        · rw [id] at added
          obtain rfl : op = .removeBatch (batchIdOf now (index + 1)) := by simpa using added
          cases own
        · cases added
    ownBatch := by
      intro key op member batchId own
      rw [queued, List.mem_append] at member
      rcases member with old | added
      · exact known (durable.ownBatch key op old batchId own)
      · split at added
        · rename_i ends
          rw [id] at added
          obtain rfl : op = .removeBatch (batchIdOf now (index + 1)) := by simpa using added
          obtain rfl : batchIdOf now (index + 1) = batchId := by simpa [batchKey] using own
          exact known ⟨index, run, found, id, by rw [ends.2.1, payee]⟩
        · cases added
    stored := by
      intro batchId row present
      obtain ⟨receiver, before⟩ := durable.stored batchId row present
      exact ⟨receiver, known before⟩ }

end turns

section writes

variable {rows : Rows} {svc : Service}

-- A chain whose pending writes come to the same rows as before, over the rows as they are now.
theorem Durable.rewrite {rows' : Rows} (durable : Durable none rows svc) (key : String)
    (works : List (Work StoreOp))
    (sameOpen : openAfter svc.arrays key (WriteChain.pending works) (rows'.openRows.get? key) =
      openAfter svc.arrays key (svc.pending key) (rows.openRows.get? key))
    (sameBatch : ∀ batchId,
      batchAfter batchId (WriteChain.pending works) (rows'.batchRows.get? batchId) =
        batchAfter batchId (svc.pending key) (rows.batchRows.get? batchId))
    (otherOpen : ∀ other, other ≠ key → rows'.openRows.get? other = rows.openRows.get? other)
    (otherBatch : ∀ batchId receiver, receiver ≠ key → BatchOf svc batchId receiver →
      rows'.batchRows.get? batchId = rows.batchRows.get? batchId)
    (ops : ∀ op ∈ WriteChain.pending works, ∃ old ∈ svc.pending key,
      openKey op = openKey old ∧ batchKey op = batchKey old)
    (stored : ∀ batchId row, rows'.batchRows.get? batchId = some row →
      ∃ receiver, BatchOf svc batchId receiver) :
    Durable none rows' (svc.setChain key works) where
  openRows := by
    intro other clean
    rw [pending_setChain]
    by_cases same : other = key
    · subst same
      rw [if_pos rfl]
      exact sameOpen.trans (durable.openRows other clean)
    · rw [if_neg same, otherOpen other same]
      exact durable.openRows other clean
  batchRows := by
    intro n run batchId found id
    have before := durable.batchRows n run batchId found id
    rw [pending_setChain]
    by_cases same : run.job.receiver = key
    · rw [if_pos same, sameBatch, ← same]
      exact before
    · rw [if_neg same, otherBatch batchId _ same ⟨n, run, found, id, rfl⟩]
      exact before
  ownKey := by
    intro other op member target own
    rw [pending_setChain] at member
    split at member
    · rename_i same
      obtain ⟨old, present, opens, -⟩ := ops op member
      rw [same]
      exact durable.ownKey key old present target (opens ▸ own)
    · exact durable.ownKey other op member target own
  ownBatch := by
    intro other op member batchId own
    rw [pending_setChain] at member
    split at member
    · rename_i same
      obtain ⟨old, present, -, batches⟩ := ops op member
      rw [same]
      exact durable.ownBatch key old present batchId (batches ▸ own)
    · exact durable.ownBatch other op member batchId own
  stored := stored

theorem Durable.callWrite (durable : Durable none rows svc) (key : String)
    (works : List (Work StoreOp))
    (called : WriteChain.call (StoreOp.serialize svc.arrays) (svc.chain key) = some works) :
    Durable none rows (svc.setChain key works) := by
  obtain ⟨op, rest, before, after⟩ := WriteChain.pending_call _ _ _ called
  have pending : svc.pending key = op :: rest := before
  refine durable.rewrite key works ?_ (fun batchId => ?_) (fun _ _ => rfl) (fun _ _ _ _ => rfl)
    ?_ durable.stored
  · simp [after, pending, openAfter, openStep_serialize]
  · simp [after, pending, batchAfter, batchStep_serialize]
  · intro written member
    rw [after] at member
    rcases List.mem_cons.mp member with rfl | later
    · exact ⟨op, by simp [pending], openKey_serialize _ _, batchKey_serialize _ _⟩
    · exact ⟨written, by simp [pending, later], rfl, rfl⟩

theorem Durable.applyWrite (durable : Durable none rows svc) (conserved : Conserved svc)
    (key : String) (op : StoreOp) (works : List (Work StoreOp)) {rows' : Rows}
    (applied : WriteChain.apply (svc.chain key) = some (op, works))
    (effect : op.effect rows = some rows') :
    Durable none rows' (svc.setChain key works) := by
  have pending : svc.pending key = op :: WriteChain.pending works :=
    WriteChain.pending_apply _ _ _ applied
  have present : op ∈ svc.pending key := by simp [pending]
  refine durable.rewrite key works ?_ (fun batchId => ?_) (fun other differ => ?_)
    (fun batchId receiver differ known => ?_) ?_ ?_
  · rw [openStep_effect svc.arrays key op rows rows' effect, pending]
    rfl
  · rw [batchStep_effect batchId op rows rows' effect, pending]
    rfl
  · rw [openStep_effect svc.arrays other op rows rows' effect]
    apply openStep_other
    exact fun own => differ (durable.ownKey key op present other own)
  · rw [batchStep_effect batchId op rows rows' effect]
    apply batchStep_other
    intro own
    obtain ⟨n, run, found, id, received⟩ := known
    obtain ⟨m, other, found', id', received'⟩ := durable.ownBatch key op present batchId own
    have same := conserved.index_unique found found' (by rw [id, id'])
    subst same
    obtain rfl : run = other := by simpa [found] using found'
    exact differ (received.symm.trans received')
  · intro written member
    exact ⟨written, by simp [pending, member], rfl, rfl⟩
  · intro batchId row found
    rw [batchStep_effect batchId op rows rows' effect] at found
    by_cases own : batchKey op = some batchId
    · exact ⟨key, durable.ownBatch key op present batchId own⟩
    · rw [batchStep_other _ _ _ own] at found
      exact durable.stored batchId row found

theorem Durable.resolveWrite (durable : Durable none rows svc) (key : String) (op : StoreOp)
    (works : List (Work StoreOp))
    (resolved : WriteChain.resolve (svc.chain key) = some (op, works)) :
    Durable none rows (svc.setChain key works) := by
  have pending : WriteChain.pending works = svc.pending key :=
    WriteChain.pending_resolve _ _ _ resolved
  refine durable.rewrite key works (by rw [pending]) (fun batchId => by rw [pending])
    (fun _ _ => rfl) (fun _ _ _ _ => rfl) ?_ durable.stored
  intro written member
  exact ⟨written, pending ▸ member, rfl, rfl⟩

end writes

def Action.reliable {ι : Type} : Action ι → Bool
  | .rejectWrite .. => false
  | a => a.serving

theorem durable_step (stored : cfg.accrualStore = true) (batching : 0 < cfg.batchMinAtomic)
    (w : World Unit) (a : Action Unit) (w' : World Unit)
    (held : Durable none w.rows (w.service ()) ∧ Conserved (w.service ()) ∧
      LedgerSplit (w.service ()))
    (reliable : a.reliable = true) (taken : World.step cfg w a = some w') :
    Durable none w'.rows (w'.service ()) ∧ Conserved (w'.service ()) ∧
      LedgerSplit (w'.service ()) := by
  obtain ⟨durable, conserved, split⟩ := held
  have serving : a.serving = true := by
    cases a <;> simp_all [Action.reliable]
  refine ⟨?_, conserved_step cfg batching () w a w' ⟨conserved, split⟩ serving taken⟩
  have turned (w : World Unit) (svc : Service) (after : Durable none w.rows svc) :
      Durable none (w.turn () svc).rows ((w.turn () svc).service ()) := by
    simp only [World.turn, Function.update_self]
    exact { after with }
  have written (w : World Unit) (key : String) (works : List (Work StoreOp))
      (after : Durable none w.rows ((w.service ()).setChain key works)) :
      Durable none (w.setWrites () key works).rows ((w.setWrites () key works).service ()) := by
    simpa [World.setWrites] using after
  cases a with
  | recordRouting j requestId nodeId operatorAddress now =>
    cases taken
    exact turned w _ { durable with }
  | settleInbound j inbound now =>
    cases taken
    exact turned w _ (durable.settleInbound stored batching conserved inbound now)
  | deadline j operatorAddress now =>
    rw [World.deadline_inv taken]
    exact turned w _ (durable.flushAccrual stored conserved operatorAddress now)
  | flushPayouts j now =>
    cases taken
    refine turned w _ ?_
    exact (flushPayouts_induction cfg (P := fun svc => Durable none w.rows svc ∧ Conserved svc) now
      (fun svc operatorAddress accrual now held _ found =>
        ⟨held.1.detach stored held.2 _ _ now found (by simp), held.2.detach cfg _ _ now found⟩)
      (w.service ()) ⟨durable, conserved⟩ conserved.sound).1.1
  | payout j index event attemptAt settledAt =>
    obtain ⟨svc, run, progress, resumed, -, -, rfl⟩ := World.payout_inv taken
    exact turned (w.recordOutcome run.job event progress) svc
      (durable.resumePayout stored conserved index event attemptAt settledAt resumed)
  | callWrite j key =>
    obtain ⟨works, called, rfl⟩ := World.callWrite_inv taken
    exact written w key works (durable.callWrite key works called)
  | applyWrite j key =>
    obtain ⟨op, works, rows, applied, effect, rfl⟩ := World.applyWrite_inv taken
    exact written (w.withRows rows) key works
      (durable.applyWrite conserved key op works applied effect)
  | resolveWrite j key =>
    obtain ⟨op, works, resolved, rfl⟩ := World.resolveWrite_inv taken
    exact written { w with trace := w.trace ++ World.completed op } key works
      (durable.resolveWrite key op works resolved)
  | readOpen j addresses =>
    rw [World.readOpen_inv taken]
    exact durable
  | readBatches j batchIds =>
    rw [World.readBatches_inv taken]
    exact durable
  | rejectWrite | hydrateLedger | recoverAccruals | restart | boot => cases reliable

/-- The rows that a drained process has: one open row for each accrual, one batch row for each batch
that is being paid or is stuck. -/
structure Quiescent (rows : Rows) (svc : Service) : Prop where
  openRows : ∀ key, rows.openRows.get? key = (svc.accruals.get? key).map openRow
  batchRows : ∀ batchId row, rows.batchRows.get? batchId = some row →
    ∃ run ∈ svc.payouts, run.progress.isSettled = false ∧ run.job.batchId = some batchId ∧
      RowFor run.job row
  batches : ∀ run ∈ svc.payouts, run.progress.isSettled = false →
    ∃ batchId row, run.job.batchId = some batchId ∧ rows.batchRows.get? batchId = some row ∧
      RowFor run.job row
  mirror : ∀ batchId, (∃ row, rows.batchRows.get? batchId = some row) ↔
    ∃ due, svc.batchLiabilities.get? batchId = some due

theorem quiescent_rows (stored : cfg.accrualStore = true) (batching : 0 < cfg.batchMinAtomic)
    (w : World Unit)
    (run : Transition.Run (World.step cfg) (fun _ a => a.reliable = true) (World.start .empty) w)
    (drained : ∀ key, (w.service ()).chain key = []) : Quiescent w.rows (w.service ()) := by
  have held := run.invariant
    (P := fun w => Durable none w.rows (w.service ()) ∧ Conserved (w.service ()) ∧
      LedgerSplit (w.service ()))
    ⟨durable_init, conserved_init, by
      simp [World.start, LedgerSplit, Service.init, OrderedMap.values, OrderedMap.empty]⟩
    (durable_step cfg stored batching)
  obtain ⟨durable, conserved, -⟩ := held
  have empty (key : String) : (w.service ()).pending key = [] := by
    rw [Service.pending, drained]
    rfl
  have batch (n : Nat) (run : PayoutRun) (batchId : String)
      (found : (w.service ()).payouts[n]? = some run) (id : run.job.batchId = some batchId) := by
    have after := durable.batchRows n run batchId found id
    rw [empty] at after
    exact after
  have batchRows : ∀ batchId row, w.rows.batchRows.get? batchId = some row →
      ∃ run ∈ (w.service ()).payouts, run.progress.isSettled = false ∧
        run.job.batchId = some batchId ∧ RowFor run.job row := by
    intro batchId row found
    obtain ⟨receiver, n, run, present, id, -⟩ := durable.stored batchId row found
    have after := batch n run batchId present id
    by_cases ends : run.progress.isSettled = true
    · simp [ends, batchAfter, found] at after
    · simp only [ends, batchAfter, List.foldl_nil, found] at after
      obtain ⟨_, same, row⟩ := after
      cases same
      exact ⟨run, List.mem_of_getElem? present, by simpa using ends, id, row⟩
  have batches : ∀ run ∈ (w.service ()).payouts, run.progress.isSettled = false →
      ∃ batchId row, run.job.batchId = some batchId ∧ w.rows.batchRows.get? batchId = some row ∧
        RowFor run.job row := by
    intro run member unsettled
    obtain ⟨n, found⟩ := List.mem_iff_getElem?.mp member
    obtain ⟨now, id⟩ := (conserved.numbered n run found).batchId
    have after := batch n run _ found id
    simp only [unsettled, Bool.false_eq_true, if_false, batchAfter, List.foldl_nil] at after
    obtain ⟨row, present, matched⟩ := after
    exact ⟨_, row, id, present, matched⟩
  exact {
    openRows := by
      intro key
      have after := durable.openRows key (by simp)
      rw [empty] at after
      exact after
    batchRows := batchRows
    batches := batches
    mirror := by
      intro batchId
      constructor
      · rintro ⟨row, found⟩
        obtain ⟨run, member, unsettled, id, -⟩ := batchRows batchId row found
        obtain ⟨n, present⟩ := List.mem_iff_getElem?.mp member
        have entry := (conserved.mirrored batchId _).mpr ⟨n, run, present, unsettled, id, rfl⟩
        obtain ⟨due, same, -⟩ := Option.map_eq_some_iff.mp entry
        exact ⟨due, same⟩
      · rintro ⟨due, found⟩
        obtain ⟨n, run, present, unsettled, id, -⟩ :=
          (conserved.mirrored batchId (liable due)).mp (by rw [found]; rfl)
        obtain ⟨own, row, id', stored, -⟩ :=
          batches run (List.mem_of_getElem? present) unsettled
        obtain rfl : own = batchId := by simpa [id] using id'.symm
        exact ⟨row, stored⟩ }

-- One batch stuck after its last attempt, one paid and released, and a fifth request accruing.
theorem quiescent_rows_stuck_batch :
    ∃ w : World Unit, w.rows.openRows.keys = ["OPERATOR"] ∧ w.rows.batchRows.keys = ["k-1"] ∧
      Quiescent w.rows (w.service ()) := by
  let attempt : List (Action Unit) :=
    [.payout () 0 (.threw "timeout" false) 21 21, .payout () 0 (.lookup .notFound) 22 22]
  let labels : List (Action Unit) :=
    World.paidFor () "r1" 10 ++ World.paidFor () "r2" 20 ++ attempt ++
      [.payout () 0 .wake 23 23] ++ attempt ++ [.payout () 0 .wake 24 24] ++ attempt ++
      [.payout () 0 .wake 25 25] ++ attempt ++ [.payout () 0 (.lookup .notFound) 26 26] ++
      World.paidFor () "r3" 30 ++ World.paidFor () "r4" 40 ++
      [.payout () 1 (.paid "TX") 41 41] ++ World.paidFor () "r5" 50 ++
      (List.replicate 8 (World.written ())).flatten
  have shown : (Transition.replay (World.step World.demoDeps) (World.start .empty) labels).map
      (fun w => (w.rows.openRows.keys, w.rows.batchRows.keys,
        (w.service ()).writeChains.size)) = some (["OPERATOR"], ["k-1"], 0) := by
    decide
  obtain ⟨w, replayed, facts⟩ := Option.map_eq_some_iff.mp shown
  simp only [Prod.mk.injEq] at facts
  obtain ⟨openKeys, batchKeys, empty⟩ := facts
  have passing : labels.all Action.reliable = true := by decide
  have run := Transition.run_of_replay_all Action.reliable labels passing replayed
  refine ⟨w, openKeys, batchKeys, quiescent_rows World.demoDeps rfl (by decide) w run fun key => ?_⟩
  simp [Service.chain, OrderedMap.get?, List.length_eq_zero_iff.mp empty, OrderedMap.lookup]

end X402Mesh.Settlement
