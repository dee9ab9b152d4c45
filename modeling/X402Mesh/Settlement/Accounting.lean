import X402Mesh.Settlement.Accruing

set_option autoImplicit false

namespace X402Mesh.Settlement.Service

open Money

variable (cfg : Deps)

def jobs (svc : Service) : List PayoutJob := svc.payouts.map (·.job)

def accrued (svc : Service) : List SettlementRecord :=
  svc.accruals.entries.flatMap fun entry => entry.2.records

-- The n-th payout of a process, counted from zero, carries the sequence number n + 1.
def Numbered (n : Nat) (job : PayoutJob) : Prop :=
  ∃ now, job = batchJob (batchIdOf now (n + 1)) job.receiver (owed job.records) job.records false

structure JobSound (job : PayoutJob) : Prop where
  nonempty : job.records ≠ []
  operator : ∀ r ∈ job.records, r.operatorAddress = job.receiver
  priced : ∀ r ∈ job.records, Priced r

structure Liable where
  operatorAddress : String
  owedAtomic : Int
  requests : Nat

def liable (l : BatchLiability) : Liable := ⟨l.operatorAddress, l.owedAtomic, l.requests⟩

def liableFor (job : PayoutJob) : Liable := ⟨job.receiver, job.amountAtomic, job.records.length⟩

-- The batch is being paid or is stuck, and `due` is what is owed for it.
def Unsettled (svc : Service) (batchId : String) (due : Liable) : Prop :=
  ∃ (n : Nat) (run : PayoutRun), svc.payouts[n]? = some run ∧ run.progress.isSettled = false ∧
    run.job.batchId = some batchId ∧ liableFor run.job = due

structure Conserved (svc : Service) : Prop where
  sound : Sound svc
  taken : ∀ r ∈ svc.accepted, r.requestId ∈ svc.claimed
  distinct : (svc.accepted.map (·.requestId)).Nodup
  parts : svc.accepted.Perm (svc.accrued ++ svc.jobs.flatMap (·.records))
  counted : svc.batchSeq = svc.payouts.length
  numbered : ∀ n run, svc.payouts[n]? = some run → Numbered n run.job
  jobSound : ∀ run ∈ svc.payouts, JobSound run.job
  mirrored : ∀ batchId due,
    (svc.batchLiabilities.get? batchId).map liable = some due ↔ svc.Unsettled batchId due

theorem conserved_init : Conserved init where
  sound := sound_init
  taken := by simp [init]
  distinct := by simp [init]
  parts := by simp [init, accrued, jobs, OrderedMap.empty]
  counted := rfl
  numbered := by simp [init]
  jobSound := by simp [init]
  mirrored := by simp [init, Unsettled]

theorem Numbered.batchId {n : Nat} {job : PayoutJob} (numbered : Numbered n job) :
    ∃ now, job.batchId = some (batchIdOf now (n + 1)) := by
  obtain ⟨now, same⟩ := numbered
  exact ⟨now, by rw [same]; rfl⟩

theorem Conserved.index_unique {svc : Service} (conserved : Conserved svc) {n m : Nat}
    {run run' : PayoutRun} (found : svc.payouts[n]? = some run)
    (found' : svc.payouts[m]? = some run') (same : run.job.batchId = run'.job.batchId) :
    n = m := by
  obtain ⟨now, id⟩ := (conserved.numbered n run found).batchId
  obtain ⟨now', id'⟩ := (conserved.numbered m run' found').batchId
  rw [id, id', Option.some.injEq] at same
  have seq := (Text.dash_suffix_injective _ _ _ _ same).2
  omega

theorem Conserved.detachedId_fresh {svc : Service} (conserved : Conserved svc) (now : Nat)
    {n : Nat} {run : PayoutRun} (found : svc.payouts[n]? = some run) :
    run.job.batchId ≠ some (svc.detachedId now) := by
  intro same
  obtain ⟨now', id⟩ := (conserved.numbered n run found).batchId
  rw [id, Option.some.injEq] at same
  have seq := (Text.dash_suffix_injective _ _ _ _ same).2
  have bound := (List.getElem?_eq_some_iff.mp found).1
  have counted := conserved.counted
  omega

theorem Conserved.bookkeeping {before after : Service} (conserved : Conserved before)
    (kept : Bookkeeping before after) : Conserved after where
  sound := conserved.sound.bookkeeping kept
  taken := by
    rw [kept.accepted]
    exact fun r member => kept.claimed _ (conserved.taken r member)
  distinct := by rw [kept.accepted]; exact conserved.distinct
  parts := by
    unfold accrued jobs
    rw [kept.accepted, kept.accruals, kept.payouts]
    exact conserved.parts
  counted := by rw [kept.batchSeq, kept.payouts]; exact conserved.counted
  numbered := by rw [kept.payouts]; exact conserved.numbered
  jobSound := by rw [kept.payouts]; exact conserved.jobSound
  mirrored := by
    unfold Unsettled
    rw [kept.batchLiabilities, kept.payouts]
    exact conserved.mirrored

theorem accrued_perm (svc : Service) (operatorAddress : String) (accrual : Accrual)
    (found : svc.accruals.get? operatorAddress = some accrual) :
    svc.accrued.Perm (accrual.records ++
      (svc.accruals.erase operatorAddress).entries.flatMap fun entry => entry.2.records) :=
  (OrderedMap.entries_erase_perm _ _ _ found).flatMap_right _

theorem getElem?_concat {α : Type} (l : List α) (a b : α) (n : Nat) :
    (l ++ [a])[n]? = some b ↔ l[n]? = some b ∨ n = l.length ∧ a = b := by
  by_cases bound : n < l.length
  · simp [List.getElem?_append_left bound, bound.ne]
  · have absent : l[n]? = none := List.getElem?_eq_none (not_lt.mp bound)
    rw [List.getElem?_append_right (not_lt.mp bound), absent]
    by_cases last : n = l.length
    · simp [last]
    · have beyond : n - l.length ≠ 0 := by omega
      simp [last, beyond]

theorem start_unsettled (attempts : Nat) (job : PayoutJob) :
    (Progress.start attempts job).isSettled = false := by
  unfold Progress.start Progress.firstAttempt
  split_ifs <;> rfl

theorem Conserved.detach {svc : Service} (conserved : Conserved svc) (operatorAddress : String)
    (accrual : Accrual) (now : Nat) (found : svc.accruals.get? operatorAddress = some accrual) :
    Conserved (detach cfg svc operatorAddress accrual now) := by
  have held := conserved.sound _ _ found
  exact {
    sound := conserved.sound.detach cfg _ _ _
    taken := by simpa using conserved.taken
    distinct := by simpa using conserved.distinct
    parts := by
      have split := accrued_perm svc operatorAddress accrual found
      have records : (svc.detachedJob operatorAddress accrual now).records = accrual.records := rfl
      simp only [accrued, jobs, detach_accepted, detach_accruals, detach_payouts, List.map_append,
        List.map_cons, List.map_nil, List.flatMap_append, List.flatMap_singleton, records]
      refine conserved.parts.trans ((split.append_right _).trans ?_)
      rw [List.append_assoc]
      refine List.perm_append_comm.trans ?_
      rw [List.append_assoc]
      exact .refl _
    counted := by simp [conserved.counted]
    numbered := by
      intro n run present
      rw [detach_payouts, getElem?_concat] at present
      rcases present with old | ⟨rfl, rfl⟩
      · exact conserved.numbered n run old
      · exact ⟨now, by simp [detachedJob, batchJob, detachedId, conserved.counted]⟩
    jobSound := by
      intro run member
      rw [detach_payouts, List.mem_append, List.mem_singleton] at member
      rcases member with old | rfl
      · exact conserved.jobSound run old
      · exact ⟨held.nonempty, held.operator, held.priced⟩
    mirrored := by
      intro batchId due
      simp only [Unsettled, detach_batchLiabilities, detach_payouts, OrderedMap.get?_set,
        getElem?_concat]
      by_cases fresh : batchId = svc.detachedId now
      · rw [if_pos fresh]
        constructor
        · intro same
          refine ⟨_, _, .inr ⟨rfl, rfl⟩, ?_, ?_, ?_⟩
          · exact start_unsettled cfg.attempts (svc.detachedJob operatorAddress accrual now)
          · simp [detachedJob, batchJob, fresh]
          · simpa [liable, liability, liableFor, detachedJob, batchJob] using same
        · rintro ⟨n, run, old | ⟨-, rfl⟩, -, id, rfl⟩
          · exact absurd (id.trans (by rw [fresh])) (conserved.detachedId_fresh now old)
          · rfl
      · rw [if_neg fresh]
        refine (conserved.mirrored batchId due).trans ⟨?_, ?_⟩
        · rintro ⟨n, run, old, rest⟩
          exact ⟨n, run, .inl old, rest⟩
        · rintro ⟨n, run, old | ⟨-, rfl⟩, unsettled, id, rest⟩
          · exact ⟨n, run, old, unsettled, id, rest⟩
          · simp only [detachedJob, batchJob, Option.some.injEq] at id
            exact absurd id.symm fresh }

-- Pushing one more record takes exactly that record onto the accruals.
theorem accrued_putAccrual (svc : Service) (sound : Sound svc) (record : SettlementRecord)
    (accruedAt : Nat) :
    (svc.putAccrual (svc.grown record accruedAt)).accrued.Perm (svc.accrued ++ [record]) := by
  have keyed := svc.grown_operatorAddress record accruedAt sound
  have after : (svc.putAccrual (svc.grown record accruedAt)).accrued.Perm
      (svc.earlier record ++ [record] ++
        (svc.accruals.erase record.operatorAddress).entries.flatMap fun entry => entry.2.records) := by
    have entries := OrderedMap.entries_set_perm svc.accruals record.operatorAddress
      (svc.grown record accruedAt)
    simpa [accrued, putAccrual, keyed, grown_records] using entries.flatMap_right (·.2.records)
  have before : svc.accrued.Perm (svc.earlier record ++
      (svc.accruals.erase record.operatorAddress).entries.flatMap fun entry => entry.2.records) := by
    unfold earlier
    cases found : svc.accruals.get? record.operatorAddress with
    | none =>
      rw [OrderedMap.entries_erase_absent _ _ found]
      exact .refl _
    | some accrual => exact accrued_perm svc _ accrual found
  refine after.trans (.trans ?_ (before.append_right _).symm)
  rw [List.append_assoc, List.append_assoc]
  exact List.perm_append_comm.append_left _

theorem Conserved.putAccrual {svc base : Service} (conserved : Conserved svc)
    (record : SettlementRecord) (accruedAt : Nat)
    (kept : Bookkeeping { svc with accepted := svc.accepted ++ [record] } base)
    (fresh : record.requestId ∉ svc.claimed) (claimed : record.requestId ∈ base.claimed)
    (priced : Priced record) : Conserved (base.putAccrual (base.grown record accruedAt)) := by
  have sound : Sound base := by
    have unchanged : Sound { svc with accepted := svc.accepted ++ [record] } :=
      conserved.sound.mono rfl rfl fun _ _ found => found
    exact unchanged.bookkeeping kept
  exact {
    sound := base.putAccrual_sound record accruedAt sound priced claimed
    taken := by
      intro r member
      have present : r ∈ svc.accepted ∨ r = record := by
        simpa [Service.putAccrual, kept.accepted] using member
      rcases present with old | rfl
      · exact kept.claimed _ (conserved.taken r old)
      · exact claimed
    distinct := by
      simp only [Service.putAccrual, kept.accepted, List.map_append, List.map_cons, List.map_nil]
      rw [List.nodup_append]
      refine ⟨conserved.distinct, by simp, ?_⟩
      intro id member other single
      obtain ⟨r, accepted, rfl⟩ := List.mem_map.mp member
      obtain rfl : other = record.requestId := by simpa using single
      exact fun same => fresh (same ▸ conserved.taken r accepted)
    parts := by
      have grown := accrued_putAccrual base sound record accruedAt
      have same : base.accrued = svc.accrued := by simp only [accrued, kept.accruals]
      have jobs : (base.putAccrual (base.grown record accruedAt)).jobs = svc.jobs := by
        simp only [jobs, Service.putAccrual, kept.payouts]
      have accepted : (base.putAccrual (base.grown record accruedAt)).accepted =
        svc.accepted ++ [record] := kept.accepted
      rw [jobs, accepted]
      rw [same] at grown
      refine (conserved.parts.append_right _).trans (.trans ?_ (grown.append_right _).symm)
      rw [List.append_assoc, List.append_assoc]
      exact List.perm_append_comm.append_left _
    counted := by simpa [Service.putAccrual, kept.batchSeq, kept.payouts] using conserved.counted
    numbered := by simpa [Service.putAccrual, kept.payouts] using conserved.numbered
    jobSound := by simpa [Service.putAccrual, kept.payouts] using conserved.jobSound
    mirrored := by
      simpa [Service.putAccrual, Unsettled, kept.payouts, kept.batchLiabilities]
        using conserved.mirrored }

theorem Conserved.hold {svc : Service} (record : SettlementRecord) (accruedAt : Nat)
    (sound : Sound svc) (priced : Priced record) (claimed : record.requestId ∈ svc.claimed)
    (put : Conserved (svc.putAccrual (svc.grown record accruedAt))) :
    Conserved (Service.hold cfg svc record accruedAt) where
  sound := hold_sound cfg svc record accruedAt sound priced claimed
  taken := by simpa [Service.putAccrual] using put.taken
  distinct := by simpa [Service.putAccrual] using put.distinct
  parts := by
    have accruals : (Service.hold cfg svc record accruedAt).accruals =
        (svc.putAccrual (svc.grown record accruedAt)).accruals.set
          (svc.grown record accruedAt).operatorAddress
          { svc.grown record accruedAt with timer := true } := by
      simp [Service.hold, armTimer, persistOpen]
    have same : (Service.hold cfg svc record accruedAt).accrued.Perm
        (svc.putAccrual (svc.grown record accruedAt)).accrued := by
      have timed := OrderedMap.entries_set_perm
        (svc.putAccrual (svc.grown record accruedAt)).accruals
        (svc.grown record accruedAt).operatorAddress
        { svc.grown record accruedAt with timer := true }
      have plain := accrued_perm (svc.putAccrual (svc.grown record accruedAt))
        (svc.grown record accruedAt).operatorAddress (svc.grown record accruedAt)
        (by simp [Service.putAccrual])
      refine .trans ?_ plain.symm
      simpa [accrued, accruals] using timed.flatMap_right (·.2.records)
    have jobs : (Service.hold cfg svc record accruedAt).jobs =
        (svc.putAccrual (svc.grown record accruedAt)).jobs := by
      simp [Service.jobs, Service.putAccrual]
    rw [hold_accepted, jobs]
    exact put.parts.trans (same.symm.append_right _)
  counted := by simpa [Service.putAccrual] using put.counted
  numbered := by simpa [Service.putAccrual] using put.numbered
  jobSound := by simpa [Service.putAccrual] using put.jobSound
  mirrored := by simpa [Service.putAccrual, Unsettled] using put.mirrored

theorem Conserved.settleInbound {svc : Service} (conserved : Conserved svc)
    (batching : 0 < cfg.batchMinAtomic) (inbound : InboundSettlement) (now : Readings) :
    Conserved (settleInbound cfg svc inbound now) := by
  rcases settleInbound_cases cfg batching svc inbound now with
    quiet | ⟨record, base, kept, -, fresh, claimed, priced, pushed⟩
  · exact conserved.bookkeeping quiet
  · have unchanged : Sound { svc with accepted := svc.accepted ++ [record] } :=
      conserved.sound.mono rfl rfl fun _ _ found => found
    have sound := unchanged.bookkeeping kept
    have put := conserved.putAccrual record now.accruedAt kept fresh claimed priced
    rw [pushed]
    rcases push_cases cfg base record now.accruedAt now.flushedAt sound priced claimed with
      held | flushed
    · rw [held]
      exact put.hold cfg record now.accruedAt sound priced claimed
    · rw [flushed]
      apply put.detach
      simp [Service.putAccrual, base.grown_operatorAddress record now.accruedAt sound]

@[simp] theorem jobs_moved (svc : Service) (index : Nat) (run : PayoutRun) (progress : Progress)
    (found : svc.payouts[index]? = some run) :
    (moved cfg svc index run.job progress).jobs = svc.jobs := by
  obtain ⟨bound, rfl⟩ := List.getElem?_eq_some_iff.mp found
  have bound' : index < (svc.payouts.map (·.job)).length := by simpa using bound
  have entry : svc.payouts[index].job = (svc.payouts.map (·.job))[index] := by
    simp
  simp only [jobs, moved, List.map_set, entry]
  exact List.set_getElem_self _

theorem moved_job (svc : Service) (index : Nat) (run : PayoutRun) (progress : Progress)
    (found : svc.payouts[index]? = some run) (n : Nat) (other : PayoutRun)
    (present : (moved cfg svc index run.job progress).payouts[n]? = some other) :
    ∃ before, svc.payouts[n]? = some before ∧ before.job = other.job ∧
      (n ≠ index → before = other) ∧ (n = index → other.progress = progress) := by
  simp only [moved, List.getElem?_set] at present
  by_cases same : index = n
  · subst same
    rw [if_pos rfl] at present
    split at present
    · cases present
      exact ⟨run, found, rfl, fun differ => absurd rfl differ, fun _ => rfl⟩
    · cases present
  · rw [if_neg same] at present
    exact ⟨other, present, rfl, fun _ => rfl, fun equal => absurd equal.symm same⟩

theorem discharged_liable (svc : Service) (job : PayoutJob) (progress : Progress) (attemptAt : Nat)
    (batchId : String) :
    ((discharged cfg svc job progress attemptAt).batchLiabilities.get? batchId).map liable =
      if progress.isSettled = true ∧ job.batchId = some batchId then none
      else (svc.batchLiabilities.get? batchId).map liable := by
  cases progress with
  | settled txId =>
    cases id : job.batchId with
    | none => simp [discharged, dropLiability, releaseBatch, id]
    | some own =>
      by_cases same : batchId = own
      · simp [discharged, dropLiability, releaseBatch, id, Progress.isSettled, same]
      · simp [discharged, dropLiability, releaseBatch, id, Progress.isSettled, same, Ne.symm same,
          OrderedMap.get?_erase]
  | failed reason =>
    cases id : job.batchId with
    | none => simp [discharged, annotate, id]
    | some own =>
      cases found : svc.batchLiabilities.get? own with
      | none => simp [discharged, annotate, id, found, Progress.isSettled]
      | some held =>
        by_cases same : batchId = own
        · simp [discharged, annotate, id, found, Progress.isSettled, same, liable]
        · simp [discharged, annotate, id, found, Progress.isSettled, same, OrderedMap.get?_set]
  | _ => simp [discharged, Progress.isSettled]

theorem next_unsettled {attempts : Nat} {before after : Progress} {event : PayoutEvent}
    (advanced : before.next attempts event = some after) : before.isSettled = false := by
  cases before with
  | settled txId => cases event <;> simp [Progress.next] at advanced
  | _ => rfl

theorem Conserved.resumePayout {svc svc' : Service} (conserved : Conserved svc) (index : Nat)
    (event : PayoutEvent) (attemptAt settledAt : Nat)
    (resumed : resumePayout cfg svc index event attemptAt settledAt = some svc') :
    Conserved svc' := by
  obtain ⟨run, progress, found, advanced, kept⟩ :=
    resumePayout_cases cfg svc svc' index event attemptAt settledAt resumed
  refine Conserved.bookkeeping ?_ kept
  obtain ⟨accruals, arrays, claimed, accepted, batchSeq, payouts, -, -⟩ :=
    discharged_frame cfg (moved cfg svc index run.job progress) run.job progress attemptAt
  have sameJobs := jobs_moved cfg svc index run progress found
  have sameJob (n : Nat) (other : PayoutRun)
      (present : (moved cfg svc index run.job progress).payouts[n]? = some other) :
      ∃ before, svc.payouts[n]? = some before ∧ before.job = other.job := by
    obtain ⟨before, old, job, -, -⟩ := moved_job cfg svc index run progress found n other present
    exact ⟨before, old, job⟩
  obtain ⟨now, id⟩ := (conserved.numbered index run found).batchId
  exact {
    sound := conserved.sound.mono arrays claimed fun _ _ held => by rwa [accruals] at held
    taken := by rw [accepted, claimed]; exact conserved.taken
    distinct := by rw [accepted]; exact conserved.distinct
    parts := by
      have whole : (discharged cfg (moved cfg svc index run.job progress) run.job progress
          attemptAt).jobs = svc.jobs := by
        rw [← sameJobs, jobs, payouts, jobs]
      rw [whole, accrued, accepted, accruals]
      exact conserved.parts
    counted := by rw [batchSeq, payouts]; simpa [moved] using conserved.counted
    numbered := by
      rw [payouts]
      intro n other present
      obtain ⟨before, old, job⟩ := sameJob n other present
      exact job ▸ conserved.numbered n before old
    jobSound := by
      rw [payouts]
      intro other member
      obtain ⟨n, present⟩ := List.mem_iff_getElem?.mp member
      obtain ⟨before, old, job⟩ := sameJob n other present
      exact job ▸ conserved.jobSound before (List.mem_of_getElem? old)
    mirrored := by
      intro batchId due
      rw [discharged_liable]
      unfold Unsettled
      rw [payouts]
      by_cases ends : progress.isSettled = true ∧ run.job.batchId = some batchId
      · rw [if_pos ends]
        refine ⟨fun impossible => (Option.some_ne_none _ impossible.symm).elim, ?_⟩
        rintro ⟨n, other, present, unsettled, named, -⟩
        obtain ⟨before, old, job, -, here⟩ :=
          moved_job cfg svc index run progress found n other present
        have position : n = index :=
          conserved.index_unique old found (by rw [job, named, ends.2])
        rw [here position, ends.1] at unsettled
        cases unsettled
      · rw [if_neg ends]
        refine (conserved.mirrored batchId due).trans ⟨?_, ?_⟩
        · rintro ⟨n, other, old, unsettled, named, same⟩
          by_cases position : n = index
          · subst position
            obtain rfl : run = other := by simpa [found] using old
            refine ⟨n, ⟨run.job, progress⟩, ?_, ?_, named, same⟩
            · simp [moved, (List.getElem?_eq_some_iff.mp found).1]
            · simpa [named] using ends
          · refine ⟨n, other, ?_, unsettled, named, same⟩
            simpa [moved, Ne.symm position] using old
        · rintro ⟨n, other, present, unsettled, named, same⟩
          obtain ⟨before, old, job, elsewhere, -⟩ :=
            moved_job cfg svc index run progress found n other present
          refine ⟨n, before, old, ?_, by rw [job, named], by rw [job, same]⟩
          by_cases position : n = index
          · subst position
            obtain rfl : run = before := by simpa [found] using old
            exact next_unsettled advanced
          · rw [elsewhere position, unsettled] }

def LedgerSplit (svc : Service) : Prop := ∀ r ∈ svc.ledger.values, SplitHolds r

theorem LedgerSplit.set {svc : Service} (split : LedgerSplit svc) (requestId : String)
    (record : SettlementRecord) (holds : SplitHolds record) :
    LedgerSplit { svc with ledger := svc.ledger.set requestId record } := by
  intro r member
  obtain ⟨id, found⟩ := (OrderedMap.mem_values _ _).mp member
  rw [OrderedMap.get?_set] at found
  split at found
  · cases found
    exact holds
  · exact split r ((OrderedMap.mem_values _ _).mpr ⟨id, found⟩)

theorem persistLedger_ledger (svc : Service) (record : SettlementRecord) :
    (persistLedger cfg svc record).ledger = svc.ledger := by
  unfold persistLedger
  split <;> rfl

theorem LedgerSplit.update {svc : Service} (split : LedgerSplit svc) (requestId : String)
    (record : SettlementRecord) (holds : SplitHolds record) :
    LedgerSplit (update cfg svc requestId record) := by
  unfold Service.update
  split
  · unfold LedgerSplit
    rw [persistLedger_ledger]
    exact split.set requestId record holds
  · exact split

theorem LedgerSplit.updateAll {svc : Service} (split : LedgerSplit svc)
    (records : List SettlementRecord) (revise : SettlementRecord → SettlementRecord)
    (holds : ∀ r ∈ records, SplitHolds (revise r)) :
    LedgerSplit (updateAll cfg svc records revise) := by
  unfold Service.updateAll
  induction records generalizing svc with
  | nil => exact split
  | cons record rest ih =>
    exact ih (split.update cfg record.requestId (revise record) (holds record (by simp)))
      fun r member => holds r (by simp [member])

theorem LedgerSplit.remember {svc : Service} (split : LedgerSplit svc) (record : SettlementRecord)
    (holds : SplitHolds record) : LedgerSplit (remember cfg svc record) := by
  intro r member
  obtain ⟨id, found⟩ := (OrderedMap.mem_values _ _).mp member
  have kept := OrderedMap.get?_drop_some _ _ _ _ found
  rw [persistLedger_ledger] at kept
  exact split.set record.requestId record holds r ((OrderedMap.mem_values _ _).mpr ⟨id, kept⟩)

theorem flushAccrual_ledger (svc : Service) (operatorAddress : String) (now : Nat) :
    (flushAccrual cfg svc operatorAddress now).ledger = svc.ledger := by
  unfold flushAccrual
  cases svc.accruals.get? operatorAddress with
  | none => rfl
  | some accrual =>
    dsimp only
    split
    · rfl
    · cases sumPayouts accrual.records <;> simp [carve, runPayout]

theorem push_ledger (svc : Service) (record : SettlementRecord) (payout : Int)
    (accruedAt flushedAt : Nat) :
    (push cfg svc record payout accruedAt flushedAt).ledger = svc.ledger := by
  unfold push
  dsimp only
  split
  · exact flushAccrual_ledger cfg _ _ _
  · split
    · exact flushAccrual_ledger cfg _ _ _
    · simp [armTimer, persistOpen, putAccrual]

theorem flushPayouts_ledger (svc : Service) (now : Nat → Nat) :
    (flushPayouts cfg svc now).ledger = svc.ledger := by
  have pass (keys : List String) (svc : Service) :
      (keys.foldl (fun svc key => flushAccrual cfg svc key (now svc.batchSeq)) svc).ledger =
        svc.ledger := by
    induction keys generalizing svc with
    | nil => rfl
    | cons key rest ih => rw [List.foldl_cons, ih, flushAccrual_ledger]
  exact pass _ svc

theorem LedgerSplit.settleInbound {svc : Service} (split : LedgerSplit svc)
    (inbound : InboundSettlement) (now : Readings) :
    LedgerSplit (settleInbound cfg svc inbound now) := by
  unfold Service.settleInbound
  cases svc.routing.get? inbound.requestId with
  | none => exact split
  | some note =>
    dsimp only
    split_ifs
    · exact split
    · cases opened : openRecord cfg inbound note now.createdAt with
      | error e => exact split
      | ok record =>
        obtain ⟨-, -, holds⟩ := openRecord_ok cfg inbound note now.createdAt record opened
        have taken : LedgerSplit
            { svc with
              routing := svc.routing.erase inbound.requestId
              claimed := inbound.requestId :: svc.claimed } := split
        have remembered := taken.remember cfg record holds
        dsimp only
        generalize Service.remember cfg _ record = taken at remembered ⊢
        unfold schedule
        cases bigInt record.payoutAtomic with
        | none => exact remembered
        | some payout =>
          dsimp only
          split_ifs
          · exact remembered.updateAll cfg _ _ fun r member => by
              obtain rfl := List.mem_singleton.mp member
              exact ⟨holds.split⟩
          · unfold accrue LedgerSplit
            rw [push_ledger]
            have accepted : LedgerSplit { taken with accepted := taken.accepted ++ [record] } :=
              remembered
            exact accepted.update cfg _ _ ⟨holds.split⟩
          · exact remembered

theorem LedgerSplit.resumePayout {svc svc' : Service} (split : LedgerSplit svc)
    (jobSound : ∀ run ∈ svc.payouts, JobSound run.job) (index : Nat) (event : PayoutEvent)
    (attemptAt settledAt : Nat)
    (resumed : resumePayout cfg svc index event attemptAt settledAt = some svc') :
    LedgerSplit svc' := by
  unfold Service.resumePayout at resumed
  simp only [Option.bind_eq_bind, Option.bind_eq_some_iff, Option.pure_def,
    Option.some.injEq] at resumed
  obtain ⟨run, found, progress, -, rfl⟩ := resumed
  have priced := (jobSound run (List.mem_of_getElem? found)).priced
  have released : LedgerSplit (discharged cfg (moved cfg svc index run.job progress) run.job
      progress attemptAt) := by
    obtain ⟨-, -, -, -, -, -, -, ledger⟩ :=
      discharged_frame cfg (moved cfg svc index run.job progress) run.job progress attemptAt
    unfold LedgerSplit
    rw [ledger]
    exact split
  cases progress with
  | settled txId => exact released.updateAll cfg _ _ fun r member => ⟨(priced r member).split⟩
  | failed reason => exact released.updateAll cfg _ _ fun r member => ⟨(priced r member).split⟩
  | _ => exact split

end X402Mesh.Settlement.Service
