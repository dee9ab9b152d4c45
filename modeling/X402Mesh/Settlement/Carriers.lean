import X402Mesh.Settlement.RowView
import X402Mesh.Settlement.Turns

set_option autoImplicit false

namespace X402Mesh.Settlement

open Registry Service

variable (cfg : Deps)

def Service.Carries (svc : Service) (id batchId receiver : String) : Prop :=
  (∃ run ∈ svc.payouts, run.job.batchId = some batchId ∧ run.job.receiver = receiver ∧
    id ∈ run.job.requestIds) ∨
  ∃ key row, .putBatch batchId row ∈ svc.pending key ∧ row.operatorAddress = receiver ∧
    id ∈ rowIds row

def Service.Accrues (svc : Service) (id operatorAddress : String) : Prop :=
  ∃ accrual, svc.accruals.get? operatorAddress = some accrual ∧
    id ∈ accrual.records.map (·.requestId)

namespace Service

section moves

variable {cfg} {svc base : Service} {record : SettlementRecord} {id batchId receiver : String}

theorem carries_of (payouts : svc.payouts = base.payouts)
    (pending : ∀ key batchId row, .putBatch batchId row ∈ svc.pending key →
      .putBatch batchId row ∈ base.pending key)
    (carries : svc.Carries id batchId receiver) : base.Carries id batchId receiver := by
  rcases carries with run | ⟨key, row, member, rest⟩
  · exact .inl (payouts ▸ run)
  · exact .inr ⟨key, row, pending key _ _ member, rest⟩

theorem Quiet.carries (kept : Quiet base svc) (carries : svc.Carries id batchId receiver) :
    base.Carries id batchId receiver :=
  carries_of kept.payouts (fun key batchId row member => by
    rcases kept.mem_pending member with old | ⟨_, ledger⟩
    · exact old
    · cases ledger) carries

theorem Quiet.accrues (kept : Quiet base svc) (accrues : svc.Accrues id receiver) :
    base.Accrues id receiver := by
  unfold Accrues at accrues ⊢
  rwa [kept.accruals] at accrues

theorem grown_ids (accruedAt : Nat)
    (member : id ∈ (base.grown record accruedAt).records.map (·.requestId)) :
    base.Accrues id record.operatorAddress ∨ id = record.requestId := by
  rw [grown_records, List.map_append, List.mem_append] at member
  apply member.imp
  · intro old
    unfold earlier at old
    cases found : base.accruals.get? record.operatorAddress with
    | none => simp [found] at old
    | some accrual => exact ⟨accrual, found, by simpa [found] using old⟩
  · simp

theorem putAccrual_accrues (sound : Sound base) (accruedAt : Nat)
    (accrues : (base.putAccrual (base.grown record accruedAt)).Accrues id receiver) :
    base.Accrues id receiver ∨ id = record.requestId ∧ receiver = record.operatorAddress := by
  obtain ⟨accrual, found, member⟩ := accrues
  have keyed := base.grown_operatorAddress record accruedAt sound
  by_cases same : receiver = record.operatorAddress
  · subst same
    obtain rfl : base.grown record accruedAt = accrual := by
      simpa [putAccrual, OrderedMap.get?_set, keyed] using found
    exact (grown_ids accruedAt member).imp_right fun new => ⟨new, rfl⟩
  · rw [putAccrual_other base _ _ (by rwa [keyed])] at found
    exact .inl ⟨accrual, found, member⟩

theorem hold_accrues (sound : Sound base) (accruedAt : Nat)
    (accrues : (hold cfg base record accruedAt).Accrues id receiver) :
    base.Accrues id receiver ∨ id = record.requestId ∧ receiver = record.operatorAddress := by
  obtain ⟨accrual, found, member⟩ := accrues
  rw [hold_get? cfg base record accruedAt sound] at found
  split at found
  next same =>
    subst same
    cases found
    exact (grown_ids accruedAt member).imp_right fun new => ⟨new, rfl⟩
  next => exact .inl ⟨accrual, found, member⟩

theorem hold_carries (sound : Sound base) (accruedAt : Nat)
    (carries : (hold cfg base record accruedAt).Carries id batchId receiver) :
    base.Carries id batchId receiver := by
  refine carries_of (by simp) (fun key batchId row member => ?_) carries
  rw [hold_pending cfg base record accruedAt sound, List.mem_append] at member
  rcases member with old | added
  · exact old
  · split at added
    · simp at added
    · cases added

theorem rowIds_persisted (operatorAddress : String) (records : List SettlementRecord)
    (firstAt : Nat) (batch : Option String) :
    rowIds (persisted operatorAddress records firstAt batch) = records.map (·.requestId) := by
  unfold rowIds persisted requestIdsOf
  rw [List.filter_eq_self.mpr fun r member => by
    obtain ⟨s, -, rfl⟩ := List.mem_map.mp member
    exact s.usable_stored, List.map_map]
  rfl

theorem detach_carries (operatorAddress : String) (accrual : Accrual) (now : Nat)
    (keyed : accrual.operatorAddress = operatorAddress)
    (carries : (detach cfg svc operatorAddress accrual now).Carries id batchId receiver) :
    svc.Carries id batchId receiver ∨
      id ∈ accrual.records.map (·.requestId) ∧ batchId = svc.detachedId now ∧
        receiver = operatorAddress := by
  rcases carries with ⟨run, member, batch, received, inside⟩ | ⟨key, row, member, received, inside⟩
  · rw [detach_payouts, List.mem_append, List.mem_singleton] at member
    rcases member with old | rfl
    · exact .inl (.inl ⟨run, old, batch, received, inside⟩)
    · simp only [detachedJob, batchJob, Option.some.injEq] at batch received
      exact .inr ⟨inside, batch.symm, received.symm⟩
  · rw [detach_pending, List.mem_append] at member
    rcases member with old | added
    · exact .inl (.inr ⟨key, row, old, received, inside⟩)
    · split at added
      · simp only [List.mem_cons, StoreOp.putBatch.injEq, reduceCtorEq, List.not_mem_nil,
          or_false] at added
        obtain ⟨rfl, rfl⟩ := added
        rw [rowIds_persisted] at inside
        exact .inr ⟨inside, rfl, received.symm.trans keyed⟩
      · cases added

theorem detach_accrues (operatorAddress : String) (accrual : Accrual) (now : Nat)
    (accrues : (detach cfg svc operatorAddress accrual now).Accrues id receiver) :
    svc.Accrues id receiver ∧ receiver ≠ operatorAddress := by
  obtain ⟨other, found, member⟩ := accrues
  rw [detach_accruals, OrderedMap.get?_erase] at found
  split at found
  · cases found
  next differ => exact ⟨⟨other, found, member⟩, differ⟩

theorem discharged_carries {job : PayoutJob} {progress : Progress} {attemptAt : Nat}
    (carries : (discharged cfg svc job progress attemptAt).Carries id batchId receiver) :
    svc.Carries id batchId receiver := by
  obtain ⟨-, -, -, -, -, payouts, -⟩ := discharged_frame cfg svc job progress attemptAt
  refine carries_of payouts (fun key batchId row member => ?_) carries
  rw [discharged_pending, List.mem_append] at member
  rcases member with old | added
  · exact old
  · split at added
    · cases held : job.batchId <;> simp [held] at added
    · cases added

theorem moved_carries {index : Nat} {run : PayoutRun} {progress : Progress}
    (found : svc.payouts[index]? = some run)
    (carries : (moved cfg svc index run.job progress).Carries id batchId receiver) :
    svc.Carries id batchId receiver := by
  rcases carries with ⟨other, member, rest⟩ | queued
  · left
    rcases List.mem_or_eq_of_mem_set member with old | rfl
    · exact ⟨other, old, rest⟩
    · exact ⟨run, List.mem_of_getElem? found, rest⟩
  · exact .inr queued

theorem resumePayout_carries {svc' : Service} {index : Nat} {event : PayoutEvent}
    {attemptAt settledAt : Nat}
    (resumed : resumePayout cfg svc index event attemptAt settledAt = some svc')
    (carries : svc'.Carries id batchId receiver) : svc.Carries id batchId receiver := by
  obtain ⟨run, progress, found, -, kept⟩ := resumePayout_cases cfg svc svc' index event attemptAt
    settledAt resumed
  exact moved_carries found (discharged_carries (kept.quiet.carries carries))

theorem resumePayout_accrues {svc' : Service} {index : Nat} {event : PayoutEvent}
    {attemptAt settledAt : Nat}
    (resumed : resumePayout cfg svc index event attemptAt settledAt = some svc')
    (accrues : svc'.Accrues id receiver) : svc.Accrues id receiver := by
  obtain ⟨run, progress, found, -, kept⟩ := resumePayout_cases cfg svc svc' index event attemptAt
    settledAt resumed
  have held := kept.quiet.accrues accrues
  obtain ⟨accruals, -⟩ := discharged_frame cfg (moved cfg svc index run.job progress) run.job
    progress attemptAt
  unfold Accrues at held ⊢
  rwa [accruals] at held

theorem Recovered.accrues {before after : Service} {operatorAddress : String} {ops : List StoreOp}
    {runs : List PayoutRun} (recovered : Recovered cfg before after operatorAddress ops runs)
    (accrues : after.Accrues id receiver) : before.Accrues id receiver := by
  unfold Accrues at accrues ⊢
  rwa [recovered.accruals] at accrues

theorem Recovered.sound {before after : Service} {operatorAddress : String} {ops : List StoreOp}
    {runs : List PayoutRun} (recovered : Recovered cfg before after operatorAddress ops runs)
    (sound : Sound before) : Sound after := by
  intro key accrual found
  rw [recovered.accruals] at found
  obtain ⟨keyed, nonempty, total, operator, priced, live, claimed⟩ := sound _ _ found
  exact ⟨keyed, nonempty, total, operator, priced, by rw [recovered.arrays, live],
    fun r member => recovered.claimed _ (claimed r member)⟩

theorem Recovered.mem_pending {before after : Service} {operatorAddress : String}
    {ops : List StoreOp} {runs : List PayoutRun}
    (recovered : Recovered cfg before after operatorAddress ops runs) {key : String} {op : StoreOp}
    (member : op ∈ after.pending key) :
    op ∈ before.pending key ∨ (∃ record, op = .putLedger record) ∨
      key = operatorAddress ∧ op ∈ ops := by
  obtain ⟨records, queued⟩ := recovered.pending key
  rw [queued, List.mem_append, List.mem_append] at member
  rcases member with (old | ledger) | added
  · exact .inl old
  · obtain ⟨record, -, rfl⟩ := List.mem_map.mp ledger
    exact .inr (.inl ⟨record, rfl⟩)
  · split at added
    next same => exact .inr (.inr ⟨same, added⟩)
    next => cases added

-- A row that recovery pays is carried under the id it is paid with, and no row otherwise.
theorem Recovered.carries {before after : Service} {row : PersistedAccrual} {ops : List StoreOp}
    {runs : List PayoutRun} {now : Nat → Nat} {records : List StoredRecord}
    (recovered : Recovered cfg before after row.operatorAddress ops runs)
    (outcome : Outcome cfg now row records ops runs)
    (usable : ∀ r ∈ records, r.usable = true)
    (carries : after.Carries id batchId receiver) :
    before.Carries id batchId receiver ∨
      id ∈ requestIdsOf records ∧ receiver = row.operatorAddress ∧
        (resumedId row = some batchId ∨ resumedId row = none ∧
          (∃ run ∈ runs, run.job.batchId = some batchId)) := by
  have under (paid : String) : rowIds (rowUnder row records paid) = requestIdsOf records := by
    unfold rowIds rowUnder
    rw [List.filter_eq_self.mpr usable]
  have job := recoveredRun_requestIds cfg row records
  rcases carries with ⟨run, member, batch, received, inside⟩ | ⟨key, put, member, received, inside⟩
  · rw [recovered.payouts, List.mem_append] at member
    rcases member with old | added
    · exact .inl (.inl ⟨run, old, batch, received, inside⟩)
    · right
      cases outcome with
      | dropped | stopped => cases added
      | resumed paid summed own sum owes =>
        obtain rfl := List.mem_singleton.mp added
        obtain rfl : paid = batchId := Option.some.inj batch
        exact ⟨job _ _ _ ▸ inside, received.symm, .inl own⟩
      | fresh paid summed own sum owes numbered =>
        have single := List.mem_singleton.mp added
        subst single
        exact ⟨job _ _ _ ▸ inside, received.symm, .inr ⟨own, _, List.mem_singleton_self _, batch⟩⟩
  · rcases recovered.mem_pending member with old | ⟨_, ledger⟩ | ⟨-, added⟩
    · exact .inl (.inr ⟨key, put, old, received, inside⟩)
    · cases ledger
    · right
      cases outcome with
      | dropped =>
        unfold dropOp at added
        cases held : row.batchId <;> simp [held] at added
      | stopped => cases added
      | resumed paid summed own sum owes =>
        simp only [List.mem_singleton, StoreOp.putBatch.injEq] at added
        obtain ⟨rfl, rfl⟩ := added
        exact ⟨under _ ▸ inside, received.symm, .inl own⟩
      | fresh paid summed own sum owes numbered =>
        simp only [List.mem_cons, StoreOp.putBatch.injEq, reduceCtorEq, List.not_mem_nil,
          or_false] at added
        obtain ⟨rfl, rfl⟩ := added
        exact ⟨under _ ▸ inside, received.symm, .inr ⟨own, _, List.mem_singleton_self _, rfl⟩⟩

end moves

end Service

end X402Mesh.Settlement
