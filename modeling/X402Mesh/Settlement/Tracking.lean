import X402Mesh.Settlement.Carriers

set_option autoImplicit false

namespace X402Mesh.Settlement

open Registry Service

variable (cfg : Deps)

namespace World

variable {ι : Type}

def Stores (w : World ι) (id batchId receiver : String) : Prop :=
  (∃ row, w.rows.batchRows.get? batchId = some row ∧ row.operatorAddress = receiver ∧
    id ∈ rowIds row) ∨
  ∃ i, ∃ row ∈ (w.reads i).batches, row.batchId = some batchId ∧ row.operatorAddress = receiver ∧
    id ∈ rowIds row

def Carries (w : World ι) (id batchId receiver : String) : Prop :=
  (∃ i, (w.service i).Carries id batchId receiver) ∨ w.Stores id batchId receiver

structure Untracked (w : World ι) (id : String) : Prop where
  uncarried : ∀ batchId receiver, ¬ w.Carries id batchId receiver
  unaccrued : ∀ i operatorAddress, ¬ (w.service i).Accrues id operatorAddress

structure Tracked (w : World ι) : Prop where
  one : ∀ id batchId batchId' receiver receiver', w.Carries id batchId receiver →
    w.Carries id batchId' receiver' → batchId = batchId' ∧ receiver = receiver'
  apart : ∀ i id operatorAddress batchId receiver, (w.service i).Accrues id operatorAddress →
    ¬ w.Carries id batchId receiver
  alone : ∀ i j id operatorAddress operatorAddress', (w.service i).Accrues id operatorAddress →
    (w.service j).Accrues id operatorAddress' → i = j ∧ operatorAddress = operatorAddress'

structure Shrinks (w w' : World ι) : Prop where
  carries : ∀ id batchId receiver, w'.Carries id batchId receiver → w.Carries id batchId receiver
  accrues : ∀ i id operatorAddress, (w'.service i).Accrues id operatorAddress →
    (w.service i).Accrues id operatorAddress

theorem Tracked.shrink {w w' : World ι} (tracked : Tracked w) (shrinks : Shrinks w w') :
    Tracked w' where
  one := fun id _ _ _ _ first second =>
    tracked.one id _ _ _ _ (shrinks.carries _ _ _ first) (shrinks.carries _ _ _ second)
  apart := fun i id _ _ _ accrues carries =>
    tracked.apart i id _ _ _ (shrinks.accrues _ _ _ accrues) (shrinks.carries _ _ _ carries)
  alone := fun i j id _ _ first second =>
    tracked.alone i j id _ _ (shrinks.accrues _ _ _ first) (shrinks.accrues _ _ _ second)

-- Requests that were carried nowhere become carried under one batch.
theorem Tracked.carve {w w' : World ι} (tracked : Tracked w) (ids : List String)
    (batchId receiver : String)
    (carries : ∀ id b r, w'.Carries id b r →
      w.Carries id b r ∨ id ∈ ids ∧ b = batchId ∧ r = receiver)
    (uncarried : ∀ id ∈ ids, ∀ b r, ¬ w.Carries id b r)
    (accrues : ∀ i id operatorAddress, (w'.service i).Accrues id operatorAddress →
      (w.service i).Accrues id operatorAddress ∧ id ∉ ids) : Tracked w' where
  one := by
    intro id b b' r r' first second
    rcases carries _ _ _ first with old | ⟨member, rfl, rfl⟩
    · rcases carries _ _ _ second with old' | ⟨member, -, -⟩
      · exact tracked.one id b b' r r' old old'
      · exact absurd old (uncarried id member b r)
    · rcases carries _ _ _ second with old | ⟨-, rfl, rfl⟩
      · exact absurd old (uncarried id member b' r')
      · exact ⟨rfl, rfl⟩
  apart := by
    intro i id operatorAddress b r accruing carried
    obtain ⟨before, outside⟩ := accrues i id operatorAddress accruing
    rcases carries _ _ _ carried with old | ⟨member, -, -⟩
    · exact tracked.apart i id operatorAddress b r before old
    · exact outside member
  alone := fun i j id _ _ first second =>
    tracked.alone i j id _ _ (accrues _ _ _ first).1 (accrues _ _ _ second).1

-- A request that nothing had starts to accrue at one process.
theorem Tracked.accept {w w' : World ι} (tracked : Tracked w) (i : ι)
    (id operatorAddress : String) (fresh : w.Untracked id)
    (carries : ∀ id b r, w'.Carries id b r → w.Carries id b r)
    (accrues : ∀ j other op, (w'.service j).Accrues other op →
      (w.service j).Accrues other op ∨ j = i ∧ other = id ∧ op = operatorAddress) :
    Tracked w' where
  one := fun id _ _ _ _ first second =>
    tracked.one id _ _ _ _ (carries _ _ _ first) (carries _ _ _ second)
  apart := by
    intro j other op b r accruing carried
    rcases accrues j other op accruing with old | ⟨-, rfl, -⟩
    · exact tracked.apart j other op b r old (carries _ _ _ carried)
    · exact fresh.uncarried b r (carries _ _ _ carried)
  alone := by
    intro j k other op op' first second
    rcases accrues j other op first with old | ⟨rfl, rfl, rfl⟩
    · rcases accrues k other op' second with old' | ⟨-, rfl, -⟩
      · exact tracked.alone j k other op op' old old'
      · exact absurd old (fresh.unaccrued j op)
    · rcases accrues k other op' second with old | ⟨rfl, -, rfl⟩
      · exact absurd old (fresh.unaccrued k op')
      · exact ⟨rfl, rfl⟩

variable [DecidableEq ι]

section put

variable {w : World ι} {i : ι} {svc : Service}

theorem put_carries {Q : String → String → String → Prop}
    (own : ∀ id b r, svc.Carries id b r → (w.service i).Carries id b r ∨ Q id b r) :
    ∀ id b r, (w.put i svc).Carries id b r → w.Carries id b r ∨ Q id b r := by
  rintro id b r (⟨j, carries⟩ | stores)
  · rw [put_service] at carries
    split at carries
    next same =>
      subst same
      exact (own id b r carries).imp_left fun old => .inl ⟨j, old⟩
    next => exact .inl (.inl ⟨j, carries⟩)
  · exact .inl (.inr stores)

theorem put_accrues {Q : String → String → Prop}
    (own : ∀ id op, svc.Accrues id op → (w.service i).Accrues id op ∨ Q id op) :
    ∀ j id op, ((w.put i svc).service j).Accrues id op →
      (w.service j).Accrues id op ∨ j = i ∧ Q id op := by
  intro j id op accrues
  rw [put_service] at accrues
  split at accrues
  next same =>
    subst same
    exact (own id op accrues).imp_right fun new => ⟨rfl, new⟩
  next => exact .inl accrues

variable (w i svc) in
theorem put_shrinks (carries : ∀ id b r, svc.Carries id b r → w.Carries id b r)
    (accrues : ∀ id op, svc.Accrues id op → (w.service i).Accrues id op) :
    Shrinks w (w.put i svc) where
  carries := by
    rintro id b r (⟨j, held⟩ | stores)
    · rw [put_service] at held
      split at held
      · exact carries id b r held
      · exact .inl ⟨j, held⟩
    · exact .inr stores
  accrues := fun j id op held =>
    (put_accrues (Q := fun _ _ => False) (fun id op own => .inl (accrues id op own)) j id op
      held).elim (fun old => old) fun ⟨_, never⟩ => never.elim

end put

theorem turn_shrinks (w : World ι) (i : ι) : Shrinks w (w.turn i (w.service i)) := by
  have kept := put_shrinks w i { w.service i with outbox := [] }
    (fun id b r held => .inl ⟨i, held⟩) (fun id op held => held)
  exact ⟨kept.carries, kept.accrues⟩

theorem Tracked.put_accept {w : World ι} (tracked : Tracked w) (i : ι) (svc : Service)
    (requestId operatorAddress : String) (fresh : w.Untracked requestId)
    (carries : ∀ id b r, svc.Carries id b r → (w.service i).Carries id b r)
    (accrues : ∀ id op, svc.Accrues id op →
      (w.service i).Accrues id op ∨ id = requestId ∧ op = operatorAddress) :
    Tracked (w.put i svc) := by
  refine tracked.accept i requestId operatorAddress fresh ?_ (put_accrues accrues)
  rintro id b r (⟨j, held⟩ | stores)
  · rw [put_service] at held
    split at held
    · exact .inl ⟨i, carries id b r held⟩
    · exact .inl ⟨j, held⟩
  · exact .inr stores

theorem Tracked.put_detach {w : World ι} (tracked : Tracked w) (i : ι)
    (sound : Sound (w.service i)) (operatorAddress : String) (accrual : Accrual) (now : Nat)
    (found : (w.service i).accruals.get? operatorAddress = some accrual) :
    Tracked (w.put i (detach cfg (w.service i) operatorAddress accrual now)) := by
  have accruing (id : String) (member : id ∈ accrual.records.map (·.requestId)) :
      (w.service i).Accrues id operatorAddress := ⟨accrual, found, member⟩
  refine tracked.carve (accrual.records.map (·.requestId)) ((w.service i).detachedId now)
    operatorAddress (put_carries fun id b r held => ?_) (fun id member b r held => ?_) ?_
  · exact detach_carries operatorAddress accrual now (sound _ _ found).keyed held
  · exact tracked.apart i id operatorAddress b r (accruing id member) held
  · intro j id op held
    rw [put_service] at held
    split at held
    next same =>
      subst same
      obtain ⟨old, other⟩ := detach_accrues operatorAddress accrual now held
      exact ⟨old, fun member =>
        other (tracked.alone j j id op operatorAddress old (accruing id member)).2⟩
    next differ =>
      exact ⟨held, fun member =>
        differ (tracked.alone j i id op operatorAddress held (accruing id member)).1⟩

theorem tracked_moves : KeptByMoves cfg (Tracked (ι := ι)) fun w _ id => w.Untracked id where
  ended w i tracked := tracked.shrink (turn_shrinks w i)
  quiet _ i _ tracked kept :=
    tracked.shrink (put_shrinks _ i _ (fun _ _ _ held => .inl ⟨i, kept.carries held⟩)
      fun _ _ held => kept.accrues held)
  hold _ i _ record accruedAt tracked sound taken fresh :=
    tracked.put_accept i _ record.requestId record.operatorAddress fresh
      (fun _ _ _ held => taken.kept.carries (hold_carries (taken.kept.sound sound) accruedAt held))
      fun _ _ held =>
        (hold_accrues (taken.kept.sound sound) accruedAt held).imp_left taken.kept.accrues
  take _ i _ record accruedAt tracked sound taken fresh :=
    tracked.put_accept i _ record.requestId record.operatorAddress fresh
      (fun _ _ _ held => taken.kept.carries (carries_of rfl (fun _ _ _ member => member) held))
      fun _ _ held =>
        (putAccrual_accrues (taken.kept.sound sound) accruedAt held).imp_left taken.kept.accrues
  detach _ i operatorAddress accrual now tracked sound found :=
    tracked.put_detach cfg i sound operatorAddress accrual now found

theorem setChain_shrinks (w : World ι) (i : ι) (key : String) (works : List (Work StoreOp))
    (kept : ∀ b row, .putBatch b row ∈ WriteChain.pending works →
      .putBatch b row ∈ (w.service i).pending key) :
    Shrinks w (w.setWrites i key works) := by
  refine put_shrinks _ i _ (fun id b r held => .inl ⟨i, ?_⟩) fun id op held => held
  have payouts : ((w.service i).setChain key works).payouts = (w.service i).payouts := rfl
  refine carries_of payouts (fun other b row member => ?_) held
  rw [pending_setChain] at member
  split at member
  next same => exact same ▸ kept b row member
  next => exact member

theorem callWrite_shrinks {w w' : World ι} {i : ι} {key : String}
    (taken : step cfg w (.callWrite i key) = some w') : Shrinks w w' := by
  obtain ⟨works, called, rfl⟩ := callWrite_inv taken
  obtain ⟨op, rest, before, after⟩ := WriteChain.pending_call _ _ _ called
  apply setChain_shrinks
  intro b row member
  rw [after] at member
  change _ ∈ WriteChain.pending ((w.service i).chain key)
  rw [before]
  rcases List.mem_cons.mp member with same | later
  · cases op <;> simp [StoreOp.serialize] at same ⊢
    exact .inl same
  · exact List.mem_cons_of_mem _ later

theorem resolveWrite_shrinks {w w' : World ι} {i : ι} {key : String}
    (taken : step cfg w (.resolveWrite i key) = some w') : Shrinks w w' := by
  obtain ⟨op, works, resolved, rfl⟩ := resolveWrite_inv taken
  have kept := setChain_shrinks w i key works fun b row member => by
    rwa [WriteChain.pending_resolve _ _ _ resolved] at member
  exact ⟨kept.carries, kept.accrues⟩

theorem rejectWrite_shrinks {w w' : World ι} {i : ι} {key : String}
    (taken : step cfg w (.rejectWrite i key) = some w') : Shrinks w w' := by
  obtain ⟨works, rejected, rfl⟩ := rejectWrite_inv taken
  exact setChain_shrinks w i key works fun b row member =>
    (WriteChain.pending_reject _ _ rejected).subset member

theorem applyWrite_shrinks {w w' : World ι} {i : ι} {key : String}
    (taken : step cfg w (.applyWrite i key) = some w') : Shrinks w w' := by
  obtain ⟨op, works, rows, applied, effect, rfl⟩ := applyWrite_inv taken
  have pending : (w.service i).pending key = op :: WriteChain.pending works :=
    WriteChain.pending_apply _ _ _ applied
  have kept := setChain_shrinks w i key works fun b row member => by
    rw [pending]
    exact List.mem_cons_of_mem _ member
  refine ⟨fun id b r held => ?_, kept.accrues⟩
  rcases held with service | ⟨row, stored, rest⟩ | read
  · exact kept.carries id b r (.inl service)
  · rcases batchRow_after effect stored with rfl | ⟨old, -⟩
    · exact .inl ⟨i, .inr ⟨key, row, by simp [pending], rest⟩⟩
    · exact .inr (.inl ⟨row, old, rest⟩)
  · exact .inr (.inr read)

theorem payout_shrinks {w w' : World ι} {i : ι} {index : Nat} {event : PayoutEvent}
    {attemptAt settledAt : Nat}
    (taken : step cfg w (.payout i index event attemptAt settledAt) = some w') : Shrinks w w' := by
  obtain ⟨svc, run, progress, resumed, -, -, rfl⟩ := payout_inv taken
  have settled := put_shrinks w i svc
    (fun _ _ _ held => .inl ⟨i, resumePayout_carries resumed held⟩)
    fun _ _ held => resumePayout_accrues resumed held
  have turned := turn_shrinks (w.put i svc) i
  rw [← turn_eq] at turned
  exact ⟨fun id b r held => settled.carries id b r (turned.carries id b r held),
    fun j id op held => settled.accrues j id op (turned.accrues j id op held)⟩

theorem readOpen_shrinks {w w' : World ι} {i : ι} {addresses : List String}
    (taken : step cfg w (.readOpen i addresses) = some w') : Shrinks w w' := by
  rw [readOpen_inv taken]
  refine ⟨?_, fun _ _ _ held => held⟩
  rintro id b r (service | stored | ⟨j, row, member, rest⟩)
  · exact .inl service
  · exact .inr (.inl stored)
  · refine .inr (.inr ⟨j, row, ?_, rest⟩)
    rw [setReads_reads] at member
    split at member
    next same => exact same ▸ member
    next => exact member

theorem restart_shrinks (w : World ι) (i : ι) : Shrinks w (w.restart i) := by
  constructor
  · rintro id b r (⟨j, held⟩ | stored | ⟨j, row, member, rest⟩)
    · rw [restart_service] at held
      split at held
      · rcases held with ⟨run, member, -⟩ | ⟨key, row, member, -⟩
        · cases member
        · simp at member
      · exact .inl ⟨j, held⟩
    · exact .inr (.inl stored)
    · rw [restart_reads] at member
      split at member
      · cases member
      · exact .inr (.inr ⟨j, row, member, rest⟩)
  · intro j id op held
    rw [restart_service] at held
    split at held
    · obtain ⟨accrual, found, -⟩ := held
      simp [init] at found
    · exact held

end World

namespace Service

structure Labels (svc : Service) : Prop where
  queued : ∀ key b row, .putBatch b row ∈ svc.pending key → row.batchId = some b ∧ b ≠ ""
  openQueued : ∀ key row, .putOpenRow row ∈ svc.pending key → row.batchId = none
  runs : ∀ run ∈ svc.payouts, ∃ b, run.job.batchId = some b ∧ run.job.payoutId = "batch/" ++ b

theorem labels_init : Labels init := ⟨by simp, by simp, by simp [init]⟩

theorem batchIdOf_nonempty (now seq : Nat) : batchIdOf now seq ≠ "" := by
  intro empty
  have chars := congrArg String.toList empty
  simp [batchIdOf] at chars

theorem recoveredIdOf_nonempty (now seq : Nat) : recoveredIdOf now seq ≠ "" := by
  intro empty
  have chars := congrArg String.toList empty
  simp [recoveredIdOf] at chars

section labels

variable {cfg} {svc base : Service} (labels : Labels svc)

include labels

theorem Labels.mono {after : Service} (payouts : after.payouts = svc.payouts)
    (putBatch : ∀ key b row, .putBatch b row ∈ after.pending key →
      .putBatch b row ∈ svc.pending key)
    (putOpenRow : ∀ key row, .putOpenRow row ∈ after.pending key →
      .putOpenRow row ∈ svc.pending key) : Labels after where
  queued key b row member := labels.queued key b row (putBatch key b row member)
  openQueued key row member := labels.openQueued key row (putOpenRow key row member)
  runs := payouts ▸ labels.runs

theorem Labels.quiet {after : Service} (kept : Quiet svc after) : Labels after := by
  refine labels.mono kept.payouts (fun key b row member => ?_) fun key row member => ?_ <;>
  · rcases kept.mem_pending member with old | ⟨_, ledger⟩
    · exact old
    · cases ledger

theorem Labels.hold (sound : Sound svc) (record : SettlementRecord) (accruedAt : Nat) :
    Labels (hold cfg svc record accruedAt) := by
  refine labels.mono (by simp) (fun key b row member => ?_) fun key row member => ?_ <;>
  · rw [hold_pending cfg svc record accruedAt sound, List.mem_append] at member
    rcases member with old | added
    · exact old
    · split at added <;> simp at added

theorem Labels.detach (operatorAddress : String) (accrual : Accrual) (now : Nat) :
    Labels (detach cfg svc operatorAddress accrual now) where
  queued key b row member := by
    rw [detach_pending, List.mem_append] at member
    rcases member with old | added
    · exact labels.queued key b row old
    · split at added
      · simp only [List.mem_cons, StoreOp.putBatch.injEq, reduceCtorEq, List.not_mem_nil,
          or_false] at added
        obtain ⟨rfl, rfl⟩ := added
        exact ⟨rfl, batchIdOf_nonempty _ _⟩
      · cases added
  openQueued key row member := by
    rw [detach_pending, List.mem_append] at member
    rcases member with old | added
    · exact labels.openQueued key row old
    · split at added <;> simp at added
  runs run member := by
    rw [detach_payouts, List.mem_append, List.mem_singleton] at member
    rcases member with old | rfl
    · exact labels.runs run old
    · exact ⟨_, rfl, rfl⟩

theorem Labels.recovered {after : Service} {row : PersistedAccrual} {ops : List StoreOp}
    {runs : List PayoutRun} {now : Nat → Nat} {records : List StoredRecord}
    (recovered : Recovered cfg svc after row.operatorAddress ops runs)
    (outcome : Outcome cfg now row records ops runs) : Labels after := by
  have paid : ∀ b put, .putBatch b put ∈ ops → put.batchId = some b ∧ b ≠ "" := by
    intro b put member
    cases outcome with
    | dropped => unfold dropOp at member; cases held : row.batchId <;> simp [held] at member
    | stopped => cases member
    | resumed batchId summed own =>
      simp only [List.mem_singleton, StoreOp.putBatch.injEq] at member
      obtain ⟨rfl, rfl⟩ := member
      simp only [resumedId, Option.filter_eq_some_iff, decide_eq_true_eq] at own
      exact ⟨rfl, own.2⟩
    | fresh batchId summed own sum owes numbered =>
      simp only [List.mem_cons, StoreOp.putBatch.injEq, reduceCtorEq, List.not_mem_nil,
        or_false] at member
      obtain ⟨rfl, rfl⟩ := member
      obtain ⟨seq, rfl⟩ := numbered
      exact ⟨rfl, recoveredIdOf_nonempty _ _⟩
  have closed : ∀ put, .putOpenRow put ∉ ops := by
    intro put member
    cases outcome with
    | dropped => unfold dropOp at member; cases held : row.batchId <;> simp [held] at member
    | stopped => cases member
    | resumed | fresh => simp at member
  constructor
  · intro key b put member
    rcases recovered.mem_pending member with old | ⟨_, ledger⟩ | ⟨-, added⟩
    · exact labels.queued key b put old
    · cases ledger
    · exact paid b put added
  · intro key put member
    rcases recovered.mem_pending member with old | ⟨_, ledger⟩ | ⟨-, added⟩
    · exact labels.openQueued key put old
    · cases ledger
    · exact absurd added (closed put)
  · intro run member
    rw [recovered.payouts, List.mem_append] at member
    rcases member with old | added
    · exact labels.runs run old
    · cases outcome with
      | dropped | stopped => cases added
      | resumed | fresh =>
        obtain rfl := List.mem_singleton.mp added
        exact ⟨_, rfl, rfl⟩

theorem Labels.resumePayout {after : Service} {index : Nat} {event : PayoutEvent}
    {attemptAt settledAt : Nat}
    (resumed : resumePayout cfg svc index event attemptAt settledAt = some after) :
    Labels after := by
  obtain ⟨run, progress, found, -, kept⟩ := resumePayout_cases cfg svc after index event attemptAt
    settledAt resumed
  have moving : Labels (moved cfg svc index run.job progress) := by
    refine ⟨labels.queued, labels.openQueued, fun other member => ?_⟩
    rcases List.mem_or_eq_of_mem_set member with old | rfl
    · exact labels.runs other old
    · exact labels.runs run (List.mem_of_getElem? found)
  obtain ⟨-, -, -, -, -, payouts, -⟩ := discharged_frame cfg (moved cfg svc index run.job progress)
    run.job progress attemptAt
  refine Labels.quiet (moving.mono payouts (fun key b row member => ?_) fun key row member => ?_)
    kept.quiet <;>
  · rw [discharged_pending, List.mem_append] at member
    rcases member with old | added
    · exact old
    · split at added
      · cases held : run.job.batchId <;> simp [held] at added
      · cases added

theorem Labels.setChain (key : String) (works : List (Work StoreOp))
    (kept : ∀ op ∈ WriteChain.pending works,
      op ∈ svc.pending key ∨ ∃ row, op = .putOpenRow row ∧ row.batchId = none) :
    Labels (svc.setChain key works) where
  queued other b row member := by
    rw [pending_setChain] at member
    split at member
    next same =>
      rcases kept _ member with old | ⟨_, opened, -⟩
      · exact labels.queued key b row old
      · cases opened
    next => exact labels.queued other b row member
  openQueued other row member := by
    rw [pending_setChain] at member
    split at member
    next same =>
      rcases kept _ member with old | ⟨_, opened, none⟩
      · exact labels.openQueued key row old
      · cases opened
        exact none
    next => exact labels.openQueued other row member
  runs := labels.runs

end labels

end Service

namespace World

variable {ι : Type}

structure Labelled (w : World ι) : Prop where
  sound : ∀ i, Sound (w.service i)
  labels : ∀ i, Labels (w.service i)
  stored : ∀ b row, w.rows.batchRows.get? b = some row → row.batchId = some b ∧ b ≠ ""
  openStored : ∀ key row, w.rows.openRows.get? key = some row → row.batchId = none
  read : ∀ i, ∀ row ∈ (w.reads i).batches, ∃ b, row.batchId = some b ∧ b ≠ ""
  openRead : ∀ i, ∀ row ∈ (w.reads i).openRows, row.batchId = none

theorem labelled_start : Labelled (start (ι := ι) .empty) where
  sound _ := sound_init
  labels _ := labels_init
  stored b row found := by cases found
  openStored key row found := by cases found
  read i row member := by cases member
  openRead i row member := by cases member

variable [DecidableEq ι]

theorem Labelled.put {w : World ι} (labelled : Labelled w) (i : ι) (svc : Service)
    (sound : Sound svc) (labels : Labels svc) : Labelled (w.put i svc) where
  sound j := by
    rw [put_service]
    split
    · exact sound
    · exact labelled.sound j
  labels j := by
    rw [put_service]
    split
    · exact labels
    · exact labelled.labels j
  stored := labelled.stored
  openStored := labelled.openStored
  read := labelled.read
  openRead := labelled.openRead

theorem Labelled.turned {w : World ι} (labelled : Labelled w) (i : ι) :
    Labelled (w.turn i (w.service i)) := by
  have kept := labelled.put i { w.service i with outbox := [] }
    (fun key accrual found => { labelled.sound i key accrual found with })
    { labelled.labels i with }
  exact { kept with }

theorem labelled_moves :
    KeptByMoves cfg (Labelled (ι := ι)) fun _ _ _ => True where
  ended _ i labelled := labelled.turned i
  quiet _ i _ labelled kept :=
    labelled.put i _ (kept.sound (labelled.sound i)) ((labelled.labels i).quiet kept)
  hold _ i _ _ accruedAt labelled sound taken _ :=
    labelled.put i _
      (hold_sound cfg _ _ accruedAt (taken.kept.sound sound) taken.priced taken.claimed)
      (((labelled.labels i).quiet taken.kept).hold (taken.kept.sound sound) _ accruedAt)
  take _ i _ _ accruedAt labelled sound taken _ :=
    labelled.put i _ (taken.putAccrual_sound sound accruedAt)
      (((labelled.labels i).quiet taken.kept).mono rfl (fun _ _ _ member => member)
        fun _ _ member => member)
  detach _ i operatorAddress accrual now labelled sound _ :=
    labelled.put i _ (sound.detach cfg operatorAddress accrual now)
      ((labelled.labels i).detach operatorAddress accrual now)

theorem Labelled.setWrites {w : World ι} (labelled : Labelled w) (i : ι) (key : String)
    (works : List (Work StoreOp))
    (kept : ∀ op ∈ WriteChain.pending works,
      op ∈ (w.service i).pending key ∨ ∃ row, op = .putOpenRow row ∧ row.batchId = none) :
    Labelled (w.setWrites i key works) :=
  labelled.put i _ (fun other accrual found => { labelled.sound i other accrual found with })
    ((labelled.labels i).setChain key works kept)

theorem Labelled.callWrite {w w' : World ι} (labelled : Labelled w) {i : ι} {key : String}
    (taken : step cfg w (.callWrite i key) = some w') : Labelled w' := by
  obtain ⟨works, called, rfl⟩ := callWrite_inv taken
  obtain ⟨op, rest, before, after⟩ := WriteChain.pending_call _ _ _ called
  have pending : (w.service i).pending key = op :: rest := before
  apply labelled.setWrites
  intro written member
  rw [after] at member
  rw [pending]
  rcases List.mem_cons.mp member with rfl | later
  · cases op with
    | putOpen operatorAddress serial firstAt => exact .inr ⟨_, rfl, rfl⟩
    | _ => exact .inl (List.mem_cons_self ..)
  · exact .inl (List.mem_cons_of_mem _ later)

theorem Labelled.applyWrite {w w' : World ι} (labelled : Labelled w) {i : ι} {key : String}
    (taken : step cfg w (.applyWrite i key) = some w') : Labelled w' := by
  obtain ⟨op, works, rows, applied, effect, rfl⟩ := applyWrite_inv taken
  have pending : (w.service i).pending key = op :: WriteChain.pending works :=
    WriteChain.pending_apply _ _ _ applied
  have kept := labelled.setWrites i key works fun written member =>
    .inl (by rw [pending]; exact List.mem_cons_of_mem _ member)
  refine { kept with stored := fun b row found => ?_, openStored := fun other row found => ?_ }
  · rcases batchRow_after effect found with rfl | ⟨old, -⟩
    · exact (labelled.labels i).queued key b row (by simp [pending])
    · exact labelled.stored b row old
  · rcases openRow_after effect found with ⟨rfl, -⟩ | ⟨old, -⟩
    · exact (labelled.labels i).openQueued key row (by simp [pending])
    · exact labelled.openStored other row old

theorem Labelled.resolveWrite {w w' : World ι} (labelled : Labelled w) {i : ι} {key : String}
    (taken : step cfg w (.resolveWrite i key) = some w') : Labelled w' := by
  obtain ⟨op, works, resolved, rfl⟩ := resolveWrite_inv taken
  have kept := labelled.setWrites i key works fun written member => by
    rw [WriteChain.pending_resolve _ _ _ resolved] at member
    exact .inl member
  exact { kept with }

theorem Labelled.rejectWrite {w w' : World ι} (labelled : Labelled w) {i : ι} {key : String}
    (taken : step cfg w (.rejectWrite i key) = some w') : Labelled w' := by
  obtain ⟨works, rejected, rfl⟩ := rejectWrite_inv taken
  exact labelled.setWrites i key works fun written member =>
    .inl ((WriteChain.pending_reject _ _ rejected).subset member)

theorem Labelled.payout {w w' : World ι} (labelled : Labelled w) {i : ι} {index : Nat}
    {event : PayoutEvent} {attemptAt settledAt : Nat}
    (taken : step cfg w (.payout i index event attemptAt settledAt) = some w') : Labelled w' := by
  obtain ⟨svc, run, progress, resumed, -, -, rfl⟩ := payout_inv taken
  have sound : Sound svc := by
    obtain ⟨other, ends, found, -, kept⟩ := resumePayout_cases cfg _ svc index event attemptAt
      settledAt resumed
    obtain ⟨accruals, arrays, claimed, -⟩ := discharged_frame cfg
      (moved cfg (w.service i) index other.job ends) other.job ends attemptAt
    apply kept.quiet.sound
    exact (labelled.sound i).mono arrays claimed fun _ _ held => accruals ▸ held
  have kept := labelled.put i svc sound ((labelled.labels i).resumePayout resumed)
  have turned := kept.turned i
  rw [← turn_eq] at turned
  exact { turned with }

omit [DecidableEq ι] in
theorem Labelled.read_open {w : World ι} (labelled : Labelled w) (addresses : List String) :
    ∀ row ∈ w.rows.readOpen addresses, row.batchId = none := by
  intro row member
  obtain ⟨key, -, found⟩ := List.mem_filterMap.mp member
  exact labelled.openStored key row found

omit [DecidableEq ι] in
theorem Labelled.read_batches {w : World ι} (labelled : Labelled w) (batchIds : List String) :
    ∀ row ∈ w.rows.readBatches batchIds, ∃ b, w.rows.batchRows.get? b = some row ∧
      row.batchId = some b ∧ b ≠ "" := by
  intro row member
  obtain ⟨b, -, found⟩ := List.mem_filterMap.mp (List.mem_filter.mp member).1
  exact ⟨b, found, labelled.stored b row found⟩

theorem Labelled.setReads {w : World ι} (labelled : Labelled w) (i : ι) (reads : Reads)
    (read : ∀ row ∈ reads.batches, ∃ b, row.batchId = some b ∧ b ≠ "")
    (openRead : ∀ row ∈ reads.openRows, row.batchId = none) : Labelled (w.setReads i reads) := by
  refine { labelled with read := fun j => ?_, openRead := fun j => ?_ } <;>
    rw [setReads_reads] <;> split
  · exact read
  · exact labelled.read j
  · exact openRead
  · exact labelled.openRead j

theorem Labelled.readBatches_shrinks {w w' : World ι} (labelled : Labelled w) {i : ι}
    {batchIds : List String} (taken : step cfg w (.readBatches i batchIds) = some w') :
    Shrinks w w' := by
  rw [readBatches_inv taken]
  refine ⟨?_, fun _ _ _ held => held⟩
  rintro id b r (service | stored | ⟨j, row, member, named, received, inside⟩)
  · exact .inl service
  · exact .inr (.inl stored)
  · right
    rw [setReads_reads] at member
    split at member
    · obtain ⟨b', found, own, -⟩ := labelled.read_batches batchIds row member
      obtain rfl : b' = b := Option.some.inj (own.symm.trans named)
      exact .inl ⟨row, found, received, inside⟩
    · exact .inr ⟨j, row, member, named, received, inside⟩

theorem Labelled.restart {w : World ι} (labelled : Labelled w) (i : ι) :
    Labelled (w.restart i) where
  sound j := by
    rw [restart_service]
    split
    · intro operatorAddress accrual found
      simp [init] at found
    · exact labelled.sound j
  labels j := by
    rw [restart_service]
    split
    · exact labels_init
    · exact labelled.labels j
  stored := labelled.stored
  openStored := labelled.openStored
  read j := by
    rw [restart_reads]
    split
    · simp
    · exact labelled.read j
  openRead j := by
    rw [restart_reads]
    split
    · simp
    · exact labelled.openRead j

theorem Labelled.recoverAccruals {w : World ι} (labelled : Labelled w)
    (stored : cfg.accrualStore = true) (i : ι)
    (loaded : Option (List PersistedAccrual × List PersistedAccrual)) (now : Nat → Nat) :
    Labelled (w.put i (Service.recoverAccruals cfg (w.service i) loaded now)) := by
  unfold Service.recoverAccruals
  rw [if_pos stored]
  cases loaded with
  | none => simpa using labelled
  | some loaded =>
    have held := recoverRows_induction cfg stored now
      (P := fun state => Sound state.svc ∧ Labels state.svc) (loaded.2 ++ loaded.1)
      (fun state row ops runs after _ held _ rowStep =>
        ⟨rowStep.recovered.sound held.1, held.2.recovered rowStep.recovered rowStep.outcome⟩)
      ⟨w.service i, [], false⟩ ⟨labelled.sound i, labelled.labels i⟩
    exact labelled.put i _ held.1 held.2

theorem Labelled.recovered {w : World ι} (labelled : Labelled w) (i : ι)
    (loaded : Option (List PersistedAccrual × List PersistedAccrual)) (now : Nat → Nat) :
    Labelled (w.turn i (Service.recoverAccruals cfg (w.service i) loaded now)) := by
  apply (labelled_moves cfg).turn
  cases stored : cfg.accrualStore with
  | false => simpa [Service.recoverAccruals, stored] using labelled
  | true => exact labelled.recoverAccruals cfg stored i loaded now

theorem Labelled.step (batching : 0 < cfg.batchMinAtomic) {w w' : World ι} {a : Action ι}
    (labelled : Labelled w) (taken : World.step cfg w a = some w') : Labelled w' := by
  cases a with
  | settleInbound i inbound now =>
    cases taken
    exact (labelled_moves cfg).settleInbound batching w i labelled (labelled.sound i) inbound now
      fun _ => trivial
  | payout => exact labelled.payout cfg taken
  | callWrite => exact labelled.callWrite cfg taken
  | applyWrite => exact labelled.applyWrite cfg taken
  | resolveWrite => exact labelled.resolveWrite cfg taken
  | rejectWrite => exact labelled.rejectWrite cfg taken
  | readOpen i addresses =>
    rw [readOpen_inv taken]
    exact labelled.setReads i _ (labelled.read i) (labelled.read_open addresses)
  | readBatches i batchIds =>
    rw [readBatches_inv taken]
    refine labelled.setReads i _ (fun row member => ?_) (labelled.openRead i)
    obtain ⟨b, -, named⟩ := labelled.read_batches batchIds row member
    exact ⟨b, named⟩
  | recoverAccruals i ok now =>
    cases taken
    exact labelled.recovered cfg i _ now
  | restart i =>
    cases taken
    exact labelled.restart i
  | boot i addresses batchIds history ok now =>
    obtain ⟨-, -, rfl⟩ := boot_inv taken
    have quiet : Quiet ((w.restart i).service i) (Service.hydrateLedger cfg .init history) := by
      rw [restart_service, if_pos rfl]
      exact (hydrateLedger_bookkeeping cfg .init history).quiet
    have hydrated := (labelled_moves cfg).quiet _ i _ (labelled.restart i) quiet
    have booted := hydrated.recovered cfg i
      (if ok then some (loadAll w.rows addresses batchIds) else none) now
    simpa using booted
  | recordRouting | deadline | flushPayouts | hydrateLedger =>
    exact (labelled_moves cfg).step batching rfl labelled labelled.sound (fun _ _ _ _ _ => trivial)
      taken

end World

end X402Mesh.Settlement
