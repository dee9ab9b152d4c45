import X402Mesh.Settlement.Frame

set_option autoImplicit false

namespace X402Mesh.Settlement.Service

open Money

variable (cfg : Deps)

section enqueueStore

variable (svc : Service) (key : String) (ops : List StoreOp)

@[simp] theorem enqueueStore_accruals :
    (enqueueStore cfg svc key ops).accruals = svc.accruals := by
  unfold enqueueStore; split <;> rfl

@[simp] theorem enqueueStore_arrays : (enqueueStore cfg svc key ops).arrays = svc.arrays := by
  unfold enqueueStore; split <;> rfl

@[simp] theorem enqueueStore_nextSerial :
    (enqueueStore cfg svc key ops).nextSerial = svc.nextSerial := by
  unfold enqueueStore; split <;> rfl

@[simp] theorem enqueueStore_batchLiabilities :
    (enqueueStore cfg svc key ops).batchLiabilities = svc.batchLiabilities := by
  unfold enqueueStore; split <;> rfl

@[simp] theorem enqueueStore_batchSeq :
    (enqueueStore cfg svc key ops).batchSeq = svc.batchSeq := by
  unfold enqueueStore; split <;> rfl

@[simp] theorem enqueueStore_payouts :
    (enqueueStore cfg svc key ops).payouts = svc.payouts := by
  unfold enqueueStore; split <;> rfl

@[simp] theorem enqueueStore_outbox : (enqueueStore cfg svc key ops).outbox = svc.outbox := by
  unfold enqueueStore; split <;> rfl

@[simp] theorem enqueueStore_accepted :
    (enqueueStore cfg svc key ops).accepted = svc.accepted := by
  unfold enqueueStore; split <;> rfl

@[simp] theorem enqueueStore_claimed : (enqueueStore cfg svc key ops).claimed = svc.claimed := by
  unfold enqueueStore; split <;> rfl

@[simp] theorem enqueueStore_ledger : (enqueueStore cfg svc key ops).ledger = svc.ledger := by
  unfold enqueueStore; split <;> rfl

theorem pending_enqueueStore (other : String) :
    (enqueueStore cfg svc key ops).pending other =
      svc.pending other ++ if other = key ∧ cfg.accrualStore = true then ops else [] := by
  unfold enqueueStore
  split
  · by_cases same : other = key <;> simp [pending_enqueueWrite, *]
  · simp [*]

end enqueueStore

structure Priced (record : SettlementRecord) : Prop extends SplitHolds record where
  positive : 0 < payoutOf record

structure AccrualSound (svc : Service) (operatorAddress : String) (accrual : Accrual) : Prop where
  keyed : accrual.operatorAddress = operatorAddress
  nonempty : accrual.records ≠ []
  total : accrual.totalAtomic = owed accrual.records
  operator : ∀ r ∈ accrual.records, r.operatorAddress = operatorAddress
  priced : ∀ r ∈ accrual.records, Priced r
  live : svc.arrays operatorAddress accrual.serial = accrual.records
  claimed : ∀ r ∈ accrual.records, r.requestId ∈ svc.claimed

def Sound (svc : Service) : Prop :=
  ∀ operatorAddress accrual, svc.accruals.get? operatorAddress = some accrual →
    AccrualSound svc operatorAddress accrual

theorem Priced.parses {record : SettlementRecord} (priced : Priced record) :
    bigInt record.payoutAtomic = some (payoutOf record) := by
  obtain ⟨_, payout, _, _, parsed, _⟩ := priced.split
  simp [payoutOf, parsed]

theorem sumPayouts_priced (records : List SettlementRecord) (priced : ∀ r ∈ records, Priced r) :
    sumPayouts records = some (owed records) :=
  sumPayouts_of_priced records fun r member => ⟨_, (priced r member).parses⟩

theorem owed_positive (records : List SettlementRecord) (nonempty : records ≠ [])
    (priced : ∀ r ∈ records, Priced r) : 0 < owed records := by
  induction records with
  | nil => exact absurd rfl nonempty
  | cons record rest ih =>
    have first := (priced record (by simp)).positive
    rcases rest with _ | ⟨next, tail⟩
    · simpa [owed] using first
    · have later := ih (by simp) fun r member => priced r (by simp [member])
      simp only [owed, List.map_cons, List.sum_cons] at later ⊢
      omega

@[simp] theorem owed_append (left right : List SettlementRecord) :
    owed (left ++ right) = owed left + owed right := by
  simp [owed]

theorem sound_init : Sound init := by
  intro operatorAddress accrual found
  cases found

theorem Sound.bookkeeping {before after : Service} (sound : Sound before)
    (kept : Bookkeeping before after) : Sound after := by
  intro operatorAddress accrual found
  rw [kept.accruals] at found
  obtain ⟨keyed, nonempty, total, operator, priced, live, claimed⟩ := sound _ _ found
  exact ⟨keyed, nonempty, total, operator, priced, by rw [kept.arrays, live],
    fun r member => kept.claimed _ (claimed r member)⟩

-- The accruals left behind when one of them is detached, or when none is touched.
theorem Sound.mono {before after : Service} (sound : Sound before)
    (arrays : after.arrays = before.arrays) (claimed : after.claimed = before.claimed)
    (fewer : ∀ key accrual, after.accruals.get? key = some accrual →
      before.accruals.get? key = some accrual) : Sound after := by
  intro operatorAddress accrual found
  obtain ⟨keyed, nonempty, total, operator, priced, live, held⟩ := sound _ _ (fewer _ _ found)
  exact ⟨keyed, nonempty, total, operator, priced, by rw [arrays, live], by rwa [claimed]⟩

def detach (svc : Service) (operatorAddress : String) (accrual : Accrual) (now : Nat) : Service :=
  carve cfg { svc with accruals := svc.accruals.erase operatorAddress } operatorAddress accrual
    (owed accrual.records) now

theorem flushAccrual_absent (svc : Service) (operatorAddress : String) (now : Nat)
    (absent : svc.accruals.get? operatorAddress = none) :
    flushAccrual cfg svc operatorAddress now = svc := by
  simp [flushAccrual, absent]

theorem flushAccrual_found (svc : Service) (operatorAddress : String) (now : Nat)
    (accrual : Accrual) (found : svc.accruals.get? operatorAddress = some accrual)
    (sound : AccrualSound svc operatorAddress accrual) :
    flushAccrual cfg svc operatorAddress now = detach cfg svc operatorAddress accrual now := by
  have summed := sumPayouts_priced accrual.records sound.priced
  simp [flushAccrual, found, sound.nonempty, summed, detach]

section detach

variable (svc : Service) (operatorAddress : String) (accrual : Accrual) (now : Nat)

def detachedId : String := batchIdOf now (svc.batchSeq + 1)

def detachedJob : PayoutJob :=
  batchJob (svc.detachedId now) operatorAddress (owed accrual.records) accrual.records false

@[simp] theorem detach_accruals :
    (detach cfg svc operatorAddress accrual now).accruals = svc.accruals.erase operatorAddress := by
  simp [detach, carve, runPayout]

@[simp] theorem detach_arrays :
    (detach cfg svc operatorAddress accrual now).arrays = svc.arrays := by
  simp [detach, carve, runPayout]

@[simp] theorem detach_claimed :
    (detach cfg svc operatorAddress accrual now).claimed = svc.claimed := by
  simp [detach, carve, runPayout]

@[simp] theorem detach_accepted :
    (detach cfg svc operatorAddress accrual now).accepted = svc.accepted := by
  simp [detach, carve, runPayout]

@[simp] theorem detach_ledger :
    (detach cfg svc operatorAddress accrual now).ledger = svc.ledger := by
  simp [detach, carve, runPayout]

@[simp] theorem detach_batchSeq :
    (detach cfg svc operatorAddress accrual now).batchSeq = svc.batchSeq + 1 := by
  simp [detach, carve, runPayout]

@[simp] theorem detach_batchLiabilities :
    (detach cfg svc operatorAddress accrual now).batchLiabilities =
      svc.batchLiabilities.set (svc.detachedId now)
        (liability (svc.detachedId now) operatorAddress (owed accrual.records)
          accrual.records.length (some accrual.firstAt)) := by
  simp [detach, carve, runPayout, detachedId]

@[simp] theorem detach_payouts :
    (detach cfg svc operatorAddress accrual now).payouts =
      svc.payouts ++ [⟨svc.detachedJob operatorAddress accrual now,
        Progress.start cfg.attempts (svc.detachedJob operatorAddress accrual now)⟩] := by
  simp [detach, carve, runPayout, detachedJob, detachedId]

@[simp] theorem detach_outbox :
    (detach cfg svc operatorAddress accrual now).outbox =
      svc.outbox ++ calls cfg (svc.detachedJob operatorAddress accrual now)
        (Progress.start cfg.attempts (svc.detachedJob operatorAddress accrual now)) := by
  simp [detach, carve, runPayout, detachedJob, detachedId]

theorem detach_pending (key : String) :
    (detach cfg svc operatorAddress accrual now).pending key =
      svc.pending key ++
        if key = operatorAddress ∧ cfg.accrualStore = true then
          [.putBatch (svc.detachedId now)
            (persisted accrual.operatorAddress accrual.records accrual.firstAt
              (some (svc.detachedId now))), .removeOpen operatorAddress]
        else [] := by
  have queued := pending_enqueueStore cfg
    { svc with
      accruals := svc.accruals.erase operatorAddress
      batchSeq := svc.batchSeq + 1
      batchLiabilities := svc.batchLiabilities.set (svc.detachedId now)
        (liability (svc.detachedId now) operatorAddress (owed accrual.records)
          accrual.records.length (some accrual.firstAt)) }
    operatorAddress
    [.putBatch (svc.detachedId now)
      (persisted accrual.operatorAddress accrual.records accrual.firstAt
        (some (svc.detachedId now))), .removeOpen operatorAddress] key
  exact queued

end detach

theorem Sound.detach {svc : Service} (sound : Sound svc) (operatorAddress : String)
    (accrual : Accrual) (now : Nat) : Sound (detach cfg svc operatorAddress accrual now) := by
  refine sound.mono (by simp) (by simp) fun key other found => ?_
  rw [detach_accruals, OrderedMap.get?_erase] at found
  by_cases same : key = operatorAddress
  · simp [same] at found
  · simpa [same] using found

-- A property that holds through every detachment holds through a whole flush.
theorem flushPayouts_induction {P : Service → Prop} (now : Nat → Nat)
    (detached : ∀ svc operatorAddress accrual now, P svc → Sound svc →
      svc.accruals.get? operatorAddress = some accrual →
      P (detach cfg svc operatorAddress accrual now))
    (svc : Service) (init : P svc) (sound : Sound svc) :
    P (flushPayouts cfg svc now) ∧ Sound (flushPayouts cfg svc now) := by
  have pass (keys : List String) (svc : Service) (init : P svc) (sound : Sound svc) :
      P (keys.foldl (fun svc key => flushAccrual cfg svc key (now svc.batchSeq)) svc) ∧
        Sound (keys.foldl (fun svc key => flushAccrual cfg svc key (now svc.batchSeq)) svc) := by
    induction keys generalizing svc with
    | nil => exact ⟨init, sound⟩
    | cons key rest ih =>
      cases found : svc.accruals.get? key with
      | none =>
        rw [List.foldl_cons, flushAccrual_absent cfg svc key _ found]
        exact ih svc init sound
      | some accrual =>
        rw [List.foldl_cons, flushAccrual_found cfg svc key _ accrual found (sound _ _ found)]
        exact ih _ (detached svc key accrual _ init sound found) (sound.detach cfg key accrual _)
  exact pass _ svc init sound

section extended

variable (svc : Service) (record : SettlementRecord) (accruedAt : Nat)

-- The records that the operator of `record` has accrued so far.
def earlier (svc : Service) (record : SettlementRecord) : List SettlementRecord :=
  ((svc.accruals.get? record.operatorAddress).map (·.records)).getD []

def grown : Accrual := svc.extended record (payoutOf record) accruedAt

theorem grown_records : (svc.grown record accruedAt).records = svc.earlier record ++ [record] := by
  unfold grown extended earlier
  cases svc.accruals.get? record.operatorAddress <;> rfl

theorem grown_operatorAddress (sound : Sound svc) :
    (svc.grown record accruedAt).operatorAddress = record.operatorAddress := by
  unfold grown extended
  cases found : svc.accruals.get? record.operatorAddress with
  | none => rfl
  | some accrual => exact (sound _ _ found).keyed

theorem grown_total (sound : Sound svc) :
    (svc.grown record accruedAt).totalAtomic = owed (svc.grown record accruedAt).records := by
  rw [grown_records]
  unfold grown extended earlier
  cases found : svc.accruals.get? record.operatorAddress with
  | none => simp [owed]
  | some accrual => simp [(sound _ _ found).total, owed]

theorem grown_sound (sound : Sound svc) (priced : Priced record)
    (claimed : record.requestId ∈ svc.claimed) :
    AccrualSound (svc.putAccrual (svc.grown record accruedAt)) record.operatorAddress
      (svc.grown record accruedAt) := by
  have keyed := svc.grown_operatorAddress record accruedAt sound
  have before (P : SettlementRecord → Prop)
      (held : ∀ accrual, svc.accruals.get? record.operatorAddress = some accrual →
        ∀ r ∈ accrual.records, P r) (last : P record) :
      ∀ r ∈ (svc.grown record accruedAt).records, P r := by
    intro r member
    rw [grown_records, List.mem_append, List.mem_singleton] at member
    rcases member with old | rfl
    · unfold earlier at old
      cases found : svc.accruals.get? record.operatorAddress with
      | none => simp [found] at old
      | some accrual => exact held accrual found r (by simpa [found] using old)
    · exact last
  exact {
    keyed := keyed
    nonempty := by simp [grown_records]
    total := svc.grown_total record accruedAt sound
    operator := before _ (fun accrual found => (sound _ _ found).operator) rfl
    priced := before _ (fun accrual found => (sound _ _ found).priced) priced
    live := by simp [putAccrual, keyed]
    claimed := before _ (fun accrual found => (sound _ _ found).claimed) claimed }

@[simp] theorem putAccrual_claimed (accrual : Accrual) :
    (svc.putAccrual accrual).claimed = svc.claimed := rfl

theorem putAccrual_other (accrual : Accrual) (key : String) (other : key ≠ accrual.operatorAddress) :
    (svc.putAccrual accrual).accruals.get? key = svc.accruals.get? key := by
  simp [putAccrual, OrderedMap.get?_set, other]

theorem putAccrual_sound (sound : Sound svc) (priced : Priced record)
    (claimed : record.requestId ∈ svc.claimed) :
    Sound (svc.putAccrual (svc.grown record accruedAt)) := by
  have keyed := svc.grown_operatorAddress record accruedAt sound
  intro operatorAddress accrual found
  by_cases same : operatorAddress = record.operatorAddress
  · subst same
    obtain rfl : svc.grown record accruedAt = accrual := by
      simpa [putAccrual, OrderedMap.get?_set, keyed] using found
    exact svc.grown_sound record accruedAt sound priced claimed
  · rw [putAccrual_other svc _ _ (by rwa [keyed])] at found
    have held := sound _ _ found
    exact { held with live := by simp [putAccrual, keyed, same, held.live] }

end extended

def hold (svc : Service) (record : SettlementRecord) (accruedAt : Nat) : Service :=
  let accrual := svc.grown record accruedAt
  (persistOpen cfg (svc.putAccrual accrual) accrual).armTimer accrual

-- A push either waits for its batch or has it detached in the same turn.
theorem push_cases (svc : Service) (record : SettlementRecord) (accruedAt flushedAt : Nat)
    (sound : Sound svc) (priced : Priced record) (claimed : record.requestId ∈ svc.claimed) :
    push cfg svc record (payoutOf record) accruedAt flushedAt = hold cfg svc record accruedAt ∨
      push cfg svc record (payoutOf record) accruedAt flushedAt =
        detach cfg (svc.putAccrual (svc.grown record accruedAt)) record.operatorAddress
          (svc.grown record accruedAt) flushedAt := by
  have flushed : flushAccrual cfg (svc.putAccrual (svc.grown record accruedAt))
      record.operatorAddress flushedAt =
        detach cfg (svc.putAccrual (svc.grown record accruedAt)) record.operatorAddress
          (svc.grown record accruedAt) flushedAt := by
    apply flushAccrual_found
    · simp [putAccrual, svc.grown_operatorAddress record accruedAt sound]
    · exact svc.grown_sound record accruedAt sound priced claimed
  unfold push
  dsimp only
  split
  · exact .inr flushed
  · split
    · exact .inr flushed
    · exact .inl rfl

section hold

variable (svc : Service) (record : SettlementRecord) (accruedAt : Nat)

@[simp] theorem hold_arrays :
    (hold cfg svc record accruedAt).arrays =
      (svc.putAccrual (svc.grown record accruedAt)).arrays := by
  simp [hold, armTimer, persistOpen]

@[simp] theorem hold_claimed : (hold cfg svc record accruedAt).claimed = svc.claimed := by
  simp [hold, armTimer, persistOpen, putAccrual]

@[simp] theorem hold_accepted : (hold cfg svc record accruedAt).accepted = svc.accepted := by
  simp [hold, armTimer, persistOpen, putAccrual]

@[simp] theorem hold_ledger : (hold cfg svc record accruedAt).ledger = svc.ledger := by
  simp [hold, armTimer, persistOpen, putAccrual]

@[simp] theorem hold_batchSeq : (hold cfg svc record accruedAt).batchSeq = svc.batchSeq := by
  simp [hold, armTimer, persistOpen, putAccrual]

@[simp] theorem hold_batchLiabilities :
    (hold cfg svc record accruedAt).batchLiabilities = svc.batchLiabilities := by
  simp [hold, armTimer, persistOpen, putAccrual]

@[simp] theorem hold_payouts : (hold cfg svc record accruedAt).payouts = svc.payouts := by
  simp [hold, armTimer, persistOpen, putAccrual]

@[simp] theorem hold_outbox : (hold cfg svc record accruedAt).outbox = svc.outbox := by
  simp [hold, armTimer, persistOpen, putAccrual]

theorem hold_get? (sound : Sound svc) (key : String) :
    (hold cfg svc record accruedAt).accruals.get? key =
      if key = record.operatorAddress then
        some { svc.grown record accruedAt with timer := true }
      else svc.accruals.get? key := by
  have keyed := svc.grown_operatorAddress record accruedAt sound
  by_cases same : key = record.operatorAddress <;>
    simp [hold, armTimer, persistOpen, putAccrual, OrderedMap.get?_set, keyed, same]

theorem hold_pending (sound : Sound svc) (key : String) :
    (hold cfg svc record accruedAt).pending key =
      svc.pending key ++
        if key = record.operatorAddress ∧ cfg.accrualStore = true then
          [.putOpen record.operatorAddress (svc.grown record accruedAt).serial
            (svc.grown record accruedAt).firstAt]
        else [] := by
  have keyed := svc.grown_operatorAddress record accruedAt sound
  change (enqueueStore cfg (svc.putAccrual (svc.grown record accruedAt))
    (svc.grown record accruedAt).operatorAddress
    [.putOpen (svc.grown record accruedAt).operatorAddress (svc.grown record accruedAt).serial
      (svc.grown record accruedAt).firstAt]).pending key = _
  rw [keyed, pending_enqueueStore]
  rfl

theorem hold_sound (sound : Sound svc) (priced : Priced record)
    (claimed : record.requestId ∈ svc.claimed) : Sound (hold cfg svc record accruedAt) := by
  have put := svc.putAccrual_sound record accruedAt sound priced claimed
  have keyed := svc.grown_operatorAddress record accruedAt sound
  intro operatorAddress accrual found
  rw [hold_get? cfg svc record accruedAt sound] at found
  by_cases same : operatorAddress = record.operatorAddress
  · subst same
    obtain rfl := by simpa using found
    have held := svc.grown_sound record accruedAt sound priced claimed
    exact { held with live := by simpa using held.live, claimed := by simpa using held.claimed }
  · rw [if_neg same, ← putAccrual_other svc _ _ (by rwa [keyed])] at found
    have held := put _ _ found
    exact { held with live := by simpa using held.live, claimed := by simpa using held.claimed }

end hold

theorem schedule_cases (batching : 0 < cfg.batchMinAtomic) (svc : Service)
    (record : SettlementRecord) (now : Readings) (holds : SplitHolds record) :
    Bookkeeping svc (schedule cfg svc record now) ∨
      ∃ base, Bookkeeping { svc with accepted := svc.accepted ++ [record] } base ∧
        Priced record ∧
        schedule cfg svc record now =
          push cfg base record (payoutOf record) now.accruedAt now.flushedAt := by
  obtain ⟨_, payout, _, _, paid, _, nonnegative, _⟩ := holds.split
  have value : payoutOf record = payout := by simp [payoutOf, paid]
  unfold schedule
  simp only [paid, if_pos batching]
  by_cases zero : payout = 0
  · rw [if_pos zero]
    exact .inl (updateAll_bookkeeping cfg svc _ _)
  · rw [if_neg zero]
    refine .inr ⟨_, update_bookkeeping cfg _ record.requestId { record with status := .accrued },
      ⟨holds, by omega⟩, ?_⟩
    rw [value]
    rfl

-- With batching on, a settlement is either noted and dropped, or taken on once and pushed.
theorem settleInbound_cases (batching : 0 < cfg.batchMinAtomic) (svc : Service)
    (inbound : InboundSettlement) (now : Readings) :
    Bookkeeping svc (settleInbound cfg svc inbound now) ∨
      ∃ record base,
        Bookkeeping { svc with accepted := svc.accepted ++ [record] } base ∧
        record.requestId = inbound.requestId ∧ record.requestId ∉ svc.claimed ∧
        record.requestId ∈ base.claimed ∧ Priced record ∧
        settleInbound cfg svc inbound now =
          push cfg base record (payoutOf record) now.accruedAt now.flushedAt := by
  unfold settleInbound
  cases noted : svc.routing.get? inbound.requestId with
  | none => exact .inl (.refl svc)
  | some note =>
    dsimp only
    by_cases duplicate : inbound.requestId ∈ svc.claimed
    · rw [if_pos duplicate]
      exact .inl (bookkeeping_of_ledger svc _ _ _ fun _ held => held)
    · rw [if_neg duplicate]
      have claim := bookkeeping_of_ledger svc (svc.routing.erase inbound.requestId) svc.ledger
        (inbound.requestId :: svc.claimed) fun _ held => List.mem_cons_of_mem _ held
      cases opened : openRecord cfg inbound note now.createdAt with
      | error e => exact .inl claim
      | ok record =>
        obtain ⟨id, -, holds⟩ := openRecord_ok cfg inbound note now.createdAt record opened
        have remembered := remember_bookkeeping cfg
          { svc with
            routing := svc.routing.erase inbound.requestId
            claimed := inbound.requestId :: svc.claimed } record
        have known := remembered.claimed inbound.requestId (List.mem_cons_self ..)
        dsimp only
        generalize remember cfg _ record = taken at remembered known ⊢
        have entered := claim.trans remembered
        rcases schedule_cases cfg batching taken record now holds with quiet | ⟨base, kept, rest⟩
        · exact .inl (entered.trans quiet)
        · rw [entered.accepted] at kept
          refine .inr ⟨record, base, (entered.withAccepted _).trans kept, id, by rwa [id], ?_, rest⟩
          exact kept.claimed _ (by rwa [id])

def moved (svc : Service) (index : Nat) (job : PayoutJob) (progress : Progress) : Service :=
  { svc with
    payouts := svc.payouts.set index ⟨job, progress⟩
    outbox := svc.outbox ++ calls cfg job progress }

@[simp] theorem moved_pending (svc : Service) (index : Nat) (job : PayoutJob) (progress : Progress)
    (key : String) : (moved cfg svc index job progress).pending key = svc.pending key := rfl

def payee (job : PayoutJob) : String := (job.records.head?.map (·.operatorAddress)).getD ""

-- What ending a payout does besides the ledger.
def discharged (svc : Service) (job : PayoutJob) (progress : Progress) (attemptAt : Nat) :
    Service :=
  match progress with
  | .settled _ => releaseBatch cfg (svc.dropLiability job.batchId) job.batchId (payee job)
  | .failed reason => svc.annotate job.batchId reason attemptAt
  | _ => svc

theorem resumePayout_cases (svc svc' : Service) (index : Nat) (event : PayoutEvent)
    (attemptAt settledAt : Nat)
    (resumed : resumePayout cfg svc index event attemptAt settledAt = some svc') :
    ∃ run progress, svc.payouts[index]? = some run ∧
      run.progress.next cfg.attempts event = some progress ∧
      Bookkeeping (discharged cfg (moved cfg svc index run.job progress) run.job progress attemptAt)
        svc' := by
  unfold resumePayout at resumed
  simp only [Option.bind_eq_bind, Option.bind_eq_some_iff, Option.pure_def,
    Option.some.injEq] at resumed
  obtain ⟨run, found, progress, advanced, rfl⟩ := resumed
  refine ⟨run, progress, found, advanced, ?_⟩
  cases progress with
  | settled txId => exact updateAll_bookkeeping cfg _ _ _
  | failed reason => exact updateAll_bookkeeping cfg _ _ _
  | _ => exact .refl _

section discharged

variable (svc : Service) (job : PayoutJob) (progress : Progress) (attemptAt : Nat)

theorem discharged_frame :
    let after := discharged cfg svc job progress attemptAt
    after.accruals = svc.accruals ∧ after.arrays = svc.arrays ∧ after.claimed = svc.claimed ∧
      after.accepted = svc.accepted ∧ after.batchSeq = svc.batchSeq ∧
      after.payouts = svc.payouts ∧ after.outbox = svc.outbox ∧ after.ledger = svc.ledger := by
  cases progress with
  | settled txId => cases id : job.batchId <;> simp [discharged, dropLiability, releaseBatch, id]
  | failed reason =>
    cases id : job.batchId with
    | none => simp [discharged, annotate, id]
    | some batchId =>
      cases found : svc.batchLiabilities.get? batchId <;>
        simp [discharged, annotate, id, found]
  | _ => simp [discharged]

theorem discharged_pending (key : String) :
    (discharged cfg svc job progress attemptAt).pending key =
      svc.pending key ++
        if progress.isSettled = true ∧ key = payee job ∧ cfg.accrualStore = true then
          (job.batchId.map .removeBatch).toList
        else [] := by
  cases progress with
  | settled txId =>
    cases id : job.batchId with
    | none => simp [discharged, dropLiability, releaseBatch, id]
    | some batchId =>
      simp only [discharged, dropLiability, releaseBatch, id, pending_enqueueStore,
        Progress.isSettled, true_and, Option.map_some, Option.toList_some]
      rfl
  | failed reason =>
    cases id : job.batchId with
    | none => simp [discharged, annotate, id, Progress.isSettled]
    | some batchId =>
      cases found : svc.batchLiabilities.get? batchId <;>
        simp [discharged, annotate, id, found, Progress.isSettled, pending, chain]
  | _ => simp [discharged, Progress.isSettled]

end discharged

end X402Mesh.Settlement.Service
