import X402Mesh.Settlement.Timers

set_option autoImplicit false

namespace X402Mesh.Settlement

open Registry

namespace Timed

def Waiting (t : Timed) (record : SettlementRecord) (added : Nat) : Prop :=
  ∃ (accrual : Accrual) (k : Nat),
    t.svc.accruals.get? record.operatorAddress = some accrual ∧ accrual.records[k]? = some record ∧
    (t.since record.operatorAddress)[k]? = some added

def Pays (job : PayoutJob) (record : SettlementRecord) : Prop :=
  record ∈ job.records ∧ job.receiver = record.operatorAddress ∧
    Service.sumPayouts job.records = some job.amountAtomic

def Started (svc : Service) (record : SettlementRecord) : Prop :=
  ∃ job ∈ svc.jobs, job.batchId.isSome = true ∧ Pays job record

def Carved (cfg : Deps) (svc : Service) (record : SettlementRecord) : Prop :=
  ∃ job batchId, ⟨job, Progress.start cfg.attempts job⟩ ∈ svc.payouts ∧
    job.batchId = some batchId ∧ Pays job record ∧
    svc.batchLiabilities.contains batchId = true

variable {cfg : Deps}

theorem Carved.started {svc : Service} {record : SettlementRecord}
    (carved : Carved cfg svc record) : Started svc record := by
  obtain ⟨job, batchId, run, id, pays, -⟩ := carved
  exact ⟨job, List.mem_map.mpr ⟨_, run, rfl⟩, by rw [id]; rfl, pays⟩

theorem Started.mono {before after : Service} (kept : before.jobs <+: after.jobs)
    {record : SettlementRecord} (started : Started before record) : Started after record := by
  obtain ⟨job, member, rest⟩ := started
  exact ⟨job, kept.subset member, rest⟩

structure Keeps (cfg : Deps) (t t' : Timed) : Prop where
  clock : t'.clock = t.clock
  waiting : ∀ record added, Waiting t record added →
    Waiting t' record added ∨ Carved cfg t'.svc record
  carved : ∀ record, Carved cfg t.svc record → Carved cfg t'.svc record
  jobs : t.svc.jobs <+: t'.svc.jobs

theorem Keeps.refl (t : Timed) : Keeps cfg t t :=
  ⟨rfl, fun _ _ waiting => .inl waiting, fun _ carved => carved, List.prefix_rfl⟩

theorem Keeps.trans {a b c : Timed} (first : Keeps cfg a b) (second : Keeps cfg b c) :
    Keeps cfg a c where
  clock := second.clock.trans first.clock
  waiting := by
    intro record added waiting
    rcases first.waiting record added waiting with still | carved
    · exact second.waiting record added still
    · exact .inr (second.carved record carved)
  carved := fun record carved => second.carved record (first.carved record carved)
  jobs := first.jobs.trans second.jobs

theorem Waiting.of_accruals {t t' : Timed} (accruals : t'.svc.accruals = t.svc.accruals)
    (since : t'.since = t.since) {record : SettlementRecord} {added : Nat}
    (waiting : Waiting t record added) : Waiting t' record added := by
  obtain ⟨accrual, k, found, rest⟩ := waiting
  exact ⟨accrual, k, by rw [accruals, found], by rwa [since]⟩

theorem Waiting.withSvc {t : Timed} {svc : Service} (accruals : svc.accruals = t.svc.accruals)
    {record : SettlementRecord} {added : Nat} (waiting : Waiting t record added) :
    Waiting { t with svc := svc } record added := by
  apply waiting.of_accruals
  · exact accruals
  · rfl

theorem keeps_of_same {t : Timed} {svc : Service} (accruals : svc.accruals = t.svc.accruals)
    (payouts : svc.payouts = t.svc.payouts)
    (batchLiabilities : svc.batchLiabilities = t.svc.batchLiabilities) :
    Keeps cfg t { t with svc := svc } where
  clock := rfl
  waiting := by
    intro record added waiting
    exact .inl (waiting.withSvc accruals)
  carved := by
    rintro record ⟨job, batchId, run, id, pays, owing⟩
    exact ⟨job, batchId, payouts ▸ run, id, pays, batchLiabilities ▸ owing⟩
  jobs := by rw [Service.jobs, Service.jobs, payouts]

theorem keeps_flushAccrual (t : Timed) (sound : Service.Sound t.svc) (operatorAddress : String)
    (now : Nat) : Keeps cfg t (flushAccrual cfg t operatorAddress now) := by
  have frame : (flushAccrual cfg t operatorAddress now).since = t.since ∧
      (flushAccrual cfg t operatorAddress now).clock = t.clock := by
    unfold flushAccrual
    dsimp only
    split
    · exact ⟨rfl, rfl⟩
    · exact clearTimeout_frame t _
  cases found : t.svc.accruals.get? operatorAddress with
  | none =>
    have same : (flushAccrual cfg t operatorAddress now).svc = t.svc :=
      Service.flushAccrual_absent cfg t.svc operatorAddress now found
    refine ⟨frame.2, ?_, ?_, by rw [same]⟩
    · intro record added waiting
      exact .inl (waiting.of_accruals (by rw [same]) frame.1)
    · intro record carved
      rwa [same]
  | some accrual =>
    have own := sound operatorAddress accrual found
    have detached : (flushAccrual cfg t operatorAddress now).svc =
        Service.detach cfg t.svc operatorAddress accrual now :=
      Service.flushAccrual_found cfg t.svc operatorAddress now accrual found own
    refine ⟨frame.2, ?_, ?_, ?_⟩
    · intro record added waiting
      obtain ⟨held, k, stored, listed, arrived⟩ := waiting
      by_cases flushed : record.operatorAddress = operatorAddress
      · rw [flushed, found] at stored
        obtain rfl := Option.some.inj stored
        have member : record ∈ accrual.records := List.mem_of_getElem? listed
        refine .inr ⟨t.svc.detachedJob operatorAddress accrual now, t.svc.detachedId now, ?_, rfl,
          ⟨member, flushed.symm, Service.sumPayouts_priced _ own.priced⟩, ?_⟩
        · rw [detached, Service.detach_payouts]
          exact List.mem_append_right _ (List.mem_singleton_self _)
        · rw [detached, Service.detach_batchLiabilities]
          simp [OrderedMap.contains]
      · refine .inl ⟨held, k, ?_, listed, by rwa [frame.1]⟩
        rw [detached, Service.detach_accruals, OrderedMap.get?_erase, if_neg flushed, stored]
    · rintro record ⟨job, batchId, run, id, pays, owing⟩
      refine ⟨job, batchId, ?_, id, pays, ?_⟩
      · rw [detached, Service.detach_payouts]
        exact List.mem_append_left _ run
      · rw [detached, Service.detach_batchLiabilities]
        unfold OrderedMap.contains at owing ⊢
        rw [OrderedMap.get?_set]
        split
        · rfl
        · exact owing
    · rw [detached, Service.jobs, Service.jobs, Service.detach_payouts, List.map_append]
      exact List.prefix_append _ _

theorem Timely.keeps_flushPayouts {t : Timed} (timely : Timely cfg t) (now : Nat → Nat) :
    Keeps cfg t (Timed.flushPayouts cfg t now) := by
  have pass (keys : List String) (t : Timed) (timely : Timely cfg t) :
      Keeps cfg t (keys.foldl (fun t operatorAddress =>
        Timed.flushAccrual cfg t operatorAddress (now t.svc.batchSeq)) t) := by
    induction keys generalizing t with
    | nil => exact .refl t
    | cons key rest ih =>
      exact (keeps_flushAccrual t timely.sound key _).trans (ih _ (timely.flushAccrual key _))
  exact pass _ t timely

theorem Timely.keeps_fire {t t' : Timed} (timely : Timely cfg t) {index now : Nat}
    (taken : fire cfg t index now = some t') : Keeps cfg t t' := by
  obtain ⟨timer, -, fires⟩ := Option.bind_eq_some_iff.mp taken
  obtain ⟨-, same⟩ := Option.ite_none_right_eq_some.mp fires
  obtain rfl := Option.some.inj same
  let gone : Timed := { t with timers := t.timers.eraseIdx index }
  have kept : Keeps cfg t gone :=
    ⟨rfl, fun _ _ waiting => .inl (waiting.of_accruals rfl rfl), fun _ carved => carved,
      List.prefix_rfl⟩
  exact kept.trans (keeps_flushAccrual gone timely.sound timer.operatorAddress now)

section push

variable {t : Timed} {record : SettlementRecord}

theorem Timely.length_arrivals (timely : Timely cfg t) (record : SettlementRecord) :
    (t.arrivals record.operatorAddress).length = (t.svc.earlier record).length := by
  unfold Service.earlier
  rcases timely.arrivals record.operatorAddress with
    ⟨accrual, first, rest, found, -, arrived, length, -⟩ | ⟨absent, arrived, -⟩
  · rw [found, arrived]
    exact length
  · rw [absent, arrived]
    rfl

theorem added_get? (sound : Service.Sound t.svc) (accruedAt : Nat) :
    (t.added record accruedAt).svc.accruals.get? record.operatorAddress =
      some (t.svc.grown record accruedAt) := by
  simp [Timed.added, Service.putAccrual, t.svc.grown_operatorAddress record accruedAt sound]

theorem added_since (t : Timed) (record : SettlementRecord) (accruedAt : Nat) (key : String) :
    (t.added record accruedAt).since key =
      if key = record.operatorAddress then t.arrivals record.operatorAddress ++ [t.clock]
      else t.since key :=
  Function.update_apply _ _ _ _

theorem Timely.added_waiting (timely : Timely cfg t) (accruedAt : Nat) :
    Waiting (t.added record accruedAt) record t.clock := by
  refine ⟨_, (t.svc.earlier record).length, added_get? timely.sound accruedAt, ?_, ?_⟩
  · rw [Service.grown_records, List.getElem?_append_right (le_refl _), Nat.sub_self]
    rfl
  · rw [added_since, if_pos rfl, ← timely.length_arrivals record,
      List.getElem?_append_right (le_refl _), Nat.sub_self]
    rfl

theorem Timely.keeps_added (timely : Timely cfg t) (accruedAt : Nat) :
    Keeps cfg t (t.added record accruedAt) := by
  refine ⟨rfl, ?_, fun _ carved => carved, List.prefix_rfl⟩
  rintro other added ⟨accrual, k, found, listed, arrived⟩
  have keyed := t.svc.grown_operatorAddress record accruedAt timely.sound
  refine .inl ?_
  by_cases own : other.operatorAddress = record.operatorAddress
  · rw [own] at found arrived
    obtain ⟨-, -, records⟩ := grown_of_some found accruedAt
    have get : (t.added record accruedAt).svc.accruals.get? record.operatorAddress =
        some (t.svc.grown record accruedAt) := added_get? timely.sound accruedAt
    refine ⟨_, k, by rw [own, get], ?_, ?_⟩
    · rw [records, List.getElem?_append_left (List.getElem?_eq_some_iff.mp listed).1, listed]
    · have arrivals : t.arrivals record.operatorAddress = t.since record.operatorAddress := by
        unfold Timed.arrivals OrderedMap.contains
        rw [found]
        rfl
      rw [own, added_since, if_pos rfl, arrivals,
        List.getElem?_append_left (List.getElem?_eq_some_iff.mp arrived).1, arrived]
  · refine ⟨accrual, k, ?_, listed, ?_⟩
    · rw [← found]
      exact Service.putAccrual_other _ _ _ (by rwa [keyed])
    · rwa [added_since, if_neg own]

-- The record that was added stays for its timer, or the batch it completes is started at once.
theorem Timely.keeps_push (timely : Timely cfg t) (priced : Service.Priced record)
    (claimed : record.requestId ∈ t.svc.claimed) (accruedAt flushedAt : Nat) :
    Keeps cfg (t.added record accruedAt)
      (Timed.push cfg t record (Service.payoutOf record) accruedAt flushedAt) := by
  have flushed : Keeps cfg _ _ := keeps_flushAccrual (t.added record accruedAt)
    (timely.added priced claimed accruedAt).sound record.operatorAddress flushedAt
  unfold Timed.push
  dsimp only
  split
  · exact flushed
  split
  · exact flushed
  let base : Timed :=
    { t.added record accruedAt with svc := Service.hold cfg t.svc record accruedAt }
  let held := setTimeout cfg base (t.svc.grown record accruedAt)
  have svc : held.svc = Service.hold cfg t.svc record accruedAt := setTimeout_svc cfg base _
  obtain ⟨since, clock⟩ := setTimeout_frame cfg base (t.svc.grown record accruedAt)
  change Keeps cfg (t.added record accruedAt) held
  refine ⟨clock, ?_, ?_, ?_⟩
  · rintro other added ⟨accrual, k, found, listed, arrived⟩
    have get := Service.hold_get? cfg t.svc record accruedAt timely.sound other.operatorAddress
    refine .inl ?_
    by_cases own : other.operatorAddress = record.operatorAddress
    · rw [own, added_get? timely.sound] at found
      obtain rfl := Option.some.inj found
      rw [if_pos own] at get
      refine ⟨{ t.svc.grown record accruedAt with timer := true }, k, ?_, listed, by rwa [since]⟩
      rw [svc, get]
    · have keyed := t.svc.grown_operatorAddress record accruedAt timely.sound
      rw [if_neg own] at get
      refine ⟨accrual, k, ?_, listed, by rwa [since]⟩
      rw [svc, get, ← found]
      exact (Service.putAccrual_other _ _ _ (by rwa [keyed])).symm
  · rintro other ⟨job, batchId, run, id, pays, owing⟩
    refine ⟨job, batchId, ?_, id, pays, ?_⟩
    · rw [svc, Service.hold_payouts]
      exact run
    · rw [svc, Service.hold_batchLiabilities]
      exact owing
  · rw [svc, Service.jobs, Service.jobs, Service.hold_payouts]
    exact List.prefix_rfl

theorem Timely.push_accepted (timely : Timely cfg t) (priced : Service.Priced record)
    (claimed : record.requestId ∈ t.svc.claimed) (accruedAt flushedAt : Nat) :
    (Timed.push cfg t record (Service.payoutOf record) accruedAt flushedAt).svc.accepted =
      t.svc.accepted := by
  rw [push_svc]
  rcases Service.push_cases cfg t.svc record accruedAt flushedAt timely.sound priced claimed with
    held | flushed
  · rw [held, Service.hold_accepted]
  · rw [flushed, Service.detach_accepted]
    rfl

end push

theorem Timely.keeps_settleInbound (batching : 0 < cfg.batchMinAtomic) {t : Timed}
    (timely : Timely cfg t) (inbound : InboundSettlement) (now : Service.Readings) :
    Keeps cfg t (Timed.settleInbound cfg t inbound now) ∧
      ∀ record, (Timed.settleInbound cfg t inbound now).svc.accepted =
          t.svc.accepted ++ [record] →
        Waiting (Timed.settleInbound cfg t inbound now) record t.clock ∨
          Carved cfg (Timed.settleInbound cfg t inbound now).svc record := by
  rcases settleInbound_timed batching t inbound now with
    ⟨svc, kept, same⟩ | ⟨record, base, kept, priced, claimed, same⟩
  · rw [same]
    refine ⟨keeps_of_same kept.accruals kept.payouts kept.batchLiabilities, ?_⟩
    intro record taken
    have longer := congrArg List.length (kept.accepted.symm.trans taken)
    rw [List.length_append, List.length_singleton] at longer
    omega
  · let entered : Timed := { t with svc := base }
    have timely' : Timely cfg entered := timely.untouched (untouched_accepted kept)
    have enters : Keeps cfg t entered :=
      keeps_of_same kept.accruals kept.payouts kept.batchLiabilities
    have pushed := timely'.keeps_push priced claimed now.accruedAt now.flushedAt
    rw [same]
    refine ⟨enters.trans ((timely'.keeps_added now.accruedAt).trans pushed), ?_⟩
    intro other taken
    rw [timely'.push_accepted priced claimed, kept.accepted] at taken
    obtain rfl : record = other := by simpa using taken
    exact pushed.waiting record t.clock (timely'.added_waiting now.accruedAt)

theorem Timely.waiting_step (batching : 0 < cfg.batchMinAtomic) {t t' : Timed}
    (timely : Timely cfg t) {a : TimedAction} (taken : Timed.step cfg t a = some t')
    {record : SettlementRecord} {added : Nat} (waiting : Waiting t record added) :
    Waiting t' record added ∨ (Carved cfg t'.svc record ∧ t'.clock = t.clock) := by
  have of_keeps (kept : Keeps cfg t t') :
      Waiting t' record added ∨ (Carved cfg t'.svc record ∧ t'.clock = t.clock) :=
    (kept.waiting record added waiting).imp_right fun carved => ⟨carved, kept.clock⟩
  cases a with
  | recordRouting requestId nodeId operatorAddress now =>
    obtain rfl := Option.some.inj taken
    exact .inl (waiting.of_accruals rfl rfl)
  | settleInbound inbound now =>
    obtain rfl := Option.some.inj taken
    exact of_keeps (timely.keeps_settleInbound batching inbound now).1
  | flushPayouts now =>
    obtain rfl := Option.some.inj taken
    exact of_keeps (timely.keeps_flushPayouts now)
  | fire index now =>
    exact of_keeps (timely.keeps_fire taken)
  | payout index event attemptAt settledAt =>
    obtain ⟨svc, resumed, rfl⟩ := Option.map_eq_some_iff.mp taken
    exact .inl (waiting.withSvc (untouched_resumePayout resumed).accruals)
  | write key works =>
    obtain rfl := Option.some.inj taken
    exact .inl (waiting.of_accruals rfl rfl)
  | recoverAccruals history loaded now =>
    obtain rfl := Option.some.inj taken
    have same : Untouched t.svc
        (Service.recoverAccruals cfg (Service.hydrateLedger cfg t.svc history) loaded now) :=
      untouched_recoverAccruals t.svc history loaded now
    exact .inl (waiting.withSvc same.accruals)
  | tick clock =>
    obtain ⟨-, same⟩ := Option.ite_none_right_eq_some.mp taken
    obtain rfl := Option.some.inj same
    exact .inl (waiting.of_accruals rfl rfl)

theorem Timely.jobs_step (batching : 0 < cfg.batchMinAtomic) {t t' : Timed}
    (timely : Timely cfg t) {a : TimedAction} (taken : Timed.step cfg t a = some t') :
    t.svc.jobs <+: t'.svc.jobs := by
  cases a with
  | recordRouting requestId nodeId operatorAddress now =>
    obtain rfl := Option.some.inj taken
    exact List.prefix_rfl
  | settleInbound inbound now =>
    obtain rfl := Option.some.inj taken
    exact (timely.keeps_settleInbound batching inbound now).1.jobs
  | flushPayouts now =>
    obtain rfl := Option.some.inj taken
    exact (timely.keeps_flushPayouts now).jobs
  | fire index now =>
    exact (timely.keeps_fire taken).jobs
  | payout index event attemptAt settledAt =>
    obtain ⟨svc, resumed, rfl⟩ := Option.map_eq_some_iff.mp taken
    exact (untouched_resumePayout resumed).jobs
  | write key works =>
    obtain rfl := Option.some.inj taken
    exact List.prefix_rfl
  | recoverAccruals history loaded now =>
    obtain rfl := Option.some.inj taken
    exact (untouched_recoverAccruals t.svc history loaded now).jobs
  | tick clock =>
    obtain ⟨-, same⟩ := Option.ite_none_right_eq_some.mp taken
    obtain rfl := Option.some.inj same
    exact List.prefix_rfl

theorem run_onTime {t : Timed} (run : Transition.Run (step cfg) punctual init t) : OnTime t :=
  run.invariant (P := OnTime) (fun _ member => nomatch member)
    fun _ _ _ onTime kept taken => onTime.step kept taken

theorem Timely.due {t : Timed} (timely : Timely cfg t) (onTime : OnTime t)
    {operatorAddress : String} {accrual : Accrual}
    (found : t.svc.accruals.get? operatorAddress = some accrual) {added : Nat}
    (member : added ∈ t.since operatorAddress) : t.clock ≤ added + cfg.payoutBatchMaxDelayMs := by
  have waits := timely.waits operatorAddress accrual (by simp) found
  obtain ⟨first, rest, since, -, only⟩ := waits.armed
  have own := only ▸ List.mem_singleton_self
    (⟨operatorAddress, accrual.serial, first + cfg.payoutBatchMaxDelayMs⟩ : Timer)
  have due := onTime _ (List.mem_filter.mp own).1
  have ordered := waits.ordered
  rw [since, List.pairwise_cons] at ordered
  rw [since] at member
  rcases List.mem_cons.mp member with rfl | later
  · exact due
  · exact le_trans due (Nat.add_le_add_right (ordered.1 added later) _)

theorem Timely.waiting_due {t : Timed} (timely : Timely cfg t) (onTime : OnTime t)
    {record : SettlementRecord} {added : Nat} (waiting : Waiting t record added) :
    t.clock ≤ added + cfg.payoutBatchMaxDelayMs := by
  obtain ⟨accrual, k, found, -, arrived⟩ := waiting
  exact timely.due onTime found (List.mem_of_getElem? arrived)

theorem run_waiting (batching : 0 < cfg.batchMinAtomic) {t t' : Timed} (timely : Timely cfg t)
    {record : SettlementRecord} {added : Nat}
    (first : Waiting t record added ∨ Started t.svc record)
    (run : Transition.Run (step cfg) punctual t t') :
    Timely cfg t' ∧ (Waiting t' record added ∨ Started t'.svc record) := by
  induction run with
  | refl => exact ⟨timely, first⟩
  | tail _ _ taken ih =>
    obtain ⟨before, waiting | started⟩ := ih
    · refine ⟨before.step batching taken, ?_⟩
      exact (before.waiting_step batching taken waiting).imp_right fun carved => carved.1.started
    · exact ⟨before.step batching taken, .inr (started.mono (before.jobs_step batching taken))⟩

variable (cfg)

/-- Between two turns every accrual is below both thresholds and has one timer, armed with its first
record; a timer that fires finds the accrual that armed it. When timers fire on time, a record leaves
its accrual only into a batch that the same turn starts, and it does so within the delay. -/
theorem accrual_map_invariant (batching : 0 < cfg.batchMinAtomic) :
    (∀ t, Transition.Run (step cfg) (fun _ _ => True) init t →
      (∀ operatorAddress accrual, t.svc.accruals.get? operatorAddress = some accrual →
        accrual.records ≠ [] ∧
        Service.sumPayouts accrual.records = some accrual.totalAtomic ∧
        accrual.totalAtomic < cfg.batchMinAtomic ∧
        accrual.records.length < cfg.payoutBatchMaxRequests ∧
        (∀ r ∈ accrual.records, r.operatorAddress = operatorAddress) ∧
        ∃ first rest, t.since operatorAddress = first :: rest ∧
          rest.length + 1 = accrual.records.length ∧
          t.timersOf operatorAddress =
            [⟨operatorAddress, accrual.serial, first + cfg.payoutBatchMaxDelayMs⟩]) ∧
      ∀ index now t', fire cfg t index now = some t' →
        ∃ timer accrual first, t.timers[index]? = some timer ∧
          t.svc.accruals.get? timer.operatorAddress = some accrual ∧
          timer.serial = accrual.serial ∧
          (t.since timer.operatorAddress).head? = some first ∧
          first + cfg.payoutBatchMaxDelayMs ≤ t.clock) ∧
    ∀ t, Transition.Run (step cfg) punctual init t →
      (∀ operatorAddress accrual, t.svc.accruals.get? operatorAddress = some accrual →
        ∀ added ∈ t.since operatorAddress, t.clock ≤ added + cfg.payoutBatchMaxDelayMs) ∧
      (∀ record added a t', Waiting t record added → step cfg t a = some t' →
        Waiting t' record added ∨ (Carved cfg t'.svc record ∧ t'.clock = t.clock)) ∧
      ∀ inbound now record t',
        (settleInbound cfg t inbound now).svc.accepted = t.svc.accepted ++ [record] →
        Transition.Run (step cfg) punctual (settleInbound cfg t inbound now) t' →
          (Waiting t' record t.clock ∧ t'.clock ≤ t.clock + cfg.payoutBatchMaxDelayMs) ∨
            Started t'.svc record := by
  refine ⟨?_, ?_⟩
  · intro t run
    have timely := run_timely batching run
    refine ⟨?_, ?_⟩
    · intro operatorAddress accrual found
      have sound := timely.sound operatorAddress accrual found
      have waits := timely.waits operatorAddress accrual (by simp) found
      have summed := Service.sumPayouts_priced accrual.records sound.priced
      rw [← sound.total] at summed
      exact ⟨sound.nonempty, summed, waits.below, waits.few, sound.operator, waits.armed⟩
    · intro index now t' fires
      obtain ⟨timer, found, due⟩ := Option.bind_eq_some_iff.mp fires
      obtain ⟨late, -⟩ := Option.ite_none_right_eq_some.mp due
      obtain ⟨accrual, stored, -, serials⟩ := timely.owner (List.mem_of_getElem? found)
      have waits := timely.waits timer.operatorAddress accrual (by simp) stored
      obtain ⟨first, rest, since, -, only⟩ := waits.armed
      have own : timer ∈ t.timersOf timer.operatorAddress :=
        List.mem_filter.mpr ⟨List.mem_of_getElem? found, decide_eq_true rfl⟩
      refine ⟨timer, accrual, first, found, stored, serials timer own, by rw [since]; rfl, ?_⟩
      rw [only, List.mem_singleton] at own
      rw [own] at late
      exact late
  · intro t run
    have timely := run_timely batching (run.mono fun _ _ _ => trivial)
    have onTime := run_onTime run
    refine ⟨?_, ?_, ?_⟩
    · intro operatorAddress accrual found added member
      exact timely.due onTime found member
    · intro record added a t' waiting taken
      exact timely.waiting_step batching taken waiting
    · intro inbound now record t' accepted later
      have taken : step cfg t (.settleInbound inbound now) =
          some (settleInbound cfg t inbound now) := rfl
      have kept : punctual t (.settleInbound inbound now) := trivial
      have entered := (timely.keeps_settleInbound batching inbound now).2 record accepted
      obtain ⟨timely', still | started⟩ := run_waiting batching (timely.step batching taken)
        (entered.imp_right Carved.started) later
      · have onTime' := run_onTime ((run.tail kept taken).trans later)
        exact .inl ⟨still, timely'.waiting_due onTime' still⟩
      · exact .inr started

def oneInbound : InboundSettlement := ⟨"req-1", "PAYER", "IN", 2000⟩

-- The request is settled seven milliseconds into the run, and stays below the batching threshold.
def noted : List TimedAction := [.recordRouting "req-1" "node-a" "OPERATOR" 0, .tick 7]

def oneRecord : SettlementRecord where
  requestId := "req-1"
  nodeId := "node-a"
  payerAddress := "PAYER"
  operatorAddress := "OPERATOR"
  inboundAtomic := "2000"
  payoutAtomic := "1700"
  marginAtomic := "300"
  inboundTxId := "IN"
  payoutTxId := none
  batchId := none
  status := .pending
  error := none
  createdAt := 7
  settledAt := none

theorem accrual_map_invariant_waiting :
    ∃ before waited flushed accrual,
      Transition.replay (step World.demoDeps) init noted = some before ∧
      step World.demoDeps (settleInbound World.demoDeps before oneInbound ⟨7, 7, 7⟩)
        (.tick 900007) = some waited ∧
      step World.demoDeps waited (.fire 0 900007) = some flushed ∧
      waited.svc.accruals.get? "OPERATOR" = some accrual ∧ accrual.totalAtomic < 3000 ∧
      Waiting waited oneRecord 7 ∧ waited.clock ≤ 7 + 900000 ∧
      Carved World.demoDeps flushed.svc oneRecord := by
  have ran : ((Transition.replay (step World.demoDeps) init noted).bind fun before =>
      (step World.demoDeps (settleInbound World.demoDeps before oneInbound ⟨7, 7, 7⟩)
        (.tick 900007)).bind fun waited =>
      (step World.demoDeps waited (.fire 0 900007)).bind fun flushed =>
      (waited.svc.accruals.get? "OPERATOR").map fun _ =>
        (before.clock, before.svc.accepted,
          (settleInbound World.demoDeps before oneInbound ⟨7, 7, 7⟩).svc.accepted,
          (settleInbound World.demoDeps before oneInbound ⟨7, 7, 7⟩).timers.map (·.dueAt),
          waited.svc.payouts.isEmpty, flushed.svc.accruals.keys)) =
      some (7, [], [oneRecord], [900007], true, []) := by
    rfl
  obtain ⟨before, replayed, ran⟩ := Option.bind_eq_some_iff.mp ran
  obtain ⟨waited, ticked, ran⟩ := Option.bind_eq_some_iff.mp ran
  obtain ⟨flushed, fired, ran⟩ := Option.bind_eq_some_iff.mp ran
  obtain ⟨accrual, found, facts⟩ := Option.map_eq_some_iff.mp ran
  obtain ⟨clock, none_before, accepted, due, unpaid, none_left⟩ :
    before.clock = 7 ∧ before.svc.accepted = [] ∧
      (settleInbound World.demoDeps before oneInbound ⟨7, 7, 7⟩).svc.accepted = [oneRecord] ∧
      (settleInbound World.demoDeps before oneInbound ⟨7, 7, 7⟩).timers.map (·.dueAt) = [900007] ∧
      waited.svc.payouts.isEmpty = true ∧ flushed.svc.accruals.keys = [] := by
    simpa using facts
  have punctually : Transition.Allows (step World.demoDeps) punctual init noted := by
    refine ⟨trivial, fun t first => ⟨?_, fun _ _ => trivial⟩⟩
    obtain rfl := Option.some.inj first
    intro timer member
    cases member
  have run := Transition.run_of_replay noted punctually replayed
  have settled : step World.demoDeps before (.settleInbound oneInbound ⟨7, 7, 7⟩) =
    some (settleInbound World.demoDeps before oneInbound ⟨7, 7, 7⟩) := rfl
  have onTime : punctual (settleInbound World.demoDeps before oneInbound ⟨7, 7, 7⟩)
      (.tick 900007) := by
    intro timer member
    have same : timer.dueAt ∈ [900007] := due ▸ List.mem_map_of_mem member
    exact (List.mem_singleton.mp same).ge
  have kept : punctual before (.settleInbound oneInbound ⟨7, 7, 7⟩) := trivial
  have later : Transition.Run (step World.demoDeps) punctual init waited :=
    (run.tail kept settled).tail onTime ticked
  obtain ⟨sound, punctuality⟩ := accrual_map_invariant World.demoDeps (by decide)
  have below := ((sound waited (later.mono fun _ _ _ => trivial)).1 "OPERATOR" accrual found).2.2.1
  rcases (punctuality before run).2.2 oneInbound ⟨7, 7, 7⟩ oneRecord waited
      (by rw [none_before, accepted]; rfl) (.single onTime ticked) with
    ⟨waiting, within⟩ | ⟨job, member, -⟩
  · rw [clock] at waiting within
    refine ⟨before, waited, flushed, accrual, replayed, ticked, fired, found, below, waiting,
      within, ?_⟩
    rcases (punctuality waited later).2.1 oneRecord 7 _ flushed waiting fired with
      ⟨left, k, stored, -⟩ | ⟨carved, -⟩
    · have listed := (OrderedMap.mem_keys _ _).mpr ⟨left, stored⟩
      rw [none_left] at listed
      cases listed
    · exact carved
  · rw [Service.jobs, List.isEmpty_iff.mp unpaid] at member
    cases member

end Timed

end X402Mesh.Settlement
