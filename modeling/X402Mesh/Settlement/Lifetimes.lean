import X402Mesh.Settlement.Accounting
import X402Mesh.Settlement.Replicas

set_option autoImplicit false

namespace X402Mesh.Settlement

open Registry Service

variable (cfg : Deps)

namespace Progress

-- The payout comes to call `pay` before it asks the chain again.
def primed : Progress → Bool
  | .paying _ | .sleeping .. => true
  | _ => false

theorem primed_next {attempts : Nat} {before after : Progress} {event : PayoutEvent}
    (advanced : before.next attempts event = some after) (primed : after.primed = true) :
    (∃ outcome, event = .lookup outcome ∧ outcome.answer = none) ∨
      event = .wake ∧ before.primed = true := by
  cases event with
  | lookup outcome =>
    refine .inl ⟨outcome, rfl, ?_⟩
    cases answer : outcome.answer with
    | none => rfl
    | some txId =>
      cases before <;> simp [next, answer] at advanced <;> subst advanced <;> cases primed
  | wake =>
    cases before <;> simp [next] at advanced
    exact .inr ⟨rfl, rfl⟩
  | paid txId => cases before <;> simp [next] at advanced; subst advanced; cases primed
  | threw reason landed => cases before <;> simp [next] at advanced; subst advanced; cases primed

theorem primed_of_lands {attempts : Nat} {before after : Progress} {event : PayoutEvent}
    (advanced : before.next attempts event = some after) (lands : World.lands event = true) :
    before.primed = true := by
  cases event with
  | lookup | wake => cases lands
  | paid | threw => cases before <;> simp [next] at advanced; rfl

end Progress

namespace Service

theorem resumePayout_moved {svc after : Service} {index : Nat} {event : PayoutEvent}
    {attemptAt settledAt : Nat}
    (resumed : resumePayout cfg svc index event attemptAt settledAt = some after) :
    ∃ run progress, svc.payouts[index]? = some run ∧
      run.progress.next cfg.attempts event = some progress ∧
      after.payouts = (moved cfg svc index run.job progress).payouts := by
  obtain ⟨run, progress, found, advanced, kept⟩ := resumePayout_cases cfg svc after index event
    attemptAt settledAt resumed
  obtain ⟨-, -, -, -, -, payouts, -⟩ := discharged_frame cfg (moved cfg svc index run.job progress)
    run.job progress attemptAt
  exact ⟨run, progress, found, advanced, kept.payouts.trans payouts⟩

-- No payout is in flight, and every write has ended.
def stopped (svc : Service) : Bool :=
  svc.payouts.all (·.progress.ended) && svc.writeChains.size = 0

end Service

namespace World

def Apart (a b : PayoutJob) : Prop := ∀ id ∈ a.requestIds, id ∉ b.requestIds

theorem Apart.symm {a b : PayoutJob} (apart : Apart a b) : Apart b a :=
  fun id inside inside' => apart id inside' inside

-- What is on the chain for a request of the payout is a payment of this payout.
def Agrees (w : World Unit) (job : PayoutJob) : Prop :=
  ∀ p ∈ w.landed, ∀ id ∈ job.requestIds, id ∈ p.requestIds →
    p.payoutId = job.payoutId ∧ p.receiver = job.receiver

structure Once (w : World Unit) : Prop where
  apart : (w.service ()).jobs.Pairwise Apart
  ready : ∀ run ∈ (w.service ()).payouts, run.progress.primed = true →
    ∀ id ∈ run.job.requestIds, w.Unlanded id
  agrees : ∀ run ∈ (w.service ()).payouts, w.Agrees run.job
  counted : ∀ id, w.landed.countP (fun p => id ∈ p.requestIds) ≤ 1

section once

variable {cfg} {w w' : World Unit} (once : Once w)

include once

theorem Once.keep (payouts : (w'.service ()).payouts = (w.service ()).payouts)
    (landed : w'.landed = w.landed) : Once w' where
  apart := by
    rw [jobs, payouts]
    exact once.apart
  ready := by
    unfold Unlanded
    rw [payouts, landed]
    exact once.ready
  agrees := by
    unfold Agrees
    rw [payouts, landed]
    exact once.agrees
  counted := by
    rw [landed]
    exact once.counted

-- A payout is started for requests that nobody pays and that have not been paid.
theorem Once.started {run : PayoutRun}
    (payouts : (w'.service ()).payouts = (w.service ()).payouts ++ [run])
    (landed : w'.landed = w.landed)
    (apart : ∀ other ∈ (w.service ()).payouts, Apart other.job run.job)
    (unlanded : ∀ id ∈ run.job.requestIds, w.Unlanded id) : Once w' where
  apart := by
    rw [jobs, payouts, List.map_append, List.pairwise_append]
    refine ⟨once.apart, List.pairwise_singleton _ _, fun a first b second => ?_⟩
    obtain ⟨other, member, rfl⟩ := List.mem_map.mp first
    obtain rfl := List.mem_singleton.mp second
    exact apart other member
  ready := by
    unfold Unlanded
    rw [payouts, landed]
    intro other member primed
    rcases List.mem_append.mp member with old | new
    · exact once.ready other old primed
    · obtain rfl := List.mem_singleton.mp new
      exact unlanded
  agrees := by
    unfold Agrees
    rw [payouts, landed]
    intro other member
    rcases List.mem_append.mp member with old | new
    · exact once.agrees other old
    · obtain rfl := List.mem_singleton.mp new
      exact fun p paid id inside covered => absurd covered (unlanded id inside p paid)
  counted := by
    rw [landed]
    exact once.counted

theorem Once.unlanded_of_missed {run : PayoutRun} (member : run ∈ (w.service ()).payouts)
    {outcome : LookupOutcome} (truthful : w.truthful run.job outcome = true)
    (missed : outcome.answer = none) : ∀ id ∈ run.job.requestIds, w.Unlanded id := by
  have absent : w.onChain run.job = false := by
    cases outcome with
    | found => cases missed
    | notFound => simpa [World.truthful] using truthful
    | _ => cases truthful
  intro id inside p paid covered
  have same := once.agrees run member p paid id inside covered
  simp only [onChain, List.any_eq_false, decide_eq_true_eq] at absent
  exact absent p paid same

theorem Once.others {index n : Nat} {run other : PayoutRun}
    (found : (w.service ()).payouts[index]? = some run)
    (present : (w.service ()).payouts[n]? = some other) (differ : n ≠ index) :
    Apart run.job other.job := by
  obtain ⟨bound, rfl⟩ := List.getElem?_eq_some_iff.mp found
  obtain ⟨bound', rfl⟩ := List.getElem?_eq_some_iff.mp present
  have pairwise := List.pairwise_map.mp once.apart
  rw [List.pairwise_iff_getElem] at pairwise
  rcases Nat.lt_or_gt_of_ne differ with before | after
  · exact (pairwise n index bound' bound before).symm
  · exact pairwise index n bound bound' after

theorem Once.payout {index : Nat} {event : PayoutEvent} {attemptAt settledAt : Nat}
    (truthful : ∀ outcome, event = .lookup outcome → ∀ run,
      (w.service ()).payouts[index]? = some run → w.truthful run.job outcome = true)
    (taken : step cfg w (.payout () index event attemptAt settledAt) = some w') : Once w' := by
  obtain ⟨svc, run, progress, resumed, found, advanced, rfl⟩ := payout_inv taken
  obtain ⟨run', progress', found', advanced', payouts⟩ := resumePayout_moved cfg resumed
  obtain rfl : run' = run := by simpa [found] using found'.symm
  obtain rfl : progress' = progress := by simpa [advanced] using advanced'.symm
  have listed := List.mem_of_getElem? found
  have after : (((w.recordOutcome run'.job event progress').turn () svc).service ()).payouts =
      (moved cfg (w.service ()) index run'.job progress').payouts := by
    simpa [turn_service] using payouts
  have either {p : Payment} (member : p ∈ ((w.recordOutcome run'.job event progress').turn ()
      svc).landed) : p ∈ w.landed ∨ p = .ofJob run'.job ∧ run'.progress.primed = true := by
    rcases List.mem_append.mp member with old | new
    · exact .inl old
    · split at new
      next lands =>
        exact .inr ⟨List.mem_singleton.mp new, Progress.primed_of_lands advanced lands⟩
      next => cases new
  constructor
  · rw [jobs, after]
    have same := jobs_moved cfg (w.service ()) index run' progress' found
    rw [jobs] at same
    rw [same]
    exact once.apart
  · rw [after]
    intro other member primed id inside p paid covered
    obtain ⟨n, present⟩ := List.getElem?_of_mem member
    obtain ⟨before, old, job, elsewhere, here⟩ :=
      moved_job cfg (w.service ()) index run' progress' found n other present
    by_cases position : n = index
    · subst position
      obtain rfl : run' = before := by simpa [found] using old
      rw [here rfl] at primed
      rw [← job] at inside
      rcases Progress.primed_next advanced primed with ⟨outcome, rfl, missed⟩ | ⟨rfl, asleep⟩
      · have unlanded := once.unlanded_of_missed listed (truthful outcome rfl run' found) missed
        exact unlanded id inside p (by simpa [turn, recordOutcome, lands] using paid) covered
      · have unlanded := once.ready run' listed asleep
        exact unlanded id inside p (by simpa [turn, recordOutcome, lands] using paid) covered
    · obtain rfl := elsewhere position
      rcases either paid with old' | ⟨rfl, -⟩
      · exact once.ready before (List.mem_of_getElem? old) primed id inside p old' covered
      · exact once.others found old position id covered inside
  · rw [after]
    intro other member p paid id inside covered
    obtain ⟨n, present⟩ := List.getElem?_of_mem member
    obtain ⟨before, old, job, -⟩ :=
      moved_job cfg (w.service ()) index run' progress' found n other present
    rw [← job] at inside ⊢
    rcases either paid with old' | ⟨rfl, -⟩
    · exact once.agrees before (List.mem_of_getElem? old) p old' id inside covered
    · by_cases position : n = index
      · subst position
        obtain rfl : run' = before := by simpa [found] using old
        exact ⟨rfl, rfl⟩
      · exact absurd inside (once.others found old position id covered)
  · intro id
    have counted := once.counted id
    simp only [turn, recordOutcome, List.countP_append]
    split
    next lands =>
      have unlanded := once.ready run' listed (Progress.primed_of_lands advanced lands)
      by_cases inside : id ∈ run'.job.requestIds
      · have none_before : w.landed.countP (fun p => decide (id ∈ p.requestIds)) = 0 := by
          apply List.countP_eq_zero.mpr
          intro p paid
          simpa using unlanded id inside p paid
        simp [none_before, Payment.ofJob, inside]
      · simpa [Payment.ofJob, inside] using counted
    next => simpa using counted

end once

theorem put_payouts (w : World Unit) (i : Unit) (svc : Service) :
    ((w.put i svc).service ()).payouts = svc.payouts := by
  simp

theorem once_moves : KeptByMoves cfg (fun w => Sole w ∧ Once w) fun w _ id => w.Fresh id where
  ended w i held := by
    refine ⟨(sole_moves cfg).ended w i held.1, held.2.keep ?_ rfl⟩
    simp [turn_service]
  quiet w i svc held kept := by
    refine ⟨(sole_moves cfg).quiet w i svc held.1 kept, held.2.keep ?_ rfl⟩
    rw [put_payouts, kept.payouts]
  hold w i base record accruedAt held sound taken fresh := by
    refine ⟨(sole_moves cfg).hold w i base record accruedAt held.1 sound taken fresh,
      held.2.keep ?_ rfl⟩
    rw [put_payouts, hold_payouts, taken.kept.payouts]
  take w i base record accruedAt held sound taken fresh := by
    refine ⟨(sole_moves cfg).take w i base record accruedAt held.1 sound taken fresh,
      held.2.keep ?_ rfl⟩
    rw [put_payouts]
    exact taken.kept.payouts
  detach w i operatorAddress accrual now held sound found := by
    have accruing (id : String) (member : id ∈ accrual.records.map (·.requestId)) :
        (w.service i).Accrues id operatorAddress := ⟨accrual, found, member⟩
    refine ⟨(sole_moves cfg).detach w i operatorAddress accrual now held.1 sound found, ?_⟩
    refine held.2.started (by rw [put_payouts, detach_payouts]) rfl ?_ ?_
    · intro other member id inside inside'
      obtain ⟨b, batch, -⟩ := (held.1.labelled.labels i).runs other member
      exact held.1.tracked.apart i id operatorAddress b _ (accruing id inside')
        (.inl ⟨i, .inl ⟨other, member, batch, rfl, inside⟩⟩)
    · exact fun id inside => held.1.landed.unlanded_of_accrues (accruing id inside)

structure Relisted (w : World Unit) (state : Recovery) : Prop where
  apart : state.svc.jobs.Pairwise Apart
  handled : ∀ run ∈ state.svc.payouts, ∀ id ∈ run.job.requestIds, id ∈ state.handled
  ready : ∀ run ∈ state.svc.payouts, run.progress.primed = true →
    ∀ id ∈ run.job.requestIds, w.Unlanded id
  agrees : ∀ run ∈ state.svc.payouts, w.Agrees run.job

section recovery

variable {cfg} {w : World Unit} {now : Nat → Nat} {state after : Recovery}
variable {row : PersistedAccrual} {ops : List StoreOp} {runs : List PayoutRun}

-- What a row can start: one payout of what is still payable of it.
theorem Outcome.paid {records : List StoredRecord} (outcome : Outcome cfg now row records ops runs) :
    runs = [] ∨ ∃ run, runs = [run] ∧ run.job.requestIds = requestIdsOf records ∧
      run.job.receiver = row.operatorAddress ∧
      ∀ b, resumedId row = some b → run.job.payoutId = "batch/" ++ b ∧
        run.progress.primed = false := by
  have ids := recoveredRun_requestIds cfg row records
  cases outcome with
  | dropped | stopped => exact .inl rfl
  | resumed paid summed own =>
    refine .inr ⟨_, rfl, ids _ _ _, rfl, fun b named => ?_⟩
    obtain rfl : paid = b := Option.some.inj (own.symm.trans named)
    exact ⟨rfl, rfl⟩
  | fresh paid summed own =>
    refine .inr ⟨_, rfl, ids _ _ _, rfl, fun b named => ?_⟩
    rw [own] at named
    cases named

theorem Relisted.step (relisted : Relisted w state)
    (rowStep : RowStep cfg now state row ops runs after)
    (ready : ∀ run ∈ runs, run.progress.primed = true → ∀ id ∈ run.job.requestIds, w.Unlanded id)
    (agrees : ∀ run ∈ runs, w.Agrees run.job) : Relisted w after := by
  have payouts := rowStep.recovered.payouts
  have listed : ∀ run ∈ runs, run.job.requestIds = requestIdsOf (payable state.handled row) := by
    rcases Outcome.paid rowStep.outcome with rfl | ⟨run, rfl, ids, -⟩
    · simp
    · simpa using ids
  constructor
  · rw [jobs, payouts, List.map_append, List.pairwise_append]
    refine ⟨relisted.apart, ?_, fun a first b second id inside inside' => ?_⟩
    · rcases Outcome.paid rowStep.outcome with rfl | ⟨run, rfl, -⟩
      · exact .nil
      · exact List.pairwise_singleton _ _
    · obtain ⟨old, member, rfl⟩ := List.mem_map.mp first
      obtain ⟨new, started, rfl⟩ := List.mem_map.mp second
      rw [listed new started] at inside'
      exact (payable_ids _ row id inside').2 (relisted.handled old member id inside)
  · rw [payouts, rowStep.handled]
    intro run member id inside
    rcases List.mem_append.mp member with old | new
    · exact List.mem_append_right _ (relisted.handled run old id inside)
    · rw [listed run new] at inside
      exact List.mem_append_left _ inside
  · rw [payouts]
    intro run member
    rcases List.mem_append.mp member with old | new
    · exact relisted.ready run old
    · exact ready run new
  · rw [payouts]
    intro run member
    rcases List.mem_append.mp member with old | new
    · exact relisted.agrees run old
    · exact agrees run new

-- What `recoverAccruals` starts, when no open row brings back a request that has been paid.
theorem relisted_recovery (now : Nat → Nat) (stored : cfg.accrualStore = true) (sole : Sole w)
    (svc : Service) (idle : svc.payouts = []) {openRows batches : List PersistedAccrual}
    (named : ∀ row ∈ batches, ∃ b, row.batchId = some b ∧ b ≠ "" ∧
      ∀ id ∈ rowIds row, w.Stores id b row.operatorAddress)
    (current : ∀ row ∈ openRows, ∀ id ∈ rowIds row,
      id ∈ batches.flatMap rowIds ∨ w.Unlanded id) :
    Relisted w ((batches ++ openRows).foldl (recoverRow cfg now) ⟨svc, [], false⟩) := by
  apply recovery_induction now stored
  · intro state row ops runs after member relisted rowStep
    obtain ⟨b, own, nonempty, stores⟩ := named row member
    have under : resumedId row = some b := by simp [resumedId, own, nonempty]
    rcases Outcome.paid rowStep.outcome with rfl | ⟨run, rfl, ids, receiver, resumed⟩
    · exact relisted.step rowStep (by simp) (by simp)
    · obtain ⟨payoutId, asking⟩ := resumed b under
      apply relisted.step rowStep <;> rw [List.forall_mem_singleton]
      · simp [asking]
      · intro p paid id inside covered
        rw [ids] at inside
        have held := stores id (payable_ids _ row id inside).1
        rw [payoutId, receiver]
        exact sole.landed.carried p paid id covered b _ (.inr held)
  · intro state row ops runs after member relisted handled rowStep
    rcases Outcome.paid rowStep.outcome with rfl | ⟨run, rfl, ids, -⟩
    · exact relisted.step rowStep (by simp) (by simp)
    · have unlanded : ∀ id ∈ run.job.requestIds, w.Unlanded id := by
        intro id inside
        rw [ids] at inside
        obtain ⟨listed, unhandled⟩ := payable_ids _ row id inside
        exact (current row member id listed).resolve_left fun covered => unhandled (handled id covered)
      apply relisted.step rowStep <;> rw [List.forall_mem_singleton]
      · exact fun _ => unlanded
      · exact fun p paid id inside covered => absurd covered (unlanded id inside p paid)
  · constructor <;> simp [jobs, idle]

end recovery

-- One process at a time: it boots, serves, and is stopped once nothing is in flight.
def lifetime (w : World Unit) : Action Unit → Bool
  | .payout _ index (.lookup outcome) _ _ =>
    (w.service ()).payouts[index]?.all fun run => w.truthful run.job outcome
  | .boot .. => (w.service ()).stopped
  | .readOpen .. | .readBatches .. | .hydrateLedger .. | .recoverAccruals .. | .restart _ => false
  | _ => true

/-- A settlement is for a new request, and a boot reads no request that has been paid from an open
row alone. -/
def Current (w : World Unit) : Action Unit → Prop
  | .settleInbound _ inbound _ =>
    (w.service ()).routing.get? inbound.requestId = none ∨
      inbound.requestId ∈ (w.service ()).claimed ∨ w.Fresh inbound.requestId
  | .boot _ addresses batchIds _ ok _ =>
    ok = true → ∀ row ∈ w.rows.readOpen addresses, ∀ id ∈ rowIds row,
      id ∈ (w.rows.readBatches batchIds).flatMap rowIds ∨ w.Unlanded id
  | _ => True

instance (w : World Unit) (id : String) : Decidable (w.Unlanded id) :=
  inferInstanceAs (Decidable (∀ _ ∈ _, _))

instance (w : World Unit) (a : Action Unit) : Decidable (w.Current a) :=
  match a with
  | .settleInbound .. => inferInstanceAs (Decidable (_ ∨ _ ∨ _))
  | .boot _ _ _ _ ok _ => inferInstanceAs (Decidable (ok = true → ∀ _ ∈ _, ∀ _ ∈ _, _ ∨ _))
  | .recordRouting .. | .deadline .. | .flushPayouts .. | .payout .. | .callWrite ..
  | .applyWrite .. | .resolveWrite .. | .rejectWrite .. | .readOpen .. | .readBatches ..
  | .hydrateLedger .. | .recoverAccruals .. | .restart .. => .isTrue trivial

section boot

variable {cfg} {w w' : World Unit}

-- Once the process is gone, only the stored batches have a request.
theorem Sole.fresh_of_unlisted (sole : Sole w) {batchIds : List String}
    (every : batchIds.Perm w.rows.batchRows.keys) {id : String}
    (unlisted : id ∉ (w.rows.readBatches batchIds).flatMap rowIds) (unlanded : w.Unlanded id) :
    (w.restart ()).Fresh id := by
  refine ⟨⟨fun b r held => ?_, fun i op held => ?_⟩, unlanded⟩
  · rcases held with ⟨i, ⟨run, member, -⟩ | ⟨key, row, member, -⟩⟩ | ⟨row, stored, -, inside⟩ |
      ⟨i, row, member, -⟩
    · simp [restart_service, init] at member
    · simp [restart_service] at member
    · apply unlisted
      have found : w.rows.batchRows.get? b = some row := stored
      have key : b ∈ batchIds := every.mem_iff.mpr ((OrderedMap.mem_keys _ b).mpr ⟨row, found⟩)
      obtain ⟨named, nonempty⟩ := sole.labelled.stored b row found
      refine List.mem_flatMap.mpr ⟨row, List.mem_filter.mpr ⟨?_, ?_⟩, inside⟩
      · exact List.mem_filterMap.mpr ⟨b, key, found⟩
      · simp [Rows.named, named, nonempty]
    · simp [restart_reads] at member
  · obtain ⟨accrual, found, -⟩ := held
    simp [restart_service, init] at found

theorem Once.booted (once : Once w) {state : Recovery} (relisted : Relisted w state)
    (payouts : (w'.service ()).payouts = state.svc.payouts) (landed : w'.landed = w.landed) :
    Once w' where
  apart := by
    rw [jobs, payouts]
    exact relisted.apart
  ready := by
    unfold Unlanded
    rw [payouts, landed]
    exact relisted.ready
  agrees := by
    unfold Agrees
    rw [payouts, landed]
    exact relisted.agrees
  counted := by
    rw [landed]
    exact once.counted

theorem Once.boot (once : Once w) (sole : Sole w) {addresses batchIds : List String}
    {history : Option (List StoredRecord)} {ok : Bool} {now : Nat → Nat}
    (current : w.Current (.boot () addresses batchIds history ok now))
    (taken : World.step cfg w (.boot () addresses batchIds history ok now) = some w') :
    Once w' := by
  obtain ⟨-, -, rfl⟩ := boot_inv taken
  have hydrated := hydrateLedger_bookkeeping cfg .init history
  have idle : (Service.hydrateLedger cfg .init history).payouts = [] := hydrated.payouts
  have nothing : Relisted w ⟨Service.hydrateLedger cfg .init history, [], false⟩ := by
    constructor <;> simp [jobs, idle]
  unfold Service.recoverAccruals
  cases stored : cfg.accrualStore with
  | false => exact once.booted nothing (by simp [turn_service]) rfl
  | true =>
    cases ok with
    | false => exact once.booted nothing (by simp [turn_service]) rfl
    | true =>
      have relisted := relisted_recovery now stored sole _ idle
        (fun row member => by
          obtain ⟨b, found, named, nonempty⟩ := sole.labelled.read_batches batchIds row member
          exact ⟨b, named, nonempty, fun id inside => .inl ⟨row, found, rfl, inside⟩⟩)
        (current rfl)
      exact once.booted relisted (by simp [turn_service, loadAll]) rfl

end boot

section steps

variable {cfg} {w w' : World Unit}

theorem Current.uncontended (sole : Sole w) {a : Action Unit} (current : w.Current a)
    (served : w.lifetime a = true) (taken : World.step cfg w a = some w') : w.Uncontended a := by
  cases a with
  | settleInbound => exact current
  | boot i addresses batchIds history ok now =>
    intro loads row member id inside
    obtain ⟨-, every, -⟩ := boot_inv taken
    by_cases listed : id ∈ (w.rows.readBatches batchIds).flatMap rowIds
    · exact .inl listed
    · have unlanded := (current loads row member id inside).resolve_left listed
      exact .inr (sole.fresh_of_unlisted every listed unlanded)
  | recoverAccruals => cases served
  | _ => trivial

theorem truthful_of_lifetime {index : Nat} {event : PayoutEvent} {attemptAt settledAt : Nat}
    (served : w.lifetime (.payout () index event attemptAt settledAt) = true)
    (outcome : LookupOutcome) (asked : event = .lookup outcome) (run : PayoutRun)
    (found : (w.service ()).payouts[index]? = some run) : w.truthful run.job outcome = true := by
  subst asked
  simpa [lifetime, found] using served

theorem Once.setWrites (once : Once w) (key : String) (works : List (Work StoreOp)) :
    Once (w.setWrites () key works) :=
  once.keep (by simp [setWrites_service, setChain]) rfl

theorem Once.step (batching : 0 < cfg.batchMinAtomic) (once : Once w) (sole : Sole w)
    {a : Action Unit} (current : w.Current a) (served : w.lifetime a = true)
    (taken : World.step cfg w a = some w') : Once w' := by
  have sound := sole.labelled.sound
  cases a with
  | settleInbound i inbound now =>
    cases taken
    rcases current with unrouted | taken_on
    · rw [Service.settleInbound, unrouted]
      exact ((once_moves cfg).ended w i ⟨sole, once⟩).2
    · exact ((once_moves cfg).settleInbound batching w i ⟨sole, once⟩ (sound i) inbound now
        fun unclaimed => taken_on.resolve_left unclaimed).2
  | payout i index event => exact once.payout (truthful_of_lifetime served) taken
  | callWrite i key =>
    obtain ⟨works, -, rfl⟩ := callWrite_inv taken
    exact once.setWrites key works
  | applyWrite i key =>
    obtain ⟨op, works, rows, -, -, rfl⟩ := applyWrite_inv taken
    have kept : Once (w.withRows rows) := { once with }
    exact kept.setWrites key works
  | resolveWrite i key =>
    obtain ⟨op, works, -, rfl⟩ := resolveWrite_inv taken
    have kept : Once { w with trace := w.trace ++ completed op } := { once with }
    exact kept.setWrites key works
  | rejectWrite i key =>
    obtain ⟨works, -, rfl⟩ := rejectWrite_inv taken
    exact once.setWrites key works
  | boot => exact once.boot sole current taken
  | recordRouting | deadline | flushPayouts =>
    exact ((once_moves cfg).step batching rfl ⟨sole, once⟩ sound (by simp) taken).2
  | _ => cases served

end steps

structure Single (w : World Unit) : Prop where
  direct : Direct w
  once : Once w
  claimed : ∀ run ∈ (w.service ()).payouts, run.job.payoutId ∈ (w.service ()).claimed

section single

variable {cfg} {w w' : World Unit} (single : Single w)

include single

theorem Single.keep (direct : Direct w')
    (payouts : (w'.service ()).payouts = (w.service ()).payouts) (landed : w'.landed = w.landed)
    (claimed : ∀ id ∈ (w.service ()).claimed, id ∈ (w'.service ()).claimed) : Single w' where
  direct := direct
  once := single.once.keep payouts landed
  claimed := by
    rw [payouts]
    exact fun run member => claimed _ (single.claimed run member)

theorem Single.quiet {i : Unit} {svc : Service} (direct : Direct (w.turn i svc))
    (kept : Quiet (w.service ()) svc) : Single (w.turn i svc) := by
  apply single.keep direct
  · simp [turn_service, kept.payouts]
  · rfl
  · simpa [turn_service] using kept.claimed

theorem Single.settleInbound (off : cfg.batchMinAtomic ≤ 0) {i : Unit}
    {inbound : InboundSettlement} {now : Readings}
    (current : w.Current (.settleInbound i inbound now))
    (direct : Direct (w.turn i (Service.settleInbound cfg (w.service i) inbound now))) :
    Single (w.turn i (Service.settleInbound cfg (w.service i) inbound now)) := by
  rcases settleInbound_off cfg off (w.service i) inbound now with
    quiet | ⟨record, payout, base, kept, id, routed, unclaimed, claimed, paid⟩
  · exact single.quiet direct quiet
  · rw [paid] at direct ⊢
    have unlanded : w.Unlanded record.requestId := by
      rcases current with unrouted | earlier | fresh
      · rw [unrouted] at routed
        cases routed
      · rw [id] at unclaimed
        exact absurd earlier unclaimed
      · rw [id]
        exact fresh.2
    have apart : ∀ other ∈ (w.service ()).payouts, Apart other.job (directJob record payout) := by
      intro other member covered inside inside'
      obtain rfl : covered = record.requestId := List.mem_singleton.mp inside'
      rw [((single.direct.service ()).runs other member).2, List.mem_singleton] at inside
      exact unclaimed (inside ▸ single.claimed other member)
    have payouts : ((w.turn i (runPayout cfg base (directJob record payout))).service ()).payouts =
        (w.service ()).payouts ++ [⟨directJob record payout,
          Progress.start cfg.attempts (directJob record payout)⟩] := by
      simp [turn_service, runPayout, kept.payouts]
    constructor
    · exact direct
    · apply single.once.started payouts rfl apart
      intro covered inside
      obtain rfl : covered = record.requestId := List.mem_singleton.mp inside
      exact unlanded
    · intro run member
      simp only [turn_service, runPayout] at member ⊢
      rcases List.mem_append.mp member with old | new
      · rw [kept.payouts] at old
        exact kept.claimed _ (single.claimed run old)
      · obtain rfl := List.mem_singleton.mp new
        exact claimed

theorem Single.setWrites {key : String} {works : List (Work StoreOp)} (rows : Rows)
    (trace : List Event)
    (direct : Direct ({ w with rows := rows, trace := trace }.setWrites () key works)) :
    Single ({ w with rows := rows, trace := trace }.setWrites () key works) := by
  apply single.keep direct
  · simp [setWrites_service, setChain]
  · rfl
  · simp [setWrites_service, setChain]

theorem Single.payout {index : Nat} {event : PayoutEvent} {attemptAt settledAt : Nat}
    (served : w.lifetime (.payout () index event attemptAt settledAt) = true)
    (taken : World.step cfg w (.payout () index event attemptAt settledAt) = some w') :
    Single w' := by
  have direct := single.direct.payout taken
  have once := single.once.payout (truthful_of_lifetime served) taken
  obtain ⟨svc, run, progress, resumed, -, -, rfl⟩ := payout_inv taken
  obtain ⟨run', progress', found, -, kept⟩ := resumePayout_cases cfg _ svc index event attemptAt
    settledAt resumed
  obtain ⟨-, -, claimed, -, -, payouts, -⟩ := discharged_frame cfg
    (moved cfg (w.service ()) index run'.job progress') run'.job progress' attemptAt
  refine ⟨direct, once, fun other member => ?_⟩
  simp only [turn_service, if_true, kept.payouts, payouts] at member
  obtain ⟨n, present⟩ := List.getElem?_of_mem member
  obtain ⟨before, old, job, -⟩ :=
    moved_job cfg (w.service ()) index run' progress' found n other present
  rw [← job]
  simp only [turn_service, if_true]
  apply kept.claimed
  rw [claimed]
  exact single.claimed before (List.mem_of_getElem? old)

theorem Single.step (off : cfg.batchMinAtomic ≤ 0) {a : Action Unit} (current : w.Current a)
    (served : w.lifetime a = true) (taken : World.step cfg w a = some w') : Single w' := by
  have direct := single.direct.step off taken
  cases a with
  | recordRouting i requestId nodeId operatorAddress now =>
    cases taken
    exact single.quiet direct (recordRouting_quiet _ _ _ _ _)
  | settleInbound i inbound now =>
    cases taken
    exact single.settleInbound off current direct
  | deadline i operatorAddress now =>
    have turned := deadline_inv taken
    rw [flushAccrual_direct cfg (single.direct.service i)] at turned
    subst turned
    exact single.quiet direct (Bookkeeping.refl _).quiet
  | flushPayouts i now =>
    cases taken
    rw [flushPayouts_direct cfg (single.direct.service i)] at direct ⊢
    exact single.quiet direct (Bookkeeping.refl _).quiet
  | payout => exact single.payout served taken
  | callWrite i key =>
    obtain ⟨works, -, rfl⟩ := callWrite_inv taken
    exact single.setWrites w.rows w.trace direct
  | applyWrite i key =>
    obtain ⟨op, works, rows, -, -, rfl⟩ := applyWrite_inv taken
    exact single.setWrites rows w.trace direct
  | resolveWrite i key =>
    obtain ⟨op, works, -, rfl⟩ := resolveWrite_inv taken
    exact single.setWrites w.rows _ direct
  | rejectWrite i key =>
    obtain ⟨works, -, rfl⟩ := rejectWrite_inv taken
    exact single.setWrites w.rows w.trace direct
  | boot i addresses batchIds history ok now =>
    obtain ⟨-, -, rfl⟩ := boot_inv taken
    have hydrated := hydrateLedger_bookkeeping cfg .init history
    have idle : (Service.hydrateLedger cfg .init history).payouts = [] := hydrated.payouts
    have nothing : loadAll w.rows addresses batchIds = ([], []) := by
      simp [loadAll, single.direct.rows, Rows.readOpen, Rows.readBatches, Rows.empty]
    rw [nothing, recoverAccruals_nothing] at direct ⊢
    have none_paying : Relisted w ⟨Service.hydrateLedger cfg .init history, [], false⟩ := by
      constructor <;> simp [jobs, idle]
    refine ⟨direct, single.once.booted none_paying (by simp [turn_service]) rfl, ?_⟩
    simp [turn_service, idle]
  | _ => cases served

end single

theorem once_start : Once (start .empty) := by
  constructor <;> simp [start, jobs, init]

end World

theorem paid_at_most_once (w : World Unit)
    (run : Transition.Run (World.step cfg)
      (fun w a => World.lifetime w a = true ∧ World.Current w a) (World.start .empty) w)
    (id : String) : w.landed.countP (fun p => id ∈ p.requestIds) ≤ 1 := by
  by_cases batching : 0 < cfg.batchMinAtomic
  · have held : World.Sole w ∧ World.Once w :=
      run.invariant (P := fun w => World.Sole w ∧ World.Once w)
        ⟨World.sole_start, World.once_start⟩ fun w a w' held ok taken => ⟨held.1.step batching
          (ok.2.uncontended held.1 ok.1 taken) taken, held.2.step batching held.1 ok.2 ok.1 taken⟩
    exact held.2.counted id
  · have single : World.Single w :=
      run.invariant ⟨World.direct_start, World.once_start, by simp [World.start, init]⟩
        fun w a w' held ok taken => held.step (by omega) ok.2 ok.1 taken
    exact single.once.counted id

def World.rejected : List (Action Unit) := [.callWrite () "OPERATOR", .rejectWrite () "OPERATOR"]

-- A batch that is paid while its open row stays behind.
def World.promoted : List (Action Unit) :=
  World.paidFor () "r1" 10 ++ World.written () ++ [.flushPayouts () fun _ => 20] ++
    World.written () ++ World.rejected ++ [.payout () 0 (.paid "TX-1") 30 30]

-- Neither row went away, and the next process resumes the batch and finds it paid.
theorem paid_at_most_once_resumed :
    ∃ (w : World Unit) (run : PayoutRun), run ∈ (w.service ()).payouts ∧
      run.progress.isSettled = true ∧ "r1" ∈ run.job.requestIds ∧ w.landed ≠ [] ∧
      w.landed.countP (fun p => "r1" ∈ p.requestIds) ≤ 1 := by
  let guard (w : World Unit) (a : Action Unit) : Bool := w.lifetime a && decide (w.Current a)
  have shown : (Transition.replay
      (fun w a => if guard w a then World.step World.demoDeps w a else none) (World.start .empty)
      (World.promoted ++ World.rejected ++
        [.boot () ["OPERATOR"] [batchIdOf 20 1] none true fun _ => 40,
          .payout () 0 (.lookup (.found "TX-1")) 50 50])).map
        (fun w => ((w.service ()).payouts.map fun run =>
          (run.progress.isSettled, run.job.requestIds), w.landed.isEmpty)) =
      some ([(true, ["r1"])], false) := by
    decide
  obtain ⟨w, replayed, facts⟩ := Option.map_eq_some_iff.mp shown
  simp only [Prod.mk.injEq] at facts
  obtain ⟨payouts, paid⟩ := facts
  obtain ⟨run, member, own⟩ := List.mem_map.mp (payouts ▸ List.mem_singleton_self _)
  simp only [Prod.mk.injEq] at own
  refine ⟨w, run, member, own.1, by simp [own.2], by simpa using paid, ?_⟩
  apply paid_at_most_once World.demoDeps w
  apply (Transition.run_of_guarded guard _ replayed).mono
  intro w a passed
  exact ⟨(Bool.and_eq_true_iff.mp passed).1, of_decide_eq_true (Bool.and_eq_true_iff.mp passed).2⟩

-- `removeOpen` rejects and `removeBatch` does not: the next process batches the request anew.
theorem stale_open_row_paid_twice :
    ∃ w : World Unit, Transition.Run (World.step World.demoDeps)
        (fun w a => w.lifetime a = true) (World.start .empty) w ∧
      ∃ id, ¬ w.landed.countP (fun p => id ∈ p.requestIds) ≤ 1 := by
  have shown : (Transition.replay
      (fun w a => if World.lifetime w a then World.step World.demoDeps w a else none)
      (World.start .empty)
      (World.promoted ++ World.written () ++
        [.boot () ["OPERATOR"] [] none true fun _ => 40,
          .payout () 0 (.paid "TX-2") 50 50])).map
        (fun w => w.landed.countP fun p => "r1" ∈ p.requestIds) = some 2 := by
    decide
  obtain ⟨w, replayed, twice⟩ := Option.map_eq_some_iff.mp shown
  exact ⟨w, Transition.run_of_guarded World.lifetime _ replayed, "r1", by omega⟩

end X402Mesh.Settlement
