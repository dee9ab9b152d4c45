import X402Mesh.Settlement.Partition

set_option autoImplicit false

namespace X402Mesh.Settlement

open Money

/-- Where the method stands: about to look at the accruals, in the await of `whenIdle`, or on its
way back from the last `whenIdle`. -/
inductive FlushPoint
  | head
  | waiting (last : Bool)
  | returning
  | resolved
  deriving DecidableEq, Repr

structure Flushing (ι : Type) where
  world : World ι
  point : FlushPoint

-- `lingering`: a task that has ended is still in `inFlight`.
inductive FlushAction (ι : Type)
  | turn (a : Action ι)
  | resume (now : Nat → Nat) (lingering : Bool)

namespace Service

-- What `inFlight` tracks: payouts that have not ended, and writes.
def busy (svc : Service) : Bool :=
  svc.payouts.any (fun run => !run.progress.ended) || svc.writeChains.size ≠ 0

end Service

namespace Flushing

variable {ι : Type} [DecidableEq ι] (cfg : Deps) (i : ι)

-- `whenIdle` looks at `inFlight`, and waits or returns.
def whenIdle (world : World ι) (last lingering : Bool) : Flushing ι :=
  if (world.service i).busy || lingering then ⟨world, .waiting last⟩
  else if last then ⟨world, .returning⟩
  else ⟨world, .head⟩

def step (s : Flushing ι) : FlushAction ι → Option (Flushing ι)
  | .turn a =>
    match s.point with
    | .resolved => none
    | point => (World.step cfg s.world a).map fun world => ⟨world, point⟩
  | .resume now lingering =>
    match s.point with
    | .head =>
      if (s.world.service i).accruals.size = 0 then some (whenIdle i s.world true lingering)
      else
        some (whenIdle i (s.world.turn i (Service.flushPayouts cfg (s.world.service i) now)) false
          lingering)
    | .waiting last => some (whenIdle i s.world last lingering)
    | .returning => some ⟨s.world, .resolved⟩
    | .resolved => none

end Flushing

namespace Service

variable (cfg : Deps)

-- The record a settlement is taken on with, when it is.
def takenOn (svc : Service) (inbound : InboundSettlement) (now : Readings) :
    Option SettlementRecord :=
  match svc.routing.get? inbound.requestId with
  | none => none
  | some note =>
    if inbound.requestId ∈ svc.claimed then none
    else (openRecord cfg inbound note now.createdAt).toOption

-- Alone in its accrual, the record reaches neither the threshold nor the size cap.
def staysAccruing (record : SettlementRecord) : Bool :=
  match bigInt record.payoutAtomic with
  | none => false
  | some payout =>
    payout ≠ 0 ∧ 0 < cfg.batchMinAtomic ∧ payout < cfg.batchMinAtomic ∧
      1 < cfg.payoutBatchMaxRequests

-- The record gives the process something to do: a payout, or the write of a ledger row.
def startsWork (record : SettlementRecord) : Bool :=
  cfg.ledgerStore || bigInt record.payoutAtomic ≠ some 0

end Service

namespace Flushing

variable {ι : Type} [DecidableEq ι] (cfg : Deps) (i : ι)

/-- No settlement is left accruing while the method waits for the last time, and none gives the
process work once that wait is over. -/
def inTime (s : Flushing ι) : FlushAction ι → Prop
  | .turn (.settleInbound j inbound now) =>
    j = i → ∀ record, Service.takenOn cfg (s.world.service i) inbound now = some record →
      match s.point with
      | .waiting true => Service.staysAccruing cfg record = false
      | .returning => Service.startsWork cfg record = false
      | _ => True
  | _ => True

-- What happens in a process that has booted and stays up.
def serving : FlushAction ι → Prop
  | .turn (.hydrateLedger j _) => j ≠ i
  | .turn (.recoverAccruals j ..) => j ≠ i
  | .turn a => World.staysUp i a
  | .resume .. => True

end Flushing

namespace Service

variable (cfg : Deps) (svc : Service)

theorem settleInbound_refused (inbound : InboundSettlement) (now : Readings)
    (refused : takenOn cfg svc inbound now = none) :
    (settleInbound cfg svc inbound now).accruals = svc.accruals ∧
      (settleInbound cfg svc inbound now).payouts = svc.payouts ∧
      (settleInbound cfg svc inbound now).writeChains = svc.writeChains := by
  unfold takenOn at refused
  unfold settleInbound
  cases noted : svc.routing.get? inbound.requestId with
  | none => exact ⟨rfl, rfl, rfl⟩
  | some note =>
    by_cases duplicate : inbound.requestId ∈ svc.claimed
    · simp [duplicate]
    · simp only [noted, duplicate, if_false] at refused ⊢
      cases opened : openRecord cfg inbound note now.createdAt with
      | error e => exact ⟨rfl, rfl, rfl⟩
      | ok record =>
        rw [opened] at refused
        cases refused

theorem settleInbound_taken (inbound : InboundSettlement) (now : Readings)
    (record : SettlementRecord) (taken : takenOn cfg svc inbound now = some record) :
    settleInbound cfg svc inbound now =
      schedule cfg (remember cfg
        { svc with
          routing := svc.routing.erase inbound.requestId
          claimed := inbound.requestId :: svc.claimed } record) record now := by
  unfold takenOn at taken
  unfold settleInbound
  cases noted : svc.routing.get? inbound.requestId with
  | none => simp [noted] at taken
  | some note =>
    simp only [noted] at taken
    split at taken
    next => cases taken
    next fresh =>
      cases opened : openRecord cfg inbound note now.createdAt with
      | error e =>
        rw [opened] at taken
        cases taken
      | ok own =>
        rw [opened] at taken
        cases taken
        simp only [fresh, if_false, opened]

theorem flushAccrual_idle (idle : svc.accruals.size = 0) (operatorAddress : String) (now : Nat) :
    flushAccrual cfg svc operatorAddress now = svc :=
  flushAccrual_absent cfg svc operatorAddress now ((svc.accruals.size_eq_zero).mp idle _)

theorem flushPayouts_idle (idle : svc.accruals.size = 0) (now : Nat → Nat) :
    flushPayouts cfg svc now = svc := by
  have none_left : svc.accruals.keys = [] := by
    simpa [OrderedMap.keys, OrderedMap.size] using idle
  simp [flushPayouts, none_left]

-- The record is alone in its accrual, and the accrual leaves in the same turn.
theorem push_idle (idle : svc.accruals.size = 0) (record : SettlementRecord) (payout : Int)
    (accruedAt flushedAt : Nat)
    (due : cfg.batchMinAtomic ≤ payout ∨ cfg.payoutBatchMaxRequests ≤ 1) :
    (push cfg svc record payout accruedAt flushedAt).accruals.size = 0 := by
  have alone : svc.extended record payout accruedAt =
      ⟨record.operatorAddress, [record], payout, accruedAt, false, svc.nextSerial⟩ := by
    simp [extended, (svc.accruals.size_eq_zero).mp idle]
  have flushed : (flushAccrual cfg
      (svc.putAccrual (svc.extended record payout accruedAt)) record.operatorAddress
        flushedAt).accruals.size = 0 := by
    have found : (svc.putAccrual (svc.extended record payout accruedAt)).accruals.get?
        record.operatorAddress = some (svc.extended record payout accruedAt) := by
      simp [putAccrual, alone]
    have gone : ((svc.putAccrual (svc.extended record payout accruedAt)).accruals.erase
        record.operatorAddress).size = 0 := by
      rw [OrderedMap.size_eq_zero]
      intro key
      rw [putAccrual, alone, OrderedMap.get?_erase, OrderedMap.get?_set]
      simp [(svc.accruals.size_eq_zero).mp idle]
    have listed : (svc.extended record payout accruedAt).records.isEmpty = false := by
      rw [alone]
      rfl
    unfold flushAccrual
    rw [found]
    simp only [listed, Bool.false_eq_true, if_false]
    cases sumPayouts (svc.extended record payout accruedAt).records with
    | none => exact gone
    | some summed => simpa [carve, runPayout] using gone
  unfold push
  dsimp only
  split
  next => exact flushed
  next below =>
    split
    next => exact flushed
    next few =>
      rw [alone] at below few
      simp only [List.length_singleton] at below few
      omega

theorem schedule_idle (idle : svc.accruals.size = 0) (record : SettlementRecord) (now : Readings)
    (due : staysAccruing cfg record = false) : (schedule cfg svc record now).accruals.size = 0 := by
  unfold schedule
  unfold staysAccruing at due
  cases priced : bigInt record.payoutAtomic with
  | none => exact idle
  | some payout =>
    simp only [priced, decide_eq_false_iff_not] at due
    dsimp only
    split
    next =>
      have kept := (updateAll_bookkeeping cfg svc [record] fun record =>
        { record with payoutTxId := none, batchId := none, status := .settled,
                      settledAt := some now.accruedAt }).accruals
      exact (congrArg OrderedMap.size kept).trans idle
    next owes =>
      split
      next batching =>
        apply push_idle
        next =>
          rw [(update_bookkeeping cfg _ _ _).accruals]
          exact idle
        next => omega
      next => exact idle

theorem settleInbound_workless (inbound : InboundSettlement) (now : Readings)
    (workless : ∀ record, takenOn cfg svc inbound now = some record →
      startsWork cfg record = false) :
    (settleInbound cfg svc inbound now).accruals = svc.accruals ∧
      (settleInbound cfg svc inbound now).payouts = svc.payouts ∧
      (settleInbound cfg svc inbound now).writeChains = svc.writeChains := by
  cases taken : takenOn cfg svc inbound now with
  | none => exact settleInbound_refused cfg svc inbound now taken
  | some record =>
    have idle := workless record taken
    simp only [startsWork, ne_eq, decide_not, Bool.or_eq_false_iff, Bool.not_eq_false',
      decide_eq_true_eq] at idle
    obtain ⟨unaudited, nothing⟩ := idle
    have updated (svc : Service) (requestId : String) (record : SettlementRecord) :
        (update cfg svc requestId record).accruals = svc.accruals ∧
          (update cfg svc requestId record).payouts = svc.payouts ∧
          (update cfg svc requestId record).writeChains = svc.writeChains := by
      unfold update
      split <;> simp [persistLedger, unaudited]
    rw [settleInbound_taken cfg svc inbound now record taken]
    simp only [schedule, nothing, if_true, finalizeSettled, updateAll, List.foldl_cons,
      List.foldl_nil, dropLiability, releaseBatch]
    obtain ⟨accruals, payouts, chains⟩ := updated
      (remember cfg { svc with
        routing := svc.routing.erase inbound.requestId
        claimed := inbound.requestId :: svc.claimed } record) record.requestId
      { record with payoutTxId := none, batchId := none, status := .settled,
                    settledAt := some now.accruedAt }
    rw [accruals, payouts, chains]
    simp [remember, evict, persistLedger, unaudited]

theorem settleInbound_idle (idle : svc.accruals.size = 0) (inbound : InboundSettlement)
    (now : Readings)
    (due : ∀ record, takenOn cfg svc inbound now = some record →
      staysAccruing cfg record = false) :
    (settleInbound cfg svc inbound now).accruals.size = 0 := by
  cases taken : takenOn cfg svc inbound now with
  | none =>
    rw [(settleInbound_refused cfg svc inbound now taken).1]
    exact idle
  | some record =>
    rw [settleInbound_taken cfg svc inbound now record taken]
    apply schedule_idle
    next =>
      rw [(remember_bookkeeping cfg _ record).accruals]
      exact idle
    next => exact due record taken

theorem resumePayout_accruals (svc' : Service) (index : Nat) (event : PayoutEvent)
    (attemptAt settledAt : Nat)
    (resumed : resumePayout cfg svc index event attemptAt settledAt = some svc') :
    svc'.accruals = svc.accruals := by
  obtain ⟨run, progress, -, -, kept⟩ :=
    resumePayout_cases cfg svc svc' index event attemptAt settledAt resumed
  rw [kept.accruals, (discharged_frame cfg _ run.job progress attemptAt).1]
  rfl

-- Nothing is in flight, so no payout has an await that could end.
theorem resumePayout_settled (quiet : svc.busy = false) (index : Nat) (event : PayoutEvent)
    (attemptAt settledAt : Nat) :
    resumePayout cfg svc index event attemptAt settledAt = none := by
  simp only [busy, ne_eq, Bool.or_eq_false_iff, List.any_eq_false] at quiet
  unfold resumePayout
  cases found : svc.payouts[index]? with
  | none => rfl
  | some run =>
    have ended := quiet.1 run (List.mem_of_getElem? found)
    cases stands : run.progress <;> simp_all [Progress.ended, Progress.next]

theorem chain_settled (quiet : svc.busy = false) (key : String) : svc.chain key = [] := by
  simp only [busy, ne_eq, Bool.or_eq_false_iff, decide_eq_false_iff_not, not_not] at quiet
  rw [chain, (svc.writeChains.size_eq_zero).mp quiet.2]
  rfl

end Service

namespace World

variable {ι : Type} [DecidableEq ι] {cfg : Deps} {i : ι}

-- `P` of the service of process `i`, in a world where process `j` has had a turn.
theorem turn_keeps {P : Service → Prop} {w : World ι} {j : ι} {svc : Service}
    (held : P (w.service i)) (own : j = i → P { svc with outbox := [] }) :
    P ((w.turn j svc).service i) := by
  rw [turn_service]
  split
  next same => exact own same.symm
  next => exact held

theorem setWrites_keeps {P : Service → Prop} {w : World ι} {j : ι} {key : String}
    {works : List (Work StoreOp)} (held : P (w.service i))
    (own : j = i → P ((w.service i).setChain key works)) :
    P ((w.setWrites j key works).service i) := by
  rw [setWrites_service]
  split
  next same => exact same ▸ own same.symm
  next => exact held

theorem step_idle {w w' : World ι} {a : Action ι} (serves : Flushing.serving i (.turn a))
    (due : ∀ inbound now, a = .settleInbound i inbound now → ∀ record,
      Service.takenOn cfg (w.service i) inbound now = some record →
        Service.staysAccruing cfg record = false)
    (taken : step cfg w a = some w') (idle : (w.service i).accruals.size = 0) :
    (w'.service i).accruals.size = 0 := by
  cases a with
  | recordRouting j requestId nodeId operatorAddress now =>
    cases taken
    exact turn_keeps (P := (·.accruals.size = 0)) idle fun same => same ▸ idle
  | settleInbound j inbound now =>
    cases taken
    apply turn_keeps (P := (·.accruals.size = 0)) idle
    rintro rfl
    exact Service.settleInbound_idle cfg _ idle inbound now (due inbound now rfl)
  | deadline j operatorAddress now =>
    rw [deadline_inv taken]
    apply turn_keeps (P := (·.accruals.size = 0)) idle
    rintro rfl
    rw [Service.flushAccrual_idle cfg _ idle]
    exact idle
  | flushPayouts j now =>
    cases taken
    apply turn_keeps (P := (·.accruals.size = 0)) idle
    rintro rfl
    rw [Service.flushPayouts_idle cfg _ idle]
    exact idle
  | payout j index event attemptAt settledAt =>
    obtain ⟨svc, run, progress, resumed, -, -, rfl⟩ := payout_inv taken
    apply turn_keeps (P := (·.accruals.size = 0)) (w := w.recordOutcome run.job event progress) idle
    rintro rfl
    have kept := Service.resumePayout_accruals cfg _ svc index event attemptAt settledAt resumed
    exact (congrArg OrderedMap.size kept).trans idle
  | callWrite j key =>
    obtain ⟨works, -, rfl⟩ := callWrite_inv taken
    exact setWrites_keeps (P := (·.accruals.size = 0)) idle fun _ => idle
  | applyWrite j key =>
    obtain ⟨op, works, rows, -, -, rfl⟩ := applyWrite_inv taken
    exact setWrites_keeps (P := (·.accruals.size = 0)) (w := w.withRows rows) idle fun _ => idle
  | resolveWrite j key =>
    obtain ⟨op, works, -, rfl⟩ := resolveWrite_inv taken
    exact setWrites_keeps (P := (·.accruals.size = 0))
      (w := { w with trace := w.trace ++ completed op }) idle fun _ => idle
  | rejectWrite j key =>
    obtain ⟨works, -, rfl⟩ := rejectWrite_inv taken
    exact setWrites_keeps (P := (·.accruals.size = 0)) idle fun _ => idle
  | readOpen j addresses =>
    rw [readOpen_inv taken]
    exact idle
  | readBatches j batchIds =>
    rw [readBatches_inv taken]
    exact idle
  | hydrateLedger j history =>
    cases taken
    exact turn_keeps (P := (·.accruals.size = 0)) idle fun same => absurd same serves
  | recoverAccruals j ok now =>
    cases taken
    exact turn_keeps (P := (·.accruals.size = 0)) idle fun same => absurd same serves
  | restart j =>
    cases taken
    rw [restart_service, if_neg (Ne.symm serves)]
    exact idle
  | boot j addresses batchIds history ok now =>
    obtain ⟨-, -, rfl⟩ := boot_inv taken
    rw [turn_service, if_neg (Ne.symm serves), restart_service, if_neg (Ne.symm serves)]
    exact idle

-- Nothing accrued and nothing in flight.
def Done (svc : Service) : Prop := svc.accruals.size = 0 ∧ svc.busy = false

theorem done_congr {before after : Service} (accruals : after.accruals = before.accruals)
    (payouts : after.payouts = before.payouts) (chains : after.writeChains = before.writeChains)
    (done : Done before) : Done after := by
  unfold Done Service.busy
  rw [accruals, payouts, chains]
  exact done

theorem step_done {w w' : World ι} {a : Action ι} (serves : Flushing.serving i (.turn a))
    (workless : ∀ inbound now, a = .settleInbound i inbound now → ∀ record,
      Service.takenOn cfg (w.service i) inbound now = some record →
        Service.startsWork cfg record = false)
    (taken : step cfg w a = some w') (done : Done (w.service i)) : Done (w'.service i) := by
  have nothing_queued : ∀ key, (w.service i).chain key = [] :=
    fun key => Service.chain_settled _ done.2 key
  cases a with
  | recordRouting j requestId nodeId operatorAddress now =>
    cases taken
    exact turn_keeps (P := Done) done fun same => same ▸ done_congr rfl rfl rfl done
  | settleInbound j inbound now =>
    cases taken
    apply turn_keeps (P := Done) done
    rintro rfl
    obtain ⟨accruals, payouts, chains⟩ :=
      Service.settleInbound_workless cfg (w.service j) inbound now (workless inbound now rfl)
    exact done_congr accruals payouts chains done
  | deadline j operatorAddress now =>
    rw [deadline_inv taken]
    apply turn_keeps (P := Done) done
    rintro rfl
    rw [Service.flushAccrual_idle cfg _ done.1]
    exact done
  | flushPayouts j now =>
    cases taken
    apply turn_keeps (P := Done) done
    rintro rfl
    rw [Service.flushPayouts_idle cfg _ done.1]
    exact done
  | payout j index event attemptAt settledAt =>
    obtain ⟨svc, run, progress, resumed, -, -, rfl⟩ := payout_inv taken
    apply turn_keeps (P := Done) (w := w.recordOutcome run.job event progress) done
    rintro rfl
    rw [Service.resumePayout_settled cfg _ done.2] at resumed
    cases resumed
  | callWrite j key =>
    obtain ⟨works, called, rfl⟩ := callWrite_inv taken
    apply setWrites_keeps (P := Done) done
    rintro rfl
    rw [nothing_queued] at called
    cases called
  | applyWrite j key =>
    obtain ⟨op, works, rows, applied, -, rfl⟩ := applyWrite_inv taken
    apply setWrites_keeps (P := Done) (w := w.withRows rows) done
    rintro rfl
    rw [nothing_queued] at applied
    cases applied
  | resolveWrite j key =>
    obtain ⟨op, works, resolved, rfl⟩ := resolveWrite_inv taken
    apply setWrites_keeps (P := Done) (w := { w with trace := w.trace ++ completed op }) done
    rintro rfl
    rw [nothing_queued] at resolved
    cases resolved
  | rejectWrite j key =>
    obtain ⟨works, rejected, rfl⟩ := rejectWrite_inv taken
    apply setWrites_keeps (P := Done) done
    rintro rfl
    rw [nothing_queued] at rejected
    cases rejected
  | readOpen j addresses =>
    rw [readOpen_inv taken]
    exact done
  | readBatches j batchIds =>
    rw [readBatches_inv taken]
    exact done
  | hydrateLedger j history =>
    cases taken
    exact turn_keeps (P := Done) done fun same => absurd same serves
  | recoverAccruals j ok now =>
    cases taken
    exact turn_keeps (P := Done) done fun same => absurd same serves
  | restart j =>
    cases taken
    rw [restart_service, if_neg (Ne.symm serves)]
    exact done
  | boot j addresses batchIds history ok now =>
    obtain ⟨-, -, rfl⟩ := boot_inv taken
    rw [turn_service, if_neg (Ne.symm serves), restart_service, if_neg (Ne.symm serves)]
    exact done

end World

namespace Flushing

variable {ι : Type} [DecidableEq ι] {cfg : Deps} {i : ι}

-- What holds of the process while the method stands at its point.
def Holds (i : ι) (s : Flushing ι) : Prop :=
  match s.point with
  | .waiting true => (s.world.service i).accruals.size = 0
  | .returning | .resolved => World.Done (s.world.service i)
  | _ => True

omit [DecidableEq ι] in
theorem whenIdle_holds (world : World ι) (last lingering : Bool)
    (idle : last = true → (world.service i).accruals.size = 0) :
    Holds i (whenIdle i world last lingering) := by
  unfold whenIdle
  split
  next =>
    cases last with
    | true => exact idle rfl
    | false => trivial
  next quiet =>
    rw [Bool.or_eq_true, not_or, Bool.not_eq_true] at quiet
    cases last with
    | true => exact ⟨idle rfl, quiet.1⟩
    | false => trivial

theorem step_holds {s s' : Flushing ι} {a : FlushAction ι} (serves : serving i a)
    (early : inTime cfg i s a) (taken : step cfg i s a = some s') (held : Holds i s) :
    Holds i s' := by
  cases a with
  | turn a =>
    cases at_point : s.point with
    | resolved => simp [step, at_point] at taken
    | head =>
      simp only [step, at_point, Option.map_eq_some_iff] at taken
      obtain ⟨world, -, rfl⟩ := taken
      trivial
    | waiting last =>
      simp only [step, at_point, Option.map_eq_some_iff] at taken
      obtain ⟨world, moved, rfl⟩ := taken
      cases last with
      | false => trivial
      | true =>
        simp only [Holds, at_point] at held
        refine World.step_idle serves (fun inbound now same record own => ?_) moved held
        subst same
        simpa [inTime, at_point] using early rfl record own
    | returning =>
      simp only [step, at_point, Option.map_eq_some_iff] at taken
      obtain ⟨world, moved, rfl⟩ := taken
      simp only [Holds, at_point] at held
      refine World.step_done serves (fun inbound now same record own => ?_) moved held
      subst same
      simpa [inTime, at_point] using early rfl record own
  | resume now lingering =>
    cases at_point : s.point with
    | head =>
      simp only [step, at_point] at taken
      split at taken
      next idle =>
        cases taken
        exact whenIdle_holds s.world true lingering fun _ => idle
      next =>
        cases taken
        exact whenIdle_holds _ false lingering (by simp)
    | waiting last =>
      simp only [step, at_point, Option.some.injEq] at taken
      subst taken
      apply whenIdle_holds
      rintro rfl
      simpa [Holds, at_point] using held
    | returning =>
      simp only [step, at_point, Option.some.injEq] at taken
      subst taken
      simpa [Holds, at_point] using held
    | resolved => simp [step, at_point] at taken

theorem flush_leaves_nothing (start s : Flushing ι) (called : start.point = .head)
    (run : Transition.Run (step cfg i) (fun s a => serving i a ∧ inTime cfg i s a) start s)
    (resolved : s.point = .resolved) :
    (s.world.service i).accruals.size = 0 ∧ (s.world.service i).busy = false := by
  have init : Holds i start := by
    simp [Holds, called]
  have held : Holds i s :=
    run.invariant init fun _ _ _ held ok taken => step_holds ok.1 ok.2 taken held
  simpa [Holds, resolved, World.Done] using held

def resumed : FlushAction Unit := .resume (fun _ => 20) false

def drained (n : Nat) : List (FlushAction Unit) :=
  (List.replicate n (World.written ())).flatten.map .turn

-- A batch is in flight when the method is called, and a request of the operator settles meanwhile.
def lateSettlement : List (FlushAction Unit) :=
  (World.paidFor () "r1" 10 ++ World.paidFor () "r2" 20).map .turn ++ [resumed] ++
    (World.paidFor () "r3" 30).map .turn ++ [.turn (.payout () 0 (.paid "TX1") 40 40)] ++
    drained 5 ++ [resumed, resumed]

theorem late_settlement_left :
    ∃ s, Transition.Run (step World.demoDeps ()) (fun _ a => serving () a)
        ⟨World.start .empty, .head⟩ s ∧
      s.point = .resolved ∧ (s.world.service ()).accruals.size = 1 := by
  have shown : (Transition.replay (step World.demoDeps ()) ⟨World.start .empty, .head⟩
      lateSettlement).map (fun s => (s.point, (s.world.service ()).accruals.size)) =
        some (.resolved, 1) := by
    decide
  obtain ⟨s, replayed, facts⟩ := Option.map_eq_some_iff.mp shown
  simp only [Prod.mk.injEq] at facts
  refine ⟨s, Transition.run_of_replay lateSettlement ?_ replayed, facts⟩
  apply Transition.allows_of_forall
  simp [lateSettlement, drained, World.paidFor, World.written, resumed, serving, World.staysUp]

def settledOnce : World Unit :=
  (World.start .empty).turn () (Service.settleInbound World.demoDeps
    (Service.init.recordRouting "r1" "node-a" "OPERATOR" 10) ⟨"r1", "PAYER", "IN-r1", 2000⟩
    ⟨10, 10, 10⟩)

theorem flush_leaves_nothing_one_accrual :
    ∃ s : Flushing Unit, s.point = .resolved ∧
      (s.world.service ()).accruals.size = 0 ∧ (s.world.service ()).busy = false := by
  let labels : List (FlushAction Unit) :=
    [resumed, .turn (.payout () 0 (.paid "TX1") 40 40)] ++ drained 4 ++ [resumed, resumed, resumed]
  have shown : (Transition.replay (step World.demoDeps ()) ⟨settledOnce, .head⟩ labels).map
      (·.point) = some .resolved := by
    decide
  obtain ⟨s, replayed, resolved⟩ := Option.map_eq_some_iff.mp shown
  refine ⟨s, resolved, @flush_leaves_nothing Unit _ World.demoDeps () ⟨settledOnce, .head⟩ s rfl
    (Transition.run_of_replay labels ?_ replayed) resolved⟩
  apply Transition.allows_of_forall
  simp [labels, drained, World.written, resumed, serving, World.staysUp, inTime]

end Flushing

end X402Mesh.Settlement
