import X402Mesh.Settlement.Standing
import X402Mesh.Settlement.Tracking

set_option autoImplicit false

namespace X402Mesh.Settlement

open Registry Money Service

variable (cfg : Deps)

-- What an operator is owed for: records of its own, each of them with the property.
def OwedTo (P : SettlementRecord → Prop) (operatorAddress : String)
    (records : List SettlementRecord) : Prop :=
  ∀ r ∈ records, P r ∧ r.operatorAddress = operatorAddress

structure RowFrom (P : SettlementRecord → Prop) (row : PersistedAccrual) : Prop where
  records : ∃ records, row.records = records.map (·.stored) ∧ OwedTo P row.operatorAddress records

structure Due (P : SettlementRecord → Prop) (receiver : String) (amountAtomic : Int)
    (records : List SettlementRecord) : Prop where
  own : OwedTo P receiver records
  amount : amountAtomic = owed records

def JobFrom (P : SettlementRecord → Prop) (job : PayoutJob) : Prop :=
  Due P job.receiver job.amountAtomic job.records

def RequestFrom (P : SettlementRecord → Prop) (request : PayoutRequest) : Prop :=
  Due P request.receiver request.amountAtomic request.records

def PaymentFrom (P : SettlementRecord → Prop) (payment : Payment) : Prop :=
  ∃ records, payment.requestIds = records.map (·.requestId) ∧ OwedTo P payment.receiver records

-- The row that a queued write puts.
def StoreOp.row : StoreOp → Option PersistedAccrual
  | .putBatch _ row | .putOpenRow row => some row
  | _ => none

namespace Service

structure From (P : SettlementRecord → Prop) (svc : Service) : Prop where
  accruals : ∀ operatorAddress accrual, svc.accruals.get? operatorAddress = some accrual →
    OwedTo P operatorAddress accrual.records
  arrays : ∀ operatorAddress serial, OwedTo P operatorAddress (svc.arrays operatorAddress serial)
  queued : ∀ key, ∀ op ∈ svc.pending key, ∀ row ∈ op.row, RowFrom P row
  runs : ∀ run ∈ svc.payouts, JobFrom P run.job
  outbox : ∀ request ∈ svc.outbox, RequestFrom P request

theorem settleInbound_sound {svc : Service} (sound : Sound svc) (inbound : InboundSettlement)
    (now : Readings) : Sound (settleInbound cfg svc inbound now) := by
  by_cases batching : 0 < cfg.batchMinAtomic
  · rcases settleInbound_moves cfg batching svc sound inbound now with
      quiet | ⟨record, base, taken, -, waits | flushed⟩
    · exact quiet.sound sound
    · rw [waits]
      exact hold_sound cfg base record now.accruedAt (taken.kept.sound sound) taken.priced
        taken.claimed
    · rw [flushed]
      exact (taken.putAccrual_sound sound now.accruedAt).detach cfg _ _ _
  · rcases settleInbound_off cfg (by omega) svc inbound now with
      quiet | ⟨record, payout, base, kept, -, -, -, -, paid⟩
    · exact quiet.sound sound
    · rw [paid]
      exact (kept.sound sound).mono rfl rfl fun _ _ found => found

variable {P : SettlementRecord → Prop}

theorem from_init : From P init :=
  ⟨by simp [init], by simp [init, OwedTo], by simp, by simp [init], by simp [init]⟩

-- A call of `pay` is for the job that makes it.
theorem JobFrom.calls {job : PayoutJob} (due : JobFrom P job) {progress : Progress} :
    ∀ request ∈ calls cfg job progress, RequestFrom P request := by
  intro request member
  unfold Service.calls at member
  split at member
  next =>
    obtain rfl := List.mem_singleton.mp member
    exact due
  next => cases member

variable {cfg} {svc after : Service} (held : From P svc)

include held

theorem From.quiet (kept : Quiet svc after) : From P after where
  accruals := kept.accruals ▸ held.accruals
  arrays := kept.arrays ▸ held.arrays
  queued key op member row puts := by
    rcases kept.mem_pending member with old | ⟨_, rfl⟩
    · exact held.queued key op old row puts
    · cases puts
  runs := kept.payouts ▸ held.runs
  outbox := kept.outbox ▸ held.outbox

theorem From.grown {record : SettlementRecord} (own : P record) (accruedAt : Nat) :
    OwedTo P record.operatorAddress (svc.grown record accruedAt).records := by
  intro r member
  rw [grown_records, List.mem_append, List.mem_singleton] at member
  rcases member with old | rfl
  · unfold earlier at old
    cases found : svc.accruals.get? record.operatorAddress with
    | none => simp [found] at old
    | some accrual => exact held.accruals _ accrual found r (by simpa [found] using old)
  · exact ⟨own, rfl⟩

theorem From.putAccrual {record : SettlementRecord} (own : P record) (sound : Sound svc)
    (accruedAt : Nat) : From P (svc.putAccrual (svc.grown record accruedAt)) where
  accruals operatorAddress accrual found := by
    have keyed := svc.grown_operatorAddress record accruedAt sound
    by_cases same : operatorAddress = record.operatorAddress
    · subst same
      obtain rfl : svc.grown record accruedAt = accrual := by
        simpa [Service.putAccrual, OrderedMap.get?_set, keyed] using found
      exact held.grown own accruedAt
    · rw [putAccrual_other svc _ _ (by rwa [keyed])] at found
      exact held.accruals operatorAddress accrual found
  arrays operatorAddress serial := by
    have keyed := svc.grown_operatorAddress record accruedAt sound
    simp only [Service.putAccrual]
    split
    next same =>
      rw [same.1, keyed]
      exact held.grown own accruedAt
    next => exact held.arrays operatorAddress serial
  queued := held.queued
  runs := held.runs
  outbox := held.outbox

theorem From.hold {record : SettlementRecord} (own : P record) (sound : Sound svc)
    (accruedAt : Nat) : From P (hold cfg svc record accruedAt) where
  accruals operatorAddress accrual found := by
    rw [hold_get? cfg svc record accruedAt sound] at found
    split at found
    next same =>
      cases found
      rw [same]
      exact held.grown own accruedAt
    next => exact held.accruals operatorAddress accrual found
  arrays := by
    rw [hold_arrays]
    exact (held.putAccrual own sound accruedAt).arrays
  queued key op member row puts := by
    rw [hold_pending cfg svc record accruedAt sound, List.mem_append] at member
    rcases member with old | added
    · exact held.queued key op old row puts
    · split at added
      next =>
        rw [List.mem_singleton.mp added] at puts
        cases puts
      next => cases added
  runs := by
    rw [hold_payouts]
    exact held.runs
  outbox := by
    rw [hold_outbox]
    exact held.outbox

theorem From.detach {operatorAddress : String} {accrual : Accrual} (sound : Sound svc)
    (found : svc.accruals.get? operatorAddress = some accrual) (now : Nat) :
    From P (detach cfg svc operatorAddress accrual now) := by
  have due : JobFrom P (svc.detachedJob operatorAddress accrual now) :=
    ⟨held.accruals _ _ found, rfl⟩
  exact {
    accruals key other present := by
      rw [detach_accruals, OrderedMap.get?_erase] at present
      split at present
      next => cases present
      next => exact held.accruals key other present
    arrays := by
      rw [detach_arrays]
      exact held.arrays
    queued key op member row puts := by
      rw [detach_pending, List.mem_append] at member
      rcases member with old | added
      · exact held.queued key op old row puts
      · split at added
        next =>
          rcases List.mem_pair.mp added with rfl | rfl
          · cases puts
            refine ⟨accrual.records, rfl, ?_⟩
            have keyed := (sound _ _ found).keyed
            simpa [persisted, keyed] using held.accruals _ _ found
          · cases puts
        next => cases added
    runs run member := by
      rw [detach_payouts, List.mem_append, List.mem_singleton] at member
      rcases member with old | rfl
      · exact held.runs run old
      · exact due
    outbox request member := by
      rw [detach_outbox, List.mem_append] at member
      rcases member with old | new
      · exact held.outbox request old
      · exact JobFrom.calls cfg due request new }

theorem From.pay {record : SettlementRecord} (own : P record) :
    From P (runPayout cfg svc (directJob record (payoutOf record))) := by
  have due : JobFrom P (directJob record (payoutOf record)) := by
    refine ⟨?_, by simp [directJob, owed]⟩
    intro r inside
    obtain rfl := List.mem_singleton.mp inside
    exact ⟨own, rfl⟩
  refine ⟨held.accruals, held.arrays, held.queued, fun run member => ?_, fun request member => ?_⟩
  · rcases List.mem_append.mp member with old | new
    · exact held.runs run old
    · obtain rfl := List.mem_singleton.mp new
      exact due
  · rcases List.mem_append.mp member with old | new
    · exact held.outbox request old
    · exact JobFrom.calls cfg due request new

theorem From.resumePayout {index : Nat} {event : PayoutEvent} {attemptAt settledAt : Nat}
    (resumed : resumePayout cfg svc index event attemptAt settledAt = some after) :
    From P after := by
  obtain ⟨run, progress, found, -, kept⟩ := resumePayout_cases cfg svc after index event attemptAt
    settledAt resumed
  obtain ⟨accruals, arrays, -, -, -, payouts, outbox, -⟩ := discharged_frame cfg
    (moved cfg svc index run.job progress) run.job progress attemptAt
  have due := held.runs run (List.mem_of_getElem? found)
  apply From.quiet _ kept.quiet
  constructor
  · rw [accruals]
    exact held.accruals
  · rw [arrays]
    exact held.arrays
  · intro key op member row puts
    rw [discharged_pending, List.mem_append] at member
    rcases member with old | added
    · exact held.queued key op old row puts
    · split at added
      next =>
        obtain ⟨batchId, -, rfl⟩ := Option.map_eq_some_iff.mp (Option.mem_toList.mp added)
        cases puts
      next => cases added
  · intro other member
    rw [payouts] at member
    rcases List.mem_or_eq_of_mem_set member with old | rfl
    · exact held.runs other old
    · exact due
  · intro request member
    rw [outbox] at member
    rcases List.mem_append.mp member with old | new
    · exact held.outbox request old
    · exact JobFrom.calls cfg due request new

-- With batching off a settlement is only noted, or its record is paid on its own.
omit held in
theorem settleInbound_alone (off : ¬ 0 < cfg.batchMinAtomic) (svc : Service)
    (inbound : InboundSettlement) (now : Readings) :
    Quiet svc (settleInbound cfg svc inbound now) ∨
      ∃ record base, takenOn cfg svc inbound now = some record ∧ Quiet svc base ∧
        settleInbound cfg svc inbound now =
          runPayout cfg base (directJob record (payoutOf record)) := by
  cases taken : takenOn cfg svc inbound now with
  | none =>
    rcases settleInbound_off cfg (by omega) svc inbound now with
      quiet | ⟨record, payout, base, -, id, noted, unclaimed, -, paid⟩
    · exact .inl quiet
    · left
      unfold takenOn at taken
      obtain ⟨note, found⟩ := Option.isSome_iff_exists.mp noted
      rw [id] at unclaimed
      simp only [found, unclaimed, if_false] at taken
      cases opened : openRecord cfg inbound note now.createdAt with
      | ok record => simp [opened, Except.toOption] at taken
      | error e =>
        simp only [settleInbound, found, unclaimed, if_false, opened]
        exact (bookkeeping_of_ledger svc (svc.routing.erase inbound.requestId) svc.ledger
          (inbound.requestId :: svc.claimed) fun _ held => List.mem_cons_of_mem _ held).quiet
  | some record =>
    have entered := (bookkeeping_of_ledger svc (svc.routing.erase inbound.requestId) svc.ledger
      (inbound.requestId :: svc.claimed) fun _ held => List.mem_cons_of_mem _ held).trans
        (remember_bookkeeping cfg _ record)
    rw [settleInbound_taken cfg svc inbound now record taken]
    generalize remember cfg _ record = middle at entered ⊢
    have noted : Quiet svc { middle with accepted := middle.accepted ++ [record] } :=
      entered.quiet.trans ⟨rfl, rfl, rfl, rfl, fun _ held => held,
        fun key => ⟨[], by simp [pending, chain]⟩⟩
    unfold schedule
    cases parsed : bigInt record.payoutAtomic with
    | none => exact .inl entered.quiet
    | some payout =>
      have value : payoutOf record = payout := by simp [payoutOf, parsed]
      dsimp only
      split
      next => exact .inl (entered.trans (updateAll_bookkeeping cfg middle _ _)).quiet
      next => exact .inr ⟨record, _, rfl, noted, by simp [directJob, value]⟩

theorem From.settleInbound (sound : Sound svc) (inbound : InboundSettlement) (now : Readings)
    (own : ∀ record, takenOn cfg svc inbound now = some record → P record) :
    From P (settleInbound cfg svc inbound now) := by
  by_cases batching : 0 < cfg.batchMinAtomic
  · rcases settleInbound_accrues cfg batching svc sound inbound now with
      quiet | ⟨record, base, taken, -, kept, priced, claimed, waits, full⟩
    · exact held.quiet quiet.quiet
    · have noted : From P base := held.quiet { kept.quiet with }
      have based : Sound base := by
        have entered : Sound { svc with accepted := svc.accepted ++ [record] } :=
          sound.mono rfl rfl fun _ _ found => found
        exact entered.bookkeeping kept
      have new := own record taken
      cases filled : fills cfg svc record now.accruedAt with
      | false =>
        rw [waits filled]
        exact noted.hold new based now.accruedAt
      | true =>
        rw [full filled]
        have keyed := base.grown_operatorAddress record now.accruedAt based
        refine (noted.putAccrual new based now.accruedAt).detach
          (base.putAccrual_sound record now.accruedAt based priced claimed) ?_ now.flushedAt
        simp [Service.putAccrual, keyed]
  · rcases settleInbound_alone batching svc inbound now with
      quiet | ⟨record, base, taken, kept, paid⟩
    · exact held.quiet quiet
    · rw [paid]
      exact (held.quiet kept).pay (own record taken)

omit held in
theorem sumPayouts_owed (records : List SettlementRecord) (summed : Int)
    (sum : sumPayouts records = some summed) : summed = owed records := by
  induction records generalizing summed with
  | nil =>
    cases sum
    rfl
  | cons record rest ih =>
    simp only [sumPayouts, Option.bind_eq_bind, Option.bind_eq_some_iff, Option.pure_def,
      Option.some.injEq] at sum
    obtain ⟨payout, parsed, later, summedLater, rfl⟩ := sum
    simp [owed, payoutOf, parsed, ih later summedLater]

theorem From.recovered {row : PersistedAccrual} (stored : RowFrom P row) {handled : List String}
    {ops : List StoreOp} {runs : List PayoutRun} {now : Nat → Nat}
    (recovered : Recovered cfg svc after row.operatorAddress ops runs)
    (outcome : Outcome cfg now row (payable handled row) ops runs) : From P after := by
  obtain ⟨records, same, owedTo⟩ := stored.records
  -- What is still payable of a row is some of its records.
  obtain ⟨left, payables, within⟩ : ∃ left, payable handled row = left.map (·.stored) ∧
      OwedTo P row.operatorAddress left := by
    refine ⟨(records.filter (·.stored.usable)).filter fun r => r.stored.requestId.getD "" ∉ handled,
      ?_, fun r member => owedTo r (List.mem_filter.mp (List.mem_filter.mp member).1).1⟩
    simp only [payable, same, List.filter_map]
    rfl
  have whole : (payable handled row).map (·.cast) = left := by
    simp [payables, Function.comp_def]
  have under (batchId : String) : RowFrom P (rowUnder row (payable handled row) batchId) :=
    ⟨left, payables, within⟩
  have paid (batchId : String) (summed : Int) (resumed : Bool)
      (sum : sumPayouts ((payable handled row).map (·.cast)) = some summed) :
      JobFrom P (recoveredRun cfg row (payable handled row) batchId summed resumed).job := by
    rw [whole] at sum
    exact ⟨by simpa [recoveredRun, batchJob, whole] using within,
      by simpa [recoveredRun, batchJob, whole] using sumPayouts_owed left summed sum⟩
  have due : ∀ run ∈ runs, JobFrom P run.job := by
    intro run added
    cases outcome with
    | dropped | stopped => cases added
    | resumed batchId summed own sum | fresh batchId summed own sum =>
      obtain rfl := List.mem_singleton.mp added
      exact paid batchId summed _ sum
  constructor
  · rw [recovered.accruals]
    exact held.accruals
  · rw [recovered.arrays]
    exact held.arrays
  · intro key op member put puts
    rcases recovered.mem_pending member with old | ⟨_, rfl⟩ | ⟨-, added⟩
    · exact held.queued key op old put puts
    · cases puts
    · cases outcome with
      | dropped =>
        rw [List.mem_singleton.mp added] at puts
        unfold dropOp at puts
        split at puts <;> cases puts
      | stopped => cases added
      | resumed batchId =>
        rw [List.mem_singleton.mp added] at puts
        cases puts
        exact under batchId
      | fresh batchId =>
        rcases List.mem_pair.mp added with rfl | rfl
        · cases puts
          exact under batchId
        · cases puts
  · intro run member
    rw [recovered.payouts, List.mem_append] at member
    rcases member with old | added
    · exact held.runs run old
    · exact due run added
  · intro request member
    rw [recovered.outbox, List.mem_append] at member
    rcases member with old | added
    · exact held.outbox request old
    · obtain ⟨run, inside, called⟩ := List.mem_flatMap.mp added
      exact JobFrom.calls cfg (due run inside) request called

theorem From.setChain (key : String) (works : List (Work StoreOp))
    (kept : ∀ op ∈ WriteChain.pending works, ∀ row ∈ op.row, RowFrom P row) :
    From P (svc.setChain key works) where
  accruals := held.accruals
  arrays := held.arrays
  queued other op member row puts := by
    rw [pending_setChain] at member
    split at member
    next => exact kept op member row puts
    next => exact held.queued other op member row puts
  runs := held.runs
  outbox := held.outbox

end Service

namespace World

variable {ι : Type}

structure From (P : SettlementRecord → Prop) (w : World ι) : Prop where
  sound : ∀ i, Sound (w.service i)
  service : ∀ i, Service.From P (w.service i)
  openRows : ∀ key row, w.rows.openRows.get? key = some row → RowFrom P row
  batchRows : ∀ b row, w.rows.batchRows.get? b = some row → RowFrom P row
  reads : ∀ i, ∀ row ∈ (w.reads i).openRows ++ (w.reads i).batches, RowFrom P row
  landed : ∀ payment ∈ w.landed, PaymentFrom P payment
  called : ∀ request, .pay request ∈ w.trace → RequestFrom P request

variable {P Q : SettlementRecord → Prop}

theorem from_start : From P (start (ι := ι) .empty) where
  sound _ := sound_init
  service _ := from_init
  openRows key row found := by cases found
  batchRows b row found := by cases found
  reads i row member := by cases member
  landed payment member := by cases member
  called request member := by cases member

variable [DecidableEq ι]

theorem From.put {w : World ι} (held : From P w) (i : ι) (svc : Service) (sound : Sound svc)
    (service : Service.From P svc) : From P (w.put i svc) where
  sound j := by
    rw [put_service]
    split
    · exact sound
    · exact held.sound j
  service j := by
    rw [put_service]
    split
    · exact service
    · exact held.service j
  openRows := held.openRows
  batchRows := held.batchRows
  reads := held.reads
  landed := held.landed
  called := held.called

theorem From.ended {w : World ι} (held : From P w) (i : ι) : From P (w.turn i (w.service i)) := by
  have emptied : Service.From P { w.service i with outbox := [] } :=
    { held.service i with outbox := by simp }
  have kept := held.put i { w.service i with outbox := [] }
    ((held.sound i).mono rfl rfl fun _ _ found => found) emptied
  refine { kept with called := fun request member => ?_ }
  rcases List.mem_append.mp member with old | new
  · exact held.called request old
  · obtain ⟨sent, inside, same⟩ := List.mem_map.mp new
    cases same
    exact (held.service i).outbox request inside

-- No move of these takes a record on.
theorem from_moves : KeptByMoves cfg (From (ι := ι) P) fun _ _ _ => False where
  ended _ i held := held.ended i
  quiet _ i _ held kept := held.put i _ (kept.sound (held.sound i)) ((held.service i).quiet kept)
  hold _ _ _ _ _ _ _ _ new := new.elim
  take _ _ _ _ _ _ _ _ new := new.elim
  detach _ i operatorAddress accrual now held sound found :=
    held.put i _ (sound.detach cfg operatorAddress accrual now)
      ((held.service i).detach sound found now)

theorem From.turn {w : World ι} (held : From P w) (i : ι) {svc : Service} (sound : Sound svc)
    (service : Service.From P svc) : From P (w.turn i svc) := by
  rw [turn_eq]
  exact (held.put i svc sound service).ended i

theorem From.setWrites {w : World ι} (held : From P w) (i : ι) (key : String)
    (works : List (Work StoreOp))
    (kept : ∀ op ∈ WriteChain.pending works, ∀ row ∈ op.row, RowFrom P row) :
    From P (w.setWrites i key works) :=
  held.put i _ ((held.sound i).mono rfl rfl fun _ _ found => found)
    ((held.service i).setChain key works kept)

theorem From.callWrite {w w' : World ι} (held : From P w) {i : ι} {key : String}
    (taken : step cfg w (.callWrite i key) = some w') : From P w' := by
  obtain ⟨works, called, rfl⟩ := callWrite_inv taken
  obtain ⟨op, rest, before, after⟩ := WriteChain.pending_call _ _ _ called
  have pending : (w.service i).pending key = op :: rest := before
  apply held.setWrites
  intro written member row puts
  rw [after] at member
  rcases List.mem_cons.mp member with rfl | later
  · cases op with
    -- The array is serialised as it is now.
    | putOpen operatorAddress serial firstAt =>
      cases puts
      exact ⟨_, rfl, (held.service i).arrays operatorAddress serial⟩
    | _ =>
      apply (held.service i).queued key _ _ row puts
      rw [pending]
      exact List.mem_cons_self ..
  · exact (held.service i).queued key written (by simp [pending, later]) row puts

theorem From.applyWrite {w w' : World ι} (held : From P w) {i : ι} {key : String}
    (taken : step cfg w (.applyWrite i key) = some w') : From P w' := by
  obtain ⟨op, works, rows, applied, effect, rfl⟩ := applyWrite_inv taken
  have pending : (w.service i).pending key = op :: WriteChain.pending works :=
    WriteChain.pending_apply _ _ _ applied
  have queued := (held.service i).queued key
  rw [pending] at queued
  have kept := held.setWrites i key works fun written member =>
    queued written (List.mem_cons_of_mem _ member)
  refine { kept with openRows := fun other row found => ?_, batchRows := fun b row found => ?_ }
  · rcases openRow_after effect found with ⟨rfl, -⟩ | ⟨old, -⟩
    · exact queued _ (List.mem_cons_self ..) row rfl
    · exact held.openRows other row old
  · rcases batchRow_after effect found with rfl | ⟨old, -⟩
    · exact queued _ (List.mem_cons_self ..) row rfl
    · exact held.batchRows b row old

theorem From.resolveWrite {w w' : World ι} (held : From P w) {i : ι} {key : String}
    (taken : step cfg w (.resolveWrite i key) = some w') : From P w' := by
  obtain ⟨op, works, resolved, rfl⟩ := resolveWrite_inv taken
  have kept := held.setWrites i key works fun written member => by
    rw [WriteChain.pending_resolve _ _ _ resolved] at member
    exact (held.service i).queued key written member
  refine { kept with called := fun request member => ?_ }
  rcases List.mem_append.mp member with old | new
  · exact held.called request old
  · unfold completed at new
    split at new <;> simp at new

theorem From.rejectWrite {w w' : World ι} (held : From P w) {i : ι} {key : String}
    (taken : step cfg w (.rejectWrite i key) = some w') : From P w' := by
  obtain ⟨works, rejected, rfl⟩ := rejectWrite_inv taken
  exact held.setWrites i key works fun written member =>
    (held.service i).queued key written ((WriteChain.pending_reject _ _ rejected).subset member)

theorem From.payout {w w' : World ι} (held : From P w) {i : ι} {index : Nat} {event : PayoutEvent}
    {attemptAt settledAt : Nat}
    (taken : step cfg w (.payout i index event attemptAt settledAt) = some w') : From P w' := by
  obtain ⟨svc, run, progress, resumed, found, -, rfl⟩ := payout_inv taken
  have sound : Sound svc := by
    obtain ⟨other, ends, found, -, kept⟩ := resumePayout_cases cfg _ svc index event attemptAt
      settledAt resumed
    obtain ⟨accruals, arrays, claimed, -⟩ := discharged_frame cfg
      (moved cfg (w.service i) index other.job ends) other.job ends attemptAt
    apply kept.quiet.sound
    exact (held.sound i).mono arrays claimed fun _ _ held => accruals ▸ held
  have kept := held.turn i sound ((held.service i).resumePayout resumed)
  refine { kept with landed := fun payment member => ?_ }
  rcases List.mem_append.mp member with old | new
  · exact held.landed payment old
  · split at new
    next =>
      obtain rfl := List.mem_singleton.mp new
      have job := (held.service i).runs run (List.mem_of_getElem? found)
      exact ⟨run.job.records, rfl, job.own⟩
    next => cases new

theorem From.setReads {w : World ι} (held : From P w) (i : ι) (reads : Reads)
    (rows : ∀ row ∈ reads.openRows ++ reads.batches, RowFrom P row) :
    From P (w.setReads i reads) := by
  refine { held with reads := fun j => ?_ }
  rw [setReads_reads]
  split
  · exact rows
  · exact held.reads j

omit [DecidableEq ι] in
theorem From.loadAll {w : World ι} (held : From P w) (addresses batchIds : List String) :
    (∀ row ∈ w.rows.readOpen addresses, RowFrom P row) ∧
      ∀ row ∈ w.rows.readBatches batchIds, RowFrom P row := by
  constructor
  · intro row member
    obtain ⟨key, -, found⟩ := List.mem_filterMap.mp member
    exact held.openRows key row found
  · intro row member
    obtain ⟨b, -, found⟩ := List.mem_filterMap.mp (List.mem_filter.mp member).1
    exact held.batchRows b row found

theorem From.restart {w : World ι} (held : From P w) (i : ι) : From P (w.restart i) where
  sound j := by
    rw [restart_service]
    split
    · exact sound_init
    · exact held.sound j
  service j := by
    rw [restart_service]
    split
    · exact from_init
    · exact held.service j
  openRows := held.openRows
  batchRows := held.batchRows
  reads j := by
    rw [restart_reads]
    split
    · simp
    · exact held.reads j
  landed := held.landed
  called := held.called

theorem From.recovered {w : World ι} (held : From P w) (i : ι)
    (loaded : Option (List PersistedAccrual × List PersistedAccrual))
    (rows : ∀ both ∈ loaded, ∀ row ∈ both.2 ++ both.1, RowFrom P row) (now : Nat → Nat) :
    From P (w.turn i (Service.recoverAccruals cfg (w.service i) loaded now)) := by
  unfold Service.recoverAccruals
  cases stored : cfg.accrualStore with
  | false => exact held.ended i
  | true =>
    cases loaded with
    | none => exact held.ended i
    | some both =>
      have kept := recoverRows_induction cfg stored now
        (P := fun state => Sound state.svc ∧ Service.From P state.svc) (both.2 ++ both.1)
        (fun state row ops runs after member kept _ rowStep =>
          ⟨rowStep.recovered.sound kept.1,
            kept.2.recovered (rows both rfl row member) rowStep.recovered rowStep.outcome⟩)
        ⟨w.service i, [], false⟩ ⟨held.sound i, held.service i⟩
      exact held.turn i kept.1 kept.2

/-- A step takes on no record without the property. -/
def TakesOn (P : SettlementRecord → Prop) (w : World ι) : Action ι → Prop
  | .settleInbound i inbound now =>
    ∀ record, takenOn cfg (w.service i) inbound now = some record → P record
  | _ => True

theorem From.step {w w' : World ι} {a : Action ι} (held : From P w) (own : TakesOn cfg P w a)
    (taken : World.step cfg w a = some w') : From P w' := by
  cases a with
  | recordRouting i requestId nodeId operatorAddress now =>
    cases taken
    have quiet := recordRouting_quiet (w.service i) requestId nodeId operatorAddress now
    exact held.turn i (quiet.sound (held.sound i)) ((held.service i).quiet quiet)
  | settleInbound i inbound now =>
    cases taken
    exact held.turn i (settleInbound_sound cfg (held.sound i) inbound now)
      ((held.service i).settleInbound (held.sound i) inbound now own)
  | deadline i operatorAddress now =>
    rw [deadline_inv taken]
    exact (from_moves cfg).turn w i _
      ((from_moves cfg).flushAccrual w i held (held.sound i) operatorAddress now)
  | flushPayouts i now =>
    cases taken
    exact (from_moves cfg).flushPayouts w i held (held.sound i) now
  | payout => exact held.payout cfg taken
  | callWrite => exact held.callWrite cfg taken
  | applyWrite => exact held.applyWrite cfg taken
  | resolveWrite => exact held.resolveWrite cfg taken
  | rejectWrite => exact held.rejectWrite cfg taken
  | readOpen i addresses =>
    rw [readOpen_inv taken]
    refine held.setReads i _ fun row member => ?_
    rcases List.mem_append.mp member with opened | batch
    · exact (held.loadAll addresses []).1 row opened
    · exact held.reads i row (List.mem_append_right _ batch)
  | readBatches i batchIds =>
    rw [readBatches_inv taken]
    refine held.setReads i _ fun row member => ?_
    rcases List.mem_append.mp member with opened | batch
    · exact held.reads i row (List.mem_append_left _ opened)
    · exact (held.loadAll [] batchIds).2 row batch
  | hydrateLedger i history =>
    cases taken
    have quiet := (hydrateLedger_bookkeeping cfg (w.service i) history).quiet
    exact held.turn i (quiet.sound (held.sound i)) ((held.service i).quiet quiet)
  | recoverAccruals i ok now =>
    cases taken
    refine held.recovered cfg i _ (fun both loaded row member => ?_) now
    split at loaded
    next =>
      cases loaded
      exact held.reads i row (List.mem_append.mpr (List.mem_append.mp member).symm)
    next => cases loaded
  | restart i =>
    cases taken
    exact held.restart i
  | boot i addresses batchIds history ok now =>
    obtain ⟨-, -, rfl⟩ := boot_inv taken
    have quiet := (hydrateLedger_bookkeeping cfg .init history).quiet
    have hydrated := (held.restart i).put i _ (quiet.sound sound_init) (from_init.quiet quiet)
    have booted := hydrated.recovered cfg i
      (if ok then some (World.loadAll w.rows addresses batchIds) else none)
      (fun both loaded row member => ?_) now
    · simpa using booted
    · split at loaded
      next =>
        cases loaded
        rcases List.mem_append.mp member with batch | opened
        · exact (held.loadAll addresses batchIds).2 row batch
        · exact (held.loadAll addresses batchIds).1 row opened
      next => cases loaded

omit [DecidableEq ι] in
theorem From.mono {w : World ι} (held : From P w) (more : ∀ r, P r → Q r) : From Q w := by
  have owed {operatorAddress : String} {records : List SettlementRecord}
      (held : OwedTo P operatorAddress records) : OwedTo Q operatorAddress records :=
    fun r member => (held r member).imp_left (more r)
  have row {row : PersistedAccrual} (held : RowFrom P row) : RowFrom Q row := by
    obtain ⟨records, same, own⟩ := held.records
    exact ⟨records, same, owed own⟩
  have due {receiver : String} {amountAtomic : Int} {records : List SettlementRecord}
      (held : Due P receiver amountAtomic records) : Due Q receiver amountAtomic records :=
    ⟨owed held.own, held.amount⟩
  have service {svc : Service} (held : Service.From P svc) : Service.From Q svc :=
    ⟨fun key accrual found => owed (held.accruals key accrual found),
      fun key serial => owed (held.arrays key serial),
      fun key op member put puts => row (held.queued key op member put puts),
      fun run member => due (held.runs run member),
      fun request member => due (held.outbox request member)⟩
  refine ⟨held.sound, fun i => service (held.service i), fun key other found =>
    row (held.openRows key other found), fun b other found => row (held.batchRows b other found),
    fun i other member => row (held.reads i other member), fun payment member => ?_,
    fun request member => due (held.called request member)⟩
  obtain ⟨records, ids, own⟩ := held.landed payment member
  exact ⟨records, ids, owed own⟩

end World

section sound

variable {ι : Type} [DecidableEq ι]

theorem World.sound_step {w w' : World ι} {a : Action ι}
    (sound : ∀ i, Sound (w.service i)) (taken : World.step cfg w a = some w') :
    ∀ i, Sound (w'.service i) := by
  have turned (i : ι) (w : World ι) (sound : ∀ j, Sound (w.service j)) (svc : Service)
      (own : Sound svc) : ∀ j, Sound ((w.turn i svc).service j) := by
    intro j
    rw [World.turn_service]
    split
    · exact own.mono rfl rfl fun _ _ found => found
    · exact sound j
  have recovered (svc : Service) (own : Sound svc) (now : Nat → Nat)
      (loaded : Option (List PersistedAccrual × List PersistedAccrual)) :
      Sound (recoverAccruals cfg svc loaded now) := by
    unfold recoverAccruals
    cases stored : cfg.accrualStore with
    | false => exact own
    | true =>
      cases loaded with
      | none => exact own
      | some both =>
        exact recoverRows_induction cfg stored now (P := fun state => Sound state.svc)
          (both.2 ++ both.1)
          (fun _ _ _ _ _ _ kept _ rowStep => rowStep.recovered.sound kept)
          ⟨svc, [], false⟩ own
  have written (i : ι) (w : World ι) (sound : ∀ j, Sound (w.service j)) (key : String)
      (works : List (Work StoreOp)) : ∀ j, Sound ((w.setWrites i key works).service j) := by
    intro j
    rw [World.setWrites_service]
    split
    · exact (sound i).mono rfl rfl fun _ _ found => found
    · exact sound j
  have restarted (i : ι) : ∀ j, Sound ((w.restart i).service j) := by
    intro j
    rw [World.restart_service]
    split
    · exact sound_init
    · exact sound j
  cases a with
  | recordRouting i requestId nodeId operatorAddress now =>
    cases taken
    exact turned i w sound _ ((recordRouting_quiet _ _ _ _ _).sound (sound i))
  | settleInbound i inbound now =>
    cases taken
    exact turned i w sound _ (settleInbound_sound cfg (sound i) inbound now)
  | deadline i operatorAddress now =>
    rw [World.deadline_inv taken]
    apply turned i w sound
    cases found : (w.service i).accruals.get? operatorAddress with
    | none =>
      rw [flushAccrual_absent cfg _ _ now found]
      exact sound i
    | some accrual =>
      rw [flushAccrual_found cfg _ _ now accrual found (sound i _ _ found)]
      exact (sound i).detach cfg _ _ _
  | flushPayouts i now =>
    cases taken
    apply turned i w sound
    exact (flushPayouts_induction cfg now (P := fun _ => True) (fun _ _ _ _ _ _ _ => trivial)
      (w.service i) trivial (sound i)).2
  | payout i index event attemptAt settledAt =>
    obtain ⟨svc, run, progress, resumed, -, -, rfl⟩ := World.payout_inv taken
    apply turned i (w.recordOutcome run.job event progress) sound
    obtain ⟨other, ends, -, -, kept⟩ := resumePayout_cases cfg _ svc index event attemptAt
      settledAt resumed
    obtain ⟨accruals, arrays, claimed, -⟩ := discharged_frame cfg
      (moved cfg (w.service i) index other.job ends) other.job ends attemptAt
    apply kept.quiet.sound
    exact (sound i).mono arrays claimed fun _ _ held => accruals ▸ held
  | callWrite i key =>
    obtain ⟨works, -, rfl⟩ := World.callWrite_inv taken
    exact written i w sound key works
  | applyWrite i key =>
    obtain ⟨op, works, rows, -, -, rfl⟩ := World.applyWrite_inv taken
    exact written i (w.withRows rows) sound key works
  | resolveWrite i key =>
    obtain ⟨op, works, -, rfl⟩ := World.resolveWrite_inv taken
    exact written i { w with trace := w.trace ++ World.completed op } sound key works
  | rejectWrite i key =>
    obtain ⟨works, -, rfl⟩ := World.rejectWrite_inv taken
    exact written i w sound key works
  | readOpen i addresses =>
    rw [World.readOpen_inv taken]
    exact sound
  | readBatches i batchIds =>
    rw [World.readBatches_inv taken]
    exact sound
  | hydrateLedger i history =>
    cases taken
    exact turned i w sound _ ((hydrateLedger_bookkeeping cfg _ history).quiet.sound (sound i))
  | recoverAccruals i ok now =>
    cases taken
    exact turned i w sound _ (recovered _ (sound i) now _)
  | restart i =>
    cases taken
    exact restarted i
  | boot i addresses batchIds history ok now =>
    obtain ⟨-, -, rfl⟩ := World.boot_inv taken
    exact turned i (w.restart i) (restarted i) _
      (recovered _ ((hydrateLedger_bookkeeping cfg .init history).quiet.sound sound_init) now _)

theorem World.run_sound {rows : Rows} {w : World ι}
    (run : Transition.Run (World.step cfg) (fun _ _ => True) (World.start rows) w) (i : ι) :
    Sound (w.service i) := by
  refine run.invariant (P := fun w => ∀ i, Sound (w.service i)) (fun _ => sound_init) ?_ i
  exact fun _ _ _ sound _ taken => World.sound_step cfg sound taken

end sound

end X402Mesh.Settlement
