import X402Mesh.Settlement.Boot
import X402Mesh.Settlement.Flush
import X402Mesh.Settlement.Landed

set_option autoImplicit false

namespace X402Mesh.Settlement

open Registry Service

variable (cfg : Deps)

-- A row that `putOpen` writes for an accrual.
def OpenRow (row : PersistedAccrual) : Prop :=
  ∃ records firstAt, records ≠ [] ∧ (∀ r ∈ records, Priced r) ∧
    row = persisted row.operatorAddress records firstAt none

def Opens (arrays : String → Nat → List SettlementRecord) : StoreOp → Prop
  | .putOpen operatorAddress serial _ => arrays operatorAddress serial ≠ []
  | .putOpenRow row => OpenRow row
  | .putLedger _ => True
  | _ => False

namespace Service

def Queued (P : StoreOp → Prop) (svc : Service) : Prop :=
  ∀ key, ∀ op ∈ WriteChain.queued (svc.chain key), P op

section queued

variable {cfg} {P : StoreOp → Prop} {svc : Service} (queued : Queued P svc)

include queued

theorem Queued.enqueueWrite (key : String) (ops : List StoreOp) (ok : ∀ op ∈ ops, P op) :
    Queued P (svc.enqueueWrite key ops) := by
  intro other op member
  rw [chain_enqueueWrite, WriteChain.queued, List.flatMap_append, List.mem_append] at member
  rcases member with old | new
  · exact queued other op old
  · split at new
    · exact ok op (by simpa using new)
    · simp at new

theorem Queued.enqueueStore (key : String) (ops : List StoreOp) (ok : ∀ op ∈ ops, P op) :
    Queued P (enqueueStore cfg svc key ops) := by
  unfold Service.enqueueStore
  split
  · exact queued.enqueueWrite key ops ok
  · exact queued

variable (ledger : ∀ record, P (.putLedger record))

include ledger

theorem Queued.persistLedger (record : SettlementRecord) :
    Queued P (persistLedger cfg svc record) := by
  unfold Service.persistLedger
  split
  · exact queued.enqueueWrite _ _ (by simpa using ledger record)
  · exact queued

theorem Queued.update (requestId : String) (record : SettlementRecord) :
    Queued P (update cfg svc requestId record) := by
  unfold Service.update
  split
  · have revised : Queued P { svc with ledger := svc.ledger.set requestId record } := queued
    exact revised.persistLedger ledger record
  · exact queued

theorem Queued.updateAll (records : List SettlementRecord)
    (revise : SettlementRecord → SettlementRecord) : Queued P (updateAll cfg svc records revise) := by
  unfold Service.updateAll
  induction records generalizing svc with
  | nil => exact queued
  | cons record rest ih => exact ih (queued.update ledger _ _)

theorem Queued.remember (record : SettlementRecord) : Queued P (remember cfg svc record) := by
  have noted : Queued P { svc with ledger := svc.ledger.set record.requestId record } := queued
  exact noted.persistLedger ledger record

end queued

structure Unflushed (svc : Service) : Prop where
  sound : Sound svc
  payouts : svc.payouts = []
  outbox : svc.outbox = []
  arrays : ∀ operatorAddress serial, ∀ r ∈ svc.arrays operatorAddress serial, Priced r
  queued : Queued (Opens svc.arrays) svc

theorem unflushed_init : Unflushed init where
  sound := sound_init
  payouts := rfl
  outbox := rfl
  arrays := by simp [init]
  queued := fun key op member => by simp [WriteChain.queued, chain, init] at member

theorem Unflushed.bookkeeping {before after : Service} (unflushed : Unflushed before)
    (kept : Bookkeeping before after) (queued : Queued (Opens before.arrays) after) :
    Unflushed after where
  sound := unflushed.sound.bookkeeping kept
  payouts := kept.payouts.trans unflushed.payouts
  outbox := kept.outbox.trans unflushed.outbox
  arrays := kept.arrays ▸ unflushed.arrays
  queued := kept.arrays ▸ queued

theorem hydrateLedger_writeChains (svc : Service) (history : Option (List StoredRecord)) :
    (hydrateLedger cfg svc history).writeChains = svc.writeChains := by
  unfold hydrateLedger
  split
  · cases history with
    | none => rfl
    | some recent =>
      dsimp only
      generalize recent.reverse = raws
      induction raws generalizing svc with
      | nil => rfl
      | cons raw rest ih =>
        rw [List.foldl_cons, ih]
        cases raw.requestId <;> rfl
  · rfl

theorem Unflushed.hydrated {svc : Service} (unflushed : Unflushed svc)
    (history : Option (List StoredRecord)) : Unflushed (hydrateLedger cfg svc history) := by
  apply unflushed.bookkeeping (hydrateLedger_bookkeeping cfg svc history)
  intro key op member
  rw [chain, hydrateLedger_writeChains] at member
  exact unflushed.queued key op member

theorem Opens.mono {before after : String → Nat → List SettlementRecord}
    (grows : ∀ operatorAddress serial, before operatorAddress serial ≠ [] →
      after operatorAddress serial ≠ []) {op : StoreOp} (opens : Opens before op) :
    Opens after op := by
  cases op with
  | putOpen operatorAddress serial => exact grows operatorAddress serial opens
  | _ => exact opens

theorem Unflushed.hold {svc : Service} (unflushed : Unflushed svc) (record : SettlementRecord)
    (accruedAt : Nat) (priced : Priced record) (claimed : record.requestId ∈ svc.claimed) :
    Unflushed (Service.hold cfg svc record accruedAt) := by
  have keyed := svc.grown_operatorAddress record accruedAt unflushed.sound
  have grown := svc.grown_sound record accruedAt unflushed.sound priced claimed
  have after (operatorAddress : String) (serial : Nat) :
      (Service.hold cfg svc record accruedAt).arrays operatorAddress serial =
        if operatorAddress = record.operatorAddress ∧
            serial = (svc.grown record accruedAt).serial then
          (svc.grown record accruedAt).records
        else svc.arrays operatorAddress serial := by
    rw [hold_arrays, putAccrual, keyed]
  constructor
  · exact hold_sound cfg svc record accruedAt unflushed.sound priced claimed
  · rw [hold_payouts, unflushed.payouts]
  · rw [hold_outbox, unflushed.outbox]
  · intro operatorAddress serial
    rw [after]
    split
    · exact grown.priced
    · exact unflushed.arrays operatorAddress serial
  · have kept : Queued (Opens (Service.hold cfg svc record accruedAt).arrays)
        (svc.putAccrual (svc.grown record accruedAt)) := by
      intro key op member
      apply Opens.mono _ (unflushed.queued key op member)
      intro operatorAddress serial filled
      rw [after]
      split
      · exact grown.nonempty
      · exact filled
    apply kept.enqueueStore
    intro op member
    obtain rfl := List.mem_singleton.mp member
    change (Service.hold cfg svc record accruedAt).arrays _ _ ≠ []
    rw [after, keyed, if_pos ⟨rfl, rfl⟩]
    exact grown.nonempty

-- The record takes its operator's accrual to the threshold or to the size cap.
def fills (svc : Service) (record : SettlementRecord) (accruedAt : Nat) : Bool :=
  payoutOf record ≠ 0 ∧
    ((svc.grown record accruedAt).totalAtomic ≥ cfg.batchMinAtomic ∨
      (svc.grown record accruedAt).records.length ≥ cfg.payoutBatchMaxRequests)

theorem grown_congr {before after : Service} (accruals : after.accruals = before.accruals)
    (nextSerial : after.nextSerial = before.nextSerial) (record : SettlementRecord)
    (accruedAt : Nat) : after.grown record accruedAt = before.grown record accruedAt := by
  unfold grown extended
  rw [accruals, nextSerial]

theorem takenOn_some {svc : Service} {inbound : InboundSettlement} {now : Readings}
    {record : SettlementRecord} (taken : takenOn cfg svc inbound now = some record) :
    record.requestId = inbound.requestId ∧ SplitHolds record := by
  unfold takenOn at taken
  split at taken
  next => cases taken
  next note noted =>
    split at taken
    next => cases taken
    next =>
      cases opened : openRecord cfg inbound note now.createdAt with
      | error e => simp [opened, Except.toOption] at taken
      | ok own =>
        obtain rfl : own = record := by simpa [opened, Except.toOption] using taken
        obtain ⟨id, -, holds⟩ := openRecord_ok cfg inbound note now.createdAt own opened
        exact ⟨id, holds⟩

theorem Unflushed.refused {svc : Service} (unflushed : Unflushed svc) (inbound : InboundSettlement)
    (now : Readings) (refused : takenOn cfg svc inbound now = none) :
    Unflushed (Service.settleInbound cfg svc inbound now) := by
  have claim (claimed : List String) (kept : ∀ id ∈ svc.claimed, id ∈ claimed) :=
    unflushed.bookkeeping (bookkeeping_of_ledger svc (svc.routing.erase inbound.requestId)
      svc.ledger claimed kept) unflushed.queued
  unfold takenOn at refused
  unfold Service.settleInbound
  cases noted : svc.routing.get? inbound.requestId with
  | none => exact unflushed
  | some note =>
    by_cases duplicate : inbound.requestId ∈ svc.claimed
    · simpa [duplicate] using claim svc.claimed fun _ held => held
    · simp only [noted, duplicate, if_false] at refused ⊢
      cases opened : openRecord cfg inbound note now.createdAt with
      | error e => exact claim _ fun _ held => List.mem_cons_of_mem _ held
      | ok record =>
        rw [opened] at refused
        cases refused

theorem push_grown (svc : Service) (record : SettlementRecord) (accruedAt flushedAt : Nat) :
    push cfg svc record (payoutOf record) accruedAt flushedAt =
      if (svc.grown record accruedAt).totalAtomic ≥ cfg.batchMinAtomic then
        flushAccrual cfg (svc.putAccrual (svc.grown record accruedAt)) record.operatorAddress
          flushedAt
      else if (svc.grown record accruedAt).records.length ≥ cfg.payoutBatchMaxRequests then
        flushAccrual cfg (svc.putAccrual (svc.grown record accruedAt)) record.operatorAddress
          flushedAt
      else hold cfg svc record accruedAt := rfl

theorem push_waits {svc : Service} {record : SettlementRecord} {accruedAt : Nat}
    (owes : payoutOf record ≠ 0) (waits : fills cfg svc record accruedAt = false)
    (flushedAt : Nat) :
    push cfg svc record (payoutOf record) accruedAt flushedAt = hold cfg svc record accruedAt := by
  simp only [fills, decide_eq_false_iff_not, not_and, not_or] at waits
  obtain ⟨below, few⟩ := waits owes
  rw [push_grown, if_neg below, if_neg few]

theorem push_fills {svc : Service} {record : SettlementRecord} {accruedAt : Nat}
    (sound : Sound svc) (priced : Priced record) (claimed : record.requestId ∈ svc.claimed)
    (full : fills cfg svc record accruedAt = true) (flushedAt : Nat) :
    push cfg svc record (payoutOf record) accruedAt flushedAt =
      detach cfg (svc.putAccrual (svc.grown record accruedAt)) record.operatorAddress
        (svc.grown record accruedAt) flushedAt := by
  have flushed : flushAccrual cfg (svc.putAccrual (svc.grown record accruedAt))
      record.operatorAddress flushedAt =
        detach cfg (svc.putAccrual (svc.grown record accruedAt)) record.operatorAddress
          (svc.grown record accruedAt) flushedAt := by
    apply flushAccrual_found
    · simp [putAccrual, svc.grown_operatorAddress record accruedAt sound]
    · exact svc.grown_sound record accruedAt sound priced claimed
  simp only [fills, decide_eq_true_eq] at full
  rw [push_grown]
  rcases full.2 with reached | capped
  · rw [if_pos reached]
    exact flushed
  · rw [if_pos capped, ite_self]
    exact flushed

theorem Unflushed.accepting {svc : Service} (unflushed : Unflushed svc)
    (accepted : List SettlementRecord) : Unflushed { svc with accepted := accepted } where
  sound := unflushed.sound.mono rfl rfl fun _ _ found => found
  payouts := unflushed.payouts
  outbox := unflushed.outbox
  arrays := unflushed.arrays
  queued := unflushed.queued

-- A record that is taken on waits in its accrual, or fills it and takes it away.
theorem Unflushed.taken {svc : Service} (unflushed : Unflushed svc)
    (batching : 0 < cfg.batchMinAtomic) (inbound : InboundSettlement) (now : Readings)
    (record : SettlementRecord) (taken : takenOn cfg svc inbound now = some record) :
    (fills cfg svc record now.accruedAt = false →
      Unflushed (Service.settleInbound cfg svc inbound now)) ∧
    (fills cfg svc record now.accruedAt = true → ∃ base, Unflushed base ∧
      Service.settleInbound cfg svc inbound now =
        detach cfg (base.putAccrual (base.grown record now.accruedAt)) record.operatorAddress
          (base.grown record now.accruedAt) now.flushedAt) := by
  obtain ⟨id, holds⟩ := takenOn_some cfg taken
  obtain ⟨_, payout, _, _, paid, _, nonnegative, _⟩ := holds.split
  have value : payoutOf record = payout := by simp [payoutOf, paid]
  let claiming : Service :=
    { svc with
      routing := svc.routing.erase inbound.requestId
      claimed := inbound.requestId :: svc.claimed }
  have claim : Bookkeeping svc claiming :=
    bookkeeping_of_ledger svc (svc.routing.erase inbound.requestId) svc.ledger
      (inbound.requestId :: svc.claimed) fun _ held => List.mem_cons_of_mem _ held
  have remembered := remember_bookkeeping cfg claiming record
  have held : Queued (Opens svc.arrays) claiming := unflushed.queued
  have queued : Queued (Opens svc.arrays) (remember cfg claiming record) :=
    held.remember (fun _ => trivial) record
  have known : record.requestId ∈ (remember cfg claiming record).claimed :=
    remembered.claimed _ (by rw [id]; exact List.mem_cons_self ..)
  rw [settleInbound_taken cfg svc inbound now record taken]
  change (_ → Unflushed (schedule cfg (remember cfg claiming record) record now)) ∧
    (_ → ∃ base, _ ∧ schedule cfg (remember cfg claiming record) record now = _)
  have entered := claim.trans remembered
  generalize remember cfg claiming record = middle at entered known queued ⊢
  have settled := unflushed.bookkeeping entered queued
  unfold schedule
  simp only [paid]
  by_cases zero : payout = 0
  · rw [if_pos zero]
    have waits : fills cfg svc record now.accruedAt = false := by simp [fills, value, zero]
    refine ⟨fun _ => settled.bookkeeping (updateAll_bookkeeping cfg middle _ _) ?_, ?_⟩
    · exact settled.queued.updateAll (fun _ => trivial) _ _
    · intro full
      rw [waits] at full
      cases full
  · rw [if_neg zero, if_pos batching]
    have priced : Priced record := ⟨holds, by omega⟩
    have accepting := settled.accepting (middle.accepted ++ [record])
    have updated := update_bookkeeping cfg { middle with accepted := middle.accepted ++ [record] }
      record.requestId { record with status := .accrued }
    have base := accepting.bookkeeping updated (accepting.queued.update (fun _ => trivial) _ _)
    have grown : (update cfg { middle with accepted := middle.accepted ++ [record] }
        record.requestId { record with status := .accrued }).grown record now.accruedAt =
          svc.grown record now.accruedAt :=
      grown_congr (updated.accruals.trans entered.accruals)
        (updated.nextSerial.trans entered.nextSerial) record now.accruedAt
    have same : fills cfg (update cfg { middle with accepted := middle.accepted ++ [record] }
        record.requestId { record with status := .accrued }) record now.accruedAt =
          fills cfg svc record now.accruedAt := by
      simp only [fills, grown]
    have claimed := updated.claimed _ known
    rw [← same, ← value]
    unfold accrue
    refine ⟨fun waits => ?_, fun full => ⟨_, base, ?_⟩⟩
    · rw [push_waits cfg (by omega) waits]
      exact base.hold cfg record now.accruedAt priced claimed
    · exact push_fills cfg base.sound priced claimed full now.flushedAt

-- The first call of `pay` in a turn is for a batch.
def PaysBatch (outbox : List PayoutRequest) : Prop :=
  ∃ request rest b, outbox = request :: rest ∧ request.requestId = "batch/" ++ b

theorem PaysBatch.append {outbox : List PayoutRequest} (pays : PaysBatch outbox)
    (more : List PayoutRequest) : PaysBatch (outbox ++ more) := by
  obtain ⟨request, rest, b, rfl, named⟩ := pays
  exact ⟨request, rest ++ more, b, rfl, named⟩

theorem calls_start (able : cfg.attempts ≠ 0) {job : PayoutJob} (asks : job.checkLandedFirst = false) :
    calls cfg job (Progress.start cfg.attempts job) = [payoutRequest cfg job] := by
  have first : Progress.start cfg.attempts job = .paying 1 := by
    simp only [Progress.start, asks, Bool.false_eq_true, if_false, Progress.firstAttempt]
    rw [if_pos (by omega)]
  rw [first]
  rfl

theorem detach_pays (able : cfg.attempts ≠ 0) {svc : Service} (quiet : svc.outbox = [])
    (operatorAddress : String) (accrual : Accrual) (now : Nat) :
    PaysBatch (detach cfg svc operatorAddress accrual now).outbox := by
  rw [detach_outbox, quiet, calls_start cfg able rfl]
  exact ⟨_, [], svc.detachedId now, rfl, rfl⟩

theorem flushAccrual_pays {svc : Service} (pays : PaysBatch svc.outbox) (operatorAddress : String)
    (now : Nat) : PaysBatch (flushAccrual cfg svc operatorAddress now).outbox := by
  unfold flushAccrual
  split
  next => exact pays
  next accrual found =>
    split
    next => exact pays
    next =>
      dsimp only
      split
      next => exact pays
      next summed sum =>
        simp only [carve, runPayout, enqueueStore_outbox]
        exact pays.append _

-- Whichever accrual comes first is paid, and the others only add to it.
theorem flushPayouts_pays (able : cfg.attempts ≠ 0) {svc : Service} (sound : Sound svc)
    (quiet : svc.outbox = []) (accrues : svc.accruals.size ≠ 0) (now : Nat → Nat) :
    PaysBatch (flushPayouts cfg svc now).outbox := by
  cases listed : svc.accruals.keys with
  | nil =>
    apply absurd _ accrues
    rw [OrderedMap.size_eq_zero]
    intro key
    rw [OrderedMap.get?_eq_none, listed]
    simp
  | cons key rest =>
    obtain ⟨accrual, found⟩ := (OrderedMap.mem_keys svc.accruals key).mp (by simp [listed])
    have first : PaysBatch (flushAccrual cfg svc key (now svc.batchSeq)).outbox := by
      rw [flushAccrual_found cfg svc key _ accrual found (sound _ _ found)]
      exact detach_pays cfg able quiet key accrual _
    rw [flushPayouts, listed, List.foldl_cons]
    generalize flushAccrual cfg svc key (now svc.batchSeq) = carved at first ⊢
    clear listed
    induction rest generalizing carved with
    | nil => exact first
    | cons other rest ih => exact ih _ (flushAccrual_pays cfg first other _)

theorem openRow_owes {row : PersistedAccrual} (opened : OpenRow row) :
    row.batchId = none ∧ ∃ summed, amount (payable [] row) = some summed ∧ summed ≠ 0 := by
  obtain ⟨records, firstAt, nonempty, priced, same⟩ := opened
  have whole : payable [] row = records.map (·.stored) := by
    rw [same]
    simp [payable, persisted, SettlementRecord.usable_stored]
  refine ⟨by rw [same]; rfl, owed records, ?_, ?_⟩
  · rw [whole, Service.amount, List.map_map]
    have back : records.map ((·.cast) ∘ SettlementRecord.stored) = records := by
      simp [Function.comp_def, SettlementRecord.cast_stored]
    rw [back]
    exact sumPayouts_priced records priced
  · have positive := owed_positive records nonempty priced
    omega

-- Recovery pays the first open row that it reads, once no batch row comes before it.
theorem recoverAccruals_pays (able : cfg.attempts ≠ 0) (stored : cfg.accrualStore = true)
    {svc : Service} (quiet : svc.outbox = []) (row : PersistedAccrual)
    (rest : List PersistedAccrual) (opened : OpenRow row) (now : Nat → Nat) :
    PaysBatch ((row :: rest).foldl (recoverRow cfg now) ⟨svc, [], false⟩).svc.outbox := by
  obtain ⟨unnamed, summed, sum, owes⟩ := openRow_owes opened
  have under : resumedId row = none := by simp [resumedId, unnamed]
  obtain ⟨ops, runs, outcome, recovered, -⟩ :=
    recoverRow_outcome cfg stored now ⟨svc, [], false⟩ rfl row
  have first : PaysBatch (recoverRow cfg now ⟨svc, [], false⟩ row).svc.outbox := by
    rw [recovered.outbox, quiet]
    cases outcome with
    | dropped none_owed =>
      rcases none_owed with empty | zero
      · rw [Service.amount, empty] at sum
        exact absurd (Option.some.inj sum).symm owes
      · rw [Service.amount, zero] at sum
        exact absurd (Option.some.inj sum).symm owes
    | stopped unsummed =>
      rw [Service.amount, unsummed] at sum
      cases sum
    | resumed b _ own =>
      rw [under] at own
      cases own
    | fresh b total =>
      rw [List.flatMap_singleton, recoveredRun, calls_start cfg able rfl]
      exact ⟨_, [], b, rfl, rfl⟩
  rw [List.foldl_cons]
  exact recoverRows_induction cfg stored now (P := fun state => PaysBatch state.svc.outbox) rest
    (fun state row ops runs after _ held _ rowStep => by
      rw [rowStep.recovered.outbox]
      exact held.append _) _ first

end Service

namespace World

variable {ι : Type}

-- Every call of `pay` for a batch comes after a row with its records was written.
def WriteAhead (w : World ι) : Prop :=
  ∀ before request after b, w.trace = before ++ .pay request :: after →
    request.requestId = "batch/" ++ b →
    ∃ row, .putBatch b row ∈ before ∧ row.records = request.records.map (·.stored)

def OneId (w : World ι) : Prop :=
  ∀ p ∈ w.landed, ∀ q ∈ w.landed, ∀ id ∈ p.requestIds, id ∈ q.requestIds →
    p.payoutId = q.payoutId

-- The step carves a batch, out of an accrual or of an open row that recovery has read.
def carves (w : World ι) : Action ι → Bool
  | .settleInbound i inbound now =>
    (takenOn cfg (w.service i) inbound now).any fun record =>
      fills cfg (w.service i) record now.accruedAt
  | .deadline i operatorAddress _ => ((w.service i).accruals.get? operatorAddress).isSome
  | .flushPayouts i _ => (w.service i).accruals.size ≠ 0
  | .recoverAccruals i ok _ => ok && !(w.reads i).openRows.isEmpty
  | .boot _ addresses _ _ ok _ => ok && !(w.rows.readOpen addresses).isEmpty
  | _ => false

structure Uncarved (w : World ι) : Prop where
  service : ∀ i, (w.service i).Unflushed
  batchRows : ∀ b, w.rows.batchRows.get? b = none
  openRows : ∀ key row, w.rows.openRows.get? key = some row → OpenRow row
  batches : ∀ i, (w.reads i).batches = []
  read : ∀ i, ∀ row ∈ (w.reads i).openRows, OpenRow row
  landed : w.landed = []
  trace : w.trace = []

theorem uncarved_start : Uncarved (start (ι := ι) .empty) where
  service _ := unflushed_init
  batchRows _ := rfl
  openRows key row stored := by cases stored
  batches _ := rfl
  read i row member := by cases member
  landed := rfl
  trace := rfl

variable [DecidableEq ι]

section uncarved

variable {cfg} {w w' : World ι} (uncarved : Uncarved w)

include uncarved

theorem Uncarved.put {i : ι} {svc : Service} (own : svc.Unflushed) : Uncarved (w.put i svc) :=
  { uncarved with
    service := fun j => by
      rw [put_service]
      split
      · exact own
      · exact uncarved.service j }

theorem Uncarved.turn {i : ι} {svc : Service} (own : svc.Unflushed) : Uncarved (w.turn i svc) := by
  have same : w.turn i svc = w.put i svc := by
    simp only [World.turn, World.put, own.outbox, List.map_nil, List.append_nil]
    congr 1
    rw [← own.outbox]
  rw [same]
  exact uncarved.put own

theorem Uncarved.setWrites {i : ι} {key : String} {works : List (Work StoreOp)}
    (kept : ∀ op ∈ WriteChain.queued works, Opens (w.service i).arrays op) :
    Uncarved (w.setWrites i key works) := by
  have own := uncarved.service i
  apply uncarved.put
  refine { own with sound := own.sound.mono rfl rfl (fun _ _ found => found), queued := ?_ }
  intro other op member
  rw [chain_setChain] at member
  split at member
  · exact kept op member
  · exact own.queued other op member

omit [DecidableEq ι] in
theorem Uncarved.readOpen (addresses : List String) :
    ∀ row ∈ w.rows.readOpen addresses, OpenRow row := by
  intro row member
  obtain ⟨key, -, found⟩ := List.mem_filterMap.mp member
  exact uncarved.openRows key row found

omit [DecidableEq ι] in
theorem Uncarved.readBatches (batchIds : List String) : w.rows.readBatches batchIds = [] := by
  have none_stored : batchIds.filterMap w.rows.batchRows.get? = [] :=
    List.filterMap_eq_nil_iff.mpr fun b _ => uncarved.batchRows b
  rw [Rows.readBatches, none_stored]
  rfl

theorem Uncarved.restart (i : ι) : Uncarved (w.restart i) where
  service j := by
    rw [restart_service]
    split
    · exact unflushed_init
    · exact uncarved.service j
  batchRows := uncarved.batchRows
  openRows := uncarved.openRows
  batches j := by
    rw [restart_reads]
    split
    · rfl
    · exact uncarved.batches j
  read j := by
    rw [restart_reads]
    split
    · simp
    · exact uncarved.read j
  landed := uncarved.landed
  trace := uncarved.trace

theorem Uncarved.callWrite {i : ι} {key : String}
    (taken : step cfg w (.callWrite i key) = some w') : Uncarved w' := by
  obtain ⟨works, called, rfl⟩ := callWrite_inv taken
  obtain ⟨op, rest, before, after⟩ := WriteChain.queued_call _ _ _ called
  have queued := (uncarved.service i).queued key
  rw [before, List.forall_mem_cons] at queued
  apply uncarved.setWrites
  rw [after, List.forall_mem_cons]
  refine ⟨?_, queued.2⟩
  cases op with
  | putOpen operatorAddress serial firstAt =>
    exact ⟨_, firstAt, queued.1, (uncarved.service i).arrays operatorAddress serial, rfl⟩
  | _ => exact queued.1

theorem Uncarved.applyWrite {i : ι} {key : String}
    (taken : step cfg w (.applyWrite i key) = some w') : Uncarved w' := by
  obtain ⟨op, works, rows, applied, effect, rfl⟩ := applyWrite_inv taken
  obtain ⟨member, same⟩ := WriteChain.queued_apply _ _ _ applied
  have queued := (uncarved.service i).queued key
  have kept : Uncarved (w.setWrites i key works) := uncarved.setWrites (same ▸ queued)
  have own := queued op member
  cases op with
  | putOpenRow row =>
    cases effect
    refine { kept with openRows := fun other found stored => ?_ }
    change (w.rows.putOpen row).openRows.get? other = some found at stored
    simp only [Rows.putOpen, OrderedMap.get?_set] at stored
    split at stored
    · cases stored
      exact own
    · exact uncarved.openRows other found stored
  | putLedger record =>
    cases effect
    exact kept
  | putOpen => cases effect
  | _ => cases own

theorem Uncarved.resolveWrite {i : ι} {key : String}
    (taken : step cfg w (.resolveWrite i key) = some w') : Uncarved w' := by
  obtain ⟨op, works, resolved, rfl⟩ := resolveWrite_inv taken
  have before := WriteChain.queued_resolve _ _ _ resolved
  have queued := (uncarved.service i).queued key
  rw [before, List.forall_mem_cons] at queued
  have kept : Uncarved (w.setWrites i key works) := uncarved.setWrites queued.2
  refine { kept with trace := ?_ }
  change w.trace ++ completed op = []
  cases op with
  | putBatch => cases queued.1
  | _ => simpa [completed] using uncarved.trace

omit [DecidableEq ι] in
theorem Uncarved.settleInbound (batching : 0 < cfg.batchMinAtomic) {i : ι}
    {inbound : InboundSettlement} {now : Readings}
    (stays : carves cfg w (.settleInbound i inbound now) = false) :
    (Service.settleInbound cfg (w.service i) inbound now).Unflushed := by
  cases taken : takenOn cfg (w.service i) inbound now with
  | none => exact (uncarved.service i).refused cfg inbound now taken
  | some record =>
    apply ((uncarved.service i).taken cfg batching inbound now record taken).1
    simpa [carves, taken] using stays

omit [DecidableEq ι] uncarved in
theorem recovers_nothing (svc : Service) (openRows : List PersistedAccrual) (ok : Bool)
    (now : Nat → Nat) (nothing : (ok && !openRows.isEmpty) = false) :
    Service.recoverAccruals cfg svc (if ok then some (openRows, []) else none) now = svc := by
  unfold Service.recoverAccruals
  cases ok with
  | false => simp
  | true =>
    obtain rfl : openRows = [] := by simpa using nothing
    simp

theorem Uncarved.step (batching : 0 < cfg.batchMinAtomic) {a : Action ι}
    (stays : carves cfg w a = false) (taken : World.step cfg w a = some w') : Uncarved w' := by
  cases a with
  | recordRouting i requestId nodeId operatorAddress now =>
    cases taken
    have own := uncarved.service i
    exact uncarved.turn
      { own with sound := own.sound.mono rfl rfl fun _ _ found => found, queued := own.queued }
  | settleInbound i inbound now =>
    cases taken
    exact uncarved.turn (uncarved.settleInbound batching stays)
  | deadline i operatorAddress now =>
    have absent : (w.service i).accruals.get? operatorAddress = none := by
      simpa [carves] using stays
    rw [deadline_inv taken, flushAccrual_absent cfg _ _ now absent]
    exact uncarved.turn (uncarved.service i)
  | flushPayouts i now =>
    cases taken
    have idle : (w.service i).accruals.size = 0 := by simpa [carves] using stays
    rw [flushPayouts_idle cfg (w.service i) idle]
    exact uncarved.turn (uncarved.service i)
  | payout i index =>
    obtain ⟨svc, run, progress, -, found, -⟩ := payout_inv taken
    rw [(uncarved.service i).payouts] at found
    cases found
  | callWrite => exact uncarved.callWrite taken
  | applyWrite => exact uncarved.applyWrite taken
  | resolveWrite => exact uncarved.resolveWrite taken
  | rejectWrite i key =>
    obtain ⟨works, rejected, rfl⟩ := rejectWrite_inv taken
    apply uncarved.setWrites
    intro op member
    exact (uncarved.service i).queued key op (WriteChain.queued_reject _ _ rejected op member)
  | readOpen i addresses =>
    rw [readOpen_inv taken]
    refine { uncarved with batches := fun j => ?_, read := fun j => ?_ } <;>
      rw [setReads_reads] <;> split
    · exact uncarved.batches i
    · exact uncarved.batches j
    · exact uncarved.readOpen addresses
    · exact uncarved.read j
  | readBatches i batchIds =>
    rw [readBatches_inv taken]
    refine { uncarved with batches := fun j => ?_, read := fun j => ?_ } <;>
      rw [setReads_reads] <;> split
    · exact uncarved.readBatches batchIds
    · exact uncarved.batches j
    · exact uncarved.read i
    · exact uncarved.read j
  | hydrateLedger i history =>
    cases taken
    exact uncarved.turn ((uncarved.service i).hydrated cfg history)
  | recoverAccruals i ok now =>
    cases taken
    rw [uncarved.batches i, recovers_nothing _ _ ok now stays]
    exact uncarved.turn (uncarved.service i)
  | restart i =>
    cases taken
    exact uncarved.restart i
  | boot i addresses batchIds history ok now =>
    obtain ⟨-, -, rfl⟩ := boot_inv taken
    rw [loadAll, uncarved.readBatches, recovers_nothing _ _ ok now stays]
    apply (uncarved.restart i).turn
    exact unflushed_init.hydrated cfg history

-- The trace begins with the payment of a batch that nobody wrote down.
theorem Uncarved.paid {i : ι} {svc : Service} (pays : PaysBatch svc.outbox) :
    ∃ request rest b, (w.turn i svc).trace = .pay request :: rest ∧
      request.requestId = "batch/" ++ b := by
  obtain ⟨request, rest, b, first, named⟩ := pays
  refine ⟨request, rest.map .pay, b, ?_, named⟩
  simp [World.turn, uncarved.trace, first]

theorem Uncarved.carve (batching : 0 < cfg.batchMinAtomic) (stored : cfg.accrualStore = true)
    (able : cfg.attempts ≠ 0) {a : Action ι} (carved : carves cfg w a = true)
    (taken : World.step cfg w a = some w') :
    ∃ request rest b, w'.trace = .pay request :: rest ∧ request.requestId = "batch/" ++ b := by
  have recovers (svc : Service) (quiet : svc.outbox = []) (openRows : List PersistedAccrual)
      (opened : ∀ row ∈ openRows, OpenRow row) (ok : Bool) (now : Nat → Nat)
      (some_read : (ok && !openRows.isEmpty) = true) :
      PaysBatch (Service.recoverAccruals cfg svc
        (if ok then some (openRows, []) else none) now).outbox := by
    simp only [Bool.and_eq_true, Bool.not_eq_true'] at some_read
    obtain ⟨rfl, listed⟩ := some_read
    cases openRows with
    | nil => cases listed
    | cons row rest =>
      simp only [Service.recoverAccruals, stored, if_true]
      exact recoverAccruals_pays cfg able stored quiet row rest (opened row (by simp)) now
  cases a with
  | settleInbound i inbound now =>
    cases taken
    obtain ⟨record, taken_on, full⟩ : ∃ record,
        takenOn cfg (w.service i) inbound now = some record ∧
          fills cfg (w.service i) record now.accruedAt = true := by
      simpa [carves, Option.any_eq_true] using carved
    obtain ⟨base, waiting, detached⟩ :=
      ((uncarved.service i).taken cfg batching inbound now record taken_on).2 full
    have quiet : (base.putAccrual (base.grown record now.accruedAt)).outbox = [] := waiting.outbox
    apply uncarved.paid
    rw [detached]
    exact detach_pays cfg able quiet _ _ _
  | deadline i operatorAddress now =>
    obtain ⟨accrual, found⟩ := Option.isSome_iff_exists.mp carved
    rw [deadline_inv taken, flushAccrual_found cfg _ _ now accrual found
      ((uncarved.service i).sound _ _ found)]
    exact uncarved.paid (detach_pays cfg able (uncarved.service i).outbox _ _ _)
  | flushPayouts i now =>
    cases taken
    have own := uncarved.service i
    apply uncarved.paid
    exact flushPayouts_pays cfg able own.sound own.outbox (by simpa [carves] using carved) now
  | recoverAccruals i ok now =>
    cases taken
    apply uncarved.paid
    rw [uncarved.batches i]
    exact recovers _ (uncarved.service i).outbox _ (uncarved.read i) ok now carved
  | boot i addresses batchIds history ok now =>
    obtain ⟨-, -, rfl⟩ := boot_inv taken
    have restarted := uncarved.restart i
    apply restarted.paid
    rw [loadAll, uncarved.readBatches]
    exact recovers _ (unflushed_init.hydrated cfg history).outbox _ (uncarved.readOpen addresses)
      ok now carved
  | _ => cases carved

end uncarved

theorem step_trace {cfg : Deps} {w w' : World ι} {a : Action ι}
    (taken : World.step cfg w a = some w') : ∃ more, w'.trace = w.trace ++ more := by
  cases a with
  | payout =>
    obtain ⟨svc, run, progress, -, -, -, rfl⟩ := payout_inv taken
    exact ⟨_, rfl⟩
  | deadline =>
    rw [deadline_inv taken]
    exact ⟨_, rfl⟩
  | callWrite =>
    obtain ⟨works, -, rfl⟩ := callWrite_inv taken
    exact ⟨[], (List.append_nil _).symm⟩
  | applyWrite =>
    obtain ⟨op, works, rows, -, -, rfl⟩ := applyWrite_inv taken
    exact ⟨[], (List.append_nil _).symm⟩
  | resolveWrite =>
    obtain ⟨op, works, -, rfl⟩ := resolveWrite_inv taken
    exact ⟨_, rfl⟩
  | rejectWrite =>
    obtain ⟨works, -, rfl⟩ := rejectWrite_inv taken
    exact ⟨[], (List.append_nil _).symm⟩
  | readOpen =>
    rw [readOpen_inv taken]
    exact ⟨[], (List.append_nil _).symm⟩
  | readBatches =>
    rw [readBatches_inv taken]
    exact ⟨[], (List.append_nil _).symm⟩
  | boot =>
    obtain ⟨-, -, rfl⟩ := boot_inv taken
    exact ⟨_, rfl⟩
  | restart =>
    cases taken
    exact ⟨[], (List.append_nil _).symm⟩
  | _ =>
    cases taken
    exact ⟨_, rfl⟩

theorem replay_trace {cfg : Deps} {w w' : World ι} (labels : List (Action ι))
    (replayed : Transition.replay (World.step cfg) w labels = some w') :
    ∃ more, w'.trace = w.trace ++ more := by
  induction labels generalizing w with
  | nil =>
    cases replayed
    exact ⟨[], (List.append_nil _).symm⟩
  | cons a rest ih =>
    obtain ⟨next, taken, later⟩ := Option.bind_eq_some_iff.mp replayed
    obtain ⟨first, grown⟩ := step_trace taken
    obtain ⟨second, grown'⟩ := ih later
    exact ⟨first ++ second, by rw [grown', grown, List.append_assoc]⟩

omit [DecidableEq ι] in
theorem not_writeAhead {w : World ι} {request : PayoutRequest} {rest : List Event} {b : String}
    (first : w.trace = .pay request :: rest) (named : request.requestId = "batch/" ++ b) :
    ¬ w.WriteAhead := by
  intro ahead
  obtain ⟨row, written, -⟩ := ahead [] request rest b first named
  cases written

theorem write_ahead_from (batching : 0 < cfg.batchMinAtomic) (stored : cfg.accrualStore = true)
    (able : cfg.attempts ≠ 0) (labels : List (Action ι)) {w w' : World ι} (uncarved : Uncarved w)
    (replayed : Transition.replay (World.step cfg) w labels = some w') :
    (w'.WriteAhead ∧ w'.OneId) ↔
      Transition.Allows (World.step cfg) (fun w a => carves cfg w a = false) w labels := by
  induction labels generalizing w with
  | nil =>
    cases replayed
    refine iff_of_true ⟨?_, ?_⟩ trivial
    · intro before request after b split
      rw [uncarved.trace] at split
      simp at split
    · intro p member
      rw [uncarved.landed] at member
      cases member
  | cons a rest ih =>
    obtain ⟨next, taken, later⟩ := Option.bind_eq_some_iff.mp replayed
    cases carved : carves cfg w a with
    | false =>
      rw [ih (uncarved.step batching carved taken) later]
      constructor
      · intro allowed
        refine ⟨carved, fun other reached => ?_⟩
        obtain rfl : next = other := by simpa [taken] using reached
        exact allowed
      · exact fun allowed => allowed.2 next taken
    | true =>
      obtain ⟨request, others, b, first, named⟩ := uncarved.carve batching stored able carved taken
      obtain ⟨more, grown⟩ := replay_trace rest later
      rw [first] at grown
      refine iff_of_false (fun held => not_writeAhead grown named held.1) fun allowed => ?_
      have stays : carves cfg w a = false := allowed.1
      rw [carved] at stays
      cases stays

end World

namespace Service

structure Attemptless (svc : Service) : Prop where
  runs : ∀ run ∈ svc.payouts, attemptless run.progress = true
  outbox : svc.outbox = []

section attemptless

variable {cfg} (none_allowed : cfg.attempts = 0)

theorem calls_attemptless {job : PayoutJob} {progress : Progress}
    (idle : attemptless progress = true) : calls cfg job progress = [] := by
  cases progress with
  | paying | checkingAfter | sleeping => cases idle
  | _ => rfl

include none_allowed in
theorem start_attemptless (job : PayoutJob) :
    attemptless (Progress.start cfg.attempts job) = true := by
  rw [none_allowed, Progress.start]
  split <;> rfl

theorem Attemptless.quiet {svc after : Service} (idle : Attemptless svc) (kept : Quiet svc after) :
    Attemptless after :=
  ⟨kept.payouts ▸ idle.runs, kept.outbox.trans idle.outbox⟩

theorem Attemptless.started {svc after : Service} (idle : Attemptless svc) (runs : List PayoutRun)
    (payouts : after.payouts = svc.payouts ++ runs)
    (outbox : after.outbox = svc.outbox ++ runs.flatMap fun run => calls cfg run.job run.progress)
    (unable : ∀ run ∈ runs, attemptless run.progress = true) : Attemptless after where
  runs run member := by
    rw [payouts, List.mem_append] at member
    exact member.elim (idle.runs run) (unable run)
  outbox := by
    rw [outbox, idle.outbox, List.nil_append]
    exact List.flatMap_eq_nil_iff.mpr fun run member => calls_attemptless (unable run member)

include none_allowed

theorem Attemptless.detach {svc : Service} (idle : Attemptless svc) (operatorAddress : String)
    (accrual : Accrual) (now : Nat) : Attemptless (detach cfg svc operatorAddress accrual now) := by
  apply idle.started _ (detach_payouts ..)
  · rw [detach_outbox, List.flatMap_singleton]
  · rw [List.forall_mem_singleton]
    exact start_attemptless none_allowed (svc.detachedJob operatorAddress accrual now)

theorem recoveredRun_attemptless (row : PersistedAccrual) (records : List StoredRecord)
    (batchId : String) (summed : Int) (resumed : Bool) :
    attemptless (recoveredRun cfg row records batchId summed resumed).progress = true :=
  start_attemptless none_allowed (recoveredRun cfg row records batchId summed resumed).job

theorem Attemptless.recoverAccruals {svc : Service} (idle : Attemptless svc)
    (loaded : Option (List PersistedAccrual × List PersistedAccrual)) (now : Nat → Nat) :
    Attemptless (Service.recoverAccruals cfg svc loaded now) := by
  unfold Service.recoverAccruals
  cases stored : cfg.accrualStore with
  | false => exact idle
  | true =>
    cases loaded with
    | none => exact idle
    | some loaded =>
      exact recoverRows_induction cfg stored now (P := fun state => Attemptless state.svc)
        (loaded.2 ++ loaded.1)
        (fun state row ops runs after _ held _ rowStep => by
          apply held.started runs rowStep.recovered.payouts rowStep.recovered.outbox
          cases rowStep.outcome with
          | dropped | stopped => simp
          | resumed | fresh =>
            rw [List.forall_mem_singleton]
            exact recoveredRun_attemptless none_allowed ..)
        ⟨svc, [], false⟩ idle

theorem Attemptless.resumePayout {svc after : Service} (idle : Attemptless svc) {index : Nat}
    {event : PayoutEvent} {attemptAt settledAt : Nat}
    (resumed : Service.resumePayout cfg svc index event attemptAt settledAt = some after) :
    Attemptless after := by
  obtain ⟨run, progress, found, advanced, kept⟩ := resumePayout_cases cfg svc after index event
    attemptAt settledAt resumed
  obtain ⟨-, -, -, -, -, payouts, outbox, -⟩ := discharged_frame cfg
    (moved cfg svc index run.job progress) run.job progress attemptAt
  rw [none_allowed] at advanced
  have unable := next_attemptless run.progress progress event
    (idle.runs run (List.mem_of_getElem? found)) advanced
  apply Attemptless.quiet _ kept.quiet
  constructor
  · intro other member
    rw [payouts] at member
    rcases List.mem_or_eq_of_mem_set member with old | rfl
    · exact idle.runs other old
    · exact unable
  · rw [outbox]
    change svc.outbox ++ calls cfg run.job progress = []
    rw [idle.outbox, calls_attemptless unable]
    rfl

end attemptless

end Service

namespace World

variable {ι : Type} [DecidableEq ι]

structure Attemptless (w : World ι) : Prop where
  service : ∀ i, (w.service i).Attemptless
  landed : w.landed = []
  unpaid : ∀ request, .pay request ∉ w.trace

section attemptless

variable {cfg} {w w' : World ι} (idle : Attemptless w)

include idle

theorem Attemptless.put {i : ι} {svc : Service} (own : svc.Attemptless) :
    Attemptless (w.put i svc) :=
  { idle with
    service := fun j => by
      rw [put_service]
      split
      · exact own
      · exact idle.service j }

theorem Attemptless.turn {i : ι} {svc : Service} (own : svc.Attemptless) :
    Attemptless (w.turn i svc) := by
  have ended : Service.Attemptless { svc with outbox := [] } := ⟨own.runs, rfl⟩
  refine { idle.put (i := i) ended with unpaid := fun request member => ?_ }
  simp only [World.turn, own.outbox, List.map_nil, List.append_nil] at member
  exact idle.unpaid request member

theorem Attemptless.setWrites (i : ι) (key : String) (works : List (Work StoreOp)) :
    Attemptless (w.setWrites i key works) :=
  idle.put ⟨(idle.service i).runs, (idle.service i).outbox⟩

end attemptless

theorem attemptless_moves (none_allowed : cfg.attempts = 0) :
    KeptByMoves cfg (Attemptless (ι := ι)) fun _ _ _ => True where
  ended w i idle := idle.turn (idle.service i)
  quiet w i svc idle kept := idle.put ((idle.service i).quiet kept)
  hold w i base record accruedAt idle sound taken _ := by
    have own := (idle.service i).quiet taken.kept
    apply idle.put
    constructor
    · rw [hold_payouts]
      exact own.runs
    · rw [hold_outbox]
      exact own.outbox
  take w i base record accruedAt idle sound taken _ := by
    have own := (idle.service i).quiet taken.kept
    exact idle.put ⟨own.runs, own.outbox⟩
  detach w i operatorAddress accrual now idle sound found :=
    idle.put ((idle.service i).detach none_allowed operatorAddress accrual now)

variable {cfg} in
theorem Attemptless.step (batching : 0 < cfg.batchMinAtomic) (none_allowed : cfg.attempts = 0)
    {w w' : World ι} (idle : Attemptless w) (sound : ∀ i, Sound (w.service i)) {a : Action ι}
    (taken : World.step cfg w a = some w') : Attemptless w' := by
  have restarted (i : ι) : Attemptless (w.restart i) := by
    refine { idle with service := fun j => ?_ }
    rw [restart_service]
    split
    · exact ⟨by simp [init], rfl⟩
    · exact idle.service j
  cases a with
  | settleInbound i inbound now =>
    cases taken
    exact (attemptless_moves cfg none_allowed).settleInbound batching w i idle (sound i) inbound now
      fun _ => trivial
  | payout i index event =>
    obtain ⟨svc, run, progress, resumed, found, advanced, rfl⟩ := payout_inv taken
    have unable := (idle.service i).runs run (List.mem_of_getElem? found)
    have offchain : lands event = false := by
      cases event with
      | lookup | wake => rfl
      | paid | threw =>
        cases phase : run.progress with
        | paying => simp [phase, attemptless] at unable
        | _ => simp [phase, Progress.next] at advanced
    have turned := idle.turn (i := i) ((idle.service i).resumePayout none_allowed resumed)
    refine { turned with landed := ?_ }
    simp [World.turn, recordOutcome, offchain, idle.landed]
  | callWrite =>
    obtain ⟨works, -, rfl⟩ := callWrite_inv taken
    exact idle.setWrites ..
  | applyWrite =>
    obtain ⟨op, works, rows, -, -, rfl⟩ := applyWrite_inv taken
    have kept : Attemptless (w.withRows rows) := { idle with }
    exact kept.setWrites ..
  | resolveWrite =>
    obtain ⟨op, works, -, rfl⟩ := resolveWrite_inv taken
    have kept : Attemptless { w with trace := w.trace ++ completed op } := by
      refine { idle with unpaid := fun request member => ?_ }
      rcases List.mem_append.mp member with old | new
      · exact idle.unpaid request old
      · cases op <;> simp [completed] at new
    exact kept.setWrites ..
  | rejectWrite =>
    obtain ⟨works, -, rfl⟩ := rejectWrite_inv taken
    exact idle.setWrites ..
  | readOpen =>
    rw [readOpen_inv taken]
    exact { idle with }
  | readBatches =>
    rw [readBatches_inv taken]
    exact { idle with }
  | recoverAccruals i ok now =>
    cases taken
    exact idle.turn ((idle.service i).recoverAccruals none_allowed _ now)
  | restart i =>
    cases taken
    exact restarted i
  | boot i addresses batchIds history ok now =>
    obtain ⟨-, -, rfl⟩ := boot_inv taken
    have fresh : Service.Attemptless init := ⟨by simp [init], rfl⟩
    have hydrated := fresh.quiet (hydrateLedger_bookkeeping cfg .init history).quiet
    exact (restarted i).turn (hydrated.recoverAccruals none_allowed _ now)
  | recordRouting | deadline | flushPayouts | hydrateLedger =>
    exact (attemptless_moves cfg none_allowed).step batching rfl idle sound
      (fun _ _ _ _ _ => trivial) taken

end World

theorem write_ahead_iff {ι : Type} [DecidableEq ι] (batching : 0 < cfg.batchMinAtomic)
    (stored : cfg.accrualStore = true) (labels : List (Action ι)) (w : World ι)
    (replayed : Transition.replay (World.step cfg) (World.start .empty) labels = some w) :
    (w.WriteAhead ∧ w.OneId) ↔
      cfg.attempts = 0 ∨ Transition.Allows (World.step cfg)
        (fun w a => World.carves cfg w a = false) (World.start .empty) labels := by
  by_cases none_allowed : cfg.attempts = 0
  · have run : Transition.Run (World.step cfg) (fun _ _ => True) (World.start .empty) w :=
      Transition.run_of_replay labels (Transition.allows_of_forall _ fun _ _ _ => trivial) replayed
    have held : World.Labelled w ∧ World.Attemptless w :=
      run.invariant (P := fun w => World.Labelled w ∧ World.Attemptless w)
        ⟨World.labelled_start, fun _ => ⟨by simp [World.start, init], rfl⟩, rfl, by simp [World.start]⟩
        fun w a w' held _ taken => ⟨held.1.step cfg batching taken,
          held.2.step batching none_allowed held.1.sound taken⟩
    refine iff_of_true ⟨?_, ?_⟩ (.inl none_allowed)
    · intro before request after b split
      exact absurd (by simp [split]) (held.2.unpaid request)
    · intro p member
      rw [held.2.landed] at member
      cases member
  · rw [World.write_ahead_from cfg batching stored none_allowed labels World.uncarved_start replayed]
    exact (or_iff_right none_allowed).symm

-- What has been taken on waits below the threshold.
theorem write_ahead_waiting :
    ∃ w : World Unit, Transition.replay (World.step World.demoDeps) (World.start .empty)
        (World.paidFor () "r1" 10 ++ World.written ()) = some w ∧ w.WriteAhead ∧ w.OneId := by
  have shown : (Transition.replay
      (fun w a => if World.carves World.demoDeps w a = false then World.step World.demoDeps w a
        else none) (World.start .empty)
      (World.paidFor () "r1" 10 ++ World.written ())).isSome = true := by
    decide
  obtain ⟨w, replayed⟩ := Option.isSome_iff_exists.mp shown
  have stays : Transition.Allows (World.step World.demoDeps)
        (fun w a => World.carves World.demoDeps w a = false) (World.start .empty)
        (World.paidFor () "r1" 10 ++ World.written ()) ∧ _ :=
    Transition.allows_of_guarded _ replayed
  exact ⟨w, stays.2, (write_ahead_iff World.demoDeps (by decide) rfl _ w stays.2).mpr
    (.inr stays.1)⟩

def Event.paysFor : Event → Option String
  | .pay request => some request.requestId
  | .putBatch .. => none

-- The process crashes after the payment and before its batch row is written.
theorem unwritten_batch_paid_twice :
    ∃ w : World Unit, Transition.Run (World.step World.demoDeps)
        (fun w a => w.promised a = true) (World.start .empty) w ∧
      ¬ w.WriteAhead ∧ ¬ w.OneId := by
  have shown : (Transition.replay
      (fun w a => if World.promised w a then World.step World.demoDeps w a else none)
      (World.start .empty)
      (World.paidFor () "r1" 10 ++ World.written () ++
        [.flushPayouts () fun _ => 20, .payout () 0 (.paid "TX-1") 30 30,
          .boot () ["OPERATOR"] [] none true fun _ => 40,
          .payout () 0 (.paid "TX-2") 50 50])).map
        (fun w => (w.trace.head?.bind (·.paysFor), w.landed)) =
      some (some ("batch/" ++ batchIdOf 20 1),
        [⟨"batch/" ++ batchIdOf 20 1, "OPERATOR", ["r1"]⟩,
          ⟨"batch/" ++ recoveredIdOf 40 1, "OPERATOR", ["r1"]⟩]) := by
    decide
  obtain ⟨w, replayed, facts⟩ := Option.map_eq_some_iff.mp shown
  simp only [Prod.mk.injEq] at facts
  obtain ⟨first, landed⟩ := facts
  refine ⟨w, Transition.run_of_guarded World.promised _ replayed, ?_, ?_⟩
  · obtain ⟨event, head, pays⟩ := Option.bind_eq_some_iff.mp first
    obtain ⟨rest, trace⟩ := List.head?_eq_some_iff.mp head
    cases event with
    | pay request => exact World.not_writeAhead trace (Option.some.inj pays)
    | putBatch => cases pays
  · intro one
    have same := one _ (by rw [landed]; exact List.mem_cons_self ..)
      ⟨"batch/" ++ recoveredIdOf 40 1, "OPERATOR", ["r1"]⟩ (by simp [landed]) "r1" (by simp) (by simp)
    exact absurd same (by decide)

end X402Mesh.Settlement
