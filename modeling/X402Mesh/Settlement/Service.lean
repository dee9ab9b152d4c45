import X402Mesh.Settlement.Types

set_option autoImplicit false

namespace X402Mesh.Settlement

open Registry Money Pricing Text

/-- Here `outbox` holds the calls of `pay` made in the current turn, and `accepted` is a ghost: the
records of the settlements that were taken on with something to pay. -/
structure Service where
  routing : OrderedMap String RoutingNote
  ledger : OrderedMap String SettlementRecord
  claimed : List String
  accruals : OrderedMap String Accrual
  arrays : String → Nat → List SettlementRecord
  nextSerial : Nat
  batchLiabilities : OrderedMap String BatchLiability
  batchSeq : Nat
  writeChains : OrderedMap String (List (Work StoreOp))
  payouts : List PayoutRun
  outbox : List PayoutRequest
  accepted : List SettlementRecord

namespace Service

variable (cfg : Deps)

def init : Service where
  routing := .empty
  ledger := .empty
  claimed := []
  accruals := .empty
  arrays := fun _ _ => []
  nextSerial := 0
  batchLiabilities := .empty
  batchSeq := 0
  writeChains := .empty
  payouts := []
  outbox := []
  accepted := []

def chain (svc : Service) (key : String) : List (Work StoreOp) := (svc.writeChains.get? key).getD []

-- A chain whose tail has finished is dropped.
def setChain (svc : Service) (key : String) (works : List (Work StoreOp)) : Service :=
  { svc with
    writeChains :=
      if works.isEmpty then svc.writeChains.erase key else svc.writeChains.set key works }

def enqueueWrite (svc : Service) (key : String) (ops : List StoreOp) : Service :=
  svc.setChain key (WriteChain.enqueue (svc.chain key) ops)

-- A write for the accrual store, when there is one.
def enqueueStore (svc : Service) (operatorAddress : String) (ops : List StoreOp) : Service :=
  if cfg.accrualStore then svc.enqueueWrite operatorAddress ops else svc

def persistLedger (svc : Service) (record : SettlementRecord) : Service :=
  if cfg.ledgerStore then
    svc.enqueueWrite ("ledger:" ++ record.requestId) [.putLedger record]
  else svc

def update (svc : Service) (requestId : String) (record : SettlementRecord) : Service :=
  if svc.ledger.contains requestId then
    persistLedger cfg { svc with ledger := svc.ledger.set requestId record } record
  else svc

def evict (svc : Service) : Service :=
  { svc with ledger := svc.ledger.drop (svc.ledger.size - cfg.maxLedgerEntries) }

def remember (svc : Service) (record : SettlementRecord) : Service :=
  evict cfg
    (persistLedger cfg { svc with ledger := svc.ledger.set record.requestId record } record)

def payoutRequest (job : PayoutJob) : PayoutRequest :=
  ⟨job.receiver, job.amountAtomic, cfg.assetId, job.payoutId, job.records⟩

-- `pay` is called in the turn that reaches it.
def calls (job : PayoutJob) (progress : Progress) : List PayoutRequest :=
  if progress.isPaying then [payoutRequest cfg job] else []

def runPayout (svc : Service) (job : PayoutJob) : Service :=
  let progress := Progress.start cfg.attempts job
  { svc with
    payouts := svc.payouts ++ [⟨job, progress⟩]
    outbox := svc.outbox ++ calls cfg job progress }

def releaseBatch (svc : Service) (batchId : Option String) (operatorAddress : String) : Service :=
  match batchId with
  | none => svc
  | some batchId => enqueueStore cfg svc operatorAddress [.removeBatch batchId]

def dropLiability (svc : Service) (batchId : Option String) : Service :=
  match batchId with
  | none => svc
  | some batchId => { svc with batchLiabilities := svc.batchLiabilities.erase batchId }

def updateAll (svc : Service) (records : List SettlementRecord)
    (revise : SettlementRecord → SettlementRecord) : Service :=
  records.foldl (fun svc record => update cfg svc record.requestId (revise record)) svc

def finalizeSettled (svc : Service) (records : List SettlementRecord) (txId : Option String)
    (batchId : Option String) (settledAt : Nat) : Service :=
  let svc := svc.dropLiability batchId
  let svc := releaseBatch cfg svc batchId ((records.head?.map (·.operatorAddress)).getD "")
  updateAll cfg svc records fun record =>
    { record with
      payoutTxId := txId, batchId := batchId, status := .settled, settledAt := some settledAt }

def slice (text : String) (n : Nat) : String := String.ofList (takeUnits n text.toList)

def annotate (svc : Service) (batchId : Option String) (reason : String) (attemptAt : Nat) :
    Service :=
  match batchId with
  | none => svc
  | some batchId =>
    match svc.batchLiabilities.get? batchId with
    | none => svc
    | some liability =>
      { svc with
        batchLiabilities := svc.batchLiabilities.set batchId
          { liability with
            attempts := liability.attempts + 1
            lastError := some (slice reason 256)
            lastAttemptAt := some attemptAt } }

def finalizeFailed (svc : Service) (records : List SettlementRecord) (reason : String)
    (batchId : Option String) (attemptAt settledAt : Nat) : Service :=
  updateAll cfg (svc.annotate batchId reason attemptAt) records fun record =>
    { record with
      batchId := batchId, status := .failed, error := some (slice reason 1024)
      settledAt := some settledAt }

def finalize (svc : Service) (job : PayoutJob) (progress : Progress) (attemptAt settledAt : Nat) :
    Service :=
  match progress with
  | .settled txId => finalizeSettled cfg svc job.records (some txId) job.batchId settledAt
  | .failed reason => finalizeFailed cfg svc job.records reason job.batchId attemptAt settledAt
  | _ => svc

-- The await of the payout at `index` ends with `event`, and `runPayout` goes on from there.
def resumePayout (svc : Service) (index : Nat) (event : PayoutEvent) (attemptAt settledAt : Nat) :
    Option Service := do
  let run ← svc.payouts[index]?
  let progress ← run.progress.next cfg.attempts event
  let svc : Service :=
    { svc with
      payouts := svc.payouts.set index ⟨run.job, progress⟩
      outbox := svc.outbox ++ calls cfg run.job progress }
  return finalize cfg svc run.job progress attemptAt settledAt

-- none: one of the amounts is not a bigint, and the sum throws.
def sumPayouts : List SettlementRecord → Option Int
  | [] => some 0
  | record :: rest => do
    let payout ← bigInt record.payoutAtomic
    let sum ← sumPayouts rest
    return payout + sum

def batchJob (batchId operatorAddress : String) (summed : Int) (records : List SettlementRecord)
    (resumed : Bool) : PayoutJob :=
  ⟨"batch/" ++ batchId, operatorAddress, summed, records, some batchId, resumed⟩

def liability (batchId operatorAddress : String) (summed : Int) (requests : Nat)
    (oldestAt : Option Nat) : BatchLiability :=
  ⟨batchId, operatorAddress, summed, requests, oldestAt, 0, none, none⟩

def batchIdOf (now seq : Nat) : String := toString36 now ++ "-" ++ toString36 seq

-- The batch leaves the accrual map: its row is queued, and its payout starts in the same turn.
def carve (svc : Service) (operatorAddress : String) (accrual : Accrual) (summed : Int)
    (now : Nat) : Service :=
  let batchSeq := svc.batchSeq + 1
  let batchId := batchIdOf now batchSeq
  let svc :=
    { svc with
      batchSeq := batchSeq
      batchLiabilities := svc.batchLiabilities.set batchId
        (liability batchId operatorAddress summed accrual.records.length (some accrual.firstAt)) }
  let row := persisted accrual.operatorAddress accrual.records accrual.firstAt (some batchId)
  let svc :=
    enqueueStore cfg svc operatorAddress [.putBatch batchId row, .removeOpen operatorAddress]
  runPayout cfg svc (batchJob batchId operatorAddress summed accrual.records false)

def flushAccrual (svc : Service) (operatorAddress : String) (now : Nat) : Service :=
  match svc.accruals.get? operatorAddress with
  | none => svc
  | some accrual =>
    if accrual.records.isEmpty then svc
    else
      let svc := { svc with accruals := svc.accruals.erase operatorAddress }
      match sumPayouts accrual.records with
      | none => svc
      | some summed => carve cfg svc operatorAddress accrual summed now

-- The operator's accrual with the record pushed onto it.
def extended (svc : Service) (record : SettlementRecord) (payout : Int) (accruedAt : Nat) :
    Accrual :=
  let accrual :=
    (svc.accruals.get? record.operatorAddress).getD
      ⟨record.operatorAddress, [], 0, accruedAt, false, svc.nextSerial⟩
  { accrual with
    records := accrual.records ++ [record], totalAtomic := accrual.totalAtomic + payout }

def putAccrual (svc : Service) (accrual : Accrual) : Service :=
  { svc with
    accruals := svc.accruals.set accrual.operatorAddress accrual
    arrays := fun operatorAddress serial =>
      if operatorAddress = accrual.operatorAddress ∧ serial = accrual.serial then accrual.records
      else svc.arrays operatorAddress serial
    nextSerial := max svc.nextSerial (accrual.serial + 1) }

def armTimer (svc : Service) (accrual : Accrual) : Service :=
  { svc with
    accruals := svc.accruals.set accrual.operatorAddress { accrual with timer := true } }

def persistOpen (svc : Service) (accrual : Accrual) : Service :=
  enqueueStore cfg svc accrual.operatorAddress
    [.putOpen accrual.operatorAddress accrual.serial accrual.firstAt]

def push (svc : Service) (record : SettlementRecord) (payout : Int) (accruedAt flushedAt : Nat) :
    Service :=
  let accrual := svc.extended record payout accruedAt
  let svc := svc.putAccrual accrual
  if accrual.totalAtomic ≥ cfg.batchMinAtomic then
    flushAccrual cfg svc record.operatorAddress flushedAt
  else if accrual.records.length ≥ cfg.payoutBatchMaxRequests then
    flushAccrual cfg svc record.operatorAddress flushedAt
  else (persistOpen cfg svc accrual).armTimer accrual

def accrue (svc : Service) (record : SettlementRecord) (payout : Int) (accruedAt flushedAt : Nat) :
    Service :=
  push cfg (update cfg svc record.requestId { record with status := .accrued }) record payout
    accruedAt flushedAt

-- One pass of the loop; the k-th batch takes its own reading of the clock.
def flushPayouts (svc : Service) (now : Nat → Nat) : Service :=
  svc.accruals.keys.foldl
    (fun svc operatorAddress => flushAccrual cfg svc operatorAddress (now svc.batchSeq)) svc

def deadline (svc : Service) (operatorAddress : String) (now : Nat) : Option Service := do
  let accrual ← svc.accruals.get? operatorAddress
  if accrual.timer then some (flushAccrual cfg svc operatorAddress now) else none

def routingNoteTtlMs : Nat := 10 * 60000

def pruneRouting (svc : Service) (now : Nat) : Service :=
  { svc with
    routing := svc.routing.dropWhile fun _ note =>
      decide ¬ ((now : Int) - note.noted < routingNoteTtlMs) }

def recordRouting (svc : Service) (requestId nodeId operatorAddress : String) (now : Nat) :
    Service :=
  let svc := svc.pruneRouting now
  { svc with routing := svc.routing.set requestId ⟨nodeId, operatorAddress, now⟩ }

def openRecord (inbound : InboundSettlement) (note : RoutingNote) (createdAt : Nat) :
    Except MeshError SettlementRecord := do
  let split ← computeSplit inbound.inboundAtomic cfg.marginBps
  assertSplitInvariant split
  let inboundAtomic ← atomicToWire split.inbound
  let payoutAtomic ← atomicToWire split.payout
  let marginAtomic ← atomicToWire split.margin
  return {
    requestId := inbound.requestId
    nodeId := note.nodeId
    payerAddress := inbound.payerAddress
    operatorAddress := note.operatorAddress
    inboundAtomic := inboundAtomic
    payoutAtomic := payoutAtomic
    marginAtomic := marginAtomic
    inboundTxId := inbound.inboundTxId
    payoutTxId := none
    batchId := none
    status := .pending
    error := none
    createdAt := createdAt
    settledAt := none }

structure Readings where
  createdAt : Nat
  accruedAt : Nat
  flushedAt : Nat
  deriving DecidableEq, Repr

def schedule (svc : Service) (record : SettlementRecord) (now : Readings) : Service :=
  match bigInt record.payoutAtomic with
  | none => svc
  | some payout =>
    if payout = 0 then finalizeSettled cfg svc [record] none none now.accruedAt
    else
      let svc := { svc with accepted := svc.accepted ++ [record] }
      if cfg.batchMinAtomic > 0 then accrue cfg svc record payout now.accruedAt now.flushedAt
      else
        runPayout cfg svc
          ⟨record.requestId, record.operatorAddress, payout, [record], none, false⟩

def settleInbound (svc : Service) (inbound : InboundSettlement) (now : Readings) : Service :=
  match svc.routing.get? inbound.requestId with
  | none => svc
  | some note =>
    let svc := { svc with routing := svc.routing.erase inbound.requestId }
    if inbound.requestId ∈ svc.claimed then svc
    else
      let svc := { svc with claimed := inbound.requestId :: svc.claimed }
      match openRecord cfg inbound note now.createdAt with
      | .error _ => svc
      | .ok record => schedule cfg (remember cfg svc record) record now

-- `history` is what `loadRecent` answered, newest first; none when it threw.
def hydrateLedger (svc : Service) (history : Option (List StoredRecord)) : Service :=
  if cfg.ledgerStore then
    match history with
    | none => svc
    | some recent =>
      recent.reverse.foldl (fun svc raw =>
        match raw.requestId with
        | none => svc
        | some requestId =>
          { svc with
            ledger := svc.ledger.set requestId raw.cast
            claimed := requestId :: svc.claimed }) svc
  else svc

def dropRecovered (svc : Service) (stored : PersistedAccrual) : Service :=
  match stored.batchId with
  | some batchId => enqueueStore cfg svc stored.operatorAddress [.removeBatch batchId]
  | none => enqueueStore cfg svc stored.operatorAddress [.removeOpen stored.operatorAddress]

def reseed (svc : Service) (records : List SettlementRecord) : Service :=
  records.foldl (fun svc record =>
    let svc := { svc with claimed := record.requestId :: svc.claimed }
    if svc.ledger.contains record.requestId then svc else remember cfg svc record) svc

structure Recovery where
  svc : Service
  handled : List String
  stopped : Bool

def payable (handled : List String) (stored : PersistedAccrual) : List StoredRecord :=
  (stored.records.filter (·.usable)).filter fun r => r.requestId.getD "" ∉ handled

def requestIdsOf (records : List StoredRecord) : List String := records.map (·.requestId.getD "")

-- Whether the row is paid under the id it was stored with.
def resumedId (stored : PersistedAccrual) : Option String := stored.batchId.filter (· ≠ "")

def payRow (svc : Service) (stored : PersistedAccrual) (records : List StoredRecord)
    (summed : Int) (batchId : String) (resumed : Bool) : Service :=
  let svc :=
    { svc with
      batchLiabilities := svc.batchLiabilities.set batchId
        (liability batchId stored.operatorAddress summed records.length stored.firstAt) }
  let svc :=
    enqueueStore cfg svc stored.operatorAddress
      (.putBatch batchId { stored with records := records, batchId := some batchId } ::
        if resumed then [] else [.removeOpen stored.operatorAddress])
  runPayout cfg svc
    (batchJob batchId stored.operatorAddress summed (records.map (·.cast)) resumed)

def recoveredIdOf (now seq : Nat) : String := toString36 now ++ "-r" ++ toString36 seq

def recoverPay (svc : Service) (stored : PersistedAccrual) (records : List StoredRecord)
    (summed : Int) (now : Nat → Nat) : Service :=
  match resumedId stored with
  | some batchId => payRow cfg svc stored records summed batchId true
  | none =>
    let seq := svc.batchSeq + 1
    payRow cfg { svc with batchSeq := seq } stored records summed
      (recoveredIdOf (now seq) seq) false

def recoverRow (now : Nat → Nat) (state : Recovery) (stored : PersistedAccrual) : Recovery :=
  if state.stopped then state
  else
    let records := payable state.handled stored
    if records.isEmpty then
      { state with svc := dropRecovered cfg (state.svc.dropLiability stored.batchId) stored }
    else
      let svc := reseed cfg state.svc (records.map (·.cast))
      let handled := requestIdsOf records ++ state.handled
      match sumPayouts (records.map (·.cast)) with
      | none => ⟨svc, handled, true⟩
      | some summed =>
        if summed = 0 then
          ⟨dropRecovered cfg (svc.dropLiability stored.batchId) stored, handled, false⟩
        else ⟨recoverPay cfg svc stored records summed now, handled, false⟩

-- `recoverAccruals` once the ledger is hydrated: `loaded` is what `loadAll` answered, and none
-- when it threw.
def recoverAccruals (svc : Service)
    (loaded : Option (List PersistedAccrual × List PersistedAccrual)) (now : Nat → Nat) : Service :=
  if cfg.accrualStore then
    match loaded with
    | none => svc
    | some (openRows, batches) =>
      ((batches ++ openRows).foldl (recoverRow cfg now) ⟨svc, [], false⟩).svc
  else svc

def accruing (accrual : Accrual) : PendingPayout where
  operatorAddress := accrual.operatorAddress
  owedAtomic := toString accrual.totalAtomic
  requests := accrual.records.length
  oldestAt := some accrual.firstAt
  state := .accruing
  deadlineAt := some (accrual.firstAt + cfg.payoutBatchMaxDelayMs)
  batchId := none
  attempts := none
  lastError := none
  lastAttemptAt := none

def batched (liability : BatchLiability) : PendingPayout where
  operatorAddress := liability.operatorAddress
  owedAtomic := toString liability.owedAtomic
  requests := liability.requests
  oldestAt := liability.oldestAt
  state := if liability.lastError.isNone then .paying else .stuck
  deadlineAt := none
  batchId := some liability.batchId
  attempts := some liability.attempts
  lastError := liability.lastError
  lastAttemptAt := liability.lastAttemptAt

-- A comparison with an absent `oldestAt` is NaN, which the sort takes for a tie.
def notLater (x y : PendingPayout) : Bool :=
  match x.oldestAt, y.oldestAt with
  | some a, some b => a ≤ b
  | _, _ => true

def getPendingPayouts (svc : Service) : List PendingPayout :=
  (svc.accruals.values.map (accruing cfg) ++ svc.batchLiabilities.values.map batched).mergeSort
    notLater

end Service

end X402Mesh.Settlement
