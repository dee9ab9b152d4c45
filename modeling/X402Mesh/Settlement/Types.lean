import X402Mesh.Lib.WriteChain
import X402Mesh.Registry.Accruals
import X402Mesh.Shared.Pricing

set_option autoImplicit false

namespace X402Mesh.Settlement

open Registry Money

/-- The settings the constructor resolves. The two stores are optional collaborators. -/
structure Deps where
  marginBps : Int
  batchMinAtomic : Int
  payoutBatchMaxRequests : Nat
  payoutBatchMaxDelayMs : Nat
  assetId : String
  attempts : Nat
  maxLedgerEntries : Nat
  accrualStore : Bool
  ledgerStore : Bool
  deriving DecidableEq, Repr

structure InboundSettlement where
  requestId : String
  payerAddress : String
  inboundTxId : String
  inboundAtomic : Int
  deriving DecidableEq, Repr

structure RoutingNote where
  nodeId : String
  operatorAddress : String
  noted : Nat
  deriving DecidableEq, Repr

structure BatchLiability where
  batchId : String
  operatorAddress : String
  owedAtomic : Int
  requests : Nat
  oldestAt : Option Nat
  attempts : Nat
  lastError : Option String
  lastAttemptAt : Option Nat
  deriving DecidableEq, Repr

-- `serial` tells apart the `records` arrays that one operator's accruals have had.
structure Accrual where
  operatorAddress : String
  records : List SettlementRecord
  totalAtomic : Int
  firstAt : Nat
  timer : Bool
  serial : Nat
  deriving DecidableEq, Repr

structure PayoutJob where
  payoutId : String
  receiver : String
  amountAtomic : Int
  records : List SettlementRecord
  batchId : Option String
  checkLandedFirst : Bool
  deriving DecidableEq, Repr

def PayoutJob.requestIds (job : PayoutJob) : List String := job.records.map (·.requestId)

inductive PayoutState
  | accruing | paying | stuck
  deriving DecidableEq, Repr

structure PendingPayout where
  operatorAddress : String
  owedAtomic : String
  requests : Nat
  oldestAt : Option Nat
  state : PayoutState
  deadlineAt : Option Nat
  batchId : Option String
  attempts : Option Nat
  lastError : Option String
  lastAttemptAt : Option Nat
  deriving DecidableEq, Repr

structure PayoutRequest where
  receiver : String
  amountAtomic : Int
  assetId : String
  requestId : String
  records : List SettlementRecord
  deriving DecidableEq, Repr

-- `putOpen` still shares the live array; `putOpenRow` is its argument once serialized.
inductive StoreOp
  | putOpen (operatorAddress : String) (serial : Nat) (firstAt : Nat)
  | putOpenRow (row : PersistedAccrual)
  | removeOpen (operatorAddress : String)
  | putBatch (batchId : String) (row : PersistedAccrual)
  | removeBatch (batchId : String)
  | putLedger (record : SettlementRecord)
  deriving DecidableEq, Repr

def persisted (operatorAddress : String) (records : List SettlementRecord) (firstAt : Nat)
    (batchId : Option String) : PersistedAccrual :=
  ⟨operatorAddress, records.map (·.stored), some firstAt, batchId⟩

def StoreOp.serialize (arrays : String → Nat → List SettlementRecord) : StoreOp → StoreOp
  | .putOpen operatorAddress serial firstAt =>
    .putOpenRow (persisted operatorAddress (arrays operatorAddress serial) firstAt none)
  | op => op

-- none: the arguments have not been serialized yet.
def StoreOp.effect (rows : Rows) : StoreOp → Option Rows
  | .putOpen .. => none
  | .putOpenRow row => some (rows.putOpen row)
  | .removeOpen operatorAddress => some (rows.removeOpen operatorAddress)
  | .putBatch batchId row => some (rows.putBatch batchId row)
  | .removeBatch batchId => some (rows.removeBatch batchId)
  | .putLedger _ => some rows

/-- What became of one question to the chain, whichever layer gave up on it. -/
inductive LookupOutcome
  | found (txId : String)
  | notFound
  | failed
  | timedOut
  | unsupported
  deriving DecidableEq, Repr

def LookupOutcome.answer : LookupOutcome → Option String
  | .found txId => some txId
  | _ => none

inductive PayoutEvent
  | lookup (outcome : LookupOutcome)
  | paid (txId : String)
  | threw (reason : String) (landed : Bool)
  | wake
  deriving DecidableEq, Repr

/-- The await that `runPayout` stands at, or how it ended. -/
inductive Progress
  | checkingFirst
  | paying (attempt : Nat)
  | checkingAfter (attempt : Nat) (reason : String)
  | sleeping (attempt : Nat) (reason : String)
  | checkingLate (reason : String)
  | settled (txId : String)
  | failed (reason : String)
  deriving DecidableEq, Repr

namespace Progress

-- The head of the retry loop; with no attempt allowed it falls through to the last look.
def firstAttempt (attempts : Nat) : Progress :=
  if 1 ≤ attempts then .paying 1 else .checkingLate "unknown error"

def start (attempts : Nat) (job : PayoutJob) : Progress :=
  if job.checkLandedFirst then .checkingFirst else firstAttempt attempts

def next (attempts : Nat) : Progress → PayoutEvent → Option Progress
  | .checkingFirst, .lookup outcome =>
    match outcome.answer with
    | some txId => some (.settled txId)
    | none => some (firstAttempt attempts)
  | .paying _, .paid txId => some (.settled txId)
  | .paying attempt, .threw reason _ => some (.checkingAfter attempt reason)
  | .checkingAfter attempt reason, .lookup outcome =>
    match outcome.answer with
    | some txId => some (.settled txId)
    | none =>
      if attempt < attempts then some (.sleeping attempt reason) else some (.checkingLate reason)
  | .sleeping attempt _, .wake => some (.paying (attempt + 1))
  | .checkingLate reason, .lookup outcome =>
    match outcome.answer with
    | some txId => some (.settled txId)
    | none => some (.failed reason)
  | _, _ => none

def isSettled : Progress → Bool
  | .settled _ => true
  | _ => false

def isPaying : Progress → Bool
  | .paying _ => true
  | _ => false

def ended : Progress → Bool
  | .settled _ | .failed _ => true
  | _ => false

end Progress

structure PayoutRun where
  job : PayoutJob
  progress : Progress
  deriving DecidableEq, Repr

end X402Mesh.Settlement
