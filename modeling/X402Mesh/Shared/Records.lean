import Mathlib.Data.List.Basic

set_option autoImplicit false

namespace X402Mesh

inductive Status
  | pending | accrued | settled | failed
  deriving DecidableEq, Repr

structure SettlementRecord where
  requestId : String
  nodeId : String
  payerAddress : String
  operatorAddress : String
  inboundAtomic : String
  payoutAtomic : String
  marginAtomic : String
  inboundTxId : String
  payoutTxId : Option String
  batchId : Option String
  status : Status
  error : Option String
  createdAt : Nat
  settledAt : Option Nat
  deriving DecidableEq, Repr

/-- What a stored JSON value shows of a record: a field that is missing or has another type is none.
-/
structure StoredRecord where
  requestId : Option String
  nodeId : Option String
  payerAddress : Option String
  operatorAddress : Option String
  inboundAtomic : Option String
  payoutAtomic : Option String
  marginAtomic : Option String
  inboundTxId : Option String
  payoutTxId : Option String
  batchId : Option String
  status : Option Status
  error : Option String
  createdAt : Option Nat
  settledAt : Option Nat
  deriving DecidableEq, Repr

namespace StoredRecord

def usable (r : StoredRecord) : Bool := r.payoutAtomic.isSome && r.requestId.isSome

-- `as SettlementRecord`. A missing operator address is only ever read as `?? ""`.
def cast (r : StoredRecord) : SettlementRecord where
  requestId := r.requestId.getD ""
  nodeId := r.nodeId.getD ""
  payerAddress := r.payerAddress.getD ""
  operatorAddress := r.operatorAddress.getD ""
  inboundAtomic := r.inboundAtomic.getD ""
  payoutAtomic := r.payoutAtomic.getD ""
  marginAtomic := r.marginAtomic.getD ""
  inboundTxId := r.inboundTxId.getD ""
  payoutTxId := r.payoutTxId
  batchId := r.batchId
  status := r.status.getD .accrued
  error := r.error
  createdAt := r.createdAt.getD 0
  settledAt := r.settledAt

end StoredRecord

-- `JSON.stringify` followed by `JSON.parse`.
def SettlementRecord.stored (r : SettlementRecord) : StoredRecord where
  requestId := some r.requestId
  nodeId := some r.nodeId
  payerAddress := some r.payerAddress
  operatorAddress := some r.operatorAddress
  inboundAtomic := some r.inboundAtomic
  payoutAtomic := some r.payoutAtomic
  marginAtomic := some r.marginAtomic
  inboundTxId := some r.inboundTxId
  payoutTxId := r.payoutTxId
  batchId := r.batchId
  status := some r.status
  error := r.error
  createdAt := some r.createdAt
  settledAt := r.settledAt

@[simp] theorem SettlementRecord.cast_stored (r : SettlementRecord) : r.stored.cast = r := rfl

@[simp] theorem SettlementRecord.usable_stored (r : SettlementRecord) : r.stored.usable = true := rfl

end X402Mesh
