import X402Mesh.Lib.OrderedMap
import X402Mesh.Shared.Records

set_option autoImplicit false

namespace X402Mesh.Registry

structure PersistedAccrual where
  operatorAddress : String
  records : List StoredRecord
  firstAt : Option Nat
  batchId : Option String
  deriving DecidableEq, Repr

/-- The rows an accrual store holds, under `accrual:open:<address>` and `accrual:batch:<batchId>`.
-/
structure Rows where
  openRows : OrderedMap String PersistedAccrual
  batchRows : OrderedMap String PersistedAccrual

namespace Rows

def empty : Rows := ⟨.empty, .empty⟩

def putOpen (rows : Rows) (accrual : PersistedAccrual) : Rows :=
  { rows with openRows := rows.openRows.set accrual.operatorAddress accrual }

def removeOpen (rows : Rows) (operatorAddress : String) : Rows :=
  { rows with openRows := rows.openRows.erase operatorAddress }

def putBatch (rows : Rows) (batchId : String) (accrual : PersistedAccrual) : Rows :=
  { rows with batchRows := rows.batchRows.set batchId accrual }

def removeBatch (rows : Rows) (batchId : String) : Rows :=
  { rows with batchRows := rows.batchRows.erase batchId }

-- The two halves of `loadAll`: an index that was read earlier, then the values it names.
def readOpen (rows : Rows) (addresses : List String) : List PersistedAccrual :=
  addresses.filterMap rows.openRows.get?

def named (accrual : PersistedAccrual) : Bool :=
  match accrual.batchId with
  | some batchId => batchId ≠ ""
  | none => false

def readBatches (rows : Rows) (batchIds : List String) : List PersistedAccrual :=
  (batchIds.filterMap rows.batchRows.get?).filter named

end Rows

end X402Mesh.Registry
