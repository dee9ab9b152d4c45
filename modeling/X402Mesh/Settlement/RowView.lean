import X402Mesh.Settlement.Accruing

set_option autoImplicit false

namespace X402Mesh.Settlement

open Registry Service

section rows

variable (arrays : String → Nat → List SettlementRecord)

def openStep (key : String) (row : Option PersistedAccrual) : StoreOp → Option PersistedAccrual
  | .putOpen operatorAddress serial firstAt =>
    if operatorAddress = key then
      some (persisted operatorAddress (arrays operatorAddress serial) firstAt none)
    else row
  | .putOpenRow stored => if stored.operatorAddress = key then some stored else row
  | .removeOpen operatorAddress => if operatorAddress = key then none else row
  | _ => row

def batchStep (batchId : String) (row : Option PersistedAccrual) :
    StoreOp → Option PersistedAccrual
  | .putBatch id stored => if id = batchId then some stored else row
  | .removeBatch id => if id = batchId then none else row
  | _ => row

def openKey : StoreOp → Option String
  | .putOpen operatorAddress _ _ | .removeOpen operatorAddress => some operatorAddress
  | .putOpenRow stored => some stored.operatorAddress
  | _ => none

def batchKey : StoreOp → Option String
  | .putBatch id _ | .removeBatch id => some id
  | _ => none

def openAfter (key : String) (ops : List StoreOp) (row : Option PersistedAccrual) :
    Option PersistedAccrual :=
  ops.foldl (openStep arrays key) row

def batchAfter (batchId : String) (ops : List StoreOp) (row : Option PersistedAccrual) :
    Option PersistedAccrual :=
  ops.foldl (batchStep batchId) row

theorem openStep_effect (key : String) (op : StoreOp) (before after : Rows)
    (effect : op.effect before = some after) :
    after.openRows.get? key = openStep arrays key (before.openRows.get? key) op := by
  cases op <;> simp only [StoreOp.effect, Option.some.injEq, reduceCtorEq] at effect <;>
    subst effect <;>
    simp only [openStep, Rows.putOpen, Rows.removeOpen, Rows.putBatch, Rows.removeBatch,
      OrderedMap.get?_set, OrderedMap.get?_erase, eq_comm]

theorem batchStep_effect (batchId : String) (op : StoreOp) (before after : Rows)
    (effect : op.effect before = some after) :
    after.batchRows.get? batchId = batchStep batchId (before.batchRows.get? batchId) op := by
  cases op <;> simp only [StoreOp.effect, Option.some.injEq, reduceCtorEq] at effect <;>
    subst effect <;>
    simp only [batchStep, Rows.putOpen, Rows.removeOpen, Rows.putBatch, Rows.removeBatch,
      OrderedMap.get?_set, OrderedMap.get?_erase, eq_comm]

theorem openStep_serialize (key : String) (row : Option PersistedAccrual) (op : StoreOp) :
    openStep arrays key row (op.serialize arrays) = openStep arrays key row op := by
  cases op <;> simp [openStep, StoreOp.serialize, persisted]

theorem batchStep_serialize (batchId : String) (row : Option PersistedAccrual) (op : StoreOp) :
    batchStep batchId row (op.serialize arrays) = batchStep batchId row op := by
  cases op <;> simp [batchStep, StoreOp.serialize]

theorem openKey_serialize (op : StoreOp) : openKey (op.serialize arrays) = openKey op := by
  cases op <;> rfl

theorem batchKey_serialize (op : StoreOp) : batchKey (op.serialize arrays) = batchKey op := by
  cases op <;> rfl

theorem openStep_other (key : String) (row : Option PersistedAccrual) (op : StoreOp)
    (other : openKey op ≠ some key) : openStep arrays key row op = row := by
  cases op <;> simp_all [openStep, openKey]

theorem batchStep_other (batchId : String) (row : Option PersistedAccrual) (op : StoreOp)
    (other : batchKey op ≠ some batchId) : batchStep batchId row op = row := by
  cases op <;> simp_all [batchStep, batchKey]

-- A row that is there after a write was put by it, or was there before.
theorem batchRow_after {batchId : String} {row : PersistedAccrual} {op : StoreOp}
    {before after : Rows} (effect : op.effect before = some after)
    (found : after.batchRows.get? batchId = some row) :
    op = .putBatch batchId row ∨
      before.batchRows.get? batchId = some row ∧ op ≠ .removeBatch batchId := by
  rw [batchStep_effect batchId op before after effect] at found
  cases op with
  | putBatch id stored =>
    simp only [batchStep] at found
    split at found
    next same =>
      subst same
      cases found
      exact .inl rfl
    next => exact .inr ⟨found, nofun⟩
  | removeBatch id =>
    simp only [batchStep] at found
    split at found
    next => cases found
    next differ => exact .inr ⟨found, fun same => differ (StoreOp.removeBatch.inj same)⟩
  | _ => exact .inr ⟨found, nofun⟩

theorem openRow_after {key : String} {row : PersistedAccrual} {op : StoreOp}
    {before after : Rows} (effect : op.effect before = some after)
    (found : after.openRows.get? key = some row) :
    op = .putOpenRow row ∧ row.operatorAddress = key ∨
      before.openRows.get? key = some row ∧ op ≠ .removeOpen key := by
  rw [openStep_effect (fun _ _ => []) key op before after effect] at found
  cases op with
  | putOpen operatorAddress serial firstAt => cases effect
  | putOpenRow stored =>
    simp only [openStep] at found
    split at found
    next same =>
      cases found
      exact .inl ⟨rfl, same⟩
    next => exact .inr ⟨found, nofun⟩
  | removeOpen operatorAddress =>
    simp only [openStep] at found
    split at found
    next => cases found
    next differ => exact .inr ⟨found, fun same => differ (StoreOp.removeOpen.inj same)⟩
  | _ => exact .inr ⟨found, nofun⟩

theorem openAfter_ledger (key : String) (records : List SettlementRecord)
    (row : Option PersistedAccrual) :
    openAfter arrays key (records.map .putLedger) row = row := by
  unfold openAfter
  induction records with
  | nil => rfl
  | cons record rest ih => exact ih

theorem batchAfter_ledger (batchId : String) (records : List SettlementRecord)
    (row : Option PersistedAccrual) : batchAfter batchId (records.map .putLedger) row = row := by
  unfold batchAfter
  induction records with
  | nil => rfl
  | cons record rest ih => exact ih

theorem openAfter_congr (other : String → Nat → List SettlementRecord) (key : String)
    (same : other key = arrays key) (ops : List StoreOp) (row : Option PersistedAccrual) :
    openAfter other key ops row = openAfter arrays key ops row := by
  have steps : openStep other key = openStep arrays key := by
    funext row op
    cases op with
    | putOpen operatorAddress serial firstAt =>
      by_cases own : operatorAddress = key
      · subst own
        simp [openStep, same]
      · simp [openStep, own]
    | _ => rfl
  unfold openAfter
  rw [steps]

end rows

end X402Mesh.Settlement
