import Mathlib.Logic.Function.Basic
import X402Mesh.Lib.Transition
import X402Mesh.Settlement.Service

set_option autoImplicit false

-- `ι` names the processes. They share the stored rows and the chain, and nothing else.

namespace X402Mesh.Settlement

open Registry

/-- A payout transaction that committed. -/
structure Payment where
  payoutId : String
  receiver : String
  requestIds : List String
  deriving DecidableEq, Repr

def Payment.ofJob (job : PayoutJob) : Payment := ⟨job.payoutId, job.receiver, job.requestIds⟩

inductive Event
  | pay (request : PayoutRequest)
  | putBatch (batchId : String) (row : PersistedAccrual)
  deriving DecidableEq, Repr

/-- What a `loadAll` in progress has read so far. -/
structure Reads where
  openRows : List PersistedAccrual
  batches : List PersistedAccrual
  deriving DecidableEq, Repr

/-- The `trace` records the calls of `pay` and the batch writes that completed, and `settled` is a
ghost: the requests of the payouts that ended settled. -/
structure World (ι : Type) where
  rows : Rows
  landed : List Payment
  trace : List Event
  settled : List String
  service : ι → Service
  reads : ι → Reads

inductive Action (ι : Type)
  | recordRouting (i : ι) (requestId nodeId operatorAddress : String) (now : Nat)
  | settleInbound (i : ι) (inbound : InboundSettlement) (now : Service.Readings)
  | deadline (i : ι) (operatorAddress : String) (now : Nat)
  | flushPayouts (i : ι) (now : Nat → Nat)
  | payout (i : ι) (index : Nat) (event : PayoutEvent) (attemptAt settledAt : Nat)
  | callWrite (i : ι) (key : String)
  | applyWrite (i : ι) (key : String)
  | resolveWrite (i : ι) (key : String)
  | rejectWrite (i : ι) (key : String)
  | readOpen (i : ι) (addresses : List String)
  | readBatches (i : ι) (batchIds : List String)
  | hydrateLedger (i : ι) (history : Option (List StoredRecord))
  | recoverAccruals (i : ι) (ok : Bool) (now : Nat → Nat)
  | restart (i : ι)
  | boot (i : ι) (addresses batchIds : List String) (history : Option (List StoredRecord))
      (ok : Bool) (now : Nat → Nat)

-- Whether the step is one of a payout that is under way.
def Action.pays {ι : Type} : Action ι → Bool
  | .payout .. => true
  | _ => false

namespace World

variable {ι : Type} [DecidableEq ι] (cfg : Deps)

def start (rows : Rows) : World ι where
  rows := rows
  landed := []
  trace := []
  settled := []
  service := fun _ => .init
  reads := fun _ => ⟨[], []⟩

-- A turn of process `i` ends: the calls it made are on their way.
def turn (w : World ι) (i : ι) (svc : Service) : World ι :=
  { w with
    trace := w.trace ++ svc.outbox.map .pay
    service := Function.update w.service i { svc with outbox := [] } }

def withRows (w : World ι) (rows : Rows) : World ι := { w with rows := rows }

def lands : PayoutEvent → Bool
  | .paid _ => true
  | .threw _ landed => landed
  | _ => false

-- The payment is on the chain by the time `pay` returns, or it never is.
def recordOutcome (w : World ι) (job : PayoutJob) (event : PayoutEvent) (progress : Progress) :
    World ι :=
  { w with
    landed := w.landed ++ if lands event then [.ofJob job] else []
    settled := w.settled ++ if progress.isSettled then job.requestIds else [] }

def payoutStep (w : World ι) (i : ι) (index : Nat) (event : PayoutEvent)
    (attemptAt settledAt : Nat) : Option (World ι) := do
  let svc ← Service.resumePayout cfg (w.service i) index event attemptAt settledAt
  let run ← (w.service i).payouts[index]?
  let progress ← run.progress.next cfg.attempts event
  return (w.recordOutcome run.job event progress).turn i svc

def setWrites (w : World ι) (i : ι) (key : String) (works : List (Work StoreOp)) : World ι :=
  { w with service := Function.update w.service i ((w.service i).setChain key works) }

def callWrite (w : World ι) (i : ι) (key : String) : Option (World ι) := do
  let svc := w.service i
  let works ← WriteChain.call (StoreOp.serialize svc.arrays) (svc.chain key)
  return w.setWrites i key works

def applyWrite (w : World ι) (i : ι) (key : String) : Option (World ι) := do
  let (op, works) ← WriteChain.apply ((w.service i).chain key)
  let rows ← op.effect w.rows
  return (w.withRows rows).setWrites i key works

def completed : StoreOp → List Event
  | .putBatch batchId row => [.putBatch batchId row]
  | _ => []

def resolveWrite (w : World ι) (i : ι) (key : String) : Option (World ι) := do
  let (op, works) ← WriteChain.resolve ((w.service i).chain key)
  return { w with trace := w.trace ++ completed op }.setWrites i key works

def rejectWrite (w : World ι) (i : ι) (key : String) : Option (World ι) := do
  let works ← WriteChain.reject ((w.service i).chain key)
  return w.setWrites i key works

def setReads (w : World ι) (i : ι) (reads : Reads) : World ι :=
  { w with reads := Function.update w.reads i reads }

def restart (w : World ι) (i : ι) : World ι :=
  { w with
    service := Function.update w.service i .init
    reads := Function.update w.reads i ⟨[], []⟩ }

-- What `loadAll` answers when nothing is written while it reads.
def loadAll (rows : Rows) (addresses batchIds : List String) :
    List PersistedAccrual × List PersistedAccrual :=
  (rows.readOpen addresses, rows.readBatches batchIds)

def step (w : World ι) : Action ι → Option (World ι)
  | .recordRouting i requestId nodeId operatorAddress now =>
    some (w.turn i ((w.service i).recordRouting requestId nodeId operatorAddress now))
  | .settleInbound i inbound now =>
    some (w.turn i (Service.settleInbound cfg (w.service i) inbound now))
  | .deadline i operatorAddress now =>
    (Service.deadline cfg (w.service i) operatorAddress now).map (w.turn i)
  | .flushPayouts i now => some (w.turn i (Service.flushPayouts cfg (w.service i) now))
  | .payout i index event attemptAt settledAt =>
    payoutStep cfg w i index event attemptAt settledAt
  | .callWrite i key => w.callWrite i key
  | .applyWrite i key => w.applyWrite i key
  | .resolveWrite i key => w.resolveWrite i key
  | .rejectWrite i key => w.rejectWrite i key
  | .readOpen i addresses =>
    if addresses.Nodup then
      some (w.setReads i { w.reads i with openRows := w.rows.readOpen addresses })
    else none
  | .readBatches i batchIds =>
    if batchIds.Nodup then
      some (w.setReads i { w.reads i with batches := w.rows.readBatches batchIds })
    else none
  | .hydrateLedger i history => some (w.turn i (Service.hydrateLedger cfg (w.service i) history))
  | .recoverAccruals i ok now =>
    let loaded := ((w.reads i).openRows, (w.reads i).batches)
    some (w.turn i
      (Service.recoverAccruals cfg (w.service i) (if ok then some loaded else none) now))
  | .restart i => some (w.restart i)
  | .boot i addresses batchIds history ok now =>
    if addresses.Perm w.rows.openRows.keys ∧ batchIds.Perm w.rows.batchRows.keys then
      let loaded := loadAll w.rows addresses batchIds
      let svc := Service.hydrateLedger cfg .init history
      some ((w.restart i).turn i
        (Service.recoverAccruals cfg svc (if ok then some loaded else none) now))
    else none

theorem turn_service (w : World ι) (i j : ι) (svc : Service) :
    (w.turn i svc).service j = if j = i then { svc with outbox := [] } else w.service j := by
  by_cases same : j = i
  · subst same
    simp [turn]
  · simp [turn, same]

theorem setWrites_service (w : World ι) (i j : ι) (key : String) (works : List (Work StoreOp)) :
    (w.setWrites i key works).service j =
      if j = i then (w.service i).setChain key works else w.service j := by
  by_cases same : j = i
  · subst same
    simp [setWrites]
  · simp [setWrites, same]

theorem restart_service (w : World ι) (i j : ι) :
    (w.restart i).service j = if j = i then .init else w.service j := by
  by_cases same : j = i
  · subst same
    simp [restart]
  · simp [restart, same]

theorem setReads_reads (w : World ι) (i j : ι) (reads : Reads) :
    (w.setReads i reads).reads j = if j = i then reads else w.reads j := by
  by_cases same : j = i
  · subst same
    simp [setReads]
  · simp [setReads, same]

theorem restart_reads (w : World ι) (i j : ι) :
    (w.restart i).reads j = if j = i then ⟨[], []⟩ else w.reads j := by
  by_cases same : j = i
  · subst same
    simp [restart]
  · simp [restart, same]

-- The gateway's defaults, except that two payouts of 1700 reach the batching threshold.
def demoDeps : Deps where
  marginBps := 1500
  batchMinAtomic := 3000
  payoutBatchMaxRequests := 50
  payoutBatchMaxDelayMs := 900000
  assetId := "10458941"
  attempts := 4
  maxLedgerEntries := 1000
  accrualStore := true
  ledgerStore := false

def paidFor (i : ι) (requestId : String) (now : Nat) : List (Action ι) :=
  [.recordRouting i requestId "node-a" "OPERATOR" now,
    .settleInbound i ⟨requestId, "PAYER", "IN-" ++ requestId, 2000⟩ ⟨now, now, now⟩]

-- The write at the head of the operator's chain, from its call to its acknowledgement.
def written (i : ι) : List (Action ι) :=
  [.callWrite i "OPERATOR", .applyWrite i "OPERATOR", .resolveWrite i "OPERATOR"]

section inversion

variable {cfg} {w w' : World ι} {i : ι}

theorem deadline_inv {operatorAddress : String} {now : Nat}
    (taken : step cfg w (.deadline i operatorAddress now) = some w') :
    w' = w.turn i (Service.flushAccrual cfg (w.service i) operatorAddress now) := by
  simp only [step, Service.deadline, Option.map_eq_some_iff, Option.bind_eq_bind,
    Option.bind_eq_some_iff, Option.ite_none_right_eq_some, Option.some.injEq] at taken
  obtain ⟨_, ⟨accrual, found, armed, rfl⟩, rfl⟩ := taken
  rfl

theorem payout_inv {index : Nat} {event : PayoutEvent} {attemptAt settledAt : Nat}
    (taken : step cfg w (.payout i index event attemptAt settledAt) = some w') :
    ∃ svc run progress,
      Service.resumePayout cfg (w.service i) index event attemptAt settledAt = some svc ∧
      (w.service i).payouts[index]? = some run ∧
      run.progress.next cfg.attempts event = some progress ∧
      w' = (w.recordOutcome run.job event progress).turn i svc := by
  simp only [step, payoutStep, Option.bind_eq_bind, Option.bind_eq_some_iff, Option.pure_def,
    Option.some.injEq] at taken
  obtain ⟨svc, resumed, run, found, progress, advanced, rfl⟩ := taken
  exact ⟨svc, run, progress, resumed, found, advanced, rfl⟩

theorem callWrite_inv {key : String} (taken : step cfg w (.callWrite i key) = some w') :
    ∃ works, WriteChain.call (StoreOp.serialize (w.service i).arrays) ((w.service i).chain key) =
        some works ∧ w' = w.setWrites i key works := by
  simp only [step, callWrite, Option.bind_eq_bind, Option.bind_eq_some_iff, Option.pure_def,
    Option.some.injEq] at taken
  obtain ⟨works, called, rfl⟩ := taken
  exact ⟨works, called, rfl⟩

theorem applyWrite_inv {key : String} (taken : step cfg w (.applyWrite i key) = some w') :
    ∃ op works rows, WriteChain.apply ((w.service i).chain key) = some (op, works) ∧
      op.effect w.rows = some rows ∧ w' = (w.withRows rows).setWrites i key works := by
  simp only [step, applyWrite, Option.bind_eq_bind, Option.bind_eq_some_iff, Option.pure_def,
    Option.some.injEq, Prod.exists] at taken
  obtain ⟨op, works, applied, rows, effect, rfl⟩ := taken
  exact ⟨op, works, rows, applied, effect, rfl⟩

theorem resolveWrite_inv {key : String} (taken : step cfg w (.resolveWrite i key) = some w') :
    ∃ op works, WriteChain.resolve ((w.service i).chain key) = some (op, works) ∧
      w' = { w with trace := w.trace ++ completed op }.setWrites i key works := by
  simp only [step, resolveWrite, Option.bind_eq_bind, Option.bind_eq_some_iff, Option.pure_def,
    Option.some.injEq, Prod.exists] at taken
  obtain ⟨op, works, resolved, rfl⟩ := taken
  exact ⟨op, works, resolved, rfl⟩

theorem rejectWrite_inv {key : String} (taken : step cfg w (.rejectWrite i key) = some w') :
    ∃ works, WriteChain.reject ((w.service i).chain key) = some works ∧
      w' = w.setWrites i key works := by
  simp only [step, rejectWrite, Option.bind_eq_bind, Option.bind_eq_some_iff, Option.pure_def,
    Option.some.injEq] at taken
  obtain ⟨works, rejected, rfl⟩ := taken
  exact ⟨works, rejected, rfl⟩

theorem readOpen_inv {addresses : List String}
    (taken : step cfg w (.readOpen i addresses) = some w') :
    w' = w.setReads i { w.reads i with openRows := w.rows.readOpen addresses } := by
  simp only [step, Option.ite_none_right_eq_some, Option.some.injEq] at taken
  exact taken.2.symm

theorem readBatches_inv {batchIds : List String}
    (taken : step cfg w (.readBatches i batchIds) = some w') :
    w' = w.setReads i { w.reads i with batches := w.rows.readBatches batchIds } := by
  simp only [step, Option.ite_none_right_eq_some, Option.some.injEq] at taken
  exact taken.2.symm

theorem boot_inv {addresses batchIds : List String} {history : Option (List StoredRecord)}
    {ok : Bool} {now : Nat → Nat}
    (taken : step cfg w (.boot i addresses batchIds history ok now) = some w') :
    addresses.Perm w.rows.openRows.keys ∧ batchIds.Perm w.rows.batchRows.keys ∧
      w' = (w.restart i).turn i (Service.recoverAccruals cfg
        (Service.hydrateLedger cfg .init history)
        (if ok then some (loadAll w.rows addresses batchIds) else none) now) := by
  simp only [step, Option.ite_none_right_eq_some, Option.some.injEq] at taken
  obtain ⟨⟨everyOpen, everyBatch⟩, rfl⟩ := taken
  exact ⟨everyOpen, everyBatch, rfl⟩

theorem step_landed {a : Action ι} (other : a.pays = false) (taken : step cfg w a = some w') :
    w'.landed = w.landed := by
  cases a with
  | payout => cases other
  | deadline =>
    rw [deadline_inv taken]
    rfl
  | callWrite =>
    obtain ⟨works, -, rfl⟩ := callWrite_inv taken
    rfl
  | applyWrite =>
    obtain ⟨op, works, rows, -, -, rfl⟩ := applyWrite_inv taken
    rfl
  | resolveWrite =>
    obtain ⟨op, works, -, rfl⟩ := resolveWrite_inv taken
    rfl
  | rejectWrite =>
    obtain ⟨works, -, rfl⟩ := rejectWrite_inv taken
    rfl
  | readOpen =>
    rw [readOpen_inv taken]
    rfl
  | readBatches =>
    rw [readBatches_inv taken]
    rfl
  | boot =>
    obtain ⟨-, -, rfl⟩ := boot_inv taken
    rfl
  | _ =>
    cases taken
    rfl

end inversion

end World

end X402Mesh.Settlement
