import Mathlib.Data.List.Perm.Lattice
import X402Mesh.Settlement.Accounting
import X402Mesh.Settlement.Partition

set_option autoImplicit false

namespace X402Mesh.Settlement

open Registry Text

namespace Service

variable (cfg : Deps)

def batchIds (svc : Service) : List String := svc.jobs.filterMap (·.batchId)

-- Each id with whether it was resumed from a stored row.
def named (svc : Service) : List (Bool × String) :=
  svc.jobs.filterMap fun job => job.batchId.map (job.checkLandedFirst, ·)

def resumedIds (svc : Service) : List String := (svc.named.filter (·.1)).map (·.2)

theorem named_ids (svc : Service) : svc.named.map (·.2) = svc.batchIds := by
  rw [named, batchIds, List.map_filterMap]
  apply List.filterMap_congr
  intro job _
  cases job.batchId <;> rfl

def numbersOf (first count : Nat) : List Nat := List.range' (first + 1) count

theorem numbersOf_append (first count more : Nat) :
    numbersOf first count ++ numbersOf (first + count) more = numbersOf first (count + more) := by
  simp only [numbersOf]
  rw [← List.range'_append_1]
  congr 2
  omega

-- The batches from one state to another take the next numbers, and are named after them.
def Names (name : Nat → String) (before after : Service) : Prop :=
  ∃ (count : Nat) (resumed : List String), after.batchSeq = before.batchSeq + count ∧
    after.named.Perm (before.named ++ (resumed.map (true, ·) ++
      (numbersOf before.batchSeq count).map fun n => (false, name n)))

namespace Names

variable {name : Nat → String} {a b c : Service}

theorem of_eq (seq : b.batchSeq = a.batchSeq) (named : b.named = a.named) : Names name a b :=
  ⟨0, [], seq, by rw [named]; simp [numbersOf]⟩

theorem refl (svc : Service) : Names name svc svc := of_eq rfl rfl

theorem of_jobs (seq : b.batchSeq = a.batchSeq) (jobs : b.jobs = a.jobs) : Names name a b :=
  of_eq seq (by rw [named, named, jobs])

theorem of_bookkeeping (kept : Bookkeeping a b) : Names name a b :=
  of_jobs kept.batchSeq (by rw [jobs, jobs, kept.payouts])

theorem trans (left : Names name a b) (right : Names name b c) : Names name a c := by
  obtain ⟨count, resumed, seq, named⟩ := left
  obtain ⟨more, later, last, namedLater⟩ := right
  refine ⟨count + more, resumed ++ later, by omega, ?_⟩
  rw [← numbersOf_append, ← seq]
  rw [List.perm_iff_count] at named namedLater ⊢
  intro entry
  have first := named entry
  have second := namedLater entry
  simp only [List.count_append, List.map_append] at first second ⊢
  omega

theorem foldl {α : Type} (f : Service → α → Service) (each : ∀ svc a, Names name svc (f svc a))
    (svc : Service) (as : List α) : Names name svc (as.foldl f svc) := by
  induction as generalizing svc with
  | nil => exact refl svc
  | cons a rest ih => exact (each svc a).trans (ih (f svc a))

end Names

section operations

variable {name : Nat → String}

theorem enqueueStore_names (svc : Service) (key : String) (ops : List StoreOp) :
    Names name svc (enqueueStore cfg svc key ops) := by
  unfold enqueueStore
  split <;> exact .of_jobs rfl rfl

theorem releaseBatch_names (svc : Service) (batchId : Option String) (operatorAddress : String) :
    Names name svc (releaseBatch cfg svc batchId operatorAddress) := by
  cases batchId with
  | none => exact .refl svc
  | some batchId => exact enqueueStore_names cfg svc operatorAddress _

theorem dropLiability_names (svc : Service) (batchId : Option String) :
    Names name svc (svc.dropLiability batchId) := by
  cases batchId <;> exact .of_jobs rfl rfl

theorem annotate_names (svc : Service) (batchId : Option String) (reason : String)
    (attemptAt : Nat) : Names name svc (svc.annotate batchId reason attemptAt) := by
  cases batchId with
  | none => exact .refl svc
  | some batchId =>
    unfold annotate
    dsimp only
    cases svc.batchLiabilities.get? batchId <;> exact .of_jobs rfl rfl

theorem finalizeSettled_names (svc : Service) (records : List SettlementRecord)
    (txId batchId : Option String) (settledAt : Nat) :
    Names name svc (finalizeSettled cfg svc records txId batchId settledAt) :=
  ((dropLiability_names svc batchId).trans (releaseBatch_names cfg _ batchId _)).trans
    (.of_bookkeeping (updateAll_bookkeeping cfg _ records _))

theorem finalize_names (svc : Service) (job : PayoutJob) (progress : Progress)
    (attemptAt settledAt : Nat) :
    Names name svc (finalize cfg svc job progress attemptAt settledAt) := by
  cases progress with
  | settled txId => exact finalizeSettled_names cfg svc _ _ _ _
  | failed reason =>
    exact (annotate_names svc job.batchId reason attemptAt).trans
      (.of_bookkeeping (updateAll_bookkeeping cfg _ job.records _))
  | _ => exact .refl svc

theorem resumePayout_names {svc svc' : Service} {index : Nat} {event : PayoutEvent}
    {attemptAt settledAt : Nat}
    (resumed : resumePayout cfg svc index event attemptAt settledAt = some svc') :
    Names name svc svc' := by
  unfold resumePayout at resumed
  simp only [Option.bind_eq_bind, Option.bind_eq_some_iff, Option.pure_def,
    Option.some.injEq] at resumed
  obtain ⟨run, found, progress, -, rfl⟩ := resumed
  have moves : Names name svc (moved cfg svc index run.job progress) :=
    .of_jobs rfl (jobs_moved cfg svc index run progress found)
  exact moves.trans (finalize_names cfg _ run.job progress attemptAt settledAt)

theorem jobs_runPayout {svc base : Service} (jobs : svc.jobs = base.jobs) (job : PayoutJob) :
    (runPayout cfg svc job).jobs = base.jobs ++ [job] := by
  rw [← jobs]
  simp [Service.jobs, runPayout]

-- A payout that starts under a new id.
theorem runPayout_names {svc base : Service} {job : PayoutJob}
    (seq : svc.batchSeq = base.batchSeq + 1) (jobs : svc.jobs = base.jobs)
    (id : job.batchId = some (name svc.batchSeq)) (own : job.checkLandedFirst = false) :
    Names name base (runPayout cfg svc job) := by
  have later := jobs_runPayout cfg jobs job
  refine ⟨1, [], seq, ?_⟩
  simp [named, later, id, own, numbersOf, seq]

theorem runPayout_resumed {svc base : Service} {job : PayoutJob} (batchId : String)
    (seq : svc.batchSeq = base.batchSeq) (jobs : svc.jobs = base.jobs)
    (id : job.batchId = some batchId) (stored : job.checkLandedFirst = true) :
    Names name base (runPayout cfg svc job) := by
  have later := jobs_runPayout cfg jobs job
  refine ⟨0, [batchId], seq, ?_⟩
  simp [named, later, id, stored, numbersOf]

theorem runPayout_single {svc base : Service} {job : PayoutJob}
    (seq : svc.batchSeq = base.batchSeq) (jobs : svc.jobs = base.jobs) (id : job.batchId = none) :
    Names name base (runPayout cfg svc job) := by
  have later := jobs_runPayout cfg jobs job
  exact .of_eq seq (by simp [named, later, id])

theorem flushAccrual_names (svc : Service) (operatorAddress : String) (now : Nat)
    (reads : batchIdOf now (svc.batchSeq + 1) = name (svc.batchSeq + 1)) :
    Names name svc (flushAccrual cfg svc operatorAddress now) := by
  unfold flushAccrual
  cases svc.accruals.get? operatorAddress with
  | none => exact .refl svc
  | some accrual =>
    dsimp only
    split
    next => exact .refl svc
    next =>
      cases sumPayouts accrual.records with
      | none => exact .of_jobs rfl rfl
      | some summed =>
        simp only [carve, enqueueStore]
        split
        · exact runPayout_names cfg rfl rfl (congrArg some reads) rfl
        · exact runPayout_names cfg rfl rfl (congrArg some reads) rfl

theorem flushPayouts_names (svc : Service) (now : Nat → Nat)
    (reads : ∀ n, batchIdOf (now n) (n + 1) = name (n + 1)) :
    Names name svc (flushPayouts cfg svc now) :=
  .foldl _ (fun svc operatorAddress =>
    flushAccrual_names cfg svc operatorAddress (now svc.batchSeq) (reads svc.batchSeq)) svc _

theorem push_names (svc : Service) (record : SettlementRecord) (payout : Int)
    (accruedAt flushedAt : Nat)
    (reads : batchIdOf flushedAt (svc.batchSeq + 1) = name (svc.batchSeq + 1)) :
    Names name svc (push cfg svc record payout accruedAt flushedAt) := by
  have put : Names name svc (svc.putAccrual (svc.extended record payout accruedAt)) :=
    .of_jobs rfl rfl
  unfold push
  dsimp only
  split
  next => exact put.trans (flushAccrual_names cfg _ _ _ reads)
  next =>
    split
    next => exact put.trans (flushAccrual_names cfg _ _ _ reads)
    next => exact (put.trans (enqueueStore_names cfg _ _ _)).trans (.of_jobs rfl rfl)

theorem schedule_names (svc : Service) (record : SettlementRecord) (now : Readings)
    (reads : batchIdOf now.flushedAt (svc.batchSeq + 1) = name (svc.batchSeq + 1)) :
    Names name svc (schedule cfg svc record now) := by
  unfold schedule
  cases Money.bigInt record.payoutAtomic with
  | none => exact .refl svc
  | some payout =>
    dsimp only
    split
    next => exact finalizeSettled_names cfg svc _ _ _ _
    next =>
      split
      next =>
        have marked := update_bookkeeping cfg { svc with accepted := svc.accepted ++ [record] }
          record.requestId { record with status := .accrued }
        have taken : Names name svc { svc with accepted := svc.accepted ++ [record] } :=
          .of_jobs rfl rfl
        refine (taken.trans (.of_bookkeeping marked)).trans (push_names cfg _ _ _ _ _ ?_)
        rw [marked.batchSeq]
        exact reads
      next => exact runPayout_single cfg rfl rfl rfl

theorem settleInbound_names (svc : Service) (inbound : InboundSettlement) (now : Readings)
    (reads : batchIdOf now.flushedAt (svc.batchSeq + 1) = name (svc.batchSeq + 1)) :
    Names name svc (settleInbound cfg svc inbound now) := by
  unfold settleInbound
  cases svc.routing.get? inbound.requestId with
  | none => exact .refl svc
  | some note =>
    dsimp only
    split
    next => exact .of_jobs rfl rfl
    next =>
      cases openRecord cfg inbound note now.createdAt with
      | error e => exact .of_jobs rfl rfl
      | ok record =>
        have stored := remember_bookkeeping cfg
          { svc with
            routing := svc.routing.erase inbound.requestId
            claimed := inbound.requestId :: svc.claimed } record
        have taken : Names name svc
            { svc with
              routing := svc.routing.erase inbound.requestId
              claimed := inbound.requestId :: svc.claimed } := .of_jobs rfl rfl
        refine (taken.trans (.of_bookkeeping stored)).trans (schedule_names cfg _ record now ?_)
        rw [stored.batchSeq]
        exact reads

theorem dropRecovered_names (svc : Service) (stored : PersistedAccrual) :
    Names name svc (dropRecovered cfg svc stored) := by
  unfold dropRecovered
  cases stored.batchId <;> exact enqueueStore_names cfg svc _ _

theorem payRow_jobs (svc : Service) (stored : PersistedAccrual) (records : List StoredRecord)
    (summed : Int) (batchId : String) (resumed : Bool) :
    ∃ base, base.batchSeq = svc.batchSeq ∧ base.jobs = svc.jobs ∧
      payRow cfg svc stored records summed batchId resumed = runPayout cfg base
        (batchJob batchId stored.operatorAddress summed (records.map (·.cast)) resumed) := by
  refine ⟨_, ?_, ?_, rfl⟩ <;> simp only [enqueueStore] <;> split <;> rfl

theorem recoverPay_names (svc : Service) (stored : PersistedAccrual) (records : List StoredRecord)
    (summed : Int) (now : Nat → Nat) (reads : ∀ n, recoveredIdOf (now n) n = name n) :
    Names name svc (recoverPay cfg svc stored records summed now) := by
  unfold recoverPay
  cases resumedId stored with
  | some batchId =>
    obtain ⟨base, seq, jobs, paid⟩ := payRow_jobs cfg svc stored records summed batchId true
    dsimp only
    rw [paid]
    exact runPayout_resumed cfg batchId seq jobs rfl rfl
  | none =>
    obtain ⟨base, seq, jobs, paid⟩ := payRow_jobs cfg { svc with batchSeq := svc.batchSeq + 1 }
      stored records summed (recoveredIdOf (now (svc.batchSeq + 1)) (svc.batchSeq + 1)) false
    dsimp only
    rw [paid]
    refine runPayout_names cfg seq jobs ?_ rfl
    rw [seq]
    exact congrArg some (reads (svc.batchSeq + 1))

theorem recoverRow_names (now : Nat → Nat) (state : Recovery) (stored : PersistedAccrual)
    (reads : ∀ n, recoveredIdOf (now n) n = name n) :
    Names name state.svc (recoverRow cfg now state stored).svc := by
  unfold recoverRow
  split
  next => exact .refl state.svc
  next =>
    dsimp only
    have seeded : Names name state.svc
        (reseed cfg state.svc ((payable state.handled stored).map (·.cast))) :=
      .of_bookkeeping (reseed_bookkeeping cfg state.svc _)
    split
    next => exact (dropLiability_names state.svc _).trans (dropRecovered_names cfg _ stored)
    next =>
      split
      next => exact seeded
      next =>
        split
        next =>
          exact (seeded.trans (dropLiability_names _ _)).trans (dropRecovered_names cfg _ stored)
        next => exact seeded.trans (recoverPay_names cfg _ stored _ _ now reads)

theorem recoverAccruals_names (svc : Service)
    (loaded : Option (List PersistedAccrual × List PersistedAccrual)) (now : Nat → Nat)
    (reads : ∀ n, recoveredIdOf (now n) n = name n) :
    Names name svc (recoverAccruals cfg svc loaded now) := by
  have folded (rows : List PersistedAccrual) (state : Recovery) :
      Names name state.svc (rows.foldl (recoverRow cfg now) state).svc := by
    induction rows generalizing state with
    | nil => exact .refl state.svc
    | cons row rest ih =>
      rw [List.foldl_cons]
      exact (recoverRow_names cfg now state row reads).trans (ih _)
  unfold recoverAccruals
  split
  next =>
    cases loaded with
    | none => exact .refl svc
    | some rows => exact folded _ ⟨svc, [], false⟩
  next => exact .refl svc

end operations

end Service

section naming

variable {ι : Type} [DecidableEq ι] (cfg : Deps) (i : ι) (clock : Nat → Nat)

open Service

def Action.recovers : Action ι → Bool
  | .recoverAccruals j .. => decide (j = i)
  | _ => false

-- `clock n` is what process `i`, which stays up, reads when it names its batch number `n`.
def World.Follows (w : World ι) : Action ι → Prop
  | .settleInbound j _ now => j = i → now.flushedAt = clock ((w.service i).batchSeq + 1)
  | .deadline j _ now => j = i → now = clock ((w.service i).batchSeq + 1)
  | .flushPayouts j now => j = i → ∀ n, now n = clock (n + 1)
  | .recoverAccruals j _ now => j = i → ∀ n, now n = clock n
  | .restart j => j ≠ i
  | .boot j .. => j ≠ i
  | _ => True

def recoveredName (n : Nat) : String := recoveredIdOf (clock n) n

def flushedName (n : Nat) : String := batchIdOf (clock n) n

theorem names_step {w w' : World ι} {a : Action ι} (follows : w.Follows i clock a)
    (taken : World.step cfg w a = some w') :
    Names (if a.recovers i then recoveredName clock else flushedName clock)
      (w.service i) (w'.service i) := by
  have turned (name : Nat → String) (j : ι) (w : World ι) (svc : Service)
      (own : i = j → Names name (w.service i) svc) :
      Names name (w.service i) ((w.turn j svc).service i) := by
    rw [World.turn_service]
    split
    next same => exact (own same).trans (.of_jobs rfl rfl)
    next => exact .refl _
  have written (name : Nat → String) (j : ι) (w : World ι) (key : String)
      (works : List (Work StoreOp)) :
      Names name (w.service i) ((w.setWrites j key works).service i) := by
    rw [World.setWrites_service]
    split
    next same => exact same ▸ .of_jobs rfl rfl
    next => exact .refl _
  cases a with
  | recordRouting j requestId nodeId operatorAddress now =>
    cases taken
    exact turned _ j w _ fun same => same ▸ .of_jobs rfl rfl
  | settleInbound j inbound now =>
    cases taken
    refine turned _ j w _ fun same => ?_
    subst same
    exact settleInbound_names cfg _ inbound now (congrArg (batchIdOf · _) (follows rfl))
  | deadline j operatorAddress now =>
    rw [World.deadline_inv taken]
    refine turned _ j w _ fun same => ?_
    subst same
    exact flushAccrual_names cfg _ operatorAddress now (congrArg (batchIdOf · _) (follows rfl))
  | flushPayouts j now =>
    cases taken
    refine turned _ j w _ fun same => ?_
    subst same
    exact flushPayouts_names cfg _ now fun n => congrArg (batchIdOf · _) (follows rfl n)
  | payout j index event attemptAt settledAt =>
    obtain ⟨svc, run, progress, resumed, -, -, rfl⟩ := World.payout_inv taken
    refine turned _ j (w.recordOutcome run.job event progress) svc fun same => ?_
    subst same
    exact resumePayout_names cfg resumed
  | callWrite j key =>
    obtain ⟨works, -, rfl⟩ := World.callWrite_inv taken
    exact written _ j w key works
  | applyWrite j key =>
    obtain ⟨op, works, rows, -, -, rfl⟩ := World.applyWrite_inv taken
    exact written _ j (w.withRows rows) key works
  | resolveWrite j key =>
    obtain ⟨op, works, -, rfl⟩ := World.resolveWrite_inv taken
    exact written _ j { w with trace := w.trace ++ World.completed op } key works
  | rejectWrite j key =>
    obtain ⟨works, -, rfl⟩ := World.rejectWrite_inv taken
    exact written _ j w key works
  | readOpen j addresses =>
    rw [World.readOpen_inv taken]
    exact .refl _
  | readBatches j batchIds =>
    rw [World.readBatches_inv taken]
    exact .refl _
  | hydrateLedger j history =>
    cases taken
    exact turned _ j w _ fun same => same ▸ .of_bookkeeping (hydrateLedger_bookkeeping cfg _ history)
  | recoverAccruals j ok now =>
    cases taken
    refine turned _ j w _ fun same => ?_
    subst same
    refine recoverAccruals_names cfg _ _ now fun n => ?_
    simp [Action.recovers, recoveredName, follows rfl n]
  | restart j =>
    cases taken
    rw [World.restart_service, if_neg (Ne.symm follows)]
    exact .refl _
  | boot j addresses batchIds history ok now =>
    obtain ⟨-, -, rfl⟩ := World.boot_inv taken
    rw [World.turn_service, if_neg (Ne.symm follows), World.restart_service,
      if_neg (Ne.symm follows)]
    exact .refl _

-- The numbers that process `i` gives out in its recoveries, and those that it gives out elsewhere.
def numbers (recovering : Bool) : World ι → List (Action ι) → List Nat
  | _, [] => []
  | w, a :: rest =>
    match World.step cfg w a with
    | none => []
    | some next =>
      (if a.recovers i = recovering then
        numbersOf (w.service i).batchSeq ((next.service i).batchSeq - (w.service i).batchSeq)
      else []) ++ numbers recovering next rest

theorem numbers_sorted (recovering : Bool) {w : World ι} {actions : List (Action ι)}
    (follows : Transition.Allows (World.step cfg) (World.Follows i clock) w actions) :
    (numbers cfg i recovering w actions).Pairwise (· < ·) ∧
      ∀ n ∈ numbers cfg i recovering w actions, (w.service i).batchSeq < n := by
  induction actions generalizing w with
  | nil => simp [numbers]
  | cons a rest ih =>
    simp only [numbers]
    cases taken : World.step cfg w a with
    | none => simp
    | some next =>
      obtain ⟨count, -, seq, -⟩ := names_step cfg i clock follows.1 taken
      obtain ⟨sorted, above⟩ := ih (follows.2 next taken)
      have own : ∀ n ∈ numbersOf (w.service i).batchSeq count,
          (w.service i).batchSeq < n ∧ n ≤ (next.service i).batchSeq := by
        intro n member
        rw [numbersOf, List.mem_range'_1] at member
        omega
      have gained : (next.service i).batchSeq - (w.service i).batchSeq = count := by omega
      dsimp only
      rw [gained]
      split
      next =>
        refine ⟨List.pairwise_append.mpr ⟨List.pairwise_lt_range', sorted, ?_⟩, ?_⟩
        · intro m first n later
          exact (own m first).2.trans_lt (above n later)
        · intro n member
          cases List.mem_append.mp member with
          | inl first => exact (own n first).1
          | inr later => exact (Nat.le_add_right _ _).trans_lt (seq ▸ above n later)
      next =>
        refine ⟨sorted, fun n member => ?_⟩
        exact (Nat.le_add_right _ _).trans_lt (seq ▸ above n member)

theorem names_replay {w w' : World ι} {actions : List (Action ι)}
    (follows : Transition.Allows (World.step cfg) (World.Follows i clock) w actions)
    (replayed : Transition.replay (World.step cfg) w actions = some w') :
    ∃ resumed : List String, (w'.service i).named.Perm ((w.service i).named ++
      (resumed.map (true, ·) ++
        ((numbers cfg i true w actions).map (fun n => (false, recoveredName clock n)) ++
          (numbers cfg i false w actions).map fun n => (false, flushedName clock n)))) := by
  induction actions generalizing w with
  | nil =>
    obtain rfl : w = w' := by simpa [Transition.replay] using replayed
    exact ⟨[], by simp [numbers]⟩
  | cons a rest ih =>
    obtain ⟨next, taken, later⟩ := Option.bind_eq_some_iff.mp replayed
    obtain ⟨count, resumed, seq, named⟩ := names_step cfg i clock follows.1 taken
    obtain ⟨more, namedLater⟩ := ih (follows.2 next taken) later
    have gained : (next.service i).batchSeq - (w.service i).batchSeq = count := by omega
    refine ⟨resumed ++ more, ?_⟩
    simp only [numbers, taken, gained]
    rw [List.perm_iff_count] at named namedLater ⊢
    intro entry
    have first := named entry
    have second := namedLater entry
    cases recovers : a.recovers i <;>
      simp only [recovers, Bool.false_eq_true, if_true, if_false, List.count_append, List.map_append,
        List.map_nil, List.count_nil, reduceCtorEq] at first second ⊢ <;> omega

/-- What sets the ids of a process apart: the stored ones, and those that it makes under its clock.
-/
structure Apart (resumed : List String) (recovered flushed : List Nat) : Prop where
  stored : resumed.Nodup
  notRecovered : ∀ b ∈ resumed, ∀ m ∈ recovered, b ≠ toString36 (clock m) ++ "-r" ++ toString36 m
  notFlushed : ∀ b ∈ resumed, ∀ n ∈ flushed, b ≠ toString36 (clock n) ++ "-" ++ toString36 n
  numbered : ∀ m ∈ recovered, ∀ n ∈ flushed, clock m = clock n → toString36 n ≠ "r" ++ toString36 m

theorem recoveredName_eq_flushedName (m n : Nat) : recoveredName clock m = flushedName clock n ↔
    clock m = clock n ∧ toString36 n = "r" ++ toString36 m := by
  rw [recoveredName, recoveredIdOf_cut, flushedName, batchIdOf]
  constructor
  next =>
    intro same
    obtain ⟨reading, suffix⟩ := dash_cut _ _ _ _ same
    exact ⟨reading, suffix.symm⟩
  next =>
    intro same
    rw [same.1, same.2]

theorem apart_iff {resumed : List String} {recovered flushed : List Nat} (fresh : recovered.Nodup)
    (counted : flushed.Nodup) :
    (resumed ++ (recovered.map (recoveredName clock) ++ flushed.map (flushedName clock))).Nodup ↔
      Apart clock resumed recovered flushed := by
  have made : (recovered.map (recoveredName clock)).Nodup :=
    fresh.map fun m n same => recoveredIdOf_injective same
  have carved : (flushed.map (flushedName clock)).Nodup :=
    counted.map fun m n same => (dash_suffix_injective _ _ _ _ same).2
  constructor
  next =>
    intro nodup
    obtain ⟨stored, ours, away⟩ := List.nodup_append.mp nodup
    obtain ⟨-, -, across⟩ := List.nodup_append.mp ours
    refine ⟨stored, fun b member m recovers => ?_, fun b member n flushes => ?_,
      fun m recovers n flushes reading overlap => ?_⟩
    · exact away b member _ (List.mem_append_left _ (List.mem_map_of_mem recovers))
    · exact away b member _ (List.mem_append_right _ (List.mem_map_of_mem flushes))
    · exact across _ (List.mem_map_of_mem recovers) _ (List.mem_map_of_mem flushes)
        ((recoveredName_eq_flushedName clock m n).mpr ⟨reading, overlap⟩)
  next =>
    intro apart
    refine List.nodup_append.mpr ⟨apart.stored, List.nodup_append.mpr ⟨made, carved, ?_⟩, ?_⟩
    · intro a recovers b flushes same
      obtain ⟨m, listed, rfl⟩ := List.mem_map.mp recovers
      obtain ⟨n, given, rfl⟩ := List.mem_map.mp flushes
      obtain ⟨reading, overlap⟩ := (recoveredName_eq_flushedName clock m n).mp same
      exact apart.numbered m listed n given reading overlap
    · intro b member other ours same
      cases List.mem_append.mp ours with
      | inl recovers =>
        obtain ⟨m, listed, rfl⟩ := List.mem_map.mp recovers
        exact apart.notRecovered b member m listed same
      | inr flushes =>
        obtain ⟨n, given, rfl⟩ := List.mem_map.mp flushes
        exact apart.notFlushed b member n given same

-- The ids of one process are apart in every run from its start, under every clock.
def IdsDistinct : Prop :=
  ∀ (clock : Nat → Nat) (w w' : World ι) (actions : List (Action ι)), w.service i = .init →
    Transition.Allows (World.step cfg) (World.Follows i clock) w actions →
    Transition.replay (World.step cfg) w actions = some w' → (w'.service i).batchIds.Nodup

theorem batch_ids_distinct_iff (w w' : World ι) (actions : List (Action ι))
    (started : w.service i = .init)
    (follows : Transition.Allows (World.step cfg) (World.Follows i clock) w actions)
    (replayed : Transition.replay (World.step cfg) w actions = some w') :
    (w'.service i).batchIds.Nodup ↔ Apart clock (w'.service i).resumedIds
      (numbers cfg i true w actions) (numbers cfg i false w actions) := by
  obtain ⟨resumed, named⟩ := names_replay cfg i clock follows replayed
  have none_before : (w.service i).named = [] := by rw [started]; rfl
  rw [none_before, List.nil_append] at named
  have stored : (w'.service i).resumedIds.Perm resumed := by
    have kept := (named.filter (·.1)).map (·.2)
    simpa [resumedIds, List.filter_append, List.filter_map, Function.comp_def] using kept
  have ids := named.map (·.2)
  rw [named_ids, List.map_append, List.map_append, List.map_map, List.map_map, List.map_map] at ids
  have split : (w'.service i).batchIds.Perm ((w'.service i).resumedIds ++
      ((numbers cfg i true w actions).map (recoveredName clock) ++
        (numbers cfg i false w actions).map (flushedName clock))) := by
    refine ids.trans (List.Perm.append_right _ ?_)
    simpa [Function.comp_def] using stored.symm
  rw [split.nodup_iff]
  exact apart_iff clock ((numbers_sorted cfg i clock true follows).1.imp ne_of_lt)
    ((numbers_sorted cfg i clock false follows).1.imp ne_of_lt)

end naming

-- The two renderings overlap from the 973rd batch on.
example : toString36 973 = "r" ++ toString36 1 := by decide

def storedUnder (batchId : String) : World Unit :=
  World.start (Rows.empty.putBatch batchId
    { Service.openRow "OPERATOR" "r1" "1700" with batchId := some batchId })

def resumedThenFlushed (batchId : String) : List (Action Unit) :=
  [.readBatches () [batchId], .recoverAccruals () true fun _ => 20] ++
    (World.paidFor () "r2" 20 ++ [.flushPayouts () fun _ => 20])

theorem resumedThenFlushed_follows (batchId : String) (w : World Unit) :
    Transition.Allows (World.step World.demoDeps) (World.Follows () fun _ => 20) w
      (resumedThenFlushed batchId) := by
  apply Transition.allows_of_forall
  intro s a member
  simp only [resumedThenFlushed, World.paidFor, List.cons_append, List.nil_append, List.mem_cons,
    List.not_mem_nil, or_false] at member
  rcases member with rfl | rfl | rfl | rfl | rfl <;> simp [World.Follows]

theorem batch_ids_distinct_one_resumed :
    ∃ w', Transition.replay (World.step World.demoDeps) (storedUnder "b1")
        (resumedThenFlushed "b1") = some w' ∧
      Apart (fun _ => 20) (w'.service ()).resumedIds
        (numbers World.demoDeps () true (storedUnder "b1") (resumedThenFlushed "b1"))
        (numbers World.demoDeps () false (storedUnder "b1") (resumedThenFlushed "b1")) :=
  ⟨_, rfl, (batch_ids_distinct_iff World.demoDeps () (fun _ => 20) (storedUnder "b1") _ _ rfl
    (resumedThenFlushed_follows "b1" _) rfl).mp (by decide)⟩

theorem batch_id_given_twice : ¬ IdsDistinct World.demoDeps () := by
  intro distinct
  have nodup := distinct (fun _ => 20) (storedUnder "k-1") _ (resumedThenFlushed "k-1") rfl
    (resumedThenFlushed_follows "k-1" _) rfl
  revert nodup
  decide

end X402Mesh.Settlement
