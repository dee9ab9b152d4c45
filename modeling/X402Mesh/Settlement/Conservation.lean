import Mathlib.Tactic.Ring
import X402Mesh.Settlement.Accounting

set_option autoImplicit false

namespace X402Mesh.Settlement

open Service Money

variable (cfg : Deps)

def Action.serving {ι : Type} : Action ι → Bool
  | .hydrateLedger .. | .recoverAccruals .. | .restart _ | .boot .. => false
  | _ => true

namespace Service

theorem Conserved.silent {before after : Service} (conserved : Conserved before)
    (claimed : after.claimed = before.claimed) (accruals : after.accruals = before.accruals)
    (arrays : after.arrays = before.arrays) (batchSeq : after.batchSeq = before.batchSeq)
    (batchLiabilities : after.batchLiabilities = before.batchLiabilities)
    (payouts : after.payouts = before.payouts) (accepted : after.accepted = before.accepted) :
    Conserved after where
  sound := conserved.sound.mono arrays claimed fun _ _ held => by rwa [accruals] at held
  taken := by rw [accepted, claimed]; exact conserved.taken
  distinct := by rw [accepted]; exact conserved.distinct
  parts := by
    unfold accrued jobs
    rw [accepted, accruals, payouts]
    exact conserved.parts
  counted := by rw [batchSeq, payouts]; exact conserved.counted
  numbered := by rw [payouts]; exact conserved.numbered
  jobSound := by rw [payouts]; exact conserved.jobSound
  mirrored := by
    unfold Unsettled
    rw [batchLiabilities, payouts]
    exact conserved.mirrored

theorem Conserved.flushAccrual {svc : Service} (conserved : Conserved svc)
    (operatorAddress : String) (now : Nat) : Conserved (flushAccrual cfg svc operatorAddress now) := by
  cases found : svc.accruals.get? operatorAddress with
  | none => rwa [flushAccrual_absent cfg svc _ now found]
  | some accrual =>
    rw [flushAccrual_found cfg svc _ now accrual found (conserved.sound _ _ found)]
    exact conserved.detach cfg _ _ now found

end Service

theorem conserved_step {ι : Type} [DecidableEq ι] (batching : 0 < cfg.batchMinAtomic) (i : ι)
    (w : World ι) (a : Action ι) (w' : World ι)
    (conserved : Conserved (w.service i) ∧ LedgerSplit (w.service i)) (serving : a.serving = true)
    (taken : World.step cfg w a = some w') :
    Conserved (w'.service i) ∧ LedgerSplit (w'.service i) := by
  have turned (w : World ι) (conserved : Conserved (w.service i) ∧ LedgerSplit (w.service i))
      (j : ι) (svc : Service) (own : j = i → Conserved svc ∧ LedgerSplit svc) :
      Conserved ((w.turn j svc).service i) ∧ LedgerSplit ((w.turn j svc).service i) := by
    by_cases same : i = j
    · subst same
      obtain ⟨held, split⟩ := own rfl
      simp only [World.turn, Function.update_self]
      exact ⟨held.silent rfl rfl rfl rfl rfl rfl rfl, split⟩
    · simpa [World.turn, same] using conserved
  have written (w : World ι) (conserved : Conserved (w.service i) ∧ LedgerSplit (w.service i))
      (j : ι) (key : String) (works : List (Work StoreOp)) :
      Conserved ((w.setWrites j key works).service i) ∧
        LedgerSplit ((w.setWrites j key works).service i) := by
    by_cases same : i = j
    · subst same
      simp only [World.setWrites, Function.update_self]
      exact ⟨conserved.1.silent rfl rfl rfl rfl rfl rfl rfl, conserved.2⟩
    · simpa [World.setWrites, same] using conserved
  cases a with
  | recordRouting j requestId nodeId operatorAddress now =>
    cases taken
    refine turned w conserved j _ ?_
    rintro rfl
    exact ⟨conserved.1.silent rfl rfl rfl rfl rfl rfl rfl, conserved.2⟩
  | settleInbound j inbound now =>
    cases taken
    refine turned w conserved j _ ?_
    rintro rfl
    exact ⟨conserved.1.settleInbound cfg batching inbound now,
      conserved.2.settleInbound cfg inbound now⟩
  | deadline j operatorAddress now =>
    rw [World.deadline_inv taken]
    refine turned w conserved j _ ?_
    rintro rfl
    refine ⟨conserved.1.flushAccrual cfg operatorAddress now, ?_⟩
    unfold LedgerSplit
    rw [flushAccrual_ledger]
    exact conserved.2
  | flushPayouts j now =>
    cases taken
    refine turned w conserved j _ ?_
    rintro rfl
    have flushed := flushPayouts_induction cfg (P := Conserved) now
      (fun svc operatorAddress accrual now held _ found => held.detach cfg _ _ now found)
      (w.service j) conserved.1 conserved.1.sound
    refine ⟨flushed.1, ?_⟩
    unfold LedgerSplit
    rw [flushPayouts_ledger]
    exact conserved.2
  | payout j index event attemptAt settledAt =>
    obtain ⟨svc, run, progress, resumed, -, -, rfl⟩ := World.payout_inv taken
    refine turned (w.recordOutcome run.job event progress) conserved j svc ?_
    rintro rfl
    exact ⟨conserved.1.resumePayout cfg index event attemptAt settledAt resumed,
      conserved.2.resumePayout cfg conserved.1.jobSound index event attemptAt settledAt resumed⟩
  | callWrite j key =>
    obtain ⟨works, -, rfl⟩ := World.callWrite_inv taken
    exact written w conserved j key works
  | applyWrite j key =>
    obtain ⟨op, works, rows, -, -, rfl⟩ := World.applyWrite_inv taken
    exact written (w.withRows rows) conserved j key works
  | resolveWrite j key =>
    obtain ⟨op, works, -, rfl⟩ := World.resolveWrite_inv taken
    exact written { w with trace := w.trace ++ World.completed op } conserved j key works
  | rejectWrite j key =>
    obtain ⟨works, -, rfl⟩ := World.rejectWrite_inv taken
    exact written w conserved j key works
  | readOpen j addresses =>
    rw [World.readOpen_inv taken]
    exact conserved
  | readBatches j batchIds =>
    rw [World.readBatches_inv taken]
    exact conserved
  | hydrateLedger | recoverAccruals | restart | boot => cases serving

theorem run_conserved {ι : Type} [DecidableEq ι] (batching : 0 < cfg.batchMinAtomic) (i : ι)
    (rows : Registry.Rows) (w : World ι)
    (run : Transition.Run (World.step cfg) (fun _ a => a.serving = true) (World.start rows) w) :
    Conserved (w.service i) ∧ LedgerSplit (w.service i) :=
  run.invariant (P := fun w => Conserved (w.service i) ∧ LedgerSplit (w.service i))
    ⟨conserved_init, by simp [World.start, LedgerSplit, init, OrderedMap.values, OrderedMap.empty]⟩
    fun w a w' held serving taken => conserved_step cfg batching i w a w' held serving taken

namespace Service

inductive Place
  | accruing (operatorAddress : String)
  | unpaid (payout : Nat)
  | settled (payout : Nat)
  deriving DecidableEq, Repr

def holders (svc : Service) : List (Place × List String) :=
  svc.accruals.entries.map
      (fun entry => (.accruing entry.1, entry.2.records.map (·.requestId))) ++
    svc.payouts.zipIdx.map fun (run, n) =>
      (if run.progress.isSettled then .settled n else .unpaid n, run.job.requestIds)

def Holds (svc : Service) (requestId : String) (place : Place) : Prop :=
  ∃ ids, (place, ids) ∈ svc.holders ∧ requestId ∈ ids

theorem unique_holder {α β : Type} (f : α → List β) (l : List α) (nodup : (l.flatMap f).Nodup)
    {a b : α} (left : a ∈ l) (right : b ∈ l) {x : β} (inLeft : x ∈ f a) (inRight : x ∈ f b) :
    a = b := by
  induction l with
  | nil => cases left
  | cons c rest ih =>
    rw [List.flatMap_cons, List.nodup_append] at nodup
    obtain ⟨-, tail, apart⟩ := nodup
    have clash {d : α} (member : d ∈ rest) (first : x ∈ f c) (second : x ∈ f d) : False :=
      apart x first x (List.mem_flatMap.mpr ⟨d, member, second⟩) rfl
    rcases List.mem_cons.mp left with rfl | leftLater
    · rcases List.mem_cons.mp right with rfl | rightLater
      · rfl
      · exact (clash rightLater inLeft inRight).elim
    · rcases List.mem_cons.mp right with rfl | rightLater
      · exact (clash leftLater inRight inLeft).elim
      · exact ih tail leftLater rightLater

theorem Conserved.holders_perm {svc : Service} (conserved : Conserved svc) :
    (svc.accepted.map (·.requestId)).Perm (svc.holders.flatMap (·.2)) := by
  have paid (l : List PayoutRun) (k : Nat) :
      ((l.zipIdx k).map fun (run, n) => ((if run.progress.isSettled then Place.settled n
        else .unpaid n, run.job.requestIds) : Place × List String)).flatMap (·.2) =
      (l.map (·.job)).flatMap (·.requestIds) := by
    induction l generalizing k with
    | nil => rfl
    | cons run rest ih => simp [List.zipIdx_cons, ih]
  refine (conserved.parts.map _).trans (.of_eq ?_)
  simp only [holders, List.flatMap_append, paid, List.map_append, accrued, jobs, List.map_flatMap,
    List.flatMap_map]
  rfl

theorem Conserved.one_place {svc : Service} (conserved : Conserved svc) (r : SettlementRecord)
    (accepted : r ∈ svc.accepted) : ∃! place, svc.Holds r.requestId place := by
  have perm := conserved.holders_perm
  have found := perm.subset (List.mem_map_of_mem accepted)
  obtain ⟨⟨place, ids⟩, member, inside⟩ := List.mem_flatMap.mp found
  refine ⟨place, ⟨ids, member, inside⟩, ?_⟩
  rintro other ⟨otherIds, otherMember, otherInside⟩
  have same := unique_holder (·.2) svc.holders (perm.nodup_iff.mp conserved.distinct) otherMember
    member otherInside inside
  exact congrArg Prod.fst same

theorem Conserved.one_job {svc : Service} (conserved : Conserved svc) {n m : Nat}
    {run run' : PayoutRun} (found : svc.payouts[n]? = some run)
    (found' : svc.payouts[m]? = some run') {id : String} (inside : id ∈ run.job.requestIds)
    (inside' : id ∈ run'.job.requestIds) : n = m := by
  have held (k : Nat) (r : PayoutRun) (present : svc.payouts[k]? = some r) :
      ((if r.progress.isSettled then Place.settled k else .unpaid k, r.job.requestIds) :
        Place × List String) ∈ svc.holders := by
    refine List.mem_append_right _ (List.mem_map.mpr ⟨(r, k), ?_, rfl⟩)
    exact List.mk_mem_zipIdx_iff_getElem?.mpr present
  have same := unique_holder (·.2) svc.holders
    (conserved.holders_perm.nodup_iff.mp conserved.distinct) (held n run found) (held m run' found')
    inside inside'
  have places := congrArg Prod.fst same
  dsimp only at places
  split at places <;> split at places <;> simp_all

def PendingPayout.owed (p : PendingPayout) : Int := (bigInt p.owedAtomic).getD 0

def settledIds (svc : Service) : List String :=
  (svc.payouts.filter (·.progress.isSettled)).flatMap (·.job.requestIds)

def unpaid (svc : Service) : List SettlementRecord :=
  svc.accepted.filter fun r => r.requestId ∉ svc.settledIds

theorem bigInt_toString_nonneg (a : Int) (bound : 0 ≤ a) : bigInt (toString a) = some a :=
  bigInt_atomicToWire a _ (by simp [atomicToWire, not_lt.mpr bound])

theorem Conserved.job_amount {svc : Service} (conserved : Conserved svc) {run : PayoutRun}
    (member : run ∈ svc.payouts) : run.job.amountAtomic = owed run.job.records := by
  obtain ⟨n, found⟩ := List.mem_iff_getElem?.mp member
  obtain ⟨now, same⟩ := conserved.numbered n run found
  rw [same]
  rfl

-- The liability mirror holds one entry for each payout that has not settled.
theorem Conserved.mirror_perm {svc : Service} (conserved : Conserved svc) :
    (svc.batchLiabilities.entries.map fun entry => (some entry.1, liable entry.2)).Perm
      ((svc.payouts.filter fun run => !run.progress.isSettled).map fun run =>
        (run.job.batchId, liableFor run.job)) := by
  refine (List.perm_ext_iff_of_nodup ?_ ?_).mpr ?_
  · refine List.Nodup.of_map Prod.fst ?_
    have keys := svc.batchLiabilities.nodup.map (Option.some_injective String)
    rw [List.map_map] at keys ⊢
    exact keys
  · refine List.Nodup.of_map Prod.fst ?_
    have ids : (svc.payouts.map (·.job.batchId)).Nodup := by
      rw [List.nodup_iff_injective_getElem]
      rintro ⟨n, below⟩ ⟨m, bound⟩ same
      simp only [List.length_map] at below bound
      refine Fin.ext (conserved.index_unique (List.getElem?_eq_getElem below)
        (List.getElem?_eq_getElem bound) ?_)
      simpa using same
    rw [List.map_map]
    exact ids.sublist (List.filter_sublist.map _)
  · rintro ⟨batchId, due⟩
    have mirrored : (batchId, due) ∈ (svc.batchLiabilities.entries.map fun entry =>
        (some entry.1, liable entry.2)) ↔
          ∃ b, batchId = some b ∧ (svc.batchLiabilities.get? b).map liable = some due := by
      simp only [List.mem_map, Prod.mk.injEq, Prod.exists, Option.map_eq_some_iff,
        OrderedMap.get?_eq_some]
      constructor
      · rintro ⟨b, l, member, rfl, rfl⟩
        exact ⟨b, rfl, l, member, rfl⟩
      · rintro ⟨b, rfl, l, member, rfl⟩
        exact ⟨b, l, member, rfl, rfl⟩
    rw [mirrored]
    simp only [conserved.mirrored, List.mem_map, List.mem_filter, Prod.mk.injEq,
      Bool.not_eq_true']
    constructor
    · rintro ⟨b, rfl, n, run, found, unsettled, id, same⟩
      exact ⟨run, ⟨List.mem_of_getElem? found, unsettled⟩, id, same⟩
    · rintro ⟨run, ⟨member, unsettled⟩, rfl, same⟩
      obtain ⟨n, found⟩ := List.mem_iff_getElem?.mp member
      obtain ⟨now, id⟩ := (conserved.numbered n run found).batchId
      exact ⟨_, id, n, run, found, unsettled, id, same⟩

theorem sum_perm_map {α : Type} (f : α → Int) {l l' : List α} (perm : l.Perm l') :
    (l.map f).sum = (l'.map f).sum :=
  (perm.map f).sum_eq

theorem Conserved.accruing_owed {svc : Service} (conserved : Conserved svc) :
    ((svc.accruals.values.map (accruing cfg)).map PendingPayout.owed).sum = owed svc.accrued := by
  have entry (e : String × Accrual) (member : e ∈ svc.accruals.entries) :
      PendingPayout.owed (accruing cfg e.2) = owed e.2.records := by
    have held := conserved.sound _ _ ((OrderedMap.get?_eq_some _ _ _).mpr member)
    have positive := owed_positive _ held.nonempty held.priced
    rw [← held.total] at positive ⊢
    change (bigInt (toString e.2.totalAtomic)).getD 0 = _
    rw [bigInt_toString_nonneg _ positive.le]
    rfl
  have sums (l : List (String × Accrual)) (inside : ∀ e ∈ l, e ∈ svc.accruals.entries) :
      (l.map fun e => PendingPayout.owed (accruing cfg e.2)).sum =
        owed (l.flatMap fun e => e.2.records) := by
    induction l with
    | nil => rfl
    | cons e rest ih =>
      rw [List.map_cons, List.sum_cons, List.flatMap_cons, owed_append,
        entry e (inside e (by simp)), ih fun e member => inside e (by simp [member])]
  rw [OrderedMap.values, List.map_map, List.map_map]
  exact sums svc.accruals.entries fun _ member => member

theorem Conserved.batched_owed {svc : Service} (conserved : Conserved svc) :
    ((svc.batchLiabilities.values.map batched).map PendingPayout.owed).sum =
      owed ((svc.payouts.filter fun run => !run.progress.isSettled).flatMap (·.job.records)) := by
  have positive (run : PayoutRun) (member : run ∈ svc.payouts) : 0 < run.job.amountAtomic := by
    have sound := conserved.jobSound run member
    rw [conserved.job_amount member]
    exact owed_positive _ sound.nonempty sound.priced
  have shown (l : BatchLiability) (member : l ∈ svc.batchLiabilities.values) :
      PendingPayout.owed (batched l) = l.owedAtomic := by
    obtain ⟨b, found⟩ := (OrderedMap.mem_values _ _).mp member
    obtain ⟨n, run, present, -, -, same⟩ :=
      (conserved.mirrored b (liable l)).mp (by rw [found]; rfl)
    have amount : run.job.amountAtomic = l.owedAtomic := congrArg Liable.owedAtomic same
    change (bigInt (toString l.owedAtomic)).getD 0 = _
    rw [bigInt_toString_nonneg _ (amount ▸ (positive run (List.mem_of_getElem? present)).le)]
    rfl
  have mirrored := sum_perm_map (fun entry : Option String × Liable => entry.2.owedAtomic)
    conserved.mirror_perm
  have amounts (l : List PayoutRun) (inside : ∀ run ∈ l, run ∈ svc.payouts) :
      (l.map fun run => run.job.amountAtomic).sum = owed (l.flatMap (·.job.records)) := by
    induction l with
    | nil => rfl
    | cons run rest ih =>
      rw [List.map_cons, List.sum_cons, List.flatMap_cons, owed_append,
        conserved.job_amount (inside run (by simp)), ih fun r member => inside r (by simp [member])]
  rw [← amounts _ fun run member => (List.mem_filter.mp member).1]
  rw [List.map_map, List.map_map] at mirrored
  calc ((svc.batchLiabilities.values.map batched).map PendingPayout.owed).sum
      = (svc.batchLiabilities.values.map (·.owedAtomic)).sum := by
        rw [List.map_map]
        exact congrArg List.sum (List.map_congr_left shown)
    _ = _ := by
        rw [OrderedMap.values, List.map_map]
        exact mirrored

theorem filter_append_of {α : Type} (p : α → Bool) (kept dropped : List α)
    (keeps : ∀ a ∈ kept, p a = true) (drops : ∀ a ∈ dropped, p a = false) :
    (kept ++ dropped).filter p = kept := by
  have none_left : dropped.filter p = [] := by
    rw [List.filter_eq_nil_iff]
    intro a member
    simp [drops a member]
  rw [List.filter_append, List.filter_eq_self.mpr keeps, none_left, List.append_nil]

-- The requests not yet settled are the accruing ones and those of the payouts not yet settled.
theorem Conserved.unpaid_perm {svc : Service} (conserved : Conserved svc) :
    svc.unpaid.Perm (svc.accrued ++
      (svc.payouts.filter fun run => !run.progress.isSettled).flatMap (·.job.records)) := by
  have split := (List.filter_append_perm (fun run : PayoutRun => run.progress.isSettled)
    svc.payouts).flatMap_right (·.job.records)
  rw [List.flatMap_append] at split
  have whole : svc.accepted.Perm
      ((svc.accrued ++ (svc.payouts.filter fun run => !run.progress.isSettled).flatMap
        (·.job.records)) ++
          (svc.payouts.filter (·.progress.isSettled)).flatMap (·.job.records)) := by
    rw [List.append_assoc]
    refine conserved.parts.trans (.append_left _ (.trans (.of_eq ?_)
      (split.symm.trans List.perm_append_comm)))
    simp [jobs, List.flatMap_map]
  have ids := (whole.map (·.requestId)).nodup_iff.mp conserved.distinct
  rw [List.map_append, List.nodup_append] at ids
  have settled : svc.settledIds = ((svc.payouts.filter (·.progress.isSettled)).flatMap
      (·.job.records)).map (·.requestId) := by
    rw [settledIds, List.map_flatMap]
    rfl
  refine (whole.filter _).trans (.of_eq ?_)
  rw [settled]
  apply filter_append_of
  · intro r member
    simp only [decide_eq_true_eq]
    intro paid
    exact ids.2.2 _ (List.mem_map_of_mem member) _ paid rfl
  · intro r member
    simpa using List.mem_map_of_mem (f := SettlementRecord.requestId) member

theorem Conserved.pending_owed {svc : Service} (conserved : Conserved svc) :
    ((getPendingPayouts cfg svc).map PendingPayout.owed).sum = owed svc.unpaid := by
  have sorted := sum_perm_map PendingPayout.owed (List.mergeSort_perm
    (svc.accruals.values.map (accruing cfg) ++ svc.batchLiabilities.values.map batched) notLater)
  have unpaid : owed svc.unpaid = _ := sum_perm_map payoutOf conserved.unpaid_perm
  rw [getPendingPayouts, sorted, List.map_append, List.sum_append, conserved.accruing_owed,
    conserved.batched_owed, unpaid, List.map_append, List.sum_append]
  rfl

end Service

-- `batchLiabilities` is the mirror behind `getPendingPayouts`: its entries are being paid or stuck.
structure Balanced (cfg : Deps) (svc : Service) : Prop where
  accepted_once : (svc.accepted.map (·.requestId)).Nodup
  one_place : ∀ r ∈ svc.accepted, ∃! place, svc.Holds r.requestId place
  one_job : ∀ (n m : Nat) (run run' : PayoutRun) (id : String), svc.payouts[n]? = some run →
    svc.payouts[m]? = some run' → id ∈ run.job.requestIds → id ∈ run'.job.requestIds → n = m
  amount : ∀ run ∈ svc.payouts, run.job.amountAtomic = owed run.job.records
  receiver : ∀ run ∈ svc.payouts, ∀ r ∈ run.job.records, r.operatorAddress = run.job.receiver
  accruals : ∀ operatorAddress accrual, svc.accruals.get? operatorAddress = some accrual →
    ∀ r ∈ accrual.records, r.operatorAddress = operatorAddress
  entries : ∀ batchId due,
    (svc.batchLiabilities.get? batchId).map liable = some due ↔ svc.Unsettled batchId due
  pending : ((getPendingPayouts cfg svc).map PendingPayout.owed).sum = owed svc.unpaid
  split : ∀ r, r ∈ svc.accepted ∨ r ∈ svc.ledger.values → SplitHolds r

theorem books_balanced {ι : Type} [DecidableEq ι] (batching : 0 < cfg.batchMinAtomic)
    (rows : Registry.Rows) (w : World ι)
    (run : Transition.Run (World.step cfg) (fun _ a => a.serving = true) (World.start rows) w)
    (i : ι) : Balanced cfg (w.service i) := by
  obtain ⟨conserved, ledgerSplit⟩ := run_conserved cfg batching i rows w run
  have priced (r : SettlementRecord) (member : r ∈ (w.service i).accepted) : SplitHolds r := by
    rcases List.mem_append.mp (conserved.parts.subset member) with accruing | paying
    · obtain ⟨⟨operatorAddress, accrual⟩, entry, inside⟩ := List.mem_flatMap.mp accruing
      have held := conserved.sound _ _ ((OrderedMap.get?_eq_some _ _ _).mpr entry)
      exact (held.priced r inside).toSplitHolds
    · simp only [jobs, List.mem_flatMap, List.mem_map] at paying
      obtain ⟨_, ⟨run, present, rfl⟩, inside⟩ := paying
      exact ((conserved.jobSound run present).priced r inside).toSplitHolds
  exact {
    accepted_once := conserved.distinct
    one_place := conserved.one_place
    one_job := fun n m run run' id found found' => conserved.one_job found found'
    amount := fun run member => conserved.job_amount member
    receiver := fun run member => (conserved.jobSound run member).operator
    accruals := fun operatorAddress accrual found => (conserved.sound _ _ found).operator
    entries := conserved.mirrored
    pending := conserved.pending_owed cfg
    split := fun r member => member.elim (priced r) (ledgerSplit r) }

-- One request paid in a batch of two, and a third accruing behind them.
theorem books_balanced_three_requests :
    ∃ w : World Unit, (w.service ()).settledIds = ["r1", "r2"] ∧
      (w.service ()).accepted.map (·.requestId) = ["r1", "r2", "r3"] ∧
      Balanced World.demoDeps (w.service ()) := by
  let labels : List (Action Unit) :=
    World.paidFor () "r1" 10 ++ World.paidFor () "r2" 20 ++ [.payout () 0 (.paid "TX") 30 30] ++
      World.paidFor () "r3" 40
  have shown : (Transition.replay (World.step World.demoDeps) (World.start .empty) labels).map
      (fun w => ((w.service ()).settledIds, (w.service ()).accepted.map (·.requestId))) =
        some (["r1", "r2"], ["r1", "r2", "r3"]) := by decide
  obtain ⟨w, replayed, facts⟩ := Option.map_eq_some_iff.mp shown
  simp only [Prod.mk.injEq] at facts
  exact ⟨w, facts.1, facts.2, books_balanced World.demoDeps (by decide) .empty w
    (Transition.run_of_replay_all _ labels rfl replayed) ()⟩

end X402Mesh.Settlement
