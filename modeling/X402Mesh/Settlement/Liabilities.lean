import X402Mesh.Settlement.Restored

set_option autoImplicit false

theorem WriteChain.reject_head {ω : Type} (chain chain' : List (Work ω))
    (rejected : WriteChain.reject chain = some chain') : ∃ work, chain = work :: chain' := by
  unfold WriteChain.reject at rejected
  split at rejected
  · cases rejected
    exact ⟨_, rfl⟩
  · cases rejected

namespace X402Mesh.Settlement

open Registry Service

variable (cfg : Deps)

-- A durable row has the record.
def Durably (rows : Rows) (r : StoredRecord) : Prop :=
  (∃ key row, rows.openRows.get? key = some row ∧ r ∈ row.records) ∨
    ∃ b row, rows.batchRows.get? b = some row ∧ r ∈ row.records

/-- The rows that a boot gets through are filed under their own keys, their records can be paid and
are the same wherever they are listed, and a row whose records come to nothing has none left. -/
structure Restorable (rows : Rows) (now : Nat → Nat) (loaded : List PersistedAccrual) : Prop where
  openFiled : ∀ key row, rows.openRows.get? key = some row → row ∈ loaded →
    row.operatorAddress = key ∧ row.batchId = none
  batchFiled : ∀ b row, rows.batchRows.get? b = some row → Rows.named row = true → row ∈ loaded →
    row.batchId = some b
  usable : ∀ row ∈ loaded, ∀ r ∈ row.records, r.usable = true
  agree : ∀ row ∈ loaded, ∀ other ∈ loaded, ∀ r ∈ row.records, ∀ r' ∈ other.records,
    r.requestId = r'.requestId → r = r'
  owing : ∀ before row later, loaded = before ++ row :: later →
    remaining before row = [] ∨ amount (remaining before row) ≠ some 0
  fresh : ∀ n < loaded.countP (·.batchId.isNone),
    rows.batchRows.get? (recoveredIdOf (now (n + 1)) (n + 1)) = none

theorem named_iff (row : PersistedAccrual) :
    Rows.named row = true ↔ ∃ b, b ≠ "" ∧ row.batchId = some b := by
  unfold Rows.named
  cases row.batchId with
  | none => simp
  | some b => simp

theorem passed_front (handled : List String) (rows : List PersistedAccrual) :
    passed handled rows <+: rows := by
  induction rows generalizing handled with
  | nil => exact List.prefix_refl _
  | cons row rest ih =>
    unfold passed
    split
    · exact (List.prefix_cons_inj row).mpr (ih _)
    · exact List.nil_prefix

theorem passed_of_summable {handled : List String} {rows : List PersistedAccrual}
    (summable : Summable handled rows) : passed handled rows = rows := by
  induction rows generalizing handled with
  | nil => rfl
  | cons row rest ih =>
    obtain ⟨own, later⟩ := (summable_cons handled row rest).mp summable
    rw [passed, if_pos own, ih later]

-- The first row that lists the request has it left when its turn comes.
theorem recovery_takes_up (now : Nat → Nat) (stored : cfg.accrualStore = true)
    (history : Option (List StoredRecord)) {openRows batches : List PersistedAccrual}
    (readable : Readable (batches ++ openRows))
    (owing : ∀ before row later, batches ++ openRows = before ++ row :: later →
      remaining before row = [] ∨ amount (remaining before row) ≠ some 0)
    {row : PersistedAccrual} (member : row ∈ batches ++ openRows) {r : StoredRecord}
    (listed : r ∈ row.records) (usable : r.usable = true) :
    ∃ run ∈ (boot cfg now history (some (openRows, batches))).svc.payouts,
      Among run.job.requestIds r := by
  have pass := boot_pass cfg now stored history openRows batches
  have summable := (readable_iff_summable _).mp readable
  have id_eq : r.requestId = some (r.requestId.getD "") := by
    simp only [StoredRecord.usable, Bool.and_eq_true, Option.isSome_iff_exists] at usable
    obtain ⟨-, id, requestId⟩ := usable
    simp [requestId]
  obtain ⟨first, found⟩ : ∃ first, (batches ++ openRows).find?
      (fun other => decide (r.requestId.getD "" ∈ rowIds other)) = some first := by
    rw [← Option.isSome_iff_exists, List.find?_isSome]
    exact ⟨row, member, decide_eq_true ((mem_rowIds row _).mpr ⟨r, listed, usable, rfl⟩)⟩
  obtain ⟨own, before, later, split, earlier⟩ := List.find?_eq_some_iff_append.mp found
  obtain ⟨record, inside, fine, same⟩ := (mem_rowIds first _).mp (of_decide_eq_true own)
  have left : record ∈ remaining before first := by
    refine (mem_payable _ first record).mpr ⟨inside, fine, fun handled => ?_⟩
    obtain ⟨other, among, lists⟩ := List.mem_flatMap.mp handled
    rw [same] at lists
    have absent := earlier other among
    simp [lists] at absent
  have owes : amount (remaining before first) ≠ some 0 :=
    (owing before first later split).resolve_left (List.ne_nil_of_mem left)
  have summed := summable before first later split
  rw [List.append_nil, Option.isSome_iff_exists] at summed
  obtain ⟨sum, summed⟩ := summed
  have reached : Summable [] before := by
    intro front own back cut
    exact summable front own (back ++ first :: later) (by simp [split, cut])
  obtain ⟨run, started, seq, next, paid⟩ := pass.serves before first later split reached sum
    (by rw [List.append_nil]; exact summed) fun zero => owes (zero ▸ summed)
  rw [List.append_nil] at paid
  refine ⟨run, started, r.requestId.getD "", ?_, id_eq⟩
  rw [PayoutJob.requestIds, paid.pays.2.1, List.map_map]
  exact List.mem_map.mpr ⟨record, left, same⟩

-- What the store has is read whole, and recovery gets through it.
def Legible (rows : Rows) (addresses batchIds : List String) : Prop :=
  (∀ b row, rows.batchRows.get? b = some row → Rows.named row = true) ∧
    Readable (rows.readBatches batchIds ++ rows.readOpen addresses)

theorem Durably.loaded {rows : Rows} {r : StoredRecord} (durable : Durably rows r)
    {addresses batchIds : List String} (everyOpen : addresses.Perm rows.openRows.keys)
    (everyBatch : batchIds.Perm rows.batchRows.keys)
    (named : ∀ b row, rows.batchRows.get? b = some row → Rows.named row = true) :
    ∃ row ∈ rows.readBatches batchIds ++ rows.readOpen addresses, r ∈ row.records := by
  rcases durable with ⟨key, row, found, listed⟩ | ⟨b, row, found, listed⟩
  · have indexed := everyOpen.mem_iff.mpr ((rows.openRows.mem_keys key).mpr ⟨row, found⟩)
    exact ⟨row, List.mem_append_right _ (List.mem_filterMap.mpr ⟨key, indexed, found⟩), listed⟩
  · have indexed := everyBatch.mem_iff.mpr ((rows.batchRows.mem_keys b).mpr ⟨row, found⟩)
    have read := List.mem_filterMap.mpr ⟨b, indexed, found⟩
    exact ⟨row, List.mem_append_left _ (List.mem_filter.mpr ⟨read, named b row found⟩), listed⟩

theorem Restorable.orderly {rows : Rows} {now : Nat → Nat} {addresses batchIds : List String}
    (everyOpen : addresses.Nodup) (everyBatch : batchIds.Nodup) {loaded : List PersistedAccrual}
    (part : loaded <+: rows.readBatches batchIds ++ rows.readOpen addresses)
    (restorable : Restorable rows now loaded) : Standing.Orderly rows now loaded where
  place row member := by
    rcases List.mem_append.mp (part.subset member) with batch | opened
    · obtain ⟨found, named⟩ := List.mem_filter.mp batch
      obtain ⟨b, -, stored⟩ := List.mem_filterMap.mp found
      obtain ⟨b', filled, own⟩ := (named_iff row).mp named
      have filed := restorable.batchFiled b row stored named member
      obtain rfl := Option.some.inj (own.symm.trans filed)
      exact .inl ⟨b', filled, own, stored⟩
    · obtain ⟨key, -, stored⟩ := List.mem_filterMap.mp opened
      obtain ⟨rfl, unnamed⟩ := restorable.openFiled key row stored member
      exact .inr ⟨unnamed, stored⟩
  apart := by
    have whole : (rows.readBatches batchIds ++ rows.readOpen addresses).Pairwise fun row other =>
        row ∈ loaded → other ∈ loaded → (∀ b, row.batchId = some b → other.batchId ≠ some b) ∧
          (row.batchId = none →
            other.batchId = none ∧ row.operatorAddress ≠ other.operatorAddress) := by
      refine List.pairwise_append.mpr ⟨?_, ?_, ?_⟩
      · refine List.pairwise_filter.mpr (List.pairwise_filterMap.mpr (everyBatch.imp ?_))
        intro i j differ row found other found' named named' member member'
        rw [restorable.batchFiled i row found named member,
          restorable.batchFiled j other found' named' member']
        refine ⟨fun b same => ?_, nofun⟩
        obtain rfl := Option.some.inj same
        exact fun equal => differ (Option.some.inj equal).symm
      · refine List.pairwise_filterMap.mpr (everyOpen.imp ?_)
        intro i j differ row found other found' member member'
        obtain ⟨rfl, unnamed⟩ := restorable.openFiled i row found member
        obtain ⟨rfl, unnamed'⟩ := restorable.openFiled j other found' member'
        rw [unnamed, unnamed']
        exact ⟨nofun, fun _ => ⟨rfl, differ⟩⟩
      · intro row batch other opened member member'
        obtain ⟨b, -, named⟩ := (named_iff row).mp (List.mem_filter.mp batch).2
        obtain ⟨key, -, found⟩ := List.mem_filterMap.mp opened
        rw [named, (restorable.openFiled key other found member').2]
        exact ⟨fun _ _ => nofun, nofun⟩
    exact (whole.sublist part.sublist).imp_of_mem fun member member' apart => apart member member'
  usable := restorable.usable
  agree := restorable.agree
  owing := restorable.owing
  fresh := restorable.fresh

namespace World

def standing (w : World Unit) : Standing := ⟨w.rows, w.settled, w.service ()⟩

-- One process after another, and each reads the store at its boot.
def sequential : Action Unit → Bool
  | .readOpen .. | .readBatches .. | .hydrateLedger .. | .recoverAccruals .. => false
  | _ => true

-- The record is paid, or has a batch row, or gets one before the open row is written again.
def Secure (w : World Unit) (operatorAddress : String) (r : StoredRecord) : Prop :=
  Among w.settled r ∨ (∃ b row, w.rows.batchRows.get? b = some row ∧ r ∈ row.records) ∨
    Promoted r ((w.service ()).pending operatorAddress)

/-- An operator that starts to accrue anew overwrites its open row, so the records there must be
paid or on their way to a batch row. A new batch takes an id that nothing has. A write that is given
up may have been the one that moves the records, and a pass goes by what the rows say of
themselves. -/
def Careful (w : World Unit) : Action Unit → Prop
  | .settleInbound _ inbound now => ∀ record,
    takenOn cfg (w.service ()) inbound now = some record →
      0 < cfg.batchMinAtomic → payoutOf record ≠ 0 →
      ((w.service ()).accruals.get? record.operatorAddress = none →
        ∀ row, w.rows.openRows.get? record.operatorAddress = some row →
          ∀ r ∈ row.records, w.Secure record.operatorAddress r) ∧
      (fills cfg (w.service ()) record now.accruedAt = true →
        w.standing.Unused ((w.service ()).detachedId now.flushedAt))
  | .deadline _ _ now => w.standing.Unused ((w.service ()).detachedId now)
  | .flushPayouts _ now => ∀ n, (w.service ()).batchSeq ≤ n →
    n < (w.service ()).batchSeq + (w.service ()).accruals.size →
      w.standing.Unused (batchIdOf (now n) (n + 1))
  | .rejectWrite _ key => ∀ row, w.rows.openRows.get? key = some row → ∀ r ∈ row.records,
    Promoted r (WriteChain.pending (((w.service ()).chain key).take 1)) →
      Among w.settled r ∨ (∃ b row, w.rows.batchRows.get? b = some row ∧ r ∈ row.records) ∨
        (w.service ()).accruals.get? key = none ∧
          ∀ op ∈ WriteChain.pending ((w.service ()).chain key).tail, openKey op = none
  | .boot _ addresses batchIds _ ok now => ok = true → Restorable w.rows now
    (passed [] (w.rows.readBatches batchIds ++ w.rows.readOpen addresses))
  | _ => True

variable {cfg} {w w' : World Unit}

section step

theorem Secure.placed (held : w.standing.Held) {operatorAddress : String} {r : StoredRecord}
    (secure : w.Secure operatorAddress r) : w.standing.Placed operatorAddress r := by
  rcases secure with paid | ⟨b, row, found, listed⟩ | promoted
  · exact .inl (.inl paid)
  · exact .inl (held.batchRows b row found r listed)
  · exact .inr promoted

-- A turn ends with the outbox emptied.
theorem standing_turn {s : Standing} {svc : Service}
    (kept : Standing.Held { w.standing with svc := svc } ∧
      Standing.Keeps s { w.standing with svc := svc }) :
    (w.turn () svc).standing.Held ∧ Standing.Keeps s (w.turn () svc).standing := by
  have same : (w.turn () svc).standing = { w.standing with svc := { svc with outbox := [] } } := by
    simp [standing, turn]
  rw [same]
  obtain ⟨held, keeps⟩ := kept
  have emptied : Unmoved svc { svc with outbox := [] } :=
    ⟨fun _ => rfl, rfl, rfl, rfl, fun _ claimed => claimed,
      fun key => ⟨[], by simp [pending, chain]⟩⟩
  obtain ⟨held', keeps'⟩ := held.unmoved emptied
  exact ⟨held', keeps.trans keeps'⟩

theorem standing_setWrites (rows : Rows) (trace : List Event) (key : String)
    (works : List (Work StoreOp)) :
    (({ w with rows := rows, trace := trace } : World Unit).setWrites () key works).standing =
      ⟨rows, w.settled, (w.service ()).setChain key works⟩ := by
  simp [standing, setWrites]

theorem recovering_quiet {rows : Rows} {settled : List String} {svc : Service} (now : Nat → Nat)
    (kept : Bookkeeping .init svc) : Standing.Recovering now ⟨rows, settled, svc⟩ [] 0 := by
  have ledger {key : String} {op : StoreOp} (member : op ∈ svc.pending key) :
      ∃ record, op = .putLedger record := by
    rcases kept.unmoved.mem_pending member with old | new
    · simp at old
    · exact new
  constructor
  · intro key
    rw [kept.accruals]
    rfl
  · intro key op member
    obtain ⟨record, rfl⟩ := ledger member
    exact .inl rfl
  · intro key op member b filed
    obtain ⟨record, rfl⟩ := ledger member
    cases filed
  · intro run member
    dsimp only at member
    rw [kept.payouts] at member
    cases member
  · intro key b row member
    obtain ⟨record, same⟩ := ledger member
    cases same
  · simp

theorem orderly_nil (rows : Rows) (now : Nat → Nat) : Standing.Orderly rows now [] := by
  refine ⟨by simp, .nil, by simp, by simp, fun before row later split => ?_, by simp⟩
  simp at split

-- A process that has not read the rows leaves them alone.
theorem held_unread {rows : Rows} {settled : List String} {svc : Service}
    (kept : Bookkeeping .init svc) : Standing.Held ⟨rows, settled, svc⟩ :=
  (recovering_quiet (fun _ => 0) kept).held (orderly_nil rows _) (by simp)

theorem Held.boot (stored : cfg.accrualStore = true) {rows : Rows} {settled : List String}
    {addresses batchIds : List String} (everyOpen : addresses.Nodup) (everyBatch : batchIds.Nodup)
    (history : Option (List StoredRecord)) (now : Nat → Nat)
    (restorable : Restorable rows now
      (passed [] (rows.readBatches batchIds ++ rows.readOpen addresses))) :
    Standing.Held ⟨rows, settled, Service.recoverAccruals cfg
      (Service.hydrateLedger cfg .init history) (some (loadAll rows addresses batchIds)) now⟩ := by
  have hydrated := hydrateLedger_bookkeeping cfg .init history
  have seq : (Service.hydrateLedger cfg .init history).batchSeq = 0 := hydrated.batchSeq
  have orderly := restorable.orderly everyOpen everyBatch (passed_front _ _)
  have quiet : Standing.Recovering now ⟨rows, settled, Service.hydrateLedger cfg .init history⟩
      [] (Service.hydrateLedger cfg .init history).batchSeq :=
    seq ▸ recovering_quiet now hydrated
  obtain ⟨last, bound, recovering⟩ := Standing.recoverRows_recovering stored
    (rows.readBatches batchIds ++ rows.readOpen addresses) []
    ⟨Service.hydrateLedger cfg .init history, [], false⟩ rfl (by simp) (by simp [seq])
    (by simpa using orderly) quiet
  simp only [List.nil_append] at recovering bound
  have held := recovering.held orderly bound
  simpa [Service.recoverAccruals, stored, loadAll] using held

theorem Held.step (stored : cfg.accrualStore = true) (held : w.standing.Held) {a : Action Unit}
    (served : sequential a = true) (careful : w.Careful cfg a)
    (taken : World.step cfg w a = some w') :
    w'.standing.Held ∧ w.standing.Keeps w'.standing := by
  cases a with
  | recordRouting i requestId nodeId operatorAddress now =>
    cases taken
    refine standing_turn (held.unmoved ⟨fun _ => rfl, rfl, rfl, rfl, fun _ claimed => claimed,
      fun key => ⟨[], ?_⟩⟩)
    simp [Service.recordRouting, pruneRouting, pending, chain, standing]
  | settleInbound i inbound now =>
    cases taken
    apply standing_turn
    by_cases batching : 0 < cfg.batchMinAtomic
    · refine held.settleInbound stored batching inbound now fun record taken owes => ?_
      obtain ⟨secure, unused⟩ := careful record taken batching owes
      exact ⟨fun idle row found r listed => (secure idle row found r listed).placed held, unused⟩
    · rcases settleInbound_pays cfg (not_lt.mp batching) (w.service ()) inbound now with
        noted | ⟨record, payout, base, noted, paid⟩
      · exact held.unmoved noted
      · rw [show Service.settleInbound cfg (w.service i) inbound now = _ from paid]
        obtain ⟨based, keeps⟩ := held.unmoved noted
        obtain ⟨done, keeps'⟩ := based.runPayout cfg record payout
        exact ⟨done, keeps.trans keeps'⟩
  | deadline i operatorAddress now =>
    rw [deadline_inv taken]
    exact standing_turn (held.flushAccrual stored operatorAddress careful)
  | flushPayouts i now =>
    cases taken
    exact standing_turn (held.flushPayouts stored now careful)
  | payout i index event attemptAt settledAt =>
    obtain ⟨svc, run, progress, resumed, found, advanced, rfl⟩ := payout_inv taken
    exact standing_turn (w := w.recordOutcome run.job event progress)
      (held.resumePayout resumed found advanced)
  | callWrite i key =>
    obtain ⟨works, called, rfl⟩ := callWrite_inv taken
    rw [show (w.setWrites i key works).standing = _ from
      standing_setWrites w.rows w.trace key works]
    exact held.callWrite called
  | applyWrite i key =>
    obtain ⟨op, works, rows, applied, effect, rfl⟩ := applyWrite_inv taken
    rw [show ((w.withRows rows).setWrites i key works).standing = _ from
      standing_setWrites rows w.trace key works]
    exact held.applyWrite (WriteChain.pending_apply _ _ _ applied) effect
  | resolveWrite i key =>
    obtain ⟨op, works, resolved, rfl⟩ := resolveWrite_inv taken
    rw [show (World.setWrites { w with trace := w.trace ++ completed op } i key works).standing = _
      from standing_setWrites w.rows _ key works]
    exact held.resolveWrite resolved
  | rejectWrite i key =>
    obtain ⟨works, rejected, rfl⟩ := rejectWrite_inv taken
    rw [show (w.setWrites i key works).standing = _ from
      standing_setWrites w.rows w.trace key works]
    obtain ⟨work, chained⟩ := WriteChain.reject_head _ _ rejected
    refine held.rejectWrite (WriteChain.pending [work]) ?_ fun row found r listed given => ?_
    · rw [← WriteChain.pending_append]
      exact congrArg WriteChain.pending chained
    · have same : (w.service ()).chain key = work :: works := chained
      have kept := careful row found r listed
      rw [same] at kept
      rcases kept given with paid | ⟨b, put, stored, inside⟩ | idle
      · exact .inl (.inl paid)
      · exact .inl (held.batchRows b put stored r inside)
      · exact .inr idle
  | restart i =>
    cases taken
    have after : (w.restart ()).standing = ⟨w.rows, w.settled, .init⟩ := by simp [standing, restart]
    have unread : Standing.Held ⟨w.rows, w.settled, .init⟩ := held_unread (.refl _)
    rw [show (w.restart i).standing = _ from after]
    exact ⟨unread, unread.keeps rfl rfl⟩
  | boot i addresses batchIds history ok now =>
    obtain ⟨everyOpen, everyBatch, rfl⟩ := boot_inv taken
    have booted : Standing.Held ⟨w.rows, w.settled, Service.recoverAccruals cfg
        (Service.hydrateLedger cfg .init history)
        (if ok then some (loadAll w.rows addresses batchIds) else none) now⟩ := by
      cases ok with
      | false =>
        apply held_unread
        simpa [Service.recoverAccruals] using hydrateLedger_bookkeeping cfg .init history
      | true =>
        exact Held.boot stored (everyOpen.nodup_iff.mpr w.rows.openRows.nodup)
          (everyBatch.nodup_iff.mpr w.rows.batchRows.nodup) history now (careful rfl)
    exact standing_turn (w := w.restart ()) ⟨booted, booted.keeps rfl rfl⟩
  | readOpen | readBatches | hydrateLedger | recoverAccruals => cases served

end step

section run

variable {rows : Rows}

def Served (cfg : Deps) (w : World Unit) (a : Action Unit) : Prop :=
  sequential a = true ∧ w.Careful cfg a

theorem start_held : (World.start rows : World Unit).standing.Held := held_unread (.refl _)

theorem held_of_run (stored : cfg.accrualStore = true)
    (reached : Transition.Run (World.step cfg) (Served cfg) w w') (held : w.standing.Held) :
    w'.standing.Held ∧ w.standing.Keeps w'.standing := by
  induction reached with
  | refl => exact ⟨held, .refl _⟩
  | tail _ served taken ih =>
    obtain ⟨held', keeps⟩ := ih
    obtain ⟨done, keeps'⟩ := Held.step stored held' served.1 served.2 taken
    exact ⟨done, keeps.trans keeps'⟩

theorem kept_of_durably {s : Standing} (held : s.Held) {r : StoredRecord}
    (durable : Durably s.rows r) : s.Kept r := by
  rcases durable with ⟨key, row, found, listed⟩ | ⟨b, row, found, listed⟩
  · exact held.openRows key row found r listed
  · exact .inl (held.batchRows b row found r listed)

theorem kept_of_run (stored : cfg.accrualStore = true)
    (reached : Transition.Run (step cfg) (Served cfg) (start rows) w)
    (later : Transition.Run (step cfg) (Served cfg) w w') {r : StoredRecord}
    (durable : Durably w.rows r) : Durably w'.rows r ∨ Among w'.settled r := by
  obtain ⟨held, -⟩ := held_of_run stored reached start_held
  obtain ⟨-, keeps⟩ := held_of_run stored later held
  rcases keeps.kept r (kept_of_durably held durable) with
    (paid | ⟨b, row, found, listed, -⟩) | ⟨key, row, found, listed, -⟩
  · exact .inr paid
  · exact .inl (.inr ⟨b, row, found, listed⟩)
  · exact .inl (.inl ⟨key, row, found, listed⟩)

theorem boot_takes_up (stored : cfg.accrualStore = true) {booted : World Unit}
    {addresses batchIds : List String} {history : Option (List StoredRecord)} {now : Nat → Nat}
    (taken : step cfg w (.boot () addresses batchIds history true now) = some booted)
    (careful : w.Careful cfg (.boot () addresses batchIds history true now))
    (legible : Legible w.rows addresses batchIds) {r : StoredRecord} (durable : Durably w.rows r) :
    ∃ run ∈ (booted.service ()).payouts, Among run.job.requestIds r := by
  obtain ⟨everyOpen, everyBatch, rfl⟩ := boot_inv taken
  obtain ⟨named, readable⟩ := legible
  obtain ⟨row, member, listed⟩ := durable.loaded everyOpen everyBatch named
  have restorable := careful rfl
  rw [passed_of_summable ((readable_iff_summable _).mp readable)] at restorable
  obtain ⟨run, started, covers⟩ := recovery_takes_up cfg now stored history readable
    restorable.owing member listed (restorable.usable row member r listed)
  refine ⟨run, ?_, covers⟩
  rw [turn_service, if_pos rfl]
  rw [boot_svc] at started
  exact started

end run

end World

-- Whatever the processes do, one after another, a liability that is durable stays so until it is
-- paid, and a process that reads the rows pays it.
theorem durable_until_paid (stored : cfg.accrualStore = true) (rows : Rows) {w w' : World Unit}
    (reached : Transition.Run (World.step cfg) (World.Served cfg) (World.start rows) w)
    (later : Transition.Run (World.step cfg) (World.Served cfg) w w') (r : StoredRecord)
    (durable : Durably w.rows r) :
    (Durably w'.rows r ∨ Among w'.settled r) ∧
      ∀ addresses batchIds history now booted,
        w'.Careful cfg (.boot () addresses batchIds history true now) →
        World.step cfg w' (.boot () addresses batchIds history true now) = some booted →
        Legible w'.rows addresses batchIds →
          Among booted.settled r ∨
            ∃ run ∈ (booted.service ()).payouts, Among run.job.requestIds r := by
  have kept := World.kept_of_run stored reached later durable
  refine ⟨kept, fun addresses batchIds history now booted careful taken legible => ?_⟩
  rcases kept with held | paid
  · exact .inr (World.boot_takes_up stored taken careful legible held)
  · left
    obtain ⟨-, -, rfl⟩ := World.boot_inv taken
    exact paid

-- One open row, filed under its own key, with one record that is owed.
def World.lone (w : World Unit) : Bool :=
  w.rows.batchRows.keys.isEmpty &&
    match w.rows.openRows.entries with
    | [(key, row)] =>
      row.operatorAddress == key && row.batchId.isNone &&
        match row.records with
        | [r] => r.usable && amount [r] != some 0
        | _ => false
    | _ => false

theorem payable_one (handled : List String) {row : PersistedAccrual} {r : StoredRecord}
    (listed : row.records = [r]) : payable handled row = [] ∨ payable handled row = [r] := by
  have one : (payable handled row).Sublist [r] := by
    rw [← listed]
    exact List.filter_sublist.trans List.filter_sublist
  exact List.sublist_singleton.mp one

theorem World.lone_restorable {w : World Unit} (ok : w.lone = true) (now : Nat → Nat)
    (addresses batchIds : List String) :
    Restorable w.rows now (passed [] (w.rows.readBatches batchIds ++ w.rows.readOpen addresses)) := by
  unfold lone at ok
  rw [Bool.and_eq_true] at ok
  obtain ⟨noBatch, ok⟩ := ok
  have batchless (b : String) : w.rows.batchRows.get? b = none := by
    rw [OrderedMap.get?_eq_none, List.isEmpty_iff.mp noBatch]
    exact List.not_mem_nil
  split at ok
  next key row entries =>
    simp only [Bool.and_eq_true, beq_iff_eq, Option.isNone_iff_eq_none] at ok
    obtain ⟨⟨filed, unnamed⟩, ok⟩ := ok
    split at ok
    next r listed =>
      simp only [Bool.and_eq_true, bne_iff_ne] at ok
      obtain ⟨usable, owes⟩ := ok
      have only {other : String} {row' : PersistedAccrual}
          (found : w.rows.openRows.get? other = some row') : other = key ∧ row' = row := by
        have member := (w.rows.openRows.get?_eq_some other row').mp found
        rw [entries] at member
        simpa using member
      have same {row' : PersistedAccrual}
          (member : row' ∈ passed [] (w.rows.readBatches batchIds ++ w.rows.readOpen addresses)) :
          row' = row := by
        rcases List.mem_append.mp ((passed_front _ _).subset member) with batch | opened
        · obtain ⟨found, -⟩ := List.mem_filter.mp batch
          obtain ⟨b, -, stored⟩ := List.mem_filterMap.mp found
          rw [batchless] at stored
          cases stored
        · obtain ⟨other, -, stored⟩ := List.mem_filterMap.mp opened
          exact (only stored).2
      constructor
      case openFiled =>
        intro other row' found _
        obtain ⟨rfl, rfl⟩ := only found
        exact ⟨filed, unnamed⟩
      case batchFiled =>
        intro b row' found
        rw [batchless] at found
        cases found
      case usable =>
        intro row' member r' inside
        rw [same member, listed, List.mem_singleton] at inside
        rwa [inside]
      case agree =>
        intro row' member other member' r₁ inside r₂ inside' _
        rw [same member, listed, List.mem_singleton] at inside
        rw [same member', listed, List.mem_singleton] at inside'
        rw [inside, inside']
      case owing =>
        intro before row' later split
        have own : row' = row := same (split ▸ by simp)
        rw [own]
        apply (payable_one (before.flatMap rowIds) listed).imp_right
        intro left
        rwa [remaining, left]
      case fresh => exact fun n _ => batchless _
    next => cases ok
  next => cases ok

-- Every operator with a row accrues, and nothing is queued or paid when a request settles; a boot
-- finds one row.
def World.steady (w : World Unit) : Action Unit → Bool
  | .settleInbound .. =>
    w.rows.openRows.keys.all (fun key => ((w.service ()).accruals.get? key).isSome) &&
      (w.rows.batchRows.keys.isEmpty && (w.service ()).payouts.isEmpty &&
        (w.service ()).writeChains.size == 0)
  | .boot .. => w.lone
  | .recordRouting .. | .payout .. | .callWrite .. | .applyWrite .. | .resolveWrite .. => true
  | .restart _ => true
  | _ => false

theorem World.served_of_steady {w : World Unit} {a : Action Unit} (ok : w.steady a = true) :
    World.Served cfg w a := by
  cases a with
  | settleInbound i inbound now =>
    simp only [steady, Bool.and_eq_true, List.all_eq_true, beq_iff_eq, List.isEmpty_iff] at ok
    obtain ⟨accruing, ⟨noBatch, noPayout⟩, empty⟩ := ok
    have chainless (key : String) : (w.service ()).pending key = [] := by
      simp [Service.pending, Service.chain, OrderedMap.get?, List.length_eq_zero_iff.mp empty,
        OrderedMap.lookup]
    refine ⟨rfl, fun record _ _ _ => ⟨fun idle row found => ?_, fun _ => ?_⟩⟩
    · have own := accruing record.operatorAddress ((w.rows.openRows.mem_keys _).mpr ⟨row, found⟩)
      simp [idle] at own
    · refine ⟨?_, fun key op member => ?_, fun run member => ?_⟩
      · rw [OrderedMap.get?_eq_none]
        simp [standing, noBatch]
      · simp [standing, chainless] at member
      · simp [standing, noPayout] at member
  | boot i addresses batchIds history booted now =>
    exact ⟨rfl, fun _ => World.lone_restorable ok now addresses batchIds⟩
  | recordRouting | payout | callWrite | applyWrite | resolveWrite | restart => exact ⟨rfl, trivial⟩
  | _ => cases ok

theorem readable_of_records {rows : List PersistedAccrual}
    (amounts : ∀ row ∈ rows, ∀ r ∈ row.records,
      (Money.bigInt (r.payoutAtomic.getD "")).isSome = true) : Readable rows := by
  intro before row after split r left
  exact amounts row (by simp [split]) r ((mem_payable _ row r).mp left).1

theorem not_durably_of_empty {rows : Rows} {r : StoredRecord} (noOpen : rows.openRows.keys = [])
    (noBatch : rows.batchRows.keys = []) : ¬ Durably rows r := by
  rintro (⟨key, row, stored, -⟩ | ⟨b, row, stored, -⟩)
  · have there := (rows.openRows.mem_keys key).mpr ⟨row, stored⟩
    rw [noOpen] at there
    cases there
  · have there := (rows.batchRows.mem_keys b).mpr ⟨row, stored⟩
    rw [noBatch] at there
    cases there

def World.steadyStep (w : World Unit) (a : Action Unit) : Option (World Unit) :=
  if w.steady a then World.step World.demoDeps w a else none

theorem World.run_of_steady {w w' : World Unit} (labels : List (Action Unit))
    (replayed : Transition.replay World.steadyStep w labels = some w') :
    Transition.Run (World.step World.demoDeps) (World.Served World.demoDeps) w w' :=
  (Transition.run_of_guarded World.steady labels replayed).mono fun _ _ ok =>
    World.served_of_steady World.demoDeps ok

-- A request is durable when the process dies; the next one boots, moves it to a batch and pays it.
theorem durable_until_paid_booted :
    ∃ (w booted w' : World Unit) (r : StoredRecord), r.requestId = some "r1" ∧ Durably w.rows r ∧
      (Among booted.settled r ∨
        ∃ run ∈ (booted.service ()).payouts, Among run.job.requestIds r) ∧
      booted.settled = [] ∧ Among w'.settled r := by
  let first : List (Action Unit) :=
    World.paidFor () "r1" 10 ++ World.written () ++ [.restart ()]
  let boot : Action Unit := .boot () ["OPERATOR"] [] none true fun _ => 30
  let third : List (Action Unit) := World.written () ++ World.written () ++
    [.payout () 0 (.paid "TX") 41 41] ++ World.written ()
  have shown : ((Transition.replay World.steadyStep (World.start .empty) first).bind fun w =>
      (Transition.replay World.steadyStep w [boot]).bind fun booted =>
      (Transition.replay World.steadyStep booted third).map fun w' =>
        ((w.rows.openRows.get? "OPERATOR").map fun row => row.records.map (·.requestId),
          (w.rows.batchRows.keys,
            (w.rows.readBatches [] ++ w.rows.readOpen ["OPERATOR"]).all fun row =>
              row.records.all fun r => (Money.bigInt (r.payoutAtomic.getD "")).isSome),
          booted.settled, w'.rows.openRows.keys, w'.rows.batchRows.keys)) =
      some (some [some "r1"], ([], true), [], [], []) := by
    decide
  obtain ⟨w, replayed, later⟩ := Option.bind_eq_some_iff.mp shown
  obtain ⟨booted, replayed', later⟩ := Option.bind_eq_some_iff.mp later
  obtain ⟨w', replayed'', facts⟩ := Option.map_eq_some_iff.mp later
  simp only [Prod.mk.injEq, Option.map_eq_some_iff, List.all_eq_true] at facts
  obtain ⟨⟨row, found, ids⟩, ⟨batchless, amounts⟩, unsettled, noOpen, noBatch⟩ := facts
  obtain ⟨r, listed, named⟩ : ∃ r ∈ row.records, r.requestId = some "r1" := by
    rw [← List.mem_map, ids]
    exact List.mem_singleton_self _
  have durable : Durably w.rows r := .inl ⟨"OPERATOR", row, found, listed⟩
  have reached := World.run_of_steady first replayed
  have boots := World.run_of_steady [boot] replayed'
  have pays := World.run_of_steady third replayed''
  have legible : Legible w.rows ["OPERATOR"] [] := by
    refine ⟨fun b row found => ?_, readable_of_records amounts⟩
    have there := (w.rows.batchRows.mem_keys b).mpr ⟨row, found⟩
    rw [batchless] at there
    cases there
  obtain ⟨steady, taken⟩ : w.steady boot = true ∧
      World.step World.demoDeps w boot = some booted := by
    simpa [Transition.replay, World.steadyStep] using replayed'
  have careful := (World.served_of_steady World.demoDeps steady).2
  have taken_up := (durable_until_paid World.demoDeps rfl .empty reached .refl r durable).2
    _ _ _ _ _ careful taken legible
  have paid := (durable_until_paid World.demoDeps rfl .empty reached (boots.trans pays) r durable).1
  exact ⟨w, booted, w', r, named, durable, taken_up, unsettled,
    paid.resolve_left (not_durably_of_empty noOpen noBatch)⟩

end X402Mesh.Settlement
