import X402Mesh.Settlement.Direct
import X402Mesh.Settlement.WriteAhead
import X402Mesh.Settlement.Sparing

set_option autoImplicit false

namespace X402Mesh.Settlement

open Registry Service

variable (cfg : Deps)

-- The request of the record is one of these.
def Among (ids : List String) (r : StoredRecord) : Prop := ∃ id ∈ ids, r.requestId = some id

instance (ids : List String) (r : StoredRecord) : Decidable (Among ids r) :=
  inferInstanceAs (Decidable (∃ _ ∈ _, _))

theorem Among.mono {ids more : List String} {r : StoredRecord} (among : Among ids r)
    (grows : ∀ id ∈ ids, id ∈ more) : Among more r := by
  obtain ⟨id, member, same⟩ := among
  exact ⟨id, grows id member, same⟩

structure Standing where
  rows : Rows
  settled : List String
  svc : Service

namespace Service

-- The accrual that may be written next still has the record.
def Waits (svc : Service) (key : String) (r : StoredRecord) : Prop :=
  ∀ own, svc.accruals.get? key = some own → r ∈ own.records.map (·.stored)

/-- Every write goes through the chain of its operator, and an open row is written for the accrual
that the operator has or before its records are promoted. -/
structure Tidy (svc : Service) : Prop where
  sound : Sound svc
  filed : ∀ key, ∀ op ∈ svc.pending key, ∀ other, openKey op = some other → other = key
  numbered : ∀ key operatorAddress serial firstAt,
    .putOpen operatorAddress serial firstAt ∈ svc.pending key → serial < svc.nextSerial
  serials : ∀ key own, svc.accruals.get? key = some own → own.serial < svc.nextSerial
  tended : ∀ key, Tended svc.arrays key (svc.accruals.get? key) (svc.pending key)

structure Unmoved (before after : Service) : Prop where
  accruals : ∀ key, after.accruals.get? key = before.accruals.get? key
  arrays : after.arrays = before.arrays
  nextSerial : after.nextSerial = before.nextSerial
  payouts : after.payouts = before.payouts
  claimed : ∀ id ∈ before.claimed, id ∈ after.claimed
  pending : ∀ key, ∃ records : List SettlementRecord,
    after.pending key = before.pending key ++ records.map .putLedger

theorem Bookkeeping.unmoved {before after : Service} (kept : Bookkeeping before after) :
    Unmoved before after :=
  ⟨fun key => by rw [kept.accruals], kept.arrays, kept.nextSerial, kept.payouts, kept.claimed,
    kept.pending⟩

-- A settlement is noted, or its record waits in the accrual, or fills it and takes it away.
theorem settleInbound_accrues (batching : 0 < cfg.batchMinAtomic) (svc : Service)
    (sound : Sound svc) (inbound : InboundSettlement) (now : Readings) :
    Bookkeeping svc (settleInbound cfg svc inbound now) ∨
      ∃ record base, takenOn cfg svc inbound now = some record ∧ payoutOf record ≠ 0 ∧
        Bookkeeping { svc with accepted := svc.accepted ++ [record] } base ∧ Priced record ∧
        record.requestId ∈ base.claimed ∧
        (fills cfg svc record now.accruedAt = false →
          settleInbound cfg svc inbound now = hold cfg base record now.accruedAt) ∧
        (fills cfg svc record now.accruedAt = true →
          settleInbound cfg svc inbound now =
            detach cfg (base.putAccrual (base.grown record now.accruedAt)) record.operatorAddress
              (base.grown record now.accruedAt) now.flushedAt) := by
  have claim (claimed : List String) (kept : ∀ id ∈ svc.claimed, id ∈ claimed) :=
    bookkeeping_of_ledger svc (svc.routing.erase inbound.requestId) svc.ledger claimed kept
  cases taken : takenOn cfg svc inbound now with
  | none =>
    left
    unfold takenOn at taken
    unfold settleInbound
    cases noted : svc.routing.get? inbound.requestId with
    | none => exact .refl svc
    | some note =>
      by_cases duplicate : inbound.requestId ∈ svc.claimed
      · simpa [duplicate] using claim svc.claimed fun _ held => held
      · simp only [noted, duplicate, if_false] at taken ⊢
        cases opened : openRecord cfg inbound note now.createdAt with
        | error e => exact claim _ fun _ held => List.mem_cons_of_mem _ held
        | ok record =>
          rw [opened] at taken
          cases taken
  | some record =>
    obtain ⟨id, holds⟩ := takenOn_some cfg taken
    have entered := (claim (inbound.requestId :: svc.claimed) fun _ held =>
      List.mem_cons_of_mem _ held).trans (remember_bookkeeping cfg _ record)
    have known := (remember_bookkeeping cfg
      { svc with
        routing := svc.routing.erase inbound.requestId
        claimed := inbound.requestId :: svc.claimed } record).claimed inbound.requestId
      (List.mem_cons_self ..)
    rw [settleInbound_taken cfg svc inbound now record taken]
    generalize remember cfg _ record = middle at entered known ⊢
    rcases schedule_cases cfg batching middle record now holds with
      quiet | ⟨base, kept, priced, pushed⟩
    · exact .inl (entered.trans quiet)
    · rw [entered.accepted] at kept
      have whole := (entered.withAccepted (svc.accepted ++ [record])).trans kept
      have claimed : record.requestId ∈ base.claimed := kept.claimed _ (id ▸ known)
      have entered' : Sound { svc with accepted := svc.accepted ++ [record] } :=
        sound.mono rfl rfl fun _ _ found => found
      have settled : Sound base := entered'.bookkeeping whole
      have same : fills cfg base record now.accruedAt = fills cfg svc record now.accruedAt := by
        simp only [fills, grown_congr whole.accruals whole.nextSerial record now.accruedAt]
        rfl
      have owes : payoutOf record ≠ 0 := priced.positive.ne'
      rw [pushed]
      refine .inr ⟨record, base, rfl, owes, whole, priced, claimed, fun waits => ?_, fun full => ?_⟩
      · exact push_waits cfg owes (same.trans waits) now.flushedAt
      · exact push_fills cfg settled priced claimed (same.trans full) now.flushedAt

theorem discharged_nextSerial (svc : Service) (job : PayoutJob) (progress : Progress)
    (attemptAt : Nat) :
    (discharged cfg svc job progress attemptAt).nextSerial = svc.nextSerial := by
  cases progress with
  | settled txId => cases id : job.batchId <;> simp [discharged, dropLiability, releaseBatch, id]
  | failed reason =>
    cases id : job.batchId with
    | none => simp [discharged, annotate, id]
    | some batchId =>
      cases found : svc.batchLiabilities.get? batchId <;> simp [discharged, annotate, id, found]
  | _ => simp [discharged]

theorem ledger_unopened (records : List SettlementRecord) :
    ∀ op ∈ records.map StoreOp.putLedger, openKey op = none := by
  simp [openKey]

section unmoved

variable {before after : Service} (kept : Unmoved before after)

include kept

theorem Unmoved.mem_pending {key : String} {op : StoreOp} (member : op ∈ after.pending key) :
    op ∈ before.pending key ∨ ∃ record, op = .putLedger record := by
  obtain ⟨records, queued⟩ := kept.pending key
  rw [queued, List.mem_append] at member
  apply member.imp_right
  intro ledger
  obtain ⟨record, -, rfl⟩ := List.mem_map.mp ledger
  exact ⟨record, rfl⟩

theorem Unmoved.waits (key : String) (r : StoredRecord) :
    after.Waits key r ↔ before.Waits key r := by
  simp only [Waits, kept.accruals]

theorem Unmoved.sound (sound : Sound before) : Sound after := by
  intro operatorAddress accrual found
  rw [kept.accruals] at found
  obtain ⟨keyed, nonempty, total, operator, priced, live, claimed⟩ := sound _ _ found
  exact ⟨keyed, nonempty, total, operator, priced, by rw [kept.arrays, live],
    fun r member => kept.claimed _ (claimed r member)⟩

theorem Unmoved.spares {key : String} {r : StoredRecord}
    (spares : Spares before.arrays (before.Waits key r) r (before.pending key)) :
    Spares after.arrays (after.Waits key r) r (after.pending key) := by
  obtain ⟨records, queued⟩ := kept.pending key
  rw [queued, kept.arrays]
  apply (spares_append _ _).mpr
  apply spares.weaken
  exact fun waits => spares_of_unopened (ledger_unopened records) ((kept.waits key r).mpr waits)

theorem Unmoved.tidy (tidy : Tidy before) : Tidy after where
  sound := kept.sound tidy.sound
  filed key op member other own := by
    rcases kept.mem_pending member with old | ⟨record, rfl⟩
    · exact tidy.filed key op old other own
    · cases own
  numbered key operatorAddress serial firstAt member := by
    rw [kept.nextSerial]
    rcases kept.mem_pending member with old | ⟨record, ledger⟩
    · exact tidy.numbered key operatorAddress serial firstAt old
    · cases ledger
  serials key own found := by
    rw [kept.nextSerial]
    exact tidy.serials key own (kept.accruals key ▸ found)
  tended key := by
    obtain ⟨records, queued⟩ := kept.pending key
    rw [kept.accruals, kept.arrays, queued]
    exact (tidy.tended key).append (ledger_unopened records)

end unmoved

-- With batching off, a settlement is noted, or its record is paid on its own.
theorem settleInbound_pays (off : cfg.batchMinAtomic ≤ 0) (svc : Service)
    (inbound : InboundSettlement) (now : Readings) :
    Unmoved svc (settleInbound cfg svc inbound now) ∨
      ∃ record payout base, Unmoved svc base ∧
        settleInbound cfg svc inbound now = runPayout cfg base (directJob record payout) := by
  unfold settleInbound
  cases noted : svc.routing.get? inbound.requestId with
  | none => exact .inl (Bookkeeping.refl svc).unmoved
  | some note =>
    dsimp only
    split
    · exact .inl (bookkeeping_of_ledger svc _ _ _ fun _ held => held).unmoved
    · have claim := bookkeeping_of_ledger svc (svc.routing.erase inbound.requestId) svc.ledger
        (inbound.requestId :: svc.claimed) fun _ held => List.mem_cons_of_mem _ held
      cases opened : openRecord cfg inbound note now.createdAt with
      | error e => exact .inl claim.unmoved
      | ok record =>
        have entered := claim.trans (remember_bookkeeping cfg _ record)
        dsimp only
        generalize remember cfg _ record = middle at entered ⊢
        unfold schedule
        split
        · exact .inl entered.unmoved
        · split
          · exact .inl (entered.trans (updateAll_bookkeeping cfg middle _ _)).unmoved
          · rw [if_neg (by omega)]
            exact .inr ⟨record, _, { middle with accepted := middle.accepted ++ [record] },
              { entered.unmoved with }, rfl⟩

section grows

variable {svc : Service} {record : SettlementRecord} (accruedAt : Nat)

theorem grown_continues {own : Accrual}
    (accruing : svc.accruals.get? record.operatorAddress = some own) :
    (svc.grown record accruedAt).serial = own.serial ∧
      (svc.grown record accruedAt).records = own.records ++ [record] := by
  simp [grown, extended, accruing]

theorem grown_begins (idle : svc.accruals.get? record.operatorAddress = none) :
    (svc.grown record accruedAt).serial = svc.nextSerial := by
  simp [grown, extended, idle]

theorem Tidy.grows (tidy : Tidy svc) {accrual : Accrual}
    (keyed : accrual.operatorAddress = record.operatorAddress)
    (serial : accrual.serial = (svc.grown record accruedAt).serial)
    (records : accrual.records = (svc.grown record accruedAt).records) :
    Grows svc.arrays (svc.putAccrual accrual).arrays
      (svc.accruals.get? record.operatorAddress) accrual
      (svc.pending record.operatorAddress) where
  extends_own own accruing := by
    obtain ⟨same, listed⟩ := grown_continues accruedAt accruing
    rw [serial, records, same, listed]
    exact ⟨rfl, fun _ member => List.mem_append_left _ member⟩
  begins idle operatorAddress n firstAt member := by
    have bound := tidy.numbered _ operatorAddress n firstAt member
    rw [serial, grown_begins accruedAt idle]
    omega
  kept operatorAddress n firstAt member written inside := by
    have filed : operatorAddress = record.operatorAddress := tidy.filed _ _ member _ rfl
    subst filed
    by_cases same : n = accrual.serial
    · subst same
      simp only [putAccrual, keyed, and_self, if_true]
      cases accruing : svc.accruals.get? record.operatorAddress with
      | none =>
        have bound := tidy.numbered _ _ _ firstAt member
        rw [serial, grown_begins accruedAt accruing] at bound
        omega
      | some own =>
        obtain ⟨continues, listed⟩ := grown_continues accruedAt accruing
        rw [serial, continues, (tidy.sound _ _ accruing).live] at inside
        rw [records, listed]
        exact List.mem_append_left _ inside
    · simpa [putAccrual, same] using inside
  added operatorAddress n written inside := by
    simp only [putAccrual] at inside
    split at inside
    next same => exact .inr ⟨same.2, inside⟩
    next => exact .inl inside

end grows

end Service

namespace Standing

/-- Whatever is in store for the batch leaves the record in its row until the request is paid. -/
structure Covered (s : Standing) (b : String) (r : StoredRecord) : Prop where
  put : ∀ key row, .putBatch b row ∈ s.svc.pending key → r ∈ row.records
  removed : ∀ key, .removeBatch b ∈ s.svc.pending key → Among s.settled r
  paying : ∀ run ∈ s.svc.payouts, run.job.batchId = some b → Among run.job.requestIds r

def Batched (s : Standing) (r : StoredRecord) : Prop :=
  Among s.settled r ∨
    ∃ b row, s.rows.batchRows.get? b = some row ∧ r ∈ row.records ∧ s.Covered b r

def Open (s : Standing) (r : StoredRecord) : Prop :=
  ∃ key row, s.rows.openRows.get? key = some row ∧ r ∈ row.records ∧
    Spares s.svc.arrays (s.svc.Waits key r) r (s.svc.pending key)

def Kept (s : Standing) (r : StoredRecord) : Prop := s.Batched r ∨ s.Open r

structure Held (s : Standing) : Prop where
  tidy : Tidy s.svc
  covered : ∀ key b row, .putBatch b row ∈ s.svc.pending key → ∀ r ∈ row.records, s.Covered b r
  batchRows : ∀ b row, s.rows.batchRows.get? b = some row → ∀ r ∈ row.records, s.Batched r
  openRows : ∀ key row, s.rows.openRows.get? key = some row → ∀ r ∈ row.records, s.Kept r

structure Keeps (s s' : Standing) : Prop where
  batched : ∀ r, s.Batched r → s'.Batched r
  kept : ∀ r, s.Kept r → s'.Kept r

theorem Keeps.refl (s : Standing) : Keeps s s := ⟨fun _ held => held, fun _ held => held⟩

theorem Keeps.trans {a b c : Standing} (first : Keeps a b) (second : Keeps b c) : Keeps a c :=
  ⟨fun r held => second.batched r (first.batched r held),
    fun r held => second.kept r (first.kept r held)⟩

structure Fewer (s s' : Standing) (b : String) : Prop where
  settled : ∀ id ∈ s.settled, id ∈ s'.settled
  pending : ∀ key op, batchKey op = some b → op ∈ s'.svc.pending key → op ∈ s.svc.pending key
  payouts : ∀ run ∈ s'.svc.payouts, run.job.batchId = some b →
    ∃ old ∈ s.svc.payouts, old.job = run.job

section fewer

variable {s s' : Standing} {b : String} {r : StoredRecord}

theorem Covered.fewer (covered : s.Covered b r) (fewer : Fewer s s' b) : s'.Covered b r where
  put key row member := covered.put key row (fewer.pending key _ rfl member)
  removed key member := (covered.removed key (fewer.pending key _ rfl member)).mono fewer.settled
  paying run member named := by
    obtain ⟨old, listed, same⟩ := fewer.payouts run member named
    rw [← same] at named ⊢
    exact covered.paying old listed named

-- What is batched stays so where the rows stay as they are.
theorem Batched.mono (batched : s.Batched r) (settled : ∀ id ∈ s.settled, id ∈ s'.settled)
    (rows : s'.rows = s.rows)
    (covered : ∀ b, s.rows.batchRows.get? b ≠ none → s.Covered b r → s'.Covered b r) :
    s'.Batched r := by
  rcases batched with paid | ⟨b, row, found, listed, own⟩
  · exact .inl (paid.mono settled)
  · exact .inr ⟨b, row, rows ▸ found, listed, covered b (by simp [found]) own⟩

theorem Batched.fewer (batched : s.Batched r) (fewer : ∀ b, Fewer s s' b)
    (rows : s'.rows = s.rows) : s'.Batched r :=
  batched.mono (fewer "").settled rows fun b _ own => own.fewer (fewer b)

theorem Held.carry (held : Held s) (keeps : Keeps s s') (rows : s'.rows = s.rows)
    (tidy : Tidy s'.svc)
    (covered : ∀ key b row, .putBatch b row ∈ s'.svc.pending key →
      ∀ r ∈ row.records, s'.Covered b r) : Held s' where
  tidy := tidy
  covered := covered
  batchRows := by
    rw [rows]
    exact fun b row found r listed => keeps.batched r (held.batchRows b row found r listed)
  openRows := by
    rw [rows]
    exact fun key row found r listed => keeps.kept r (held.openRows key row found r listed)

-- A step that changes only what is in store for the open rows.
theorem Held.fewer (held : Held s) (fewer : ∀ b, Fewer s s' b) (rows : s'.rows = s.rows)
    (tidy : Tidy s'.svc) (opened : ∀ r, s.Open r → s'.Kept r) : Held s' ∧ Keeps s s' := by
  have keeps : Keeps s s' :=
    ⟨fun r before => before.fewer fewer rows,
      fun r kept => kept.elim (fun before => .inl (before.fewer fewer rows)) (opened r)⟩
  refine ⟨held.carry keeps rows tidy fun key b row member r listed => ?_, keeps⟩
  exact (held.covered key b row ((fewer b).pending key _ rfl member) r listed).fewer (fewer b)

end fewer

end Standing

end X402Mesh.Settlement
