import X402Mesh.Settlement.Standing

set_option autoImplicit false

namespace X402Mesh.Settlement

open Registry Service

variable (cfg : Deps)

namespace Standing

-- Nothing is filed under the batch id, and nothing is about to be.
structure Unused (s : Standing) (b : String) : Prop where
  unstored : s.rows.batchRows.get? b = none
  unqueued : ∀ key, ∀ op ∈ s.svc.pending key, batchKey op ≠ some b
  unpaid : ∀ run ∈ s.svc.payouts, run.job.batchId ≠ some b

-- The record no longer depends on the open row of the operator.
def Placed (s : Standing) (operatorAddress : String) (r : StoredRecord) : Prop :=
  s.Batched r ∨ Promoted r (s.svc.pending operatorAddress)

section moves

variable {cfg} {s : Standing} (held : Held s)

include held

theorem Held.unmoved {after : Service} (kept : Unmoved s.svc after) :
    Held { s with svc := after } ∧ Keeps s { s with svc := after } := by
  refine held.fewer (fun b => ⟨fun _ member => member, fun key op own member => ?_,
    fun run member _ => ?_⟩) rfl (kept.tidy held.tidy) ?_
  · rcases kept.mem_pending member with old | ⟨record, rfl⟩
    · exact old
    · cases own
  · exact ⟨run, kept.payouts ▸ member, rfl⟩
  · rintro r ⟨key, row, found, listed, spares⟩
    exact .inr ⟨key, row, found, listed, kept.spares spares⟩

-- A record joins the accrual of its operator, and nothing is written yet.
theorem Held.putAccrual {record : SettlementRecord} (accruedAt : Nat) {accrual : Accrual}
    (sound : Sound (s.svc.putAccrual accrual))
    (keyed : accrual.operatorAddress = record.operatorAddress)
    (serial : accrual.serial = (s.svc.grown record accruedAt).serial)
    (records : accrual.records = (s.svc.grown record accruedAt).records)
    (placed : s.svc.accruals.get? record.operatorAddress = none →
      ∀ row, s.rows.openRows.get? record.operatorAddress = some row →
        ∀ r ∈ row.records, s.Placed record.operatorAddress r) :
    Held { s with svc := s.svc.putAccrual accrual } ∧
      Keeps s { s with svc := s.svc.putAccrual accrual } := by
  have arrays (key : String) (n : Nat) : (s.svc.putAccrual accrual).arrays key n =
      if key = record.operatorAddress ∧ n = accrual.serial then accrual.records
      else s.svc.arrays key n := by
    simp [Service.putAccrual, keyed]
  have accruals (key : String) : (s.svc.putAccrual accrual).accruals.get? key =
      if key = record.operatorAddress then some accrual else s.svc.accruals.get? key := by
    simp [Service.putAccrual, keyed, OrderedMap.get?_set]
  have grows := held.tidy.grows accruedAt keyed serial records
  have spared {key : String} {r : StoredRecord} {last later : Prop}
      (spares : Spares s.svc.arrays last r (s.svc.pending key)) (weaken : last → later) :
      Spares (s.svc.putAccrual accrual).arrays later r (s.svc.pending key) := by
    apply spares.mono weaken
    intro operatorAddress n firstAt member written inside
    have filed : operatorAddress = key := held.tidy.filed key _ member _ rfl
    by_cases own : key = record.operatorAddress
    · subst own
      exact grows.kept operatorAddress n firstAt member written inside
    · rwa [arrays, if_neg (by simp [filed, own])]
  have fewer (b : String) : Fewer s { s with svc := s.svc.putAccrual accrual } b :=
    ⟨fun _ member => member, fun _ _ _ member => member, fun run member _ => ⟨run, member, rfl⟩⟩
  refine held.fewer fewer rfl ?_ ?_
  · refine ⟨sound, held.tidy.filed, fun key operatorAddress n firstAt member => ?_,
      fun key own found => ?_, fun key => ?_⟩
    · have bound := held.tidy.numbered key operatorAddress n firstAt member
      simp only [Service.putAccrual]
      omega
    · simp only [Service.putAccrual]
      rw [accruals] at found
      split at found
      · cases found
        omega
      · have bound := held.tidy.serials key own found
        omega
    · change Tended _ key ((s.svc.putAccrual accrual).accruals.get? key) (s.svc.pending key)
      rw [accruals]
      split
      next own =>
        subst own
        exact (held.tidy.tended _).grow grows
      next other =>
        apply (held.tidy.tended key).congr
        intro operatorAddress n firstAt member
        have filed : operatorAddress = key := held.tidy.filed key _ member _ rfl
        rw [arrays, if_neg (by simp [filed, other])]
  · rintro r ⟨key, row, found, listed, spares⟩
    have still (weaken : s.svc.Waits key r → (s.svc.putAccrual accrual).Waits key r) :
        Open { s with svc := s.svc.putAccrual accrual } r :=
      ⟨key, row, found, listed, spared spares weaken⟩
    by_cases own : key = record.operatorAddress
    · subst own
      cases accruing : s.svc.accruals.get? record.operatorAddress with
      | none =>
        rcases placed accruing row found r listed with batched | promoted
        · exact .inl (batched.fewer fewer rfl)
        · exact .inr ⟨_, row, found, listed, spared (spares.promoted promoted) False.elim⟩
      | some own =>
        refine .inr (still fun waits other put => ?_)
        rw [accruals, if_pos rfl] at put
        cases put
        obtain ⟨record, member, same⟩ := List.mem_map.mp (waits own accruing)
        exact List.mem_map.mpr ⟨record, (grows.extends_own own accruing).2 record member, same⟩
    · refine .inr (still fun waits other put => waits other ?_)
      rwa [accruals, if_neg own] at put

-- The open row of an accrual is queued.
theorem Held.persistOpen (stored : cfg.accrualStore = true) {operatorAddress : String}
    {own : Accrual} (accruing : s.svc.accruals.get? operatorAddress = some own) (firstAt : Nat) :
    let after := enqueueStore cfg s.svc operatorAddress
      [.putOpen operatorAddress own.serial firstAt]
    Held { s with svc := after } ∧ Keeps s { s with svc := after } := by
  have live := (held.tidy.sound _ _ accruing).live
  have pending (key : String) := pending_enqueueStore cfg s.svc operatorAddress
    [.putOpen operatorAddress own.serial firstAt] key
  simp only [stored, and_true] at pending
  have added {key : String} {op : StoreOp} (member : op ∈ (enqueueStore cfg s.svc operatorAddress
      [.putOpen operatorAddress own.serial firstAt]).pending key) :
      op ∈ s.svc.pending key ∨
        key = operatorAddress ∧ op = .putOpen operatorAddress own.serial firstAt := by
    rw [pending, List.mem_append] at member
    apply member.imp_right
    intro new
    split at new
    next same => exact ⟨same, List.mem_singleton.mp new⟩
    next => cases new
  dsimp only
  refine held.fewer (fun b => ⟨fun _ member => member, fun key op own member => ?_,
    fun run member _ => ⟨run, by simpa using member, rfl⟩⟩) rfl ?_ ?_
  · rcases added member with old | ⟨-, rfl⟩
    · exact old
    · cases own
  · refine ⟨held.tidy.sound.mono (by simp) (by simp) fun key accrual found => by simpa using found,
      fun key op member other filed => ?_, fun key other serial at' member => ?_,
      fun key accrual found => ?_, fun key => ?_⟩
    · rcases added member with old | ⟨rfl, rfl⟩
      · exact held.tidy.filed key op old other filed
      · simpa [openKey, eq_comm] using filed
    · rw [enqueueStore_nextSerial]
      rcases added member with old | ⟨rfl, same⟩
      · exact held.tidy.numbered key other serial at' old
      · cases same
        exact held.tidy.serials _ own accruing
    · rw [enqueueStore_nextSerial]
      exact held.tidy.serials key accrual (by simpa using found)
    · rw [enqueueStore_arrays, enqueueStore_accruals, pending]
      split
      next same =>
        subst same
        rw [accruing]
        exact Tended.reput (accruing ▸ held.tidy.tended key) live firstAt
      next =>
        rw [List.append_nil]
        exact held.tidy.tended key
  · rintro r ⟨key, row, found, listed, spares⟩
    refine .inr ⟨key, row, found, listed, ?_⟩
    dsimp only
    rw [enqueueStore_arrays, pending]
    apply (spares_append _ _).mpr
    apply spares.weaken
    intro waits
    have still : (enqueueStore cfg s.svc operatorAddress
        [.putOpen operatorAddress own.serial firstAt]).Waits key r := by
      intro accrual put
      exact waits accrual (by simpa using put)
    split
    next same =>
      subst same
      exact ⟨live ▸ waits own accruing, still⟩
    next => exact still

theorem Held.hold (stored : cfg.accrualStore = true) {record : SettlementRecord} (accruedAt : Nat)
    (priced : Priced record) (claimed : record.requestId ∈ s.svc.claimed)
    (placed : s.svc.accruals.get? record.operatorAddress = none →
      ∀ row, s.rows.openRows.get? record.operatorAddress = some row →
        ∀ r ∈ row.records, s.Placed record.operatorAddress r) :
    let after := Service.hold cfg s.svc record accruedAt
    Held { s with svc := after } ∧ Keeps s { s with svc := after } := by
  have sound := held.tidy.sound
  have keyed := s.svc.grown_operatorAddress record accruedAt sound
  let accrual : Accrual := { s.svc.grown record accruedAt with timer := true }
  have accruals (key : String) : (Service.hold cfg s.svc record accruedAt).accruals.get? key =
      (s.svc.putAccrual accrual).accruals.get? key := by
    simp [hold_get? cfg s.svc record accruedAt sound, Service.putAccrual, keyed, accrual,
      OrderedMap.get?_set]
  have arrays : (s.svc.putAccrual accrual).arrays =
      (Service.hold cfg s.svc record accruedAt).arrays :=
    (hold_arrays ..).symm
  have whole : Sound (s.svc.putAccrual accrual) :=
    (hold_sound cfg s.svc record accruedAt sound priced claimed).mono arrays
      (hold_claimed cfg s.svc record accruedAt).symm fun key own found => (accruals key).trans found
  obtain ⟨put, kept⟩ := held.putAccrual accruedAt whole keyed rfl rfl placed
  have accruing : (s.svc.putAccrual accrual).accruals.get? record.operatorAddress =
      some accrual := by
    simp [Service.putAccrual, keyed, accrual]
  obtain ⟨queued, kept'⟩ := put.persistOpen stored accruing accrual.firstAt
  have timed : Unmoved (enqueueStore cfg (s.svc.putAccrual accrual) record.operatorAddress
      [.putOpen record.operatorAddress accrual.serial accrual.firstAt])
      (Service.hold cfg s.svc record accruedAt) :=
    { accruals := fun key => by simpa using accruals key
      arrays := by simp [arrays]
      nextSerial := by
        simp [Service.hold, armTimer, Service.persistOpen, Service.putAccrual, accrual]
      payouts := by simp [Service.putAccrual]
      claimed := by simp [Service.putAccrual]
      pending := fun key => ⟨[], by
        simp only [List.map_nil, List.append_nil]
        rw [hold_pending cfg s.svc record accruedAt sound, pending_enqueueStore]
        rfl⟩ }
  obtain ⟨done, kept''⟩ := queued.unmoved timed
  exact ⟨done, (kept.trans kept').trans kept''⟩

-- An accrual leaves for a batch of its own.
theorem Held.detach (stored : cfg.accrualStore = true) {operatorAddress : String} {own : Accrual}
    (accruing : s.svc.accruals.get? operatorAddress = some own) (now : Nat)
    (unused : s.Unused (s.svc.detachedId now)) :
    let after := Service.detach cfg s.svc operatorAddress own now
    Held { s with svc := after } ∧ Keeps s { s with svc := after } := by
  dsimp only
  have live := (held.tidy.sound _ _ accruing).live
  have serials : (Service.detach cfg s.svc operatorAddress own now).nextSerial =
      s.svc.nextSerial := by
    simp [Service.detach, carve, Service.runPayout]
  let batchId := s.svc.detachedId now
  let row := persisted own.operatorAddress own.records own.firstAt (some batchId)
  have pending (key : String) := detach_pending cfg s.svc operatorAddress own now key
  simp only [stored, and_true] at pending
  have added {key : String} {op : StoreOp}
      (member : op ∈ (Service.detach cfg s.svc operatorAddress own now).pending key) :
      op ∈ s.svc.pending key ∨
        key = operatorAddress ∧
          (op = .putBatch batchId row ∨ op = .removeOpen operatorAddress) := by
    rw [pending, List.mem_append] at member
    apply member.imp_right
    intro new
    split at new
    next same => exact ⟨same, by simpa using new⟩
    next => cases new
  have fewer (b : String) (other : b ≠ batchId) :
      Fewer s { s with svc := Service.detach cfg s.svc operatorAddress own now } b := by
    refine ⟨fun _ member => member, fun key op filed member => ?_, fun run member named => ?_⟩
    · rcases added member with old | ⟨-, rfl | rfl⟩
      · exact old
      · exact absurd (Option.some.inj filed).symm other
      · cases filed
    · rw [detach_payouts, List.mem_append, List.mem_singleton] at member
      rcases member with old | rfl
      · exact ⟨run, old, rfl⟩
      · exact absurd (Option.some.inj named).symm other
  have fresh (r : StoredRecord) (listed : r ∈ row.records) :
      Covered { s with svc := Service.detach cfg s.svc operatorAddress own now } batchId r := by
    refine ⟨fun key put member => ?_, fun key member => ?_, fun run member named => ?_⟩
    · rcases added member with old | ⟨-, same | same⟩
      · exact absurd rfl (unused.unqueued key _ old)
      · cases same
        exact listed
      · cases same
    · rcases added member with old | ⟨-, same | same⟩
      · exact absurd rfl (unused.unqueued key _ old)
      · cases same
      · cases same
    · rw [detach_payouts, List.mem_append, List.mem_singleton] at member
      rcases member with old | rfl
      · exact absurd named (unused.unpaid run old)
      · obtain ⟨record, inside, rfl⟩ := List.mem_map.mp listed
        exact ⟨record.requestId, List.mem_map_of_mem inside, rfl⟩
  have keeps : Keeps s { s with svc := Service.detach cfg s.svc operatorAddress own now } := by
    have batched (r : StoredRecord) (before : s.Batched r) :
        Batched { s with svc := Service.detach cfg s.svc operatorAddress own now } r := by
      refine before.mono (fun _ member => member) rfl fun b there covered => ?_
      exact covered.fewer (fewer b fun same => there (same ▸ unused.unstored))
    refine ⟨batched, fun r kept => kept.elim (fun before => .inl (batched r before)) ?_⟩
    rintro ⟨key, stale, found, listed, spares⟩
    refine .inr ⟨key, stale, found, listed, ?_⟩
    dsimp only
    rw [detach_arrays, pending]
    apply (spares_append _ _).mpr
    apply spares.weaken
    intro waits
    split
    next same =>
      subst same
      exact .inl (waits own accruing)
    next other =>
      intro accrual put
      rw [detach_accruals, OrderedMap.get?_erase, if_neg other] at put
      exact waits accrual put
  refine ⟨held.carry keeps rfl ?_ fun key b put member r listed => ?_, keeps⟩
  · refine ⟨held.tidy.sound.detach cfg operatorAddress own now, fun key op member other filed => ?_,
      fun key other serial firstAt member => ?_, fun key accrual found => ?_, fun key => ?_⟩
    · rcases added member with old | ⟨rfl, rfl | rfl⟩
      · exact held.tidy.filed key op old other filed
      · cases filed
      · simpa [openKey, eq_comm] using filed
    · rw [serials]
      rcases added member with old | ⟨-, same | same⟩
      · exact held.tidy.numbered key other serial firstAt old
      · cases same
      · cases same
    · rw [serials]
      rw [detach_accruals, OrderedMap.get?_erase] at found
      split at found
      · cases found
      · exact held.tidy.serials key accrual found
    · dsimp only
      rw [detach_arrays, detach_accruals, OrderedMap.get?_erase, pending]
      split
      next same =>
        subst same
        exact Tended.promote (accruing ▸ held.tidy.tended key) live batchId rfl
      next =>
        rw [List.append_nil]
        exact held.tidy.tended key
  · rcases added member with old | ⟨-, same | same⟩
    · have other : b ≠ batchId := fun same => unused.unqueued key _ old (same ▸ rfl)
      exact (held.covered key b put old r listed).fewer (fewer b other)
    · cases same
      exact fresh r listed
    · cases same

variable (cfg) in
-- A payout of its own is for no batch.
theorem Held.runPayout (record : SettlementRecord) (payout : Int) :
    let after := Service.runPayout cfg s.svc (directJob record payout)
    Held { s with svc := after } ∧ Keeps s { s with svc := after } := by
  refine held.fewer (fun b => ⟨fun _ member => member, fun _ _ _ member => member,
    fun run member named => ?_⟩) rfl
    { held.tidy with sound := held.tidy.sound.mono rfl rfl fun _ _ found => found }
    fun r opened => .inr opened
  rcases List.mem_append.mp member with old | new
  · exact ⟨run, old, rfl⟩
  · obtain rfl := List.mem_singleton.mp new
    cases named

theorem Held.resumePayout {index : Nat} {event : PayoutEvent}
    {attemptAt settledAt : Nat} {after : Service} {run : PayoutRun} {progress : Progress}
    (resumed : Service.resumePayout cfg s.svc index event attemptAt settledAt = some after)
    (found : s.svc.payouts[index]? = some run)
    (advanced : run.progress.next cfg.attempts event = some progress) :
    let s' : Standing :=
      ⟨s.rows, s.settled ++ if progress.isSettled then run.job.requestIds else [], after⟩
    Held s' ∧ Keeps s s' := by
  dsimp only
  obtain ⟨run', progress', found', advanced', kept⟩ :=
    resumePayout_cases cfg s.svc after index event attemptAt settledAt resumed
  obtain rfl : run' = run := by simpa [found] using found'.symm
  obtain rfl : progress' = progress := by simpa [advanced] using advanced'.symm
  obtain ⟨accruals, arrays, claimed, -, -, payouts, -⟩ :=
    discharged_frame cfg (moved cfg s.svc index run'.job progress') run'.job progress' attemptAt
  have serials := discharged_nextSerial cfg (moved cfg s.svc index run'.job progress') run'.job
    progress' attemptAt
  have pending := discharged_pending cfg (moved cfg s.svc index run'.job progress') run'.job
    progress' attemptAt
  generalize discharged cfg (moved cfg s.svc index run'.job progress') run'.job progress'
    attemptAt = middle at kept accruals arrays claimed payouts serials pending
  let ids := if progress'.isSettled then run'.job.requestIds else []
  let released (key : String) : List StoreOp :=
    if progress'.isSettled = true ∧ key = payee run'.job ∧ cfg.accrualStore = true then
      (run'.job.batchId.map .removeBatch).toList
    else []
  have closed (key : String) : ∀ op ∈ released key, ∃ b, op = .removeBatch b ∧
      progress'.isSettled = true ∧ run'.job.batchId = some b := by
    intro op member
    dsimp only [released] at member
    split at member
    next ended =>
      obtain ⟨b, named, rfl⟩ : ∃ b, run'.job.batchId = some b ∧ StoreOp.removeBatch b = op := by
        simpa using member
      exact ⟨b, rfl, ended.1, named⟩
    next => cases member
  have unopened (key : String) : ∀ op ∈ released key, openKey op = none := by
    intro op member
    obtain ⟨b, rfl, -⟩ := closed key op member
    rfl
  have listed := List.mem_of_getElem? found
  have jobs : ∀ other ∈ middle.payouts, ∃ old ∈ s.svc.payouts, old.job = other.job := by
    intro other member
    rw [payouts] at member
    rcases List.mem_or_eq_of_mem_set member with old | rfl
    · exact ⟨other, old, rfl⟩
    · exact ⟨run', listed, rfl⟩
  have covered {b : String} {r : StoredRecord} (before : s.Covered b r) :
      Covered ⟨s.rows, s.settled ++ ids, middle⟩ b r := by
    refine ⟨fun key row member => ?_, fun key member => ?_, fun other member named => ?_⟩
    · rw [pending, List.mem_append] at member
      rcases member with old | new
      · exact before.put key row old
      · obtain ⟨b', same, -⟩ := closed key _ new
        cases same
    · rw [pending, List.mem_append] at member
      rcases member with old | new
      · exact (before.removed key old).mono fun id inside => List.mem_append_left _ inside
      · obtain ⟨b', same, ended, named⟩ := closed key _ new
        cases same
        apply (before.paying run' listed named).mono
        intro id inside
        apply List.mem_append_right
        simpa [ids, ended] using inside
    · obtain ⟨old, earlier, same⟩ := jobs other member
      rw [← same] at named ⊢
      exact before.paying old earlier named
  have keeps : Keeps s ⟨s.rows, s.settled ++ ids, middle⟩ := by
    have batched (r : StoredRecord) (before : s.Batched r) :
        Batched ⟨s.rows, s.settled ++ ids, middle⟩ r :=
      before.mono (fun _ inside => List.mem_append_left _ inside) rfl fun _ _ => covered
    refine ⟨batched, fun r kept => kept.elim (fun before => .inl (batched r before)) ?_⟩
    rintro ⟨key, row, there, inside, spares⟩
    refine .inr ⟨key, row, there, inside, ?_⟩
    dsimp only
    rw [arrays, pending]
    apply (spares_append _ _).mpr
    apply Spares.weaken spares
    intro waits
    apply spares_of_unopened (unopened key)
    exact fun own there => waits own (accruals ▸ there)
  have standing : Held ⟨s.rows, s.settled ++ ids, middle⟩ := by
    refine held.carry keeps rfl ?_ fun key b row member r inside => ?_
    · refine ⟨held.tidy.sound.mono arrays claimed fun _ _ there => accruals ▸ there,
        fun key op member other filed => ?_, fun key other serial firstAt member => ?_,
        fun key own there => ?_, fun key => ?_⟩
      · rw [pending, List.mem_append] at member
        rcases member with old | new
        · exact held.tidy.filed key op old other filed
        · rw [unopened key op new] at filed
          cases filed
      · rw [serials]
        rw [pending, List.mem_append] at member
        rcases member with old | new
        · exact held.tidy.numbered key other serial firstAt old
        · obtain ⟨b', same, -⟩ := closed key _ new
          cases same
      · rw [serials]
        exact held.tidy.serials key own (accruals ▸ there)
      · dsimp only
        rw [arrays, accruals, pending]
        exact (held.tidy.tended key).append (unopened key)
    · rw [pending, List.mem_append] at member
      rcases member with old | new
      · exact covered (held.covered key b row old r inside)
      · obtain ⟨b', same, -⟩ := closed key _ new
        cases same
  obtain ⟨done, kept'⟩ := standing.unmoved kept.unmoved
  exact ⟨done, keeps.trans kept'⟩

theorem Held.settleInbound (stored : cfg.accrualStore = true) (batching : 0 < cfg.batchMinAtomic)
    (inbound : InboundSettlement) (now : Readings)
    (careful : ∀ record, takenOn cfg s.svc inbound now = some record → payoutOf record ≠ 0 →
      (s.svc.accruals.get? record.operatorAddress = none →
        ∀ row, s.rows.openRows.get? record.operatorAddress = some row →
          ∀ r ∈ row.records, s.Placed record.operatorAddress r) ∧
      (fills cfg s.svc record now.accruedAt = true → s.Unused (s.svc.detachedId now.flushedAt))) :
    let after := Service.settleInbound cfg s.svc inbound now
    Held { s with svc := after } ∧ Keeps s { s with svc := after } := by
  dsimp only
  rcases settleInbound_accrues cfg batching s.svc held.tidy.sound inbound now with
    quiet | ⟨record, base, taken, owes, kept, priced, claimed, waits, full⟩
  · exact held.unmoved quiet.unmoved
  · obtain ⟨placed, unused⟩ := careful record taken owes
    have noted : Unmoved s.svc base := { kept.unmoved with }
    obtain ⟨based, keeps⟩ := held.unmoved noted
    have placed' (idle : base.accruals.get? record.operatorAddress = none)
        (row : PersistedAccrual)
        (found : s.rows.openRows.get? record.operatorAddress = some row) (r : StoredRecord)
        (listed : r ∈ row.records) :
        Placed { s with svc := base } record.operatorAddress r := by
      rw [noted.accruals] at idle
      rcases placed idle row found r listed with batched | ⟨op, member, promotes⟩
      · exact .inl (keeps.batched r batched)
      · obtain ⟨records, queued⟩ := noted.pending record.operatorAddress
        exact .inr ⟨op, by simp [queued, member], promotes⟩
    cases filled : fills cfg s.svc record now.accruedAt with
    | false =>
      rw [waits filled]
      obtain ⟨done, keeps'⟩ := based.hold stored now.accruedAt priced claimed placed'
      exact ⟨done, keeps.trans keeps'⟩
    | true =>
      rw [full filled]
      have keyed := base.grown_operatorAddress record now.accruedAt based.tidy.sound
      obtain ⟨put, keeps'⟩ := based.putAccrual now.accruedAt
        (base.putAccrual_sound record now.accruedAt based.tidy.sound priced claimed) keyed rfl rfl
        placed'
      have accruing : (base.putAccrual (base.grown record now.accruedAt)).accruals.get?
          record.operatorAddress = some (base.grown record now.accruedAt) := by
        simp [Service.putAccrual, keyed]
      have free := unused filled
      have same : (base.putAccrual (base.grown record now.accruedAt)).detachedId now.flushedAt =
          s.svc.detachedId now.flushedAt := by
        have seq : base.batchSeq = s.svc.batchSeq := kept.batchSeq
        simp only [detachedId, Service.putAccrual, seq]
      obtain ⟨done, keeps''⟩ := put.detach stored accruing now.flushedAt
        { unstored := same ▸ free.unstored
          unqueued := fun key op member => by
            rcases noted.mem_pending member with old | ⟨_, rfl⟩
            · exact same ▸ free.unqueued key op old
            · intro named
              cases named
          unpaid := fun run member => same ▸ free.unpaid run (kept.payouts ▸ member) }
      exact ⟨done, (keeps.trans keeps').trans keeps''⟩

theorem Held.flushAccrual (stored : cfg.accrualStore = true) (operatorAddress : String)
    {now : Nat} (unused : s.Unused (s.svc.detachedId now)) :
    let after := Service.flushAccrual cfg s.svc operatorAddress now
    Held { s with svc := after } ∧ Keeps s { s with svc := after } := by
  dsimp only
  cases found : s.svc.accruals.get? operatorAddress with
  | none =>
    rw [flushAccrual_absent cfg _ _ now found]
    exact ⟨held, .refl s⟩
  | some accrual =>
    rw [flushAccrual_found cfg _ _ now accrual found (held.tidy.sound _ _ found)]
    exact held.detach stored found _ unused

omit held in
-- A batch that is detached takes the next id only.
theorem Unused.detach {s : Standing} {n now : Nat} (unused : s.Unused (batchIdOf now (n + 1)))
    (later : s.svc.batchSeq < n) (operatorAddress : String) (own : Accrual) (at' : Nat) :
    Unused { s with svc := Service.detach cfg s.svc operatorAddress own at' }
      (batchIdOf now (n + 1)) := by
  have other : s.svc.detachedId at' ≠ batchIdOf now (n + 1) := by
    intro same
    have seq := (Text.dash_suffix_injective _ _ _ _ same).2
    omega
  refine ⟨unused.unstored, fun key op member filed => ?_, fun run member named => ?_⟩
  · rw [detach_pending, List.mem_append] at member
    rcases member with old | added
    · exact unused.unqueued key op old filed
    · split at added
      · simp only [List.mem_cons, List.not_mem_nil, or_false] at added
        rcases added with rfl | rfl
        · exact other (Option.some.inj filed)
        · cases filed
      · cases added
  · rw [detach_payouts, List.mem_append, List.mem_singleton] at member
    rcases member with old | rfl
    · exact unused.unpaid run old named
    · exact other (Option.some.inj named)

omit held in
theorem Held.flushKeys (stored : cfg.accrualStore = true) (now : Nat → Nat) (keys : List String)
    {s : Standing} (held : Held s)
    (careful : ∀ n, s.svc.batchSeq ≤ n → n < s.svc.batchSeq + keys.length →
      s.Unused (batchIdOf (now n) (n + 1))) :
    let after := keys.foldl
      (fun svc key => Service.flushAccrual cfg svc key (now svc.batchSeq)) s.svc
    Held { s with svc := after } ∧ Keeps s { s with svc := after } := by
  induction keys generalizing s with
  | nil => exact ⟨held, .refl s⟩
  | cons key rest ih =>
    simp only [List.length_cons] at careful
    rw [List.foldl_cons]
    cases found : s.svc.accruals.get? key with
    | none =>
      rw [flushAccrual_absent cfg _ _ _ found]
      exact ih held fun n from_ below => careful n from_ (by omega)
    | some own =>
      rw [flushAccrual_found cfg _ _ _ own found (held.tidy.sound _ _ found)]
      obtain ⟨detached, keeps⟩ := held.detach stored found _
        (careful s.svc.batchSeq (le_refl _) (by omega))
      obtain ⟨done, keeps'⟩ := ih detached fun n from_ below => by
        simp only [detach_batchSeq] at from_ below
        exact (careful n (by omega) (by omega)).detach from_ key own _
      exact ⟨done, keeps.trans keeps'⟩

theorem Held.flushPayouts (stored : cfg.accrualStore = true) (now : Nat → Nat)
    (careful : ∀ n, s.svc.batchSeq ≤ n → n < s.svc.batchSeq + s.svc.accruals.size →
      s.Unused (batchIdOf (now n) (n + 1))) :
    let after := Service.flushPayouts cfg s.svc now
    Held { s with svc := after } ∧ Keeps s { s with svc := after } := by
  have size : s.svc.accruals.keys.length = s.svc.accruals.size := by
    simp [OrderedMap.keys, OrderedMap.size]
  exact held.flushKeys stored now _ fun n from_ below => careful n from_ (size ▸ below)

theorem Held.callWrite {key : String} {works : List (Work StoreOp)}
    (called : WriteChain.call (StoreOp.serialize s.svc.arrays) (s.svc.chain key) = some works) :
    let after := s.svc.setChain key works
    Held { s with svc := after } ∧ Keeps s { s with svc := after } := by
  obtain ⟨op, rest, before, same⟩ := WriteChain.pending_call _ _ _ called
  have pending (other : String) : (s.svc.setChain key works).pending other =
      if other = key then op.serialize s.svc.arrays :: rest else s.svc.pending other := by
    rw [pending_setChain, same]
  have head : s.svc.pending key = op :: rest := before
  have known {other : String} {written : StoreOp}
      (member : written ∈ (s.svc.setChain key works).pending other) :
      written ∈ s.svc.pending other ∨
        other = key ∧ written = op.serialize s.svc.arrays ∧ op ∈ s.svc.pending key := by
    rw [pending] at member
    split at member
    next own =>
      subst own
      rw [head]
      rcases List.mem_cons.mp member with rfl | later
      · exact .inr ⟨rfl, rfl, List.mem_cons_self ..⟩
      · exact .inl (List.mem_cons_of_mem _ later)
    next => exact .inl member
  dsimp only
  refine held.fewer (fun b => ⟨fun _ member => member, fun other written filed member => ?_,
    fun run member _ => ⟨run, member, rfl⟩⟩) rfl ?_ ?_
  · rcases known member with old | ⟨rfl, rfl, first⟩
    · exact old
    · cases op with
      | putOpen => cases filed
      | _ => exact first
  · refine ⟨held.tidy.sound.mono rfl rfl fun _ _ found => found,
      fun other written member owner filed => ?_, fun other owner serial firstAt member => ?_,
      held.tidy.serials, fun other => ?_⟩
    · rcases known member with old | ⟨rfl, rfl, first⟩
      · exact held.tidy.filed other written old owner filed
      · rw [openKey_serialize] at filed
        exact held.tidy.filed other op first owner filed
    · rcases known member with old | ⟨rfl, written, first⟩
      · exact held.tidy.numbered other owner serial firstAt old
      · cases op <;> cases written
    · have tended := held.tidy.tended other
      dsimp only
      rw [pending]
      split
      next own =>
        subst own
        rw [head] at tended
        exact tended.serialize
      next => exact tended
  · rintro r ⟨other, row, found, listed, spares⟩
    refine .inr ⟨other, row, found, listed, ?_⟩
    dsimp only
    rw [pending]
    split
    next own =>
      subst own
      rw [head] at spares
      exact spares.serialize
    next => exact spares

theorem Held.resolveWrite {key : String} {works : List (Work StoreOp)} {op : StoreOp}
    (resolved : WriteChain.resolve (s.svc.chain key) = some (op, works)) :
    let after := s.svc.setChain key works
    Held { s with svc := after } ∧ Keeps s { s with svc := after } := by
  refine held.unmoved ⟨fun _ => rfl, rfl, rfl, rfl, fun _ claimed => claimed, fun other => ⟨[], ?_⟩⟩
  rw [pending_setChain, WriteChain.pending_resolve _ _ _ resolved]
  split
  next own => simp [own, Service.pending]
  next => simp

-- The writes that a rejection gives up promote no record that depends on them.
theorem Held.rejectWrite {key : String} {works : List (Work StoreOp)} (gone : List StoreOp)
    (left : s.svc.pending key = gone ++ WriteChain.pending works)
    (spared : ∀ row, s.rows.openRows.get? key = some row → ∀ r ∈ row.records, Promoted r gone →
      s.Batched r ∨ s.svc.accruals.get? key = none ∧
        ∀ op ∈ WriteChain.pending works, openKey op = none) :
    let after := s.svc.setChain key works
    Held { s with svc := after } ∧ Keeps s { s with svc := after } := by
  have pending (other : String) : (s.svc.setChain key works).pending other =
      if other = key then WriteChain.pending works else s.svc.pending other :=
    pending_setChain s.svc key works other
  have known {other : String} {op : StoreOp}
      (member : op ∈ (s.svc.setChain key works).pending other) : op ∈ s.svc.pending other := by
    rw [pending] at member
    split at member
    next own =>
      rw [own, left]
      exact List.mem_append_right _ member
    next => exact member
  dsimp only
  have fewer (b : String) : Fewer s { s with svc := s.svc.setChain key works } b :=
    ⟨fun _ member => member, fun _ _ _ => known, fun run member _ => ⟨run, member, rfl⟩⟩
  refine held.fewer fewer rfl ?_ ?_
  · refine ⟨held.tidy.sound.mono rfl rfl fun _ _ found => found,
      fun other op member => held.tidy.filed other op (known member),
      fun other owner serial firstAt member =>
        held.tidy.numbered other owner serial firstAt (known member),
      held.tidy.serials, fun other => ?_⟩
    have tended := held.tidy.tended other
    dsimp only
    rw [pending]
    split
    next own =>
      subst own
      rw [left] at tended
      exact tended.suffix
    next => exact tended
  · rintro r ⟨other, row, found, listed, spares⟩
    by_cases own : other = key
    · subst own
      have still (last : Spares s.svc.arrays (s.svc.Waits other r) r (WriteChain.pending works)) :
          Open { s with svc := s.svc.setChain other works } r := by
        refine ⟨other, row, found, listed, ?_⟩
        dsimp only
        rw [pending, if_pos rfl]
        exact last
      rw [left] at spares
      by_cases promoted : Promoted r gone
      · rcases spared row found r listed promoted with batched | ⟨idle, unopened⟩
        · exact .inl (batched.fewer fewer rfl)
        · refine .inr (still (spares_of_unopened unopened fun own accruing => ?_))
          rw [idle] at accruing
          cases accruing
      · exact .inr (still (spares.skip promoted))
    · refine .inr ⟨other, row, found, listed, ?_⟩
      dsimp only
      rw [pending, if_neg own]
      exact spares

theorem Held.applyWrite {key : String} {works : List (Work StoreOp)} {op : StoreOp} {rows : Rows}
    (head : s.svc.pending key = op :: WriteChain.pending works)
    (effect : op.effect s.rows = some rows) :
    let s' : Standing := ⟨rows, s.settled, s.svc.setChain key works⟩
    Held s' ∧ Keeps s s' := by
  have pending (other : String) : (s.svc.setChain key works).pending other =
      if other = key then WriteChain.pending works else s.svc.pending other :=
    pending_setChain s.svc key works other
  have first : op ∈ s.svc.pending key := by simp [head]
  have known {other : String} {written : StoreOp}
      (member : written ∈ (s.svc.setChain key works).pending other) :
      written ∈ s.svc.pending other := by
    rw [pending] at member
    split at member
    next own =>
      rw [own, head]
      exact List.mem_cons_of_mem _ member
    next => exact member
  dsimp only
  have fewer (b : String) : Fewer s ⟨rows, s.settled, s.svc.setChain key works⟩ b :=
    ⟨fun _ member => member, fun _ _ _ => known, fun run member _ => ⟨run, member, rfl⟩⟩
  have written {b : String} {row : PersistedAccrual} {r : StoredRecord}
      (puts : op = .putBatch b row) (listed : r ∈ row.records) :
      Batched ⟨rows, s.settled, s.svc.setChain key works⟩ r := by
    subst puts
    refine .inr ⟨b, row, ?_, listed, (held.covered key b row first r listed).fewer (fewer b)⟩
    rw [batchStep_effect b _ s.rows rows effect]
    simp [batchStep]
  have batched (r : StoredRecord) (before : s.Batched r) :
      Batched ⟨rows, s.settled, s.svc.setChain key works⟩ r := by
    rcases before with paid | ⟨b, row, found, listed, covered⟩
    · exact .inl paid
    · have after := batchStep_effect b op s.rows rows effect
      by_cases touched : batchKey op = some b
      · cases op with
        | putBatch id row =>
          obtain rfl : id = b := Option.some.inj touched
          exact written rfl (covered.put key row first)
        | removeBatch id =>
          obtain rfl : id = b := Option.some.inj touched
          exact .inl (covered.removed key first)
        | _ => cases touched
      · rw [batchStep_other b _ op touched] at after
        exact .inr ⟨b, row, after.trans found, listed, covered.fewer (fewer b)⟩
  have keeps : Keeps s ⟨rows, s.settled, s.svc.setChain key works⟩ := by
    refine ⟨batched, fun r kept => kept.elim (fun before => .inl (batched r before)) ?_⟩
    rintro ⟨other, row, found, listed, spares⟩
    have after := openStep_effect s.svc.arrays other op s.rows rows effect
    by_cases own : other = key
    · subst own
      rw [head] at spares
      have still (row' : PersistedAccrual) (there : rows.openRows.get? other = some row')
          (inside : r ∈ row'.records)
          (rest : Spares s.svc.arrays (s.svc.Waits other r) r (WriteChain.pending works)) :
          Kept ⟨rows, s.settled, s.svc.setChain other works⟩ r := by
        refine .inr ⟨other, row', there, inside, ?_⟩
        dsimp only
        rw [pending, if_pos rfl]
        exact rest
      cases op with
      | putOpen => cases effect
      | putOpenRow put =>
        have filed : put.operatorAddress = other := held.tidy.filed other _ first _ rfl
        exact still put (by simpa [openStep, filed] using after) spares.1 spares.2
      | removeOpen => exact spares.elim
      | putBatch b put =>
        rcases spares with promoted | rest
        · exact .inl (written rfl promoted)
        · exact still row (after.trans found) listed rest
      | removeBatch | putLedger => exact still row (after.trans found) listed spares
    · have elsewhere : openKey op ≠ some other := fun filed =>
        own (held.tidy.filed key op first other filed)
      rw [openStep_other s.svc.arrays other _ op elsewhere] at after
      refine .inr ⟨other, row, after.trans found, listed, ?_⟩
      dsimp only
      rw [pending, if_neg own]
      exact spares
  refine ⟨⟨?_, fun other b row member r listed => ?_, fun b row found r listed => ?_,
    fun other row found r listed => ?_⟩, keeps⟩
  · refine ⟨held.tidy.sound.mono rfl rfl fun _ _ found => found,
      fun other written member => held.tidy.filed other written (known member),
      fun other owner serial firstAt member =>
        held.tidy.numbered other owner serial firstAt (known member),
      held.tidy.serials, fun other => ?_⟩
    have tended := held.tidy.tended other
    dsimp only
    rw [pending]
    split
    next own =>
      subst own
      rw [head] at tended
      exact tended.2
    next => exact tended
  · exact (held.covered other b row (known member) r listed).fewer (fewer b)
  · rcases batchRow_after effect found with puts | ⟨old, -⟩
    · exact written puts listed
    · exact batched r (held.batchRows b row old r listed)
  · rcases openRow_after effect found with ⟨rfl, filed⟩ | ⟨old, -⟩
    · obtain rfl : other = key := by
        rw [← filed]
        exact held.tidy.filed key _ first _ rfl
      have tended := held.tidy.tended other
      rw [head] at tended
      refine .inr ⟨other, row, found, listed, ?_⟩
      dsimp only
      rw [pending, if_pos rfl]
      rcases tended.1 row.records rfl with ⟨own, accruing, waiting, continues⟩ | ⟨-, promoted⟩
      · have live := (held.tidy.sound _ _ accruing).live
        apply spares_of_continues live continues (waiting r listed)
        intro again found'
        obtain rfl : own = again := Option.some.inj (accruing.symm.trans found')
        exact waiting r listed
      · exact (promoted r listed).weaken False.elim
    · exact keeps.kept r (held.openRows other row old r listed)

end moves

end Standing

end X402Mesh.Settlement
