import X402Mesh.Settlement.Pass
import X402Mesh.Settlement.Tracking

set_option autoImplicit false

namespace X402Mesh.Settlement

open Registry Service

variable (cfg : Deps)

namespace World

variable {ι : Type}

def Unlanded (w : World ι) (id : String) : Prop := ∀ p ∈ w.landed, id ∉ p.requestIds

def Fresh (w : World ι) (id : String) : Prop := w.Untracked id ∧ w.Unlanded id

/-- Payments of one request agree with each other, and with whatever may still pay it. -/
structure Landed (w : World ι) : Prop where
  agree : ∀ p ∈ w.landed, ∀ q ∈ w.landed, ∀ id ∈ p.requestIds, id ∈ q.requestIds →
    p.payoutId = q.payoutId
  carried : ∀ p ∈ w.landed, ∀ id ∈ p.requestIds, ∀ b r, w.Carries id b r →
    p.payoutId = "batch/" ++ b ∧ p.receiver = r
  unaccrued : ∀ p ∈ w.landed, ∀ id ∈ p.requestIds, ∀ i op, ¬ (w.service i).Accrues id op

-- Nothing lands, and only requests that no payment covers are taken up anew.
theorem Landed.unpaid {w w' : World ι} (landed : Landed w) (same : w'.landed = w.landed)
    (carries : ∀ id b r, w'.Carries id b r → w.Carries id b r ∨ w.Unlanded id)
    (accrues : ∀ i id op, (w'.service i).Accrues id op →
      (w.service i).Accrues id op ∨ w.Unlanded id) : Landed w' where
  agree := by
    rw [same]
    exact landed.agree
  carried := by
    rw [same]
    intro p member id covered b r held
    rcases carries id b r held with old | unlanded
    · exact landed.carried p member id covered b r old
    · exact absurd covered (unlanded p member)
  unaccrued := by
    rw [same]
    intro p member id covered i op held
    rcases accrues i id op held with old | unlanded
    · exact landed.unaccrued p member id covered i op old
    · exact unlanded p member covered

theorem Landed.shrink {w w' : World ι} (landed : Landed w) (same : w'.landed = w.landed)
    (shrinks : Shrinks w w') : Landed w' :=
  landed.unpaid same (fun id b r held => .inl (shrinks.carries id b r held))
    fun i id op held => .inl (shrinks.accrues i id op held)

theorem Fresh.shrink {w w' : World ι} {id : String} (fresh : w.Fresh id)
    (same : w'.landed = w.landed) (shrinks : Shrinks w w') : w'.Fresh id := by
  refine ⟨⟨fun b r held => ?_, fun i op held => ?_⟩, fun p member => ?_⟩
  · exact fresh.1.uncarried b r (shrinks.carries id b r held)
  · exact fresh.1.unaccrued i op (shrinks.accrues i id op held)
  · rw [same] at member
    exact fresh.2 p member

theorem Landed.unlanded_of_accrues {w : World ι} (landed : Landed w) {i : ι} {id op : String}
    (accrues : (w.service i).Accrues id op) : w.Unlanded id :=
  fun p member covered => landed.unaccrued p member id covered i op accrues

variable [DecidableEq ι]

theorem landed_moves :
    KeptByMoves cfg (Landed (ι := ι)) fun w _ id => w.Unlanded id where
  ended w i landed := landed.shrink rfl (turn_shrinks w i)
  quiet w i _ landed kept :=
    landed.shrink rfl (put_shrinks w i _ (fun _ _ _ held => .inl ⟨i, kept.carries held⟩)
      fun _ _ held => kept.accrues held)
  hold w i base record accruedAt landed sound taken fresh := by
    have held := taken.kept.sound sound
    refine landed.unpaid rfl (fun id b r carries => .inl ?_) fun j id op accrues => ?_
    · have never := put_carries (Q := fun _ _ _ => False)
        (fun id b r own => .inl (taken.kept.carries (hold_carries held accruedAt own))) id b r carries
      simpa using never
    · rcases put_accrues (fun id op own => (hold_accrues held accruedAt own).imp_left
        taken.kept.accrues) j id op accrues with old | ⟨-, rfl, -⟩
      · exact .inl old
      · exact .inr fresh
  take w i base record accruedAt landed sound taken fresh := by
    have held := taken.kept.sound sound
    have before (id b r : String)
        (own : (base.putAccrual (base.grown record accruedAt)).Carries id b r) :
        base.Carries id b r := carries_of rfl (fun _ _ _ member => member) own
    refine landed.unpaid rfl (fun id b r carries => .inl ?_) fun j id op accrues => ?_
    · have never := put_carries (Q := fun _ _ _ => False)
        (fun id b r own => .inl (taken.kept.carries (before id b r own))) id b r carries
      simpa using never
    · rcases put_accrues (fun id op own => (putAccrual_accrues held accruedAt own).imp_left
        taken.kept.accrues) j id op accrues with old | ⟨-, rfl, -⟩
      · exact .inl old
      · exact .inr fresh
  detach w i operatorAddress accrual now landed sound found := by
    refine landed.unpaid rfl (fun id b r carries => ?_) fun j id op accrues => .inl ?_
    · rcases put_carries (fun id b r own =>
        detach_carries operatorAddress accrual now (sound _ _ found).keyed own) id b r carries with
        old | ⟨member, -, -⟩
      · exact .inl old
      · exact .inr (landed.unlanded_of_accrues ⟨accrual, found, member⟩)
    · have never := put_accrues (Q := fun _ _ => False)
        (fun id op own => .inl (detach_accrues operatorAddress accrual now own).1) j id op accrues
      simpa using never

def onChain (w : World ι) (job : PayoutJob) : Bool :=
  w.landed.any fun p => p.payoutId = job.payoutId ∧ p.receiver = job.receiver

-- `findLandedPayout` answers, and accurately.
def truthful (w : World ι) (job : PayoutJob) : LookupOutcome → Bool
  | .found _ => w.onChain job
  | .notFound => !w.onChain job
  | _ => false

-- Every operation of the store succeeds, and every lookup is accurate.
def promised (w : World ι) : Action ι → Bool
  | .rejectWrite .. => false
  | .recoverAccruals _ ok _ => ok
  | .boot _ _ _ _ ok _ => ok
  | .payout i index (.lookup outcome) _ _ =>
    (w.service i).payouts[index]?.all fun run => w.truthful run.job outcome
  | _ => true

theorem Landed.payout {w w' : World ι} (landed : Landed w) (tracked : Tracked w)
    (labelled : Labelled w) {i : ι} {index : Nat} {event : PayoutEvent}
    {attemptAt settledAt : Nat}
    (taken : step cfg w (.payout i index event attemptAt settledAt) = some w') : Landed w' := by
  have shrinks := payout_shrinks cfg taken
  obtain ⟨svc, run, progress, resumed, found, -, rfl⟩ := payout_inv taken
  obtain ⟨b, batch, named⟩ := (labelled.labels i).runs run (List.mem_of_getElem? found)
  have carries (id : String) (covered : id ∈ run.job.requestIds) :
      w.Carries id b run.job.receiver :=
    .inl ⟨i, .inl ⟨run, List.mem_of_getElem? found, batch, rfl, covered⟩⟩
  have either {p : Payment} (member : p ∈ ((w.recordOutcome run.job event progress).turn i
      svc).landed) : p ∈ w.landed ∨ p = .ofJob run.job := by
    rcases List.mem_append.mp member with old | new
    · exact .inl old
    · split at new
      · exact .inr (List.mem_singleton.mp new)
      · cases new
  constructor
  · intro p first q second id inside inside'
    rcases either first with old | rfl <;> rcases either second with old' | rfl
    · exact landed.agree p old q old' id inside inside'
    · exact (landed.carried p old id inside b _ (carries id inside')).1.trans named.symm
    · exact named.trans (landed.carried q old' id inside' b _ (carries id inside)).1.symm
    · rfl
  · intro p member id inside b' r held
    have before := shrinks.carries id b' r held
    rcases either member with old | rfl
    · exact landed.carried p old id inside b' r before
    · obtain ⟨rfl, received⟩ := tracked.one id b b' _ r (carries id inside) before
      exact ⟨named, received⟩
  · intro p member id inside j op held
    have before := shrinks.accrues j id op held
    rcases either member with old | rfl
    · exact landed.unaccrued p old id inside j op before
    · exact tracked.apart j id op b _ before (carries id inside)

/-- The rows that a recovery has loaded: a batch is resumed under the id it is stored with, and what
only an open row lists is with nobody. -/
structure Loadable (w : World ι) (openRows batches : List PersistedAccrual) : Prop where
  named : ∀ row ∈ batches, ∃ b, row.batchId = some b ∧ b ≠ "" ∧
    ∀ id ∈ rowIds row, w.Stores id b row.operatorAddress
  unnamed : ∀ row ∈ openRows, row.batchId = none
  fresh : ∀ row ∈ openRows, ∀ id ∈ rowIds row,
    id ∈ batches.flatMap rowIds ∨ w.Fresh id

structure Resumed (w : World ι) (i : ι) (state : Recovery) : Prop where
  tracked : Tracked (w.put i state.svc)
  landed : Landed (w.put i state.svc)
  carries : ∀ id b r, (w.put i state.svc).Carries id b r → w.Carries id b r ∨ id ∈ state.handled
  accrues : ∀ j id op, ((w.put i state.svc).service j).Accrues id op → (w.service j).Accrues id op

section recovery

variable {cfg} {w : World ι} {i : ι} {now : Nat → Nat} {state after : Recovery}
variable {row : PersistedAccrual} {ops : List StoreOp} {runs : List PayoutRun}

theorem payable_usable (handled : List String) (row : PersistedAccrual) :
    ∀ r ∈ payable handled row, r.usable = true :=
  fun r member => ((mem_payable handled row r).mp member).2.1

theorem Resumed.accrues_step (rowStep : RowStep cfg now state row ops runs after) (j : ι)
    (id op : String) (held : ((w.put i after.svc).service j).Accrues id op) :
    ((w.put i state.svc).service j).Accrues id op := by
  rw [put_service] at held ⊢
  split at held
  next same => simpa [same] using rowStep.recovered.accrues held
  next differ => simpa [differ] using held

theorem Resumed.resume (resumed : Resumed w i state)
    (rowStep : RowStep cfg now state row ops runs after) {b : String}
    (named : row.batchId = some b) (nonempty : b ≠ "")
    (stores : ∀ id ∈ rowIds row, w.Stores id b row.operatorAddress) : Resumed w i after := by
  have under : resumedId row = some b := by simp [resumedId, named, nonempty]
  have shrinks : Shrinks (w.put i state.svc) (w.put i after.svc) := by
    rw [← put_put w i state.svc after.svc]
    apply put_shrinks
    · intro id b' r held
      rcases rowStep.recovered.carries rowStep.outcome (payable_usable _ row) held with
        old | ⟨inside, rfl, own | ⟨own, -⟩⟩
      · exact .inl ⟨i, by simpa using old⟩
      · obtain rfl : b = b' := Option.some.inj (under.symm.trans own)
        exact .inr (stores id (payable_ids _ row id inside).1)
      · rw [under] at own
        cases own
    · intro id op held
      simpa using rowStep.recovered.accrues held
  constructor
  · exact resumed.tracked.shrink shrinks
  · exact resumed.landed.shrink rfl shrinks
  · intro id b' r held
    apply (resumed.carries id b' r (shrinks.carries id b' r held)).imp_right
    intro handled
    rw [rowStep.handled]
    exact List.mem_append_right _ handled
  · exact fun j id op held => resumed.accrues j id op (shrinks.accrues j id op held)

theorem Outcome.one_batch {records : List StoredRecord}
    (outcome : Outcome cfg now row records ops runs) :
    ∃ b, ∀ run ∈ runs, run.job.batchId = some b := by
  cases outcome with
  | dropped | stopped => exact ⟨"", by simp⟩
  | resumed b | fresh b => exact ⟨b, by simp [recoveredRun, batchJob]⟩

theorem Resumed.rebatch (resumed : Resumed w i state)
    (rowStep : RowStep cfg now state row ops runs after) (unnamed : row.batchId = none)
    (fresh : ∀ id ∈ rowIds row, id ∈ state.handled ∨ w.Fresh id) :
    Resumed w i after := by
  obtain ⟨b, one⟩ := Outcome.one_batch rowStep.outcome
  have under : resumedId row = none := by simp [resumedId, unnamed]
  have new (id : String) (inside : id ∈ requestIdsOf (payable state.handled row)) :
      id ∉ state.handled ∧ w.Fresh id := by
    obtain ⟨listed, unhandled⟩ := payable_ids _ row id inside
    exact ⟨unhandled, (fresh id listed).resolve_left unhandled⟩
  have carries (id b' r : String) (held : (w.put i after.svc).Carries id b' r) :
      (w.put i state.svc).Carries id b' r ∨
        id ∈ requestIdsOf (payable state.handled row) ∧ b' = b ∧ r = row.operatorAddress := by
    rw [← put_put w i state.svc after.svc] at held
    refine put_carries (Q := fun id b' r => id ∈ requestIdsOf (payable state.handled row) ∧
      b' = b ∧ r = row.operatorAddress) (fun id b' r own => ?_) id b' r held
    rw [put_service_self]
    apply (rowStep.recovered.carries rowStep.outcome (payable_usable _ row) own).imp_right
    rintro ⟨inside, received, named | ⟨-, run, member, batch⟩⟩
    · rw [under] at named
      cases named
    · exact ⟨inside, Option.some.inj (batch.symm.trans (one run member)), received⟩
  have uncarried (id : String) (inside : id ∈ requestIdsOf (payable state.handled row))
      (b' r : String) : ¬ (w.put i state.svc).Carries id b' r := by
    intro held
    obtain ⟨unhandled, untracked, -⟩ := new id inside
    rcases resumed.carries id b' r held with old | handled
    · exact untracked.uncarried b' r old
    · exact unhandled handled
  have accrues (j : ι) (id op : String) (held : ((w.put i after.svc).service j).Accrues id op) :
      ((w.put i state.svc).service j).Accrues id op :=
    Resumed.accrues_step rowStep j id op held
  constructor
  · refine resumed.tracked.carve _ b row.operatorAddress carries uncarried fun j id op held => ?_
    refine ⟨accrues j id op held, fun inside => ?_⟩
    exact (new id inside).2.1.unaccrued j op (resumed.accrues j id op (accrues j id op held))
  · refine resumed.landed.unpaid rfl (fun id b' r held => ?_)
      fun j id op held => .inl (accrues j id op held)
    exact (carries id b' r held).imp_right fun taken => (new id taken.1).2.2
  · intro id b' r held
    rw [rowStep.handled, List.mem_append]
    rcases carries id b' r held with old | ⟨inside, -⟩
    · exact (resumed.carries id b' r old).imp_right .inr
    · exact .inr (.inl inside)
  · exact fun j id op held => resumed.accrues j id op (accrues j id op held)

-- What the batch rows keep, and the open rows once every batch row is handled, the loop keeps.
theorem recovery_induction (now : Nat → Nat) (stored : cfg.accrualStore = true)
    {P : Recovery → Prop} (batches openRows : List PersistedAccrual)
    (resume : ∀ state row ops runs after, row ∈ batches → P state →
      RowStep cfg now state row ops runs after → P after)
    (rebatch : ∀ state row ops runs after, row ∈ openRows → P state →
      (∀ id ∈ batches.flatMap rowIds, id ∈ state.handled) →
      RowStep cfg now state row ops runs after → P after)
    (init : P state) : P ((batches ++ openRows).foldl (recoverRow cfg now) state) := by
  have first := recoverRows_induction cfg stored now batches
    (fun state row ops runs after member held _ => resume state row ops runs after member held)
    state init
  have handled := recoverRows_handled cfg stored now batches state
  rw [List.foldl_append]
  generalize batches.foldl (recoverRow cfg now) state = middle at first handled ⊢
  cases stopped : middle.stopped with
  | true => rwa [recoverRows_stopped cfg now openRows middle stopped]
  | false =>
    obtain ⟨-, -, listed⟩ := handled stopped
    have every : ∀ id ∈ batches.flatMap rowIds, id ∈ middle.handled := by
      intro id member
      obtain ⟨row, inside, own⟩ := List.mem_flatMap.mp member
      exact listed row inside id own
    have second := recoverRows_induction cfg stored now
      (P := fun state => P state ∧ ∀ id ∈ batches.flatMap rowIds, id ∈ state.handled)
      openRows
      (fun state row ops runs after member held _ rowStep => by
        refine ⟨rebatch state row ops runs after member held.1 held.2 rowStep, ?_⟩
        intro id covered
        rw [rowStep.handled]
        exact List.mem_append_right _ (held.2 id covered))
      middle ⟨first, every⟩
    exact second.1

theorem recovery_resumed (now : Nat → Nat) (stored : cfg.accrualStore = true) (tracked : Tracked w)
    (landed : Landed w) {openRows batches : List PersistedAccrual}
    (loadable : Loadable w openRows batches) :
    Resumed w i ((batches ++ openRows).foldl (recoverRow cfg now) ⟨w.service i, [], false⟩) := by
  apply recovery_induction now stored
  · intro state row ops runs after member held rowStep
    obtain ⟨b, named, nonempty, stores⟩ := loadable.named row member
    exact held.resume rowStep named nonempty stores
  · intro state row ops runs after member held handled rowStep
    apply held.rebatch rowStep (loadable.unnamed row member)
    intro id own
    exact (loadable.fresh row member id own).imp_left (handled id)
  · constructor
    · simpa using tracked
    · simpa using landed
    · intro id b r held
      rw [put_self] at held
      exact .inl held
    · intro j id op held
      rwa [put_self] at held

end recovery

structure Sole (w : World ι) : Prop where
  labelled : Labelled w
  tracked : Tracked w
  landed : Landed w

theorem sole_moves : KeptByMoves cfg (Sole (ι := ι)) fun w _ id => w.Fresh id where
  ended w i sole :=
    ⟨(labelled_moves cfg).ended w i sole.labelled, (tracked_moves cfg).ended w i sole.tracked,
      (landed_moves cfg).ended w i sole.landed⟩
  quiet w i svc sole kept :=
    ⟨(labelled_moves cfg).quiet w i svc sole.labelled kept,
      (tracked_moves cfg).quiet w i svc sole.tracked kept,
      (landed_moves cfg).quiet w i svc sole.landed kept⟩
  hold w i base record at' sole sound taken fresh :=
    ⟨(labelled_moves cfg).hold w i base record at' sole.labelled sound taken trivial,
      (tracked_moves cfg).hold w i base record at' sole.tracked sound taken fresh.1,
      (landed_moves cfg).hold w i base record at' sole.landed sound taken fresh.2⟩
  take w i base record at' sole sound taken fresh :=
    ⟨(labelled_moves cfg).take w i base record at' sole.labelled sound taken trivial,
      (tracked_moves cfg).take w i base record at' sole.tracked sound taken fresh.1,
      (landed_moves cfg).take w i base record at' sole.landed sound taken fresh.2⟩
  detach w i op accrual now sole sound found :=
    ⟨(labelled_moves cfg).detach w i op accrual now sole.labelled sound found,
      (tracked_moves cfg).detach w i op accrual now sole.tracked sound found,
      (landed_moves cfg).detach w i op accrual now sole.landed sound found⟩

theorem Sole.recover {w : World ι} (sole : Sole w) (i : ι)
    (loaded : Option (List PersistedAccrual × List PersistedAccrual)) (now : Nat → Nat)
    (loadable : ∀ openRows batches, loaded = some (openRows, batches) →
      Loadable w openRows batches) :
    Sole (w.put i (Service.recoverAccruals cfg (w.service i) loaded now)) := by
  cases stored : cfg.accrualStore with
  | false => simpa [Service.recoverAccruals, stored] using sole
  | true =>
    have labelled := sole.labelled.recoverAccruals cfg stored i loaded now
    cases loaded with
    | none => simpa [Service.recoverAccruals, stored] using sole
    | some loaded =>
      have resumed : Resumed w i ((loaded.2 ++ loaded.1).foldl (recoverRow cfg now)
          ⟨w.service i, [], false⟩) :=
        recovery_resumed now stored sole.tracked sole.landed (loadable loaded.1 loaded.2 rfl)
      simp only [Service.recoverAccruals, stored, if_true] at labelled ⊢
      exact ⟨labelled, resumed.tracked, resumed.landed⟩

section steps

variable {cfg} {w w' : World ι} {i : ι} (sole : Sole w)

include sole

theorem Sole.shrink (batching : 0 < cfg.batchMinAtomic) {a : Action ι}
    (taken : World.step cfg w a = some w') (same : w'.landed = w.landed) (shrinks : Shrinks w w') :
    Sole w' :=
  ⟨sole.labelled.step cfg batching taken, sole.tracked.shrink shrinks,
    sole.landed.shrink same shrinks⟩

theorem Sole.payout {index : Nat} {event : PayoutEvent} {attemptAt settledAt : Nat}
    (taken : step cfg w (.payout i index event attemptAt settledAt) = some w') : Sole w' :=
  ⟨sole.labelled.payout cfg taken, sole.tracked.shrink (payout_shrinks cfg taken),
    sole.landed.payout cfg sole.tracked sole.labelled taken⟩

theorem Sole.restart (i : ι) : Sole (w.restart i) :=
  ⟨sole.labelled.restart i, sole.tracked.shrink (restart_shrinks w i),
    sole.landed.shrink rfl (restart_shrinks w i)⟩

end steps

end World

end X402Mesh.Settlement
