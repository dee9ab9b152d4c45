import Mathlib.Data.Fintype.Basic
import X402Mesh.Settlement.Direct
import X402Mesh.Settlement.Landed

set_option autoImplicit false

namespace X402Mesh.Settlement

open Registry Service

variable (cfg : Deps)

def StoreOp.batched : StoreOp → List String
  | .putBatch _ row => rowIds row
  | _ => []

namespace Service

-- The requests that the process may yet pay.
def inHand (svc : Service) : List String :=
  svc.accruals.values.flatMap (fun accrual => accrual.records.map (·.requestId)) ++
    ((svc.payouts.filter (·.job.batchId.isSome)).flatMap (·.job.requestIds) ++
      svc.writeChains.values.flatMap fun works => (WriteChain.pending works).flatMap (·.batched))

theorem accrues_iff (svc : Service) (id : String) :
    (∃ op, svc.Accrues id op) ↔
      id ∈ svc.accruals.values.flatMap fun accrual => accrual.records.map (·.requestId) := by
  simp only [List.mem_flatMap, OrderedMap.mem_values, Accrues]
  constructor
  · rintro ⟨op, accrual, found, member⟩
    exact ⟨accrual, ⟨op, found⟩, member⟩
  · rintro ⟨accrual, ⟨op, found⟩, member⟩
    exact ⟨op, accrual, found, member⟩

theorem queued_iff (svc : Service) (id : String) :
    (∃ key batchId row, .putBatch batchId row ∈ svc.pending key ∧ id ∈ rowIds row) ↔
      id ∈ svc.writeChains.values.flatMap fun works =>
        (WriteChain.pending works).flatMap (·.batched) := by
  simp only [List.mem_flatMap, OrderedMap.mem_values, pending, chain]
  constructor
  · rintro ⟨key, batchId, row, member, inside⟩
    cases found : svc.writeChains.get? key with
    | none => simp [found] at member
    | some works => exact ⟨works, ⟨key, found⟩, .putBatch batchId row, by simpa [found] using member, inside⟩
  · rintro ⟨works, ⟨key, found⟩, op, member, inside⟩
    cases op with
    | putBatch batchId row => exact ⟨key, batchId, row, by simpa [found] using member, inside⟩
    | _ => cases inside

theorem carries_iff (svc : Service) (id : String) :
    (∃ batchId receiver, svc.Carries id batchId receiver) ↔
      id ∈ (svc.payouts.filter (·.job.batchId.isSome)).flatMap (·.job.requestIds) ∨
        ∃ key batchId row, .putBatch batchId row ∈ svc.pending key ∧ id ∈ rowIds row := by
  simp only [List.mem_flatMap, List.mem_filter, Option.isSome_iff_exists]
  constructor
  · rintro ⟨batchId, receiver, ⟨run, member, batch, -, inside⟩ | ⟨key, row, member, -, inside⟩⟩
    · exact .inl ⟨run, ⟨member, batchId, batch⟩, inside⟩
    · exact .inr ⟨key, batchId, row, member, inside⟩
  · rintro (⟨run, ⟨member, batchId, batch⟩, inside⟩ | ⟨key, batchId, row, member, inside⟩)
    · exact ⟨batchId, _, .inl ⟨run, member, batch, rfl, inside⟩⟩
    · exact ⟨batchId, _, .inr ⟨key, row, member, rfl, inside⟩⟩

theorem mem_inHand (svc : Service) (id : String) :
    id ∈ svc.inHand ↔
      (∃ op, svc.Accrues id op) ∨ ∃ batchId receiver, svc.Carries id batchId receiver := by
  rw [inHand, List.mem_append, List.mem_append, ← queued_iff, ← accrues_iff, carries_iff]

end Service

namespace World

variable {ι : Type}

theorem stores_iff (w : World ι) (id : String) :
    (∃ batchId receiver, w.Stores id batchId receiver) ↔
      id ∈ w.rows.batchRows.values.flatMap rowIds ∨
        ∃ i, id ∈ ((w.reads i).batches.filter (·.batchId.isSome)).flatMap rowIds := by
  simp only [List.mem_flatMap, List.mem_filter, Option.isSome_iff_exists, OrderedMap.mem_values]
  constructor
  · rintro ⟨batchId, receiver, ⟨row, found, -, inside⟩ | ⟨i, row, member, named, -, inside⟩⟩
    · exact .inl ⟨row, ⟨batchId, found⟩, inside⟩
    · exact .inr ⟨i, row, ⟨member, batchId, named⟩, inside⟩
  · rintro (⟨row, ⟨batchId, found⟩, inside⟩ | ⟨i, row, ⟨member, batchId, named⟩, inside⟩)
    · exact ⟨batchId, _, .inl ⟨row, found, rfl, inside⟩⟩
    · exact ⟨batchId, _, .inr ⟨i, row, member, named, rfl, inside⟩⟩

theorem fresh_iff (w : World ι) (id : String) :
    w.Fresh id ↔ (∀ p ∈ w.landed, id ∉ p.requestIds) ∧
      id ∉ w.rows.batchRows.values.flatMap rowIds ∧
      ∀ i, id ∉ (w.service i).inHand ∧
        id ∉ ((w.reads i).batches.filter (·.batchId.isSome)).flatMap rowIds := by
  constructor
  · rintro ⟨untracked, unlanded⟩
    refine ⟨unlanded, fun stored => ?_, fun i => ⟨fun held => ?_, fun read => ?_⟩⟩
    · obtain ⟨b, r, stores⟩ := (w.stores_iff id).mpr (.inl stored)
      exact untracked.uncarried b r (.inr stores)
    · rcases ((w.service i).mem_inHand id).mp held with ⟨op, accrues⟩ | ⟨b, r, carries⟩
      · exact untracked.unaccrued i op accrues
      · exact untracked.uncarried b r (.inl ⟨i, carries⟩)
    · obtain ⟨b, r, stores⟩ := (w.stores_iff id).mpr (.inr ⟨i, read⟩)
      exact untracked.uncarried b r (.inr stores)
  · rintro ⟨unlanded, unstored, unheld⟩
    refine ⟨⟨fun b r carries => ?_, fun i op accrues => ?_⟩, unlanded⟩
    · rcases carries with ⟨i, own⟩ | stores
      · exact (unheld i).1 (((w.service i).mem_inHand id).mpr (.inr ⟨b, r, own⟩))
      · rcases (w.stores_iff id).mp ⟨b, r, stores⟩ with stored | ⟨i, read⟩
        · exact unstored stored
        · exact (unheld i).2 read
    · exact (unheld i).1 (((w.service i).mem_inHand id).mpr (.inl ⟨op, accrues⟩))

instance [Fintype ι] (w : World ι) (id : String) : Decidable (w.Fresh id) :=
  decidable_of_iff _ (w.fresh_iff id).symm

-- The requests that only the open rows list may be batched anew.
def Clear (w : World ι) (loaded : List PersistedAccrual × List PersistedAccrual) : Prop :=
  ∀ row ∈ loaded.1, ∀ id ∈ rowIds row, id ∈ loaded.2.flatMap rowIds ∨ w.Fresh id

instance [Fintype ι] (w : World ι) (loaded : List PersistedAccrual × List PersistedAccrual) :
    Decidable (w.Clear loaded) := inferInstanceAs (Decidable (∀ _ ∈ _, ∀ _ ∈ _, _ ∨ _))

variable [DecidableEq ι]

def Uncontended (w : World ι) : Action ι → Prop
  | .settleInbound i inbound _ =>
    (w.service i).routing.get? inbound.requestId = none ∨
      inbound.requestId ∈ (w.service i).claimed ∨ w.Fresh inbound.requestId
  | .recoverAccruals i ok _ => ok = true → w.Clear ((w.reads i).openRows, (w.reads i).batches)
  | .boot i addresses batchIds _ ok _ =>
    ok = true → (w.restart i).Clear (loadAll w.rows addresses batchIds)
  | _ => True

instance [Fintype ι] (w : World ι) (a : Action ι) : Decidable (w.Uncontended a) :=
  match a with
  | .settleInbound .. => inferInstanceAs (Decidable (_ ∨ _ ∨ _))
  | .recoverAccruals _ ok _ => inferInstanceAs (Decidable (ok = true → _))
  | .boot _ _ _ _ ok _ => inferInstanceAs (Decidable (ok = true → _))
  | .recordRouting .. | .deadline .. | .flushPayouts .. | .payout .. | .callWrite ..
  | .applyWrite .. | .resolveWrite .. | .rejectWrite .. | .readOpen .. | .readBatches ..
  | .hydrateLedger .. | .restart .. => .isTrue trivial

section steps

variable {cfg} {w w' : World ι} (sole : Sole w)

include sole

theorem Sole.recoverAccruals {i : ι} {ok : Bool} {now : Nat → Nat}
    (clear : ok = true → w.Clear ((w.reads i).openRows, (w.reads i).batches))
    (taken : step cfg w (.recoverAccruals i ok now) = some w') : Sole w' := by
  cases taken
  apply (sole_moves cfg).turn
  apply sole.recover
  intro openRows batches loaded
  obtain ⟨rfl, same⟩ := Option.ite_none_right_eq_some.mp loaded
  obtain ⟨rfl, rfl⟩ : (w.reads i).openRows = openRows ∧ (w.reads i).batches = batches := by
    simpa using same
  constructor
  · intro row member
    obtain ⟨b, named, nonempty⟩ := sole.labelled.read i row member
    exact ⟨b, named, nonempty, fun id inside => .inr ⟨i, row, member, named, rfl, inside⟩⟩
  · exact sole.labelled.openRead i
  · exact clear rfl

theorem Sole.boot {i : ι} {addresses batchIds : List String}
    {history : Option (List StoredRecord)} {ok : Bool} {now : Nat → Nat}
    (clear : ok = true → (w.restart i).Clear (loadAll w.rows addresses batchIds))
    (taken : step cfg w (.boot i addresses batchIds history ok now) = some w') : Sole w' := by
  obtain ⟨-, -, rfl⟩ := boot_inv taken
  have fresh : (w.restart i).service i = .init := by simp [restart_service]
  have quiet : Quiet ((w.restart i).service i) (Service.hydrateLedger cfg .init history) := by
    rw [fresh]
    exact (hydrateLedger_bookkeeping cfg .init history).quiet
  have hydrated := (sole_moves cfg).quiet _ i _ (sole.restart i) quiet
  apply (sole_moves cfg).turn
  have shrinks : Shrinks (w.restart i)
      ((w.restart i).put i (Service.hydrateLedger cfg .init history)) :=
    put_shrinks _ i _ (fun _ _ _ held => .inl ⟨i, quiet.carries held⟩)
      fun _ _ held => quiet.accrues held
  have recovered := hydrated.recover cfg i
    (if ok then some (loadAll w.rows addresses batchIds) else none) now ?_
  · simpa using recovered
  · intro openRows batches loaded
    obtain ⟨rfl, same⟩ := Option.ite_none_right_eq_some.mp loaded
    cases same
    constructor
    · intro row member
      obtain ⟨b, found, named, nonempty⟩ := sole.labelled.read_batches batchIds row member
      exact ⟨b, named, nonempty, fun id inside => .inl ⟨row, found, rfl, inside⟩⟩
    · exact sole.labelled.read_open addresses
    · intro row member id inside
      exact (clear rfl row member id inside).imp_right fun fresh => fresh.shrink rfl shrinks

theorem Sole.step (batching : 0 < cfg.batchMinAtomic) {a : Action ι} (ok : w.Uncontended a)
    (taken : World.step cfg w a = some w') : Sole w' := by
  have sound := sole.labelled.sound
  cases a with
  | settleInbound i inbound now =>
    cases taken
    rcases ok with unrouted | taken_on
    · rw [Service.settleInbound, unrouted]
      exact (sole_moves cfg).ended w i sole
    · exact (sole_moves cfg).settleInbound batching w i sole (sound i) inbound now
        fun unclaimed => taken_on.resolve_left unclaimed
  | payout => exact sole.payout taken
  | callWrite =>
    have shrinks := callWrite_shrinks cfg taken
    exact sole.shrink batching taken (step_landed rfl taken) shrinks
  | applyWrite =>
    have shrinks := applyWrite_shrinks cfg taken
    exact sole.shrink batching taken (step_landed rfl taken) shrinks
  | resolveWrite =>
    have shrinks := resolveWrite_shrinks cfg taken
    exact sole.shrink batching taken (step_landed rfl taken) shrinks
  | rejectWrite =>
    have shrinks := rejectWrite_shrinks cfg taken
    exact sole.shrink batching taken (step_landed rfl taken) shrinks
  | readOpen =>
    have shrinks := readOpen_shrinks cfg taken
    exact sole.shrink batching taken (step_landed rfl taken) shrinks
  | readBatches =>
    have shrinks := sole.labelled.readBatches_shrinks cfg taken
    exact sole.shrink batching taken (step_landed rfl taken) shrinks
  | recoverAccruals => exact sole.recoverAccruals ok taken
  | restart i =>
    cases taken
    exact sole.restart i
  | boot => exact sole.boot ok taken
  | _ => exact (sole_moves cfg).step batching rfl sole sound (by simp) taken

end steps

-- A payment that committed, or a payout that ended settled, covers the request.
def PaidUnder (w : World ι) (id payoutId : String) : Prop :=
  (∃ p ∈ w.landed, p.payoutId = payoutId ∧ id ∈ p.requestIds) ∨
  ∃ i, ∃ run ∈ (w.service i).payouts, run.progress.isSettled = true ∧
    run.job.payoutId = payoutId ∧ id ∈ run.job.requestIds

omit [DecidableEq ι] in
theorem sole_start : Sole (start (ι := ι) .empty) := by
  have uncarried (id b r : String) : ¬ (start (ι := ι) .empty).Carries id b r := by
    rintro (⟨i, ⟨run, member, -⟩ | ⟨key, row, member, -⟩⟩ | ⟨row, stored, -⟩ | ⟨i, row, member, -⟩)
    · cases member
    · simp [start] at member
    · cases stored
    · cases member
  have unaccrued (i : ι) (id op : String) : ¬ ((start .empty).service i).Accrues id op := by
    rintro ⟨accrual, found, -⟩
    cases found
  constructor
  · exact labelled_start
  · exact ⟨fun id b _ r _ held => absurd held (uncarried id b r),
      fun i id op _ _ held => absurd held (unaccrued i id op),
      fun i _ id op _ held => absurd held (unaccrued i id op)⟩
  · exact ⟨by simp [start], by simp [start], by simp [start]⟩

omit [DecidableEq ι] in
theorem direct_start : Direct (start (ι := ι) .empty) :=
  ⟨fun _ => direct_init, rfl, fun _ => rfl, by simp [start]⟩

omit [DecidableEq ι] in
theorem Sole.paid {w : World ι} (sole : Sole w) {id first second : String}
    (paid : w.PaidUnder id first) (again : w.PaidUnder id second) : first = second := by
  have carries {i : ι} {run : PayoutRun} (member : run ∈ (w.service i).payouts)
      (covered : id ∈ run.job.requestIds) :
      ∃ b, run.job.payoutId = "batch/" ++ b ∧ w.Carries id b run.job.receiver := by
    obtain ⟨b, batch, named⟩ := (sole.labelled.labels i).runs run member
    exact ⟨b, named, .inl ⟨i, .inl ⟨run, member, batch, rfl, covered⟩⟩⟩
  rcases paid with ⟨p, landed, rfl, covered⟩ | ⟨i, run, member, -, rfl, covered⟩ <;>
    rcases again with ⟨q, landed', rfl, covered'⟩ | ⟨j, run', member', -, rfl, covered'⟩
  · exact sole.landed.agree p landed q landed' id covered covered'
  · obtain ⟨b, named, held⟩ := carries member' covered'
    rw [named]
    exact (sole.landed.carried p landed id covered b _ held).1
  · obtain ⟨b, named, held⟩ := carries member covered
    rw [named]
    exact (sole.landed.carried q landed' id covered' b _ held).1.symm
  · obtain ⟨b, named, held⟩ := carries member covered
    obtain ⟨b', named', held'⟩ := carries member' covered'
    obtain ⟨rfl, -⟩ := sole.tracked.one id b b' _ _ held held'
    rw [named, named']

omit [DecidableEq ι] in
theorem Direct.paid {w : World ι} (direct : Direct w) {id payoutId : String}
    (paid : w.PaidUnder id payoutId) : id = payoutId := by
  rcases paid with ⟨p, landed, rfl, covered⟩ | ⟨i, run, member, -, rfl, covered⟩
  · rw [direct.landed p landed] at covered
    exact List.mem_singleton.mp covered
  · rw [((direct.service i).runs run member).2] at covered
    exact List.mem_singleton.mp covered

end World

theorem one_payout_id {ι : Type} [DecidableEq ι] (w : World ι)
    (run : Transition.Run (World.step cfg)
      (fun w a => 0 < cfg.batchMinAtomic → World.Uncontended w a) (World.start .empty) w)
    (id first second : String) (paid : w.PaidUnder id first) (again : w.PaidUnder id second) :
    first = second := by
  by_cases batching : 0 < cfg.batchMinAtomic
  · have sole : World.Sole w := run.invariant World.sole_start fun w a w' held ok taken =>
      held.step batching (ok batching) taken
    exact sole.paid paid again
  · have direct : World.Direct w := run.invariant World.direct_start fun w a w' held _ taken =>
      held.step (by omega) taken
    rw [← direct.paid paid, ← direct.paid again]

-- The second process finds the batch of the first in the store, and its payment on the chain.
theorem one_payout_id_resumed :
    ∃ (w : World Bool) (p : Payment) (run : PayoutRun), p ∈ w.landed ∧
      run ∈ (w.service false).payouts ∧ run.progress.isSettled = true ∧
      "r1" ∈ p.requestIds ∧ "r1" ∈ run.job.requestIds ∧ p.payoutId = run.job.payoutId := by
  let guard (w : World Bool) (a : Action Bool) : Bool := decide (w.Uncontended a)
  have shown : (Transition.replay
      (fun w a => if guard w a then World.step World.demoDeps w a else none) (World.start .empty)
      (World.paidFor true "r1" 10 ++ World.written true ++
        [.flushPayouts true fun _ => 20] ++ World.written true ++
        [.readOpen false ["OPERATOR"], .readBatches false [batchIdOf 20 1],
          .recoverAccruals false true fun _ => 30,
          .payout true 0 (.paid "TX") 40 40,
          .payout false 0 (.lookup (.found "TX")) 50 50])).map
        (fun w => (w.landed, (w.service false).payouts.map fun run =>
          (run.progress.isSettled, run.job.payoutId, run.job.requestIds))) =
      some ([⟨"batch/" ++ batchIdOf 20 1, "OPERATOR", ["r1"]⟩],
        [(true, "batch/" ++ batchIdOf 20 1, ["r1"])]) := by
    decide
  obtain ⟨w, replayed, facts⟩ := Option.map_eq_some_iff.mp shown
  simp only [Prod.mk.injEq] at facts
  obtain ⟨landed, payouts⟩ := facts
  obtain ⟨run, member, own⟩ := List.mem_map.mp (payouts ▸ List.mem_singleton_self _)
  simp only [Prod.mk.injEq] at own
  obtain ⟨settled, named, ids⟩ := own
  have paid : (⟨"batch/" ++ batchIdOf 20 1, "OPERATOR", ["r1"]⟩ : Payment) ∈ w.landed := by
    simp [landed]
  have covered : "r1" ∈ run.job.requestIds := by simp [ids]
  refine ⟨w, _, run, paid, member, settled, by simp, covered, ?_⟩
  have ran : Transition.Run (World.step World.demoDeps)
      (fun w a => 0 < World.demoDeps.batchMinAtomic → World.Uncontended w a)
      (World.start .empty) w :=
    (Transition.run_of_guarded guard _ replayed).mono fun w a passed _ => of_decide_eq_true passed
  exact one_payout_id World.demoDeps w ran "r1" _ _ (.inl ⟨_, paid, rfl, by simp⟩)
    (.inr ⟨false, run, member, settled, rfl, covered⟩)

-- The second process boots while the first still accrues the request, and batches it anew.
theorem live_accrual_paid_twice :
    ∃ w : World Bool, Transition.Run (World.step World.demoDeps)
        (fun w a => w.promised a = true) (World.start .empty) w ∧
      ∃ id first second, w.PaidUnder id first ∧ w.PaidUnder id second ∧ first ≠ second := by
  have shown : (Transition.replay
      (fun w a => if World.promised w a then World.step World.demoDeps w a else none)
      (World.start .empty)
      (World.paidFor true "r1" 10 ++ World.written true ++
        [.readOpen false ["OPERATOR"], .readBatches false [],
          .recoverAccruals false true fun _ => 20,
          .payout false 0 (.paid "TX-1") 30 30, .flushPayouts true fun _ => 40,
          .payout true 0 (.paid "TX-2") 50 50])).map (·.landed) =
      some [⟨"batch/" ++ recoveredIdOf 20 1, "OPERATOR", ["r1"]⟩,
        ⟨"batch/" ++ batchIdOf 40 1, "OPERATOR", ["r1"]⟩] := by
    decide
  obtain ⟨w, replayed, landed⟩ := Option.map_eq_some_iff.mp shown
  refine ⟨w, Transition.run_of_guarded World.promised _ replayed, "r1",
    "batch/" ++ recoveredIdOf 20 1, "batch/" ++ batchIdOf 40 1, .inl ?_, .inl ?_, by decide⟩
  · simp [landed]
  · simp [landed]

end X402Mesh.Settlement
