import X402Mesh.Settlement.Turns

set_option autoImplicit false

namespace X402Mesh.Settlement

open Registry Service

variable (cfg : Deps)

namespace Service

structure Direct (svc : Service) : Prop where
  accruals : svc.accruals = .empty
  pending : ∀ key, ∀ op ∈ svc.pending key, ∃ record, op = .putLedger record
  runs : ∀ run ∈ svc.payouts, run.job.batchId = none ∧ run.job.requestIds = [run.job.payoutId]

theorem direct_init : Direct init := ⟨rfl, by simp, by simp [init]⟩

theorem Direct.quiet {svc after : Service} (direct : Direct svc) (kept : Quiet svc after) :
    Direct after where
  accruals := kept.accruals.trans direct.accruals
  pending key op member := by
    rcases kept.mem_pending member with old | ledger
    · exact direct.pending key op old
    · exact ledger
  runs := kept.payouts ▸ direct.runs

def directJob (record : SettlementRecord) (payout : Int) : PayoutJob :=
  ⟨record.requestId, record.operatorAddress, payout, [record], none, false⟩

theorem schedule_off (off : cfg.batchMinAtomic ≤ 0) (svc : Service) (record : SettlementRecord)
    (now : Readings) :
    Quiet svc (schedule cfg svc record now) ∨
      ∃ payout base, Quiet svc base ∧
        schedule cfg svc record now = runPayout cfg base (directJob record payout) := by
  have refl : Quiet svc { svc with accepted := svc.accepted ++ [record] } :=
    ⟨rfl, rfl, rfl, rfl, fun _ held => held, fun key => ⟨[], by simp [pending, chain]⟩⟩
  unfold schedule
  split
  next => exact .inl (Bookkeeping.refl svc).quiet
  next payout paid =>
    split
    next => exact .inl (updateAll_bookkeeping cfg svc _ _).quiet
    next =>
      rw [if_neg (by omega)]
      exact .inr ⟨payout, _, refl, rfl⟩

-- With batching off, a settlement is either noted and dropped, or claimed and paid on its own.
theorem settleInbound_off (off : cfg.batchMinAtomic ≤ 0) (svc : Service)
    (inbound : InboundSettlement) (now : Readings) :
    Quiet svc (settleInbound cfg svc inbound now) ∨
      ∃ record payout base, Quiet svc base ∧ record.requestId = inbound.requestId ∧
        (svc.routing.get? inbound.requestId).isSome = true ∧ record.requestId ∉ svc.claimed ∧
        record.requestId ∈ base.claimed ∧
        settleInbound cfg svc inbound now = runPayout cfg base (directJob record payout) := by
  unfold settleInbound
  cases noted : svc.routing.get? inbound.requestId with
  | none => exact .inl (Bookkeeping.refl svc).quiet
  | some note =>
    dsimp only
    by_cases duplicate : inbound.requestId ∈ svc.claimed
    · rw [if_pos duplicate]
      exact .inl (bookkeeping_of_ledger svc _ _ _ fun _ held => held).quiet
    · rw [if_neg duplicate]
      have claim := bookkeeping_of_ledger svc (svc.routing.erase inbound.requestId) svc.ledger
        (inbound.requestId :: svc.claimed) fun _ held => List.mem_cons_of_mem _ held
      cases opened : openRecord cfg inbound note now.createdAt with
      | error e => exact .inl claim.quiet
      | ok record =>
        obtain ⟨id, -, -⟩ := openRecord_ok cfg inbound note now.createdAt record opened
        have remembered := remember_bookkeeping cfg
          { svc with
            routing := svc.routing.erase inbound.requestId
            claimed := inbound.requestId :: svc.claimed } record
        have known := remembered.claimed inbound.requestId (List.mem_cons_self ..)
        have entered := (claim.trans remembered).quiet
        dsimp only
        rcases schedule_off cfg off _ record now with quiet | ⟨payout, base, kept, paid⟩
        · exact .inl (entered.trans quiet)
        · exact .inr ⟨record, payout, base, entered.trans kept, id, rfl, by rwa [id],
            kept.claimed _ (by rwa [id]), paid⟩

theorem Direct.runPayout {svc : Service} (direct : Direct svc) (record : SettlementRecord)
    (payout : Int) : Direct (runPayout cfg svc (directJob record payout)) where
  accruals := direct.accruals
  pending := direct.pending
  runs run member := by
    rcases List.mem_append.mp member with old | new
    · exact direct.runs run old
    · obtain rfl := List.mem_singleton.mp new
      exact ⟨rfl, rfl⟩

theorem Direct.settleInbound (off : cfg.batchMinAtomic ≤ 0) {svc : Service} (direct : Direct svc)
    (inbound : InboundSettlement) (now : Readings) :
    Direct (settleInbound cfg svc inbound now) := by
  rcases settleInbound_off cfg off svc inbound now with
    quiet | ⟨record, payout, base, kept, -, -, -, -, paid⟩
  · exact direct.quiet quiet
  · rw [paid]
    exact (direct.quiet kept).runPayout cfg record payout

theorem flushAccrual_direct {svc : Service} (direct : Direct svc) (operatorAddress : String)
    (now : Nat) : flushAccrual cfg svc operatorAddress now = svc := by
  apply flushAccrual_absent
  rw [direct.accruals]
  rfl

theorem flushPayouts_direct {svc : Service} (direct : Direct svc) (now : Nat → Nat) :
    flushPayouts cfg svc now = svc := by
  unfold flushPayouts
  rw [direct.accruals]
  rfl

theorem Direct.resumePayout {svc after : Service} (direct : Direct svc) {index : Nat}
    {event : PayoutEvent} {attemptAt settledAt : Nat}
    (resumed : resumePayout cfg svc index event attemptAt settledAt = some after) :
    Direct after := by
  obtain ⟨run, progress, found, -, kept⟩ := resumePayout_cases cfg svc after index event attemptAt
    settledAt resumed
  have own := direct.runs run (List.mem_of_getElem? found)
  apply Direct.quiet _ kept.quiet
  obtain ⟨accruals, -, -, -, -, payouts, -⟩ := discharged_frame cfg
    (moved cfg svc index run.job progress) run.job progress attemptAt
  constructor
  · rw [accruals]
    exact direct.accruals
  · intro key op member
    rw [discharged_pending, own.1] at member
    apply direct.pending key
    simpa using member
  · intro other member
    rw [payouts] at member
    rcases List.mem_or_eq_of_mem_set member with old | rfl
    · exact direct.runs other old
    · exact own

theorem Direct.setChain {svc : Service} (direct : Direct svc) (key : String)
    (works : List (Work StoreOp)) (kept : ∀ op ∈ WriteChain.pending works,
      ∃ record, op = .putLedger record) : Direct (svc.setChain key works) where
  accruals := direct.accruals
  pending other op member := by
    rw [pending_setChain] at member
    split at member
    next => exact kept op member
    next => exact direct.pending other op member
  runs := direct.runs

end Service

namespace World

variable {ι : Type}

structure Direct (w : World ι) : Prop where
  service : ∀ i, (w.service i).Direct
  rows : w.rows = .empty
  reads : ∀ i, w.reads i = ⟨[], []⟩
  landed : ∀ p ∈ w.landed, p.requestIds = [p.payoutId]

variable [DecidableEq ι]

section steps

variable {cfg} {w w' : World ι} {i : ι} (direct : Direct w)

include direct

theorem Direct.put {svc : Service} (own : svc.Direct) : Direct (w.put i svc) where
  service j := by
    rw [put_service]
    split
    · exact own
    · exact direct.service j
  rows := direct.rows
  reads := direct.reads
  landed := direct.landed

theorem Direct.turn {svc : Service} (own : svc.Direct) : Direct (w.turn i svc) := by
  have ended : ({ svc with outbox := [] } : Service).Direct := { own with }
  exact { direct.put (i := i) ended with }

theorem Direct.setWrites {key : String} {works : List (Work StoreOp)}
    (kept : ∀ op ∈ WriteChain.pending works, op ∈ (w.service i).pending key) :
    Direct (w.setWrites i key works) :=
  direct.put ((direct.service i).setChain key works fun op member =>
    (direct.service i).pending key op (kept op member))

theorem Direct.setReads {reads : Reads} (none_read : reads = ⟨[], []⟩) :
    Direct (w.setReads i reads) := by
  refine { direct with reads := fun j => ?_ }
  rw [setReads_reads]
  split
  · exact none_read
  · exact direct.reads j

theorem Direct.callWrite {key : String} (taken : step cfg w (.callWrite i key) = some w') :
    Direct w' := by
  obtain ⟨works, called, rfl⟩ := callWrite_inv taken
  obtain ⟨op, rest, before, after⟩ := WriteChain.pending_call _ _ _ called
  have pending : (w.service i).pending key = op :: rest := before
  apply direct.setWrites
  intro written member
  obtain ⟨record, ledger⟩ := (direct.service i).pending key op (by simp [pending])
  rw [after, ledger] at member
  rw [pending, ledger]
  exact member

theorem Direct.applyWrite {key : String} (taken : step cfg w (.applyWrite i key) = some w') :
    Direct w' := by
  obtain ⟨op, works, rows, applied, effect, rfl⟩ := applyWrite_inv taken
  have pending : (w.service i).pending key = op :: WriteChain.pending works :=
    WriteChain.pending_apply _ _ _ applied
  have kept : Direct (w.setWrites i key works) := direct.setWrites fun written member => by
    rw [pending]
    exact List.mem_cons_of_mem _ member
  obtain ⟨record, ledger⟩ := (direct.service i).pending key op (by simp [pending])
  rw [ledger] at effect
  cases effect
  exact kept

theorem Direct.payout {index : Nat} {event : PayoutEvent} {attemptAt settledAt : Nat}
    (taken : step cfg w (.payout i index event attemptAt settledAt) = some w') : Direct w' := by
  obtain ⟨svc, run, progress, resumed, found, -, rfl⟩ := payout_inv taken
  have own := (direct.service i).runs run (List.mem_of_getElem? found)
  have turned : Direct (w.turn i svc) := direct.turn ((direct.service i).resumePayout cfg resumed)
  refine { turned with landed := fun p member => ?_ }
  rcases List.mem_append.mp member with old | new
  · exact direct.landed p old
  · split at new
    · obtain rfl := List.mem_singleton.mp new
      exact own.2
    · cases new

theorem Direct.restarted : Direct (w.restart i) where
  service j := by
    rw [restart_service]
    split
    · exact direct_init
    · exact direct.service j
  rows := direct.rows
  reads j := by
    rw [restart_reads]
    split
    · rfl
    · exact direct.reads j
  landed := direct.landed

omit [DecidableEq ι] direct in
theorem recoverAccruals_nothing (svc : Service) (ok : Bool) (now : Nat → Nat) :
    Service.recoverAccruals cfg svc (if ok then some ([], []) else none) now = svc := by
  unfold Service.recoverAccruals
  cases ok <;> simp

theorem Direct.step (off : cfg.batchMinAtomic ≤ 0) {a : Action ι}
    (taken : World.step cfg w a = some w') : Direct w' := by
  cases a with
  | recordRouting i requestId nodeId operatorAddress now =>
    cases taken
    exact direct.turn ((direct.service i).quiet (recordRouting_quiet _ _ _ _ _))
  | settleInbound i inbound now =>
    cases taken
    exact direct.turn ((direct.service i).settleInbound cfg off inbound now)
  | deadline i operatorAddress now =>
    rw [deadline_inv taken, flushAccrual_direct cfg (direct.service i)]
    exact direct.turn (direct.service i)
  | flushPayouts i now =>
    cases taken
    rw [flushPayouts_direct cfg (direct.service i)]
    exact direct.turn (direct.service i)
  | payout => exact direct.payout taken
  | callWrite => exact direct.callWrite taken
  | applyWrite => exact direct.applyWrite taken
  | resolveWrite i key =>
    obtain ⟨op, works, resolved, rfl⟩ := resolveWrite_inv taken
    have kept : Direct (w.setWrites i key works) := direct.setWrites fun written member => by
      rwa [WriteChain.pending_resolve _ _ _ resolved] at member
    exact { kept with }
  | rejectWrite i key =>
    obtain ⟨works, rejected, rfl⟩ := rejectWrite_inv taken
    exact direct.setWrites fun written member => (WriteChain.pending_reject _ _ rejected).subset member
  | readOpen i addresses =>
    rw [readOpen_inv taken]
    apply direct.setReads
    simp [direct.reads, direct.rows, Rows.readOpen, Rows.empty]
  | readBatches i batchIds =>
    rw [readBatches_inv taken]
    apply direct.setReads
    simp [direct.reads, direct.rows, Rows.readBatches, Rows.empty]
  | hydrateLedger i history =>
    cases taken
    exact direct.turn ((direct.service i).quiet (hydrateLedger_bookkeeping cfg _ history).quiet)
  | recoverAccruals i ok now =>
    cases taken
    rw [direct.reads, recoverAccruals_nothing]
    exact direct.turn (direct.service i)
  | restart i =>
    cases taken
    exact direct.restarted
  | boot i addresses batchIds history ok now =>
    obtain ⟨-, -, rfl⟩ := boot_inv taken
    have nothing : loadAll w.rows addresses batchIds = ([], []) := by
      simp [loadAll, direct.rows, Rows.readOpen, Rows.readBatches, Rows.empty]
    rw [nothing, recoverAccruals_nothing]
    exact direct.restarted.turn (direct_init.quiet (hydrateLedger_bookkeeping cfg .init history).quiet)

end steps

end World

end X402Mesh.Settlement
