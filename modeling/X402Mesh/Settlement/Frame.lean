import X402Mesh.Settlement.World

set_option autoImplicit false

namespace X402Mesh.Settlement.Service

open Money Pricing

variable (cfg : Deps)

def pending (svc : Service) (key : String) : List StoreOp := WriteChain.pending (svc.chain key)

theorem chain_setChain (svc : Service) (key : String) (works : List (Work StoreOp))
    (other : String) :
    (svc.setChain key works).chain other = if other = key then works else svc.chain other := by
  unfold setChain chain
  by_cases drained : works.isEmpty = true
  · have none_left : works = [] := by simpa using drained
    by_cases same : other = key <;> simp [OrderedMap.get?_erase, none_left, same]
  · by_cases same : other = key <;> simp [OrderedMap.get?_set, drained, same]

theorem chain_enqueueWrite (svc : Service) (key : String) (ops : List StoreOp) (other : String) :
    (svc.enqueueWrite key ops).chain other =
      svc.chain other ++ if other = key then [⟨ops, false⟩] else [] := by
  by_cases same : other = key <;>
    simp [enqueueWrite, chain_setChain, WriteChain.enqueue, same]

theorem pending_setChain (svc : Service) (key : String) (works : List (Work StoreOp))
    (other : String) :
    (svc.setChain key works).pending other =
      if other = key then WriteChain.pending works else svc.pending other := by
  by_cases same : other = key <;> simp [pending, chain_setChain, same]

theorem pending_enqueueWrite (svc : Service) (key : String) (ops : List StoreOp) (other : String) :
    (svc.enqueueWrite key ops).pending other =
      svc.pending other ++ if other = key then ops else [] := by
  by_cases same : other = key <;>
    simp [pending, chain_enqueueWrite, WriteChain.pending_append, WriteChain.pending, same]

@[simp] theorem pending_init (key : String) : init.pending key = [] := rfl

structure Bookkeeping (before after : Service) : Prop where
  accruals : after.accruals = before.accruals
  arrays : after.arrays = before.arrays
  nextSerial : after.nextSerial = before.nextSerial
  batchLiabilities : after.batchLiabilities = before.batchLiabilities
  batchSeq : after.batchSeq = before.batchSeq
  payouts : after.payouts = before.payouts
  outbox : after.outbox = before.outbox
  accepted : after.accepted = before.accepted
  claimed : ∀ id ∈ before.claimed, id ∈ after.claimed
  pending : ∀ key, ∃ records : List SettlementRecord,
    after.pending key = before.pending key ++ records.map .putLedger

namespace Bookkeeping

theorem refl (svc : Service) : Bookkeeping svc svc :=
  ⟨rfl, rfl, rfl, rfl, rfl, rfl, rfl, rfl, fun _ held => held, fun _ => ⟨[], by simp⟩⟩

theorem trans {a b c : Service} (left : Bookkeeping a b) (right : Bookkeeping b c) :
    Bookkeeping a c where
  accruals := right.accruals.trans left.accruals
  arrays := right.arrays.trans left.arrays
  nextSerial := right.nextSerial.trans left.nextSerial
  batchLiabilities := right.batchLiabilities.trans left.batchLiabilities
  batchSeq := right.batchSeq.trans left.batchSeq
  payouts := right.payouts.trans left.payouts
  outbox := right.outbox.trans left.outbox
  accepted := right.accepted.trans left.accepted
  claimed := fun id held => right.claimed id (left.claimed id held)
  pending := fun key => by
    obtain ⟨first, firstWrites⟩ := left.pending key
    obtain ⟨second, secondWrites⟩ := right.pending key
    exact ⟨first ++ second, by simp [firstWrites, secondWrites]⟩

theorem foldl {α : Type} (f : Service → α → Service) (kept : ∀ svc a, Bookkeeping svc (f svc a))
    (svc : Service) (as : List α) : Bookkeeping svc (as.foldl f svc) := by
  induction as generalizing svc with
  | nil => exact refl svc
  | cons a rest ih => exact (kept svc a).trans (ih (f svc a))

theorem withAccepted {a b : Service} (kept : Bookkeeping a b) (accepted : List SettlementRecord) :
    Bookkeeping { a with accepted := accepted } { b with accepted := accepted } :=
  { kept with accepted := rfl }

end Bookkeeping

theorem bookkeeping_of_ledger (svc : Service) (routing : OrderedMap String RoutingNote)
    (ledger : OrderedMap String SettlementRecord) (claimed : List String)
    (kept : ∀ id ∈ svc.claimed, id ∈ claimed) :
    Bookkeeping svc { svc with routing := routing, ledger := ledger, claimed := claimed } :=
  ⟨rfl, rfl, rfl, rfl, rfl, rfl, rfl, rfl, kept, fun _ => ⟨[], by simp [pending, chain]⟩⟩

theorem persistLedger_bookkeeping (svc : Service) (record : SettlementRecord) :
    Bookkeeping svc (persistLedger cfg svc record) := by
  unfold persistLedger
  by_cases configured : cfg.ledgerStore = true
  · rw [if_pos configured]
    refine ⟨rfl, rfl, rfl, rfl, rfl, rfl, rfl, rfl, fun _ held => held, fun key => ?_⟩
    by_cases same : key = "ledger:" ++ record.requestId
    · exact ⟨[record], by simp [pending_enqueueWrite, same]⟩
    · exact ⟨[], by simp [pending_enqueueWrite, same]⟩
  · rw [if_neg configured]
    exact .refl svc

theorem update_bookkeeping (svc : Service) (requestId : String) (record : SettlementRecord) :
    Bookkeeping svc (update cfg svc requestId record) := by
  unfold update
  split
  · exact (bookkeeping_of_ledger svc _ _ _ fun _ held => held).trans
      (persistLedger_bookkeeping cfg _ record)
  · exact .refl svc

theorem updateAll_bookkeeping (svc : Service) (records : List SettlementRecord)
    (revise : SettlementRecord → SettlementRecord) :
    Bookkeeping svc (updateAll cfg svc records revise) :=
  .foldl _ (fun svc (record : SettlementRecord) =>
    update_bookkeeping cfg svc record.requestId (revise record)) svc records

theorem remember_bookkeeping (svc : Service) (record : SettlementRecord) :
    Bookkeeping svc (remember cfg svc record) :=
  ((bookkeeping_of_ledger svc _ _ _ fun _ held => held).trans
    (persistLedger_bookkeeping cfg _ record)).trans
      (bookkeeping_of_ledger _ _ _ _ fun _ held => held)

theorem hydrateLedger_bookkeeping (svc : Service) (history : Option (List StoredRecord)) :
    Bookkeeping svc (hydrateLedger cfg svc history) := by
  unfold hydrateLedger
  split
  · cases history with
    | none => exact .refl svc
    | some recent =>
      refine .foldl _ (fun svc raw => ?_) svc recent.reverse
      cases raw.requestId with
      | none => exact .refl svc
      | some requestId =>
        exact bookkeeping_of_ledger svc _ _ _ fun _ held => List.mem_cons_of_mem _ held
  · exact .refl svc

theorem reseed_bookkeeping (svc : Service) (records : List SettlementRecord) :
    Bookkeeping svc (reseed cfg svc records) := by
  refine .foldl _ (fun svc record => ?_) svc records
  have claim : Bookkeeping svc { svc with claimed := record.requestId :: svc.claimed } :=
    bookkeeping_of_ledger svc _ _ _ fun _ held => List.mem_cons_of_mem _ held
  dsimp only
  split
  · exact claim
  · exact claim.trans (remember_bookkeeping cfg _ record)

def payoutOf (record : SettlementRecord) : Int := (bigInt record.payoutAtomic).getD 0

def owed (records : List SettlementRecord) : Int := (records.map payoutOf).sum

theorem sumPayouts_of_priced (records : List SettlementRecord)
    (priced : ∀ r ∈ records, ∃ payout, bigInt r.payoutAtomic = some payout) :
    sumPayouts records = some (owed records) := by
  induction records with
  | nil => rfl
  | cons record rest ih =>
    obtain ⟨payout, first⟩ := priced record (by simp)
    have tail := ih fun r member => priced r (by simp [member])
    simp [sumPayouts, owed, payoutOf, first, tail]

structure SplitHolds (record : SettlementRecord) : Prop where
  split : ∃ inbound payout margin, bigInt record.inboundAtomic = some inbound ∧
    bigInt record.payoutAtomic = some payout ∧ bigInt record.marginAtomic = some margin ∧
    0 ≤ payout ∧ inbound - payout = margin

theorem openRecord_ok (inbound : InboundSettlement) (note : RoutingNote) (createdAt : Nat)
    (record : SettlementRecord) (opened : openRecord cfg inbound note createdAt = .ok record) :
    record.requestId = inbound.requestId ∧ record.operatorAddress = note.operatorAddress ∧
      SplitHolds record := by
  unfold openRecord at opened
  cases priced : computeSplit inbound.inboundAtomic cfg.marginBps with
  | error e => simp [priced, bind, Except.bind] at opened
  | ok split =>
    cases sound : assertSplitInvariant split with
    | error e => simp [priced, sound, bind, Except.bind] at opened
    | ok =>
      obtain ⟨inboundLeg, payoutLeg, marginLeg, legs⟩ := assertSplitInvariant_ok split sound
      have wired (a : Int) (leg : 0 ≤ a) : atomicToWire a = .ok (toString a) := by
        simp [atomicToWire, not_lt.mpr leg]
      simp only [priced, sound, wired _ inboundLeg, wired _ payoutLeg, wired _ marginLeg, bind,
        Except.bind, pure, Except.pure, Except.ok.injEq] at opened
      subst opened
      exact ⟨rfl, rfl, split.inbound, split.payout, split.margin,
        bigInt_atomicToWire _ _ (wired _ inboundLeg), bigInt_atomicToWire _ _ (wired _ payoutLeg),
        bigInt_atomicToWire _ _ (wired _ marginLeg), payoutLeg, legs⟩

end X402Mesh.Settlement.Service
