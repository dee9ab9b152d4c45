import X402Mesh.Gateway.Quotes
import X402Mesh.Settlement.Conservation
import X402Mesh.Settlement.Provenance
import X402Mesh.Shared.Config

set_option autoImplicit false

namespace X402Mesh.Settlement

open Service

namespace Service

variable (cfg : Deps)

structure NotesKept (before after : Service) : Prop where
  routing : after.routing = before.routing
  claimed : after.claimed = before.claimed

namespace NotesKept

theorem refl (svc : Service) : NotesKept svc svc := ⟨rfl, rfl⟩

theorem trans {a b c : Service} (left : NotesKept a b) (right : NotesKept b c) : NotesKept a c :=
  ⟨right.routing.trans left.routing, right.claimed.trans left.claimed⟩

theorem foldl {α : Type} (f : Service → α → Service) (kept : ∀ svc a, NotesKept svc (f svc a))
    (svc : Service) (as : List α) : NotesKept svc (as.foldl f svc) := by
  induction as generalizing svc with
  | nil => exact refl svc
  | cons a rest ih => exact (kept svc a).trans (ih (f svc a))

end NotesKept

theorem enqueueStore_notes (svc : Service) (key : String) (ops : List StoreOp) :
    NotesKept svc (enqueueStore cfg svc key ops) := by
  unfold enqueueStore
  split <;> exact ⟨rfl, rfl⟩

theorem persistLedger_notes (svc : Service) (record : SettlementRecord) :
    NotesKept svc (persistLedger cfg svc record) := by
  unfold persistLedger
  split <;> exact ⟨rfl, rfl⟩

theorem update_notes (svc : Service) (requestId : String) (record : SettlementRecord) :
    NotesKept svc (update cfg svc requestId record) := by
  unfold update
  split
  · refine .trans ?_ (persistLedger_notes cfg _ record)
    exact ⟨rfl, rfl⟩
  · exact .refl svc

theorem updateAll_notes (svc : Service) (records : List SettlementRecord)
    (revise : SettlementRecord → SettlementRecord) :
    NotesKept svc (updateAll cfg svc records revise) :=
  .foldl _ (fun svc (record : SettlementRecord) =>
    update_notes cfg svc record.requestId (revise record)) svc records

theorem remember_notes (svc : Service) (record : SettlementRecord) :
    NotesKept svc (remember cfg svc record) := by
  have stored := persistLedger_notes cfg
    { svc with ledger := svc.ledger.set record.requestId record } record
  exact ⟨stored.routing, stored.claimed⟩

theorem finalizeSettled_notes (svc : Service) (records : List SettlementRecord)
    (txId batchId : Option String) (settledAt : Nat) :
    NotesKept svc (finalizeSettled cfg svc records txId batchId settledAt) := by
  refine .trans ?_ (updateAll_notes cfg _ records _)
  cases batchId with
  | none => exact .refl svc
  | some batchId =>
    have queued := enqueueStore_notes cfg (svc.dropLiability (some batchId))
      ((records.head?.map (·.operatorAddress)).getD "") [.removeBatch batchId]
    exact ⟨queued.routing, queued.claimed⟩

theorem finalizeFailed_notes (svc : Service) (records : List SettlementRecord) (reason : String)
    (batchId : Option String) (attemptAt settledAt : Nat) :
    NotesKept svc (finalizeFailed cfg svc records reason batchId attemptAt settledAt) := by
  refine .trans ?_ (updateAll_notes cfg _ records _)
  cases batchId with
  | none => exact .refl svc
  | some batchId =>
    unfold annotate
    dsimp only
    cases svc.batchLiabilities.get? batchId <;> exact ⟨rfl, rfl⟩

theorem finalize_notes (svc : Service) (job : PayoutJob) (progress : Progress)
    (attemptAt settledAt : Nat) :
    NotesKept svc (finalize cfg svc job progress attemptAt settledAt) := by
  cases progress with
  | settled txId => exact finalizeSettled_notes cfg svc _ _ _ _
  | failed reason => exact finalizeFailed_notes cfg svc _ _ _ _ _
  | _ => exact .refl svc

theorem resumePayout_notes (svc svc' : Service) (index : Nat) (event : PayoutEvent)
    (attemptAt settledAt : Nat)
    (resumed : resumePayout cfg svc index event attemptAt settledAt = some svc') :
    NotesKept svc svc' := by
  unfold resumePayout at resumed
  simp only [Option.bind_eq_bind, Option.bind_eq_some_iff, Option.pure_def,
    Option.some.injEq] at resumed
  obtain ⟨run, -, progress, -, rfl⟩ := resumed
  have ended := finalize_notes cfg (moved cfg svc index run.job progress) run.job progress
    attemptAt settledAt
  exact ⟨ended.routing, ended.claimed⟩

theorem flushAccrual_notes (svc : Service) (operatorAddress : String) (now : Nat) :
    NotesKept svc (flushAccrual cfg svc operatorAddress now) := by
  unfold flushAccrual
  cases svc.accruals.get? operatorAddress with
  | none => exact .refl svc
  | some accrual =>
    dsimp only
    split
    · exact .refl svc
    · cases sumPayouts accrual.records with
      | none => exact ⟨rfl, rfl⟩
      | some summed =>
        have queued := enqueueStore_notes cfg
          { svc with
            accruals := svc.accruals.erase operatorAddress
            batchSeq := svc.batchSeq + 1
            batchLiabilities := svc.batchLiabilities.set (batchIdOf now (svc.batchSeq + 1))
              (liability (batchIdOf now (svc.batchSeq + 1)) operatorAddress summed
                accrual.records.length (some accrual.firstAt)) }
          operatorAddress
          [.putBatch (batchIdOf now (svc.batchSeq + 1))
            (persisted accrual.operatorAddress accrual.records accrual.firstAt
              (some (batchIdOf now (svc.batchSeq + 1)))), .removeOpen operatorAddress]
        exact ⟨queued.routing, queued.claimed⟩

theorem flushPayouts_notes (svc : Service) (now : Nat → Nat) :
    NotesKept svc (flushPayouts cfg svc now) :=
  .foldl _ (fun svc key => flushAccrual_notes cfg svc key (now svc.batchSeq)) svc _

theorem push_notes (svc : Service) (record : SettlementRecord) (payout : Int)
    (accruedAt flushedAt : Nat) :
    NotesKept svc (push cfg svc record payout accruedAt flushedAt) := by
  have put : NotesKept svc (svc.putAccrual (svc.extended record payout accruedAt)) := ⟨rfl, rfl⟩
  unfold push
  dsimp only
  split
  · exact put.trans (flushAccrual_notes cfg _ _ _)
  · split
    · exact put.trans (flushAccrual_notes cfg _ _ _)
    · have queued : NotesKept _ (persistOpen cfg _ _) :=
        put.trans (enqueueStore_notes cfg _ (svc.extended record payout accruedAt).operatorAddress _)
      exact ⟨queued.routing, queued.claimed⟩

theorem schedule_notes (svc : Service) (record : SettlementRecord) (now : Readings) :
    NotesKept svc (schedule cfg svc record now) := by
  unfold schedule
  cases Money.bigInt record.payoutAtomic with
  | none => exact .refl svc
  | some payout =>
    dsimp only
    split
    · exact finalizeSettled_notes cfg svc _ _ _ _
    · split
      · refine .trans (.trans ?_ (update_notes cfg _ _ _)) (push_notes cfg _ _ _ _ _)
        exact ⟨rfl, rfl⟩
      · exact ⟨rfl, rfl⟩

theorem opened_notes (svc : Service) (record : SettlementRecord) (now : Readings) :
    NotesKept svc (schedule cfg (remember cfg svc record) record now) :=
  (remember_notes cfg svc record).trans (schedule_notes cfg _ record now)

-- The record waits in the accrual of its operator, or a payout of it has been started.
def OwedFor (svc : Service) (record : SettlementRecord) : Prop :=
  (∃ accrual, svc.accruals.get? record.operatorAddress = some accrual ∧ record ∈ accrual.records) ∨
    ∃ run ∈ svc.payouts, run.job.receiver = record.operatorAddress ∧ record ∈ run.job.records

theorem push_owed {svc : Service} (sound : Sound svc) (record : SettlementRecord)
    (priced : Priced record) (claimed : record.requestId ∈ svc.claimed)
    (accruedAt flushedAt : Nat) :
    OwedFor (push cfg svc record (payoutOf record) accruedAt flushedAt) record := by
  have grown : record ∈ (svc.grown record accruedAt).records := by
    rw [grown_records]
    simp
  rcases push_cases cfg svc record accruedAt flushedAt sound priced claimed with waits | flushed
  · rw [waits]
    refine .inl ⟨{ svc.grown record accruedAt with timer := true }, ?_, grown⟩
    rw [hold_get? cfg svc record accruedAt sound, if_pos rfl]
  · rw [flushed]
    let job := (svc.putAccrual (svc.grown record accruedAt)).detachedJob record.operatorAddress
      (svc.grown record accruedAt) flushedAt
    refine .inr ⟨⟨job, Progress.start cfg.attempts job⟩, ?_, rfl, grown⟩
    rw [detach_payouts]
    exact List.mem_append_right _ (List.mem_singleton_self _)

-- A record with something to pay out is on its way to its operator, batched or not.
theorem schedule_owed {svc : Service} (sound : Sound svc) (record : SettlementRecord)
    (holds : SplitHolds record) (claimed : record.requestId ∈ svc.claimed) (now : Readings)
    (payout : Int) (paid : Money.bigInt record.payoutAtomic = some payout) (owed : payout ≠ 0) :
    OwedFor (schedule cfg svc record now) record := by
  have value : payoutOf record = payout := by simp [payoutOf, paid]
  obtain ⟨_, other, _, _, parsed, _, nonnegative, _⟩ := holds.split
  obtain rfl := Option.some.inj (paid.symm.trans parsed)
  have priced : Priced record := ⟨holds, by omega⟩
  unfold schedule
  rw [paid]
  dsimp only
  rw [if_neg owed]
  split
  · have kept := update_bookkeeping cfg { svc with accepted := svc.accepted ++ [record] }
      record.requestId { record with status := .accrued }
    have unchanged : Sound { svc with accepted := svc.accepted ++ [record] } :=
      sound.mono rfl rfl fun _ _ found => found
    rw [accrue, ← value]
    exact push_owed cfg (unchanged.bookkeeping kept) record priced (kept.claimed _ claimed) _ _
  · exact .inr ⟨_, List.mem_append_right _ (List.mem_singleton_self _), rfl,
      List.mem_singleton_self _⟩

-- What a settlement leaves behind once it is past both skips.
structure TakenOn (before after : Service) (inbound : InboundSettlement) (note : RoutingNote)
    (now : Readings) : Prop where
  fresh : inbound.requestId ∉ before.claimed
  claimed : inbound.requestId ∈ after.claimed
  spent : after.routing.get? inbound.requestId = none
  owed : ∀ record payout, openRecord cfg inbound note now.createdAt = .ok record →
    Money.bigInt record.payoutAtomic = some payout → payout ≠ 0 →
      record.requestId = inbound.requestId ∧ record.operatorAddress = note.operatorAddress ∧
        OwedFor after record

theorem settleInbound_takenOn {svc : Service} (sound : Sound svc) (inbound : InboundSettlement)
    (note : RoutingNote) (now : Readings) (noted : svc.routing.get? inbound.requestId = some note)
    (fresh : inbound.requestId ∉ svc.claimed) :
    TakenOn cfg svc (settleInbound cfg svc inbound now) inbound note now := by
  unfold settleInbound
  rw [noted]
  dsimp only
  rw [if_neg fresh]
  cases opened : openRecord cfg inbound note now.createdAt with
  | error e =>
    constructor
    case fresh => exact fresh
    case claimed => exact List.mem_cons_self
    case spent => simp
    case owed =>
      intro record _ same
      rw [opened] at same
      cases same
  | ok record =>
    dsimp only
    have claim := bookkeeping_of_ledger svc (svc.routing.erase inbound.requestId) svc.ledger
      (inbound.requestId :: svc.claimed) fun _ held => List.mem_cons_of_mem _ held
    have kept := opened_notes cfg
      { svc with
        routing := svc.routing.erase inbound.requestId
        claimed := inbound.requestId :: svc.claimed } record now
    constructor
    case fresh => exact fresh
    case claimed =>
      rw [kept.claimed]
      exact List.mem_cons_self
    case spent =>
      rw [kept.routing]
      simp
    case owed =>
      intro _ payout same paid owed
      obtain rfl := Except.ok.inj (opened.symm.trans same)
      obtain ⟨id, address, holds⟩ := openRecord_ok cfg inbound note now.createdAt record opened
      have remembered := remember_bookkeeping cfg
        { svc with
          routing := svc.routing.erase inbound.requestId
          claimed := inbound.requestId :: svc.claimed } record
      refine ⟨id, address, schedule_owed cfg ?_ record holds ?_ now payout paid owed⟩
      · exact sound.bookkeeping (claim.trans remembered)
      · exact remembered.claimed _ (by rw [id]; exact List.mem_cons_self)

theorem recordRouting_other (svc : Service) (id requestId nodeId operatorAddress : String)
    (now : Nat) (note : RoutingNote) (other : requestId ≠ id)
    (held : svc.routing.get? id = some note)
    (young : (now : Int) - note.noted < routingNoteTtlMs) :
    (svc.recordRouting requestId nodeId operatorAddress now).routing.get? id = some note := by
  have kept := svc.routing.get?_dropWhile
    (fun _ note => decide ¬ ((now : Int) - note.noted < routingNoteTtlMs)) id note held
    (by simpa using young)
  simpa [recordRouting, pruneRouting, OrderedMap.get?_set, Ne.symm other] using kept

theorem settleInbound_other (svc : Service) (inbound : InboundSettlement) (now : Readings)
    (id : String) (other : inbound.requestId ≠ id) :
    (settleInbound cfg svc inbound now).routing.get? id = svc.routing.get? id ∧
      (id ∈ (settleInbound cfg svc inbound now).claimed ↔ id ∈ svc.claimed) := by
  unfold settleInbound
  cases svc.routing.get? inbound.requestId with
  | none => exact ⟨rfl, Iff.rfl⟩
  | some note =>
    dsimp only
    split
    · simp [OrderedMap.get?_erase, Ne.symm other]
    · cases openRecord cfg inbound note now.createdAt with
      | error e => simp [OrderedMap.get?_erase, Ne.symm other]
      | ok record =>
        dsimp only
        rw [(opened_notes cfg _ record now).routing, (opened_notes cfg _ record now).claimed]
        simp [OrderedMap.get?_erase, Ne.symm other]

end Service

section waiting

variable {ι : Type} [DecidableEq ι] (i : ι)

-- The clock as process `i` reads it for its requests.
def Action.reading : Action ι → Option Nat
  | .recordRouting j _ _ _ now => if j = i then some now else none
  | .settleInbound j _ now => if j = i then some now.createdAt else none
  | _ => none

-- Process `i` stays up, and does not route the request again or settle its payment.
def Action.awaits (id : String) : Action ι → Bool
  | .recordRouting j requestId _ _ _ => decide ¬ (j = i ∧ requestId = id)
  | .settleInbound j inbound _ => decide ¬ (j = i ∧ inbound.requestId = id)
  | .hydrateLedger j _ | .recoverAccruals j _ _ | .restart j | .boot j .. => decide (j ≠ i)
  | _ => true

structure World.Noted (w : World ι) (id : String) (note : RoutingNote) : Prop where
  found : (w.service i).routing.get? id = some note
  unclaimed : id ∉ (w.service i).claimed

theorem noted_step (cfg : Deps) {w w' : World ι} {a : Action ι} {id : String} {note : RoutingNote}
    (noted : w.Noted i id note) (awaits : a.awaits i id = true)
    (young : ∀ now ∈ a.reading i, (now : Int) - note.noted < Service.routingNoteTtlMs)
    (taken : World.step cfg w a = some w') : w'.Noted i id note := by
  have turned (j : ι) (w : World ι) (noted : w.Noted i id note) (svc : Service)
      (own : i = j → svc.routing.get? id = some note ∧ id ∉ svc.claimed) :
      (w.turn j svc).Noted i id note := by
    constructor <;> rw [World.turn_service] <;> split
    · exact (own ‹_›).1
    · exact noted.found
    · exact (own ‹_›).2
    · exact noted.unclaimed
  have kept (j : ι) (w : World ι) (noted : w.Noted i id note) (svc : Service)
      (same : NotesKept (w.service j) svc) : (w.turn j svc).Noted i id note := by
    refine turned j w noted svc ?_
    rintro rfl
    exact ⟨by rw [same.routing]; exact noted.found, by rw [same.claimed]; exact noted.unclaimed⟩
  have written (j : ι) (w : World ι) (noted : w.Noted i id note) (key : String)
      (works : List (Work StoreOp)) : (w.setWrites j key works).Noted i id note := by
    constructor <;> rw [World.setWrites_service] <;> split
    · subst i; exact noted.found
    · exact noted.found
    · subst i; exact noted.unclaimed
    · exact noted.unclaimed
  have restarted (j : ι) (other : i ≠ j) : (w.restart j).Noted i id note := by
    constructor <;> rw [World.restart_service, if_neg other]
    · exact noted.found
    · exact noted.unclaimed
  cases a with
  | recordRouting j requestId nodeId operatorAddress now =>
    cases taken
    refine turned j w noted _ ?_
    rintro rfl
    refine ⟨recordRouting_other _ id requestId nodeId operatorAddress now note ?_ noted.found ?_,
      noted.unclaimed⟩
    · simpa [Action.awaits] using awaits
    · exact young now (by simp [Action.reading])
  | settleInbound j inbound now =>
    cases taken
    refine turned j w noted _ ?_
    rintro rfl
    obtain ⟨routing, claimed⟩ := settleInbound_other cfg (w.service i) inbound now id
      (by simpa [Action.awaits] using awaits)
    exact ⟨routing.trans noted.found, fun held => noted.unclaimed (claimed.mp held)⟩
  | deadline j operatorAddress now =>
    rw [World.deadline_inv taken]
    exact kept j w noted _ (flushAccrual_notes cfg _ _ _)
  | flushPayouts j now =>
    cases taken
    exact kept j w noted _ (flushPayouts_notes cfg _ _)
  | payout j index event attemptAt settledAt =>
    obtain ⟨svc, run, progress, resumed, -, -, rfl⟩ := World.payout_inv taken
    exact kept j (w.recordOutcome run.job event progress) ⟨noted.found, noted.unclaimed⟩ svc
      (resumePayout_notes cfg _ _ index event attemptAt settledAt resumed)
  | callWrite j key =>
    obtain ⟨works, -, rfl⟩ := World.callWrite_inv taken
    exact written j w noted key works
  | applyWrite j key =>
    obtain ⟨op, works, rows, -, -, rfl⟩ := World.applyWrite_inv taken
    exact written j (w.withRows rows) ⟨noted.found, noted.unclaimed⟩ key works
  | resolveWrite j key =>
    obtain ⟨op, works, -, rfl⟩ := World.resolveWrite_inv taken
    exact written j { w with trace := w.trace ++ World.completed op }
      ⟨noted.found, noted.unclaimed⟩ key works
  | rejectWrite j key =>
    obtain ⟨works, -, rfl⟩ := World.rejectWrite_inv taken
    exact written j w noted key works
  | readOpen j addresses =>
    rw [World.readOpen_inv taken]
    exact ⟨noted.found, noted.unclaimed⟩
  | readBatches j batchIds =>
    rw [World.readBatches_inv taken]
    exact ⟨noted.found, noted.unclaimed⟩
  | hydrateLedger j history =>
    cases taken
    refine turned j w noted _ fun same => ?_
    simp [Action.awaits, same] at awaits
  | recoverAccruals j ok now =>
    cases taken
    refine turned j w noted _ fun same => ?_
    simp [Action.awaits, same] at awaits
  | restart j =>
    cases taken
    exact restarted j (Ne.symm (of_decide_eq_true awaits))
  | boot j addresses batchIds history ok now =>
    obtain ⟨-, -, rfl⟩ := World.boot_inv taken
    have other := Ne.symm (of_decide_eq_true awaits)
    exact turned j _ (restarted j other) _ fun same => absurd same other

end waiting

end X402Mesh.Settlement

namespace X402Mesh.Gateway

open Settlement

section window

variable {ι : Type} [DecidableEq ι] (cfg : Deps) (i : ι)

-- A request that is routed and then paid inside its window still has its note when it is settled,
-- and is taken on under it.
def NotesFound (nodeRequestTimeoutMs : Int) : Prop :=
  ∀ (rows : Registry.Rows) (before routed paid settled : World ι) (nodeId operatorAddress : String)
    (routedAt : Nat) (inbound : InboundSettlement) (now : Service.Readings)
    (between : List (Action ι)),
    Transition.Run (World.step cfg) (fun _ _ => True) (World.start rows) before →
    inbound.requestId ∉ (before.service i).claimed →
    World.step cfg before (.recordRouting i inbound.requestId nodeId operatorAddress routedAt) =
      some routed →
    Transition.replay (World.step cfg) routed between = some paid →
    (∀ a ∈ between, a.awaits i inbound.requestId = true) →
    (routedAt :: (between.filterMap (·.reading i) ++ [now.createdAt])).Pairwise (· ≤ ·) →
    (now.createdAt : Int) ≤ routedAt + 1000 * maxTimeoutSeconds nodeRequestTimeoutMs →
    World.step cfg paid (.settleInbound i inbound now) = some settled →
    paid.Noted i inbound.requestId ⟨nodeId, operatorAddress, routedAt⟩ ∧
      Service.TakenOn cfg (paid.service i) (settled.service i) inbound
        ⟨nodeId, operatorAddress, routedAt⟩ now

theorem noted_replay {w w' : World ι} {id : String} {note : RoutingNote} {settledAt : Nat}
    (actions : List (Action ι)) (noted : w.Noted i id note)
    (awaits : ∀ a ∈ actions, a.awaits i id = true)
    (readings : ∀ now ∈ actions.filterMap (·.reading i), now ≤ settledAt)
    (young : (settledAt : Int) - note.noted < Service.routingNoteTtlMs)
    (replayed : Transition.replay (World.step cfg) w actions = some w') : w'.Noted i id note := by
  induction actions generalizing w with
  | nil =>
    obtain rfl : w = w' := by simpa [Transition.replay] using replayed
    exact noted
  | cons a rest ih =>
    obtain ⟨next, taken, later⟩ := Option.bind_eq_some_iff.mp replayed
    have kept := noted_step i cfg noted (awaits a (by simp)) (fun now read => by
      have bound := readings now (List.mem_filterMap.mpr ⟨a, by simp, read⟩)
      omega) taken
    refine ih kept (fun b member => awaits b (by simp [member])) (fun now member => ?_) later
    obtain ⟨b, inside, read⟩ := List.mem_filterMap.mp member
    exact readings now (List.mem_filterMap.mpr ⟨b, by simp [inside], read⟩)

theorem notes_found_of_short (nodeRequestTimeoutMs : Int) (short : nodeRequestTimeoutMs ≤ 539000) :
    NotesFound cfg i nodeRequestTimeoutMs := by
  intro rows before routed paid settled nodeId operatorAddress routedAt inbound now between run fresh
    taken replayed awaits clock within settles
  have noted : routed.Noted i inbound.requestId ⟨nodeId, operatorAddress, routedAt⟩ := by
    cases taken
    constructor <;> rw [World.turn_service, if_pos rfl]
    · simp [Service.recordRouting]
    · exact fresh
  have later := (List.pairwise_append.mp (List.pairwise_cons.mp clock).2).2.2
  have held : paid.Noted i inbound.requestId ⟨nodeId, operatorAddress, routedAt⟩ := by
    refine noted_replay cfg i between noted awaits (fun reading member =>
      later reading member now.createdAt (by simp)) ?_ replayed
    simp only [maxTimeoutSeconds, Service.routingNoteTtlMs] at within ⊢
    omega
  refine ⟨held, ?_⟩
  cases settles
  rw [World.turn_service, if_pos rfl]
  have reached : Transition.Run (World.step cfg) (fun _ _ => True) (World.start rows) paid :=
    (run.tail trivial taken).trans (Transition.run_of_replay between
      (Transition.allows_of_forall between fun _ _ _ => trivial) replayed)
  have settled := Service.settleInbound_takenOn cfg (World.run_sound cfg reached i) inbound _ now
    held.found held.unclaimed
  exact ⟨settled.fresh, settled.claimed, settled.spent, settled.owed⟩

-- A second request, routed when the note of the first has reached its age, prunes it.
def pruning (i : ι) : List (Action ι) := [.recordRouting i "r2" "node-b" "OPERATOR-B" 600000]

theorem note_pruned (nodeRequestTimeoutMs : Int) (long : 539000 < nodeRequestTimeoutMs) :
    ¬ NotesFound cfg i nodeRequestTimeoutMs := by
  intro found
  obtain ⟨noted, -⟩ := found .empty (World.start .empty) _ _ _ "node-a" "OPERATOR" 0
    ⟨"r1", "PAYER", "tx-1", 2000⟩ ⟨600000, 600000, 600000⟩ (pruning i)
    .refl (by simp [World.start, Service.init]) rfl rfl (by simp [pruning, Action.awaits])
    (by simp [pruning, Action.reading])
    (by simp only [maxTimeoutSeconds]; omega) rfl
  have lost := noted.found
  rw [World.turn_service, if_pos rfl, World.turn_service, if_pos rfl] at lost
  have pruned : ((Service.init.recordRouting "r1" "node-a" "OPERATOR" 0).recordRouting "r2" "node-b"
      "OPERATOR-B" 600000).routing.get? "r1" = none := by decide
  exact Option.some_ne_none _ (lost.symm.trans pruned)

theorem notes_found_iff (env : String → Option String) (nodeRequestTimeoutMs : Int)
    (_loaded : Config.nodeRequestTimeoutMs env = some nodeRequestTimeoutMs) :
    NotesFound cfg i nodeRequestTimeoutMs ↔ nodeRequestTimeoutMs ≤ 539000 :=
  ⟨fun found => not_lt.mp fun long => note_pruned cfg i nodeRequestTimeoutMs long found,
    notes_found_of_short cfg i nodeRequestTimeoutMs⟩

end window

-- With the timeout left at its default the window is three minutes.
theorem notes_found_default : NotesFound World.demoDeps () 120000 :=
  (notes_found_iff World.demoDeps () (fun _ => none) 120000 rfl).mpr (by decide)

-- The longest timeout that the loader accepts opens a window of eleven minutes.
theorem notes_lost_longest :
    Config.nodeRequestTimeoutMs (fun _ => some "600000") = some 600000 ∧
      maxTimeoutSeconds 600000 = 660 ∧ ¬ NotesFound World.demoDeps () 600000 :=
  ⟨by decide, by decide, note_pruned World.demoDeps () 600000 (by decide)⟩

end X402Mesh.Gateway
