import X402Mesh.Gateway.Notes
import X402Mesh.Lib.AgeOrder

set_option autoImplicit false

namespace X402Mesh.Settlement

open Registry Service

namespace Service

variable (cfg : Deps)

theorem settleInbound_routing (svc : Service) (inbound : InboundSettlement) (now : Readings) :
    (settleInbound cfg svc inbound now).routing.entries =
      (svc.routing.erase inbound.requestId).entries := by
  unfold settleInbound
  cases found : svc.routing.get? inbound.requestId with
  | none => exact (svc.routing.entries_erase_absent inbound.requestId found).symm
  | some note =>
    dsimp only
    split
    next => rfl
    next =>
      cases openRecord cfg inbound note now.createdAt with
      | error e => rfl
      | ok record =>
        dsimp only
        rw [(opened_notes cfg _ record now).routing]

theorem hydrateLedger_routing (svc : Service) (history : Option (List StoredRecord)) :
    (hydrateLedger cfg svc history).routing = svc.routing := by
  unfold hydrateLedger
  split
  next =>
    cases history with
    | none => rfl
    | some recent =>
      dsimp only
      induction recent.reverse generalizing svc with
      | nil => rfl
      | cons raw rest ih =>
        rw [List.foldl_cons, ih]
        cases raw.requestId <;> rfl
  next => rfl

theorem dropRecovered_routing (svc : Service) (stored : PersistedAccrual) :
    (dropRecovered cfg svc stored).routing = svc.routing := by
  unfold dropRecovered
  cases stored.batchId <;> exact (enqueueStore_notes cfg svc _ _).routing

theorem dropLiability_routing (svc : Service) (batchId : Option String) :
    (svc.dropLiability batchId).routing = svc.routing := by
  cases batchId <;> rfl

theorem reseed_routing (svc : Service) (records : List SettlementRecord) :
    (reseed cfg svc records).routing = svc.routing := by
  unfold reseed
  induction records generalizing svc with
  | nil => rfl
  | cons record rest ih =>
    rw [List.foldl_cons, ih]
    dsimp only
    split
    next => rfl
    next => exact (remember_notes cfg _ record).routing

theorem payRow_routing (svc : Service) (stored : PersistedAccrual) (records : List StoredRecord)
    (summed : Int) (batchId : String) (resumed : Bool) :
    (payRow cfg svc stored records summed batchId resumed).routing = svc.routing :=
  (enqueueStore_notes cfg
    { svc with
      batchLiabilities := svc.batchLiabilities.set batchId
        (liability batchId stored.operatorAddress summed records.length stored.firstAt) } _ _).routing

theorem recoverRow_routing (now : Nat → Nat) (state : Recovery) (stored : PersistedAccrual) :
    (recoverRow cfg now state stored).svc.routing = state.svc.routing := by
  unfold recoverRow
  split
  next => rfl
  next =>
    dsimp only
    split
    next => rw [dropRecovered_routing, dropLiability_routing]
    next =>
      split
      next => exact reseed_routing cfg _ _
      next =>
        split
        next => rw [dropRecovered_routing, dropLiability_routing, reseed_routing]
        next =>
          dsimp only [recoverPay]
          split
          next => rw [payRow_routing, reseed_routing]
          next =>
            rw [payRow_routing]
            exact reseed_routing cfg _ _

theorem recoverAccruals_routing (svc : Service)
    (loaded : Option (List PersistedAccrual × List PersistedAccrual)) (now : Nat → Nat) :
    (recoverAccruals cfg svc loaded now).routing = svc.routing := by
  have folded (rows : List PersistedAccrual) (state : Recovery) :
      (rows.foldl (recoverRow cfg now) state).svc.routing = state.svc.routing := by
    induction rows generalizing state with
    | nil => rfl
    | cons row rest ih => rw [List.foldl_cons, ih, recoverRow_routing]
  unfold recoverAccruals
  split
  next =>
    cases loaded with
    | none => rfl
    | some rows => exact folded _ _
  next => rfl

structure Aged (svc : Service) (clock : Nat) : Prop where
  order : svc.routing.InOrder RoutingNote.noted
  past : ∀ e ∈ svc.routing.entries, e.2.noted ≤ clock

def Young (svc : Service) (now : Nat) : Prop :=
  ∀ e ∈ svc.routing.entries, (now : Int) - e.2.noted < routingNoteTtlMs

-- No earlier note stands behind the one that the request already has.
def InPlace (svc : Service) (requestId : String) (now : Nat) : Prop :=
  ∀ e ∈ (svc.pruneRouting now).routing.behind requestId, now ≤ e.2.noted

instance (svc : Service) (now : Nat) : Decidable (svc.Young now) := List.decidableBAll _ _

instance (svc : Service) (requestId : String) (now : Nat) : Decidable (svc.InPlace requestId now) :=
  List.decidableBAll _ _

namespace Aged

variable {svc : Service} {clock : Nat} (aged : svc.Aged clock)

include aged

theorem mono {later : Nat} (after : clock ≤ later) : svc.Aged later :=
  ⟨aged.order, fun e member => (aged.past e member).trans after⟩

theorem sublist {other : Service} (kept : other.routing.entries.Sublist svc.routing.entries) :
    other.Aged clock :=
  ⟨aged.order.sublist kept, fun e member => aged.past e (kept.subset member)⟩

theorem prune (now : Nat) : (svc.pruneRouting now).Aged clock :=
  aged.sublist (List.dropWhile_sublist _)

theorem prune_young (now : Nat) : (svc.pruneRouting now).Young now := by
  have fresh := aged.order.dropWhile_fresh
    (fun note => decide ¬ ((now : Int) - note.noted < routingNoteTtlMs)) (by
      intro a b order stale
      simp only [decide_eq_true_eq] at stale ⊢
      omega)
  intro e member
  simpa using fresh e member

theorem recordRouting_young (requestId nodeId operatorAddress : String) (now : Nat) :
    (svc.recordRouting requestId nodeId operatorAddress now).Young now := by
  intro e member
  cases OrderedMap.mem_replace member with
  | inl new =>
    rw [new]
    simp [routingNoteTtlMs]
  | inr kept => exact aged.prune_young now e kept

theorem recordRouting_order (requestId nodeId operatorAddress : String) {now : Nat}
    (after : clock ≤ now) :
    (svc.recordRouting requestId nodeId operatorAddress now).routing.InOrder RoutingNote.noted ↔
      svc.InPlace requestId now :=
  OrderedMap.inOrder_set (aged.prune now).order requestId _
    fun e member => ((aged.prune now).past e member).trans after

theorem recordRouting_aged {requestId : String} (nodeId operatorAddress : String) {now : Nat}
    (after : clock ≤ now) (place : svc.InPlace requestId now) :
    (svc.recordRouting requestId nodeId operatorAddress now).Aged now := by
  constructor
  next => exact (aged.recordRouting_order requestId nodeId operatorAddress after).mpr place
  next =>
    intro e member
    cases OrderedMap.mem_replace member with
    | inl new => exact (congrArg (fun e : String × RoutingNote => e.2.noted) new).le
    | inr kept => exact ((aged.prune now).past e kept).trans after

theorem outlives {requestId : String} (nodeId operatorAddress : String) {now : Nat}
    (moved : ¬ svc.InPlace requestId now) :
    ∃ later, now ≤ later ∧
      ¬ ((svc.recordRouting requestId nodeId operatorAddress now).recordRouting requestId nodeId
        operatorAddress later).Young later := by
  unfold InPlace at moved
  push Not at moved
  obtain ⟨e, behind, earlier⟩ := moved
  have young := aged.prune_young now e (OrderedMap.mem_of_behind behind)
  simp only [routingNoteTtlMs] at young
  let later := e.2.noted + routingNoteTtlMs
  have fresh : (decide ¬ ((later : Int) - now < routingNoteTtlMs)) = false := by
    rw [decide_eq_false_iff_not, not_not]
    simp only [later, routingNoteTtlMs]
    omega
  have kept := OrderedMap.behind_kept (v := (⟨nodeId, operatorAddress, now⟩ : RoutingNote))
    (fun note => decide ¬ ((later : Int) - note.noted < routingNoteTtlMs)) fresh behind
  refine ⟨later, by simp only [later, routingNoteTtlMs]; omega, fun all => ?_⟩
  have aged := all e (OrderedMap.mem_set_of_ne (OrderedMap.behind_ne behind) kept)
  simp only [later, routingNoteTtlMs] at aged
  omega

theorem inPlace_iff (requestId nodeId operatorAddress : String) {now : Nat} (after : clock ≤ now) :
    svc.InPlace requestId now ↔ ∀ requestId' nodeId' operatorAddress' later, now ≤ later →
      ((svc.recordRouting requestId nodeId operatorAddress now).recordRouting requestId' nodeId'
        operatorAddress' later).Young later := by
  constructor
  next =>
    intro place requestId' nodeId' operatorAddress' later _
    exact (aged.recordRouting_aged nodeId operatorAddress after place).recordRouting_young _ _ _ _
  next =>
    intro always
    by_contra moved
    obtain ⟨later, order, old⟩ := aged.outlives nodeId operatorAddress moved
    exact old (always requestId nodeId operatorAddress later order)

end Aged

end Service

section expiry

variable {ι : Type} [DecidableEq ι] (i : ι)

def World.InPlace (w : World ι) : Action ι → Prop
  | .recordRouting j requestId _ _ now => j = i → (w.service i).InPlace requestId now
  | _ => True

theorem aged_step (cfg : Deps) {w w' : World ι} {a : Action ι} {clock : Nat}
    (aged : (w.service i).Aged clock) (place : w.InPlace i a)
    (later : ∀ now ∈ a.reading i, clock ≤ now) (taken : World.step cfg w a = some w') :
    (w'.service i).Aged ((a.reading i).getD clock) := by
  have turned (j : ι) (svc : Service) {time : Nat} (other : i ≠ j → (w.service i).Aged time)
      (own : i = j → svc.Aged time) : ((w.turn j svc).service i).Aged time := by
    rw [World.turn_service]
    split
    next same => exact ⟨(own same).order, (own same).past⟩
    next apart => exact other apart
  have kept (j : ι) (w : World ι) (aged : (w.service i).Aged clock) (svc : Service)
      (same : svc.routing = (w.service j).routing) : ((w.turn j svc).service i).Aged clock := by
    rw [World.turn_service]
    split
    next own =>
      subst own
      exact aged.sublist (by simp [same])
    next => exact aged
  have written (j : ι) (w : World ι) (aged : (w.service i).Aged clock) (key : String)
      (works : List (Work StoreOp)) : ((w.setWrites j key works).service i).Aged clock := by
    rw [World.setWrites_service]
    split
    next own =>
      subst own
      exact aged.sublist (List.Sublist.refl _)
    next => exact aged
  have restarted (j : ι) : ((w.restart j).service i).Aged clock := by
    rw [World.restart_service]
    split
    next => exact ⟨.empty, by simp [init, OrderedMap.empty]⟩
    next => exact aged
  cases a with
  | recordRouting j requestId nodeId operatorAddress now =>
    cases taken
    refine turned j _ (fun apart => ?_) fun own => ?_
    · simpa [Action.reading, Ne.symm apart] using aged
    · subst own
      have after := later now (by simp [Action.reading])
      simpa [Action.reading] using aged.recordRouting_aged nodeId operatorAddress after (place rfl)
  | settleInbound j inbound now =>
    cases taken
    refine turned j _ (fun apart => ?_) fun own => ?_
    · simpa [Action.reading, Ne.symm apart] using aged
    · subst own
      have after := later now.createdAt (by simp [Action.reading])
      have settled := settleInbound_routing cfg (w.service i) inbound now
      have erased : (settleInbound cfg (w.service i) inbound now).Aged clock :=
        aged.sublist (settled ▸ List.filter_sublist)
      simpa [Action.reading] using erased.mono after
  | deadline j operatorAddress now =>
    rw [World.deadline_inv taken]
    exact kept j w aged _ (flushAccrual_notes cfg _ _ _).routing
  | flushPayouts j now =>
    cases taken
    exact kept j w aged _ (flushPayouts_notes cfg _ _).routing
  | payout j index event attemptAt settledAt =>
    obtain ⟨svc, run, progress, resumed, -, -, rfl⟩ := World.payout_inv taken
    exact kept j (w.recordOutcome run.job event progress) aged svc
      (resumePayout_notes cfg _ _ index event attemptAt settledAt resumed).routing
  | callWrite j key =>
    obtain ⟨works, -, rfl⟩ := World.callWrite_inv taken
    exact written j w aged key works
  | applyWrite j key =>
    obtain ⟨op, works, rows, -, -, rfl⟩ := World.applyWrite_inv taken
    exact written j (w.withRows rows) aged key works
  | resolveWrite j key =>
    obtain ⟨op, works, -, rfl⟩ := World.resolveWrite_inv taken
    exact written j { w with trace := w.trace ++ World.completed op } aged key works
  | rejectWrite j key =>
    obtain ⟨works, -, rfl⟩ := World.rejectWrite_inv taken
    exact written j w aged key works
  | readOpen j addresses =>
    rw [World.readOpen_inv taken]
    exact aged
  | readBatches j batchIds =>
    rw [World.readBatches_inv taken]
    exact aged
  | hydrateLedger j history =>
    cases taken
    exact kept j w aged _ (hydrateLedger_routing cfg _ history)
  | recoverAccruals j ok now =>
    cases taken
    exact kept j w aged _ (recoverAccruals_routing cfg _ _ now)
  | restart j =>
    cases taken
    exact restarted j
  | boot j addresses batchIds history ok now =>
    obtain ⟨-, -, rfl⟩ := World.boot_inv taken
    refine kept j _ (restarted j) _ ?_
    rw [recoverAccruals_routing, hydrateLedger_routing, World.restart_service, if_pos rfl]

theorem aged_replay (cfg : Deps) {w w' : World ι} {clock now : Nat} (actions : List (Action ι))
    (aged : (w.service i).Aged clock)
    (places : Transition.Allows (World.step cfg) (World.InPlace i) w actions)
    (ordered : (clock :: (actions.filterMap (·.reading i) ++ [now])).Pairwise (· ≤ ·))
    (replayed : Transition.replay (World.step cfg) w actions = some w') :
    (w'.service i).Aged now := by
  induction actions generalizing w clock with
  | nil =>
    obtain rfl : w = w' := by simpa [Transition.replay] using replayed
    exact aged.mono (by simpa using ordered)
  | cons a rest ih =>
    obtain ⟨next, taken, later⟩ := Option.bind_eq_some_iff.mp replayed
    cases read : a.reading i with
    | none =>
      have step := aged_step i cfg aged places.1 (by simp [read]) taken
      rw [read] at step
      exact ih step (places.2 next taken) (by simpa [read] using ordered) later
    | some reading =>
      have times : (clock :: reading :: (rest.filterMap (·.reading i) ++ [now])).Pairwise (· ≤ ·) := by
        simpa [read] using ordered
      have after : clock ≤ reading := (List.pairwise_cons.mp times).1 reading List.mem_cons_self
      have step := aged_step i cfg aged places.1 (by simp [read, after]) taken
      rw [read] at step
      exact ih step (places.2 next taken) (List.pairwise_cons.mp times).2 later

-- Right after a request is routed, no note in the map has reached its time to live.
def NotesExpire (cfg : Deps) : Prop :=
  ∀ (rows : Rows) (actions : List (Action ι)) (w : World ι)
    (requestId nodeId operatorAddress : String) (now : Nat),
    Transition.replay (World.step cfg) (World.start rows) actions = some w →
    (actions.filterMap (·.reading i) ++ [now]).Pairwise (· ≤ ·) →
    ((w.service i).recordRouting requestId nodeId operatorAddress now).Young now

/-- Notes expire while no routing moves one out of its place, and only then. -/
theorem notes_expire (cfg : Deps) (rows : Rows) (actions : List (Action ι)) (w : World ι)
    (requestId nodeId operatorAddress : String) (now : Nat)
    (replayed : Transition.replay (World.step cfg) (World.start rows) actions = some w)
    (clock : (actions.filterMap (·.reading i) ++ [now]).Pairwise (· ≤ ·))
    (places : Transition.Allows (World.step cfg) (World.InPlace i) (World.start rows) actions) :
    ((w.service i).recordRouting requestId nodeId operatorAddress now).Young now ∧
      ((w.service i).InPlace requestId now ↔
        ∀ requestId' nodeId' operatorAddress' later, now ≤ later →
          (((w.service i).recordRouting requestId nodeId operatorAddress now).recordRouting requestId'
            nodeId' operatorAddress' later).Young later) := by
  have start : ((World.start rows : World ι).service i).Aged 0 :=
    ⟨.empty, by simp [World.start, init, OrderedMap.empty]⟩
  have aged := aged_replay i cfg actions start places
    (List.pairwise_cons.mpr ⟨fun _ _ => Nat.zero_le _, clock⟩) replayed
  exact ⟨aged.recordRouting_young requestId nodeId operatorAddress now,
    aged.inPlace_iff requestId nodeId operatorAddress le_rfl⟩

end expiry

def routes (calls : List (String × Nat)) : List (Action Unit) :=
  calls.map fun call => .recordRouting () call.1 "node-a" "OPERATOR" call.2

-- The retry re-records its own request before any other is routed.
theorem notes_expire_retried :
    (((Service.init.recordRouting "r1" "node-a" "OPERATOR" 0).recordRouting "r1" "node-a" "OPERATOR"
      5).recordRouting "r2" "node-b" "OPERATOR-B" 600002).Young 600002 := by
  refine (notes_expire () World.demoDeps .empty (routes [("r1", 0), ("r1", 5)]) _ "r2" "node-b"
    "OPERATOR-B" 600002 rfl (by decide) ⟨fun _ => ?_, ?_⟩).1
  · decide
  · intro w taken
    cases taken
    exact ⟨fun _ => by decide, fun _ _ => trivial⟩

theorem note_outlives : ¬ NotesExpire () World.demoDeps := by
  intro expire
  have young := expire .empty (routes [("r1", 0), ("r2", 1), ("r1", 2)]) _ "r3" "node-b" "OPERATOR-B"
    600001 rfl (by decide) ("r2", ⟨"node-a", "OPERATOR", 1⟩) (by decide)
  revert young
  decide

end X402Mesh.Settlement
