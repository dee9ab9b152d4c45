import X402Mesh.Registry.LedgerStore
import X402Mesh.Settlement.Frame

set_option autoImplicit false

-- The service keeps its ledger oldest first in a map, and the store keeps it newest first in a
-- list. Each evicts on its own, and each tells an insert from an update in its own way.

namespace X402Mesh.Settlement

open Registry

variable (cfg : Deps)

def Service.getSettlementLedger (svc : Service) : List SettlementRecord := svc.ledger.values.reverse

def StoreOp.ledgerPut : StoreOp → Option SettlementRecord
  | .putLedger record => some record
  | _ => none

def Service.ledgerPuts (svc : Service) (key : String) : List SettlementRecord :=
  (svc.pending key).filterMap StoreOp.ledgerPut

-- What is queued between two states of the service, each put on the chain of its request.
def Queues (before after : Service) (puts : List SettlementRecord) : Prop :=
  ∀ key, after.ledgerPuts key =
    before.ledgerPuts key ++ puts.filter fun record => key = "ledger:" ++ record.requestId

/-- What code of the service does to the ledger: it calls `remember`, or `update` for a request that
the ledger has, or does something else that changes neither the ledger nor what is queued for it.
The list is that of the puts, in the order in which they were queued. -/
inductive Issues (svc : Service) : List SettlementRecord → Service → Prop
  | refl : Issues svc [] svc
  | remember {puts more : List SettlementRecord} {s : Service} (record : SettlementRecord) :
    Issues svc puts s → Queues s (Service.remember cfg s record) more →
      Issues svc (puts ++ more) (Service.remember cfg s record)
  | update {puts more : List SettlementRecord} {s : Service} (record : SettlementRecord) :
    Issues svc puts s → s.ledger.contains record.requestId = true →
      Queues s (Service.update cfg s record.requestId record) more →
      Issues svc (puts ++ more) (Service.update cfg s record.requestId record)
  | other {puts : List SettlementRecord} {s s' : Service} :
    Issues svc puts s → s'.ledger = s.ledger → Queues s s' [] → Issues svc puts s'

-- A store to which puts are applied one after another.
def applyPuts (maxEntries : Nat) (keys : LedgerKeys StoredRecord)
    (puts : List SettlementRecord) : LedgerKeys StoredRecord :=
  puts.foldl (fun keys record => keys.put record.requestId record.stored maxEntries) keys

structure Mirrors (cap : Nat) (ledger : OrderedMap String SettlementRecord)
    (keys : LedgerKeys StoredRecord) : Prop where
  keyed : ∀ id record, ledger.get? id = some record → record.requestId = id
  capped : ledger.size ≤ cap
  records : ∀ id, keys.records id = (ledger.get? id).map (·.stored)
  order : 0 < cap → keys.order = ledger.keys.reverse

theorem mirrors_empty (cap : Nat) : Mirrors cap .empty .empty :=
  ⟨nofun, Nat.zero_le _, fun _ => rfl, fun _ => rfl⟩

variable {cap : Nat} {ledger : OrderedMap String SettlementRecord} {keys : LedgerKeys StoredRecord}

theorem Mirrors.set (mirrors : Mirrors cap ledger keys) {record : SettlementRecord}
    (known : (ledger.get? record.requestId).isSome) :
    Mirrors cap (ledger.set record.requestId record)
      (keys.put record.requestId record.stored cap) := by
  have stored : (keys.records record.requestId).isSome := by
    rw [mirrors.records, Option.isSome_map]
    exact known
  have same := ledger.keys_set record.requestId record
  rw [if_pos known] at same
  rw [LedgerKeys.put_known stored]
  constructor
  case keyed =>
    intro id row found
    rw [OrderedMap.get?_set] at found
    split at found
    next own =>
      obtain rfl := Option.some.inj found
      exact own.symm
    next => exact mirrors.keyed id row found
  case capped =>
    rw [← OrderedMap.length_keys, same, OrderedMap.length_keys]
    exact mirrors.capped
  case records =>
    intro id
    simp only [LedgerKeys.set, Function.update_apply, OrderedMap.get?_set]
    split
    next => rfl
    next => exact mirrors.records id
  case order =>
    intro some
    rw [same]
    exact mirrors.order some

theorem Mirrors.insert (mirrors : Mirrors cap ledger keys) {record : SettlementRecord}
    (absent : ledger.get? record.requestId = none) :
    Mirrors cap
      ((ledger.set record.requestId record).drop
        ((ledger.set record.requestId record).size - cap))
      (keys.put record.requestId record.stored cap) := by
  have unstored : keys.records record.requestId = none := by
    rw [mirrors.records, absent]
    rfl
  have grown := ledger.keys_set record.requestId record
  rw [absent, Option.isSome_none, if_neg Bool.false_ne_true] at grown
  have longer : (ledger.set record.requestId record).size = ledger.size + 1 := by
    rw [← OrderedMap.length_keys, grown, List.length_append, OrderedMap.length_keys]
    rfl
  have reversed (some : 0 < cap) : record.requestId :: keys.order =
      (ledger.set record.requestId record).keys.reverse := by
    rw [grown, mirrors.order some, List.reverse_append]
    rfl
  constructor
  case keyed =>
    intro id row found
    have before := OrderedMap.get?_drop_some _ _ _ _ found
    rw [OrderedMap.get?_set] at before
    split at before
    next own =>
      obtain rfl := Option.some.inj before
      exact own.symm
    next => exact mirrors.keyed id row before
  case capped =>
    rw [← OrderedMap.length_keys, OrderedMap.keys_drop, List.length_drop, OrderedMap.length_keys]
    omega
  case records =>
    intro id
    rw [LedgerKeys.records_put unstored, OrderedMap.get?_drop, OrderedMap.get?_set]
    rcases Nat.eq_zero_or_pos cap with none_kept | some
    next =>
      subst none_kept
      have empty : ledger.get? id = none :=
        ledger.size_eq_zero.mp (Nat.le_zero.mp mirrors.capped) id
      have all : (ledger.set record.requestId record).keys.take
          ((ledger.set record.requestId record).size - 0) =
            (ledger.set record.requestId record).keys := by
        rw [Nat.sub_zero, ← OrderedMap.length_keys, List.take_length]
      rw [all, grown, mirrors.records, empty]
      by_cases own : id = record.requestId
      · simp [own]
      · simp [own]
    next =>
      have dropped : (record.requestId :: keys.order).drop cap =
          ((ledger.set record.requestId record).keys.take
            ((ledger.set record.requestId record).size - cap)).reverse := by
        rw [reversed some, List.drop_reverse, OrderedMap.length_keys]
      rw [dropped, mirrors.records]
      simp only [List.mem_reverse]
      split
      next => rfl
      next => split <;> rfl
  case order =>
    intro some
    rw [LedgerKeys.order_put unstored _ some, reversed some, List.take_reverse,
      OrderedMap.length_keys, OrderedMap.keys_drop]

theorem Mirrors.remember (mirrors : Mirrors cap ledger keys) (record : SettlementRecord) :
    Mirrors cap
      ((ledger.set record.requestId record).drop
        ((ledger.set record.requestId record).size - cap))
      (keys.put record.requestId record.stored cap) := by
  cases known : ledger.get? record.requestId with
  | none => exact mirrors.insert known
  | some row =>
    have present : (ledger.get? record.requestId).isSome := by
      rw [known]
      rfl
    have kept := mirrors.set present
    rw [Nat.sub_eq_zero_of_le kept.capped]
    exact kept

theorem applyPuts_append (keys : LedgerKeys StoredRecord) (puts more : List SettlementRecord) :
    applyPuts cap keys (puts ++ more) = applyPuts cap (applyPuts cap keys puts) more :=
  List.foldl_append

theorem persistLedger_ledger (svc : Service) (record : SettlementRecord) :
    (Service.persistLedger cfg svc record).ledger = svc.ledger := by
  unfold Service.persistLedger
  split <;> rfl

theorem remember_ledger (svc : Service) (record : SettlementRecord) :
    (Service.remember cfg svc record).ledger =
      (svc.ledger.set record.requestId record).drop
        ((svc.ledger.set record.requestId record).size - cfg.maxLedgerEntries) := by
  simp only [Service.remember, Service.evict, persistLedger_ledger]

theorem update_ledger (svc : Service) (record : SettlementRecord)
    (known : svc.ledger.contains record.requestId = true) :
    (Service.update cfg svc record.requestId record).ledger =
      svc.ledger.set record.requestId record := by
  rw [Service.update, if_pos known, persistLedger_ledger]

theorem update_evicted (svc : Service) {requestId : String}
    (evicted : svc.ledger.get? requestId = none) (record : SettlementRecord) :
    Service.update cfg svc requestId record = svc := by
  rw [Service.update, if_neg (by simp [OrderedMap.contains, evicted])]

theorem persistLedger_queues (svc : Service) (record : SettlementRecord) :
    Queues svc (Service.persistLedger cfg svc record)
      (if cfg.ledgerStore then [record] else []) := by
  intro key
  unfold Service.persistLedger
  split
  next =>
    rw [Service.ledgerPuts, Service.pending_enqueueWrite, List.filterMap_append,
      List.filter_singleton]
    by_cases own : key = "ledger:" ++ record.requestId <;>
      simp [own, Service.ledgerPuts, StoreOp.ledgerPut]
  next => simp

theorem Queues.unique {before after : Service} {record : SettlementRecord}
    {puts : List SettlementRecord} (queued : Queues before after [record])
    (told : Queues before after puts) : puts = [record] := by
  have filtered (key : String) : (puts.filter fun r => key = "ledger:" ++ r.requestId) =
      [record].filter fun r => key = "ledger:" ++ r.requestId :=
    List.append_cancel_left ((told key).symm.trans (queued key))
  have same : ∀ r ∈ puts, r = record := by
    intro r member
    have own : r ∈ puts.filter fun other => "ledger:" ++ r.requestId =
        "ledger:" ++ other.requestId := List.mem_filter.mpr ⟨member, by simp⟩
    rw [filtered] at own
    exact List.mem_singleton.mp (List.mem_of_mem_filter own)
  have whole := filtered ("ledger:" ++ record.requestId)
  rw [List.filter_eq_self.mpr fun r member => by simp [same r member]] at whole
  simpa using whole

theorem remember_queues (svc : Service) (record : SettlementRecord) :
    Queues svc (Service.remember cfg svc record) (if cfg.ledgerStore then [record] else []) :=
  persistLedger_queues cfg { svc with ledger := svc.ledger.set record.requestId record } record

theorem update_queues (svc : Service) (record : SettlementRecord)
    (known : svc.ledger.contains record.requestId = true) :
    Queues svc (Service.update cfg svc record.requestId record)
      (if cfg.ledgerStore then [record] else []) := by
  rw [Service.update, if_pos known]
  exact persistLedger_queues cfg { svc with ledger := svc.ledger.set record.requestId record } record

theorem Issues.queues {puts : List SettlementRecord} {before after : Service}
    (issued : Issues cfg before puts after) : Queues before after puts := by
  have chained {puts more : List SettlementRecord} {a b c : Service} (first : Queues a b puts)
      (second : Queues b c more) : Queues a c (puts ++ more) := by
    intro key
    rw [second key, first key, List.append_assoc, List.filter_append]
  induction issued with
  | refl => exact fun key => by simp
  | remember _ _ told ih => exact chained ih told
  | update _ _ _ told ih => exact chained ih told
  | other _ _ told ih => simpa using chained ih told

theorem Issues.mirrors (durable : cfg.ledgerStore = true) {puts : List SettlementRecord}
    {before after : Service} (issued : Issues cfg before puts after)
    (mirrors : Mirrors cfg.maxLedgerEntries before.ledger keys) :
    Mirrors cfg.maxLedgerEntries after.ledger (applyPuts cfg.maxLedgerEntries keys puts) := by
  induction issued with
  | refl => exact mirrors
  | @remember puts more s record _ told ih =>
    have queued := remember_queues cfg s record
    rw [if_pos durable] at queued
    rw [queued.unique told, applyPuts_append, remember_ledger]
    exact ih.remember record
  | @update puts more s record _ known told ih =>
    have queued := update_queues cfg s record known
    rw [if_pos durable] at queued
    rw [queued.unique told, applyPuts_append, update_ledger cfg _ record known]
    exact ih.set known
  | other _ same _ ih =>
    rw [same]
    exact ih

theorem Mirrors.loadRecent (mirrors : Mirrors cap ledger keys) :
    keys.loadRecent cap = (ledger.values.map (·.stored)).reverse := by
  rw [LedgerKeys.loadRecent_eq]
  rcases Nat.eq_zero_or_pos cap with none_kept | some
  next =>
    subst none_kept
    have empty := ledger.size_eq_zero.mp (Nat.le_zero.mp mirrors.capped)
    have nothing : ledger.values = [] := by
      apply List.eq_nil_iff_forall_not_mem.mpr
      intro record member
      obtain ⟨id, found⟩ := (ledger.mem_values record).mp member
      rw [empty id] at found
      cases found
    rw [nothing]
    apply List.filterMap_eq_nil_iff.mpr
    intro id _
    rw [mirrors.records, empty id]
    rfl
  next =>
    have order := mirrors.order some
    have within : keys.order.length ≤ cap := by
      rw [order, List.length_reverse, OrderedMap.length_keys]
      exact mirrors.capped
    have rows : keys.records = fun id => (ledger.get? id).map (·.stored) := funext mirrors.records
    rw [keys.ltrim_within within, order, rows, List.filterMap_reverse,
      ledger.filterMap_keys (·.stored)]

theorem hydrateLedger_stored (durable : cfg.ledgerStore = true) (svc : Service)
    (records : List SettlementRecord) :
    (Service.hydrateLedger cfg svc (some (records.map (·.stored)).reverse)).ledger =
      records.foldl (fun ledger record => ledger.set record.requestId record) svc.ledger := by
  simp only [Service.hydrateLedger, if_pos durable, List.reverse_reverse]
  induction records generalizing svc with
  | nil => rfl
  | cons record rest ih => exact ih _

theorem Mirrors.hydrateLedger (mirrors : Mirrors cap ledger keys)
    (durable : cfg.ledgerStore = true) :
    (Service.hydrateLedger cfg .init (some (keys.loadRecent cap))).ledger = ledger := by
  have each : ∀ built : OrderedMap String SettlementRecord, ∀ entry ∈ ledger.entries,
      built.set entry.2.requestId entry.2 = built.set entry.1 entry.2 := by
    intro built entry member
    rw [mirrors.keyed entry.1 entry.2 ((ledger.get?_eq_some _ _).mpr member)]
  rw [mirrors.loadRecent, hydrateLedger_stored cfg durable, OrderedMap.values, List.foldl_map]
  exact (List.foldl_ext _ _ _ each).trans ledger.foldl_set

def Logs (before after : Service) : Prop := ∃ puts, Issues cfg before puts after

variable {cfg}

theorem Issues.trans {a b c : Service} {left right : List SettlementRecord}
    (first : Issues cfg a left b) (second : Issues cfg b right c) :
    Issues cfg a (left ++ right) c := by
  induction second with
  | refl => simpa using first
  | remember record _ told ih =>
    rw [← List.append_assoc]
    exact .remember record ih told
  | update record _ known told ih =>
    rw [← List.append_assoc]
    exact .update record ih known told
  | other _ same told ih => exact .other ih same told

namespace Logs

theorem refl (svc : Service) : Logs cfg svc svc := ⟨[], .refl⟩

theorem trans {a b c : Service} (first : Logs cfg a b) (second : Logs cfg b c) : Logs cfg a c := by
  obtain ⟨left, issued⟩ := first
  obtain ⟨right, issued'⟩ := second
  exact ⟨left ++ right, issued.trans issued'⟩

theorem other {before after : Service} (ledger : after.ledger = before.ledger)
    (puts : ∀ key, after.ledgerPuts key = before.ledgerPuts key) : Logs cfg before after :=
  ⟨[], .other .refl ledger fun key => by simp [puts key]⟩

theorem quiet {before after : Service} (ledger : after.ledger = before.ledger)
    (chains : after.writeChains = before.writeChains) : Logs cfg before after := by
  apply other ledger
  intro key
  rw [Service.ledgerPuts, Service.pending, Service.chain, chains]
  rfl

theorem after_quiet {a b c : Service} (rest : Logs cfg b c) (ledger : b.ledger = a.ledger)
    (chains : b.writeChains = a.writeChains) : Logs cfg a c :=
  (quiet ledger chains).trans rest

theorem foldl {α : Type} (f : Service → α → Service) (l : List α)
    (each : ∀ svc, ∀ a ∈ l, Logs cfg svc (f svc a)) (svc : Service) :
    Logs cfg svc (l.foldl f svc) := by
  induction l generalizing svc with
  | nil => exact refl svc
  | cons a rest ih =>
    have first := each svc a List.mem_cons_self
    exact first.trans (ih (fun svc b member => each svc b (List.mem_cons_of_mem a member)) _)

end Logs

namespace Service

variable (cfg)

theorem enqueueStore_logs (svc : Service) (operatorAddress : String) {ops : List StoreOp}
    (rows : ops.filterMap StoreOp.ledgerPut = []) :
    Logs cfg svc (enqueueStore cfg svc operatorAddress ops) := by
  unfold enqueueStore
  split
  next =>
    have same : (svc.enqueueWrite operatorAddress ops).ledger = svc.ledger := rfl
    apply Logs.other same
    intro key
    rw [ledgerPuts, pending_enqueueWrite, List.filterMap_append]
    split
    next => simp [rows, ledgerPuts]
    next => simp [ledgerPuts]
  next => exact .refl svc

theorem remember_logs (svc : Service) (record : SettlementRecord) :
    Logs cfg svc (remember cfg svc record) :=
  ⟨_, .remember record .refl (remember_queues cfg svc record)⟩

theorem update_logs (svc : Service) (record : SettlementRecord) :
    Logs cfg svc (update cfg svc record.requestId record) := by
  cases known : svc.ledger.get? record.requestId with
  | none =>
    rw [update_evicted cfg svc known]
    exact .refl svc
  | some row =>
    have present : svc.ledger.contains record.requestId = true := by
      rw [OrderedMap.contains, known]
      rfl
    exact ⟨_, .update record .refl present (update_queues cfg svc record present)⟩

theorem updateAll_logs (svc : Service) (records : List SettlementRecord)
    {revise : SettlementRecord → SettlementRecord}
    (kept : ∀ record, (revise record).requestId = record.requestId) :
    Logs cfg svc (updateAll cfg svc records revise) := by
  apply Logs.foldl
  intro svc record _
  rw [← kept record]
  exact update_logs cfg svc (revise record)

theorem runPayout_logs (svc : Service) (job : PayoutJob) : Logs cfg svc (runPayout cfg svc job) :=
  .quiet rfl rfl

theorem finalizeSettled_logs (svc : Service) (records : List SettlementRecord)
    (txId batchId : Option String) (settledAt : Nat) :
    Logs cfg svc (finalizeSettled cfg svc records txId batchId settledAt) := by
  have dropped : Logs cfg svc (svc.dropLiability batchId) := by
    cases batchId with
    | none => exact .refl svc
    | some batchId => exact .quiet rfl rfl
  have released (svc : Service) (operatorAddress : String) :
      Logs cfg svc (releaseBatch cfg svc batchId operatorAddress) := by
    cases batchId with
    | none => exact .refl svc
    | some batchId => exact enqueueStore_logs cfg svc operatorAddress rfl
  exact (dropped.trans (released _ _)).trans (updateAll_logs cfg _ records fun _ => rfl)

theorem annotate_logs (svc : Service) (batchId : Option String) (reason : String)
    (attemptAt : Nat) : Logs cfg svc (svc.annotate batchId reason attemptAt) := by
  unfold annotate
  split
  next => exact .refl svc
  next =>
    split
    next => exact .refl svc
    next => exact .quiet rfl rfl

theorem finalize_logs (svc : Service) (job : PayoutJob) (progress : Progress)
    (attemptAt settledAt : Nat) : Logs cfg svc (finalize cfg svc job progress attemptAt settledAt) := by
  cases progress with
  | settled txId => exact finalizeSettled_logs cfg svc job.records (some txId) job.batchId settledAt
  | failed reason =>
    exact (annotate_logs cfg svc job.batchId reason attemptAt).trans
      (updateAll_logs cfg _ job.records fun _ => rfl)
  | _ => exact .refl svc

theorem resumePayout_logs {svc svc' : Service} {index : Nat} {event : PayoutEvent}
    {attemptAt settledAt : Nat}
    (resumed : resumePayout cfg svc index event attemptAt settledAt = some svc') :
    Logs cfg svc svc' := by
  simp only [resumePayout, Option.bind_eq_bind, Option.bind_eq_some_iff, Option.pure_def,
    Option.some.injEq] at resumed
  obtain ⟨run, -, progress, -, rfl⟩ := resumed
  exact (finalize_logs cfg _ run.job progress attemptAt settledAt).after_quiet rfl rfl

theorem flushAccrual_logs (svc : Service) (operatorAddress : String) (now : Nat) :
    Logs cfg svc (flushAccrual cfg svc operatorAddress now) := by
  unfold flushAccrual
  split
  next => exact .refl svc
  next accrual _ =>
    split
    next => exact .refl svc
    next =>
      split
      next => exact .quiet rfl rfl
      next summed _ =>
        unfold carve
        apply Logs.trans _ (runPayout_logs cfg _ _)
        exact (enqueueStore_logs cfg _ operatorAddress rfl).after_quiet rfl rfl

theorem flushPayouts_logs (svc : Service) (now : Nat → Nat) :
    Logs cfg svc (flushPayouts cfg svc now) := by
  apply Logs.foldl
  intro svc operatorAddress _
  exact flushAccrual_logs cfg svc operatorAddress _

theorem push_logs (svc : Service) (record : SettlementRecord) (payout : Int)
    (accruedAt flushedAt : Nat) : Logs cfg svc (push cfg svc record payout accruedAt flushedAt) := by
  have put : Logs cfg svc (svc.putAccrual (svc.extended record payout accruedAt)) := .quiet rfl rfl
  unfold push
  dsimp only
  split
  next => exact put.trans (flushAccrual_logs cfg _ _ _)
  next =>
    split
    next => exact put.trans (flushAccrual_logs cfg _ _ _)
    next =>
      have persisted : Logs cfg (svc.putAccrual (svc.extended record payout accruedAt))
          (persistOpen cfg (svc.putAccrual (svc.extended record payout accruedAt))
            (svc.extended record payout accruedAt)) :=
        enqueueStore_logs cfg _ _ rfl
      exact (put.trans persisted).trans (.quiet rfl rfl)

theorem schedule_logs (svc : Service) (record : SettlementRecord) (now : Readings) :
    Logs cfg svc (schedule cfg svc record now) := by
  unfold schedule
  split
  next => exact .refl svc
  next payout _ =>
    split
    next => exact finalizeSettled_logs cfg svc [record] none none now.accruedAt
    next =>
      have accepted : Logs cfg svc { svc with accepted := svc.accepted ++ [record] } := .quiet rfl rfl
      dsimp only
      split
      next =>
        have updated := update_logs cfg { svc with accepted := svc.accepted ++ [record] }
          { record with status := .accrued }
        exact (accepted.trans updated).trans (push_logs cfg _ record payout _ _)
      next => exact accepted.trans (runPayout_logs cfg _ _)

theorem settleInbound_logs (svc : Service) (inbound : InboundSettlement) (now : Readings) :
    Logs cfg svc (settleInbound cfg svc inbound now) := by
  unfold settleInbound
  split
  next => exact .refl svc
  next note _ =>
    dsimp only
    split
    next => exact .quiet rfl rfl
    next =>
      split
      next => exact .quiet rfl rfl
      next record _ =>
        have claimed : Logs cfg svc
            { svc with
              routing := svc.routing.erase inbound.requestId
              claimed := inbound.requestId :: svc.claimed } := .quiet rfl rfl
        exact (claimed.trans (remember_logs cfg _ record)).trans (schedule_logs cfg _ record now)

theorem reseed_logs (svc : Service) (records : List SettlementRecord) :
    Logs cfg svc (reseed cfg svc records) := by
  apply Logs.foldl
  intro svc record _
  have claimed : Logs cfg svc { svc with claimed := record.requestId :: svc.claimed } :=
    .quiet rfl rfl
  dsimp only
  split
  next => exact claimed
  next => exact claimed.trans (remember_logs cfg _ record)

theorem dropRecovered_logs (svc : Service) (stored : PersistedAccrual) :
    Logs cfg svc (dropRecovered cfg (svc.dropLiability stored.batchId) stored) := by
  unfold dropRecovered dropLiability
  split
  next =>
    split
    next => exact enqueueStore_logs cfg _ _ rfl
    next => exact (enqueueStore_logs cfg _ _ rfl).after_quiet rfl rfl
  next =>
    split
    next => exact enqueueStore_logs cfg _ _ rfl
    next => exact (enqueueStore_logs cfg _ _ rfl).after_quiet rfl rfl

theorem payRow_logs (svc : Service) (stored : PersistedAccrual) (records : List StoredRecord)
    (summed : Int) (batchId : String) (resumed : Bool) :
    Logs cfg svc (payRow cfg svc stored records summed batchId resumed) := by
  unfold payRow
  apply Logs.trans _ (runPayout_logs cfg _ _)
  refine (enqueueStore_logs cfg _ _ ?_).after_quiet rfl rfl
  cases resumed <;> rfl

theorem recoverRow_logs (now : Nat → Nat) (state : Recovery) (stored : PersistedAccrual) :
    Logs cfg state.svc (recoverRow cfg now state stored).svc := by
  unfold recoverRow
  split
  next => exact .refl _
  next =>
    dsimp only
    split
    next => exact dropRecovered_logs cfg state.svc stored
    next =>
      have seeded := reseed_logs cfg state.svc ((payable state.handled stored).map (·.cast))
      split
      next => exact seeded
      next =>
        split
        next => exact seeded.trans (dropRecovered_logs cfg _ stored)
        next =>
          apply seeded.trans
          unfold recoverPay
          split
          next => exact payRow_logs cfg _ _ _ _ _ _
          next => exact (payRow_logs cfg _ _ _ _ _ _).after_quiet rfl rfl

theorem recoverAccruals_logs (svc : Service)
    (loaded : Option (List PersistedAccrual × List PersistedAccrual)) (now : Nat → Nat) :
    Logs cfg svc (recoverAccruals cfg svc loaded now) := by
  have rows (stored : List PersistedAccrual) (state : Recovery) :
      Logs cfg state.svc (stored.foldl (recoverRow cfg now) state).svc := by
    induction stored generalizing state with
    | nil => exact .refl _
    | cons row rest ih => exact (recoverRow_logs cfg now state row).trans (ih _)
  unfold recoverAccruals
  split
  next =>
    split
    next => exact .refl svc
    next => exact rows _ ⟨svc, [], false⟩
  next => exact .refl svc

end Service

namespace World

variable {ι : Type} [DecidableEq ι]

-- What happens to a process that booted on an empty ledger store and stays up.
def served (i : ι) : Action ι → Prop
  | .restart j => j ≠ i
  | .boot j .. => j ≠ i
  | .hydrateLedger j history => j = i → history = some []
  | _ => True

theorem turn_logs {w : World ι} {i j : ι} {svc : Service} (logs : Logs cfg (w.service j) svc) :
    Logs cfg (w.service i) ((w.turn j svc).service i) := by
  rw [turn_service]
  split
  next same =>
    subst same
    exact logs.trans (.quiet rfl rfl)
  next => exact .refl _

theorem setWrites_logs {w : World ι} {i j : ι} {key : String} {works : List (Work StoreOp)}
    (same : j = i → (WriteChain.pending works).filterMap StoreOp.ledgerPut =
      (w.service i).ledgerPuts key) :
    Logs cfg (w.service i) ((w.setWrites j key works).service i) := by
  rw [setWrites_service]
  split
  next own =>
    subst own
    apply Logs.other
    next => rfl
    next =>
      intro other
      rw [Service.ledgerPuts, Service.pending_setChain]
      split
      next own =>
        subst own
        exact same rfl
      next => rfl
  next => exact .refl _

theorem ledgerPut_serialize (arrays : String → Nat → List SettlementRecord) (op : StoreOp) :
    (op.serialize arrays).ledgerPut = op.ledgerPut := by
  cases op <;> rfl

-- The action takes no put off the chains of process `i`.
def Spares (w : World ι) (i : ι) : Action ι → Prop
  | .applyWrite j key => j = i → ∀ op works,
    WriteChain.apply ((w.service i).chain key) = some (op, works) → op.ledgerPut = none
  | .rejectWrite j key => j = i → ∀ works,
    WriteChain.reject ((w.service i).chain key) = some works →
      (WriteChain.pending works).filterMap StoreOp.ledgerPut = (w.service i).ledgerPuts key
  | _ => True

theorem step_logs {w w' : World ι} {i : ι} {a : Action ι} (up : served i a)
    (spares : w.Spares i a) (taken : step cfg w a = some w') :
    Logs cfg (w.service i) (w'.service i) := by
  cases a with
  | recordRouting j requestId nodeId operatorAddress now =>
    cases taken
    exact turn_logs (.quiet rfl rfl)
  | settleInbound j inbound now =>
    cases taken
    exact turn_logs (Service.settleInbound_logs cfg _ inbound now)
  | deadline j operatorAddress now =>
    rw [deadline_inv taken]
    exact turn_logs (Service.flushAccrual_logs cfg _ operatorAddress now)
  | flushPayouts j now =>
    cases taken
    exact turn_logs (Service.flushPayouts_logs cfg _ now)
  | payout j index event attemptAt settledAt =>
    obtain ⟨svc, run, progress, resumed, -, -, rfl⟩ := payout_inv taken
    exact turn_logs (w := w.recordOutcome run.job event progress)
      (Service.resumePayout_logs cfg resumed)
  | callWrite j key =>
    obtain ⟨works, called, rfl⟩ := callWrite_inv taken
    obtain ⟨op, rest, before, after⟩ := WriteChain.pending_call _ _ _ called
    apply setWrites_logs
    rintro rfl
    rw [Service.ledgerPuts, Service.pending, before, after, List.filterMap_cons,
      List.filterMap_cons, ledgerPut_serialize]
  | applyWrite j key =>
    obtain ⟨op, works, rows, applied, -, rfl⟩ := applyWrite_inv taken
    apply setWrites_logs (w := w.withRows rows)
    rintro rfl
    have before := WriteChain.pending_apply _ _ _ applied
    change _ = ((w.service j).pending key).filterMap _
    rw [Service.pending, before, List.filterMap_cons_none (spares rfl op works applied)]
  | resolveWrite j key =>
    obtain ⟨op, works, resolved, rfl⟩ := resolveWrite_inv taken
    apply setWrites_logs (w := { w with trace := w.trace ++ completed op })
    rintro rfl
    rw [WriteChain.pending_resolve _ _ _ resolved]
    rfl
  | rejectWrite j key =>
    obtain ⟨works, rejected, rfl⟩ := rejectWrite_inv taken
    apply setWrites_logs
    rintro rfl
    exact spares rfl works rejected
  | readOpen j addresses =>
    rw [readOpen_inv taken]
    exact .refl _
  | readBatches j batchIds =>
    rw [readBatches_inv taken]
    exact .refl _
  | hydrateLedger j history =>
    cases taken
    by_cases same : j = i
    · have nothing := up same
      subst nothing
      apply turn_logs
      have unchanged : Service.hydrateLedger cfg (w.service j) (some []) = w.service j := by
        unfold Service.hydrateLedger
        split <;> rfl
      rw [unchanged]
      exact .refl _
    · rw [turn_service, if_neg (Ne.symm same)]
      exact .refl _
  | recoverAccruals j ok now =>
    cases taken
    exact turn_logs (Service.recoverAccruals_logs cfg _ _ now)
  | restart j =>
    cases taken
    rw [restart_service, if_neg (Ne.symm up)]
    exact .refl _
  | boot j addresses batchIds history ok now =>
    obtain ⟨-, -, rfl⟩ := boot_inv taken
    rw [turn_service, if_neg (Ne.symm up), restart_service, if_neg (Ne.symm up)]
    exact .refl _

/-- A world with the store that a process keeps its ledger in. The queue has the puts that were
issued and are still to be applied, in the order in which they were issued. -/
structure Backed (ι : Type) where
  world : World ι
  queue : List SettlementRecord
  keys : LedgerKeys StoredRecord

namespace Backed

variable (cfg)

/-- What the process issues goes to the end of the queue, and a write of the process that is a put
is applied when it is the first of the queue. -/
inductive Step (i : ι) (s : Backed ι) : Backed ι → Prop
  | turn {a : Action ι} {w' : World ι} {puts : List SettlementRecord} (up : served i a)
      (taken : World.step cfg s.world a = some w')
      (issued : Issues cfg (s.world.service i) puts (w'.service i)) :
      Step i s ⟨w', s.queue ++ puts, s.keys⟩
  | put {key : String} {record : SettlementRecord} {rest : List SettlementRecord}
      {works : List (Work StoreOp)} {w' : World ι} (first : s.queue = record :: rest)
      (next : WriteChain.apply ((s.world.service i).chain key) = some (.putLedger record, works))
      (taken : World.step cfg s.world (.applyWrite i key) = some w') :
      Step i s ⟨w', rest, s.keys.put record.requestId record.stored cfg.maxLedgerEntries⟩

structure Kept (i : ι) (s : Backed ι) : Prop where
  queued : ∀ key, (s.world.service i).ledgerPuts key =
    s.queue.filter fun record => key = "ledger:" ++ record.requestId
  mirrors : Mirrors cfg.maxLedgerEntries (s.world.service i).ledger
    (applyPuts cfg.maxLedgerEntries s.keys s.queue)

variable {cfg}

omit [DecidableEq ι] in
theorem init_kept {w : World ι} {i : ι} (fresh : w.service i = .init) :
    Kept cfg i ⟨w, [], .empty⟩ := by
  constructor
  case queued =>
    intro key
    simp only [fresh]
    rfl
  case mirrors =>
    simp only [fresh]
    exact mirrors_empty _

theorem Step.kept (durable : cfg.ledgerStore = true) {i : ι} {s s' : Backed ι}
    (kept : Kept cfg i s) (moved : Step cfg i s s') : Kept cfg i s' := by
  cases moved with
  | @turn a w' puts up taken issued =>
    constructor
    case queued =>
      intro key
      rw [issued.queues cfg key, kept.queued, List.filter_append]
    case mirrors =>
      rw [applyPuts_append]
      exact issued.mirrors cfg durable kept.mirrors
  | @put key record rest works w' first next taken =>
    obtain ⟨op, works', rows, applied, -, rfl⟩ := applyWrite_inv taken
    obtain ⟨rfl, rfl⟩ : StoreOp.putLedger record = op ∧ works = works' := by
      simpa using next.symm.trans applied
    have before := WriteChain.pending_apply _ _ _ next
    have head : (s.world.service i).ledgerPuts key =
        record :: (WriteChain.pending works).filterMap StoreOp.ledgerPut := by
      rw [Service.ledgerPuts, Service.pending, before]
      rfl
    have own : key = "ledger:" ++ record.requestId := by
      have member : record ∈ s.queue.filter fun r => key = "ledger:" ++ r.requestId := by
        rw [← kept.queued, head]
        exact List.mem_cons_self
      simpa using (List.mem_filter.mp member).2
    have service : ((s.world.withRows rows).setWrites i key works).service i =
        (s.world.service i).setChain key works := by
      rw [setWrites_service, if_pos rfl]
      rfl
    constructor
    case queued =>
      intro other
      have queued := kept.queued other
      rw [first] at queued
      rw [service, Service.ledgerPuts, Service.pending_setChain]
      by_cases same : other = key
      next =>
        rw [if_pos same]
        rw [same, head, List.filter_cons_of_pos (by simp [own])] at queued
        rw [same]
        exact (List.cons.inj queued).2
      next =>
        rw [if_neg same]
        rw [List.filter_cons_of_neg (by simpa [own] using same)] at queued
        exact queued
    case mirrors =>
      rw [service]
      have mirrors := kept.mirrors
      rw [first] at mirrors
      exact mirrors

-- A put is applied in its turn, and none is lost.
def InOrder (i : ι) (s : Backed ι) : Action ι → Prop
  | .applyWrite j key => j = i → ∀ record works,
    WriteChain.apply ((s.world.service i).chain key) = some (.putLedger record, works) →
      s.queue.head? = some record
  | .rejectWrite j key => s.world.Spares i (.rejectWrite j key)
  | _ => True

-- Such a step of the world is one of the world with its store.
theorem step_of_inOrder {i : ι} (s : Backed ι) {a : Action ι} {w' : World ι} (up : served i a)
    (inOrder : InOrder i s a) (taken : World.step cfg s.world a = some w') :
    ∃ s', Step cfg i s s' ∧ s'.world = w' := by
  have quiet (spares : s.world.Spares i a) : ∃ s', Step cfg i s s' ∧ s'.world = w' := by
    obtain ⟨puts, issued⟩ := step_logs up spares taken
    exact ⟨_, .turn up taken issued, rfl⟩
  cases a with
  | applyWrite j key =>
    by_cases own : j = i
    next =>
      subst own
      obtain ⟨op, works, rows, applied, -, -⟩ := applyWrite_inv taken
      cases put : op.ledgerPut with
      | some record =>
        obtain rfl : op = .putLedger record := by
          cases op <;> simp [StoreOp.ledgerPut] at put
          rw [put]
        obtain ⟨rest, first⟩ := List.head?_eq_some_iff.mp (inOrder rfl record works applied)
        exact ⟨_, .put first applied taken, rfl⟩
      | none =>
        apply quiet
        intro _ other works' again
        obtain ⟨rfl, -⟩ : op = other ∧ works = works' := by simpa using applied.symm.trans again
        exact put
    next => exact quiet fun same => absurd same own
  | rejectWrite j key => exact quiet inOrder
  | _ => exact quiet trivial

end Backed

end World

/-- A process that began on an empty ledger store, whose puts are applied one at a time in the order
in which it issued them, keeps its ledger within the cap, does not bring back a request that was
evicted, and once its chains hold no put it is followed by one that reads exactly its ledger back. No
step of the world that keeps to that order is left out. -/
theorem restart_keeps_ledger {ι : Type} [DecidableEq ι] (durable : cfg.ledgerStore = true)
    {w : World ι} {i : ι} (fresh : w.service i = .init) {s : World.Backed ι}
    (run : Relation.ReflTransGen (World.Backed.Step cfg i) ⟨w, [], .empty⟩ s) :
    (s.world.service i).ledger.size ≤ cfg.maxLedgerEntries ∧
      (∀ requestId, (s.world.service i).ledger.get? requestId = none →
        (applyPuts cfg.maxLedgerEntries s.keys s.queue).records requestId = none ∧
          ∀ record, Service.update cfg (s.world.service i) requestId record = s.world.service i) ∧
      (∀ key, (s.world.service i).ledgerPuts key =
        s.queue.filter fun record => key = "ledger:" ++ record.requestId) ∧
      ((∀ key, (s.world.service i).ledgerPuts key = []) →
        (Service.hydrateLedger cfg .init
          (some (s.keys.loadRecent cfg.maxLedgerEntries))).getSettlementLedger =
            (s.world.service i).getSettlementLedger) ∧
      ∀ a w', World.served i a → s.InOrder i a → World.step cfg s.world a = some w' →
        ∃ s', World.Backed.Step cfg i s s' ∧ s'.world = w' := by
  have kept : World.Backed.Kept cfg i s := by
    induction run with
    | refl => exact World.Backed.init_kept fresh
    | tail _ moved ih => exact moved.kept durable ih
  have mirrors := kept.mirrors
  refine ⟨mirrors.capped, ?_, kept.queued, ?_, fun a w' up inOrder taken =>
    s.step_of_inOrder up inOrder taken⟩
  next =>
    intro requestId evicted
    constructor
    · rw [mirrors.records, evicted]
      rfl
    · exact update_evicted cfg _ evicted
  next =>
    intro drained
    have empty : s.queue = [] := by
      apply List.eq_nil_iff_forall_not_mem.mpr
      intro record member
      have queued := kept.queued ("ledger:" ++ record.requestId)
      rw [drained] at queued
      exact List.not_mem_nil (queued ▸ List.mem_filter.mpr ⟨member, by simp⟩)
    rw [empty] at mirrors
    have same : (Service.hydrateLedger cfg .init
        (some (s.keys.loadRecent cfg.maxLedgerEntries))).ledger = (s.world.service i).ledger :=
      mirrors.hydrateLedger cfg durable
    rw [Service.getSettlementLedger, same, Service.getSettlementLedger]

-- A process that applies its puts before another request has one keeps to the order.
def World.alone {ι : Type} [DecidableEq ι] (i : ι) (w : World ι) : Action ι → Bool
  | .applyWrite j key => j ≠ i || (w.service i).writeChains.keys.all fun other =>
      other = key || ((w.service i).ledgerPuts other).isEmpty
  | .rejectWrite j _ | .restart j | .boot j .. => j ≠ i
  | .hydrateLedger j history => j ≠ i || history = some []
  | _ => true

theorem World.Backed.Kept.inOrder {ι : Type} {i : ι} {s : World.Backed ι} [DecidableEq ι]
    (kept : World.Backed.Kept cfg i s) {a : Action ι} (alone : s.world.alone i a = true) :
    World.served i a ∧ s.InOrder i a := by
  cases a with
  | applyWrite j key =>
    refine ⟨trivial, fun own record works applied => ?_⟩
    simp only [World.alone, own, ne_eq, not_true_eq_false, decide_false, Bool.false_or,
      List.all_eq_true, Bool.or_eq_true, decide_eq_true_eq, List.isEmpty_iff] at alone
    have before := WriteChain.pending_apply _ _ _ applied
    have head : (s.world.service i).ledgerPuts key =
        record :: (WriteChain.pending works).filterMap StoreOp.ledgerPut := by
      rw [Service.ledgerPuts, Service.pending, before]
      rfl
    have whole : (s.queue.filter fun r => key = "ledger:" ++ r.requestId) = s.queue := by
      apply List.filter_eq_self.mpr
      intro r member
      have queued := kept.queued ("ledger:" ++ r.requestId)
      have held : r ∈ (s.world.service i).ledgerPuts ("ledger:" ++ r.requestId) :=
        queued ▸ List.mem_filter.mpr ⟨member, by simp⟩
      have listed : "ledger:" ++ r.requestId ∈ (s.world.service i).writeChains.keys := by
        cases chain : (s.world.service i).writeChains.get? ("ledger:" ++ r.requestId) with
        | some works => exact ((s.world.service i).writeChains.mem_keys _).mpr ⟨works, chain⟩
        | none => simp [Service.ledgerPuts, Service.pending, Service.chain, chain] at held
      rcases alone _ listed with same | nothing
      · simp [same]
      · simp [nothing] at held
    rw [← whole, ← kept.queued, head]
    rfl
  | rejectWrite j key =>
    have other : j ≠ i := by simpa [World.alone] using alone
    exact ⟨trivial, fun own => absurd own other⟩
  | restart j | boot j =>
    have other : j ≠ i := of_decide_eq_true alone
    exact ⟨other, trivial⟩
  | hydrateLedger j history =>
    refine ⟨fun own => ?_, trivial⟩
    simpa [World.alone, own] using alone
  | _ => exact ⟨trivial, trivial⟩

theorem World.Backed.run_of_alone {ι : Type} [DecidableEq ι] {i : ι}
    (durable : cfg.ledgerStore = true) (actions : List (Action ι)) {s : World.Backed ι}
    {w' : World ι} (kept : World.Backed.Kept cfg i s)
    (replayed : Transition.replay
      (fun w a => if World.alone i w a then World.step cfg w a else none) s.world actions =
        some w') :
    ∃ s', Relation.ReflTransGen (World.Backed.Step cfg i) s s' ∧ s'.world = w' := by
  induction actions generalizing s with
  | nil => exact ⟨s, .refl, Option.some.inj replayed⟩
  | cons a rest ih =>
    obtain ⟨w, first, later⟩ := Option.bind_eq_some_iff.mp replayed
    obtain ⟨alone, taken⟩ := Option.ite_none_right_eq_some.mp first
    obtain ⟨up, inOrder⟩ := kept.inOrder alone
    obtain ⟨s₁, moved, rfl⟩ := s.step_of_inOrder up inOrder taken
    obtain ⟨s', run, same⟩ := ih (moved.kept durable kept) later
    exact ⟨s', .head moved run, same⟩

-- A ledger of one entry, and a batch of two requests that is paid after the first was evicted.
def oneEntry : Deps := { World.demoDeps with maxLedgerEntries := 1, ledgerStore := true }

def putOnce (requestId : String) : List (Action Unit) :=
  [.callWrite () ("ledger:" ++ requestId), .applyWrite () ("ledger:" ++ requestId),
    .resolveWrite () ("ledger:" ++ requestId)]

def evicting : List (Action Unit) :=
  World.paidFor () "r1" 0 ++ putOnce "r1" ++ putOnce "r1" ++ World.paidFor () "r2" 1 ++
    putOnce "r2" ++ putOnce "r2" ++ [.payout () 0 (.paid "TX") 2 3] ++ putOnce "r2"

def shown (svc : Service) : List (String × Status × Option String) :=
  svc.getSettlementLedger.map fun record => (record.requestId, record.status, record.payoutTxId)

theorem restart_keeps_ledger_evicting :
    ∃ s : World.Backed Unit,
      Relation.ReflTransGen (World.Backed.Step oneEntry ()) ⟨World.start .empty, [], .empty⟩ s ∧
        shown (Service.hydrateLedger oneEntry .init (some (s.keys.loadRecent 1))) =
          [("r2", .settled, some "TX")] := by
  have replayed : (Transition.replay
      (fun w a => if World.alone () w a then World.step oneEntry w a else none)
      (World.start .empty) evicting).map (fun w => (shown (w.service ()),
        (w.service ()).writeChains.keys.all fun key => ((w.service ()).ledgerPuts key).isEmpty)) =
      some ([("r2", .settled, some "TX")], true) := by
    decide
  obtain ⟨w, reached, ended⟩ := Option.map_eq_some_iff.mp replayed
  obtain ⟨rows, drained⟩ := Prod.ext_iff.mp ended
  obtain ⟨s, run, rfl⟩ :=
    World.Backed.run_of_alone rfl evicting (World.Backed.init_kept rfl) reached
  obtain ⟨-, -, -, read, -⟩ := restart_keeps_ledger rfl rfl run
  refine ⟨s, run, (congrArg (List.map _) (read ?_)).trans rows⟩
  intro key
  cases chain : (s.world.service ()).writeChains.get? key with
  | none => simp [Service.ledgerPuts, Service.pending, Service.chain, chain]
  | some works =>
    have listed := ((s.world.service ()).writeChains.mem_keys key).mpr ⟨works, chain⟩
    simpa using List.all_eq_true.mp drained key listed

end X402Mesh.Settlement
