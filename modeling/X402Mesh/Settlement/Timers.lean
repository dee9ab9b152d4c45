import X402Mesh.Lib.Transition
import X402Mesh.Settlement.Accounting
import X402Mesh.Settlement.Recovery
import X402Mesh.Settlement.World

set_option autoImplicit false

-- A timer calls back with the operator it was armed for, and the accrual that armed it holds its
-- handle, which is known here by the serial of that accrual.

namespace X402Mesh.Settlement

open Money Registry

structure Timer where
  operatorAddress : String
  serial : Nat
  dueAt : Nat
  deriving DecidableEq, Repr

/-- The `clock` is the time of the event loop, and `since` is a ghost: when the records of each
operator's accrual were added to it. -/
structure Timed where
  svc : Service
  clock : Nat
  timers : List Timer
  since : String → List Nat

inductive TimedAction
  | recordRouting (requestId nodeId operatorAddress : String) (now : Nat)
  | settleInbound (inbound : InboundSettlement) (now : Service.Readings)
  | flushPayouts (now : Nat → Nat)
  | fire (index now : Nat)
  | payout (index : Nat) (event : PayoutEvent) (attemptAt settledAt : Nat)
  | write (key : String) (works : List (Work StoreOp))
  | recoverAccruals (history : Option (List StoredRecord))
      (loaded : Option (List PersistedAccrual × List PersistedAccrual)) (now : Nat → Nat)
  | tick (clock : Nat)

namespace Timed

variable (cfg : Deps)

def init : Timed := ⟨.init, 0, [], fun _ => []⟩

def clearTimeout (t : Timed) (accrual : Accrual) : Timed :=
  if accrual.timer then
    { t with
      timers := t.timers.filter fun timer =>
        ¬ (timer.operatorAddress = accrual.operatorAddress ∧ timer.serial = accrual.serial) }
  else t

def setTimeout (t : Timed) (accrual : Accrual) : Timed :=
  if accrual.timer then t
  else
    { t with
      timers := t.timers ++
        [⟨accrual.operatorAddress, accrual.serial, t.clock + cfg.payoutBatchMaxDelayMs⟩] }

-- The accrual that is flushed, when there is one to flush.
def flushable (t : Timed) (operatorAddress : String) : Option Accrual :=
  (t.svc.accruals.get? operatorAddress).filter fun accrual => !accrual.records.isEmpty

def flushAccrual (t : Timed) (operatorAddress : String) (now : Nat) : Timed :=
  let cleared :=
    match t.flushable operatorAddress with
    | none => t
    | some accrual => t.clearTimeout accrual
  { cleared with svc := Service.flushAccrual cfg t.svc operatorAddress now }

def arrivals (t : Timed) (operatorAddress : String) : List Nat :=
  if t.svc.accruals.contains operatorAddress then t.since operatorAddress else []

def push (t : Timed) (record : SettlementRecord) (payout : Int) (accruedAt flushedAt : Nat) :
    Timed :=
  let accrual := t.svc.extended record payout accruedAt
  let t :=
    { t with
      svc := t.svc.putAccrual accrual
      since := Function.update t.since record.operatorAddress
        (t.arrivals record.operatorAddress ++ [t.clock]) }
  if accrual.totalAtomic ≥ cfg.batchMinAtomic then
    flushAccrual cfg t record.operatorAddress flushedAt
  else if accrual.records.length ≥ cfg.payoutBatchMaxRequests then
    flushAccrual cfg t record.operatorAddress flushedAt
  else
    setTimeout cfg
      { t with svc := (Service.persistOpen cfg t.svc accrual).armTimer accrual } accrual

def accrue (t : Timed) (record : SettlementRecord) (payout : Int) (accruedAt flushedAt : Nat) :
    Timed :=
  push cfg
    { t with svc := Service.update cfg t.svc record.requestId { record with status := .accrued } }
    record payout accruedAt flushedAt

def schedule (t : Timed) (record : SettlementRecord) (now : Service.Readings) : Timed :=
  match bigInt record.payoutAtomic with
  | none => t
  | some payout =>
    if payout = 0 then
      { t with svc := Service.finalizeSettled cfg t.svc [record] none none now.accruedAt }
    else
      let t := { t with svc := { t.svc with accepted := t.svc.accepted ++ [record] } }
      if cfg.batchMinAtomic > 0 then accrue cfg t record payout now.accruedAt now.flushedAt
      else
        { t with
          svc := Service.runPayout cfg t.svc
            ⟨record.requestId, record.operatorAddress, payout, [record], none, false⟩ }

def settleInbound (t : Timed) (inbound : InboundSettlement) (now : Service.Readings) : Timed :=
  match t.svc.routing.get? inbound.requestId with
  | none => t
  | some note =>
    let svc := { t.svc with routing := t.svc.routing.erase inbound.requestId }
    if inbound.requestId ∈ svc.claimed then { t with svc := svc }
    else
      let svc := { svc with claimed := inbound.requestId :: svc.claimed }
      match Service.openRecord cfg inbound note now.createdAt with
      | .error _ => { t with svc := svc }
      | .ok record => schedule cfg { t with svc := Service.remember cfg svc record } record now

def flushPayouts (t : Timed) (now : Nat → Nat) : Timed :=
  t.svc.accruals.keys.foldl
    (fun t operatorAddress => flushAccrual cfg t operatorAddress (now t.svc.batchSeq)) t

-- A timer fires when it is due, and is gone before its callback runs.
def fire (t : Timed) (index now : Nat) : Option Timed := do
  let timer ← t.timers[index]?
  if timer.dueAt ≤ t.clock then
    some (flushAccrual cfg { t with timers := t.timers.eraseIdx index } timer.operatorAddress now)
  else none

def step (t : Timed) : TimedAction → Option Timed
  | .recordRouting requestId nodeId operatorAddress now =>
    some { t with svc := t.svc.recordRouting requestId nodeId operatorAddress now }
  | .settleInbound inbound now => some (settleInbound cfg t inbound now)
  | .flushPayouts now => some (flushPayouts cfg t now)
  | .fire index now => fire cfg t index now
  | .payout index event attemptAt settledAt =>
    (Service.resumePayout cfg t.svc index event attemptAt settledAt).map fun svc =>
      { t with svc := svc }
  | .write key works => some { t with svc := t.svc.setChain key works }
  | .recoverAccruals history loaded now =>
    some { t with
      svc := Service.recoverAccruals cfg (Service.hydrateLedger cfg t.svc history) loaded now }
  | .tick clock => if t.clock ≤ clock then some { t with clock := clock } else none

-- No time passes over a timer that is due.
def punctual (t : Timed) : TimedAction → Prop
  | .tick clock => ∀ timer ∈ t.timers, clock ≤ timer.dueAt
  | _ => True

@[simp] theorem clearTimeout_svc (t : Timed) (accrual : Accrual) :
    (t.clearTimeout accrual).svc = t.svc := by
  unfold clearTimeout
  split <;> rfl

@[simp] theorem setTimeout_svc (t : Timed) (accrual : Accrual) :
    (setTimeout cfg t accrual).svc = t.svc := by
  unfold setTimeout
  split <;> rfl

@[simp] theorem flushAccrual_svc (t : Timed) (operatorAddress : String) (now : Nat) :
    (flushAccrual cfg t operatorAddress now).svc =
      Service.flushAccrual cfg t.svc operatorAddress now := rfl

theorem push_svc (t : Timed) (record : SettlementRecord) (payout : Int)
    (accruedAt flushedAt : Nat) :
    (push cfg t record payout accruedAt flushedAt).svc =
      Service.push cfg t.svc record payout accruedAt flushedAt := by
  unfold push Service.push
  dsimp only
  split
  · rfl
  · split
    · rfl
    · exact setTimeout_svc cfg _ _

theorem schedule_svc (t : Timed) (record : SettlementRecord) (now : Service.Readings) :
    (schedule cfg t record now).svc = Service.schedule cfg t.svc record now := by
  unfold schedule Service.schedule
  cases bigInt record.payoutAtomic with
  | none => rfl
  | some payout =>
    dsimp only
    split
    · rfl
    · split
      · exact push_svc cfg _ _ _ _ _
      · rfl

theorem settleInbound_svc (t : Timed) (inbound : InboundSettlement) (now : Service.Readings) :
    (settleInbound cfg t inbound now).svc = Service.settleInbound cfg t.svc inbound now := by
  unfold settleInbound Service.settleInbound
  cases t.svc.routing.get? inbound.requestId with
  | none => rfl
  | some note =>
    dsimp only
    split
    · rfl
    · cases Service.openRecord cfg inbound note now.createdAt with
      | error e => rfl
      | ok record => exact schedule_svc cfg _ record now

theorem flushPayouts_svc (t : Timed) (now : Nat → Nat) :
    (flushPayouts cfg t now).svc = Service.flushPayouts cfg t.svc now := by
  have pass (keys : List String) (t : Timed) :
      (keys.foldl (fun t operatorAddress =>
        flushAccrual cfg t operatorAddress (now t.svc.batchSeq)) t).svc =
        keys.foldl (fun svc operatorAddress =>
          Service.flushAccrual cfg svc operatorAddress (now svc.batchSeq)) t.svc := by
    induction keys generalizing t with
    | nil => rfl
    | cons key rest ih => exact ih _
  exact pass _ t

def timersOf (t : Timed) (operatorAddress : String) : List Timer :=
  t.timers.filter (·.operatorAddress = operatorAddress)

structure Waits (t : Timed) (operatorAddress : String) (accrual : Accrual) : Prop where
  below : accrual.totalAtomic < cfg.batchMinAtomic
  few : accrual.records.length < cfg.payoutBatchMaxRequests
  timer : accrual.timer = true
  armed : ∃ first rest, t.since operatorAddress = first :: rest ∧
    rest.length + 1 = accrual.records.length ∧
    t.timersOf operatorAddress =
      [⟨operatorAddress, accrual.serial, first + cfg.payoutBatchMaxDelayMs⟩]
  ordered : (t.since operatorAddress).Pairwise (· ≤ ·)
  past : ∀ added ∈ t.since operatorAddress, added ≤ t.clock

structure TimelyBut (t : Timed) (except : Option String) : Prop where
  sound : Service.Sound t.svc
  waits : ∀ operatorAddress accrual, some operatorAddress ≠ except →
    t.svc.accruals.get? operatorAddress = some accrual → Waits cfg t operatorAddress accrual
  gone : ∀ operatorAddress, some operatorAddress ≠ except →
    t.svc.accruals.get? operatorAddress = none → t.timersOf operatorAddress = []

def Timely (t : Timed) : Prop := TimelyBut cfg t none

theorem timely_init : Timely cfg init where
  sound := Service.sound_init
  waits := fun _ _ _ found => nomatch found
  gone := fun _ _ _ => rfl

variable {cfg}

-- The service may change as long as the accruals do not.
theorem TimelyBut.withSvc {t : Timed} {except : Option String} (timely : TimelyBut cfg t except)
    {svc : Service} (sound : Service.Sound svc) (same : svc.accruals = t.svc.accruals) :
    TimelyBut cfg { t with svc := svc } except where
  sound := sound
  waits := by
    intro operatorAddress accrual other found
    have found' : svc.accruals.get? operatorAddress = some accrual := found
    rw [same] at found'
    have waits := timely.waits operatorAddress accrual other found'
    exact ⟨waits.below, waits.few, waits.timer, waits.armed, waits.ordered, waits.past⟩
  gone := by
    intro operatorAddress other absent
    have absent' : svc.accruals.get? operatorAddress = none := absent
    rw [same] at absent'
    exact timely.gone operatorAddress other absent'

theorem Timely.bookkeeping {t : Timed} (timely : Timely cfg t) {svc : Service}
    (kept : Service.Bookkeeping t.svc svc) : Timely cfg { t with svc := svc } :=
  timely.withSvc (timely.sound.bookkeeping kept) kept.accruals

theorem Timely.except {t : Timed} (timely : Timely cfg t) (except : Option String) :
    TimelyBut cfg t except where
  sound := timely.sound
  waits := fun operatorAddress accrual _ found =>
    timely.waits operatorAddress accrual (by simp) found
  gone := fun operatorAddress _ absent => timely.gone operatorAddress (by simp) absent

theorem clearTimeout_other (t : Timed) (accrual : Accrual) {operatorAddress : String}
    (other : operatorAddress ≠ accrual.operatorAddress) :
    (t.clearTimeout accrual).timersOf operatorAddress = t.timersOf operatorAddress := by
  unfold clearTimeout timersOf
  split
  · rw [List.filter_filter]
    apply List.filter_congr
    intro timer _
    by_cases own : timer.operatorAddress = operatorAddress
    · have elsewhere : timer.operatorAddress ≠ accrual.operatorAddress := own ▸ other
      simp [own, other]
    · simp [own]
  · rfl

theorem clearTimeout_own (t : Timed) (accrual : Accrual)
    (own : ∀ timer ∈ t.timersOf accrual.operatorAddress,
      accrual.timer = true ∧ timer.serial = accrual.serial) :
    (t.clearTimeout accrual).timersOf accrual.operatorAddress = [] := by
  apply List.eq_nil_iff_forall_not_mem.mpr
  intro timer member
  unfold clearTimeout at member
  split at member
  next armed =>
    obtain ⟨kept, named⟩ := List.mem_filter.mp member
    obtain ⟨held, cleared⟩ := List.mem_filter.mp kept
    have same := (own timer (List.mem_filter.mpr ⟨held, named⟩)).2
    simp_all
  next unarmed => exact unarmed (own timer member).1

theorem clearTimeout_frame (t : Timed) (accrual : Accrual) :
    (t.clearTimeout accrual).since = t.since ∧ (t.clearTimeout accrual).clock = t.clock := by
  unfold clearTimeout
  split <;> exact ⟨rfl, rfl⟩

theorem setTimeout_frame (cfg : Deps) (t : Timed) (accrual : Accrual) :
    (setTimeout cfg t accrual).since = t.since ∧ (setTimeout cfg t accrual).clock = t.clock := by
  unfold setTimeout
  split <;> exact ⟨rfl, rfl⟩

theorem setTimeout_timersOf (cfg : Deps) (t : Timed) (accrual : Accrual) (key : String) :
    (setTimeout cfg t accrual).timersOf key = t.timersOf key ++
      if accrual.timer = false ∧ accrual.operatorAddress = key then
        [⟨accrual.operatorAddress, accrual.serial, t.clock + cfg.payoutBatchMaxDelayMs⟩]
      else [] := by
  unfold setTimeout timersOf
  cases armed : accrual.timer with
  | true => simp
  | false => by_cases own : accrual.operatorAddress = key <;> simp [own]

-- The flushed accrual takes its timer with it.
theorem TimelyBut.flush {t : Timed} {operatorAddress : String}
    (timely : TimelyBut cfg t (some operatorAddress)) {accrual : Accrual}
    (found : t.svc.accruals.get? operatorAddress = some accrual)
    (own : ∀ timer ∈ t.timersOf operatorAddress,
      accrual.timer = true ∧ timer.serial = accrual.serial) (now : Nat) :
    Timely cfg (flushAccrual cfg t operatorAddress now) := by
  have sound := timely.sound operatorAddress accrual found
  have flushed : t.flushable operatorAddress = some accrual := by
    unfold flushable
    rw [found, Option.filter_some, if_pos (by simp [sound.nonempty])]
  have detached := Service.flushAccrual_found cfg t.svc operatorAddress now accrual found sound
  have accruals : (flushAccrual cfg t operatorAddress now).svc.accruals =
      t.svc.accruals.erase operatorAddress := by
    rw [flushAccrual_svc, detached, Service.detach_accruals]
  have shape : flushAccrual cfg t operatorAddress now =
      { t.clearTimeout accrual with
        svc := Service.flushAccrual cfg t.svc operatorAddress now } := by
    unfold flushAccrual
    rw [flushed]
  have timersOf (key : String) : (flushAccrual cfg t operatorAddress now).timersOf key =
      (t.clearTimeout accrual).timersOf key := by
    rw [shape]
    rfl
  have keyed := sound.keyed
  obtain ⟨since, clock⟩ := clearTimeout_frame t accrual
  constructor
  case sound =>
    rw [flushAccrual_svc, detached]
    exact timely.sound.detach cfg operatorAddress accrual now
  case waits =>
    intro key other _ held
    rw [accruals, OrderedMap.get?_erase] at held
    by_cases same : key = operatorAddress
    · simp [same] at held
    rw [if_neg same] at held
    have waits := timely.waits key other (by simp [same]) held
    have elsewhere : key ≠ accrual.operatorAddress := by rwa [keyed]
    have timers := (timersOf key).trans (clearTimeout_other t accrual elsewhere)
    refine ⟨waits.below, waits.few, waits.timer, ?_, ?_, ?_⟩
    · rw [timers, shape]
      simp only [since]
      exact waits.armed
    · rw [shape]
      simp only [since]
      exact waits.ordered
    · rw [shape]
      simp only [since, clock]
      exact waits.past
  case gone =>
    intro key _ absent
    rw [timersOf]
    by_cases same : key = operatorAddress
    · subst same
      rw [← keyed] at own ⊢
      exact clearTimeout_own t accrual own
    · rw [accruals, OrderedMap.get?_erase, if_neg same] at absent
      rw [clearTimeout_other t accrual (by rwa [keyed])]
      exact timely.gone key (by simp [same]) absent

theorem Timely.flushAccrual {t : Timed} (timely : Timely cfg t) (operatorAddress : String)
    (now : Nat) : Timely cfg (flushAccrual cfg t operatorAddress now) := by
  cases found : t.svc.accruals.get? operatorAddress with
  | none =>
    have same : Timed.flushAccrual cfg t operatorAddress now = t := by
      unfold Timed.flushAccrual flushable
      rw [found, Service.flushAccrual_absent cfg t.svc operatorAddress now found]
      rfl
    rw [same]
    exact timely
  | some accrual =>
    have waits := timely.waits operatorAddress accrual (by simp) found
    obtain ⟨first, rest, -, -, only⟩ := waits.armed
    refine (timely.except _).flush found ?_ now
    intro timer member
    rw [only, List.mem_singleton] at member
    rw [member]
    exact ⟨waits.timer, rfl⟩

theorem Timely.flushPayouts {t : Timed} (timely : Timely cfg t) (now : Nat → Nat) :
    Timely cfg (flushPayouts cfg t now) := by
  have pass (keys : List String) (t : Timed) (timely : Timely cfg t) :
      Timely cfg (keys.foldl (fun t operatorAddress =>
        Timed.flushAccrual cfg t operatorAddress (now t.svc.batchSeq)) t) := by
    induction keys generalizing t with
    | nil => exact timely
    | cons key rest ih => exact ih _ (timely.flushAccrual key _)
  exact pass _ t timely

section push

variable {t : Timed} {record : SettlementRecord}

-- What adding the record does before the thresholds are looked at.
def added (t : Timed) (record : SettlementRecord) (accruedAt : Nat) : Timed :=
  { t with
    svc := t.svc.putAccrual (t.svc.grown record accruedAt)
    since := Function.update t.since record.operatorAddress
      (t.arrivals record.operatorAddress ++ [t.clock]) }

theorem Timely.arrivals (timely : Timely cfg t) (operatorAddress : String) :
    (∃ accrual first rest, t.svc.accruals.get? operatorAddress = some accrual ∧
      accrual.timer = true ∧ t.arrivals operatorAddress = first :: rest ∧
      rest.length + 1 = accrual.records.length ∧
      t.timersOf operatorAddress =
        [⟨operatorAddress, accrual.serial, first + cfg.payoutBatchMaxDelayMs⟩]) ∨
    t.svc.accruals.get? operatorAddress = none ∧ t.arrivals operatorAddress = [] ∧
      t.timersOf operatorAddress = [] := by
  unfold Timed.arrivals OrderedMap.contains
  cases found : t.svc.accruals.get? operatorAddress with
  | none => exact .inr ⟨rfl, rfl, timely.gone operatorAddress (by simp) found⟩
  | some accrual =>
    have waits := timely.waits operatorAddress accrual (by simp) found
    obtain ⟨first, rest, since, length, only⟩ := waits.armed
    exact .inl ⟨accrual, first, rest, rfl, waits.timer, since, length, only⟩

theorem Timely.arrivals_past (timely : Timely cfg t) (operatorAddress : String) :
    (t.arrivals operatorAddress).Pairwise (· ≤ ·) ∧
      ∀ added ∈ t.arrivals operatorAddress, added ≤ t.clock := by
  unfold Timed.arrivals OrderedMap.contains
  cases found : t.svc.accruals.get? operatorAddress with
  | none => simp
  | some accrual =>
    have waits := timely.waits operatorAddress accrual (by simp) found
    exact ⟨waits.ordered, waits.past⟩

theorem grown_of_some {svc : Service} {accrual : Accrual}
    (found : svc.accruals.get? record.operatorAddress = some accrual) (accruedAt : Nat) :
    (svc.grown record accruedAt).timer = accrual.timer ∧
      (svc.grown record accruedAt).serial = accrual.serial ∧
      (svc.grown record accruedAt).records = accrual.records ++ [record] := by
  unfold Service.grown Service.extended
  rw [found]
  exact ⟨rfl, rfl, rfl⟩

theorem grown_of_none {svc : Service}
    (absent : svc.accruals.get? record.operatorAddress = none) (accruedAt : Nat) :
    (svc.grown record accruedAt).timer = false ∧
      (svc.grown record accruedAt).records = [record] := by
  unfold Service.grown Service.extended
  rw [absent]
  exact ⟨rfl, rfl⟩

theorem Timely.added (timely : Timely cfg t) (priced : Service.Priced record)
    (claimed : record.requestId ∈ t.svc.claimed) (accruedAt : Nat) :
    TimelyBut cfg (t.added record accruedAt) (some record.operatorAddress) where
  sound := t.svc.putAccrual_sound record accruedAt timely.sound priced claimed
  waits := by
    intro key accrual other found
    have keyed := t.svc.grown_operatorAddress record accruedAt timely.sound
    have elsewhere : key ≠ record.operatorAddress := by simpa using other
    have found' := found
    unfold Timed.added at found'
    rw [Service.putAccrual_other _ _ _ (by rwa [keyed])] at found'
    have waits := timely.waits key accrual (by simp) found'
    have since : (t.added record accruedAt).since key = t.since key :=
      Function.update_of_ne elsewhere _ _
    refine ⟨waits.below, waits.few, waits.timer, ?_, ?_, ?_⟩
    · rw [since]
      exact waits.armed
    · rw [since]
      exact waits.ordered
    · rw [since]
      exact waits.past
  gone := by
    intro key other absent
    have keyed := t.svc.grown_operatorAddress record accruedAt timely.sound
    have elsewhere : key ≠ record.operatorAddress := by simpa using other
    unfold Timed.added at absent
    rw [Service.putAccrual_other _ _ _ (by rwa [keyed])] at absent
    exact timely.gone key (by simp) absent

theorem Timely.added_own (timely : Timely cfg t) (accruedAt : Nat) :
    ∀ timer ∈ (t.added record accruedAt).timersOf record.operatorAddress,
      (t.svc.grown record accruedAt).timer = true ∧
        timer.serial = (t.svc.grown record accruedAt).serial := by
  intro timer member
  have member' : timer ∈ t.timersOf record.operatorAddress := member
  rcases timely.arrivals record.operatorAddress with
    ⟨accrual, first, rest, found, armed, -, -, only⟩ | ⟨-, -, none_left⟩
  · obtain ⟨sameTimer, serial, -⟩ := grown_of_some found accruedAt
    rw [only, List.mem_singleton] at member'
    rw [member', sameTimer, serial]
    exact ⟨armed, rfl⟩
  · rw [none_left] at member'
    cases member'

-- The accrual stays, with the timer that its first record armed.
theorem Timely.held (timely : Timely cfg t) (priced : Service.Priced record)
    (claimed : record.requestId ∈ t.svc.claimed) (accruedAt : Nat)
    (below : (t.svc.grown record accruedAt).totalAtomic < cfg.batchMinAtomic)
    (few : (t.svc.grown record accruedAt).records.length < cfg.payoutBatchMaxRequests) :
    Timely cfg (setTimeout cfg
      { t.added record accruedAt with svc := Service.hold cfg t.svc record accruedAt }
      (t.svc.grown record accruedAt)) := by
  have keyed := t.svc.grown_operatorAddress record accruedAt timely.sound
  have but := timely.added priced claimed accruedAt
  let base : Timed := { t.added record accruedAt with svc := Service.hold cfg t.svc record accruedAt }
  let accrual := t.svc.grown record accruedAt
  obtain ⟨since, clock⟩ := setTimeout_frame cfg base accrual
  have svc : (setTimeout cfg base accrual).svc = Service.hold cfg t.svc record accruedAt :=
    setTimeout_svc cfg base accrual
  have get (key : String) : (setTimeout cfg base accrual).svc.accruals.get? key =
      if key = record.operatorAddress then some { accrual with timer := true }
      else t.svc.accruals.get? key := by
    rw [svc]
    exact Service.hold_get? cfg t.svc record accruedAt timely.sound key
  have before (key : String) (other : key ≠ record.operatorAddress) :
      (t.added record accruedAt).svc.accruals.get? key = t.svc.accruals.get? key :=
    Service.putAccrual_other _ _ _ (by rwa [keyed])
  have timersOf (key : String) (other : key ≠ record.operatorAddress) :
      (setTimeout cfg base accrual).timersOf key = (t.added record accruedAt).timersOf key := by
    rw [setTimeout_timersOf, if_neg]
    · exact List.append_nil _
    · rintro ⟨-, same⟩
      exact other (same.symm.trans keyed)
  constructor
  case sound =>
    rw [svc]
    exact Service.hold_sound cfg t.svc record accruedAt timely.sound priced claimed
  case waits =>
    intro key held _ found
    rw [get] at found
    by_cases own : key = record.operatorAddress
    · subst own
      rw [if_pos rfl] at found
      obtain rfl := Option.some.inj found
      obtain ⟨ordered, past⟩ := timely.arrivals_past record.operatorAddress
      have added : (setTimeout cfg base accrual).since record.operatorAddress =
          t.arrivals record.operatorAddress ++ [t.clock] := by
        rw [since]
        exact Function.update_self _ _ _
      refine ⟨below, few, rfl, ?_, ?_, ?_⟩
      · rw [added, setTimeout_timersOf]
        rcases timely.arrivals record.operatorAddress with
          ⟨earlier, first, rest, stored, armed, arrived, length, only⟩ | ⟨absent, arrived, none_left⟩
        · obtain ⟨timer, serial, records⟩ := grown_of_some stored accruedAt
          have running : accrual.timer = true := timer.trans armed
          refine ⟨first, rest ++ [t.clock], by rw [arrived, List.cons_append], ?_, ?_⟩
          · change _ = accrual.records.length
            rw [records, List.length_append, List.length_append, ← length]
            rfl
          · rw [if_neg fun both => Bool.noConfusion (running.symm.trans both.1), List.append_nil]
            change t.timersOf record.operatorAddress = _
            rw [only]
            change _ = [(⟨_, accrual.serial, _⟩ : Timer)]
            rw [serial]
        · obtain ⟨timer, records⟩ := grown_of_none absent accruedAt
          have unarmed : accrual.timer = false := timer
          refine ⟨t.clock, [], by rw [arrived, List.nil_append], ?_, ?_⟩
          · change _ = accrual.records.length
            rw [records]
            rfl
          · rw [if_pos ⟨unarmed, keyed⟩]
            change t.timersOf record.operatorAddress ++ _ = _
            rw [none_left, keyed]
            rfl
      · rw [added, List.pairwise_append]
        refine ⟨ordered, List.pairwise_singleton _ _, ?_⟩
        intro earlier member last only
        rw [List.mem_singleton.mp only]
        exact past earlier member
      · rw [added, clock]
        intro arrived member
        rcases List.mem_append.mp member with earlier | last
        · exact past arrived earlier
        · rw [List.mem_singleton.mp last]
          exact le_refl _
    · rw [if_neg own] at found
      have waits := but.waits key held (by simp [own]) ((before key own).trans found)
      refine ⟨waits.below, waits.few, waits.timer, ?_, ?_, ?_⟩
      · rw [since, timersOf key own]
        exact waits.armed
      · rw [since]
        exact waits.ordered
      · rw [since, clock]
        exact waits.past
  case gone =>
    intro key _ absent
    rw [get] at absent
    by_cases own : key = record.operatorAddress
    · rw [if_pos own] at absent
      cases absent
    · rw [if_neg own] at absent
      rw [timersOf key own]
      exact but.gone key (by simp [own]) ((before key own).trans absent)

theorem Timely.push (timely : Timely cfg t) (priced : Service.Priced record)
    (claimed : record.requestId ∈ t.svc.claimed) (accruedAt flushedAt : Nat) :
    Timely cfg (push cfg t record (Service.payoutOf record) accruedAt flushedAt) := by
  have keyed := t.svc.grown_operatorAddress record accruedAt timely.sound
  have flushed : Timely cfg (Timed.flushAccrual cfg (t.added record accruedAt)
      record.operatorAddress flushedAt) := by
    refine (timely.added priced claimed accruedAt).flush ?_ (timely.added_own accruedAt) flushedAt
    simp [Timed.added, Service.putAccrual, keyed]
  unfold Timed.push
  dsimp only
  split
  next => exact flushed
  next below =>
    split
    next => exact flushed
    next few => exact timely.held priced claimed accruedAt (not_le.mp below) (not_le.mp few)

end push

structure Untouched (before after : Service) : Prop where
  accruals : after.accruals = before.accruals
  arrays : after.arrays = before.arrays
  claimed : ∀ id ∈ before.claimed, id ∈ after.claimed
  jobs : before.jobs <+: after.jobs

theorem Untouched.refl (svc : Service) : Untouched svc svc :=
  ⟨rfl, rfl, fun _ held => held, List.prefix_rfl⟩

theorem Untouched.trans {a b c : Service} (first : Untouched a b) (second : Untouched b c) :
    Untouched a c :=
  ⟨second.accruals.trans first.accruals, second.arrays.trans first.arrays,
    fun id held => second.claimed id (first.claimed id held), first.jobs.trans second.jobs⟩

theorem untouched_of_bookkeeping {a b : Service} (kept : Service.Bookkeeping a b) :
    Untouched a b :=
  ⟨kept.accruals, kept.arrays, kept.claimed, by simp [Service.jobs, kept.payouts]⟩

theorem untouched_enqueueStore (svc : Service) (operatorAddress : String) (ops : List StoreOp) :
    Untouched svc (Service.enqueueStore cfg svc operatorAddress ops) :=
  ⟨by simp, by simp, by simp, by simp [Service.jobs]⟩

theorem untouched_dropRecovered (svc : Service) (row : PersistedAccrual) :
    Untouched svc (Service.dropRecovered cfg svc row) := by
  unfold Service.dropRecovered
  split <;> exact untouched_enqueueStore svc _ _

theorem untouched_dropLiability (svc : Service) (batchId : Option String) :
    Untouched svc (svc.dropLiability batchId) := by
  cases batchId <;> exact ⟨rfl, rfl, fun _ held => held, List.prefix_rfl⟩

theorem untouched_recoverPay (svc : Service) (row : PersistedAccrual)
    (records : List StoredRecord) (summed : Int) (now : Nat → Nat) :
    Untouched svc (Service.recoverPay cfg svc row records summed now) := by
  unfold Service.recoverPay
  split <;>
    exact ⟨by simp [Service.payRow, Service.runPayout], by simp [Service.payRow, Service.runPayout],
      by simp [Service.payRow, Service.runPayout],
      by simp [Service.payRow, Service.runPayout, Service.jobs]⟩

theorem untouched_recoverRow (now : Nat → Nat) (state : Service.Recovery) (row : PersistedAccrual) :
    Untouched state.svc (Service.recoverRow cfg now state row).svc := by
  have dropped (svc : Service) :
      Untouched svc (Service.dropRecovered cfg (svc.dropLiability row.batchId) row) :=
    (untouched_dropLiability svc row.batchId).trans (untouched_dropRecovered _ row)
  unfold Service.recoverRow
  dsimp only
  split
  · exact .refl _
  · split
    · exact dropped state.svc
    · have reseeded := untouched_of_bookkeeping (Service.reseed_bookkeeping cfg state.svc
        ((Service.payable state.handled row).map (·.cast)))
      split
      · exact reseeded
      · split
        · exact reseeded.trans (dropped _)
        · exact reseeded.trans (untouched_recoverPay _ row _ _ now)

theorem untouched_recoverAccruals (svc : Service) (history : Option (List StoredRecord))
    (loaded : Option (List PersistedAccrual × List PersistedAccrual)) (now : Nat → Nat) :
    Untouched svc
      (Service.recoverAccruals cfg (Service.hydrateLedger cfg svc history) loaded now) := by
  have hydrated := untouched_of_bookkeeping (Service.hydrateLedger_bookkeeping cfg svc history)
  have pass (rows : List PersistedAccrual) (state : Service.Recovery) :
      Untouched state.svc (rows.foldl (Service.recoverRow cfg now) state).svc := by
    induction rows generalizing state with
    | nil => exact .refl _
    | cons row rest ih => exact (untouched_recoverRow now state row).trans (ih _)
  unfold Service.recoverAccruals
  split
  · split
    · exact hydrated
    · exact hydrated.trans (pass _ ⟨Service.hydrateLedger cfg svc history, [], false⟩)
  · exact hydrated

theorem untouched_resumePayout {svc svc' : Service} {index : Nat} {event : PayoutEvent}
    {attemptAt settledAt : Nat}
    (resumed : Service.resumePayout cfg svc index event attemptAt settledAt = some svc') :
    Untouched svc svc' := by
  obtain ⟨run, progress, found, -, kept⟩ :=
    Service.resumePayout_cases cfg svc svc' index event attemptAt settledAt resumed
  obtain ⟨accruals, arrays, claimed, -, -, payouts, -⟩ := Service.discharged_frame cfg
    (Service.moved cfg svc index run.job progress) run.job progress attemptAt
  have jobs : (Service.discharged cfg (Service.moved cfg svc index run.job progress) run.job
      progress attemptAt).jobs = svc.jobs := by
    rw [Service.jobs, payouts]
    exact Service.jobs_moved cfg svc index run progress found
  have discharged : Untouched svc (Service.discharged cfg
      (Service.moved cfg svc index run.job progress) run.job progress attemptAt) :=
    ⟨accruals, arrays, fun id held => claimed ▸ held, by rw [jobs]⟩
  exact discharged.trans (untouched_of_bookkeeping kept)

theorem Timely.untouched {t : Timed} (timely : Timely cfg t) {svc : Service}
    (same : Untouched t.svc svc) : Timely cfg { t with svc := svc } := by
  refine timely.withSvc ?_ same.accruals
  intro operatorAddress accrual found
  rw [same.accruals] at found
  have sound := timely.sound operatorAddress accrual found
  exact { sound with
    live := by rw [same.arrays, sound.live]
    claimed := fun r member => same.claimed _ (sound.claimed r member) }

theorem schedule_timed (batching : 0 < cfg.batchMinAtomic) (t : Timed) (record : SettlementRecord)
    (now : Service.Readings) (holds : Service.SplitHolds record) :
    (∃ svc, Service.Bookkeeping t.svc svc ∧ schedule cfg t record now = { t with svc := svc }) ∨
      ∃ base, Service.Bookkeeping { t.svc with accepted := t.svc.accepted ++ [record] } base ∧
        Service.Priced record ∧ schedule cfg t record now = push cfg { t with svc := base } record
          (Service.payoutOf record) now.accruedAt now.flushedAt := by
  obtain ⟨_, payout, _, _, paid, _, nonnegative, _⟩ := holds.split
  have value : Service.payoutOf record = payout := by simp [Service.payoutOf, paid]
  unfold schedule
  simp only [paid, if_pos batching]
  by_cases zero : payout = 0
  · rw [if_pos zero]
    exact .inl ⟨_, Service.updateAll_bookkeeping cfg t.svc _ _, rfl⟩
  · rw [if_neg zero]
    refine .inr ⟨_, Service.update_bookkeeping cfg _ record.requestId
      { record with status := .accrued }, ⟨holds, by omega⟩, ?_⟩
    rw [value]
    rfl

theorem settleInbound_timed (batching : 0 < cfg.batchMinAtomic) (t : Timed)
    (inbound : InboundSettlement) (now : Service.Readings) :
    (∃ svc, Service.Bookkeeping t.svc svc ∧
        settleInbound cfg t inbound now = { t with svc := svc }) ∨
      ∃ record base,
        Service.Bookkeeping { t.svc with accepted := t.svc.accepted ++ [record] } base ∧
        Service.Priced record ∧ record.requestId ∈ base.claimed ∧
        settleInbound cfg t inbound now = push cfg { t with svc := base } record
          (Service.payoutOf record) now.accruedAt now.flushedAt := by
  unfold settleInbound
  cases t.svc.routing.get? inbound.requestId with
  | none => exact .inl ⟨t.svc, .refl t.svc, rfl⟩
  | some note =>
    dsimp only
    split
    · exact .inl ⟨_, Service.bookkeeping_of_ledger t.svc _ _ _ fun _ held => held, rfl⟩
    · have claim := Service.bookkeeping_of_ledger t.svc
        (t.svc.routing.erase inbound.requestId) t.svc.ledger
        (inbound.requestId :: t.svc.claimed) fun _ held => List.mem_cons_of_mem _ held
      cases opened : Service.openRecord cfg inbound note now.createdAt with
      | error e => exact .inl ⟨_, claim, rfl⟩
      | ok record =>
        obtain ⟨id, -, holds⟩ :=
          Service.openRecord_ok cfg inbound note now.createdAt record opened
        have remembered := Service.remember_bookkeeping cfg
          { t.svc with
            routing := t.svc.routing.erase inbound.requestId
            claimed := inbound.requestId :: t.svc.claimed } record
        have entered := claim.trans remembered
        have known := remembered.claimed inbound.requestId List.mem_cons_self
        dsimp only
        generalize Service.remember cfg _ record = taken at remembered entered known ⊢
        rcases schedule_timed batching { t with svc := taken } record now holds with
          ⟨svc, kept, same⟩ | ⟨base, kept, priced, same⟩
        · exact .inl ⟨svc, entered.trans kept, same⟩
        · rw [entered.accepted] at kept
          exact .inr ⟨record, base, (entered.withAccepted _).trans kept, priced,
            kept.claimed _ (by rwa [id]), same⟩

theorem untouched_accepted {svc base : Service} {accepted : List SettlementRecord}
    (kept : Service.Bookkeeping { svc with accepted := accepted } base) : Untouched svc base :=
  have same := untouched_of_bookkeeping kept
  ⟨same.accruals, same.arrays, same.claimed, same.jobs⟩

theorem Timely.settleInbound (batching : 0 < cfg.batchMinAtomic) {t : Timed}
    (timely : Timely cfg t) (inbound : InboundSettlement) (now : Service.Readings) :
    Timely cfg (settleInbound cfg t inbound now) := by
  rcases settleInbound_timed batching t inbound now with
    ⟨svc, kept, same⟩ | ⟨record, base, kept, priced, claimed, same⟩
  · rw [same]
    exact timely.bookkeeping kept
  · rw [same]
    exact (timely.untouched (untouched_accepted kept)).push priced claimed _ _

theorem filter_eraseIdx {l : List Timer} {index : Nat} {timer : Timer} (p : Timer → Bool)
    (found : l[index]? = some timer) (out : p timer = false) :
    (l.eraseIdx index).filter p = l.filter p := by
  induction l generalizing index with
  | nil => rfl
  | cons first rest ih =>
    cases index with
    | zero =>
      obtain rfl : first = timer := by simpa using found
      rw [List.eraseIdx_zero, List.tail_cons, List.filter_cons_of_neg (by simp [out])]
    | succ index =>
      have later := ih (by simpa using found)
      rw [List.eraseIdx_cons_succ, List.filter_cons, List.filter_cons, later]

-- A timer that fires finds the accrual that armed it.
theorem Timely.owner {t : Timed} (timely : Timely cfg t) {timer : Timer}
    (armed : timer ∈ t.timers) :
    ∃ accrual, t.svc.accruals.get? timer.operatorAddress = some accrual ∧
      accrual.timer = true ∧ ∀ other ∈ t.timersOf timer.operatorAddress,
        other.serial = accrual.serial := by
  have own : timer ∈ t.timersOf timer.operatorAddress :=
    List.mem_filter.mpr ⟨armed, decide_eq_true rfl⟩
  cases found : t.svc.accruals.get? timer.operatorAddress with
  | none =>
    rw [timely.gone timer.operatorAddress (by simp) found] at own
    cases own
  | some accrual =>
    have waits := timely.waits timer.operatorAddress accrual (by simp) found
    obtain ⟨first, rest, -, -, only⟩ := waits.armed
    refine ⟨accrual, rfl, waits.timer, ?_⟩
    intro other member
    rw [only, List.mem_singleton] at member
    rw [member]

theorem Timely.fired {t t' : Timed} (timely : Timely cfg t) {index now : Nat}
    (taken : fire cfg t index now = some t') : Timely cfg t' := by
  obtain ⟨timer, found, fires⟩ := Option.bind_eq_some_iff.mp taken
  obtain ⟨-, same⟩ := Option.ite_none_right_eq_some.mp fires
  obtain rfl := Option.some.inj same
  obtain ⟨accrual, stored, running, serials⟩ := timely.owner (List.mem_of_getElem? found)
  have kept (key : String) (other : key ≠ timer.operatorAddress) :
      timersOf { t with timers := t.timers.eraseIdx index } key = t.timersOf key :=
    filter_eraseIdx _ found (decide_eq_false (Ne.symm other))
  have but : TimelyBut cfg { t with timers := t.timers.eraseIdx index }
      (some timer.operatorAddress) := by
    constructor
    case sound => exact timely.sound
    case waits =>
      intro key other elsewhere held
      have waits := timely.waits key other (by simp) held
      refine ⟨waits.below, waits.few, waits.timer, ?_, waits.ordered, waits.past⟩
      rw [kept key (by simpa using elsewhere)]
      exact waits.armed
    case gone =>
      intro key elsewhere absent
      rw [kept key (by simpa using elsewhere)]
      exact timely.gone key (by simp) absent
  refine but.flush stored ?_ now
  intro other member
  obtain ⟨left, named⟩ := List.mem_filter.mp member
  have held : other ∈ t.timersOf timer.operatorAddress :=
    List.mem_filter.mpr ⟨List.mem_of_mem_eraseIdx left, named⟩
  exact ⟨running, serials other held⟩

theorem Timely.step (batching : 0 < cfg.batchMinAtomic) {t t' : Timed} (timely : Timely cfg t)
    {a : TimedAction} (taken : step cfg t a = some t') : Timely cfg t' := by
  cases a with
  | recordRouting requestId nodeId operatorAddress now =>
    obtain rfl := Option.some.inj taken
    exact timely.untouched ⟨rfl, rfl, fun _ held => held, List.prefix_rfl⟩
  | settleInbound inbound now =>
    obtain rfl := Option.some.inj taken
    exact timely.settleInbound batching inbound now
  | flushPayouts now =>
    obtain rfl := Option.some.inj taken
    exact timely.flushPayouts now
  | fire index now =>
    exact timely.fired taken
  | payout index event attemptAt settledAt =>
    obtain ⟨svc, resumed, rfl⟩ := Option.map_eq_some_iff.mp taken
    exact timely.untouched (untouched_resumePayout resumed)
  | write key works =>
    obtain rfl := Option.some.inj taken
    exact timely.untouched ⟨rfl, rfl, fun _ held => held, List.prefix_rfl⟩
  | recoverAccruals history loaded now =>
    obtain rfl := Option.some.inj taken
    exact timely.untouched (untouched_recoverAccruals t.svc history loaded now)
  | tick clock =>
    obtain ⟨later, same⟩ := Option.ite_none_right_eq_some.mp taken
    obtain rfl := Option.some.inj same
    exact {
      sound := timely.sound
      waits := fun operatorAddress accrual other found =>
        have waits := timely.waits operatorAddress accrual other found
        ⟨waits.below, waits.few, waits.timer, waits.armed, waits.ordered,
          fun added member => le_trans (waits.past added member) later⟩
      gone := timely.gone }

/-- The timers afterwards are old ones, and some that were armed now. -/
structure Later (cfg : Deps) (t t' : Timed) : Prop where
  clock : t'.clock = t.clock
  timers : ∀ timer ∈ t'.timers, timer ∈ t.timers ∨
    timer.dueAt = t.clock + cfg.payoutBatchMaxDelayMs

theorem Later.refl (t : Timed) : Later cfg t t := ⟨rfl, fun _ member => .inl member⟩

theorem Later.trans {a b c : Timed} (first : Later cfg a b) (second : Later cfg b c) :
    Later cfg a c where
  clock := second.clock.trans first.clock
  timers := by
    intro timer member
    rcases second.timers timer member with earlier | now
    · exact first.timers timer earlier
    · rw [first.clock] at now
      exact .inr now

theorem later_clearTimeout (cfg : Deps) (t : Timed) (accrual : Accrual) :
    Later cfg t (t.clearTimeout accrual) := by
  unfold clearTimeout
  split
  · exact ⟨rfl, fun timer member => .inl (List.mem_filter.mp member).1⟩
  · exact .refl t

theorem later_setTimeout (t : Timed) (accrual : Accrual) :
    Later cfg t (setTimeout cfg t accrual) := by
  unfold setTimeout
  split
  · exact .refl t
  · refine ⟨rfl, ?_⟩
    intro timer member
    rcases List.mem_append.mp member with earlier | new
    · exact .inl earlier
    · rw [List.mem_singleton.mp new]
      exact .inr rfl

theorem later_flushAccrual (t : Timed) (operatorAddress : String) (now : Nat) :
    Later cfg t (flushAccrual cfg t operatorAddress now) := by
  unfold flushAccrual
  dsimp only
  split
  · exact ⟨rfl, fun timer member => .inl member⟩
  · obtain ⟨clock, timers⟩ := later_clearTimeout cfg t _
    exact ⟨clock, timers⟩

theorem later_push (t : Timed) (record : SettlementRecord) (payout : Int)
    (accruedAt flushedAt : Nat) : Later cfg t (push cfg t record payout accruedAt flushedAt) := by
  have same (t : Timed) (svc : Service) (since : String → List Nat) :
      Later cfg t { t with svc := svc, since := since } := ⟨rfl, fun timer member => .inl member⟩
  unfold push
  dsimp only
  split
  · exact (same t _ _).trans (later_flushAccrual _ _ _)
  · split
    · exact (same t _ _).trans (later_flushAccrual _ _ _)
    · exact (same t _ _).trans (later_setTimeout _ _)

theorem later_schedule (t : Timed) (record : SettlementRecord) (now : Service.Readings) :
    Later cfg t (schedule cfg t record now) := by
  have same (t : Timed) (svc : Service) : Later cfg t { t with svc := svc } :=
    ⟨rfl, fun timer member => .inl member⟩
  unfold schedule
  cases bigInt record.payoutAtomic with
  | none => exact .refl t
  | some payout =>
    dsimp only
    split
    · exact same t _
    · split
      · exact (same t _).trans (later_push _ _ _ _ _)
      · exact same t _

theorem later_settleInbound (t : Timed) (inbound : InboundSettlement) (now : Service.Readings) :
    Later cfg t (settleInbound cfg t inbound now) := by
  have same (t : Timed) (svc : Service) : Later cfg t { t with svc := svc } :=
    ⟨rfl, fun timer member => .inl member⟩
  unfold settleInbound
  cases t.svc.routing.get? inbound.requestId with
  | none => exact .refl t
  | some note =>
    dsimp only
    split
    · exact same t _
    · cases Service.openRecord cfg inbound note now.createdAt with
      | error e => exact same t _
      | ok record => exact (same t _).trans (later_schedule _ record now)

theorem later_flushPayouts (t : Timed) (now : Nat → Nat) :
    Later cfg t (flushPayouts cfg t now) := by
  have pass (keys : List String) (t : Timed) :
      Later cfg t (keys.foldl (fun t operatorAddress =>
        flushAccrual cfg t operatorAddress (now t.svc.batchSeq)) t) := by
    induction keys generalizing t with
    | nil => exact .refl t
    | cons key rest ih => exact (later_flushAccrual t key _).trans (ih _)
  exact pass _ t

def OnTime (t : Timed) : Prop := ∀ timer ∈ t.timers, t.clock ≤ timer.dueAt

theorem OnTime.later {t t' : Timed} (onTime : OnTime t) (later : Later cfg t t') : OnTime t' := by
  intro timer member
  rw [later.clock]
  rcases later.timers timer member with earlier | now
  · exact onTime timer earlier
  · omega

theorem OnTime.step {t t' : Timed} (onTime : OnTime t) {a : TimedAction} (kept : punctual t a)
    (taken : step cfg t a = some t') : OnTime t' := by
  cases a with
  | recordRouting requestId nodeId operatorAddress now =>
    obtain rfl := Option.some.inj taken
    exact onTime
  | settleInbound inbound now =>
    obtain rfl := Option.some.inj taken
    exact onTime.later (later_settleInbound t inbound now)
  | flushPayouts now =>
    obtain rfl := Option.some.inj taken
    exact onTime.later (later_flushPayouts t now)
  | fire index now =>
    obtain ⟨timer, found, fires⟩ := Option.bind_eq_some_iff.mp taken
    obtain ⟨-, same⟩ := Option.ite_none_right_eq_some.mp fires
    obtain rfl := Option.some.inj same
    have erased : OnTime { t with timers := t.timers.eraseIdx index } :=
      fun other member => onTime other (List.mem_of_mem_eraseIdx member)
    exact erased.later (later_flushAccrual _ timer.operatorAddress now)
  | payout index event attemptAt settledAt =>
    obtain ⟨svc, -, rfl⟩ := Option.map_eq_some_iff.mp taken
    exact onTime
  | write key works =>
    obtain rfl := Option.some.inj taken
    exact onTime
  | recoverAccruals history loaded now =>
    obtain rfl := Option.some.inj taken
    exact onTime
  | tick clock =>
    obtain ⟨-, same⟩ := Option.ite_none_right_eq_some.mp taken
    obtain rfl := Option.some.inj same
    exact kept

theorem run_timely (batching : 0 < cfg.batchMinAtomic) {t : Timed}
    (run : Transition.Run (step cfg) (fun _ _ => True) init t) : Timely cfg t :=
  run.invariant (P := Timely cfg) (timely_init cfg) fun _ _ _ timely _ taken =>
    timely.step batching taken

end Timed

end X402Mesh.Settlement
