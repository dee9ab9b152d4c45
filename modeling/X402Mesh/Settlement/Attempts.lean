import X402Mesh.Lib.Transition
import X402Mesh.Settlement.Accounting
import X402Mesh.Settlement.World

set_option autoImplicit false

namespace X402Mesh.Settlement

open Transition

structure Answer where
  event : PayoutEvent
  attemptAt : Nat
  settledAt : Nat
  deriving DecidableEq, Repr

-- The transaction that a payment or a lookup answered.
def PayoutEvent.txId? : PayoutEvent → Option String
  | .lookup outcome => outcome.answer
  | .paid txId => some txId
  | _ => none

def PayoutEvent.ofPay : PayoutEvent → Bool
  | .paid _ | .threw _ _ => true
  | _ => false

namespace Progress

-- The results that the awaited call can have.
def awaits : Progress → PayoutEvent → Bool
  | .checkingFirst, .lookup _ => true
  | .paying _, .paid _ => true
  | .paying _, .threw _ _ => true
  | .checkingAfter _ _, .lookup _ => true
  | .sleeping _ _, .wake => true
  | .checkingLate _, .lookup _ => true
  | _, _ => false

-- How many awaits can still follow.
def remaining (attempts : Nat) : Progress → Nat
  | .checkingFirst => 3 * attempts + 2
  | .paying attempt => 3 * (attempts - attempt) + 3
  | .checkingAfter attempt _ => 3 * (attempts - attempt) + 2
  | .sleeping attempt _ => 3 * (attempts - attempt) + 1
  | .checkingLate _ => 1
  | .settled _ | .failed _ => 0

-- The calls of `pay` that were made, the one that is awaited included.
def made : Progress → Nat → Prop
  | .checkingFirst, count => count = 0
  | .paying attempt, count => count = attempt
  | .checkingAfter attempt _, count => count = attempt
  | .sleeping attempt _, count => count = attempt
  | _, _ => True

-- The attempt that the loop is in.
def within (attempts : Nat) : Progress → Prop
  | .paying attempt => 1 ≤ attempt ∧ attempt ≤ attempts
  | .checkingAfter attempt _ => attempt ≤ attempts
  | .sleeping attempt _ => attempt < attempts
  | _ => True

def payCall (p : Progress) : Nat := if p.isPaying then 1 else 0

theorem next_isSome (attempts : Nat) (p : Progress) (event : PayoutEvent) :
    (next attempts p event).isSome = p.awaits event := by
  cases p <;> cases event <;> simp only [next, awaits, Option.isSome_none, Option.isSome_some]
  case checkingFirst.lookup outcome => cases outcome.answer <;> rfl
  case checkingAfter.lookup attempt reason outcome =>
    cases outcome.answer with
    | some txId => rfl
    | none =>
      dsimp only
      split <;> rfl
  case checkingLate.lookup reason outcome => cases outcome.answer <;> rfl

theorem awaits_some {p : Progress} (open_ : p.ended = false) :
    ∃ event, p.awaits event = true := by
  cases p with
  | checkingFirst => exact ⟨.lookup .notFound, rfl⟩
  | paying attempt => exact ⟨.paid "", rfl⟩
  | checkingAfter attempt reason => exact ⟨.lookup .notFound, rfl⟩
  | sleeping attempt reason => exact ⟨.wake, rfl⟩
  | checkingLate reason => exact ⟨.lookup .notFound, rfl⟩
  | settled txId => cases open_
  | failed reason => cases open_

theorem awaits_none {p : Progress} (atEnd : p.ended = true) (event : PayoutEvent) :
    p.awaits event = false := by
  cases p <;> first | rfl | cases atEnd

-- `events` are the results so far, and `pays` the calls of `pay` made.
structure Told (attempts : Nat) (events : List PayoutEvent) (pays : Nat) (p : Progress) :
    Prop where
  within : p.within attempts
  made : p.made pays
  bounded : pays ≤ attempts
  answered : pays = events.countP (·.ofPay) + p.payCall
  steps : events.length + p.remaining attempts ≤ 3 * attempts + 2
  settled : ∀ txId, p = .settled txId → ∃ before last, events = before ++ [last] ∧
    last.txId? = some txId ∧ ∀ event ∈ before, event.txId? = none
  none_landed : p.isSettled = false → ∀ event ∈ events, event.txId? = none

theorem told_firstAttempt {attempts : Nat} {events : List PayoutEvent}
    (unpaid : events.countP (·.ofPay) = 0) (short : events.length ≤ 1)
    (none_landed : ∀ event ∈ events, event.txId? = none) :
    Told attempts events (firstAttempt attempts).payCall (firstAttempt attempts) := by
  unfold firstAttempt
  by_cases allowed : 1 ≤ attempts
  · rw [if_pos allowed]
    constructor
    case within => exact ⟨le_refl 1, allowed⟩
    case made => rfl
    case bounded => exact allowed
    case answered => rw [unpaid, Nat.zero_add]
    case steps =>
      simp only [remaining]
      omega
    case settled => exact fun _ other => nomatch other
    case none_landed => exact fun _ => none_landed
  · rw [if_neg allowed]
    constructor
    case within => trivial
    case made => trivial
    case bounded => exact Nat.zero_le attempts
    case answered => rw [unpaid, Nat.zero_add]
    case steps =>
      simp only [remaining]
      omega
    case settled => exact fun _ other => nomatch other
    case none_landed => exact fun _ => none_landed

theorem told_start (attempts : Nat) (job : PayoutJob) :
    Told attempts [] (start attempts job).payCall (start attempts job) := by
  unfold start
  by_cases first : job.checkLandedFirst = true
  · rw [if_pos first]
    constructor
    case within => trivial
    case made => rfl
    case bounded => exact Nat.zero_le attempts
    case answered => rfl
    case steps =>
      simp only [remaining, List.length_nil]
      omega
    case settled => exact fun _ other => nomatch other
    case none_landed => exact fun _ _ member => nomatch member
  · rw [if_neg first]
    exact told_firstAttempt rfl (Nat.zero_le 1) fun _ member => nomatch member

variable {attempts : Nat} {events : List PayoutEvent} {pays : Nat} {p : Progress}

theorem Told.concat_none (told : Told attempts events pays p) (unsettled : p.isSettled = false)
    {event : PayoutEvent} (nothing : event.txId? = none) :
    ∀ other ∈ events ++ [event], other.txId? = none := by
  intro other member
  rcases List.mem_append.mp member with earlier | last
  · exact told.none_landed unsettled other earlier
  · obtain rfl := List.mem_singleton.mp last
    exact nothing

theorem Told.counted (told : Told attempts events pays p) {event : PayoutEvent}
    (awaited : p.awaits event = true) : pays = (events ++ [event]).countP (·.ofPay) := by
  have answered := told.answered
  rw [List.countP_append, answered]
  congr 1
  cases p <;> cases event <;> first | rfl | cases awaited

theorem Told.settle (told : Told attempts events pays p) (unsettled : p.isSettled = false)
    {event : PayoutEvent} (awaited : p.awaits event = true) (more : 1 ≤ p.remaining attempts)
    {txId : String} (landed : event.txId? = some txId) :
    Told attempts (events ++ [event]) pays (.settled txId) where
  within := trivial
  made := trivial
  bounded := told.bounded
  answered := told.counted awaited
  steps := by
    have steps := told.steps
    simp only [List.length_append, List.length_singleton, remaining]
    omega
  settled := by
    intro other same
    cases same
    exact ⟨events, event, rfl, landed, told.none_landed unsettled⟩
  none_landed := fun other => nomatch other

-- The payout goes on after a result without a transaction.
theorem Told.goOn (told : Told attempts events pays p) (event : PayoutEvent) (p' : Progress)
    (unsettled : p.isSettled = false) (awaited : p.awaits event = true)
    (nothing : event.txId? = none) (unsettled' : p'.isSettled = false) (within : p'.within attempts)
    (made : p'.made (pays + p'.payCall)) (bounded : pays + p'.payCall ≤ attempts)
    (shorter : p'.remaining attempts + 1 ≤ p.remaining attempts) :
    Told attempts (events ++ [event]) (pays + p'.payCall) p' where
  within := within
  made := made
  bounded := bounded
  answered := by rw [told.counted awaited]
  steps := by
    have steps := told.steps
    simp only [List.length_append, List.length_singleton]
    omega
  settled := by
    intro txId same
    subst same
    cases unsettled'
  none_landed := fun _ => told.concat_none unsettled nothing

theorem Told.first (told : Told attempts events pays .checkingFirst) {outcome : LookupOutcome}
    (nothing : outcome.answer = none) :
    Told attempts (events ++ [.lookup outcome]) (pays + (firstAttempt attempts).payCall)
      (firstAttempt attempts) := by
  have none_made : pays = 0 := told.made
  unfold firstAttempt
  by_cases allowed : 1 ≤ attempts
  · rw [if_pos allowed]
    refine told.goOn (.lookup outcome) (.paying 1) rfl rfl nothing rfl ⟨le_refl 1, allowed⟩ ?_ ?_ ?_
    · rw [none_made]
      exact Nat.zero_add 1
    · simpa [payCall, isPaying, none_made] using allowed
    · simp only [remaining]
      omega
  · rw [if_neg allowed]
    refine told.goOn (.lookup outcome) (.checkingLate _) rfl rfl nothing rfl trivial trivial
      told.bounded ?_
    simp only [remaining]
    omega

theorem Told.threw {attempt : Nat} (told : Told attempts events pays (.paying attempt))
    (reason : String) (landed : Bool) :
    Told attempts (events ++ [.threw reason landed]) pays (.checkingAfter attempt reason) := by
  have calls : pays = attempt := told.made
  refine told.goOn (.threw reason landed) (.checkingAfter attempt reason) rfl rfl rfl rfl
    told.within.2 calls told.bounded ?_
  simp only [remaining]
  omega

theorem Told.again {attempt : Nat} {reason : String}
    (told : Told attempts events pays (.checkingAfter attempt reason)) {outcome : LookupOutcome}
    (nothing : outcome.answer = none) {p' : Progress}
    (goes : (if attempt < attempts then some (.sleeping attempt reason)
      else some (.checkingLate reason)) = some p') :
    Told attempts (events ++ [.lookup outcome]) (pays + p'.payCall) p' := by
  have calls : pays = attempt := told.made
  by_cases left : attempt < attempts
  · rw [if_pos left] at goes
    obtain rfl := Option.some.inj goes
    refine told.goOn (.lookup outcome) (.sleeping attempt reason) rfl rfl nothing rfl left calls
      told.bounded ?_
    simp only [remaining]
    omega
  · rw [if_neg left] at goes
    obtain rfl := Option.some.inj goes
    refine told.goOn (.lookup outcome) (.checkingLate reason) rfl rfl nothing rfl trivial trivial
      told.bounded ?_
    simp only [remaining]
    omega

theorem Told.woken {attempt : Nat} {reason : String}
    (told : Told attempts events pays (.sleeping attempt reason)) :
    Told attempts (events ++ [.wake]) (pays + 1) (.paying (attempt + 1)) := by
  have calls : pays = attempt := told.made
  have left : attempt < attempts := told.within
  refine told.goOn .wake (.paying (attempt + 1)) rfl rfl rfl rfl ⟨by omega, left⟩ ?_ ?_ ?_
  · rw [calls]
    rfl
  · simp only [payCall, isPaying, if_true]
    omega
  · simp only [remaining]
    omega

theorem Told.next {event : PayoutEvent} {p' : Progress} (told : Told attempts events pays p)
    (goes : next attempts p event = some p') :
    Told attempts (events ++ [event]) (pays + p'.payCall) p' := by
  have awaited : p.awaits event = true := by
    rw [← next_isSome attempts, goes]
    rfl
  cases p with
  | checkingFirst =>
    cases event with
    | lookup outcome =>
      cases answered : outcome.answer with
      | some txId =>
        simp only [Progress.next, answered, Option.some.injEq] at goes
        subst goes
        exact told.settle rfl rfl (by simp only [remaining]; omega) answered
      | none =>
        simp only [Progress.next, answered, Option.some.injEq] at goes
        subst goes
        exact told.first answered
    | _ => cases awaited
  | paying attempt =>
    cases event with
    | paid txId =>
      cases goes
      exact told.settle rfl rfl (by simp only [remaining]; omega) rfl
    | threw reason landed =>
      cases goes
      exact told.threw reason landed
    | _ => cases awaited
  | checkingAfter attempt reason =>
    cases event with
    | lookup outcome =>
      cases answered : outcome.answer with
      | some txId =>
        simp only [Progress.next, answered, Option.some.injEq] at goes
        subst goes
        exact told.settle rfl rfl (by simp only [remaining]; omega) answered
      | none =>
        simp only [Progress.next, answered] at goes
        exact told.again answered goes
    | _ => cases awaited
  | sleeping attempt reason =>
    cases event with
    | wake =>
      cases goes
      exact told.woken
    | _ => cases awaited
  | checkingLate reason =>
    cases event with
    | lookup outcome =>
      cases answered : outcome.answer with
      | some txId =>
        simp only [Progress.next, answered, Option.some.injEq] at goes
        subst goes
        exact told.settle rfl rfl (by simp only [remaining]; omega) answered
      | none =>
        simp only [Progress.next, answered, Option.some.injEq] at goes
        subst goes
        exact told.goOn (.lookup outcome) (.failed reason) rfl rfl answered rfl trivial trivial
          told.bounded (by simp only [remaining]; omega)
    | _ => cases awaited
  | settled txId => cases awaited
  | failed reason => cases awaited

end Progress

namespace Service

variable (cfg : Deps)

def answered (index : Nat) (svc : Service) (a : Answer) : Option Service :=
  resumePayout cfg svc index a.event a.attemptAt a.settledAt

-- All that is different while the last payout is at `p`, with `pays` calls of `pay` made for it.
def underWay (svc : Service) (job : PayoutJob) (p : Progress) (pays : Nat) : Service :=
  { svc with
    payouts := svc.payouts ++ [⟨job, p⟩]
    outbox := svc.outbox ++ List.replicate pays (payoutRequest cfg job) }

theorem calls_replicate (job : PayoutJob) (p : Progress) :
    calls cfg job p = List.replicate p.payCall (payoutRequest cfg job) := by
  unfold calls Progress.payCall
  split <;> rfl

theorem runPayout_underWay (svc : Service) (job : PayoutJob) :
    runPayout cfg svc job = underWay cfg svc job (Progress.start cfg.attempts job)
      (Progress.start cfg.attempts job).payCall := by
  unfold runPayout underWay
  dsimp only
  rw [calls_replicate]

theorem answered_underWay (svc : Service) (job : PayoutJob) (p : Progress) (pays : Nat)
    (a : Answer) :
    answered cfg svc.payouts.length (underWay cfg svc job p pays) a =
      (Progress.next cfg.attempts p a.event).map fun p' =>
        finalize cfg (underWay cfg svc job p' (pays + p'.payCall)) job p' a.attemptAt
          a.settledAt := by
  have here : (underWay cfg svc job p pays).payouts[svc.payouts.length]? = some ⟨job, p⟩ := by
    simp [underWay]
  have later (p' : Progress) :
      (underWay cfg svc job p pays).payouts.set svc.payouts.length ⟨job, p'⟩ =
        svc.payouts ++ [⟨job, p'⟩] := by
    simp [underWay]
  unfold answered resumePayout
  simp only [here, Option.bind_eq_bind, Option.bind_some]
  cases Progress.next cfg.attempts p a.event with
  | none => rfl
  | some p' =>
    simp only [Option.bind_some, Option.pure_def, Option.map_some, later, calls_replicate]
    simp only [underWay, List.append_assoc, List.replicate_append_replicate]

theorem finalize_open (svc : Service) (job : PayoutJob) {p : Progress} (unfinished : p.ended = false)
    (attemptAt settledAt : Nat) : finalize cfg svc job p attemptAt settledAt = svc := by
  cases p <;> first | rfl | cases unfinished

theorem enqueueStore_aside (svc : Service) (operatorAddress : String) (ops : List StoreOp) :
    (enqueueStore cfg svc operatorAddress ops).payouts = svc.payouts ∧
      (enqueueStore cfg svc operatorAddress ops).outbox = svc.outbox ∧
      (enqueueStore cfg svc operatorAddress ops).ledger = svc.ledger := by
  unfold enqueueStore
  split <;> exact ⟨rfl, rfl, rfl⟩

-- Finalizing goes through the ledger and the stores.
theorem finalizeSettled_updates (svc : Service) (records : List SettlementRecord)
    (txId : Option String) (batchId : Option String) (settledAt : Nat) :
    ∃ before : Service, before.payouts = svc.payouts ∧ before.outbox = svc.outbox ∧
      before.ledger = svc.ledger ∧
      finalizeSettled cfg svc records txId batchId settledAt =
        updateAll cfg before records fun record =>
          { record with
            payoutTxId := txId, batchId := batchId, status := .settled
            settledAt := some settledAt } := by
  refine ⟨_, ?_, ?_, ?_, rfl⟩
  all_goals
    cases batchId with
    | none => rfl
    | some batchId =>
      obtain ⟨payouts, outbox, ledger⟩ := enqueueStore_aside cfg (svc.dropLiability (some batchId))
        ((records.head?.map (·.operatorAddress)).getD "") [.removeBatch batchId]
      first | exact payouts | exact outbox | exact ledger

theorem finalizeFailed_updates (svc : Service) (records : List SettlementRecord) (reason : String)
    (batchId : Option String) (attemptAt settledAt : Nat) :
    ∃ before : Service, before.payouts = svc.payouts ∧ before.outbox = svc.outbox ∧
      before.ledger = svc.ledger ∧
      finalizeFailed cfg svc records reason batchId attemptAt settledAt =
        updateAll cfg before records fun record =>
          { record with
            batchId := batchId, status := .failed, error := some (slice reason 1024)
            settledAt := some settledAt } := by
  refine ⟨svc.annotate batchId reason attemptAt, ?_, ?_, ?_, rfl⟩
  all_goals
    unfold annotate
    split
    · rfl
    · split <;> rfl

theorem finalize_kept (svc : Service) (job : PayoutJob) (p : Progress) (attemptAt settledAt : Nat) :
    (finalize cfg svc job p attemptAt settledAt).payouts = svc.payouts ∧
      (finalize cfg svc job p attemptAt settledAt).outbox = svc.outbox := by
  cases p with
  | settled txId =>
    obtain ⟨before, payouts, outbox, -, updates⟩ :=
      finalizeSettled_updates cfg svc job.records (some txId) job.batchId settledAt
    have kept := updateAll_bookkeeping cfg before job.records fun record =>
      { record with
        payoutTxId := some txId, batchId := job.batchId, status := .settled
        settledAt := some settledAt }
    simp only [finalize]
    rw [updates]
    exact ⟨kept.payouts.trans payouts, kept.outbox.trans outbox⟩
  | failed reason =>
    obtain ⟨before, payouts, outbox, -, updates⟩ :=
      finalizeFailed_updates cfg svc job.records reason job.batchId attemptAt settledAt
    have kept := updateAll_bookkeeping cfg before job.records fun record =>
      { record with
        batchId := job.batchId, status := .failed, error := some (slice reason 1024)
        settledAt := some settledAt }
    simp only [finalize]
    rw [updates]
    exact ⟨kept.payouts.trans payouts, kept.outbox.trans outbox⟩
  | _ => exact ⟨rfl, rfl⟩

theorem update_get (svc : Service) (requestId : String) (record : SettlementRecord)
    (other : String) : (update cfg svc requestId record).ledger.get? other =
      if other = requestId then (svc.ledger.get? requestId).map fun _ => record
      else svc.ledger.get? other := by
  unfold update
  cases found : svc.ledger.get? requestId with
  | none =>
    by_cases same : other = requestId
    · simp [OrderedMap.contains, found, same]
    · simp [OrderedMap.contains, found, same]
  | some row =>
    rw [if_pos (by simp [OrderedMap.contains, found]), persistLedger_ledger, OrderedMap.get?_set]
    simp

theorem updateAll_get (records : List SettlementRecord)
    (revise : SettlementRecord → SettlementRecord) {requestId : String} {row : SettlementRecord}
    {svc : Service} (found : (updateAll cfg svc records revise).ledger.get? requestId = some row) :
    (∃ other ∈ records, row = revise other) ∨
      svc.ledger.get? requestId = some row ∧ ∀ other ∈ records, other.requestId ≠ requestId := by
  induction records generalizing svc with
  | nil => exact .inr ⟨found, fun _ member => nomatch member⟩
  | cons first rest ih =>
    rcases ih found with ⟨other, member, revised⟩ | ⟨kept, absent⟩
    · exact .inl ⟨other, List.mem_cons_of_mem first member, revised⟩
    rw [update_get] at kept
    split at kept
    next own =>
      obtain ⟨before, -, revised⟩ := Option.map_eq_some_iff.mp kept
      exact .inl ⟨first, List.mem_cons_self, revised.symm⟩
    next other =>
      refine .inr ⟨kept, ?_⟩
      intro record member
      rcases List.mem_cons.mp member with rfl | later
      · exact fun same => other same.symm
      · exact absent record later

-- Whatever row of a job is still in the ledger was revised.
theorem updateAll_row (svc : Service) (records : List SettlementRecord)
    (revise : SettlementRecord → SettlementRecord) {record row : SettlementRecord}
    (member : record ∈ records)
    (found : (updateAll cfg svc records revise).ledger.get? record.requestId = some row) :
    ∃ other ∈ records, row = revise other := by
  rcases updateAll_get cfg records revise found with revised | absent
  · exact revised
  · exact absurd rfl (absent.2 record member)

theorem finalize_row (svc : Service) (job : PayoutJob) (p : Progress) (attemptAt settledAt : Nat)
    {record row : SettlementRecord} (member : record ∈ job.records)
    (found : (finalize cfg svc job p attemptAt settledAt).ledger.get? record.requestId = some row) :
    (∀ txId, p = .settled txId → row.status = .settled ∧ row.payoutTxId = some txId ∧
      row.batchId = job.batchId ∧ row.settledAt = some settledAt) ∧
    ∀ reason, p = .failed reason → row.status = .failed ∧ row.error = some (slice reason 1024) ∧
      row.batchId = job.batchId ∧ row.settledAt = some settledAt := by
  constructor
  · rintro txId rfl
    obtain ⟨before, -, -, -, updates⟩ :=
      finalizeSettled_updates cfg svc job.records (some txId) job.batchId settledAt
    simp only [finalize, updates] at found
    obtain ⟨other, -, rfl⟩ := updateAll_row cfg before job.records _ member found
    exact ⟨rfl, rfl, rfl, rfl⟩
  · rintro reason rfl
    obtain ⟨before, -, -, -, updates⟩ :=
      finalizeFailed_updates cfg svc job.records reason job.batchId attemptAt settledAt
    simp only [finalize, updates] at found
    obtain ⟨other, -, rfl⟩ := updateAll_row cfg before job.records _ member found
    exact ⟨rfl, rfl, rfl, rfl⟩

-- `final` is the service after the results `answers`, when the last payout is at `p`.
structure Played (svc : Service) (job : PayoutJob) (answers : List Answer) (p : Progress)
    (pays : Nat) (final : Service) : Prop where
  told : Progress.Told cfg.attempts (answers.map (·.event)) pays p
  unfinished : p.ended = false → final = underWay cfg svc job p pays
  finished : p.ended = true → ∃ last, answers.getLast? = some last ∧
    final = finalize cfg (underWay cfg svc job p pays) job p last.attemptAt last.settledAt

variable {cfg} {svc : Service} {job : PayoutJob} {answers : List Answer} {p : Progress} {pays : Nat}
  {final : Service}

theorem played_start : Played cfg svc job [] (Progress.start cfg.attempts job)
    (Progress.start cfg.attempts job).payCall (runPayout cfg svc job) where
  told := Progress.told_start cfg.attempts job
  unfinished := fun _ => runPayout_underWay cfg svc job
  finished := by
    intro atEnd
    unfold Progress.start Progress.firstAttempt at atEnd
    split at atEnd
    · cases atEnd
    · split at atEnd <;> cases atEnd

theorem Played.payouts (played : Played cfg svc job answers p pays final) :
    final.payouts = svc.payouts ++ [⟨job, p⟩] ∧
      final.outbox = svc.outbox ++ List.replicate pays (payoutRequest cfg job) := by
  cases atEnd : p.ended with
  | false =>
    rw [played.unfinished atEnd]
    exact ⟨rfl, rfl⟩
  | true =>
    obtain ⟨last, -, same⟩ := played.finished atEnd
    obtain ⟨payouts, outbox⟩ :=
      finalize_kept cfg (underWay cfg svc job p pays) job p last.attemptAt last.settledAt
    rw [same, payouts, outbox]
    exact ⟨rfl, rfl⟩

theorem Played.answered (played : Played cfg svc job answers p pays final) (a : Answer) :
    (answered cfg svc.payouts.length final a).isSome = p.awaits a.event := by
  have here : final.payouts[svc.payouts.length]? = some ⟨job, p⟩ := by
    simp [played.payouts.1]
  unfold Service.answered resumePayout
  simp only [here, Option.bind_eq_bind, Option.bind_some]
  rw [← Progress.next_isSome cfg.attempts]
  cases Progress.next cfg.attempts p a.event <;> rfl

theorem Played.step (played : Played cfg svc job answers p pays final) {a : Answer}
    {later : Service} (taken : Service.answered cfg svc.payouts.length final a = some later) :
    ∃ p' pays', Played cfg svc job (answers ++ [a]) p' pays' later := by
  have awaited := played.answered a
  rw [taken, Option.isSome_some] at awaited
  have unfinished : p.ended = false := by
    rw [← Bool.not_eq_true]
    intro atEnd
    rw [Progress.awaits_none atEnd] at awaited
    cases awaited
  rw [played.unfinished unfinished, answered_underWay] at taken
  obtain ⟨p', goes, rfl⟩ := Option.map_eq_some_iff.mp taken
  refine ⟨p', pays + p'.payCall, ?_, ?_, ?_⟩
  · rw [List.map_append, List.map_singleton]
    exact played.told.next goes
  · exact fun still => finalize_open cfg _ job still _ _
  · exact fun _ => ⟨a, by simp, rfl⟩

theorem replay_played
    (replayed : replay (Service.answered cfg svc.payouts.length) (runPayout cfg svc job) answers =
      some final) :
    ∃ p pays, Played cfg svc job answers p pays final := by
  induction answers using List.reverseRecOn generalizing final with
  | nil =>
    obtain rfl : runPayout cfg svc job = final := by simpa [replay] using replayed
    exact ⟨_, _, played_start⟩
  | append_singleton answers a ih =>
    rw [replay_concat] at replayed
    obtain ⟨before, earlier, taken⟩ := Option.bind_eq_some_iff.mp replayed
    obtain ⟨p, pays, played⟩ := ih earlier
    exact played.step taken

variable (cfg)

/-- Whatever the calls answer, one payout makes at most `attempts` calls of `pay`, ends, and tells
what happened in every record of its job, once. -/
theorem runPayout_truthful (svc : Service) (job : PayoutJob) (answers : List Answer)
    (final : Service)
    (replayed : replay (Service.answered cfg svc.payouts.length) (runPayout cfg svc job) answers =
      some final) :
    ∃ p pays,
      final.payouts = svc.payouts ++ [⟨job, p⟩] ∧
      final.outbox = svc.outbox ++ List.replicate pays (payoutRequest cfg job) ∧
      pays ≤ cfg.attempts ∧
      pays = answers.countP (·.event.ofPay) + p.payCall ∧
      answers.length ≤ 3 * cfg.attempts + 2 ∧
      (∀ a, (Service.answered cfg svc.payouts.length final a).isSome = p.awaits a.event) ∧
      (p.ended = false → final = underWay cfg svc job p pays ∧ ∃ event, p.awaits event = true) ∧
      (p.ended = true → (∀ event, p.awaits event = false) ∧
        ∃ last, answers.getLast? = some last ∧
          final = finalize cfg (underWay cfg svc job p pays) job p last.attemptAt
            last.settledAt ∧
          ∀ record ∈ job.records, ∀ row, final.ledger.get? record.requestId = some row →
            (∀ txId, p = .settled txId → row.status = .settled ∧ row.payoutTxId = some txId) ∧
            ∀ reason, p = .failed reason → row.status = .failed) ∧
      (∀ txId, p = .settled txId → ∃ before last, answers = before ++ [last] ∧
        last.event.txId? = some txId ∧ ∀ a ∈ before, a.event.txId? = none) ∧
      ((∃ reason, p = .failed reason) ↔
        p.ended = true ∧ ∀ a ∈ answers, a.event.txId? = none) := by
  obtain ⟨p, pays, played⟩ := replay_played replayed
  have told := played.told
  refine ⟨p, pays, played.payouts.1, played.payouts.2, told.bounded, ?_, ?_, played.answered, ?_, ?_,
    ?_, ?_⟩
  · rw [told.answered, List.countP_map]
    rfl
  · have steps := told.steps
    rw [List.length_map] at steps
    omega
  · exact fun unfinished => ⟨played.unfinished unfinished, Progress.awaits_some unfinished⟩
  · intro atEnd
    obtain ⟨last, final_answer, same⟩ := played.finished atEnd
    refine ⟨Progress.awaits_none atEnd, last, final_answer, same, ?_⟩
    intro record member row found
    rw [same] at found
    obtain ⟨settled, failed⟩ := finalize_row cfg _ job p _ _ member found
    exact ⟨fun txId ended => ⟨(settled txId ended).1, (settled txId ended).2.1⟩,
      fun reason ended => (failed reason ended).1⟩
  · intro txId settled
    obtain ⟨before, last, split, landed, nothing⟩ := told.settled txId settled
    obtain ⟨earlier, rest, rfl, rfl, ended⟩ := List.map_eq_append_iff.mp split
    obtain ⟨a, rfl, rfl⟩ := List.map_eq_singleton_iff.mp ended
    exact ⟨earlier, a, rfl, landed, fun other member => nothing _ (List.mem_map_of_mem member)⟩
  · constructor
    · rintro ⟨reason, rfl⟩
      exact ⟨rfl, fun a member => told.none_landed rfl _ (List.mem_map_of_mem member)⟩
    · rintro ⟨atEnd, nothing⟩
      cases p with
      | failed reason => exact ⟨reason, rfl⟩
      | settled txId =>
        obtain ⟨before, last, split, landed, -⟩ := told.settled txId rfl
        have member : last ∈ answers.map (·.event) := by simp [split]
        obtain ⟨a, found, rfl⟩ := List.mem_map.mp member
        rw [nothing a found] at landed
        cases landed
      | _ => cases atEnd

def lostRecord : SettlementRecord where
  requestId := "req-1"
  nodeId := "node-a"
  payerAddress := "PAYER"
  operatorAddress := "OPERATOR"
  inboundAtomic := "3000"
  payoutAtomic := "2550"
  marginAtomic := "450"
  inboundTxId := "IN"
  payoutTxId := none
  batchId := none
  status := .pending
  error := none
  createdAt := 0
  settledAt := none

def lostJob : PayoutJob := ⟨"req-1", "OPERATOR", 2550, [lostRecord], none, false⟩

-- The first payment lands and its confirmation is lost, which the second lookup finds out.
def lostAnswers : List Answer :=
  [⟨.threw "confirmation timed out" true, 0, 0⟩, ⟨.lookup .failed, 0, 0⟩, ⟨.wake, 0, 0⟩,
    ⟨.threw "lease already used" false, 0, 0⟩, ⟨.lookup (.found "TX"), 9, 9⟩]

theorem runPayout_truthful_lost :
    ∃ final pays,
      replay (Service.answered World.demoDeps 0) (runPayout World.demoDeps .init lostJob)
        lostAnswers = some final ∧
      final.payouts = [⟨lostJob, .settled "TX"⟩] ∧
      final.outbox = List.replicate pays (payoutRequest World.demoDeps lostJob) ∧ pays = 2 := by
  have ends : (replay (Service.answered World.demoDeps 0) (runPayout World.demoDeps .init lostJob)
      lostAnswers).map (·.payouts) = some [⟨lostJob, .settled "TX"⟩] := rfl
  obtain ⟨final, replayed, ended⟩ := Option.map_eq_some_iff.mp ends
  obtain ⟨p, pays, payouts, outbox, -, made, -⟩ :=
    runPayout_truthful World.demoDeps .init lostJob lostAnswers final replayed
  obtain rfl : Progress.settled "TX" = p := by
    have same := ended.symm.trans payouts
    simp only [init, List.nil_append, List.cons.injEq, PayoutRun.mk.injEq, and_true, true_and] at same
    exact same
  exact ⟨final, pays, replayed, ended, outbox, made⟩

end Service

end X402Mesh.Settlement
