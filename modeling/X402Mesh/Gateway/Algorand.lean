import X402Mesh.Settlement.Recovery

set_option autoImplicit false

-- The adapter and the service both answer a question that went unanswered with "no payout found".

namespace X402Mesh.Gateway

open Registry Settlement

-- `note` is the note as `decodeNote` reads it, and `id` is none where it is not a string.
structure Transaction where
  id : Option String
  sender : String
  note : String
  deriving DecidableEq, Repr

def searchLimit : Nat := 20

-- The page that a search answers with. The transactions behind `nextToken` are never asked for.
structure Page where
  transactions : List Transaction
  nextToken : Option String
  limited : transactions.length ≤ searchLimit
  deriving DecidableEq, Repr

inductive Search
  | answered (page : Page)
  | failed
  | timedOut
  deriving DecidableEq, Repr

-- `findLandedPayout` is an optional method of the payer.
structure Payer where
  senderAddress : String
  looksUp : Bool
  deriving DecidableEq, Repr

namespace Payer

def wanted (requestId : String) : String := "x402-mesh/payout/" ++ requestId

def carries (payer : Payer) (requestId : String) (t : Transaction) : Bool :=
  decide (t.sender = payer.senderAddress ∧ t.note = wanted requestId)

def landedAs (payer : Payer) (requestId : String) (t : Transaction) : Option String :=
  if payer.carries requestId t then t.id.filter (· ≠ "") else none

def findLandedPayout (payer : Payer) (requestId : String) : Search → Option String
  | .answered page => page.transactions.findSome? (payer.landedAs requestId)
  | .failed => none
  | .timedOut => none

-- The payout is on the page, or neither there nor on a page after it.
def conclusive (payer : Payer) (requestId : String) : Search → Bool
  | .answered page =>
    page.transactions.any (fun t => (payer.landedAs requestId t).isSome) ||
      (page.nextToken.isNone && page.transactions.all fun t => !payer.carries requestId t)
  | .failed => false
  | .timedOut => false

end Payer

-- `findLandedPayout` of the service.
def findLandedPayout (payer : Payer) (job : PayoutJob) (search : Search) : Option String :=
  if payer.looksUp then payer.findLandedPayout job.payoutId search else none

def lookupOutcome (payer : Payer) (job : PayoutJob) (search : Search) : LookupOutcome :=
  if payer.looksUp then
    match search with
    | .answered page =>
      match page.transactions.findSome? (payer.landedAs job.payoutId) with
      | some txId => .found txId
      | none => .notFound
    | .failed => .failed
    | .timedOut => .timedOut
  else .unsupported

theorem lookupOutcome_answer (payer : Payer) (job : PayoutJob) (search : Search) :
    (lookupOutcome payer job search).answer = findLandedPayout payer job search := by
  unfold lookupOutcome findLandedPayout
  split
  · cases search with
    | answered page =>
      simp only [Payer.findLandedPayout]
      cases page.transactions.findSome? (payer.landedAs job.payoutId) <;> rfl
    | failed => rfl
    | timedOut => rfl
  · rfl

-- The chain was asked and answered in full, and no payout with the note of the job is there.
def KnownUnpaid (payer : Payer) (job : PayoutJob) (search : Search) : Prop :=
  payer.looksUp = true ∧ ∃ page, search = .answered page ∧ page.nextToken = none ∧
    ∀ t ∈ page.transactions, payer.carries job.payoutId t = false

def answers (payer : Payer) (job : PayoutJob) (search : Search) : Bool :=
  payer.looksUp && payer.conclusive job.payoutId search

theorem knownUnpaid_iff (payer : Payer) (job : PayoutJob) (search : Search) :
    KnownUnpaid payer job search ↔
      answers payer job search = true ∧ findLandedPayout payer job search = none := by
  unfold KnownUnpaid answers findLandedPayout
  cases search with
  | answered page =>
    simp only [Payer.conclusive, Payer.findLandedPayout, Search.answered.injEq, exists_eq_left',
      Bool.and_eq_true, Bool.or_eq_true, List.any_eq_true, List.all_eq_true, Bool.not_eq_true',
      Option.isNone_iff_eq_none]
    constructor
    · rintro ⟨able, last, none_match⟩
      have unlanded : ∀ t ∈ page.transactions, payer.landedAs job.payoutId t = none := by
        intro t member
        simp [Payer.landedAs, none_match t member]
      exact ⟨⟨able, .inr ⟨last, none_match⟩⟩, by simpa [able] using unlanded⟩
    · rintro ⟨⟨able, whole⟩, nothing⟩
      have unlanded : ∀ t ∈ page.transactions, payer.landedAs job.payoutId t = none := by
        simpa [able] using nothing
      refine ⟨able, whole.resolve_left ?_⟩
      rintro ⟨t, member, landed⟩
      simp [unlanded t member] at landed
  | failed => simp [Payer.conclusive]
  | timedOut => simp [Payer.conclusive]

inductive Await
  | searched (search : Search)
  | paid (txId : String)
  | threw (reason : String) (landed : Bool)
  | woke
  deriving DecidableEq, Repr

def Await.event (payer : Payer) (job : PayoutJob) : Await → PayoutEvent
  | .searched search => .lookup (lookupOutcome payer job search)
  | .paid txId => .paid txId
  | .threw reason landed => .threw reason landed
  | .woke => .wake

def Await.search? : Await → Option Search
  | .searched search => some search
  | _ => none

def searches (heard : List Await) : List Search := heard.filterMap Await.search?

section session

variable (cfg : Deps) (attempts : Nat) (payer : Payer) (job : PayoutJob)

-- How far the payout gets when it hears these answers in turn.
def progressAfter (heard : List Await) : Option Progress :=
  Transition.replay (fun p await => Progress.next attempts p (Await.event payer job await))
    (Progress.start attempts job) heard

-- Each time `pay` is called, the last search has shown that there is no payout yet.
def PaysOnlyUnpaid (heard : List Await) : Prop :=
  ∀ sofar, sofar <+: heard → ∀ progress,
    progressAfter cfg.attempts payer job sofar = some progress →
    Service.calls cfg job progress ≠ [] →
      ∃ search, (searches sofar).getLast? = some search ∧ KnownUnpaid payer job search

/-- The searches that an attempt may follow: the one made first and one for each failed attempt but
the last. -/
def Conclusive (heard : List Await) : Prop :=
  ∀ search ∈ (searches heard).take attempts, answers payer job search = true

-- What has been asked by the time a payout is at each of its awaits.
def Asked (asked : List Search) : Progress → Prop
  | .checkingFirst => asked = []
  | .paying attempt =>
    asked.length = attempt ∧ attempt ≤ attempts ∧
      ∃ last, asked.getLast? = some last ∧ findLandedPayout payer job last = none
  | .checkingAfter attempt _ => asked.length = attempt ∧ attempt ≤ attempts
  | .sleeping attempt _ =>
    asked.length = attempt + 1 ∧ attempt < attempts ∧
      ∃ last, asked.getLast? = some last ∧ findLandedPayout payer job last = none
  | .checkingLate _ => attempts < asked.length
  | .settled _ | .failed _ => True

theorem searches_concat (heard : List Await) (await : Await) :
    searches (heard ++ [await]) = searches heard ++ (Await.search? await).toList := by
  simp [searches, List.filterMap_append, List.filterMap_cons]
  cases Await.search? await <;> rfl

theorem progressAfter_concat (heard : List Await) (await : Await) (progress : Progress)
    (reached : progressAfter attempts payer job (heard ++ [await]) = some progress) :
    ∃ before, progressAfter attempts payer job heard = some before ∧
      before.next attempts (await.event payer job) = some progress := by
  unfold progressAfter at reached
  rw [Transition.replay_concat] at reached
  exact Option.bind_eq_some_iff.mp reached

/-- One await of a payout, with the search it made. -/
inductive Advance : Progress → Option Search → Progress → Prop
  | found (before : Progress) (search : Search) (txId : String)
      (awake : ∀ attempt reason, before ≠ .sleeping attempt reason)
      (answer : findLandedPayout payer job search = some txId) :
      Advance before (some search) (.settled txId)
  | first (search : Search) (answer : findLandedPayout payer job search = none) :
      Advance .checkingFirst (some search) (Progress.firstAttempt attempts)
  | again (attempt : Nat) (reason : String) (search : Search)
      (answer : findLandedPayout payer job search = none) (more : attempt < attempts) :
      Advance (.checkingAfter attempt reason) (some search) (.sleeping attempt reason)
  | late (attempt : Nat) (reason : String) (search : Search)
      (answer : findLandedPayout payer job search = none) (spent : ¬ attempt < attempts) :
      Advance (.checkingAfter attempt reason) (some search) (.checkingLate reason)
  | gaveUp (reason : String) (search : Search)
      (answer : findLandedPayout payer job search = none) :
      Advance (.checkingLate reason) (some search) (.failed reason)
  | paid (attempt : Nat) (txId : String) : Advance (.paying attempt) none (.settled txId)
  | threw (attempt : Nat) (reason : String) :
      Advance (.paying attempt) none (.checkingAfter attempt reason)
  | woke (attempt : Nat) (reason : String) :
      Advance (.sleeping attempt reason) none (.paying (attempt + 1))

theorem next_advance (before after : Progress) (await : Await)
    (advanced : before.next attempts (await.event payer job) = some after) :
    Advance attempts payer job before await.search? after := by
  cases await with
  | searched search =>
    simp only [Await.event] at advanced
    cases before <;> simp only [Progress.next, lookupOutcome_answer, reduceCtorEq] at advanced <;>
      cases answer : findLandedPayout payer job search <;>
        simp only [answer, Option.some.injEq] at advanced
    case checkingFirst.none => exact advanced ▸ .first search answer
    case checkingAfter.none attempt reason =>
      split at advanced
      · exact Option.some.inj advanced ▸ .again attempt reason search answer ‹_›
      · exact Option.some.inj advanced ▸ .late attempt reason search answer ‹_›
    case checkingLate.none reason => exact advanced ▸ .gaveUp reason search answer
    all_goals exact advanced ▸ .found _ search _ (by simp) answer
  | paid txId =>
    cases before <;> simp only [Await.event, Progress.next, Option.some.injEq,
      reduceCtorEq] at advanced
    exact advanced ▸ .paid _ txId
  | threw reason landed =>
    cases before <;> simp only [Await.event, Progress.next, Option.some.injEq,
      reduceCtorEq] at advanced
    exact advanced ▸ .threw _ reason
  | woke =>
    cases before <;> simp only [Await.event, Progress.next, Option.some.injEq,
      reduceCtorEq] at advanced
    exact advanced ▸ .woke _ _

theorem Asked.advance {asked : List Search} {before after : Progress} {search : Option Search}
    (held : Asked attempts payer job asked before)
    (advanced : Advance attempts payer job before search after) :
    Asked attempts payer job (asked ++ search.toList) after := by
  cases advanced with
  | found | paid | gaveUp => trivial
  | first search answer =>
    obtain rfl : asked = [] := held
    unfold Progress.firstAttempt
    split
    · simp [Asked, *]
    · simp only [Asked, Option.toList_some, List.nil_append, List.length_singleton]
      omega
  | again attempt reason search answer more => simp [Asked, answer, held.1, more]
  | late attempt reason search answer spent =>
    have count := held.1
    simp only [Asked, Option.toList_some, List.length_append, List.length_singleton]
    omega
  | threw attempt reason => simpa [Asked] using And.intro held.1 held.2.1
  | woke attempt reason =>
    obtain ⟨count, more, last⟩ := held
    simpa [Asked] using And.intro count (And.intro (Nat.succ_le_of_lt more) last)

theorem asked_after (heard : List Await) (progress : Progress)
    (asks : job.checkLandedFirst = true)
    (reached : progressAfter attempts payer job heard = some progress) :
    Asked attempts payer job (searches heard) progress := by
  induction heard using List.reverseRecOn generalizing progress with
  | nil =>
    obtain rfl : Progress.checkingFirst = progress := by
      simpa [progressAfter, Transition.replay, Progress.start, asks] using reached
    rfl
  | append_singleton heard await ih =>
    obtain ⟨before, earlier, advanced⟩ :=
      progressAfter_concat attempts payer job heard await progress reached
    rw [searches_concat]
    exact (ih before earlier).advance attempts payer job
      (next_advance attempts payer job before progress await advanced)

theorem isPaying_of_calls (progress : Progress) (called : Service.calls cfg job progress ≠ []) :
    progress.isPaying = true := by
  by_contra idle
  exact called (if_neg idle)

-- Conclusive searches are enough, at every point of the payout.
theorem paysOnlyUnpaid_of_conclusive (asks : job.checkLandedFirst = true) (heard : List Await)
    (conclusive : Conclusive cfg.attempts payer job heard) : PaysOnlyUnpaid cfg payer job heard := by
  intro sofar earlier progress reached called
  have asked := asked_after cfg.attempts payer job sofar progress asks reached
  have paying := isPaying_of_calls cfg job progress called
  cases progress with
  | paying attempt =>
    obtain ⟨count, bound, last, final, answer⟩ := asked
    refine ⟨last, final, (knownUnpaid_iff payer job last).mpr ⟨conclusive last ?_, answer⟩⟩
    have inside : last ∈ (searches sofar).take cfg.attempts := by
      rw [List.take_of_length_le (by omega)]
      exact List.mem_of_getLast? final
    exact ((earlier.filterMap Await.search?).take cfg.attempts).subset inside
  | _ => cases paying

-- The searches already known to have been conclusive, when every call so far was justified.
def Vouched (asked : List Search) : Progress → Prop
  | .sleeping _ _ => ∀ search ∈ asked.dropLast, answers payer job search = true
  | _ => ∀ search ∈ asked.take attempts, answers payer job search = true

theorem answers_of_found (search : Search) (txId : String)
    (answer : findLandedPayout payer job search = some txId) : answers payer job search = true := by
  unfold findLandedPayout at answer
  split at answer
  next able =>
    cases search with
    | answered page =>
      obtain ⟨t, member, landed⟩ := List.exists_of_findSome?_eq_some answer
      have matched : page.transactions.any (fun t => (payer.landedAs job.payoutId t).isSome) = true :=
        List.any_eq_true.mpr ⟨t, member, by simp [landed]⟩
      simp [answers, able, Payer.conclusive, matched]
    | failed => cases answer
    | timedOut => cases answer
  next => cases answer

theorem Vouched.advance {asked : List Search} {before after : Progress} {search : Option Search}
    (held : Vouched attempts payer job asked before) (counted : Asked attempts payer job asked before)
    (advanced : Advance attempts payer job before search after)
    (justified : after.isPaying = true →
      ∃ last, (asked ++ search.toList).getLast? = some last ∧ KnownUnpaid payer job last) :
    Vouched attempts payer job (asked ++ search.toList) after := by
  have conclusive {last : Search} (unpaid : KnownUnpaid payer job last) :=
    ((knownUnpaid_iff payer job last).mp unpaid).1
  cases advanced with
  | found _ search txId awake answer =>
    have vouched : ∀ s ∈ asked.take attempts, answers payer job s = true := by
      cases before with
      | sleeping attempt reason => exact absurd rfl (awake attempt reason)
      | _ => exact held
    intro s member
    rcases List.mem_append.mp (List.take_append .. ▸ member) with old | new
    · exact vouched s old
    · obtain rfl := List.mem_singleton.mp (List.mem_of_mem_take new)
      exact answers_of_found payer job s txId answer
  | first search answer =>
    obtain rfl : asked = [] := counted
    unfold Progress.firstAttempt at justified ⊢
    split at justified
    · rw [if_pos ‹_›]
      obtain ⟨last, final, unpaid⟩ := justified rfl
      intro s member
      obtain rfl := List.mem_singleton.mp (List.mem_of_mem_take member)
      obtain rfl : s = last := by simpa using final
      exact conclusive unpaid
    · rw [if_neg ‹_›]
      obtain rfl : attempts = 0 := by omega
      simp [Vouched]
  | again attempt reason search answer more =>
    have all : asked.take attempts = asked := List.take_of_length_le (by have := counted.1; omega)
    simp only [Vouched, Option.toList_some, List.dropLast_concat]
    simpa [Vouched, all] using held
  | late attempt reason search answer spent =>
    have count := counted.1
    simp only [Vouched, Option.toList_some]
    rw [List.take_append_of_le_length (by omega)]
    exact held
  | gaveUp reason search answer =>
    have count : attempts < asked.length := counted
    simp only [Vouched, Option.toList_some]
    rw [List.take_append_of_le_length count.le]
    exact held
  | paid attempt txId => simpa [Vouched] using held
  | threw attempt reason => simpa [Vouched] using held
  | woke attempt reason =>
    obtain ⟨last, final, unpaid⟩ := justified rfl
    rw [Option.toList_none, List.append_nil] at final ⊢
    obtain ⟨init, rfl⟩ := List.getLast?_eq_some_iff.mp final
    intro s member
    rcases List.mem_append.mp (List.mem_of_mem_take member) with old | new
    · exact held s (by simpa using old)
    · obtain rfl := List.mem_singleton.mp new
      exact conclusive unpaid

theorem vouched_after (asks : job.checkLandedFirst = true) (heard : List Await)
    (progress : Progress) (reached : progressAfter cfg.attempts payer job heard = some progress)
    (justified : PaysOnlyUnpaid cfg payer job heard) :
    Vouched cfg.attempts payer job (searches heard) progress := by
  induction heard using List.reverseRecOn generalizing progress with
  | nil =>
    obtain rfl : Progress.checkingFirst = progress := by
      simpa [progressAfter, Transition.replay, Progress.start, asks] using reached
    simp [Vouched, searches]
  | append_singleton heard await ih =>
    obtain ⟨before, earlier, advanced⟩ :=
      progressAfter_concat cfg.attempts payer job heard await progress reached
    have held := ih before earlier fun sofar part =>
      justified sofar (part.trans (List.prefix_append ..))
    rw [searches_concat]
    refine held.advance cfg.attempts payer job
      (asked_after cfg.attempts payer job heard before asks earlier)
      (next_advance cfg.attempts payer job before progress await advanced) fun paying => ?_
    rw [← searches_concat]
    exact justified _ (List.prefix_refl _) progress reached (by simp [Service.calls, paying])

-- A row with a batch id starts at most one payout, which asks before it pays.
theorem recoverRow_resumed (stored : cfg.accrualStore = true) (now : Nat → Nat)
    (state : Service.Recovery) (row : PersistedAccrual) (batchId : String)
    (named : Service.resumedId row = some batchId) :
    ∃ runs, (Service.recoverRow cfg now state row).svc.payouts = state.svc.payouts ++ runs ∧
      (Service.recoverRow cfg now state row).svc.outbox = state.svc.outbox ∧
      ∀ run ∈ runs, run.job.payoutId = "batch/" ++ batchId ∧ run.job.checkLandedFirst = true ∧
        run.progress = Progress.start cfg.attempts run.job := by
  cases stopped : state.stopped with
  | true =>
    rw [Service.recoverRow_stopped cfg now state stopped row]
    exact ⟨[], by simp, rfl, by simp⟩
  | false =>
    obtain ⟨ops, runs, outcome, recovered, -, -⟩ :=
      Service.recoverRow_outcome cfg stored now state stopped row
    refine ⟨runs, recovered.payouts, ?_⟩
    cases outcome with
    | dropped | stopped => exact ⟨by simp [recovered.outbox], by simp⟩
    | resumed own summed id sum owes =>
      obtain rfl : batchId = own := Option.some.inj (named.symm.trans id)
      refine ⟨by simp [recovered.outbox, Service.recoveredRun, Service.calls, Progress.start,
        Service.batchJob, Progress.isPaying], ?_⟩
      simp [Service.recoveredRun, Service.batchJob]
    | fresh own summed id => rw [named] at id; cases id

theorem resumed_batch_pays_only_unpaid (stored : cfg.accrualStore = true) (now : Nat → Nat)
    (state : Service.Recovery) (row : PersistedAccrual) (batchId : String)
    (named : Service.resumedId row = some batchId) :
    ∃ runs, (Service.recoverRow cfg now state row).svc.payouts = state.svc.payouts ++ runs ∧
      (Service.recoverRow cfg now state row).svc.outbox = state.svc.outbox ∧
      ∀ run ∈ runs, run.job.payoutId = "batch/" ++ batchId ∧
        ∀ (payer : Payer) (heard : List Await) (progress : Progress),
          progressAfter cfg.attempts payer run.job heard = some progress →
          (Conclusive cfg.attempts payer run.job heard → PaysOnlyUnpaid cfg payer run.job heard) ∧
            (progress.ended = true → PaysOnlyUnpaid cfg payer run.job heard →
              Conclusive cfg.attempts payer run.job heard) := by
  obtain ⟨runs, payouts, outbox, fresh⟩ :=
    recoverRow_resumed cfg stored now state row batchId named
  refine ⟨runs, payouts, outbox, fun run member => ?_⟩
  obtain ⟨id, asks, -⟩ := fresh run member
  refine ⟨id, fun payer heard progress reached => ⟨?_, fun ended justified => ?_⟩⟩
  · exact paysOnlyUnpaid_of_conclusive cfg payer run.job asks heard
  · have vouched := vouched_after cfg payer run.job asks heard progress reached justified
    cases progress with
    | sleeping attempt reason => cases ended
    | _ => exact vouched

end session

def demoRecord : SettlementRecord where
  requestId := "r1"
  nodeId := "node-a"
  payerAddress := "PAYER"
  operatorAddress := "OPERATOR"
  inboundAtomic := "2000"
  payoutAtomic := "1700"
  marginAtomic := "300"
  inboundTxId := "IN-r1"
  payoutTxId := none
  batchId := none
  status := .accrued
  error := none
  createdAt := 1
  settledAt := none

def demoRow : PersistedAccrual := persisted "OPERATOR" [demoRecord] 1 (some "b1")

def demoRun : PayoutRun := ⟨Service.batchJob "b1" "OPERATOR" 1700 [demoRecord] true, .checkingFirst⟩

-- A page with a payout of another batch, whose id goes on where that of `b1` ends.
def otherBatch : Page where
  transactions := [⟨some "TX", "GATEWAY", "x402-mesh/payout/batch/b10"⟩]
  nextToken := none
  limited := by simp [searchLimit]

-- The chain has no payout for the batch, and it is paid.
theorem resumed_batch_pays_only_unpaid_once :
    (Service.recoverRow World.demoDeps (fun _ => 10) ⟨.init, [], false⟩ demoRow).svc.payouts =
        [demoRun] ∧
      PaysOnlyUnpaid World.demoDeps ⟨"GATEWAY", true⟩ demoRun.job
        [.searched (.answered otherBatch), .paid "TX2"] := by
  have started : (Service.recoverRow World.demoDeps (fun _ => 10) ⟨.init, [], false⟩
      demoRow).svc.payouts = [demoRun] := by decide
  obtain ⟨runs, payouts, -, held⟩ := resumed_batch_pays_only_unpaid World.demoDeps rfl
    (fun _ => 10) ⟨.init, [], false⟩ demoRow "b1" (by decide)
  obtain rfl : [demoRun] = runs := by rw [← started, payouts]; rfl
  refine ⟨started, ?_⟩
  apply ((held demoRun (by simp)).2 _ _ (.settled "TX2") (by decide)).1
  unfold Conclusive
  decide

-- Anyone can send the operator transactions with the note, and these fill the page.
def crowded : Page where
  transactions := List.replicate searchLimit ⟨some "TX", "STRANGER", "x402-mesh/payout/batch/b1"⟩
  nextToken := some "more"
  limited := (List.length_replicate ..).le

-- The indexer is down, or has more than a page of transactions, and the batch is submitted all the
-- same.
theorem resumed_batch_paid_unanswered :
    (Service.recoverRow World.demoDeps (fun _ => 10) ⟨.init, [], false⟩ demoRow).svc.payouts =
        [demoRun] ∧
      ¬ PaysOnlyUnpaid World.demoDeps ⟨"GATEWAY", true⟩ demoRun.job [.searched .failed] ∧
      ¬ PaysOnlyUnpaid World.demoDeps ⟨"GATEWAY", true⟩ demoRun.job
        [.searched (.answered crowded)] := by
  refine ⟨by decide, fun justified => ?_, fun justified => ?_⟩
  · obtain ⟨search, last, -, page, answered, -⟩ :=
      justified [.searched .failed] (List.prefix_refl _) (.paying 1) (by decide) (by decide)
    obtain rfl : Search.failed = search := by simpa [searches, Await.search?] using last
    cases answered
  · obtain ⟨search, last, -, page, answered, final, -⟩ :=
      justified [.searched (.answered crowded)] (List.prefix_refl _) (.paying 1) (by decide)
        (by decide)
    obtain rfl : Search.answered crowded = search := by simpa [searches, Await.search?] using last
    obtain rfl : crowded = page := Search.answered.inj answered
    cases final

end X402Mesh.Gateway
