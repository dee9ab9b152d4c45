import Mathlib.Data.Rat.Defs
import X402Mesh.Lib.OrderedMap
import X402Mesh.Shared.Money

set_option autoImplicit false

-- Ratios are rationals here, where the code has doubles.

namespace X402Mesh.Registry

/-- An outcome as a caller reports it: a number that is NaN or infinite is none. -/
structure ReportedOutcome where
  success : Bool
  latencyMs : Option Rat
  endedAt : Option Rat
  deriving DecidableEq, Repr

structure RequestOutcome where
  success : Bool
  latencyMs : Rat
  endedAt : Int
  deriving DecidableEq, Repr

structure NodeCapability where
  model : String
  contextWindow : Nat
  pricePer1kTokensUsdc : String
  quantization : Option String
  deriving DecidableEq, Repr

structure NodeRegistration where
  nodeId : String
  operatorAddress : String
  endpoint : String
  capabilities : List NodeCapability
  network : String
  version : String
  timestamp : Int
  nonce : String
  deriving DecidableEq, Repr

structure NodeHealth where
  nodeId : String
  healthy : Bool
  latencyMsP50 : Rat
  latencyMsP95 : Rat
  inFlight : Nat
  maxConcurrency : Nat
  uptimeRatio : Rat
  qualityScore : Rat
  consecutiveFailures : Nat
  lastSeenAt : Int
  deriving DecidableEq

structure NodeRecord where
  registration : NodeRegistration
  health : NodeHealth
  usdcOptedIn : Bool
  totalRequests : Nat
  totalPaidAtomic : String
  registeredAt : Int
  deriving DecidableEq

def healthWindowSize : Nat := 100

def unhealthyConsecutiveFailures : Nat := 3

def clamp01 (v : Rat) : Rat := if v < 0 then 0 else if 1 < v then 1 else v

theorem clamp01_bounds (v : Rat) : 0 ≤ clamp01 v ∧ clamp01 v ≤ 1 := by
  unfold clamp01
  split
  next => simp
  next above =>
    split
    next => simp
    next below => exact ⟨not_lt.mp above, not_lt.mp below⟩

-- Nearest rank, `ceil(p / 100 * N)`.
def percentile (sorted : List Rat) (p : Nat) : Rat :=
  let rank := (min 100 p * sorted.length + 99) / 100
  (sorted[min (sorted.length - 1) (rank - 1)]?).getD 0

def normalizeOutcome (o : ReportedOutcome) : RequestOutcome where
  success := o.success
  latencyMs :=
    match o.latencyMs with
    | some latencyMs => if 0 ≤ latencyMs then latencyMs else 0
    | none => 0
  endedAt :=
    match o.endedAt with
    | some endedAt => if 0 < endedAt then endedAt.floor else 0
    | none => 0

def RequestOutcome.reported (o : RequestOutcome) : ReportedOutcome :=
  ⟨o.success, some o.latencyMs, some o.endedAt⟩

theorem normalizeOutcome_latency (o : ReportedOutcome) : 0 ≤ (normalizeOutcome o).latencyMs := by
  unfold normalizeOutcome
  dsimp only
  split
  next => split <;> simp_all
  next => exact le_refl 0

theorem normalizeOutcome_ended (o : ReportedOutcome) : 0 ≤ (normalizeOutcome o).endedAt := by
  unfold normalizeOutcome
  dsimp only
  split
  next =>
    split
    next later => exact Rat.le_floor_iff.mpr (by simpa using later.le)
    next => exact le_refl 0
  next => exact le_refl 0

-- The window is oldest first, so the current streak is its trailing run.
def failureStreak (window : List RequestOutcome) : Nat :=
  (window.reverse.takeWhile fun o => !o.success).length

def lastSuccess (since : Int) (window : List RequestOutcome) : Int :=
  window.foldl (fun seen o => if o.success ∧ seen < o.endedAt then o.endedAt else seen) since

def deriveHealth (base : NodeHealth) (window : List RequestOutcome) : NodeHealth :=
  if window.isEmpty then base
  else
    let latencies := (window.map (·.latencyMs)).mergeSort (· ≤ ·)
    let successes := window.countP (·.success)
    let consecutiveFailures := failureStreak window
    let uptimeRatio := clamp01 ((successes : Rat) / window.length)
    let failurePenalty := max 0 (1 - (consecutiveFailures : Rat) / unhealthyConsecutiveFailures)
    { nodeId := base.nodeId
      healthy := decide (consecutiveFailures < unhealthyConsecutiveFailures)
      latencyMsP50 := percentile latencies 50
      latencyMsP95 := percentile latencies 95
      inFlight := base.inFlight
      maxConcurrency := base.maxConcurrency
      uptimeRatio := uptimeRatio
      qualityScore := clamp01 (uptimeRatio * failurePenalty)
      consecutiveFailures := consecutiveFailures
      lastSeenAt := lastSuccess base.lastSeenAt window }

def tryAtomic (text : String) : Option Int :=
  if Text.isDecimal text.toList then some (Money.decimalValue text.toList) else none

def maxAtomic (a b : String) : String :=
  match tryAtomic a, tryAtomic b with
  | none, none => "0"
  | none, some _ => b
  | some _, none => a
  | some av, some bv => if av ≥ bv then a else b

def mergeRecord (existing : Option NodeRecord) (incoming : NodeRecord)
    (window : List RequestOutcome) : NodeRecord :=
  match existing with
  | none => incoming
  | some existing =>
    let health :=
      { incoming.health with
        inFlight := existing.health.inFlight
        lastSeenAt := max existing.health.lastSeenAt incoming.health.lastSeenAt }
    let derived := deriveHealth health window
    { incoming with
      registeredAt := existing.registeredAt
      totalRequests := max existing.totalRequests incoming.totalRequests
      totalPaidAtomic := maxAtomic existing.totalPaidAtomic incoming.totalPaidAtomic
      health :=
        if window.isEmpty then health
        else { derived with healthy := incoming.health.healthy && derived.healthy } }

structure MemoryNodeStore where
  records : OrderedMap String NodeRecord
  windows : OrderedMap String (List RequestOutcome)

namespace MemoryNodeStore

def empty : MemoryNodeStore := ⟨.empty, .empty⟩

def get (store : MemoryNodeStore) (nodeId : String) : Option NodeRecord := store.records.get? nodeId

def list (store : MemoryNodeStore) : List NodeRecord := store.records.values

def window (store : MemoryNodeStore) (nodeId : String) : List RequestOutcome :=
  (store.windows.get? nodeId).getD []

def upsert (store : MemoryNodeStore) (record : NodeRecord) : MemoryNodeStore :=
  let nodeId := record.registration.nodeId
  let window := store.window nodeId
  { records := store.records.set nodeId (mergeRecord (store.get nodeId) record window)
    windows := if store.windows.contains nodeId then store.windows else store.windows.set nodeId window }

def bounded (window : List RequestOutcome) : List RequestOutcome :=
  window.drop (window.length - healthWindowSize)

def recordOutcome (store : MemoryNodeStore) (nodeId : String) (o : ReportedOutcome) :
    MemoryNodeStore :=
  match store.get nodeId with
  | none => store
  | some record =>
    let window := bounded (store.window nodeId ++ [normalizeOutcome o])
    { windows := store.windows.set nodeId window
      records :=
        store.records.set nodeId
          { record with
            totalRequests := record.totalRequests + 1
            health := deriveHealth record.health window } }

def setInFlight (store : MemoryNodeStore) (nodeId : String) (revise : Nat → Nat) :
    MemoryNodeStore :=
  match store.get nodeId with
  | none => store
  | some record =>
    { store with
      records :=
        store.records.set nodeId
          { record with
            health := { record.health with inFlight := revise record.health.inFlight } } }

def beginRequest (store : MemoryNodeStore) (nodeId : String) : MemoryNodeStore :=
  store.setInFlight nodeId (· + 1)

def endRequest (store : MemoryNodeStore) (nodeId : String) : MemoryNodeStore :=
  store.setInFlight nodeId (· - 1)

def remove (store : MemoryNodeStore) (nodeId : String) : MemoryNodeStore :=
  ⟨store.records.erase nodeId, store.windows.erase nodeId⟩

end MemoryNodeStore

theorem failureStreak_concat (window : List RequestOutcome) (o : RequestOutcome) :
    failureStreak (window ++ [o]) = if o.success then 0 else failureStreak window + 1 := by
  cases ended : o.success <;> simp [failureStreak, ended]

-- Cutting the front of a window can only shorten a streak that fills all of it.
theorem failureStreak_bounded (window : List RequestOutcome) (o : RequestOutcome)
    (success : o.success = true) :
    failureStreak (MemoryNodeStore.bounded (window ++ [o])) = 0 := by
  have kept : (MemoryNodeStore.bounded (window ++ [o])) =
      window.drop ((window ++ [o]).length - healthWindowSize) ++ [o] := by
    unfold MemoryNodeStore.bounded
    rw [List.drop_append_of_le_length]
    simp only [List.length_append, List.length_singleton, healthWindowSize]
    omega
  rw [kept, failureStreak_concat, success, if_pos rfl]

theorem deriveHealth_window (base : NodeHealth) (window : List RequestOutcome)
    (some_outcome : window ≠ []) :
    (deriveHealth base window).healthy =
        decide (failureStreak window < unhealthyConsecutiveFailures) ∧
      (deriveHealth base window).consecutiveFailures = failureStreak window := by
  simp [deriveHealth, some_outcome]

theorem deriveHealth_owner (base : NodeHealth) (window : List RequestOutcome) :
    (deriveHealth base window).inFlight = base.inFlight ∧
      (deriveHealth base window).maxConcurrency = base.maxConcurrency := by
  unfold deriveHealth
  split <;> simp

-- A registrar that reports a node as healthy leaves the verdict to the window.
theorem mergeRecord_verdict (existing incoming : NodeRecord) (window : List RequestOutcome)
    (healthy : incoming.health.healthy = true) (reset : incoming.health.consecutiveFailures = 0) :
    (mergeRecord (some existing) incoming window).health.healthy =
        decide (failureStreak window < unhealthyConsecutiveFailures) ∧
      (mergeRecord (some existing) incoming window).health.consecutiveFailures =
        failureStreak window := by
  by_cases empty : window = []
  · subst empty
    simp [mergeRecord, healthy, reset, failureStreak, unhealthyConsecutiveFailures]
  · simp [mergeRecord, deriveHealth, empty, healthy]

theorem mergeRecord_owner (existing incoming : NodeRecord) (window : List RequestOutcome) :
    (mergeRecord (some existing) incoming window).health.inFlight = existing.health.inFlight ∧
      (mergeRecord (some existing) incoming window).health.maxConcurrency =
        incoming.health.maxConcurrency := by
  have owner := deriveHealth_owner
    { incoming.health with
      inFlight := existing.health.inFlight
      lastSeenAt := max existing.health.lastSeenAt incoming.health.lastSeenAt } window
  unfold mergeRecord
  dsimp only
  split
  · exact ⟨rfl, rfl⟩
  · exact owner

theorem lastSuccess_le (since : Int) (window : List RequestOutcome) :
    since ≤ lastSuccess since window := by
  unfold lastSuccess
  induction window generalizing since with
  | nil => exact le_refl since
  | cons o rest ih =>
    rw [List.foldl_cons]
    refine le_trans ?_ (ih _)
    split <;> omega

theorem le_lastSuccess (since : Int) {window : List RequestOutcome} {o : RequestOutcome}
    (member : o ∈ window) (success : o.success = true) : o.endedAt ≤ lastSuccess since window := by
  induction window generalizing since with
  | nil => cases member
  | cons first rest ih =>
    rcases List.mem_cons.mp member with rfl | later
    · have first : o.endedAt ≤ if o.success ∧ since < o.endedAt then o.endedAt else since := by
        simp only [success, true_and]
        split <;> omega
      exact le_trans first (lastSuccess_le _ rest)
    · exact ih _ later

theorem lastSuccess_fixed {since : Int} {window : List RequestOutcome}
    (seen : ∀ o ∈ window, o.success = true → o.endedAt ≤ since) :
    lastSuccess since window = since := by
  induction window with
  | nil => rfl
  | cons o rest ih =>
    have first := seen o List.mem_cons_self
    have same : (if o.success ∧ since < o.endedAt then o.endedAt else since) = since := by
      apply if_neg
      rintro ⟨success, later⟩
      have := first success
      omega
    unfold lastSuccess at ih ⊢
    rw [List.foldl_cons, same]
    exact ih fun other member => seen other (List.mem_cons_of_mem o member)

theorem lastSuccess_idem (since : Int) (window : List RequestOutcome) :
    lastSuccess (lastSuccess since window) window = lastSuccess since window :=
  lastSuccess_fixed fun _ member success => le_lastSuccess since member success

theorem mergeRecord_registration (existing : Option NodeRecord) (incoming : NodeRecord)
    (window : List RequestOutcome) :
    (mergeRecord existing incoming window).registration = incoming.registration ∧
      (mergeRecord existing incoming window).usdcOptedIn = incoming.usdcOptedIn := by
  cases existing <;> exact ⟨rfl, rfl⟩

theorem deriveHealth_seen (base : NodeHealth) (window : List RequestOutcome) :
    base.lastSeenAt ≤ (deriveHealth base window).lastSeenAt := by
  unfold deriveHealth
  split
  · exact le_refl _
  · exact lastSuccess_le _ _

theorem mergeRecord_seen_max (existing incoming : NodeRecord) (window : List RequestOutcome) :
    max existing.health.lastSeenAt incoming.health.lastSeenAt ≤
      (mergeRecord (some existing) incoming window).health.lastSeenAt := by
  have seen := deriveHealth_seen
    { incoming.health with
      inFlight := existing.health.inFlight
      lastSeenAt := max existing.health.lastSeenAt incoming.health.lastSeenAt } window
  unfold mergeRecord
  dsimp only at seen ⊢
  split
  · exact le_refl _
  · exact seen

theorem mergeRecord_seen (existing : Option NodeRecord) (incoming : NodeRecord)
    (window : List RequestOutcome) :
    incoming.health.lastSeenAt ≤ (mergeRecord existing incoming window).health.lastSeenAt := by
  cases existing with
  | none => exact le_refl _
  | some existing =>
    exact le_trans (le_max_right _ _) (mergeRecord_seen_max existing incoming window)

namespace MemoryNodeStore

variable (store : MemoryNodeStore)

@[simp] theorem get_empty (nodeId : String) : empty.get nodeId = none := rfl

@[simp] theorem window_empty (nodeId : String) : empty.window nodeId = [] := rfl

theorem get_upsert (record : NodeRecord) (nodeId : String) :
    (store.upsert record).get nodeId =
      if nodeId = record.registration.nodeId then
        some (mergeRecord (store.get nodeId) record (store.window nodeId))
      else store.get nodeId := by
  by_cases same : nodeId = record.registration.nodeId
  · subst same
    simp [upsert, get]
  · simp [upsert, get, OrderedMap.get?_set, same]

@[simp] theorem window_upsert (record : NodeRecord) (nodeId : String) :
    (store.upsert record).window nodeId = store.window nodeId := by
  unfold upsert
  by_cases known : store.windows.contains record.registration.nodeId = true
  · simp [window, known]
  · by_cases same : nodeId = record.registration.nodeId
    · subst same
      simp [window, known]
    · simp [window, known, OrderedMap.get?_set, same]

theorem get_recordOutcome (nodeId : String) (o : ReportedOutcome) (other : String) :
    (store.recordOutcome nodeId o).get other =
      if other = nodeId then
        (store.get nodeId).map fun record =>
          { record with
            totalRequests := record.totalRequests + 1
            health := deriveHealth record.health
              (bounded (store.window nodeId ++ [normalizeOutcome o])) }
      else store.get other := by
  unfold recordOutcome
  cases found : store.get nodeId with
  | none =>
    by_cases same : other = nodeId
    · simp [same, found]
    · simp [same]
  | some record =>
    by_cases same : other = nodeId
    · simp [get, same]
    · simp [get, OrderedMap.get?_set, same]

theorem window_recordOutcome (nodeId : String) (o : ReportedOutcome) (other : String) :
    (store.recordOutcome nodeId o).window other =
      if other = nodeId ∧ (store.get nodeId).isSome then
        bounded (store.window nodeId ++ [normalizeOutcome o])
      else store.window other := by
  unfold recordOutcome
  cases found : store.get nodeId with
  | none => simp
  | some record =>
    by_cases same : other = nodeId
    · simp [window, same]
    · simp [window, OrderedMap.get?_set, same]

theorem get_setInFlight (nodeId : String) (revise : Nat → Nat) (other : String) :
    (store.setInFlight nodeId revise).get other =
      if other = nodeId then
        (store.get nodeId).map fun record =>
          { record with
            health := { record.health with inFlight := revise record.health.inFlight } }
      else store.get other := by
  unfold setInFlight
  cases found : store.get nodeId with
  | none =>
    by_cases same : other = nodeId
    · simp [same, found]
    · simp [same]
  | some record =>
    by_cases same : other = nodeId
    · simp [get, same]
    · simp [get, OrderedMap.get?_set, same]

@[simp] theorem window_setInFlight (nodeId : String) (revise : Nat → Nat) (other : String) :
    (store.setInFlight nodeId revise).window other = store.window other := by
  unfold setInFlight
  cases store.get nodeId <;> rfl

theorem get_remove (nodeId : String) (other : String) :
    (store.remove nodeId).get other = if other = nodeId then none else store.get other := by
  simp [remove, get, OrderedMap.get?_erase]

theorem window_remove (nodeId : String) (other : String) :
    (store.remove nodeId).window other = if other = nodeId then [] else store.window other := by
  by_cases same : other = nodeId <;> simp [remove, window, OrderedMap.get?_erase, same]

theorem bounded_ne_nil (window : List RequestOutcome) (o : RequestOutcome) :
    bounded (window ++ [o]) ≠ [] := by
  simp only [bounded, ne_eq, List.drop_eq_nil_iff, List.length_append, List.length_singleton,
    healthWindowSize]
  omega

end MemoryNodeStore

end X402Mesh.Registry
