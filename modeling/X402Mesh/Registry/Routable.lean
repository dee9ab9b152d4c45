import X402Mesh.Registry.Score

set_option autoImplicit false

namespace X402Mesh.Registry

inductive UnroutableReason
  | wrongNetwork | stale | unhealthy | notOptedIn
  deriving DecidableEq, Repr

structure RoutabilityOptions where
  network : Option String
  staleAfterMs : Option Int

def unroutableReason (options : RoutabilityOptions) (now : Int) (record : NodeRecord) :
    Option UnroutableReason :=
  if options.network.any fun network => record.registration.network ≠ network then
    some .wrongNetwork
  else if options.staleAfterMs.any fun staleAfterMs =>
      now - record.health.lastSeenAt > staleAfterMs then
    some .stale
  else if !record.health.healthy then some .unhealthy
  else if !record.usdcOptedIn then some .notOptedIn
  else none

def isRoutable (options : RoutabilityOptions) (now : Int) (record : NodeRecord) : Bool :=
  unroutableReason options now record = none

theorem routable_iff (options : RoutabilityOptions) (now : Int) (record : NodeRecord) :
    unroutableReason options now record = none ↔
      (∀ network, options.network = some network → record.registration.network = network) ∧
      (∀ staleAfterMs, options.staleAfterMs = some staleAfterMs →
        now - record.health.lastSeenAt ≤ staleAfterMs) ∧
      record.health.healthy = true ∧ record.usdcOptedIn = true := by
  have network : ¬ options.network.any (fun network => record.registration.network ≠ network) ↔
      ∀ network, options.network = some network → record.registration.network = network := by
    cases options.network <;> simp
  have seen : ¬ options.staleAfterMs.any
        (fun staleAfterMs => now - record.health.lastSeenAt > staleAfterMs) ↔
      ∀ staleAfterMs, options.staleAfterMs = some staleAfterMs →
        now - record.health.lastSeenAt ≤ staleAfterMs := by
    cases options.staleAfterMs <;> simp
  rw [← network, ← seen, unroutableReason]
  generalize options.network.any _ = wrong
  generalize options.staleAfterMs.any _ = late
  cases wrong <;> cases late <;> cases record.health.healthy <;> cases record.usdcOptedIn <;> simp

def UnroutableReason.rejection : UnroutableReason → Rejection
  | wrongNetwork => .wrongNetwork
  | stale => .stale
  | unhealthy => .unhealthy
  | notOptedIn => .notOptedIn

namespace NodeSelector

variable (options : NodeSelectorOptions)

def routability : RoutabilityOptions := ⟨options.network, options.staleAfterMs⟩

structure Suitable (now : Int) (model : String) (excluded : List String) (record : NodeRecord) :
    Prop where
  routable : unroutableReason (routability options) now record = none
  kept : record.registration.nodeId ∉ excluded
  serves : ∃ c ∈ record.registration.capabilities,
    normalizeModelId options c.model = normalizeModelId options model
  headroom : record.health.inFlight < record.health.maxConcurrency
  priced : (nodePriceAtomic options record model).isSome = true

theorem wrongNetwork_eq (record : NodeRecord) : wrongNetwork options record =
    (routability options).network.any fun network => record.registration.network ≠ network := by
  unfold wrongNetwork routability
  cases options.network <;> rfl

theorem stale_eq (now : Int) (record : NodeRecord) : stale options now record =
    (routability options).staleAfterMs.any fun staleAfterMs =>
      now - record.health.lastSeenAt > staleAfterMs := by
  unfold stale routability
  cases options.staleAfterMs <;> rfl

theorem capability_isNone (record : NodeRecord) (model : String) :
    (capability options record model).isNone = false ↔
      ∃ c ∈ record.registration.capabilities,
        normalizeModelId options c.model = normalizeModelId options model := by
  simp [capability]

theorem unroutableReason_eq (now : Int) (record : NodeRecord) :
    unroutableReason (routability options) now record =
      if wrongNetwork options record then some .wrongNetwork
      else if stale options now record then some .stale
      else if !record.health.healthy then some .unhealthy
      else if !record.usdcOptedIn then some .notOptedIn
      else none := by
  rw [wrongNetwork_eq, stale_eq]
  rfl

-- The filter asks for the model before the opt-in, where the predicate has no model to ask for.
theorem filter_ok_iff {now : Int} {model : String} {excluded : List String} {record : NodeRecord} :
    (∃ price, filter options now model excluded record = .ok price) ↔
      Suitable options now model excluded record := by
  constructor
  · rintro ⟨price, passes⟩
    unfold filter at passes
    by_cases kept : record.registration.nodeId ∈ excluded
    · rw [if_pos kept] at passes
      cases passes
    cases network : wrongNetwork options record
    case true => simp [kept, network] at passes
    cases seen : stale options now record
    case true => simp [kept, network, seen] at passes
    cases healthy : record.health.healthy
    case false => simp [kept, network, seen, healthy] at passes
    cases serves : (capability options record model).isNone
    case true => simp [kept, network, seen, healthy, serves] at passes
    cases optedIn : record.usdcOptedIn
    case false => simp [kept, network, seen, healthy, serves, optedIn] at passes
    by_cases headroom : record.health.inFlight ≥ record.health.maxConcurrency
    · simp [kept, network, seen, healthy, serves, optedIn, headroom] at passes
    cases priced : nodePriceAtomic options record model with
    | none => simp [kept, network, seen, healthy, serves, optedIn, headroom, priced] at passes
    | some quoted =>
      constructor
      case routable => simp [unroutableReason_eq, network, seen, healthy, optedIn]
      case kept => exact kept
      case serves => exact (capability_isNone options record model).mp serves
      case headroom => omega
      case priced => rw [priced]; rfl
  · intro suitable
    have routable := suitable.routable
    rw [unroutableReason_eq] at routable
    have serves := (capability_isNone options record model).mpr suitable.serves
    obtain ⟨price, priced⟩ := Option.isSome_iff_exists.mp suitable.priced
    have headroom : ¬ record.health.inFlight ≥ record.health.maxConcurrency := by
      have := suitable.headroom
      omega
    refine ⟨price, ?_⟩
    cases network : wrongNetwork options record
    case true => simp [network] at routable
    cases seen : stale options now record
    case true => simp [network, seen] at routable
    cases healthy : record.health.healthy
    case false => simp [network, seen, healthy] at routable
    cases optedIn : record.usdcOptedIn
    case false => simp [network, seen, healthy, optedIn] at routable
    simp [filter, suitable.kept, network, seen, healthy, optedIn, serves, headroom, priced]

end NodeSelector

end X402Mesh.Registry
