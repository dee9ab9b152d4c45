import X402Mesh.Registry.Nodes

set_option autoImplicit false

namespace X402Mesh.Registry

-- `none` for the network or the age leaves that check out, as an omitted option does.
structure NodeSelectorOptions where
  network : Option String
  staleAfterMs : Option Int
  toLowerCase : String → String

inductive Rejection
  | excluded | wrongNetwork | stale | unhealthy | wrongModel | notOptedIn | saturated | unpriceable
  deriving DecidableEq, Repr

namespace Rejection

def all : List Rejection :=
  [wrongNetwork, stale, unhealthy, wrongModel, notOptedIn, saturated, excluded, unpriceable]

def name : Rejection → String
  | wrongNetwork => "wrongNetwork"
  | stale => "stale"
  | unhealthy => "unhealthy"
  | wrongModel => "wrongModel"
  | notOptedIn => "notOptedIn"
  | saturated => "saturated"
  | excluded => "excluded"
  | unpriceable => "unpriceable"

end Rejection

namespace NodeSelector

variable (options : NodeSelectorOptions)

def normalizeModelId (model : String) : String :=
  options.toLowerCase (String.ofList (Text.trim model.toList))

def capability (record : NodeRecord) (model : String) : Option NodeCapability :=
  record.registration.capabilities.find? fun c =>
    normalizeModelId options c.model = normalizeModelId options model

def nodePriceAtomic (record : NodeRecord) (model : String) : Option Int :=
  match capability options record model with
  | none => none
  | some capability => (Money.usdcToAtomic capability.pricePer1kTokensUsdc).toOption

def wrongNetwork (record : NodeRecord) : Bool :=
  match options.network with
  | none => false
  | some network => record.registration.network ≠ network

def stale (now : Int) (record : NodeRecord) : Bool :=
  match options.staleAfterMs with
  | none => false
  | some staleAfterMs => now - record.health.lastSeenAt > staleAfterMs

-- The checks in the order the filter makes them; the price is what an eligible node is quoted at.
def filter (now : Int) (model : String) (excluded : List String) (record : NodeRecord) :
    Except Rejection Int :=
  if record.registration.nodeId ∈ excluded then .error .excluded
  else if wrongNetwork options record then .error .wrongNetwork
  else if stale options now record then .error .stale
  else if !record.health.healthy then .error .unhealthy
  else if (capability options record model).isNone then .error .wrongModel
  else if !record.usdcOptedIn then .error .notOptedIn
  else if record.health.inFlight ≥ record.health.maxConcurrency then .error .saturated
  else
    match nodePriceAtomic options record model with
    | none => .error .unpriceable
    | some price => .ok price

def eligible (now : Int) (model : String) (excluded : List String) (record : NodeRecord) : Bool :=
  (filter options now model excluded record).isOk

def rejected (now : Int) (model : String) (excluded : List String) (records : List NodeRecord)
    (why : Rejection) : Nat :=
  records.countP fun record =>
    match filter options now model excluded record with
    | .error rejection => rejection = why
    | .ok _ => false

def noCapacity (now : Int) (model : String) (excluded : List String) (records : List NodeRecord) :
    MeshError :=
  ⟨.noCapacity, "no healthy node can serve model \"" ++ model ++ "\"",
    [("model", model), ("registeredNodes", toString records.length)] ++
      Rejection.all.map fun why =>
        ("rejected." ++ why.name, toString (rejected options now model excluded records why))⟩

-- The draw gives every candidate a positive weight, so any of them may be chosen.
def candidates (store : MemoryNodeStore) (now : Int) (model : String) (excluded : List String) :
    Except MeshError (List NodeRecord) :=
  let eligible := store.list.filter (eligible options now model excluded)
  if eligible.isEmpty then .error (noCapacity options now model excluded store.list)
  else .ok eligible

theorem eligible_healthy {now : Int} {model : String} {excluded : List String}
    {record : NodeRecord} (passes : eligible options now model excluded record = true) :
    record.health.healthy = true ∧ record.registration.nodeId ∉ excluded := by
  unfold eligible filter at passes
  split at passes
  · cases passes
  · split at passes
    · cases passes
    · split at passes
      · cases passes
      · split at passes
        · cases passes
        · simp_all

theorem eligible_of {now : Int} {model : String} {record : NodeRecord} {price : Int}
    (network : wrongNetwork options record = false) (seen : stale options now record = false)
    (healthy : record.health.healthy = true) (optedIn : record.usdcOptedIn = true)
    (headroom : record.health.inFlight < record.health.maxConcurrency)
    (priced : nodePriceAtomic options record model = some price) :
    eligible options now model [] record = true := by
  have served : (capability options record model).isNone = false := by
    unfold nodePriceAtomic at priced
    cases found : capability options record model with
    | none => simp [found] at priced
    | some capability => rfl
  simp [eligible, filter, network, seen, healthy, served, optedIn, not_le.mpr headroom, priced,
    Except.isOk, Except.toBool]

theorem mem_candidates {store : MemoryNodeStore} {now : Int} {model : String}
    {excluded : List String} {found : List NodeRecord}
    (answered : candidates options store now model excluded = .ok found) (record : NodeRecord) :
    record ∈ found ↔ record ∈ store.list ∧ eligible options now model excluded record = true := by
  unfold candidates at answered
  dsimp only at answered
  split at answered
  · cases answered
  · cases answered
    exact List.mem_filter

end NodeSelector

end X402Mesh.Registry
