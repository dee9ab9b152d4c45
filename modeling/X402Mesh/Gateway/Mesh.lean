import X402Mesh.Lib.Transition
import X402Mesh.Registry.Selector

set_option autoImplicit false

-- Registrations and heartbeats are those that passed the checks on their time, nonce, signature and
-- endpoint.

namespace X402Mesh.Gateway

open Registry

structure MeshConfig where
  network : String
  usdcAssetId : String
  requireUsdcOptIn : Bool
  maxConcurrentPerNode : Nat
  nodeStaleAfterMs : Nat
  toLowerCase : String → String
  -- The loader accepts from 1 to 1024.
  roomy : 0 < maxConcurrentPerNode

namespace MeshConfig

def selector (config : MeshConfig) : NodeSelectorOptions where
  network := some config.network
  staleAfterMs := some config.nodeStaleAfterMs
  toLowerCase := config.toLowerCase

end MeshConfig

variable (config : MeshConfig)

def seen (existing : NodeRecord) (seenAt : Int) : NodeRecord :=
  { existing with
    health :=
      { existing.health with lastSeenAt := seenAt, healthy := true, consecutiveFailures := 0 } }

-- none: the node is unknown, which the route answers with a 404.
def heartbeat (store : MemoryNodeStore) (nodeId : String) (seenAt : Int) : Option MemoryNodeStore := do
  let existing ← store.get nodeId
  return store.upsert (seen existing seenAt)

def buildRecord (registration : NodeRegistration) (existing : Option NodeRecord)
    (usdcOptedIn : Bool) (seenAt : Int) : NodeRecord where
  registration := registration
  health := {
    nodeId := registration.nodeId
    healthy := true
    latencyMsP50 := (existing.map (·.health.latencyMsP50)).getD 0
    latencyMsP95 := (existing.map (·.health.latencyMsP95)).getD 0
    inFlight := (existing.map (·.health.inFlight)).getD 0
    maxConcurrency := (existing.map (·.health.maxConcurrency)).getD config.maxConcurrentPerNode
    uptimeRatio := (existing.map (·.health.uptimeRatio)).getD 1
    qualityScore := (existing.map (·.health.qualityScore)).getD (1 / 2)
    consecutiveFailures := 0
    lastSeenAt := seenAt }
  usdcOptedIn := usdcOptedIn
  totalRequests := (existing.map (·.totalRequests)).getD 0
  totalPaidAtomic := (existing.map (·.totalPaidAtomic)).getD "0"
  registeredAt := (existing.map (·.registeredAt)).getD seenAt

def remedy (registration : NodeRegistration) : String :=
  "Send a 0-amount asset transfer of ASA " ++ config.usdcAssetId ++ " from " ++
    registration.operatorAddress ++ " to itself (an opt-in), keeping at least 0.1 ALGO " ++
    "of minimum balance per asset, then register again."

def handleRegister (store : MemoryNodeStore) (registration : NodeRegistration)
    (usdcOptedIn : Bool) (seenAt : Int) : Except MeshError MemoryNodeStore :=
  let existing := store.get registration.nodeId
  if registration.network ≠ config.network then
    .error ⟨.validation, "node settles on a different network than this gateway",
      [("nodeNetwork", registration.network), ("gatewayNetwork", config.network)]⟩
  else if !usdcOptedIn && config.requireUsdcOptIn then
    .error ⟨.validation,
      "operator payout address has not opted in to USDC and cannot receive payouts",
      [("operatorAddress", registration.operatorAddress), ("assetId", config.usdcAssetId),
        ("network", config.network), ("remedy", remedy config registration)]⟩
  else if existing.any (·.registration.operatorAddress ≠ registration.operatorAddress) then
    .error ⟨.auth, "node id is already registered to a different operator address",
      [("nodeId", registration.nodeId)]⟩
  else .ok (store.upsert (buildRecord config registration existing usdcOptedIn seenAt))

/-- Where the call of a node stands: chosen, counted in flight, or its outcome recorded. -/
inductive CallPhase
  | chosen
  | running
  | recorded (success : Bool)
  deriving DecidableEq, Repr

-- `tried` ends with the node of the current attempt first.
structure Routed where
  model : String
  tried : List String
  nodeId : String
  phase : CallPhase
  deriving DecidableEq, Repr

structure Mesh where
  store : MemoryNodeStore
  routed : List Routed

inductive MeshAction
  | register (registration : NodeRegistration) (usdcOptedIn : Bool) (seenAt : Int)
  | heartbeat (nodeId : String) (seenAt : Int)
  | route (model nodeId : String) (now : Int)
  | beginRequest (index : Nat)
  | respond (index : Nat) (success : Bool) (latencyMs now : Int)
  | finish (index : Nat) (fatal : Bool) (next : Option String) (now : Int)
  deriving DecidableEq

namespace Mesh

def empty : Mesh := ⟨.empty, []⟩

def chooses (m : Mesh) (now : Int) (model : String) (excluded : List String) (nodeId : String) :
    Bool :=
  match NodeSelector.candidates config.selector m.store now model excluded with
  | .ok found => found.any (·.registration.nodeId = nodeId)
  | .error _ => false

def noCapacity (m : Mesh) (now : Int) (model : String) (excluded : List String) : Bool :=
  !(NodeSelector.candidates config.selector m.store now model excluded).isOk

def beginRequest (m : Mesh) (index : Nat) : Option Mesh := do
  let r ← m.routed[index]?
  if r.phase = .chosen then
    some ⟨m.store.beginRequest r.nodeId, m.routed.set index { r with phase := .running }⟩
  else none

def respond (m : Mesh) (index : Nat) (success : Bool) (latencyMs now : Int) : Option Mesh := do
  let r ← m.routed[index]?
  if r.phase = .running then
    some ⟨m.store.recordOutcome r.nodeId ⟨success, some latencyMs, some now⟩,
      m.routed.set index { r with phase := .recorded success }⟩
  else none

/-- The slot is given back; a first failure goes on to another node unless it is fatal or none is
left. -/
def finish (m : Mesh) (index : Nat) (fatal : Bool) (next : Option String) (now : Int) :
    Option Mesh := do
  let r ← m.routed[index]?
  let .recorded success := r.phase | none
  let m : Mesh := { m with store := m.store.endRequest r.nodeId }
  let closed := success || fatal || decide (2 ≤ r.tried.length)
  match next with
  | none =>
    if closed || m.noCapacity config now r.model r.tried then
      some { m with routed := m.routed.eraseIdx index }
    else none
  | some nodeId =>
    if !closed && m.chooses config now r.model r.tried nodeId then
      some { m with routed := m.routed.set index ⟨r.model, nodeId :: r.tried, nodeId, .chosen⟩ }
    else none

def step (m : Mesh) : MeshAction → Option Mesh
  | .register registration usdcOptedIn seenAt =>
    (handleRegister config m.store registration usdcOptedIn seenAt).toOption.map fun store =>
      { m with store := store }
  | .heartbeat nodeId seenAt =>
    (Gateway.heartbeat m.store nodeId seenAt).map fun store => { m with store := store }
  | .route model nodeId now =>
    if m.chooses config now model [] nodeId then
      some { m with routed := m.routed ++ [⟨model, [nodeId], nodeId, .chosen⟩] }
    else none
  | .beginRequest index => m.beginRequest index
  | .respond index success latencyMs now => m.respond index success latencyMs now
  | .finish index fatal next now => m.finish config index fatal next now

-- Every clock reading of the actions, and every upstream result, is free.
def Reaches (m m' : Mesh) : Prop := Transition.Run (step config) (fun _ _ => True) m m'

def Benched (m : Mesh) (nodeId : String) : Prop :=
  ∃ record, m.store.get nodeId = some record ∧ record.health.healthy = false ∧
    unhealthyConsecutiveFailures ≤ record.health.consecutiveFailures

def Selectable (m : Mesh) (nodeId : String) : Prop :=
  ∃ record model now, m.store.get nodeId = some record ∧
    NodeSelector.eligible config.selector now model [] record = true

end Mesh

def demoCapability : NodeCapability := ⟨"llama3.1:8b", 8192, "0.01", none⟩

def demoMesh : MeshConfig where
  network := "algorand:testnet"
  usdcAssetId := "10458941"
  requireUsdcOptIn := true
  maxConcurrentPerNode := 8
  nodeStaleAfterMs := 90000
  toLowerCase := String.toLower
  roomy := by decide

def demoRegistration : NodeRegistration :=
  ⟨"node-a", "OPERATOR", "https://node-a.example", [demoCapability], "algorand:testnet", "1.0.0", 0,
    "a1"⟩

end X402Mesh.Gateway
