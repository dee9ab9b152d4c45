import X402Mesh.Gateway.Mesh
import X402Mesh.Registry.Routable
import X402Mesh.Registry.Schemas

set_option autoImplicit false

namespace X402Mesh.Gateway

open Registry

variable (config : MeshConfig)

def MeshConfig.routability : RoutabilityOptions :=
  ⟨some config.network, some config.nodeStaleAfterMs⟩

structure PublicView where
  nodeId : String
  operatorAddress : String
  endpoint : String
  network : String
  version : String
  capabilities : List NodeCapability
  healthy : Bool
  routable : Bool
  usdcOptedIn : Bool
  latencyMsP50 : Int
  latencyMsP95 : Int
  uptimeRatio : Rat
  qualityScore : Rat
  lastSeenAt : Int
  registeredAt : Int

structure NodeListing where
  network : String
  count : Nat
  nodes : List PublicView

structure RegisterResponse where
  status : Nat
  nodeId : String
  usdcOptedIn : Bool
  network : String
  heartbeatIntervalMs : Nat
  registeredAt : Int
  routable : Bool
  deriving DecidableEq

structure HeartbeatResponse where
  nodeId : String
  healthy : Bool
  lastSeenAt : Int
  routable : Bool
  deriving DecidableEq

-- `Math.round`, which rounds a half up.
def roundMs (v : Rat) : Int := (v + 1 / 2).floor

def publicView (node : NodeRecord) : PublicView where
  nodeId := node.registration.nodeId
  operatorAddress := node.registration.operatorAddress
  endpoint := node.registration.endpoint
  network := node.registration.network
  version := node.registration.version
  capabilities := node.registration.capabilities
  healthy := node.health.healthy
  routable := node.health.healthy && (node.usdcOptedIn || !config.requireUsdcOptIn)
  usdcOptedIn := node.usdcOptedIn
  latencyMsP50 := roundMs node.health.latencyMsP50
  latencyMsP95 := roundMs node.health.latencyMsP95
  uptimeRatio := node.health.uptimeRatio
  qualityScore := node.health.qualityScore
  lastSeenAt := node.health.lastSeenAt
  registeredAt := node.registeredAt

def handleList (nodes : List NodeRecord) : NodeListing :=
  ⟨config.network, nodes.length, nodes.map (publicView config)⟩

-- `existing` is what the handler read before its upsert, and `stored` what it read after.
def registerResponse (existing : Option NodeRecord) (stored : NodeRecord) : RegisterResponse where
  status := if existing.isNone then 201 else 200
  nodeId := stored.registration.nodeId
  usdcOptedIn := stored.usdcOptedIn
  network := stored.registration.network
  heartbeatIntervalMs := 15000
  registeredAt := stored.registeredAt
  routable := stored.usdcOptedIn || !config.requireUsdcOptIn

def heartbeatResponse (nodeId : String) (updated : NodeRecord) : HeartbeatResponse where
  nodeId := nodeId
  healthy := updated.health.healthy
  lastSeenAt := updated.health.lastSeenAt
  routable := updated.usdcOptedIn || !config.requireUsdcOptIn

-- What none of the flags looks at: a node of another network, or one not heard from in time.
def elsewhere (now : Int) (node : NodeRecord) : Bool :=
  node.registration.network ≠ config.network ||
    now - node.health.lastSeenAt > config.nodeStaleAfterMs

-- The flag is up for want of an opt-in that the gateway does not ask for.
def waived (node : NodeRecord) : Bool := !node.usdcOptedIn && !config.requireUsdcOptIn

def listedWrongly (now : Int) (node : NodeRecord) : Bool :=
  node.health.healthy && (waived config node || (node.usdcOptedIn && elsewhere config now node))

def answeredWrongly (now : Int) (node : NodeRecord) : Bool :=
  waived config node ||
    (node.usdcOptedIn && (elsewhere config now node || !node.health.healthy))

theorem reason_eq (now : Int) (node : NodeRecord) :
    unroutableReason config.routability now node = none ↔
      elsewhere config now node = false ∧ node.health.healthy = true ∧
        node.usdcOptedIn = true := by
  simp only [routable_iff, MeshConfig.routability, Option.some.injEq, forall_eq', elsewhere,
    Bool.or_eq_false_iff, decide_eq_false_iff_not, not_not, not_lt, gt_iff_lt, and_assoc]

theorem listed_flag (now : Int) (node : NodeRecord) :
    ((publicView config node).routable = true ↔
        unroutableReason config.routability now node = none) ↔
      listedWrongly config now node = false := by
  rw [reason_eq]
  unfold listedWrongly waived publicView
  generalize elsewhere config now node = away
  cases away <;> cases node.health.healthy <;> cases node.usdcOptedIn <;>
    cases config.requireUsdcOptIn <;> simp

theorem answered_flag (now : Int) (node : NodeRecord) :
    ((node.usdcOptedIn || !config.requireUsdcOptIn) = true ↔
        unroutableReason config.routability now node = none) ↔
      answeredWrongly config now node = false := by
  rw [reason_eq]
  unfold answeredWrongly waived
  generalize elsewhere config now node = away
  cases away <;> cases node.health.healthy <;> cases node.usdcOptedIn <;>
    cases config.requireUsdcOptIn <;> simp

/-- The record is any that the store may hold, and the clock is read when the answer is judged. -/
theorem flags_truthful_iff (now : Int) (node : NodeRecord) :
    (((publicView config node).routable = true ↔
        unroutableReason config.routability now node = none) ↔
      listedWrongly config now node = false) ∧
    (∀ existing, ((registerResponse config existing node).routable = true ↔
        unroutableReason config.routability now node = none) ↔
      answeredWrongly config now node = false) ∧
    (∀ nodeId, ((heartbeatResponse config nodeId node).routable = true ↔
        unroutableReason config.routability now node = none) ↔
      answeredWrongly config now node = false) :=
  ⟨listed_flag config now node, fun _ => answered_flag config now node,
    fun _ => answered_flag config now node⟩

def overlooked (actions : List MeshAction) (now : Int) (flag : NodeRecord → Bool)
    (reason : UnroutableReason) : Prop :=
  ∃ m node, Transition.replay (Mesh.step demoMesh) .empty actions = some m ∧
    node ∈ m.store.list ∧ flag node = true ∧
    unroutableReason demoMesh.routability now node = some reason

def silentNode : List MeshAction := [.register demoRegistration true 1000]

def benchedNode : List MeshAction :=
  [.register demoRegistration true 1000,
    .route "llama3.1:8b" "node-a" 1001, .route "llama3.1:8b" "node-a" 1001,
    .route "llama3.1:8b" "node-a" 1001, .beginRequest 0, .beginRequest 1, .beginRequest 2,
    .respond 0 false 5 1002, .respond 1 false 5 1002, .respond 2 false 5 1002]

theorem flags_mistaken :
    overlooked silentNode 200000 (fun node => (publicView demoMesh node).routable) .stale ∧
    overlooked (benchedNode ++ [.heartbeat "node-a" 2000]) 2000
      (fun node => (heartbeatResponse demoMesh "node-a" node).routable) .unhealthy ∧
    overlooked (benchedNode ++ [.register demoRegistration true 2000]) 2000
      (fun node => (registerResponse demoMesh (some node) node).routable) .unhealthy := by
  have found (actions : List MeshAction) (now : Int) (flag : NodeRecord → Bool)
      (reason : UnroutableReason)
      (shown : (Transition.replay (Mesh.step demoMesh) .empty actions).any (fun m =>
        m.store.list.any fun node => flag node &&
          unroutableReason demoMesh.routability now node = some reason) = true) :
      overlooked actions now flag reason := by
    cases replayed : Transition.replay (Mesh.step demoMesh) .empty actions with
    | none => simp [replayed] at shown
    | some m =>
      simp only [replayed, Option.any_some, List.any_eq_true, Bool.and_eq_true,
        decide_eq_true_eq] at shown
      obtain ⟨node, member, up, reason⟩ := shown
      exact ⟨m, node, replayed, member, up, reason⟩
  exact ⟨found _ _ _ _ (by decide), found _ _ _ _ (by decide +kernel),
    found _ _ _ _ (by decide +kernel)⟩

end X402Mesh.Gateway
