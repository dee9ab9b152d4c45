import X402Mesh.NodeDaemon.Admission

set_option autoImplicit false

-- Requests and answers are lost, or arrive late and after others, and the gateway restarts and
-- forgets. A nonce is drawn once, and nobody else posts it first.

namespace X402Mesh.NodeDaemon

open JsonText Registry Gateway

deriving instance DecidableEq for SignedRegistration, SignedHeartbeat

inductive Request
  | registration (signed : SignedRegistration)
  | heartbeat (signed : SignedHeartbeat)
  deriving DecidableEq

namespace Request

def nonce : Request → String
  | registration signed => signed.registration.record.nonce
  | heartbeat signed => textOf signed.heartbeat.nonce

def sentAt : Request → Nat
  | registration signed => signed.registration.timestamp.toNat
  | heartbeat signed => signed.heartbeat.timestamp.toNat

end Request

/-- What the gateway reads as it handles a request, and what other handlers do at its two waits. -/
structure Arrival where
  freshAt : Int
  claimAt : Int
  seenAt : Int
  routable : Except MeshError Unit
  usdcOptedIn : Bool
  first : List Disturbance
  second : List Disturbance

namespace Arrival

def others (a : Arrival) (wait : Nat) (gate : Gate) : Gate :=
  (if wait = 0 then a.first else a.second).foldl Disturbance.apply gate

def claims (a : Arrival) : List String :=
  a.first.flatMap Disturbance.claims ++ a.second.flatMap Disturbance.claims

def registering (a : Arrival) (signed : SignedRegistration) : Registering where
  body := signed.body
  freshAt := a.freshAt
  claimAt := a.claimAt
  seenAt := a.seenAt
  routable := a.routable
  usdcOptedIn := a.usdcOptedIn
  others := a.others

-- The router decodes the node id that the daemon encoded into the path.
def beating (a : Arrival) (cfg : DaemonConfig) (signed : SignedHeartbeat) : Beating where
  id := cfg.nodeId
  body := signed.body
  freshAt := a.freshAt
  claimAt := a.claimAt
  seenAt := a.seenAt
  others := a.others

end Arrival

def registerStatus : Except MeshError RegisterResponse → Nat
  | .ok response => response.status
  | .error e => (toErrorResponse (.mesh e)).1

def heartbeatStatus : Except MeshError HeartbeatResponse → Nat
  | .ok _ => 200
  | .error e => (toErrorResponse (.mesh e)).1

def handle (r : Routes) (cfg : DaemonConfig) (gate : Gate) (a : Arrival) : Request → Nat × Gate
  | .registration signed =>
    let (answer, gate) := r.handleRegister gate (a.registering signed)
    (registerStatus answer, gate)
  | .heartbeat signed =>
    let (answer, gate) := r.handleHeartbeat gate (a.beating cfg signed)
    (heartbeatStatus answer, gate)

-- Who called `registerNode`.
inductive Caller
  | startCommand
  | heartbeat
  deriving DecidableEq

inductive Phase
  | stopped
  | idle
  | registering (signed : SignedRegistration) (attempt : Nat) (caller : Caller)
  | beating (signed : SignedHeartbeat)

def Phase.awaited : Phase → Option Request
  | registering signed .. => some (.registration signed)
  | beating signed => some (.heartbeat signed)
  | _ => none

structure Answer where
  request : Request
  status : Nat
  life : Nat

/-- `answers` has all that the gateway ever answered, each with the life of the gateway that did,
and `joined` the life of the one whose answer the daemon last took for a success. -/
structure Plane where
  gate : Gate
  life : Nat
  inFlight : List Request
  answers : List Answer
  phase : Phase
  consecutiveFailures : Nat
  joined : Option Nat
  drawn : List String
  taken : List String

/-- A step at which the daemon may make an envelope has its draw. No answer in time, and a retryable
status from something before the handlers, are one. -/
inductive Action
  | start (draw : Draw)
  | beat (live : HeartbeatSnapshot) (draw : Draw)
  | arrive (index : Nat) (a : Arrival)
  | lose (index : Nat)
  | answer (draw : Draw)
  | unanswered (draw : Draw)
  | disturb (d : Disturbance)
  | restart

def defaultMaxAttempts : Nat := 4

-- `res.ok`
def isOk (status : Nat) : Bool := 200 ≤ status && status < 300

namespace Plane

def initial : Plane := ⟨.initial, 0, [], [], .stopped, 0, none, [], []⟩

def post (s : Plane) (request : Request) (phase : Phase) : Plane :=
  { s with
    inFlight := s.inFlight ++ [request]
    phase := phase
    drawn := request.nonce :: s.drawn }

def giveUp (s : Plane) : Caller → Plane
  | .startCommand => { s with phase := .stopped }
  | .heartbeat => { s with phase := .idle, consecutiveFailures := s.consecutiveFailures + 1 }

def succeed (s : Plane) (life : Nat) : Plane :=
  { s with phase := .idle, consecutiveFailures := 0, joined := some life }

variable (r : Routes) (cfg : DaemonConfig) (key : OperatorKey) (options : BuildRegistrationOptions)

def attemptRegistration (s : Plane) (attempt : Nat) (caller : Caller) (draw : Draw) : Plane :=
  match envelope r.sdk cfg key options draw with
  | .error _ => s.giveUp caller
  | .ok signed => s.post (.registration signed) (.registering signed attempt caller)

def retry (s : Plane) (attempt : Nat) (caller : Caller) (draw : Draw) : Plane :=
  if attempt = defaultMaxAttempts then s.giveUp caller
  else s.attemptRegistration r cfg key options (attempt + 1) caller draw

def beat (s : Plane) (live : HeartbeatSnapshot) (draw : Draw) : Plane :=
  match signHeartbeat key (heartbeatFields cfg live draw) with
  | .error _ => s.giveUp .heartbeat
  | .ok signed => s.post (.heartbeat signed) (.beating signed)

def receive (s : Plane) (answer : Answer) (draw : Draw) : Plane :=
  match s.phase with
  | .registering _ attempt caller =>
    if isOk answer.status then s.succeed answer.life
    else if isRetryableStatus answer.status then s.retry r cfg key options attempt caller draw
    else s.giveUp caller
  | .beating _ =>
    if isOk answer.status then s.succeed answer.life
    else if answer.status = 404 || answer.status = 410 then
      s.attemptRegistration r cfg key options 1 .heartbeat draw
    else s.giveUp .heartbeat
  | _ => s

def unanswered (s : Plane) (draw : Draw) : Option Plane :=
  match s.phase with
  | .registering _ attempt caller => some (s.retry r cfg key options attempt caller draw)
  | .beating _ => some (s.giveUp .heartbeat)
  | _ => none

def arrive (s : Plane) (index : Nat) (a : Arrival) (request : Request) : Plane :=
  let (status, gate) := handle r cfg s.gate a request
  { s with
    gate := gate
    inFlight := s.inFlight.eraseIdx index
    answers := ⟨request, status, s.life⟩ :: s.answers
    taken := a.claims ++ s.taken }

def step (s : Plane) : Action → Option Plane
  | .start draw =>
    match s.phase with
    | .stopped => some (s.attemptRegistration r cfg key options 1 .startCommand draw)
    | _ => none
  | .beat live draw =>
    match s.phase with
    | .idle => some (s.beat cfg key live draw)
    | _ => none
  | .arrive index a => s.inFlight[index]?.map (s.arrive r cfg index a)
  | .lose index => some { s with inFlight := s.inFlight.eraseIdx index }
  | .answer draw =>
    (s.answers.find? fun answer => s.phase.awaited = some answer.request).map fun answer =>
      s.receive r cfg key options answer draw
  | .unanswered draw => s.unanswered r cfg key options draw
  | .disturb d => some { s with gate := d.apply s.gate, taken := d.claims ++ s.taken }
  | .restart => some { s with gate := .initial, life := s.life + 1 }

def Unused (s : Plane) (draw : Draw) : Prop :=
  draw.valid ∧ draw.nonce ∉ s.drawn ∧ draw.nonce ∉ s.taken

-- What is on its way keeps its nonce, and the node its operator.
def Harmless (s : Plane) (d : Disturbance) : Prop :=
  d.Spares cfg key ∧ ∀ request ∈ s.inFlight, request.nonce ∉ d.claims

/-- A request arrives while its timestamp is fresh, at a gateway that takes the endpoint and the
operator. -/
def Timely (s : Plane) (index : Nat) (a : Arrival) : Prop :=
  (∀ request, s.inFlight[index]? = some request → Near request.sentAt a.freshAt) ∧
    a.routable = .ok () ∧ (a.usdcOptedIn || !r.config.requireUsdcOptIn) = true ∧
    ∀ d ∈ a.first ++ a.second, s.Harmless cfg key d

def allowed (s : Plane) : Action → Prop
  | .start draw | .answer draw | .unanswered draw => s.Unused draw
  | .beat live draw => s.Unused draw ∧ live.inFlight.toNat ≤ 1000000
  | .arrive index a => s.Timely r cfg key index a
  | .disturb d => s.Harmless cfg key d
  | .lose _ | .restart => True

end Plane

end X402Mesh.NodeDaemon
