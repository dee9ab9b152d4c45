import X402Mesh.Gateway.Mesh

set_option autoImplicit false

-- A handler gives way between its read of the store and its write. Every access is atomic, as those
-- of the in-memory store are.

namespace X402Mesh.Gateway

open Registry

variable (config : MeshConfig)

-- The checks that `handleRegister` makes before it reads the store.
def admits (registration : NodeRegistration) (usdcOptedIn : Bool) : Except MeshError Unit :=
  if registration.network ≠ config.network then
    .error ⟨.validation, "node settles on a different network than this gateway",
      [("nodeNetwork", registration.network), ("gatewayNetwork", config.network)]⟩
  else if !usdcOptedIn && config.requireUsdcOptIn then
    .error ⟨.validation,
      "operator payout address has not opted in to USDC and cannot receive payouts",
      [("operatorAddress", registration.operatorAddress), ("assetId", config.usdcAssetId),
        ("network", config.network), ("remedy", remedy config registration)]⟩
  else .ok ()

def checkOwner (existing : Option NodeRecord) (registration : NodeRegistration) :
    Except MeshError Unit :=
  if existing.any (·.registration.operatorAddress ≠ registration.operatorAddress) then
    .error ⟨.auth, "node id is already registered to a different operator address",
      [("nodeId", registration.nodeId)]⟩
  else .ok ()

-- Without a turn of another handler between them, the parts are the whole.
theorem handleRegister_parts (store : MemoryNodeStore) (registration : NodeRegistration)
    (usdcOptedIn : Bool) (seenAt : Int) :
    handleRegister config store registration usdcOptedIn seenAt = (do
      admits config registration usdcOptedIn
      checkOwner (store.get registration.nodeId) registration
      return store.upsert
        (buildRecord config registration (store.get registration.nodeId) usdcOptedIn seenAt)) := by
  unfold handleRegister admits checkOwner
  dsimp only
  split
  next => rfl
  next =>
    split
    next => rfl
    next => split <;> rfl

inductive RegisterStage
  | arrived
  | checked (existing : Option NodeRecord)
  | written
  | acknowledged
  | refused
  deriving DecidableEq

/-- A heartbeat reads the store for its signature, and again for the record that it writes back. -/
inductive HeartbeatStage
  | arrived
  | verified
  | holding (existing : NodeRecord) (seenAt : Int)
  | written
  | acknowledged
  | refused
  deriving DecidableEq

-- `signer` is the address whose key signed the heartbeat.
inductive Handler
  | registering (registration : NodeRegistration) (usdcOptedIn : Bool) (stage : RegisterStage)
  | beating (nodeId signer : String) (stage : HeartbeatStage)
  deriving DecidableEq

-- `latest` is a ghost: what the registration whose upsert ran last brought.
structure Lifecycle where
  store : MemoryNodeStore
  handlers : List Handler
  latest : String → Option (NodeRegistration × Bool)

/-- The last three are the accesses of routed requests. -/
inductive LifecycleAction
  | register (registration : NodeRegistration) (usdcOptedIn : Bool)
  | heartbeat (nodeId signer : String)
  | read (index : Nat)
  | readAgain (index : Nat) (seenAt : Int)
  | upsert (index : Nat) (seenAt : Int)
  | acknowledge (index : Nat)
  | recordOutcome (nodeId : String) (o : ReportedOutcome)
  | beginRequest (nodeId : String)
  | endRequest (nodeId : String)
  deriving DecidableEq

namespace Lifecycle

def empty : Lifecycle := ⟨.empty, [], fun _ => none⟩

def arrive (s : Lifecycle) (handler : Handler) : Lifecycle :=
  { s with handlers := s.handlers ++ [handler] }

def move (s : Lifecycle) (index : Nat) (handler : Handler) : Lifecycle :=
  { s with handlers := s.handlers.set index handler }

def withStore (s : Lifecycle) (store : MemoryNodeStore) : Lifecycle := { s with store := store }

def read (s : Lifecycle) (index : Nat) : Handler → Option Lifecycle
  | .registering registration usdcOptedIn .arrived =>
    let existing := s.store.get registration.nodeId
    let stage : RegisterStage :=
      if (checkOwner existing registration).isOk then .checked existing else .refused
    some (s.move index (.registering registration usdcOptedIn stage))
  | .beating nodeId signer .arrived =>
    let stage : HeartbeatStage :=
      if (s.store.get nodeId).any (·.registration.operatorAddress = signer) then .verified
      else .refused
    some (s.move index (.beating nodeId signer stage))
  | _ => none

def readAgain (s : Lifecycle) (index : Nat) (seenAt : Int) : Handler → Option Lifecycle
  | .beating nodeId signer .verified =>
    match s.store.get nodeId with
    | some existing => some (s.move index (.beating nodeId signer (.holding existing seenAt)))
    | none => some (s.move index (.beating nodeId signer .refused))
  | _ => none

def upsert (s : Lifecycle) (index : Nat) (seenAt : Int) : Handler → Option Lifecycle
  | .registering registration usdcOptedIn (.checked existing) =>
    let store := s.store.upsert (buildRecord config registration existing usdcOptedIn seenAt)
    some
      { (s.withStore store).move index (.registering registration usdcOptedIn .written) with
        latest :=
          Function.update s.latest registration.nodeId (some (registration, usdcOptedIn)) }
  | .beating nodeId signer (.holding existing seenAt) =>
    some ((s.withStore (s.store.upsert (seen existing seenAt))).move index
      (.beating nodeId signer .written))
  | _ => none

def acknowledge (s : Lifecycle) (index : Nat) : Handler → Option Lifecycle
  | .registering registration usdcOptedIn .written =>
    some (s.move index (.registering registration usdcOptedIn .acknowledged))
  | .beating nodeId signer .written => some (s.move index (.beating nodeId signer .acknowledged))
  | _ => none

def step (s : Lifecycle) : LifecycleAction → Option Lifecycle
  | .register registration usdcOptedIn =>
    if (admits config registration usdcOptedIn).isOk then
      some (s.arrive (.registering registration usdcOptedIn .arrived))
    else none
  | .heartbeat nodeId signer => some (s.arrive (.beating nodeId signer .arrived))
  | .read index => s.handlers[index]?.bind (s.read index)
  | .readAgain index seenAt => s.handlers[index]?.bind (s.readAgain index seenAt)
  | .upsert index seenAt => s.handlers[index]?.bind (s.upsert config index seenAt)
  | .acknowledge index => s.handlers[index]?.bind (s.acknowledge index)
  | .recordOutcome nodeId o => some (s.withStore (s.store.recordOutcome nodeId o))
  | .beginRequest nodeId => some (s.withStore (s.store.beginRequest nodeId))
  | .endRequest nodeId => some (s.withStore (s.store.endRequest nodeId))

/-- While a registration of a node id nobody has yet is between its read and its upsert, no other
operator's registration reads that the id is free. -/
def apart (s : Lifecycle) : LifecycleAction → Bool
  | .read index =>
    match s.handlers[index]? with
    | some (.registering registration _ .arrived) =>
      (s.store.get registration.nodeId).isSome ||
        s.handlers.all fun
          | .registering other _ (.checked _) =>
            other.nodeId ≠ registration.nodeId ||
              other.operatorAddress = registration.operatorAddress
          | _ => true
    | _ => true
  | _ => true

-- No registration is written while a heartbeat of its node holds a record to write back.
def unheld (s : Lifecycle) : LifecycleAction → Bool
  | .upsert index _ =>
    match s.handlers[index]? with
    | some (.registering registration _ (.checked _)) =>
      s.handlers.all fun
        | .beating nodeId _ (.holding _ _) => nodeId ≠ registration.nodeId
        | _ => true
    | _ => true
  | _ => true

inductive Hold
  | pending (registration : NodeRegistration)
  | done (registration : NodeRegistration)
  | held (nodeId : String) (existing : NodeRecord)

def holdOf : Handler → Option Hold
  | .registering registration _ (.checked _) => some (.pending registration)
  | .registering registration _ .written => some (.done registration)
  | .registering registration _ .acknowledged => some (.done registration)
  | .beating nodeId _ (.holding existing _) => some (.held nodeId existing)
  | _ => none

def holds (s : Lifecycle) : List Hold := s.handlers.filterMap holdOf

-- What the store says a node registered as.
def identity (s : Lifecycle) (nodeId : String) : Option (NodeRegistration × Bool) :=
  (s.store.get nodeId).map fun record => (record.registration, record.usdcOptedIn)

def owner (s : Lifecycle) (nodeId : String) : Option String :=
  (s.identity nodeId).map (·.1.operatorAddress)

theorem identity_upsert (s : Lifecycle) (record : NodeRecord) (nodeId : String) :
    (s.withStore (s.store.upsert record)).identity nodeId =
      if nodeId = record.registration.nodeId then some (record.registration, record.usdcOptedIn)
      else s.identity nodeId := by
  have merged := mergeRecord_registration (s.store.get nodeId) record (s.store.window nodeId)
  simp only [identity, withStore, MemoryNodeStore.get_upsert]
  split
  next => simp [merged.1, merged.2]
  next => rfl

theorem identity_recordOutcome (s : Lifecycle) (nodeId : String) (o : ReportedOutcome)
    (other : String) :
    (s.withStore (s.store.recordOutcome nodeId o)).identity other = s.identity other := by
  simp only [identity, withStore, MemoryNodeStore.get_recordOutcome]
  split
  next same =>
    subst same
    cases s.store.get other <;> rfl
  next => rfl

theorem identity_setInFlight (s : Lifecycle) (nodeId : String) (revise : Nat → Nat)
    (other : String) :
    (s.withStore (s.store.setInFlight nodeId revise)).identity other = s.identity other := by
  simp only [identity, withStore, MemoryNodeStore.get_setInFlight]
  split
  next same =>
    subst same
    cases s.store.get other <;> rfl
  next => rfl

theorem mem_holds_move (s : Lifecycle) (index : Nat) (handler : Handler) (hold : Hold)
    (member : hold ∈ (s.move index handler).holds) : hold ∈ s.holds ∨ holdOf handler = some hold := by
  obtain ⟨h, inside, own⟩ := List.mem_filterMap.mp member
  rcases List.mem_or_eq_of_mem_set inside with old | rfl
  · exact .inl (List.mem_filterMap.mpr ⟨h, old, own⟩)
  · exact .inr own

theorem mem_holds_arrive (s : Lifecycle) (handler : Handler) (nothing : holdOf handler = none)
    (hold : Hold) (member : hold ∈ (s.arrive handler).holds) : hold ∈ s.holds := by
  simpa [holds, arrive, nothing] using member

inductive Change (s : Lifecycle) (a : LifecycleAction) (s' : Lifecycle) : Prop
  | quiet (holds : ∀ hold ∈ s'.holds, hold ∈ s.holds)
      (same : ∀ nodeId, s'.identity nodeId = s.identity nodeId) (latest : s'.latest = s.latest)
  | checked (index : Nat) (registration : NodeRegistration) (usdcOptedIn : Bool)
      (act : a = .read index)
      (was : s.handlers[index]? = some (.registering registration usdcOptedIn .arrived))
      (free : s.owner registration.nodeId = none ∨
        s.owner registration.nodeId = some registration.operatorAddress)
      (holds : ∀ hold ∈ s'.holds, hold ∈ s.holds ∨ hold = .pending registration)
      (same : ∀ nodeId, s'.identity nodeId = s.identity nodeId) (latest : s'.latest = s.latest)
  | held (nodeId : String) (existing : NodeRecord) (found : s.store.get nodeId = some existing)
      (holds : ∀ hold ∈ s'.holds, hold ∈ s.holds ∨ hold = .held nodeId existing)
      (same : ∀ nodeId, s'.identity nodeId = s.identity nodeId) (latest : s'.latest = s.latest)
  | registered (index : Nat) (seenAt : Int) (registration : NodeRegistration) (usdcOptedIn : Bool)
      (existing : Option NodeRecord) (act : a = .upsert index seenAt)
      (was : s.handlers[index]? =
        some (.registering registration usdcOptedIn (.checked existing)))
      (holds : ∀ hold ∈ s'.holds, hold ∈ s.holds ∨ hold = .done registration)
      (identity : ∀ nodeId, s'.identity nodeId =
        if nodeId = registration.nodeId then some (registration, usdcOptedIn)
        else s.identity nodeId)
      (latest : s'.latest =
        Function.update s.latest registration.nodeId (some (registration, usdcOptedIn)))
  | beaten (nodeId : String) (existing : NodeRecord) (was : .held nodeId existing ∈ s.holds)
      (holds : ∀ hold ∈ s'.holds, hold ∈ s.holds)
      (identity : ∀ other, s'.identity other =
        if other = existing.registration.nodeId then
          some (existing.registration, existing.usdcOptedIn)
        else s.identity other)
      (latest : s'.latest = s.latest)

theorem moved_quietly (s : Lifecycle) (a : LifecycleAction) (index : Nat) (handler : Handler)
    (known : ∀ hold, holdOf handler = some hold → hold ∈ s.holds) :
    Change s a (s.move index handler) :=
  .quiet (fun hold member => (mem_holds_move s index handler hold member).elim id (known hold))
    (fun _ => rfl) rfl

theorem checkOwner_isOk (s : Lifecycle) (registration : NodeRegistration)
    (passed : (checkOwner (s.store.get registration.nodeId) registration).isOk = true) :
    s.owner registration.nodeId = none ∨
      s.owner registration.nodeId = some registration.operatorAddress := by
  unfold checkOwner at passed
  cases found : s.store.get registration.nodeId with
  | none => exact .inl (by simp [owner, identity, found])
  | some record =>
    by_cases same : record.registration.operatorAddress = registration.operatorAddress
    · exact .inr (by simp [owner, identity, found, same])
    · simp [found, same, Except.isOk, Except.toBool] at passed

theorem read_change {s s' : Lifecycle} {index : Nat} {handler : Handler}
    (was : s.handlers[index]? = some handler) (taken : s.read index handler = some s') :
    Change s (.read index) s' := by
  cases handler with
  | registering registration usdcOptedIn stage =>
    cases stage with
    | arrived =>
      simp only [read, Option.some.injEq] at taken
      subst taken
      split
      next passed =>
        refine .checked index registration usdcOptedIn rfl was
          (checkOwner_isOk s registration passed) (fun hold member => ?_) (fun _ => rfl) rfl
        apply (mem_holds_move s index _ hold member).imp_right
        intro own
        simpa [holdOf] using own.symm
      next => exact moved_quietly s _ index _ (by simp [holdOf])
    | _ => cases taken
  | beating nodeId signer stage =>
    cases stage with
    | arrived =>
      simp only [read, Option.some.injEq] at taken
      subst taken
      apply moved_quietly
      intro hold own
      split at own <;> cases own
    | _ => cases taken

theorem readAgain_change {s s' : Lifecycle} {index : Nat} {seenAt : Int} {handler : Handler}
    (taken : s.readAgain index seenAt handler = some s') :
    Change s (.readAgain index seenAt) s' := by
  cases handler with
  | registering => cases taken
  | beating nodeId signer stage =>
    cases stage with
    | verified =>
      simp only [readAgain] at taken
      cases found : s.store.get nodeId with
      | none =>
        simp only [found, Option.some.injEq] at taken
        subst taken
        exact moved_quietly s _ index _ (by simp [holdOf])
      | some existing =>
        simp only [found, Option.some.injEq] at taken
        subst taken
        refine .held nodeId existing found (fun hold member => ?_) (fun _ => rfl) rfl
        apply (mem_holds_move s index _ hold member).imp_right
        intro own
        simpa [holdOf] using own.symm
    | _ => cases taken

theorem upsert_change {s s' : Lifecycle} {index : Nat} {seenAt : Int} {handler : Handler}
    (was : s.handlers[index]? = some handler)
    (taken : s.upsert config index seenAt handler = some s') :
    Change s (.upsert index seenAt) s' := by
  cases handler with
  | registering registration usdcOptedIn stage =>
    cases stage with
    | checked existing =>
      simp only [upsert, Option.some.injEq] at taken
      subst taken
      refine .registered index seenAt registration usdcOptedIn existing rfl was
        (fun hold member => ?_)
        (identity_upsert s (buildRecord config registration existing usdcOptedIn seenAt)) rfl
      apply (mem_holds_move s index _ hold member).imp_right
      intro own
      simpa [holdOf] using own.symm
    | _ => cases taken
  | beating nodeId signer stage =>
    cases stage with
    | holding existing heldAt =>
      simp only [upsert, Option.some.injEq] at taken
      subst taken
      refine .beaten nodeId existing ?_ (fun hold member => ?_)
        (identity_upsert s (seen existing heldAt)) rfl
      next => exact List.mem_filterMap.mpr ⟨_, List.mem_of_getElem? was, rfl⟩
      next =>
        exact (mem_holds_move s index _ hold member).elim id fun own => by simp [holdOf] at own
    | _ => cases taken

theorem acknowledge_change {s s' : Lifecycle} {index : Nat} {handler : Handler}
    (was : s.handlers[index]? = some handler) (taken : s.acknowledge index handler = some s') :
    Change s (.acknowledge index) s' := by
  cases handler with
  | registering registration usdcOptedIn stage =>
    cases stage with
    | written =>
      simp only [acknowledge, Option.some.injEq] at taken
      subst taken
      apply moved_quietly
      intro hold own
      exact List.mem_filterMap.mpr ⟨_, List.mem_of_getElem? was, own⟩
    | _ => cases taken
  | beating nodeId signer stage =>
    cases stage with
    | written =>
      simp only [acknowledge, Option.some.injEq] at taken
      subst taken
      exact moved_quietly s _ index _ (by simp [holdOf])
    | _ => cases taken

theorem step_change {s s' : Lifecycle} {a : LifecycleAction} (taken : step config s a = some s') :
    Change s a s' := by
  cases a with
  | register registration usdcOptedIn =>
    simp only [step, Option.ite_none_right_eq_some, Option.some.injEq] at taken
    obtain ⟨-, rfl⟩ := taken
    exact .quiet (mem_holds_arrive s _ rfl) (fun _ => rfl) rfl
  | heartbeat nodeId signer =>
    cases taken
    exact .quiet (mem_holds_arrive s _ rfl) (fun _ => rfl) rfl
  | read index =>
    obtain ⟨handler, was, taken⟩ := Option.bind_eq_some_iff.mp taken
    exact read_change was taken
  | readAgain index seenAt =>
    obtain ⟨handler, -, taken⟩ := Option.bind_eq_some_iff.mp taken
    exact readAgain_change taken
  | upsert index seenAt =>
    obtain ⟨handler, was, taken⟩ := Option.bind_eq_some_iff.mp taken
    exact upsert_change config was taken
  | acknowledge index =>
    obtain ⟨handler, was, taken⟩ := Option.bind_eq_some_iff.mp taken
    exact acknowledge_change was taken
  | recordOutcome nodeId o =>
    cases taken
    exact .quiet (fun _ member => member) (identity_recordOutcome s nodeId o) rfl
  | beginRequest nodeId =>
    cases taken
    exact .quiet (fun _ member => member) (identity_setInFlight s nodeId _) rfl
  | endRequest nodeId =>
    cases taken
    exact .quiet (fun _ member => member) (identity_setInFlight s nodeId _) rfl

def Keyed (s : Lifecycle) : Prop :=
  ∀ nodeId registered, s.identity nodeId = some registered → registered.1.nodeId = nodeId

theorem step_keyed {s s' : Lifecycle} {a : LifecycleAction} (taken : step config s a = some s')
    (keyed : Keyed s) : Keyed s' := by
  intro nodeId registered found
  cases step_change config taken with
  | quiet _ same => exact keyed nodeId registered (same nodeId ▸ found)
  | checked _ _ _ _ _ _ _ same => exact keyed nodeId registered (same nodeId ▸ found)
  | held _ _ _ _ same => exact keyed nodeId registered (same nodeId ▸ found)
  | registered _ _ registration usdcOptedIn _ _ _ _ identity =>
    rw [identity] at found
    split at found
    next same =>
      cases found
      exact same.symm
    next => exact keyed nodeId registered found
  | beaten _ existing _ _ identity =>
    rw [identity] at found
    split at found
    next same =>
      cases found
      exact same.symm
    next => exact keyed nodeId registered found

theorem identity_of_get {s : Lifecycle} {nodeId : String} {existing : NodeRecord}
    (found : s.store.get nodeId = some existing) :
    s.identity nodeId = some (existing.registration, existing.usdcOptedIn) := by
  simp [identity, found]

def Owns (s : Lifecycle) : Hold → Prop
  | .pending registration => s.owner registration.nodeId = none ∨
      s.owner registration.nodeId = some registration.operatorAddress
  | .done registration => s.owner registration.nodeId = some registration.operatorAddress
  | .held nodeId existing => existing.registration.nodeId = nodeId ∧
      s.owner nodeId = some existing.registration.operatorAddress

structure Owned (s : Lifecycle) : Prop where
  keyed : Keyed s
  owns : ∀ hold ∈ s.holds, Owns s hold
  together : ∀ a b, .pending a ∈ s.holds → .pending b ∈ s.holds → a.nodeId = b.nodeId →
    a.operatorAddress = b.operatorAddress

theorem owned_empty : Owned empty :=
  ⟨by simp [Keyed, identity, empty], by simp [holds, empty], by simp [holds, empty]⟩

theorem apart_agree {s : Lifecycle} {index : Nat} {registration other : NodeRegistration}
    {usdcOptedIn optedIn : Bool} {existing : Option NodeRecord}
    (separate : apart s (.read index) = true)
    (was : s.handlers[index]? = some (.registering registration usdcOptedIn .arrived))
    (absent : s.store.get registration.nodeId = none)
    (inside : .registering other optedIn (.checked existing) ∈ s.handlers)
    (id : other.nodeId = registration.nodeId) :
    other.operatorAddress = registration.operatorAddress := by
  simp only [apart, was, absent, Option.isSome_none, Bool.false_or, List.all_eq_true] at separate
  simpa [id] using separate _ inside

theorem pending_of_mem {s : Lifecycle} {registration : NodeRegistration}
    (member : .pending registration ∈ s.holds) : ∃ usdcOptedIn existing,
      .registering registration usdcOptedIn (.checked existing) ∈ s.handlers := by
  obtain ⟨handler, inside, own⟩ := List.mem_filterMap.mp member
  cases handler with
  | registering other usdcOptedIn stage =>
    cases stage <;> simp [holdOf] at own
    subst own
    exact ⟨_, _, inside⟩
  | beating nodeId signer stage => cases stage <;> simp [holdOf] at own

theorem held_of_mem {s : Lifecycle} {nodeId : String} {existing : NodeRecord}
    (member : .held nodeId existing ∈ s.holds) : ∃ signer seenAt,
      .beating nodeId signer (.holding existing seenAt) ∈ s.handlers := by
  obtain ⟨handler, inside, own⟩ := List.mem_filterMap.mp member
  cases handler with
  | registering other usdcOptedIn stage => cases stage <;> simp [holdOf] at own
  | beating other signer stage =>
    cases stage <;> simp [holdOf] at own
    obtain ⟨rfl, rfl⟩ := own
    exact ⟨_, _, inside⟩

-- A new owner of one id that had none, whose pending registrations are all of that owner.
theorem owns_of_owner {s s' : Lifecycle} {registration : NodeRegistration}
    (owner : ∀ nodeId, s'.owner nodeId = s.owner nodeId ∨
      nodeId = registration.nodeId ∧ s.owner nodeId = none ∧
        s'.owner nodeId = some registration.operatorAddress)
    (apart : ∀ other, .pending other ∈ s.holds → other.nodeId = registration.nodeId →
      other.operatorAddress = registration.operatorAddress)
    (hold : Hold) (member : hold ∈ s.holds) (owns : Owns s hold) : Owns s' hold := by
  cases hold with
  | pending other =>
    rcases owner other.nodeId with kept | ⟨same, -, taken⟩
    · simpa only [Owns, kept] using owns
    · exact .inr (by rw [taken, apart other member same])
  | done other =>
    rcases owner other.nodeId with kept | ⟨-, free, -⟩
    · simpa only [Owns, kept] using owns
    · simp only [Owns, free] at owns
      cases owns
  | held nodeId existing =>
    rcases owner nodeId with kept | ⟨-, free, -⟩
    · simpa only [Owns, kept] using owns
    · simp only [Owns, free] at owns
      cases owns.2

theorem step_owned {s s' : Lifecycle} {a : LifecycleAction} (separate : apart s a = true)
    (taken : step config s a = some s') (held : Owned s) : Owned s' := by
  have keyed := step_keyed config taken held.keyed
  have unchanged (same : ∀ nodeId, s'.identity nodeId = s.identity nodeId) (hold : Hold)
      (owns : Owns s hold) : Owns s' hold := by
    cases hold <;> simpa only [Owns, owner, same] using owns
  cases step_change config taken with
  | quiet holds same =>
    exact ⟨keyed, fun hold member => unchanged same hold (held.owns hold (holds hold member)),
      fun a b first second => held.together a b (holds _ first) (holds _ second)⟩
  | checked index registration usdcOptedIn act was free holds same =>
    -- Whoever else has passed the check of this id has its owner, or the id was free and the
    -- condition says that it is the same operator.
    have agree : ∀ other, .pending other ∈ s.holds → other.nodeId = registration.nodeId →
        other.operatorAddress = registration.operatorAddress := by
      intro other member id
      subst act
      rcases free with absent | own
      · obtain ⟨optedIn, existing, inside⟩ := pending_of_mem member
        exact apart_agree separate was (by simpa [owner, identity] using absent) inside id
      · have others := held.owns _ member
        simp only [Owns, id, own] at others
        exact (Option.some.inj (others.resolve_left (by simp))).symm
    refine ⟨keyed, fun hold member => ?_, fun a b first second id => ?_⟩
    next =>
      rcases holds hold member with old | rfl
      · exact unchanged same hold (held.owns hold old)
      · exact unchanged same _ free
    next =>
      rcases holds _ first with old | new <;> rcases holds _ second with old' | new'
      · exact held.together a b old old' id
      · cases new'
        exact agree a old id
      · cases new
        exact (agree b old' id.symm).symm
      · cases new
        cases new'
        rfl
  | held nodeId existing found holds same =>
    refine ⟨keyed, fun hold member => ?_, fun a b first second => ?_⟩
    next =>
      rcases holds hold member with old | rfl
      · exact unchanged same hold (held.owns hold old)
      · have known := identity_of_get found
        exact unchanged same _ ⟨held.keyed nodeId _ known, by simp [owner, known]⟩
    next =>
      exact held.together a b ((holds _ first).resolve_right (by simp))
        ((holds _ second).resolve_right (by simp))
  | registered index seenAt registration usdcOptedIn existing act was holds identity =>
    have pending : .pending registration ∈ s.holds :=
      List.mem_filterMap.mpr ⟨_, List.mem_of_getElem? was, rfl⟩
    have own : s'.owner registration.nodeId = some registration.operatorAddress := by
      simp [owner, identity]
    have changes : ∀ nodeId, s'.owner nodeId = s.owner nodeId ∨
        nodeId = registration.nodeId ∧ s.owner nodeId = none ∧
          s'.owner nodeId = some registration.operatorAddress := by
      intro nodeId
      by_cases same : nodeId = registration.nodeId
      · subst same
        rcases held.owns _ pending with free | mine
        · exact .inr ⟨rfl, free, own⟩
        · exact .inl (own.trans mine.symm)
      · exact .inl (by simp [owner, identity, same])
    refine ⟨keyed, fun hold member => ?_, fun a b first second => ?_⟩
    next =>
      rcases holds hold member with old | rfl
      · exact owns_of_owner changes
          (fun other member id => held.together other registration member pending id) hold old
          (held.owns hold old)
      · exact own
    next =>
      exact held.together a b ((holds _ first).resolve_right (by simp))
        ((holds _ second).resolve_right (by simp))
  | beaten nodeId existing was holds identity =>
    obtain ⟨id, own⟩ := held.owns _ was
    have same : ∀ other, s'.owner other = s.owner other := by
      intro other
      by_cases here : other = existing.registration.nodeId
      · subst here
        rw [id, own, owner, identity, if_pos id.symm]
        rfl
      · simp [owner, identity, here]
    refine ⟨keyed, fun hold member => ?_, fun a b first second =>
      held.together a b (holds _ first) (holds _ second)⟩
    have kept := held.owns hold (holds hold member)
    cases hold <;> simpa only [Owns, same] using kept

theorem ownership_kept (s : Lifecycle)
    (run : Transition.Run (step config) (fun s a => apart s a = true) empty s)
    (registration : NodeRegistration) (usdcOptedIn : Bool)
    (acknowledged : .registering registration usdcOptedIn .acknowledged ∈ s.handlers) :
    ∃ record, s.store.get registration.nodeId = some record ∧
      record.registration.operatorAddress = registration.operatorAddress := by
  have owned : Owned s :=
    run.invariant owned_empty fun _ _ _ held separate taken => step_owned config separate taken held
  have own := owned.owns (.done registration) (List.mem_filterMap.mpr ⟨_, acknowledged, rfl⟩)
  simpa [Owns, owner, identity] using own

def rivalRegistration : NodeRegistration :=
  { demoRegistration with
    operatorAddress := "RIVAL", endpoint := "https://rival.example", nonce := "b1" }

-- Both find the id free.
theorem acknowledged_owner_replaced :
    ∃ s, Transition.Run (step demoMesh) (fun _ _ => True) empty s ∧
      .registering demoRegistration true .acknowledged ∈ s.handlers ∧
      s.owner "node-a" = some "RIVAL" := by
  let actions : List LifecycleAction :=
    [.register demoRegistration true, .register rivalRegistration true, .read 0, .read 1,
      .upsert 0 1000, .acknowledge 0, .upsert 1 1001]
  have shown : (Transition.replay (step demoMesh) empty actions).map (fun s =>
      (decide (Handler.registering demoRegistration true .acknowledged ∈ s.handlers),
        s.owner "node-a")) = some (true, some "RIVAL") := by
    decide
  obtain ⟨s, replayed, facts⟩ := Option.map_eq_some_iff.mp shown
  simp only [Prod.mk.injEq, decide_eq_true_eq] at facts
  exact ⟨s, Transition.run_of_replay actions
    (Transition.allows_of_forall actions fun _ _ _ => trivial) replayed, facts⟩

-- The second operator comes once the first is registered, and is refused.
theorem ownership_kept_rival :
    ∃ s : Lifecycle, Handler.registering rivalRegistration true .refused ∈ s.handlers ∧
      ∃ record, s.store.get "node-a" = some record ∧
        record.registration.operatorAddress = "OPERATOR" := by
  let actions : List LifecycleAction :=
    [.register demoRegistration true, .register rivalRegistration true, .read 0, .upsert 0 1000,
      .acknowledge 0, .read 1]
  have shown : (Transition.replay
      (fun s a => if apart s a then step demoMesh s a else none) empty actions).map (fun s =>
      (decide (Handler.registering rivalRegistration true .refused ∈ s.handlers),
        decide (Handler.registering demoRegistration true .acknowledged ∈ s.handlers))) =
        some (true, true) := by
    decide
  obtain ⟨s, replayed, facts⟩ := Option.map_eq_some_iff.mp shown
  simp only [Prod.mk.injEq, decide_eq_true_eq] at facts
  exact ⟨s, facts.1, ownership_kept demoMesh s (Transition.run_of_guarded apart actions replayed)
    demoRegistration true facts.2⟩

def Fresh (s : Lifecycle) : Hold → Prop
  | .held nodeId existing => existing.registration.nodeId = nodeId ∧
      s.identity nodeId = some (existing.registration, existing.usdcOptedIn)
  | _ => True

structure Current (s : Lifecycle) : Prop where
  keyed : Keyed s
  latest : ∀ nodeId, s.identity nodeId = s.latest nodeId
  fresh : ∀ hold ∈ s.holds, Fresh s hold

theorem step_current {s s' : Lifecycle} {a : LifecycleAction} (free : unheld s a = true)
    (taken : step config s a = some s') (held : Current s) : Current s' := by
  have keyed := step_keyed config taken held.keyed
  have unchanged (same : ∀ nodeId, s'.identity nodeId = s.identity nodeId) (hold : Hold)
      (fresh : Fresh s hold) : Fresh s' hold := by
    cases hold with
    | held => simpa only [Fresh, same] using fresh
    | _ => trivial
  cases step_change config taken with
  | quiet holds same latest =>
    exact ⟨keyed, fun nodeId => by rw [same, latest, held.latest],
      fun hold member => unchanged same hold (held.fresh hold (holds hold member))⟩
  | checked _ registration _ _ _ _ holds same latest =>
    refine ⟨keyed, fun nodeId => by rw [same, latest, held.latest], fun hold member => ?_⟩
    rcases holds hold member with old | rfl
    · exact unchanged same hold (held.fresh hold old)
    · trivial
  | held nodeId existing found holds same latest =>
    refine ⟨keyed, fun nodeId => by rw [same, latest, held.latest], fun hold member => ?_⟩
    rcases holds hold member with old | rfl
    · exact unchanged same hold (held.fresh hold old)
    · have known := identity_of_get found
      exact unchanged same _ ⟨held.keyed nodeId _ known, known⟩
  | registered index seenAt registration usdcOptedIn existing act was holds identity latest =>
    refine ⟨keyed, fun nodeId => ?_, fun hold member => ?_⟩
    next =>
      rw [identity, latest, Function.update_apply, held.latest]
    next =>
      rcases holds hold member with old | rfl
      · cases hold with
        | held nodeId record =>
          obtain ⟨signer, heldAt, inside⟩ := held_of_mem old
          have other : nodeId ≠ registration.nodeId := by
            rintro rfl
            subst act
            simp only [unheld, was, List.all_eq_true] at free
            simpa using free _ inside
          have kept := held.fresh _ old
          simpa only [Fresh, identity, if_neg other] using kept
        | _ => trivial
      · trivial
  | beaten nodeId existing was holds identity latest =>
    obtain ⟨id, known⟩ := held.fresh _ was
    have same : ∀ other, s'.identity other = s.identity other := by
      intro other
      rw [identity]
      split
      next here => rw [here, id, known]
      next => rfl
    exact ⟨keyed, fun other => by rw [same, latest, held.latest],
      fun hold member => unchanged same hold (held.fresh hold (holds hold member))⟩

theorem heartbeats_keep_registration (s : Lifecycle)
    (run : Transition.Run (step config) (fun s a => unheld s a = true) empty s) (nodeId : String) :
    (s.store.get nodeId).map (fun record => (record.registration, record.usdcOptedIn)) =
      s.latest nodeId := by
  have init : Current empty :=
    ⟨by simp [Keyed, identity, empty], fun _ => rfl, by simp [holds, empty]⟩
  have current : Current s :=
    run.invariant init fun _ _ _ held free taken => step_current config free taken held
  exact current.latest nodeId

def movedRegistration : NodeRegistration :=
  { demoRegistration with
    endpoint := "https://node-b.example", version := "1.1.0", timestamp := 1, nonce := "a2" }

-- The heartbeat has read the record before the node moves, and writes it back after.
theorem heartbeat_undoes_registration :
    ∃ s, Transition.Run (step demoMesh) (fun _ _ => True) empty s ∧
      s.handlers = [.registering demoRegistration true .acknowledged,
        .beating "node-a" "OPERATOR" .acknowledged,
        .registering movedRegistration true .acknowledged] ∧
      s.latest "node-a" = some (movedRegistration, true) ∧
      s.identity "node-a" = some (demoRegistration, true) := by
  let actions : List LifecycleAction :=
    [.register demoRegistration true, .read 0, .upsert 0 1000, .acknowledge 0,
      .heartbeat "node-a" "OPERATOR", .read 1, .readAgain 1 1001,
      .register movedRegistration true, .read 2, .upsert 2 1002, .acknowledge 2,
      .upsert 1 0, .acknowledge 1]
  have shown : (Transition.replay (step demoMesh) empty actions).map (fun s =>
      (s.handlers, s.latest "node-a", s.identity "node-a")) =
        some ([.registering demoRegistration true .acknowledged,
          .beating "node-a" "OPERATOR" .acknowledged,
          .registering movedRegistration true .acknowledged],
          some (movedRegistration, true), some (demoRegistration, true)) := by
    decide
  obtain ⟨s, replayed, facts⟩ := Option.map_eq_some_iff.mp shown
  simp only [Prod.mk.injEq] at facts
  exact ⟨s, Transition.run_of_replay actions
    (Transition.allows_of_forall actions fun _ _ _ => trivial) replayed, facts⟩

theorem heartbeats_keep_registration_moved :
    ∃ s : Lifecycle, s.latest "node-a" = some (movedRegistration, true) ∧
      (s.store.get "node-a").map (fun record => (record.registration, record.usdcOptedIn)) =
        s.latest "node-a" := by
  let actions : List LifecycleAction :=
    [.register demoRegistration true, .read 0, .upsert 0 1000, .acknowledge 0,
      .heartbeat "node-a" "OPERATOR", .register movedRegistration true, .read 2, .read 1,
      .readAgain 1 1001, .upsert 1 0, .upsert 2 1002]
  have shown : (Transition.replay
      (fun s a => if unheld s a then step demoMesh s a else none) empty actions).map
        (·.latest "node-a") = some (some (movedRegistration, true)) := by
    decide
  obtain ⟨s, replayed, latest⟩ := Option.map_eq_some_iff.mp shown
  exact ⟨s, latest, heartbeats_keep_registration demoMesh s
    (Transition.run_of_guarded unheld actions replayed) "node-a"⟩

end Lifecycle

end X402Mesh.Gateway
