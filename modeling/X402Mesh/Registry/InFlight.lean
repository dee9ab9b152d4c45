import Mathlib.Logic.Function.Basic
import X402Mesh.Registry.Fallback

set_option autoImplicit false

-- Several instances of the Redis store count their requests in one key for each node. An instance
-- that Redis has failed once goes on with its own memory, whatever it has begun.

namespace X402Mesh.Registry

/-- Where a request stands between its two calls, each of which looks for the client before it
sends. -/
inductive Stage
  | beginning | incrementing | serving | ending | decrementing | clamping | ended
  deriving DecidableEq, Repr

namespace Stage

-- The command that is on its way to Redis.
def command? : Stage → Option (RedisCall × RedisNode.Point)
  | .incrementing => some (.beginRequest, .start)
  | .decrementing => some (.endRequest, .start)
  | .clamping => some (.endRequest, .clamping)
  | _ => none

def answered : Stage → RedisNode.Point → Stage
  | .incrementing, _ => .serving
  | _, .clamping => .clamping
  | _, _ => .ended

-- The rest of the call is the one of the memory store, which has already run.
def failed : Stage → Stage
  | .incrementing => .serving
  | _ => .ended

end Stage

/-- Both flags are ghosts: whether the increment and the decrement have reached Redis. -/
structure Flight (ι : Type) where
  owner : ι
  nodeId : String
  stage : Stage
  counted : Bool
  released : Bool
  deriving DecidableEq

/-- A command that failed may have reached Redis all the same. -/
inductive Reply
  | answered
  | failed (reached : Bool)
  deriving DecidableEq, Repr

def Reply.reached : Reply → Bool
  | .answered => true
  | .failed reached => reached

def RedisCall.counts : RedisCall → Bool
  | .beginRequest | .endRequest => true
  | _ => false

inductive Elsewhere
  | advance (call : RedisCall) (point : RedisNode.Point)
  | del
  | srem

namespace RedisNode

def elsewhere (keys : RedisNode) : Elsewhere → Option RedisNode
  | .advance call point => if call.counts then none else (keys.advance call point).map (·.1)
  | .del => some { absent with indexed := keys.indexed }
  | .srem => some { keys with indexed := false }

end RedisNode

structure Fleet (ι : Type) where
  redis : String → RedisNode
  store : ι → RedisNodeStore
  flights : List (Flight ι)

inductive FleetAction (ι : Type)
  | beginRequest (i : ι) (nodeId : String)
  | endRequest (index : Nat)
  | send (index : Nat)
  | command (index : Nat) (reply : Reply)
  | operate (i : ι) (op : StoreOp)
  | elsewhere (nodeId : String) (command : Elsewhere)
  | fails (i : ι)

def StoreOp.counts : StoreOp → Bool
  | .beginRequest _ | .endRequest _ => true
  | _ => false

namespace Fleet

variable {ι : Type} [DecidableEq ι]

def start : Fleet ι := ⟨fun _ => .absent, fun _ => ⟨.empty, false⟩, []⟩

def degraded (fleet : Fleet ι) (i : ι) : Bool := (fleet.store i).degraded

-- Every operation writes the memory of its instance first.
def remember (fleet : Fleet ι) (i : ι) (op : StoreOp) : Fleet ι :=
  { fleet with
    store := Function.update fleet.store i
      { fleet.store i with fallback := op.onMemory (fleet.store i).fallback } }

def degrade (fleet : Fleet ι) (i : ι) : Fleet ι :=
  { fleet with store := Function.update fleet.store i { fleet.store i with degraded := true } }

def setKeys (fleet : Fleet ι) (nodeId : String) (keys : RedisNode) : Fleet ι :=
  { fleet with redis := Function.update fleet.redis nodeId keys }

def setFlight (fleet : Fleet ι) (index : Nat) (flight : Flight ι) : Fleet ι :=
  { fleet with flights := fleet.flights.set index flight }

def beginRequest (fleet : Fleet ι) (i : ι) (nodeId : String) : Fleet ι :=
  { fleet.remember i (.beginRequest nodeId) with
    flights := fleet.flights ++ [⟨i, nodeId, .beginning, false, false⟩] }

def endRequest (fleet : Fleet ι) (index : Nat) : Option (Fleet ι) := do
  let flight ← fleet.flights[index]?
  match flight.stage with
  | .serving =>
    return (fleet.remember flight.owner (.endRequest flight.nodeId)).setFlight index
      { flight with stage := .ending }
  | _ => none

def send (fleet : Fleet ι) (index : Nat) : Option (Fleet ι) := do
  let flight ← fleet.flights[index]?
  match flight.stage with
  | .beginning =>
    return fleet.setFlight index
      { flight with stage := if fleet.degraded flight.owner then .serving else .incrementing }
  | .ending =>
    return fleet.setFlight index
      { flight with stage := if fleet.degraded flight.owner then .ended else .decrementing }
  | _ => none

def arrived (flight : Flight ι) (reply : Reply) (point : RedisNode.Point) : Flight ι :=
  { flight with
    stage :=
      match reply with
      | .answered => flight.stage.answered point
      | .failed _ => flight.stage.failed
    counted := flight.counted || flight.stage = .incrementing && reply.reached
    released := flight.released || flight.stage = .decrementing && reply.reached }

def command (fleet : Fleet ι) (index : Nat) (reply : Reply) : Option (Fleet ι) := do
  let flight ← fleet.flights[index]?
  let (call, point) ← flight.stage.command?
  let (keys, point') ← (fleet.redis flight.nodeId).advance call point
  let fleet := fleet.setFlight index (arrived flight reply point')
  let fleet := if reply.reached then fleet.setKeys flight.nodeId keys else fleet
  match reply with
  | .answered => return fleet
  | .failed _ => return fleet.degrade flight.owner

def step (fleet : Fleet ι) : FleetAction ι → Option (Fleet ι)
  | .beginRequest i nodeId => some (fleet.beginRequest i nodeId)
  | .endRequest index => fleet.endRequest index
  | .send index => fleet.send index
  | .command index reply => fleet.command index reply
  | .operate i op => if op.counts then none else some (fleet.remember i op)
  | .elsewhere nodeId command => ((fleet.redis nodeId).elsewhere command).map (fleet.setKeys nodeId)
  | .fails i => some (fleet.degrade i)

-- Redis counts the request, and the command that takes it back is still to be sent.
def due (flight : Flight ι) : Bool :=
  flight.counted && (flight.stage = .serving || flight.stage = .ending)

def spare (fleet : Fleet ι) (i : ι) : Prop :=
  ∀ flight ∈ fleet.flights, flight.owner = i → due flight = false

/-- An instance that Redis fails has no counted request whose decrement is still to be sent, no
increment of its own reaches Redis then or later, and a decrement or a clamp that fails has reached
Redis and leaves no negative counter. -/
def steady (fleet : Fleet ι) : FleetAction ι → Prop
  | .command index reply =>
    ∀ flight, fleet.flights[index]? = some flight →
      match flight.stage, reply with
      | .incrementing, .answered => fleet.degraded flight.owner = false
      | .incrementing, .failed reached => reached = false ∧ fleet.spare flight.owner
      | .decrementing, .failed reached =>
        reached = true ∧ 0 < (fleet.redis flight.nodeId).inFlight ∧ fleet.spare flight.owner
      | .clamping, .failed reached => reached = true ∧ fleet.spare flight.owner
      | _, _ => True
  | .fails i => fleet.spare i
  | _ => True

def Sound (degraded : Bool) (flight : Flight ι) : Prop :=
  match flight.stage with
  | .beginning | .incrementing => flight.counted = false ∧ flight.released = false
  | .serving | .ending => flight.counted = !degraded ∧ flight.released = false
  | .decrementing => flight.counted = true ∧ flight.released = false
  | .clamping => flight.counted = true ∧ flight.released = true
  | .ended => flight.counted = flight.released

-- The increment is in Redis, and the decrement is not.
def outstanding (nodeId : String) (flight : Flight ι) : Bool :=
  flight.nodeId = nodeId && (flight.counted && !flight.released)

def clamps (nodeId : String) (flight : Flight ι) : Prop :=
  flight.nodeId = nodeId ∧ flight.stage = .clamping

structure Paired (fleet : Fleet ι) : Prop where
  sound : ∀ flight ∈ fleet.flights, Sound (fleet.degraded flight.owner) flight
  most : ∀ nodeId, (fleet.redis nodeId).inFlight ≤ (fleet.flights.countP (outstanding nodeId) : Int)
  least : ∀ nodeId, (fleet.redis nodeId).inFlight < 0 → ∃ flight ∈ fleet.flights, clamps nodeId flight

omit [DecidableEq ι] in
theorem start_paired : (start : Fleet ι).Paired where
  sound := nofun
  most _ := by simp [start, RedisNode.absent]
  least _ below := absurd below (by simp [start, RedisNode.absent])

@[simp] theorem degraded_remember (fleet : Fleet ι) (i : ι) (op : StoreOp) (j : ι) :
    (fleet.remember i op).degraded j = fleet.degraded j := by
  by_cases same : j = i
  · subst same
    simp [remember, degraded]
  · simp [remember, degraded, same]

theorem degraded_degrade (fleet : Fleet ι) (i j : ι) :
    (fleet.degrade i).degraded j = (decide (j = i) || fleet.degraded j) := by
  by_cases same : j = i
  · subst same
    simp [degrade, degraded]
  · simp [degrade, degraded, same]

theorem advance_elsewhere {keys keys' : RedisNode} {command : Elsewhere}
    (taken : keys.elsewhere command = some keys') :
    keys'.inFlight = keys.inFlight ∨ keys'.inFlight = 0 := by
  cases command with
  | advance call point =>
    left
    simp only [RedisNode.elsewhere, Option.ite_none_left_eq_some, Option.map_eq_some_iff,
      Prod.exists] at taken
    obtain ⟨other, after, point', advanced, rfl⟩ := taken
    cases call with
    | upsert record => cases point <;> cases advanced <;> rfl
    | recordOutcome o =>
      cases point with
      | gotBlob blob => cases blob <;> cases advanced <;> rfl
      | gotRecord record => cases record <;> cases advanced; rfl
      | gotWindow record window => cases record <;> cases advanced; rfl
      | _ => cases advanced <;> rfl
    | _ => exact absurd rfl other
  | del =>
    cases taken
    exact .inr rfl
  | srem =>
    cases taken
    exact .inl rfl

theorem Paired.remember {fleet : Fleet ι} (paired : fleet.Paired) (i : ι) (op : StoreOp) :
    (fleet.remember i op).Paired where
  sound flight member := by
    rw [degraded_remember]
    exact paired.sound flight member
  most := paired.most
  least := paired.least

omit [DecidableEq ι] in
theorem Paired.elsewhere {fleet : Fleet ι} (paired : fleet.Paired) {nodeId : String}
    {keys : RedisNode}
    (kept : keys.inFlight = (fleet.redis nodeId).inFlight ∨ keys.inFlight = 0) :
    (fleet.setKeys nodeId keys).Paired where
  sound := paired.sound
  most other := by
    by_cases own : other = nodeId
    · subst own
      simp only [setKeys, Function.update_self]
      rcases kept with same | reset
      next =>
        rw [same]
        exact paired.most other
      next =>
        rw [reset]
        exact Int.natCast_nonneg _
    · simpa [setKeys, own] using paired.most other
  least other below := by
    by_cases own : other = nodeId
    · subst own
      simp only [setKeys, Function.update_self] at below
      rcases kept with same | reset
      next => exact paired.least other (same ▸ below)
      next => omega
    · exact paired.least other (by simpa [setKeys, own] using below)

theorem Paired.beginRequest {fleet : Fleet ι} (paired : fleet.Paired) (i : ι) (nodeId : String) :
    (fleet.beginRequest i nodeId).Paired where
  sound flight member := by
    change Sound ((fleet.remember i (.beginRequest nodeId)).degraded flight.owner) flight
    rw [degraded_remember]
    rcases List.mem_append.mp member with old | new
    next => exact paired.sound flight old
    next =>
      obtain rfl := List.mem_singleton.mp new
      exact ⟨rfl, rfl⟩
  most other := by
    have same : (fleet.beginRequest i nodeId).flights.countP (outstanding other) =
        fleet.flights.countP (outstanding other) := by
      simp [Fleet.beginRequest, outstanding]
    rw [same]
    exact paired.most other
  least other below := by
    obtain ⟨flight, member, clamping⟩ := paired.least other below
    exact ⟨flight, List.mem_append_left _ member, clamping⟩

omit [DecidableEq ι] in
theorem Paired.sound_set {fleet : Fleet ι} (paired : fleet.Paired) {index : Nat}
    {flight next : Flight ι} (owner : next.owner = flight.owner)
    (sound : Sound (fleet.degraded flight.owner) next) :
    ∀ other ∈ fleet.flights.set index next, Sound (fleet.degraded other.owner) other := by
  intro other member
  rcases List.mem_or_eq_of_mem_set member with old | rfl
  next => exact paired.sound other old
  next =>
    rw [owner]
    exact sound

omit [DecidableEq ι] in
-- A clamp that is under way on another flight goes on.
theorem Paired.clamping_other {fleet : Fleet ι} (paired : fleet.Paired) {index : Nat}
    {flight next : Flight ι} (found : fleet.flights[index]? = some flight) {nodeId : String}
    (negative : (fleet.redis nodeId).inFlight < 0)
    (apart : nodeId = flight.nodeId → flight.stage ≠ .clamping) :
    ∃ other ∈ fleet.flights.set index next, clamps nodeId other := by
  obtain ⟨other, member, clamping⟩ := paired.least nodeId negative
  obtain ⟨place, inside, rfl⟩ := List.mem_iff_getElem.mp member
  refine ⟨_, List.mem_of_getElem? (i := place) (a := fleet.flights[place]) ?_, clamping⟩
  have different : index ≠ place := by
    rintro rfl
    rw [List.getElem?_eq_getElem inside, Option.some.injEq] at found
    subst found
    exact apart clamping.1.symm clamping.2
  rw [List.getElem?_set_ne different, List.getElem?_eq_getElem inside]

omit [DecidableEq ι] in
-- A request that goes on without any of its commands.
theorem Paired.setFlight {fleet : Fleet ι} (paired : fleet.Paired) {index : Nat}
    {flight next : Flight ι} (found : fleet.flights[index]? = some flight)
    (owner : next.owner = flight.owner)
    (sound : Sound (fleet.degraded flight.owner) next)
    (same : ∀ nodeId, outstanding nodeId next = outstanding nodeId flight)
    (moving : flight.stage ≠ .clamping) : (fleet.setFlight index next).Paired where
  sound := paired.sound_set owner sound
  most nodeId := by
    have counts := List.countP_set_add (outstanding nodeId) _ index flight next found
    rw [same nodeId] at counts
    have unchanged := Nat.add_right_cancel counts
    rw [Fleet.setFlight, unchanged]
    exact paired.most nodeId
  least nodeId below := paired.clamping_other found below fun _ => moving

theorem Paired.degrade {fleet : Fleet ι} (paired : fleet.Paired) {i : ι} (spare : fleet.spare i) :
    (fleet.degrade i).Paired where
  sound flight member := by
    rw [degraded_degrade]
    have before := paired.sound flight member
    by_cases own : flight.owner = i
    · have idle := spare flight member own
      rw [decide_eq_true own, Bool.true_or]
      revert before idle
      unfold Sound due
      cases flight.stage <;> simp
      all_goals
        intro counted released uncounted
        rw [uncounted] at counted
        simp [uncounted, released]
    · rw [decide_eq_false own, Bool.false_or]
      exact before
  most := paired.most
  least := paired.least

omit [DecidableEq ι] in
-- A command of the request reaches Redis.
theorem Paired.arrive {fleet : Fleet ι} (paired : fleet.Paired) {index : Nat}
    {flight next : Flight ι} {keys : RedisNode} (found : fleet.flights[index]? = some flight)
    (owner : next.owner = flight.owner) (own : next.nodeId = flight.nodeId)
    (sound : Sound (fleet.degraded flight.owner) next)
    (balance : keys.inFlight ≤ 0 ∨
      keys.inFlight + (outstanding flight.nodeId flight).toNat ≤
        (fleet.redis flight.nodeId).inFlight + (outstanding flight.nodeId next).toNat)
    (least : keys.inFlight < 0 → next.stage = .clamping ∨
      (fleet.redis flight.nodeId).inFlight < 0 ∧ flight.stage ≠ .clamping) :
    ((fleet.setFlight index next).setKeys flight.nodeId keys).Paired where
  sound := paired.sound_set owner sound
  most nodeId := by
    have counts := List.countP_set_add (outstanding nodeId) _ index flight next found
    have before := paired.most nodeId
    change (Function.update fleet.redis flight.nodeId keys nodeId).inFlight ≤
      ((fleet.flights.set index next).countP (outstanding nodeId) : Int)
    by_cases same : nodeId = flight.nodeId
    · subst same
      rw [Function.update_self]
      rcases balance with low | balanced
      next => exact low.trans (Int.natCast_nonneg _)
      next => omega
    · have apart : outstanding nodeId next = outstanding nodeId flight := by
        simp [outstanding, own, Ne.symm same]
      rw [apart] at counts
      rw [Function.update_of_ne same, Nat.add_right_cancel counts]
      exact before
  least nodeId below := by
    change (Function.update fleet.redis flight.nodeId keys nodeId).inFlight < 0 at below
    have bound := (List.getElem?_eq_some_iff.mp found).1
    by_cases same : nodeId = flight.nodeId
    · subst same
      rw [Function.update_self] at below
      rcases least below with clamping | ⟨negative, moving⟩
      next => exact ⟨next, List.mem_set bound next, own, clamping⟩
      next => exact paired.clamping_other found negative fun _ => moving
    · rw [Function.update_of_ne same] at below
      exact paired.clamping_other found below fun mine => absurd mine same

theorem Paired.command {fleet fleet' : Fleet ι} (paired : fleet.Paired) {index : Nat}
    {reply : Reply} (steady : fleet.steady (.command index reply))
    (taken : fleet.command index reply = some fleet') : fleet'.Paired := by
  simp only [Fleet.command, Option.bind_eq_bind, Option.bind_eq_some_iff, Prod.exists] at taken
  obtain ⟨flight, found, call, point, sent, keys, point', advanced, taken⟩ := taken
  have before := paired.sound flight (List.mem_of_getElem? found)
  have allowed := steady flight found
  cases stage : flight.stage with
  | incrementing =>
    simp only [stage, Stage.command?, Option.some.injEq, Prod.mk.injEq] at sent
    obtain ⟨rfl, rfl⟩ := sent
    cases advanced
    simp only [Sound, stage] at before
    obtain ⟨uncounted, unreleased⟩ := before
    cases reply with
    | answered =>
      cases taken
      simp only [stage] at allowed
      change ((fleet.setFlight index (arrived flight .answered .done)).setKeys flight.nodeId _).Paired
      apply paired.arrive found
      · rfl
      · rfl
      · simp [Sound, arrived, stage, Stage.answered, Reply.reached, allowed, unreleased]
      · right
        simp [outstanding, arrived, stage, Reply.reached, uncounted, unreleased]
      · intro below
        exact .inr ⟨by dsimp only at below; omega, by simp [stage]⟩
    | failed reached =>
      simp only [stage] at allowed
      obtain ⟨rfl, spare⟩ := allowed
      cases taken
      change ((fleet.degrade flight.owner).setFlight index (arrived flight (.failed false) .done)).Paired
      apply (paired.degrade spare).setFlight found
      · rfl
      · rw [degraded_degrade]
        simp [Sound, arrived, stage, Stage.failed, Reply.reached, uncounted, unreleased]
      · intro nodeId
        simp [outstanding, arrived, Reply.reached]
      · simp [stage]
  | decrementing =>
    simp only [stage, Stage.command?, Option.some.injEq, Prod.mk.injEq] at sent
    obtain ⟨rfl, rfl⟩ := sent
    cases advanced
    simp only [Sound, stage] at before
    obtain ⟨counted, unreleased⟩ := before
    cases reply with
    | answered =>
      cases taken
      have either (point : RedisNode.Point) :
          Sound (fleet.degraded flight.owner) (arrived flight .answered point) := by
        cases point <;> simp [Sound, arrived, stage, Stage.answered, Reply.reached, counted]
      change ((fleet.setFlight index (arrived flight .answered _)).setKeys flight.nodeId _).Paired
      apply paired.arrive found
      · rfl
      · rfl
      · exact either _
      · right
        simp [outstanding, arrived, stage, Reply.reached, counted, unreleased]
      · intro below
        left
        simp only [arrived, stage, Stage.answered]
        rw [if_pos below]
    | failed reached =>
      simp only [stage] at allowed
      obtain ⟨rfl, positive, spare⟩ := allowed
      cases taken
      change (((fleet.degrade flight.owner).setFlight index
        (arrived flight (.failed true) _)).setKeys flight.nodeId _).Paired
      apply (paired.degrade spare).arrive found
      · rfl
      · rfl
      · simp [Sound, arrived, stage, Stage.failed, Reply.reached, counted]
      · right
        simp [outstanding, arrived, stage, Reply.reached, counted, unreleased, Fleet.degrade]
      · intro below
        dsimp only at below
        omega
  | clamping =>
    simp only [stage, Stage.command?, Option.some.injEq, Prod.mk.injEq] at sent
    obtain ⟨rfl, rfl⟩ := sent
    cases advanced
    simp only [Sound, stage] at before
    obtain ⟨counted, released⟩ := before
    cases reply with
    | answered =>
      cases taken
      change ((fleet.setFlight index (arrived flight .answered _)).setKeys flight.nodeId _).Paired
      apply paired.arrive found
      · rfl
      · rfl
      · simp [Sound, arrived, stage, Stage.answered, counted, released]
      · exact .inl (le_refl 0)
      · exact fun below => absurd below (lt_irrefl 0)
    | failed reached =>
      simp only [stage] at allowed
      obtain ⟨rfl, spare⟩ := allowed
      cases taken
      change (((fleet.degrade flight.owner).setFlight index
        (arrived flight (.failed true) _)).setKeys flight.nodeId _).Paired
      apply (paired.degrade spare).arrive found
      · rfl
      · rfl
      · simp [Sound, arrived, stage, Stage.failed, counted, released]
      · exact .inl (le_refl 0)
      · exact fun below => absurd below (lt_irrefl 0)
  | _ => simp [stage, Stage.command?] at sent

theorem Paired.step {fleet fleet' : Fleet ι} (paired : fleet.Paired) {action : FleetAction ι}
    (steady : fleet.steady action) (taken : fleet.step action = some fleet') : fleet'.Paired := by
  cases action with
  | beginRequest i nodeId =>
    cases taken
    exact paired.beginRequest i nodeId
  | endRequest index =>
    simp only [Fleet.step, Fleet.endRequest, Option.bind_eq_bind, Option.bind_eq_some_iff] at taken
    obtain ⟨flight, found, taken⟩ := taken
    have before := paired.sound flight (List.mem_of_getElem? found)
    cases stage : flight.stage with
    | serving =>
      simp only [stage] at taken
      cases taken
      simp only [Sound, stage] at before
      apply (paired.remember flight.owner (.endRequest flight.nodeId)).setFlight found
      · rfl
      · rw [degraded_remember]
        exact before
      · exact fun _ => rfl
      · simp [stage]
    | _ => simp [stage] at taken
  | send index =>
    simp only [Fleet.step, Fleet.send, Option.bind_eq_bind, Option.bind_eq_some_iff] at taken
    obtain ⟨flight, found, taken⟩ := taken
    have before := paired.sound flight (List.mem_of_getElem? found)
    cases stage : flight.stage with
    | beginning =>
      simp only [stage] at taken
      cases taken
      simp only [Sound, stage] at before
      apply paired.setFlight found
      · rfl
      · cases lost : fleet.degraded flight.owner <;> simp [Sound, before]
      · exact fun _ => rfl
      · simp [stage]
    | ending =>
      simp only [stage] at taken
      cases taken
      simp only [Sound, stage] at before
      apply paired.setFlight found
      · rfl
      · cases lost : fleet.degraded flight.owner <;> simp [Sound, before, lost]
      · exact fun _ => rfl
      · simp [stage]
    | _ => simp [stage] at taken
  | command index reply => exact paired.command steady taken
  | operate i op =>
    simp only [Fleet.step, Option.ite_none_left_eq_some, Option.some.injEq] at taken
    obtain ⟨-, rfl⟩ := taken
    exact paired.remember i op
  | elsewhere nodeId command =>
    obtain ⟨keys, moved, rfl⟩ := Option.map_eq_some_iff.mp taken
    exact paired.elsewhere (advance_elsewhere moved)
  | fails i =>
    cases taken
    exact paired.degrade steady

/-- Where no instance loses Redis between an increment and its decrement, every counted request that
has ended was taken back, and with all requests ended every counter is zero. -/
theorem counted_released {fleet : Fleet ι}
    (run : Transition.Run step steady (start : Fleet ι) fleet) :
    (∀ flight ∈ fleet.flights, flight.stage = .ended → flight.counted = true →
      flight.released = true) ∧
    ((∀ flight ∈ fleet.flights, flight.stage = .ended) →
      ∀ nodeId, (fleet.redis nodeId).inFlight = 0) := by
  have paired : fleet.Paired :=
    run.invariant start_paired fun _ _ _ held steady taken => held.step steady taken
  have settled : ∀ flight ∈ fleet.flights, flight.stage = .ended →
      flight.counted = flight.released := by
    intro flight member ended
    have sound := paired.sound flight member
    rwa [Sound, ended] at sound
  constructor
  · intro flight member ended counted
    rw [← settled flight member ended]
    exact counted
  · intro ended nodeId
    have none_left : fleet.flights.countP (outstanding nodeId) = 0 := by
      rw [List.countP_eq_zero]
      intro flight member
      simp [outstanding, settled flight member (ended flight member)]
    have most := paired.most nodeId
    rw [none_left] at most
    have least : ¬ (fleet.redis nodeId).inFlight < 0 := by
      intro below
      obtain ⟨flight, member, clamping⟩ := paired.least nodeId below
      simpa [ended flight member] using clamping.2
    omega

-- One request that is counted and taken back before the instance loses Redis.
theorem counted_released_failing : ∃ fleet : Fleet Unit,
    fleet.flights.map (fun flight => (flight.stage, flight.counted, flight.released)) =
        [(.ended, true, true)] ∧
      fleet.degraded () = true ∧ ∀ nodeId, (fleet.redis nodeId).inFlight = 0 := by
  have counted : Transition.Run step steady (start : Fleet Unit) _ :=
    ((Transition.Run.refl.tail (a := .beginRequest () "node-a") (by exact trivial) rfl).tail
      (a := .send 0) (by exact trivial) rfl).tail (a := .command 0 .answered) (by
        intro flight found
        cases found
        rfl) rfl
  have released := ((counted.tail (a := .endRequest 0) (by exact trivial) rfl).tail
      (a := .send 0) (by exact trivial) rfl).tail (a := .command 0 .answered) (by
        intro flight found
        cases found
        trivial) rfl
  have run := released.tail (a := .fails ()) (by
    intro flight member _
    obtain rfl := List.mem_singleton.mp member
    rfl) rfl
  refine ⟨_, rfl, rfl, (counted_released run).2 ?_⟩
  intro flight member
  obtain rfl := List.mem_singleton.mp member
  rfl

-- A command of another operation fails between the two calls of a request.
theorem count_leaks : ∃ fleet : Fleet Unit,
    Transition.Run step (fun _ _ => True) (start : Fleet Unit) fleet ∧
      (∀ flight ∈ fleet.flights, flight.stage = .ended) ∧
      (fleet.redis "node-a").inFlight = 1 := by
  refine ⟨_, Transition.run_of_replay
    [.beginRequest () "node-a", .send 0, .command 0 .answered, .fails (), .endRequest 0, .send 0]
    (Transition.allows_of_forall _ fun _ _ _ => trivial) rfl, ?_, rfl⟩
  intro flight member
  obtain rfl := List.mem_singleton.mp member
  rfl

end Fleet

end X402Mesh.Registry
