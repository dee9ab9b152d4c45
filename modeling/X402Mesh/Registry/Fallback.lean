import X402Mesh.Registry.Serializable

set_option autoImplicit false

-- The Redis store writes every operation to its own memory first, and answers from that memory once
-- Redis has failed it. Here operations come one after another: those of this process, and those of
-- the others that share the keys.

namespace X402Mesh.Registry

inductive StoreOp
  | upsert (record : NodeRecord)
  | recordOutcome (nodeId : String) (o : ReportedOutcome)
  | beginRequest (nodeId : String)
  | endRequest (nodeId : String)
  | remove (nodeId : String)
  deriving DecidableEq

namespace StoreOp

def nodeId : StoreOp → String
  | .upsert record => record.registration.nodeId
  | .recordOutcome nodeId _ => nodeId
  | .beginRequest nodeId => nodeId
  | .endRequest nodeId => nodeId
  | .remove nodeId => nodeId

def onMemory (store : MemoryNodeStore) : StoreOp → MemoryNodeStore
  | .upsert record => store.upsert record
  | .recordOutcome nodeId o => store.recordOutcome nodeId o
  | .beginRequest nodeId => store.beginRequest nodeId
  | .endRequest nodeId => store.endRequest nodeId
  | .remove nodeId => store.remove nodeId

def call? : StoreOp → Option RedisCall
  | .upsert record => some (.upsert record)
  | .recordOutcome _ o => some (.recordOutcome o)
  | .beginRequest _ => some .beginRequest
  | .endRequest _ => some .endRequest
  | .remove _ => none

def onKeys (keys : RedisNode) (op : StoreOp) : RedisNode :=
  match op.call? with
  | some call => keys.perform call
  | none => .absent

end StoreOp

namespace RedisNode

-- What a call leaves when only its next `served` commands take effect.
def served (keys : RedisNode) (call : RedisCall) (point : Point) : Nat → RedisNode
  | 0 => keys
  | n + 1 =>
    match advance keys call point with
    | none => keys
    | some (keys, point) => served keys call point n

end RedisNode

-- A removal is one `DEL` of the three keys and one `SREM`.
def StoreOp.cut (keys : RedisNode) (op : StoreOp) (n : Nat) : RedisNode :=
  match op.call? with
  | some call => keys.served call .start n
  | none =>
    match n with
    | 0 => keys
    | 1 => { RedisNode.absent with indexed := keys.indexed }
    | _ => .absent

namespace StoreOp

open RedisNode

theorem served_replay {call : RedisCall} (n : Nat) {keys keys' : RedisNode} {point point' : Point}
    (replayed : Transition.replay (fun (s : RedisNode × Point) (_ : Unit) => advance s.1 call s.2)
      (keys, point) (List.replicate n ()) = some (keys', point')) :
    keys.served call point n = keys' := by
  induction n generalizing keys point with
  | zero =>
    cases replayed
    rfl
  | succ n ih =>
    rw [List.replicate_succ, Transition.replay, Option.bind_eq_some_iff] at replayed
    obtain ⟨⟨next, stage⟩, advanced, later⟩ := replayed
    simp only [served, advanced]
    exact ih later

-- An operation that nothing breaks is one of which enough commands take effect.
theorem onKeys_cut (op : StoreOp) (keys : RedisNode) : ∃ n, op.onKeys keys = op.cut keys n := by
  unfold onKeys cut
  cases op.call? with
  | none => exact ⟨2, rfl⟩
  | some call =>
    obtain ⟨n, replayed⟩ := advance_alone keys call
    exact ⟨n, (served_replay n replayed).symm⟩

end StoreOp

structure RedisNodeStore where
  fallback : MemoryNodeStore
  degraded : Bool

structure Shared where
  redis : OrderedMap String RedisNode
  store : RedisNodeStore

-- `broken` counts the commands that took effect before the connection failed the operation.
inductive SharedEvent
  | operate (op : StoreOp) (broken : Option Nat)
  | get (nodeId : String) (fails : Bool)
  | list (fails : Bool)
  | elsewhere (op : StoreOp) (broken : Option Nat)
  | restart
  deriving DecidableEq

namespace Shared

def init : Shared := ⟨.empty, ⟨.empty, false⟩⟩

def node (s : Shared) (nodeId : String) : RedisNode := (s.redis.get? nodeId).getD .absent

def revise (s : Shared) (op : StoreOp) (broken : Option Nat) : OrderedMap String RedisNode :=
  let keys := s.node op.nodeId
  s.redis.set op.nodeId
    (match broken with
    | none => op.onKeys keys
    | some n => op.cut keys n)

def degrade (s : Shared) : Shared := { s with store := { s.store with degraded := true } }

def operate (s : Shared) (op : StoreOp) (broken : Option Nat) : Shared :=
  let fallback := op.onMemory s.store.fallback
  if s.store.degraded then { s with store := { s.store with fallback := fallback } }
  else { redis := s.revise op broken, store := ⟨fallback, broken.isSome⟩ }

def step (s : Shared) : SharedEvent → Shared
  | .operate op broken => s.operate op broken
  | .get _ fails => if fails then s.degrade else s
  | .list fails => if fails then s.degrade else s
  | .elsewhere op broken => { s with redis := s.revise op broken }
  | .restart => { s with store := ⟨.empty, false⟩ }

def after (s : Shared) (events : List SharedEvent) : Shared := events.foldl step s

def get (s : Shared) (nodeId : String) : Option NodeRecord :=
  if s.store.degraded then s.store.fallback.get nodeId else (s.node nodeId).readRecord

def list (s : Shared) : List NodeRecord :=
  if s.store.degraded then s.store.fallback.list
  else s.redis.values.filterMap fun keys => if keys.indexed then keys.readRecord else none

theorem after_append (s : Shared) (first second : List SharedEvent) :
    s.after (first ++ second) = (s.after first).after second := List.foldl_append

theorem node_revise (s : Shared) (op : StoreOp) (broken : Option Nat) (store : RedisNodeStore)
    (nodeId : String) :
    Shared.node ⟨s.revise op broken, store⟩ nodeId =
      if nodeId = op.nodeId then
        match broken with
        | none => op.onKeys (s.node nodeId)
        | some n => op.cut (s.node nodeId) n
      else s.node nodeId := by
  by_cases same : nodeId = op.nodeId
  · subst same
    simp [revise, node]
  · simp [revise, node, OrderedMap.get?_set, same]

end Shared

namespace RedisNode

-- A record that a call has in hand is that of its node.
def Named (nodeId : String) (record : Option NodeRecord) : Prop :=
  ∀ known, record = some known → known.registration.nodeId = nodeId

def Point.Named (nodeId : String) : Point → Prop
  | .gotBlob blob => RedisNode.Named nodeId blob
  | .gotRecord record => RedisNode.Named nodeId record
  | .pushed record => record.registration.nodeId = nodeId
  | .trimmed record => record.registration.nodeId = nodeId
  | .gotWindow record _ => RedisNode.Named nodeId record
  | _ => True

@[simp] theorem named_some (nodeId : String) (record : NodeRecord) :
    Named nodeId (some record) ↔ record.registration.nodeId = nodeId := by
  simp [Named]

theorem named_inFlight {nodeId : String} {record : Option NodeRecord}
    (held : Named nodeId record) (n : Nat) : Named nodeId (record.map (withInFlight · n)) := by
  rintro _ found
  obtain ⟨known, rfl, rfl⟩ := Option.map_eq_some_iff.mp found
  exact held known rfl

theorem advance_named {nodeId : String} {keys keys' : RedisNode} {call : RedisCall}
    {point point' : Point} (advanced : advance keys call point = some (keys', point'))
    (own : ∀ record, call = .upsert record → record.registration.nodeId = nodeId)
    (keys_named : Named nodeId keys.record) (point_named : point.Named nodeId) :
    Named nodeId keys'.record ∧ point'.Named nodeId := by
  cases call with
  | upsert record =>
    cases point with
    | start =>
      cases advanced
      exact ⟨keys_named, keys_named⟩
    | gotBlob blob =>
      cases advanced
      exact ⟨keys_named, named_inFlight point_named _⟩
    | gotRecord existing =>
      cases advanced
      exact ⟨keys_named, point_named⟩
    | gotWindow existing window =>
      cases advanced
      refine ⟨(named_some _ _).mpr ?_, trivial⟩
      rw [(mergeRecord_registration _ _ _).1]
      exact own record rfl
    | indexing =>
      cases advanced
      exact ⟨keys_named, trivial⟩
    | _ => cases advanced
  | recordOutcome o =>
    cases point with
    | start =>
      cases advanced
      exact ⟨keys_named, keys_named⟩
    | gotBlob blob =>
      cases blob with
      | none =>
        cases advanced
        exact ⟨keys_named, trivial⟩
      | some blob =>
        cases advanced
        exact ⟨keys_named, (named_some _ _).mpr (point_named blob rfl)⟩
    | gotRecord record =>
      cases record with
      | none => cases advanced
      | some record =>
        cases advanced
        exact ⟨keys_named, point_named record rfl⟩
    | pushed record =>
      cases advanced
      exact ⟨keys_named, point_named⟩
    | trimmed record =>
      cases advanced
      exact ⟨keys_named, (named_some _ _).mpr point_named⟩
    | gotWindow record window =>
      cases record with
      | none => cases advanced
      | some record =>
        cases advanced
        exact ⟨(named_some _ _).mpr (point_named record rfl), trivial⟩
    | _ => cases advanced
  | beginRequest =>
    cases point <;> cases advanced
    exact ⟨keys_named, trivial⟩
  | endRequest =>
    cases point with
    | start =>
      cases advanced
      refine ⟨keys_named, ?_⟩
      split <;> trivial
    | clamping =>
      cases advanced
      exact ⟨keys_named, trivial⟩
    | _ => cases advanced

theorem served_named {nodeId : String} {call : RedisCall}
    (own : ∀ record, call = .upsert record → record.registration.nodeId = nodeId) (n : Nat)
    {keys : RedisNode} {point : Point} (keys_named : Named nodeId keys.record)
    (point_named : point.Named nodeId) : Named nodeId (keys.served call point n).record := by
  induction n generalizing keys point with
  | zero => exact keys_named
  | succ n ih =>
    cases advanced : advance keys call point with
    | none => simpa [served, advanced] using keys_named
    | some next =>
      obtain ⟨keys_named, point_named⟩ := advance_named advanced own keys_named point_named
      simpa [served, advanced] using ih keys_named point_named

end RedisNode

namespace StoreOp

open RedisNode

theorem named_upsert {op : StoreOp} {call : RedisCall} (calls : op.call? = some call)
    (record : NodeRecord) (upserts : call = .upsert record) :
    record.registration.nodeId = op.nodeId := by
  subst upserts
  cases op <;> simp only [call?, Option.some.injEq, reduceCtorEq, RedisCall.upsert.injEq] at calls
  rw [← calls]
  rfl

theorem cut_named (op : StoreOp) {keys : RedisNode} (held : Named op.nodeId keys.record) (n : Nat) :
    Named op.nodeId (op.cut keys n).record := by
  unfold cut
  cases calls : op.call? with
  | some call => exact served_named (named_upsert calls) n held trivial
  | none =>
    match n with
    | 0 => exact held
    | 1 | _ + 2 => simp [Named, absent]

theorem onKeys_named (op : StoreOp) {keys : RedisNode} (held : Named op.nodeId keys.record) :
    Named op.nodeId (op.onKeys keys).record := by
  obtain ⟨n, same⟩ := op.onKeys_cut keys
  rw [same]
  exact op.cut_named held n

end StoreOp

namespace Shared

open RedisNode

def Keyed (s : Shared) : Prop := ∀ nodeId, Named nodeId (s.node nodeId).record

theorem keyed_revise {s : Shared} (held : s.Keyed) (op : StoreOp) (broken : Option Nat)
    (store : RedisNodeStore) : Keyed ⟨s.revise op broken, store⟩ := by
  intro nodeId
  rw [node_revise]
  by_cases same : nodeId = op.nodeId
  · subst same
    rw [if_pos rfl]
    cases broken with
    | none => exact op.onKeys_named (held _)
    | some n => exact op.cut_named (held _) n
  · rw [if_neg same]
    exact held nodeId

theorem step_keyed {s : Shared} (held : s.Keyed) (e : SharedEvent) : (s.step e).Keyed := by
  cases e with
  | operate op broken =>
    simp only [step, operate]
    split
    · exact held
    · exact keyed_revise held op broken _
  | get _ fails => cases fails <;> exact held
  | list fails => cases fails <;> exact held
  | elsewhere op broken => exact keyed_revise held op broken _
  | restart => exact held

theorem after_keyed (events : List SharedEvent) {s : Shared} (held : s.Keyed) :
    (s.after events).Keyed := by
  induction events generalizing s with
  | nil => exact held
  | cons e rest ih => exact ih (step_keyed held e)

theorem init_keyed : init.Keyed := by
  rintro nodeId record found
  cases found

-- What a list that Redis served says of a node is what its keys say.
theorem mem_list {s : Shared} (held : s.Keyed) (live : s.store.degraded = false)
    {listed : NodeRecord} (member : listed ∈ s.list) :
    (s.node listed.registration.nodeId).readRecord = some listed := by
  simp only [list, live, Bool.false_eq_true, if_false, List.mem_filterMap,
    OrderedMap.mem_values] at member
  obtain ⟨keys, ⟨nodeId, stored⟩, read⟩ := member
  have same : s.node nodeId = keys := by simp [node, stored]
  obtain ⟨-, read⟩ := Option.ite_none_right_eq_some.mp read
  have named : listed.registration.nodeId = nodeId := by
    obtain ⟨blob, found, rfl⟩ := Option.map_eq_some_iff.mp read
    exact held nodeId blob (by rw [same, found])
  rw [named, same, read]

end Shared

structure Mirrors (nodeId : String) (fallback : MemoryNodeStore) (keys : RedisNode) : Prop where
  record : (fallback.get nodeId).map RedisNode.erased = keys.record.map RedisNode.erased
  window : fallback.window nodeId = RedisNode.history keys.window

theorem normalizeOutcome_idem (o : ReportedOutcome) :
    normalizeOutcome (normalizeOutcome o).reported = normalizeOutcome o := by
  have latency := normalizeOutcome_latency o
  have ended := normalizeOutcome_ended o
  generalize normalizeOutcome o = normalized at latency ended ⊢
  simp only [normalizeOutcome, RequestOutcome.reported, if_pos latency, Int.cast_pos, Rat.floor_intCast]
  by_cases later : 0 < normalized.endedAt
  · rw [if_pos later]
  · rw [if_neg later, ← le_antisymm (not_lt.mp later) ended]

-- Memory appends and cuts the front; Redis pushes in front and cuts the back.
theorem history_push (window : List RequestOutcome) (o : ReportedOutcome) :
    RedisNode.history ((normalizeOutcome o :: window).take healthWindowSize) =
      MemoryNodeStore.bounded (RedisNode.history window ++ [normalizeOutcome o]) := by
  have reversed : RedisNode.history window ++ [normalizeOutcome o] =
      (normalizeOutcome o ::
        (window.take healthWindowSize).map fun o => normalizeOutcome o.reported).reverse := by
    simp [RedisNode.history]
  rw [reversed, MemoryNodeStore.bounded, List.drop_reverse, RedisNode.history]
  congr 1
  have size : healthWindowSize = 99 + 1 := rfl
  simp only [List.take_take, List.length_reverse, List.length_cons, List.length_map,
    List.length_take, min_self, size, List.take_succ_cons, List.map_cons, normalizeOutcome_idem]
  have kept : min (99 + 1) window.length + 1 - (min (99 + 1) window.length + 1 - (99 + 1)) =
      min 99 window.length + 1 := by omega
  rw [kept, List.take_succ_cons, ← List.map_take, List.take_take]
  congr 2
  rw [List.take_eq_take_iff]
  omega

namespace Mirrors

open RedisNode

variable {fallback : MemoryNodeStore} {keys : RedisNode}

theorem upsert {record : NodeRecord} (held : Mirrors record.registration.nodeId fallback keys) :
    Mirrors record.registration.nodeId (fallback.upsert record) (keys.upsert record) where
  record := by
    rw [MemoryNodeStore.get_upsert, if_pos rfl, held.window]
    simp only [RedisNode.upsert, Option.map_some, Option.some.injEq]
    rw [erased_merged held.record, erased_merged (erased_readRecord keys)]
    rfl
  window := by
    rw [MemoryNodeStore.window_upsert]
    exact held.window

theorem recordOutcome {nodeId : String} (o : ReportedOutcome) (held : Mirrors nodeId fallback keys) :
    Mirrors nodeId (fallback.recordOutcome nodeId o) (keys.recordOutcome o) := by
  have same := held.record
  cases known : fallback.get nodeId with
  | none =>
    have absent : keys.record = none := by simpa [known, eq_comm] using same
    have unread : keys.readRecord = none := by simp [readRecord, absent]
    rw [MemoryNodeStore.recordOutcome, known, RedisNode.recordOutcome, unread]
    exact held
  | some record =>
    cases stored : keys.record with
    | none => simp [known, stored] at same
    | some blob =>
      have erases : erased record = erased blob := by simpa [known, stored] using same
      have read : keys.readRecord = some (withInFlight blob (parseCount keys.inFlight)) := by
        simp [readRecord, stored]
      constructor
      · rw [MemoryNodeStore.get_recordOutcome, if_pos rfl, known, RedisNode.recordOutcome, read,
          held.window, ← history_push]
        simp only [Option.map_some, Option.some.injEq]
        rw [erased_deriveHealth, erased_deriveHealth, erased_withInFlight, erases]
        have total : (erased record).totalRequests = (erased blob).totalRequests := by rw [erases]
        change record.totalRequests = blob.totalRequests at total
        rw [total]
        rfl
      · rw [MemoryNodeStore.window_recordOutcome, RedisNode.recordOutcome, read, held.window]
        simp only [known, Option.isSome_some, and_self, if_true]
        exact (history_push _ _).symm

theorem setInFlight {nodeId : String} (revise : Nat → Nat) (inFlight : Int)
    (held : Mirrors nodeId fallback keys) :
    Mirrors nodeId (fallback.setInFlight nodeId revise) { keys with inFlight := inFlight } where
  record := by
    rw [MemoryNodeStore.get_setInFlight, if_pos rfl, Option.map_map]
    exact held.record
  window := by
    rw [MemoryNodeStore.window_setInFlight]
    exact held.window

theorem remove (nodeId : String) (fallback : MemoryNodeStore) :
    Mirrors nodeId (fallback.remove nodeId) .absent where
  record := by rw [MemoryNodeStore.get_remove, if_pos rfl]; rfl
  window := by rw [MemoryNodeStore.window_remove, if_pos rfl]; rfl

theorem operated {op : StoreOp} (held : Mirrors op.nodeId fallback keys) :
    Mirrors op.nodeId (op.onMemory fallback) (op.onKeys keys) := by
  cases op with
  | upsert record => exact held.upsert
  | recordOutcome nodeId o => exact held.recordOutcome o
  | beginRequest nodeId => exact held.setInFlight _ _
  | endRequest nodeId => exact held.setInFlight (· - 1) (keys.endRequest).inFlight
  | remove nodeId => exact remove nodeId fallback

end Mirrors

def inFlightOf (fallback : MemoryNodeStore) (nodeId : String) : Nat :=
  ((fallback.get nodeId).map (·.health.inFlight)).getD 0

-- Requests begin and end on a node that is known, and a new node reports none.
def StoreOp.paired (fallback : MemoryNodeStore) : StoreOp → Bool
  | .upsert record =>
    (fallback.get record.registration.nodeId).isSome || record.health.inFlight = 0
  | .beginRequest nodeId => (fallback.get nodeId).isSome
  | .endRequest nodeId => (fallback.get nodeId).isSome
  | _ => true

theorem inFlight_operated {op : StoreOp} {fallback : MemoryNodeStore} {keys : RedisNode}
    (paired : op.paired fallback = true) (held : keys.inFlight = inFlightOf fallback op.nodeId) :
    (op.onKeys keys).inFlight = inFlightOf (op.onMemory fallback) op.nodeId := by
  unfold inFlightOf at held ⊢
  cases op with
  | upsert record =>
    have read := fallback.get_upsert record record.registration.nodeId
    simp only [StoreOp.paired, StoreOp.nodeId] at paired held
    change keys.inFlight = (((fallback.upsert record).get record.registration.nodeId).map
      fun record => record.health.inFlight).getD 0
    rw [read, if_pos rfl, held]
    cases known : fallback.get record.registration.nodeId with
    | none =>
      have reported : record.health.inFlight = 0 := by simpa [known] using paired
      simp [mergeRecord, reported]
    | some existing => simp [(mergeRecord_owner existing record _).1]
  | recordOutcome nodeId o =>
    have same : (StoreOp.onKeys keys (.recordOutcome nodeId o)).inFlight = keys.inFlight := by
      simp only [StoreOp.onKeys, StoreOp.call?, RedisNode.perform, RedisNode.recordOutcome]
      cases keys.readRecord <;> rfl
    rw [same, held]
    simp only [StoreOp.onMemory, StoreOp.nodeId, MemoryNodeStore.get_recordOutcome, if_true,
      Option.map_map]
    cases known : fallback.get nodeId with
    | none => rfl
    | some record => simp [(deriveHealth_owner record.health _).1]
  | beginRequest nodeId =>
    obtain ⟨record, known⟩ := Option.isSome_iff_exists.mp paired
    simp only [StoreOp.nodeId, known] at held
    simp only [StoreOp.onMemory, StoreOp.nodeId, MemoryNodeStore.beginRequest,
      MemoryNodeStore.get_setInFlight, known]
    simp [StoreOp.onKeys, StoreOp.call?, RedisNode.perform, RedisNode.beginRequest, held]
  | endRequest nodeId =>
    obtain ⟨record, known⟩ := Option.isSome_iff_exists.mp paired
    simp only [StoreOp.nodeId, known] at held
    simp only [StoreOp.onMemory, StoreOp.nodeId, MemoryNodeStore.endRequest,
      MemoryNodeStore.get_setInFlight, known]
    simp only [StoreOp.onKeys, StoreOp.call?, RedisNode.perform, RedisNode.endRequest, held]
    simp
    omega
  | remove nodeId =>
    simp [StoreOp.onMemory, StoreOp.nodeId, MemoryNodeStore.get_remove, StoreOp.onKeys,
      StoreOp.call?, RedisNode.absent]

theorem Mirrors.get_eq {nodeId : String} {fallback : MemoryNodeStore} {keys : RedisNode}
    (held : Mirrors nodeId fallback keys) (same : keys.inFlight = inFlightOf fallback nodeId) :
    fallback.get nodeId = keys.readRecord := by
  have records := held.record
  cases known : fallback.get nodeId with
  | none =>
    have absent : keys.record = none := by simpa [known, eq_comm] using records
    simp [RedisNode.readRecord, absent]
  | some record =>
    cases stored : keys.record with
    | none => simp [known, stored] at records
    | some blob =>
      have erases : RedisNode.erased record = RedisNode.erased blob := by
        simpa [known, stored] using records
      have counted : RedisNode.parseCount keys.inFlight = record.health.inFlight := by
        simp [same, inFlightOf, known, RedisNode.parseCount]
      have filled : RedisNode.withInFlight (RedisNode.erased record) record.health.inFlight =
          RedisNode.withInFlight (RedisNode.erased blob) record.health.inFlight := by
        rw [erases]
      rw [RedisNode.readRecord, stored, Option.map_some, counted]
      exact congrArg some filled

-- No other process touches the node, and this one stays up.
def SharedEvent.mine (nodeId : String) : SharedEvent → Bool
  | .elsewhere op _ => op.nodeId ≠ nodeId
  | .restart => false
  | _ => true

def owned (nodeId : String) (events : List SharedEvent) : List StoreOp :=
  events.filterMap fun
    | .operate op _ => if op.nodeId = nodeId then some op else none
    | _ => none

theorem owned_append (nodeId : String) (before between : List SharedEvent) :
    owned nodeId (before ++ between) = owned nodeId before ++ owned nodeId between :=
  List.filterMap_append

namespace Shared

open RedisNode

-- The requests of the node are counted while it is known.
def paired (nodeId : String) (s : Shared) : SharedEvent → Bool
  | .operate op _ => op.nodeId ≠ nodeId || op.paired s.store.fallback
  | _ => true

def Paired (nodeId : String) (s : Shared) (events : List SharedEvent) : Prop :=
  Transition.Allows (fun s e => some (step s e)) (fun s e => s.paired nodeId e = true) s events

-- `keys` are what Redis would hold of the node had it taken every operation.
structure Follows (nodeId : String) (s : Shared) (keys : RedisNode) : Prop where
  mirrors : Mirrors nodeId s.store.fallback keys
  live : s.store.degraded = false → s.node nodeId = keys

theorem get_onMemory_other {op : StoreOp} {nodeId : String} (other : nodeId ≠ op.nodeId)
    (fallback : MemoryNodeStore) :
    (op.onMemory fallback).get nodeId = fallback.get nodeId ∧
      (op.onMemory fallback).window nodeId = fallback.window nodeId := by
  cases op with
  | upsert record =>
    exact ⟨(fallback.get_upsert record nodeId).trans (if_neg other),
      fallback.window_upsert record nodeId⟩
  | recordOutcome own o =>
    refine ⟨(fallback.get_recordOutcome own o nodeId).trans (if_neg other), ?_⟩
    refine (fallback.window_recordOutcome own o nodeId).trans (if_neg ?_)
    exact fun both => other both.1
  | beginRequest own =>
    exact ⟨(fallback.get_setInFlight own _ nodeId).trans (if_neg other),
      fallback.window_setInFlight own _ nodeId⟩
  | endRequest own =>
    exact ⟨(fallback.get_setInFlight own _ nodeId).trans (if_neg other),
      fallback.window_setInFlight own _ nodeId⟩
  | remove own =>
    exact ⟨(fallback.get_remove own nodeId).trans (if_neg other),
      (fallback.window_remove own nodeId).trans (if_neg other)⟩

theorem fallback_operate (s : Shared) (op : StoreOp) (broken : Option Nat) :
    (s.operate op broken).store.fallback = op.onMemory s.store.fallback := by
  unfold operate
  split <;> rfl

theorem operate_own {s : Shared} {op : StoreOp} {keys : RedisNode} (broken : Option Nat)
    (held : Follows op.nodeId s keys) : Follows op.nodeId (s.operate op broken) (op.onKeys keys) := by
  constructor
  · rw [fallback_operate]
    exact held.mirrors.operated
  · intro live
    unfold operate at live ⊢
    cases degraded : s.store.degraded with
    | true => simp [degraded] at live
    | false =>
      cases broken with
      | some n => simp [degraded] at live
      | none =>
        simp only [degraded, Bool.false_eq_true, if_false]
        rw [node_revise, if_pos rfl, held.live degraded]

theorem operate_other {s : Shared} {op : StoreOp} {nodeId : String} {keys : RedisNode}
    (other : nodeId ≠ op.nodeId) (broken : Option Nat) (held : Follows nodeId s keys) :
    Follows nodeId (s.operate op broken) keys := by
  obtain ⟨same_get, same_window⟩ := get_onMemory_other other s.store.fallback
  constructor
  · rw [fallback_operate]
    exact ⟨by rw [same_get, held.mirrors.record], by rw [same_window, held.mirrors.window]⟩
  · intro live
    unfold operate at live ⊢
    cases degraded : s.store.degraded with
    | true => simp [degraded] at live
    | false =>
      simp only [Bool.false_eq_true, if_false]
      rw [node_revise, if_neg other, held.live degraded]

theorem degrade_follows {s : Shared} {nodeId : String} {keys : RedisNode}
    (held : Follows nodeId s keys) (fails : Bool) :
    Follows nodeId (if fails then s.degrade else s) keys := by
  cases fails with
  | false => exact held
  | true => exact ⟨held.mirrors, fun live => by cases live⟩

theorem step_follows {s : Shared} {nodeId : String} {keys : RedisNode} {e : SharedEvent}
    (held : Follows nodeId s keys) (mine : e.mine nodeId = true) :
    Follows nodeId (s.step e) ((owned nodeId [e]).foldl StoreOp.onKeys keys) := by
  cases e with
  | operate op broken =>
    by_cases own : op.nodeId = nodeId
    · subst own
      simpa [owned, step] using operate_own broken held
    · simpa [owned, own, step] using operate_other (Ne.symm own) broken held
  | get _ fails => exact degrade_follows held fails
  | list fails => exact degrade_follows held fails
  | elsewhere op broken =>
    have other : nodeId ≠ op.nodeId := Ne.symm (of_decide_eq_true mine)
    refine ⟨held.mirrors, fun live => ?_⟩
    rw [step, node_revise, if_neg other]
    exact held.live live
  | restart => cases mine

theorem step_inFlight {s : Shared} {nodeId : String} {keys : RedisNode} {e : SharedEvent}
    (mine : e.mine nodeId = true) (paired : s.paired nodeId e = true)
    (held : keys.inFlight = inFlightOf s.store.fallback nodeId) :
    ((owned nodeId [e]).foldl StoreOp.onKeys keys).inFlight =
      inFlightOf (s.step e).store.fallback nodeId := by
  cases e with
  | operate op broken =>
    rw [step, fallback_operate]
    by_cases own : op.nodeId = nodeId
    · subst own
      have counts : op.paired s.store.fallback = true := by simpa [Shared.paired] using paired
      simpa [owned] using inFlight_operated counts held
    · have same := (get_onMemory_other (Ne.symm own) s.store.fallback).1
      simpa [owned, own, inFlightOf, same] using held
  | get _ fails => cases fails <;> exact held
  | list fails => cases fails <;> exact held
  | elsewhere op broken => exact held
  | restart => cases mine

theorem after_follows (events : List SharedEvent) {s : Shared} {nodeId : String} {keys : RedisNode}
    (held : Follows nodeId s keys) (mine : ∀ e ∈ events, e.mine nodeId = true) :
    Follows nodeId (s.after events) ((owned nodeId events).foldl StoreOp.onKeys keys) := by
  induction events generalizing s keys with
  | nil => exact held
  | cons e rest ih =>
    have first := step_follows held (mine e List.mem_cons_self)
    have later := ih first fun other member => mine other (List.mem_cons_of_mem e member)
    rw [← List.singleton_append, owned_append, List.foldl_append]
    exact later

theorem after_inFlight (events : List SharedEvent) {s : Shared} {nodeId : String}
    {keys : RedisNode} (mine : ∀ e ∈ events, e.mine nodeId = true)
    (paired : Paired nodeId s events)
    (held : keys.inFlight = inFlightOf s.store.fallback nodeId) :
    ((owned nodeId events).foldl StoreOp.onKeys keys).inFlight =
      inFlightOf (s.after events).store.fallback nodeId := by
  induction events generalizing s keys with
  | nil => exact held
  | cons e rest ih =>
    have first := step_inFlight (mine e List.mem_cons_self) paired.1 held
    have later := ih (fun other member => mine other (List.mem_cons_of_mem e member))
      (paired.2 _ rfl) first
    rw [← List.singleton_append, owned_append, List.foldl_append]
    exact later

-- Only a node that is known has a window.
theorem window_unknown {store : MemoryNodeStore}
    (held : ∀ nodeId, store.get nodeId = none → store.window nodeId = []) (op : StoreOp)
    (nodeId : String) (unknown : (op.onMemory store).get nodeId = none) :
    (op.onMemory store).window nodeId = [] := by
  by_cases own : nodeId = op.nodeId
  · subst own
    cases op with
    | upsert record =>
      have known := store.get_upsert record record.registration.nodeId
      rw [if_pos rfl] at known
      cases known.symm.trans unknown
    | recordOutcome nodeId o =>
      have before : store.get nodeId = none := by
        have after := store.get_recordOutcome nodeId o nodeId
        rw [if_pos rfl] at after
        exact Option.map_eq_none_iff.mp (after.symm.trans unknown)
      have same := store.window_recordOutcome nodeId o nodeId
      rw [before, if_neg (by simp)] at same
      exact same.trans (held nodeId before)
    | beginRequest nodeId =>
      have after := store.get_setInFlight nodeId (· + 1) nodeId
      rw [if_pos rfl] at after
      have before := Option.map_eq_none_iff.mp (after.symm.trans unknown)
      exact (store.window_setInFlight nodeId (· + 1) nodeId).trans (held nodeId before)
    | endRequest nodeId =>
      have after := store.get_setInFlight nodeId (· - 1) nodeId
      rw [if_pos rfl] at after
      have before := Option.map_eq_none_iff.mp (after.symm.trans unknown)
      exact (store.window_setInFlight nodeId (· - 1) nodeId).trans (held nodeId before)
    | remove nodeId => exact (store.window_remove nodeId nodeId).trans (if_pos rfl)
  · obtain ⟨same_get, same_window⟩ := get_onMemory_other own store
    rw [same_window]
    exact held nodeId (same_get ▸ unknown)

theorem after_window (events : List SharedEvent) {s : Shared}
    (held : ∀ nodeId, s.store.fallback.get nodeId = none → s.store.fallback.window nodeId = []) :
    ∀ nodeId, (s.after events).store.fallback.get nodeId = none →
      (s.after events).store.fallback.window nodeId = [] := by
  induction events generalizing s with
  | nil => exact held
  | cons e rest ih =>
    apply ih
    cases e with
    | operate op broken =>
      rw [step, fallback_operate]
      exact window_unknown held op
    | get _ fails => cases fails <;> exact held
    | list fails => cases fails <;> exact held
    | elsewhere op broken => exact held
    | restart => exact fun _ _ => rfl

-- Nothing but a removal forgets a node.
theorem onKeys_known {keys : RedisNode} {record : NodeRecord}
    (found : keys.readRecord = some record) {op : StoreOp} (kept : op ≠ .remove op.nodeId) :
    ∃ later, (op.onKeys keys).readRecord = some later := by
  unfold StoreOp.onKeys
  cases calls : op.call? with
  | some call =>
    obtain ⟨later, read, -⟩ := perform_known found call
    exact ⟨later, read⟩
  | none => cases op <;> simp [StoreOp.call?, StoreOp.nodeId] at calls kept

theorem ops_known (ops : List StoreOp) (nodeId : String)
    (own : ∀ op ∈ ops, op.nodeId = nodeId) (kept : .remove nodeId ∉ ops) {keys : RedisNode}
    {record : NodeRecord} (found : keys.readRecord = some record)
    (named : Named nodeId keys.record) :
    ∃ later, (ops.foldl StoreOp.onKeys keys).readRecord = some later ∧
      later.registration.nodeId = nodeId := by
  induction ops generalizing keys record with
  | nil =>
    refine ⟨record, found, ?_⟩
    obtain ⟨blob, stored, rfl⟩ := Option.map_eq_some_iff.mp found
    exact named blob stored
  | cons op rest ih =>
    obtain rfl : op.nodeId = nodeId := own op List.mem_cons_self
    have first : op ≠ .remove op.nodeId := fun same => kept (same ▸ List.mem_cons_self)
    obtain ⟨later, read⟩ := onKeys_known found first
    exact ih (fun other member => own other (List.mem_cons_of_mem op member))
      (fun member => kept (List.mem_cons_of_mem op member)) read (op.onKeys_named named)

theorem owned_nodeId {nodeId : String} {events : List SharedEvent} {op : StoreOp}
    (member : op ∈ owned nodeId events) : op.nodeId = nodeId := by
  obtain ⟨e, -, picked⟩ := List.mem_filterMap.mp member
  cases e with
  | operate own broken =>
    obtain ⟨same, picked⟩ := Option.ite_none_right_eq_some.mp picked
    cases picked
    exact same
  | _ => cases picked

theorem fallback_serves (nodeId : String) (opening before between : List SharedEvent)
    (absent : (init.after opening).node nodeId = .absent)
    (unknown : (init.after opening).store.fallback.get nodeId = none)
    (mine : ∀ e ∈ before ++ between, e.mine nodeId = true)
    (live : (init.after (opening ++ before)).store.degraded = false)
    (degraded : (init.after (opening ++ before ++ between)).store.degraded = true)
    (listed : NodeRecord) (member : listed ∈ (init.after (opening ++ before)).list)
    (named : listed.registration.nodeId = nodeId) :
    let seen := init.after (opening ++ before)
    let served := init.after (opening ++ before ++ between)
    let expected := ((owned nodeId between).foldl StoreOp.onKeys (seen.node nodeId)).readRecord
    (seen.node nodeId).readRecord = some listed ∧
      (served.get nodeId).map erased = expected.map erased ∧
      (Paired nodeId (init.after opening) (before ++ between) → served.get nodeId = expected) ∧
      (.remove nodeId ∉ owned nodeId between →
        ∃ record ∈ served.list, record.registration.nodeId = nodeId ∧
          served.get nodeId = some record) := by
  intro seen served expected
  have start_window : (init.after opening).store.fallback.window nodeId = [] :=
    after_window opening (fun _ _ => rfl) nodeId unknown
  have start_follows : Follows nodeId (init.after opening) .absent := by
    refine ⟨⟨?_, ?_⟩, fun _ => absent⟩
    · rw [unknown]
      rfl
    · rw [start_window]
      rfl
  have seen_after : seen = (init.after opening).after before := after_append _ _ _
  have served_after : served = seen.after between := after_append _ _ _
  have seen_expected : Follows nodeId seen ((owned nodeId before).foldl StoreOp.onKeys .absent) := by
    rw [seen_after]
    exact after_follows before start_follows fun e within =>
      mine e (List.mem_append_left between within)
  have seen_follows : Follows nodeId seen (seen.node nodeId) := by
    rwa [seen_expected.live live]
  have served_follows : Follows nodeId served
      ((owned nodeId between).foldl StoreOp.onKeys (seen.node nodeId)) := by
    rw [served_after]
    exact after_follows between seen_follows fun e within => mine e (List.mem_append_right before within)
  have get_served : served.get nodeId = served.store.fallback.get nodeId := if_pos degraded
  have seen_keyed : seen.Keyed := after_keyed _ init_keyed
  have read : (seen.node nodeId).readRecord = some listed := named ▸ mem_list seen_keyed live member
  have erases : (served.get nodeId).map erased = expected.map erased := by
    rw [get_served, served_follows.mirrors.record]
    exact (erased_readRecord _).symm
  refine ⟨read, erases, ?_, ?_⟩
  next =>
    intro paired
    have none_counted : RedisNode.absent.inFlight =
        inFlightOf (init.after opening).store.fallback nodeId := by
      rw [inFlightOf, unknown]
      rfl
    have counted := after_inFlight (before ++ between) mine paired none_counted
    rw [owned_append, List.foldl_append, ← seen_expected.live live, ← after_append,
      ← List.append_assoc] at counted
    rw [get_served]
    exact served_follows.mirrors.get_eq counted
  next =>
    intro kept
    obtain ⟨later, known, own⟩ := ops_known _ nodeId (fun op => owned_nodeId) kept read
      (seen_keyed nodeId)
    have found : (served.get nodeId).map erased = some (erased later) := by
      rw [erases]
      exact congrArg (Option.map erased) known
    obtain ⟨record, got, same⟩ := Option.map_eq_some_iff.mp found
    refine ⟨record, ?_, ?_, got⟩
    · have stored : served.list = served.store.fallback.list := if_pos degraded
      rw [stored]
      exact (OrderedMap.mem_values _ _).mpr ⟨nodeId, get_served.symm.trans got⟩
    · have registrations : (erased record).registration = (erased later).registration := by
        rw [same]
      change record.registration = later.registration at registrations
      rw [registrations, own]

-- The connection breaks after the outcome is pushed and before the record is written.
theorem fallback_serves_broken :
    ∃ record ∈ (init.after [.operate (.upsert RedisNode.demoNode) none,
        .operate (.beginRequest "node-a") none, .list false,
        .operate (.recordOutcome "node-a" demoOutcome) (some 3)]).list,
      record.registration.nodeId = "node-a" ∧
        (init.after [.operate (.upsert RedisNode.demoNode) none,
          .operate (.beginRequest "node-a") none, .list false,
          .operate (.recordOutcome "node-a" demoOutcome) (some 3)]).get "node-a" = some record := by
  have serves := fallback_serves "node-a" []
    [.operate (.upsert RedisNode.demoNode) none, .operate (.beginRequest "node-a") none, .list false]
    [.operate (.recordOutcome "node-a" demoOutcome) (some 3)] rfl rfl (by decide) rfl rfl
    (withInFlight RedisNode.demoNode 1) (List.mem_singleton.mpr rfl) rfl
  exact serves.2.2.2 (by decide)

def registeredElsewhere : Shared :=
  init.after [.elsewhere (.upsert RedisNode.demoNode) none, .list false]

def begunElsewhere : Shared :=
  init.after [.operate (.upsert RedisNode.demoNode) none, .elsewhere (.beginRequest "node-a") none,
    .list false]

def begunUnregistered : Shared :=
  init.after [.operate (.beginRequest "node-a") none, .operate (.upsert RedisNode.demoNode) none,
    .list false]

-- What the last list said, and what the fallback serves when the next read fails.
theorem fallback_differs :
    registeredElsewhere.list = [RedisNode.demoNode] ∧
      (registeredElsewhere.after [.get "node-a" true]).list = [] ∧
      (registeredElsewhere.after [.get "node-a" true]).get "node-a" = none ∧
    begunElsewhere.list = [withInFlight RedisNode.demoNode 1] ∧
      (begunElsewhere.after [.get "node-a" true]).list = [withInFlight RedisNode.demoNode 0] ∧
    begunUnregistered.list = [withInFlight RedisNode.demoNode 1] ∧
      (begunUnregistered.after [.get "node-a" true]).list = [withInFlight RedisNode.demoNode 0] :=
  ⟨rfl, rfl, rfl, rfl, rfl, rfl, rfl⟩

end Shared

end X402Mesh.Registry
