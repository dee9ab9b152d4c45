import Mathlib.Data.List.Induction
import X402Mesh.Registry.Health

set_option autoImplicit false

namespace X402Mesh.Registry

variable (sdk : Sdk)

def Canonical (record : NodeRecord) : Prop := parseNodeRecord sdk record = some record

theorem parseRegistration_fixed {r : NodeRegistration} :
    parseRegistration sdk r = some r ↔
      r.wellFormed sdk = true ∧ normalizeNetwork sdk r.network = some r.network := by
  unfold parseRegistration
  constructor
  · intro fixed
    split at fixed
    next wellFormed =>
      obtain ⟨network, normal, same⟩ := Option.map_eq_some_iff.mp fixed
      have named : network = r.network := congrArg (·.network) same
      exact ⟨wellFormed, named ▸ normal⟩
    next => cases fixed
  · rintro ⟨wellFormed, normal⟩
    rw [if_pos wellFormed, normal]
    rfl

theorem canonical_iff (record : NodeRecord) :
    Canonical sdk record ↔
      record.health.wellFormed = true ∧ Text.isDecimal record.totalPaidAtomic.toList = true ∧
        0 ≤ record.registeredAt ∧ parseRegistration sdk record.registration =
          some record.registration := by
  unfold Canonical parseNodeRecord
  constructor
  · intro fixed
    split at fixed
    next fits =>
      obtain ⟨registration, parsed, same⟩ := Option.map_eq_some_iff.mp fixed
      have registered : registration = record.registration := congrArg (·.registration) same
      simp only [Bool.and_eq_true, decide_eq_true_eq] at fits
      exact ⟨fits.1.1, fits.1.2, fits.2, registered ▸ parsed⟩
    next => cases fixed
  · rintro ⟨health, total, registeredAt, parsed⟩
    simp [health, total, registeredAt, parsed]

-- A valid record is canonical but for the spelling of its network.
theorem canonical_of_valid {record : NodeRecord} (valid : record.valid sdk = true)
    (network : normalizeNetwork sdk record.registration.network =
      some record.registration.network) : Canonical sdk record := by
  obtain ⟨parsed, parses⟩ := Option.isSome_iff_exists.mp valid
  unfold parseNodeRecord at parses
  split at parses
  next fits =>
    obtain ⟨registration, registered, -⟩ := Option.map_eq_some_iff.mp parses
    simp only [Bool.and_eq_true, decide_eq_true_eq] at fits
    refine (canonical_iff sdk record).mpr ⟨fits.1.1, fits.1.2, fits.2, ?_⟩
    unfold parseRegistration at registered
    split at registered
    next wellFormed => exact (parseRegistration_fixed sdk).mpr ⟨wellFormed, network⟩
    next => cases registered
  next => cases parses

theorem parsed_network {record parsed : NodeRecord}
    (parses : parseNodeRecord sdk record = some parsed) :
    normalizeNetwork sdk parsed.registration.network = some parsed.registration.network := by
  unfold parseNodeRecord at parses
  split at parses
  next =>
    obtain ⟨registration, registered, rfl⟩ := Option.map_eq_some_iff.mp parses
    exact ((parseRegistration_fixed sdk).mp (parseRegistration_idem sdk registered)).2
  next => cases parses

theorem canonical_inFlight {record : NodeRecord} (inFlight : Nat) :
    Canonical sdk (RedisNode.withInFlight record inFlight) ↔ Canonical sdk record := by
  rw [canonical_iff, canonical_iff]
  rfl

theorem canonical_erased {record : NodeRecord} :
    Canonical sdk (RedisNode.erased record) ↔ Canonical sdk record :=
  canonical_inFlight sdk 0

theorem percentile_nonneg {sorted : List Rat} (nonneg : ∀ v ∈ sorted, 0 ≤ v) (p : Nat) :
    0 ≤ percentile sorted p := by
  unfold percentile
  dsimp only
  cases picked : sorted[min (sorted.length - 1) ((min 100 p * sorted.length + 99) / 100 - 1)]? with
  | none => simp
  | some v => exact nonneg v (List.mem_of_getElem? picked)

theorem deriveHealth_wellFormed {base : NodeHealth} {window : List RequestOutcome}
    (held : base.wellFormed = true) (measured : ∀ o ∈ window, 0 ≤ o.latencyMs) :
    (deriveHealth base window).wellFormed = true := by
  by_cases empty : window = []
  · simpa [deriveHealth, empty] using held
  · have latency (p : Nat) :
        0 ≤ percentile ((window.map (·.latencyMs)).mergeSort (· ≤ ·)) p := by
      apply percentile_nonneg
      intro v member
      obtain ⟨o, listed, rfl⟩ := List.mem_map.mp (List.mem_mergeSort.mp member)
      exact measured o listed
    have seen := lastSuccess_le base.lastSeenAt window
    simp only [NodeHealth.wellFormed, Bool.and_eq_true, decide_eq_true_eq] at held ⊢
    simp only [deriveHealth, empty, List.isEmpty_iff, if_false]
    obtain ⟨⟨⟨⟨⟨⟨⟨⟨⟨⟨id, short⟩, -⟩, -⟩, room⟩, cap⟩, -⟩, -⟩, -⟩, -⟩, since⟩ := held
    exact ⟨⟨⟨⟨⟨⟨⟨⟨⟨⟨id, short⟩, latency 50⟩, latency 95⟩, room⟩, cap⟩, (clamp01_bounds _).1⟩,
      (clamp01_bounds _).2⟩, (clamp01_bounds _).1⟩, (clamp01_bounds _).2⟩, le_trans since seen⟩

theorem canonical_merged {existing incoming : NodeRecord} {window : List RequestOutcome}
    (held : Canonical sdk existing) (given : Canonical sdk incoming)
    (measured : ∀ o ∈ window, 0 ≤ o.latencyMs) :
    Canonical sdk (mergeRecord (some existing) incoming window) := by
  rw [canonical_iff] at held given ⊢
  obtain ⟨stored, total, registeredAt, -⟩ := held
  obtain ⟨health, added, -, registration⟩ := given
  refine ⟨?_, (maxAtomic_decimal total added).1, registeredAt, registration⟩
  have merged : NodeHealth.wellFormed
      { incoming.health with
        inFlight := existing.health.inFlight
        lastSeenAt := max existing.health.lastSeenAt incoming.health.lastSeenAt } = true := by
    simp only [NodeHealth.wellFormed, Bool.and_eq_true, decide_eq_true_eq] at health stored ⊢
    exact ⟨health.1, le_trans health.2 (le_max_right _ _)⟩
  have derived := deriveHealth_wellFormed merged measured
  unfold mergeRecord
  dsimp only
  split
  next => exact merged
  next => exact derived

-- `parseRecord` of the blob that the keys hold.
def RedisNode.parsed (keys : RedisNode) : RedisNode :=
  { keys with record := keys.record.bind (parseNodeRecord sdk) }

structure RedisStore where
  redis : OrderedMap String RedisNode

namespace RedisStore

def empty : RedisStore := ⟨.empty⟩

def node (store : RedisStore) (nodeId : String) : RedisNode :=
  (store.redis.get? nodeId).getD .absent

def operate (store : RedisStore) (op : StoreOp) : RedisStore :=
  ⟨store.redis.set op.nodeId ((op.onKeys (store.node op.nodeId)).parsed sdk)⟩

def run (store : RedisStore) (ops : List StoreOp) : RedisStore := ops.foldl (operate sdk) store

def get (store : RedisStore) (nodeId : String) : Option NodeRecord :=
  (store.node nodeId).readRecord

def list (store : RedisStore) : List NodeRecord :=
  store.redis.values.filterMap fun keys => if keys.indexed then keys.readRecord else none

theorem node_operate (store : RedisStore) (op : StoreOp) (nodeId : String) :
    (store.operate sdk op).node nodeId =
      if nodeId = op.nodeId then (op.onKeys (store.node nodeId)).parsed sdk
      else store.node nodeId := by
  by_cases same : nodeId = op.nodeId
  · subst same
    simp [operate, node]
  · simp [operate, node, OrderedMap.get?_set, same]

end RedisStore

structure SameRecords (memory : MemoryNodeStore) (redis : RedisStore) : Prop where
  get : ∀ nodeId, memory.get nodeId = redis.get nodeId
  list : ∀ record, record ∈ memory.list ↔ record ∈ redis.list

-- The counter key goes with the other keys of a node that is removed, and does without them before.
def countKey (nodeId : String) (count : Nat) : StoreOp → Nat
  | .remove other => if other = nodeId then 0 else count
  | op => countInFlight nodeId count op

def counterAfter (nodeId : String) (ops : List StoreOp) : Nat := ops.foldl (countKey nodeId) 0

/-- A record comes with its network in the canonical spelling, and the first one of a node reports
the requests that are counted for it already. -/
def StoreOp.suits (memory : MemoryNodeStore) (count : Nat) : StoreOp → Bool
  | .upsert record =>
    normalizeNetwork sdk record.registration.network = some record.registration.network &&
      ((memory.get record.registration.nodeId).isSome || record.health.inFlight = count)
  | _ => true

def StoreOp.agreeable (before : List StoreOp) (op : StoreOp) : Bool :=
  op.suits sdk (MemoryNodeStore.empty.run before) (counterAfter op.nodeId before)

structure Simulates (nodeId : String) (memory : MemoryNodeStore) (keys : RedisNode) (count : Nat) :
    Prop where
  mirrors : Mirrors nodeId memory keys
  counter : keys.inFlight = count
  inFlight : ∀ record, memory.get nodeId = some record → record.health.inFlight = count
  canonical : ∀ record, memory.get nodeId = some record → Canonical sdk record
  indexed : keys.indexed = keys.record.isSome

variable {nodeId : String} {memory : MemoryNodeStore} {keys : RedisNode} {count : Nat}

theorem Simulates.get_eq (held : Simulates sdk nodeId memory keys count) :
    memory.get nodeId = keys.readRecord := by
  cases known : memory.get nodeId with
  | none =>
    have records := held.mirrors.record
    rw [known, Option.map_none, eq_comm, Option.map_eq_none_iff] at records
    simp [RedisNode.readRecord, records]
  | some record =>
    rw [← known]
    apply held.mirrors.get_eq
    simp [inFlightOf, known, held.counter, held.inFlight record known]

theorem counter_onKeys (op : StoreOp) (counter : keys.inFlight = count) :
    (op.onKeys keys).inFlight = countKey op.nodeId count op := by
  cases op with
  | upsert record => exact counter
  | recordOutcome nodeId o =>
    simp only [StoreOp.onKeys, StoreOp.call?, RedisNode.perform, RedisNode.recordOutcome]
    cases keys.readRecord <;> exact counter
  | beginRequest nodeId =>
    simp [StoreOp.onKeys, StoreOp.call?, RedisNode.perform, RedisNode.beginRequest, countKey,
      countInFlight, StoreOp.nodeId, counter]
  | endRequest nodeId =>
    simp only [StoreOp.onKeys, StoreOp.call?, RedisNode.perform, RedisNode.endRequest, countKey,
      countInFlight, StoreOp.nodeId, counter, if_true]
    split <;> omega
  | remove nodeId =>
    simp [StoreOp.onKeys, StoreOp.call?, RedisNode.absent, countKey, StoreOp.nodeId]

theorem indexed_onKeys (op : StoreOp) (indexed : keys.indexed = keys.record.isSome) :
    (op.onKeys keys).indexed = (op.onKeys keys).record.isSome := by
  cases op with
  | upsert record => rfl
  | recordOutcome nodeId o =>
    simp only [StoreOp.onKeys, StoreOp.call?, RedisNode.perform, RedisNode.recordOutcome,
      RedisNode.readRecord]
    cases stored : keys.record with
    | none => simp [stored, indexed]
    | some blob => simp [stored, indexed]
  | beginRequest nodeId => exact indexed
  | endRequest nodeId => exact indexed
  | remove nodeId => rfl

theorem measured_history (window : List RequestOutcome) :
    ∀ o ∈ RedisNode.history window, 0 ≤ o.latencyMs := by
  intro o member
  simp only [RedisNode.history, List.mem_reverse, List.mem_map] at member
  obtain ⟨entry, -, rfl⟩ := member
  exact normalizeOutcome_latency entry.reported

theorem suited_network {record : NodeRecord} (suits : StoreOp.suits sdk memory count (.upsert record)) :
    normalizeNetwork sdk record.registration.network = some record.registration.network := by
  simp only [StoreOp.suits, Bool.and_eq_true, decide_eq_true_eq] at suits
  exact suits.1

theorem Simulates.kept {op : StoreOp} (held : Simulates sdk op.nodeId memory keys count)
    (valid : op.valid sdk = true) (suits : op.suits sdk memory count = true) {record : NodeRecord}
    (found : (op.onMemory memory).get op.nodeId = some record) :
    record.health.inFlight = countKey op.nodeId count op ∧ Canonical sdk record := by
  cases op with
  | upsert incoming =>
    have given := canonical_of_valid sdk valid (suited_network sdk suits)
    have merged := memory.get_upsert incoming incoming.registration.nodeId
    rw [if_pos rfl] at merged
    obtain rfl := Option.some.inj (found.symm.trans merged)
    simp only [StoreOp.nodeId] at held
    cases known : memory.get incoming.registration.nodeId with
    | none =>
      simp only [StoreOp.suits, known, Option.isSome_none, Bool.false_or, Bool.and_eq_true,
        decide_eq_true_eq] at suits
      exact ⟨suits.2, given⟩
    | some existing =>
      have window := held.mirrors.window
      rw [window]
      exact ⟨(mergeRecord_owner existing incoming _).1.trans (held.inFlight existing known),
        canonical_merged sdk (held.canonical existing known) given (measured_history _)⟩
  | recordOutcome nodeId o =>
    have recorded := memory.get_recordOutcome nodeId o nodeId
    rw [if_pos rfl] at recorded
    obtain ⟨existing, known, rfl⟩ := Option.map_eq_some_iff.mp (recorded.symm.trans found)
    refine ⟨(deriveHealth_owner existing.health _).1.trans (held.inFlight existing known), ?_⟩
    have before := (canonical_iff sdk existing).mp (held.canonical existing known)
    refine (canonical_iff sdk _).mpr ⟨deriveHealth_wellFormed before.1 ?_, before.2⟩
    have window : memory.window nodeId = RedisNode.history keys.window := held.mirrors.window
    rw [window, ← history_push]
    exact measured_history _
  | beginRequest nodeId =>
    have counted := memory.get_setInFlight nodeId (· + 1) nodeId
    rw [if_pos rfl] at counted
    obtain ⟨existing, known, rfl⟩ := Option.map_eq_some_iff.mp (counted.symm.trans found)
    have same := held.inFlight existing known
    have counts : countKey nodeId count (.beginRequest nodeId) = count + 1 := if_pos rfl
    exact ⟨(congrArg (· + 1) same).trans counts.symm,
      (canonical_inFlight sdk (existing.health.inFlight + 1)).mpr (held.canonical existing known)⟩
  | endRequest nodeId =>
    have counted := memory.get_setInFlight nodeId (· - 1) nodeId
    rw [if_pos rfl] at counted
    obtain ⟨existing, known, rfl⟩ := Option.map_eq_some_iff.mp (counted.symm.trans found)
    have same := held.inFlight existing known
    have counts : countKey nodeId count (.endRequest nodeId) = count - 1 := if_pos rfl
    exact ⟨(congrArg (· - 1) same).trans counts.symm,
      (canonical_inFlight sdk (existing.health.inFlight - 1)).mpr (held.canonical existing known)⟩
  | remove nodeId =>
    have removed := (memory.get_remove nodeId nodeId).trans (if_pos rfl)
    cases removed.symm.trans found

theorem Simulates.step {op : StoreOp} (held : Simulates sdk op.nodeId memory keys count)
    (valid : op.valid sdk = true) (suits : op.suits sdk memory count = true) :
    Simulates sdk op.nodeId (op.onMemory memory) ((op.onKeys keys).parsed sdk)
      (countKey op.nodeId count op) := by
  have mirrored := held.mirrors.operated
  -- The blob that is written differs from what memory holds in the count alone, which no check of
  -- the schema reads.
  have unchanged : (op.onKeys keys).parsed sdk = op.onKeys keys := by
    unfold RedisNode.parsed
    cases written : (op.onKeys keys).record with
    | none => rw [Option.bind_none, ← written]
    | some blob =>
      have records := mirrored.record
      rw [written, Option.map_some] at records
      obtain ⟨record, found, same⟩ := Option.map_eq_some_iff.mp records
      have canonical := (canonical_erased sdk).mpr (held.kept sdk valid suits found).2
      rw [same, canonical_erased] at canonical
      rw [Option.bind_some, canonical, ← written]
  rw [unchanged]
  exact ⟨mirrored, counter_onKeys op held.counter,
    fun record found => (held.kept sdk valid suits found).1,
    fun record found => (held.kept sdk valid suits found).2, indexed_onKeys op held.indexed⟩

theorem Simulates.elsewhere {op : StoreOp} (other : nodeId ≠ op.nodeId)
    (held : Simulates sdk nodeId memory keys count) :
    Simulates sdk nodeId (op.onMemory memory) keys (countKey nodeId count op) := by
  obtain ⟨same_get, same_window⟩ := Shared.get_onMemory_other other memory
  have counts : countKey nodeId count op = count := by
    cases op with
    | remove removed => exact if_neg (Ne.symm other)
    | _ => exact (silent_elsewhere other count).2
  rw [counts]
  constructor
  case mirrors =>
    constructor
    · rw [same_get]
      exact held.mirrors.record
    · rw [same_window]
      exact held.mirrors.window
  case counter => exact held.counter
  case inFlight => rw [same_get]; exact held.inFlight
  case canonical => rw [same_get]; exact held.canonical
  case indexed => exact held.indexed

def Simulated (ops : List StoreOp) : Prop :=
  ∀ nodeId, Simulates sdk nodeId (MemoryNodeStore.empty.run ops)
    ((RedisStore.empty.run sdk ops).node nodeId) (counterAfter nodeId ops)

theorem simulated_nil : Simulated sdk [] := by
  intro nodeId
  have held : Simulates sdk nodeId .empty .absent 0 :=
    ⟨⟨rfl, rfl⟩, rfl, (fun _ found => nomatch found), (fun _ found => nomatch found), rfl⟩
  exact held

theorem simulated_concat {ops : List StoreOp} {op : StoreOp} (held : Simulated sdk ops)
    (valid : op.valid sdk = true) (agreeable : op.agreeable sdk ops = true) :
    Simulated sdk (ops ++ [op]) := by
  intro nodeId
  have memory : MemoryNodeStore.empty.run (ops ++ [op]) =
      op.onMemory (MemoryNodeStore.empty.run ops) := List.foldl_concat _ _ _ _
  have redis : RedisStore.empty.run sdk (ops ++ [op]) =
      (RedisStore.empty.run sdk ops).operate sdk op := List.foldl_concat _ _ _ _
  have counter : counterAfter nodeId (ops ++ [op]) = countKey nodeId (counterAfter nodeId ops) op :=
    List.foldl_concat _ _ _ _
  rw [memory, redis, counter, RedisStore.node_operate]
  by_cases own : nodeId = op.nodeId
  · subst own
    rw [if_pos rfl]
    exact (held op.nodeId).step sdk valid agreeable
  · rw [if_neg own]
    exact (held nodeId).elsewhere sdk own

theorem RedisStore.mem_list {store : RedisStore}
    (indexed : ∀ nodeId, (store.node nodeId).indexed = (store.node nodeId).record.isSome)
    (record : NodeRecord) : record ∈ store.list ↔ ∃ nodeId, store.get nodeId = some record := by
  simp only [list, List.mem_filterMap, OrderedMap.mem_values]
  constructor
  · rintro ⟨keys, ⟨nodeId, stored⟩, read⟩
    have same : store.node nodeId = keys := by simp [node, stored]
    exact ⟨nodeId, by rw [get, same]; exact (Option.ite_none_right_eq_some.mp read).2⟩
  · rintro ⟨nodeId, read⟩
    have known : (store.node nodeId).record.isSome = true := by
      obtain ⟨blob, stored, -⟩ := Option.map_eq_some_iff.mp read
      rw [stored]
      rfl
    refine ⟨store.node nodeId, ⟨nodeId, ?_⟩, by rw [indexed, known, if_pos rfl]; exact read⟩
    cases stored : store.redis.get? nodeId with
    | none => simp [node, stored, RedisNode.absent] at known
    | some keys => simp [node, stored]

theorem Simulated.sameRecords {ops : List StoreOp} (held : Simulated sdk ops) :
    SameRecords (MemoryNodeStore.empty.run ops) (RedisStore.empty.run sdk ops) := by
  have same (nodeId : String) : (MemoryNodeStore.empty.run ops).get nodeId =
      (RedisStore.empty.run sdk ops).get nodeId := (held nodeId).get_eq
  refine ⟨same, fun record => ?_⟩
  rw [RedisStore.mem_list (fun nodeId => (held nodeId).indexed)]
  simp only [← same]
  exact OrderedMap.mem_values _ record

-- A call that does not suit is an upsert, and the two stores answer differently for its node.
theorem agreeable_of_same {ops : List StoreOp} {op : StoreOp} (held : Simulated sdk ops)
    (same : SameRecords (MemoryNodeStore.empty.run (ops ++ [op]))
      (RedisStore.empty.run sdk (ops ++ [op]))) : op.agreeable sdk ops = true := by
  cases op with
  | upsert record =>
    have answers := same.get record.registration.nodeId
    have memory : MemoryNodeStore.empty.run (ops ++ [.upsert record]) =
        (MemoryNodeStore.empty.run ops).upsert record := List.foldl_concat _ _ _ _
    have redis : RedisStore.empty.run sdk (ops ++ [.upsert record]) =
        (RedisStore.empty.run sdk ops).operate sdk (.upsert record) := List.foldl_concat _ _ _ _
    have before := held record.registration.nodeId
    rw [memory, MemoryNodeStore.get_upsert, if_pos rfl, redis, RedisStore.get,
      RedisStore.node_operate, StoreOp.nodeId, if_pos rfl] at answers
    generalize (RedisStore.empty.run sdk ops).node record.registration.nodeId = keys
      at before answers
    -- What Redis answers has been through the schema, and counts what the key counts.
    obtain ⟨blob, parsed, read⟩ := Option.map_eq_some_iff.mp answers.symm
    have parsed : (StoreOp.onKeys keys (.upsert record)).record.bind (parseNodeRecord sdk) =
        some blob := parsed
    obtain ⟨written, -, parses⟩ := Option.bind_eq_some_iff.mp parsed
    have network : normalizeNetwork sdk record.registration.network =
        some record.registration.network := by
      have registered := congrArg (·.registration) read
      rw [(mergeRecord_registration _ record _).1] at registered
      have named : blob.registration = record.registration := registered
      rw [← named]
      exact parsed_network sdk parses
    simp only [StoreOp.agreeable, StoreOp.suits, Bool.and_eq_true, decide_eq_true_eq,
      StoreOp.nodeId, network, true_and, Bool.or_eq_true]
    cases known : (MemoryNodeStore.empty.run ops).get record.registration.nodeId with
    | some existing => exact .inl rfl
    | none =>
      rw [known] at read
      have counted : record.health.inFlight = RedisNode.parseCount keys.inFlight :=
        (congrArg (·.health.inFlight) read).symm
      rw [before.counter] at counted
      exact .inr (decide_eq_true counted)
  | recordOutcome nodeId o => rfl
  | beginRequest nodeId => rfl
  | endRequest nodeId => rfl
  | remove nodeId => rfl

theorem simulated_of_agreeable (ops : List StoreOp) (valid : ∀ op ∈ ops, op.valid sdk = true)
    (agreeable : ∀ made op, made ++ [op] <+: ops → op.agreeable sdk made = true) :
    Simulated sdk ops := by
  induction ops using List.reverseRecOn with
  | nil => exact simulated_nil sdk
  | append_singleton ops op ih =>
    have before := ih (fun other member => valid other (List.mem_append_left [op] member))
      (fun made other early => agreeable made other (early.trans (List.prefix_append ops [op])))
    exact simulated_concat sdk before (valid op (by simp)) (agreeable ops op (List.prefix_refl _))

theorem agreeable_of_agreement (ops : List StoreOp) (valid : ∀ op ∈ ops, op.valid sdk = true)
    (same : ∀ made, made <+: ops →
      SameRecords (MemoryNodeStore.empty.run made) (RedisStore.empty.run sdk made)) :
    ∀ made op, made ++ [op] <+: ops → op.agreeable sdk made = true := by
  induction ops using List.reverseRecOn with
  | nil =>
    intro made op early
    simp at early
  | append_singleton ops last ih =>
    have kept := fun other member => valid other (List.mem_append_left [last] member)
    have before := ih kept fun made early => same made (early.trans (List.prefix_append ops [last]))
    intro made op early
    rcases List.prefix_concat_iff.mp early with whole | earlier
    · obtain ⟨rfl, rfl⟩ := List.append_inj' whole rfl |>.imp_right List.singleton_inj.mp
      exact agreeable_of_same sdk (simulated_of_agreeable sdk made kept before)
        (same _ (List.prefix_refl _))
    · exact before made op earlier

/-- The stores answer alike after every call of a sequence just when each of its calls suits. -/
theorem stores_agree_iff (ops : List StoreOp) (valid : ∀ op ∈ ops, op.valid sdk = true) :
    (∀ made, made <+: ops →
        SameRecords (MemoryNodeStore.empty.run made) (RedisStore.empty.run sdk made)) ↔
      ∀ made op, made ++ [op] <+: ops → op.agreeable sdk made = true := by
  constructor
  · exact agreeable_of_agreement sdk ops valid
  · intro agreeable made early
    exact (simulated_of_agreeable sdk made (fun op member => valid op (early.subset member))
      (fun first op earlier => agreeable first op (earlier.trans early))).sameRecords

def begunBetween : List StoreOp := [.upsert demoNode, .beginRequest "node-a", .upsert demoNode]

theorem stores_agree_iff_heartbeat :
    SameRecords (MemoryNodeStore.empty.run begunBetween) (RedisStore.empty.run demoSdk begunBetween) := by
  refine (stores_agree_iff demoSdk begunBetween (by decide)).mpr ?_ begunBetween (List.prefix_refl _)
  rintro (_ | ⟨a, _ | ⟨b, _ | ⟨c, rest⟩⟩⟩) op early
  · obtain rfl : op = .upsert demoNode := by simpa [begunBetween] using early
    decide
  · obtain ⟨rfl, rfl⟩ : a = .upsert demoNode ∧ op = .beginRequest "node-a" := by
      simpa [begunBetween] using early
    rfl
  · obtain ⟨rfl, rfl, rfl⟩ : a = .upsert demoNode ∧ b = .beginRequest "node-a" ∧
        op = .upsert demoNode := by simpa [begunBetween] using early
    decide
  · simp [begunBetween] at early

def begunFirst : List StoreOp := [.beginRequest "node-a", .upsert demoNode]

def reportedBusy : List StoreOp :=
  [.upsert { demoNode with health := { demoNode.health with inFlight := 3 } }]

def spelledInFull : List StoreOp :=
  [.upsert { demoNode with registration := { demoRegistered with network := testnetGenesis } }]

-- Calls that a node may make, after which the stores answer differently.
def Differ (ops : List StoreOp) : Prop :=
  (∀ op ∈ ops, op.valid demoSdk = true) ∧
    (MemoryNodeStore.empty.run ops).get "node-a" ≠ (RedisStore.empty.run demoSdk ops).get "node-a"

instance (ops : List StoreOp) : Decidable (Differ ops) := instDecidableAnd

theorem stores_differ : Differ begunFirst ∧ Differ reportedBusy ∧ Differ spelledInFull := by
  decide +kernel

end X402Mesh.Registry
