import Mathlib.Data.List.Perm.Basic
import X402Mesh.Gateway.Mesh
import X402Mesh.Lib.Pool

set_option autoImplicit false

namespace X402Mesh.Gateway

open Registry

variable (config : MeshConfig)

def CallPhase.counted : CallPhase → Bool
  | .chosen => false
  | .running | .recorded _ => true

-- The outcome of the call is still to come.
def CallPhase.open : CallPhase → Bool
  | .chosen | .running => true
  | .recorded _ => false

def countedAt (nodeId : String) (r : Routed) : Bool :=
  decide (r.nodeId = nodeId) && r.phase.counted

def Mesh.inFlight (m : Mesh) (nodeId : String) : Nat := m.routed.countP (countedAt nodeId)

structure RecordSound (window : List RequestOutcome) (inFlight : Nat) (nodeId : String)
    (record : NodeRecord) : Prop where
  keyed : record.registration.nodeId = nodeId
  verdict : record.health.healthy =
    decide (failureStreak window < unhealthyConsecutiveFailures)
  streak : record.health.consecutiveFailures = failureStreak window
  capacity : record.health.maxConcurrency = config.maxConcurrentPerNode
  counted : record.health.inFlight = inFlight

structure NodeSound (store : MemoryNodeStore) (nodeId : String) (inFlight : Nat) : Prop where
  absent : store.get nodeId = none → store.window nodeId = [] ∧ inFlight = 0
  present : ∀ record, store.get nodeId = some record →
    RecordSound config (store.window nodeId) inFlight nodeId record

structure Mesh.Consistent (m : Mesh) : Prop where
  nodes : ∀ nodeId, NodeSound config m.store nodeId (m.inFlight nodeId)
  known : ∀ r ∈ m.routed, (m.store.get r.nodeId).isSome = true

section store

variable {config} {store : MemoryNodeStore} {nodeId : String} {inFlight : Nat}

variable (config) in
structure Reported (incoming : NodeRecord) : Prop where
  healthy : incoming.health.healthy = true
  reset : incoming.health.consecutiveFailures = 0
  capacity : incoming.health.maxConcurrency = config.maxConcurrentPerNode

theorem NodeSound.upsert (sound : NodeSound config store nodeId inFlight) (incoming : NodeRecord)
    (reported : Reported config incoming)
    (idle : store.get incoming.registration.nodeId = none → incoming.health.inFlight = 0) :
    NodeSound config (store.upsert incoming) nodeId inFlight := by
  by_cases same : nodeId = incoming.registration.nodeId
  · subst same
    refine ⟨fun missing => by simp [MemoryNodeStore.get_upsert] at missing, fun record found => ?_⟩
    rw [MemoryNodeStore.get_upsert, if_pos rfl] at found
    rw [MemoryNodeStore.window_upsert]
    cases existing : store.get incoming.registration.nodeId with
    | none =>
      obtain ⟨window, count⟩ := sound.absent existing
      obtain rfl : incoming = record := by simpa [existing, mergeRecord] using found
      exact ⟨rfl, by simp [window, reported.healthy, failureStreak, unhealthyConsecutiveFailures],
        by simp [window, reported.reset, failureStreak], reported.capacity,
        by rw [idle existing, count]⟩
    | some old =>
      rw [existing] at found
      obtain rfl := Option.some.inj found
      obtain ⟨verdict, streak⟩ := mergeRecord_verdict old incoming
        (store.window incoming.registration.nodeId) reported.healthy reported.reset
      obtain ⟨count, capacity⟩ := mergeRecord_owner old incoming
        (store.window incoming.registration.nodeId)
      exact ⟨by rw [(mergeRecord_registration _ _ _).1], verdict, streak,
        by rw [capacity, reported.capacity], by rw [count, (sound.present old existing).counted]⟩
  · refine ⟨fun missing => ?_, fun record found => ?_⟩
    · rw [MemoryNodeStore.get_upsert, if_neg same] at missing
      simpa using sound.absent missing
    · rw [MemoryNodeStore.get_upsert, if_neg same] at found
      simpa using sound.present record found

theorem NodeSound.recordOutcome (sound : NodeSound config store nodeId inFlight) (other : String)
    (o : ReportedOutcome) : NodeSound config (store.recordOutcome other o) nodeId inFlight := by
  by_cases same : nodeId = other
  · subst same
    cases existing : store.get nodeId with
    | none =>
      refine ⟨fun _ => ?_, fun record found => ?_⟩
      · simpa [MemoryNodeStore.window_recordOutcome, existing] using sound.absent existing
      · simp [MemoryNodeStore.get_recordOutcome, existing] at found
    | some old =>
      have held := sound.present old existing
      refine ⟨fun missing => ?_, fun record found => ?_⟩
      · simp [MemoryNodeStore.get_recordOutcome, existing] at missing
      · rw [MemoryNodeStore.get_recordOutcome, if_pos rfl, existing] at found
        obtain rfl := Option.some.inj found
        rw [MemoryNodeStore.window_recordOutcome, if_pos ⟨rfl, by simp [existing]⟩]
        obtain ⟨verdict, streak⟩ := deriveHealth_window old.health _
          (MemoryNodeStore.bounded_ne_nil (store.window nodeId) (normalizeOutcome o))
        obtain ⟨count, capacity⟩ := deriveHealth_owner old.health
          (MemoryNodeStore.bounded (store.window nodeId ++ [normalizeOutcome o]))
        exact ⟨held.keyed, verdict, streak, capacity.trans held.capacity,
          count.trans held.counted⟩
  · refine ⟨fun missing => ?_, fun record found => ?_⟩
    · rw [MemoryNodeStore.get_recordOutcome, if_neg same] at missing
      simpa [MemoryNodeStore.window_recordOutcome, same] using sound.absent missing
    · rw [MemoryNodeStore.get_recordOutcome, if_neg same] at found
      simpa [MemoryNodeStore.window_recordOutcome, same] using sound.present record found

theorem NodeSound.setInFlight (sound : NodeSound config store nodeId inFlight) (other : String)
    (revise : Nat → Nat) (known : (store.get other).isSome = true) :
    NodeSound config (store.setInFlight other revise) nodeId
      (if nodeId = other then revise inFlight else inFlight) := by
  by_cases same : nodeId = other
  · subst same
    obtain ⟨old, existing⟩ := Option.isSome_iff_exists.mp known
    have held := sound.present old existing
    refine ⟨fun missing => ?_, fun record found => ?_⟩
    · simp [MemoryNodeStore.get_setInFlight, existing] at missing
    · rw [MemoryNodeStore.get_setInFlight, if_pos rfl, existing] at found
      obtain rfl := Option.some.inj found
      rw [MemoryNodeStore.window_setInFlight, if_pos rfl]
      exact ⟨held.keyed, held.verdict, held.streak, held.capacity, by rw [← held.counted]⟩
  · rw [if_neg same]
    refine ⟨fun missing => ?_, fun record found => ?_⟩
    · rw [MemoryNodeStore.get_setInFlight, if_neg same] at missing
      simpa using sound.absent missing
    · rw [MemoryNodeStore.get_setInFlight, if_neg same] at found
      simpa using sound.present record found

end store

theorem upsert_known (store : MemoryNodeStore) (incoming : NodeRecord) (nodeId : String)
    (known : (store.get nodeId).isSome = true) :
    ((store.upsert incoming).get nodeId).isSome = true := by
  rw [MemoryNodeStore.get_upsert]
  split
  · rfl
  · exact known

theorem recordOutcome_known (store : MemoryNodeStore) (other : String) (o : ReportedOutcome)
    (nodeId : String) (known : (store.get nodeId).isSome = true) :
    ((store.recordOutcome other o).get nodeId).isSome = true := by
  rw [MemoryNodeStore.get_recordOutcome]
  split
  · subst nodeId
    simpa using known
  · exact known

theorem setInFlight_known (store : MemoryNodeStore) (other : String) (revise : Nat → Nat)
    (nodeId : String) (known : (store.get nodeId).isSome = true) :
    ((store.setInFlight other revise).get nodeId).isSome = true := by
  rw [MemoryNodeStore.get_setInFlight]
  split
  · subst nodeId
    simpa using known
  · exact known

section inversion

variable {config} {m m' : Mesh}

theorem handleRegister_ok {store store' : MemoryNodeStore} {registration : NodeRegistration}
    {usdcOptedIn : Bool} {seenAt : Int}
    (registered : handleRegister config store registration usdcOptedIn seenAt = .ok store') :
    store' = store.upsert (buildRecord config registration (store.get registration.nodeId)
      usdcOptedIn seenAt) := by
  unfold handleRegister at registered
  dsimp only at registered
  split_ifs at registered
  exact (Except.ok.inj registered).symm

theorem register_inv {registration : NodeRegistration} {usdcOptedIn : Bool} {seenAt : Int}
    (taken : m.step config (.register registration usdcOptedIn seenAt) = some m') :
    m' = { m with store := m.store.upsert (buildRecord config registration
      (m.store.get registration.nodeId) usdcOptedIn seenAt) } := by
  obtain ⟨store, registered, rfl⟩ := Option.map_eq_some_iff.mp taken
  cases answer : handleRegister config m.store registration usdcOptedIn seenAt with
  | error e => simp [answer, Except.toOption] at registered
  | ok stored =>
    obtain rfl : stored = store := by simpa [answer, Except.toOption] using registered
    rw [handleRegister_ok answer]

theorem heartbeat_inv {nodeId : String} {seenAt : Int}
    (taken : m.step config (.heartbeat nodeId seenAt) = some m') :
    ∃ existing, m.store.get nodeId = some existing ∧
      m' = { m with store := m.store.upsert (seen existing seenAt) } := by
  obtain ⟨store, beaten, rfl⟩ := Option.map_eq_some_iff.mp taken
  simp only [heartbeat, Option.bind_eq_bind, Option.bind_eq_some_iff, Option.pure_def,
    Option.some.injEq] at beaten
  obtain ⟨existing, found, rfl⟩ := beaten
  exact ⟨existing, found, rfl⟩

theorem chooses_inv {now : Int} {model : String} {excluded : List String} {nodeId : String}
    (chosen : m.chooses config now model excluded nodeId = true) :
    ∃ record ∈ m.store.list, record.registration.nodeId = nodeId ∧
      record.health.healthy = true := by
  unfold Mesh.chooses at chosen
  split at chosen
  · rename_i found answered
    obtain ⟨record, member, id⟩ := List.any_eq_true.mp chosen
    obtain ⟨listed, passes⟩ :=
      (NodeSelector.mem_candidates config.selector answered record).mp member
    exact ⟨record, listed, by simpa using id,
      (NodeSelector.eligible_healthy config.selector passes).1⟩
  · cases chosen

theorem route_inv {model nodeId : String} {now : Int}
    (taken : m.step config (.route model nodeId now) = some m') :
    m.chooses config now model [] nodeId = true ∧
      m' = { m with routed := m.routed ++ [⟨model, [nodeId], nodeId, .chosen⟩] } := by
  simp only [Mesh.step, Option.ite_none_right_eq_some, Option.some.injEq] at taken
  exact ⟨taken.1, taken.2.symm⟩

theorem beginRequest_inv {index : Nat}
    (taken : m.step config (.beginRequest index) = some m') :
    ∃ r, m.routed[index]? = some r ∧ r.phase = .chosen ∧
      m' = ⟨m.store.beginRequest r.nodeId, m.routed.set index { r with phase := .running }⟩ := by
  simp only [Mesh.step, Mesh.beginRequest, Option.bind_eq_bind, Option.bind_eq_some_iff,
    Option.ite_none_right_eq_some, Option.some.injEq] at taken
  obtain ⟨r, found, chosen, rfl⟩ := taken
  exact ⟨r, found, chosen, rfl⟩

theorem respond_inv {index : Nat} {success : Bool} {latencyMs now : Int}
    (taken : m.step config (.respond index success latencyMs now) = some m') :
    ∃ r, m.routed[index]? = some r ∧ r.phase = .running ∧
      m' = ⟨m.store.recordOutcome r.nodeId ⟨success, some latencyMs, some now⟩,
        m.routed.set index { r with phase := .recorded success }⟩ := by
  simp only [Mesh.step, Mesh.respond, Option.bind_eq_bind, Option.bind_eq_some_iff,
    Option.ite_none_right_eq_some, Option.some.injEq] at taken
  obtain ⟨r, found, running, rfl⟩ := taken
  exact ⟨r, found, running, rfl⟩

-- Either the request is over, or its next attempt has chosen a healthy node.
theorem finish_inv {index : Nat} {fatal : Bool} {next : Option String} {now : Int}
    (taken : m.step config (.finish index fatal next now) = some m') :
    ∃ r success, m.routed[index]? = some r ∧ r.phase = .recorded success ∧
      m'.store = m.store.endRequest r.nodeId ∧
      (m'.routed = m.routed.eraseIdx index ∨
        ∃ nodeId, m'.routed = m.routed.set index ⟨r.model, nodeId :: r.tried, nodeId, .chosen⟩ ∧
          ∃ record ∈ (m.store.endRequest r.nodeId).list,
            record.registration.nodeId = nodeId ∧ record.health.healthy = true) := by
  simp only [Mesh.step, Mesh.finish, Option.bind_eq_bind, Option.bind_eq_some_iff] at taken
  obtain ⟨r, found, rest⟩ := taken
  cases phase : r.phase with
  | recorded success =>
    rw [phase] at rest
    cases next with
    | none =>
      simp only [Option.ite_none_right_eq_some, Option.some.injEq] at rest
      obtain ⟨-, rfl⟩ := rest
      exact ⟨r, success, found, phase, rfl, .inl rfl⟩
    | some nodeId =>
      simp only [Option.ite_none_right_eq_some, Option.some.injEq, Bool.and_eq_true] at rest
      obtain ⟨⟨-, chosen⟩, rfl⟩ := rest
      exact ⟨r, success, found, phase, rfl, .inr ⟨nodeId, rfl, chooses_inv chosen⟩⟩
  | _ => simp [phase] at rest

end inversion

theorem mem_set_found {routed : List Routed} {index : Nat} {next other : Routed}
    (member : other ∈ routed.set index next) :
    other = next ∨ other ∈ routed := (List.mem_or_eq_of_mem_set member).symm

section consistent

variable {config} {m m' : Mesh}

theorem Mesh.Consistent.listed (consistent : m.Consistent config) {record : NodeRecord}
    (member : record ∈ m.store.list) : m.store.get record.registration.nodeId = some record := by
  obtain ⟨nodeId, found⟩ := (OrderedMap.mem_values _ _).mp member
  rw [((consistent.nodes nodeId).present record found).keyed]
  exact found

theorem consistent_empty : Mesh.empty.Consistent config where
  nodes := fun nodeId => ⟨fun _ => ⟨rfl, rfl⟩, fun record found => by cases found⟩
  known := fun r member => by cases member

theorem Mesh.Consistent.upsert (consistent : m.Consistent config) (incoming : NodeRecord)
    (reported : Reported config incoming)
    (idle : m.store.get incoming.registration.nodeId = none → incoming.health.inFlight = 0) :
    ({ m with store := m.store.upsert incoming } : Mesh).Consistent config where
  nodes := fun nodeId => (consistent.nodes nodeId).upsert incoming reported idle
  known := fun r member => upsert_known _ _ _ (consistent.known r member)

theorem Mesh.Consistent.capacity (consistent : m.Consistent config) {nodeId : String}
    {record : NodeRecord} (found : m.store.get nodeId = some record) :
    record.health.maxConcurrency = config.maxConcurrentPerNode :=
  ((consistent.nodes nodeId).present record found).capacity

theorem consistent_step (consistent : m.Consistent config) (a : MeshAction)
    (taken : m.step config a = some m') : m'.Consistent config := by
  cases a with
  | register registration usdcOptedIn seenAt =>
    rw [register_inv taken]
    refine consistent.upsert _ ⟨rfl, rfl, ?_⟩ fun missing => ?_
    · cases found : m.store.get registration.nodeId with
      | none => rfl
      | some existing =>
        have capacity := consistent.capacity found
        exact capacity
    · have absent : m.store.get registration.nodeId = none := missing
      simp [buildRecord, absent]
  | heartbeat nodeId seenAt =>
    obtain ⟨existing, found, rfl⟩ := heartbeat_inv taken
    have keyed := ((consistent.nodes nodeId).present existing found).keyed
    have capacity := consistent.capacity found
    refine consistent.upsert _ ⟨rfl, rfl, capacity⟩ fun missing => ?_
    rw [show (seen existing seenAt).registration.nodeId = nodeId from keyed, found] at missing
    cases missing
  | route model nodeId now =>
    obtain ⟨chosen, rfl⟩ := route_inv taken
    obtain ⟨record, listed, id, -⟩ := chooses_inv chosen
    refine ⟨fun other => ?_, fun r member => ?_⟩
    · have same : (⟨m.store, m.routed ++ [⟨model, [nodeId], nodeId, .chosen⟩]⟩ : Mesh).inFlight other =
          m.inFlight other := by
        simp [Mesh.inFlight, countedAt, CallPhase.counted]
      rw [same]
      exact consistent.nodes other
    · rcases List.mem_append.mp member with old | new
      · exact consistent.known r old
      · obtain rfl := List.mem_singleton.mp new
        have present := consistent.listed listed
        rw [id] at present
        simp [present]
  | beginRequest index =>
    obtain ⟨r, found, chosen, rfl⟩ := beginRequest_inv taken
    have known := consistent.known r (List.mem_of_getElem? found)
    refine ⟨fun nodeId => ?_, fun other member => ?_⟩
    · have count : (⟨m.store.beginRequest r.nodeId,
          m.routed.set index { r with phase := .running }⟩ : Mesh).inFlight nodeId =
          if nodeId = r.nodeId then m.inFlight nodeId + 1 else m.inFlight nodeId := by
        have before := List.countP_found (countedAt nodeId) found
        have after := List.countP_set_found (countedAt nodeId) found { r with phase := .running }
        unfold Mesh.inFlight
        rw [after, before]
        by_cases same : nodeId = r.nodeId
        · simp [countedAt, same, chosen, CallPhase.counted, Nat.add_comm]
        · simp [countedAt, same, Ne.symm same]
      rw [count]
      exact (consistent.nodes nodeId).setInFlight r.nodeId (· + 1) known
    · rcases mem_set_found member with rfl | old
      · exact setInFlight_known _ _ _ _ known
      · exact setInFlight_known _ _ _ _ (consistent.known other old)
  | respond index success latencyMs now =>
    obtain ⟨r, found, running, rfl⟩ := respond_inv taken
    refine ⟨fun nodeId => ?_, fun other member => ?_⟩
    · have count : (⟨m.store.recordOutcome r.nodeId ⟨success, some latencyMs, some now⟩,
          m.routed.set index { r with phase := .recorded success }⟩ : Mesh).inFlight nodeId =
          m.inFlight nodeId := by
        have before := List.countP_found (countedAt nodeId) found
        have after := List.countP_set_found (countedAt nodeId) found { r with phase := .recorded success }
        unfold Mesh.inFlight
        rw [after, before]
        simp [countedAt, running, CallPhase.counted]
      rw [count]
      exact (consistent.nodes nodeId).recordOutcome r.nodeId _
    · rcases mem_set_found member with rfl | old
      · exact recordOutcome_known _ _ _ _ (consistent.known r (List.mem_of_getElem? found))
      · exact recordOutcome_known _ _ _ _ (consistent.known other old)
  | finish index fatal next now =>
    obtain ⟨r, success, found, recorded, store, rest⟩ := finish_inv taken
    have known := consistent.known r (List.mem_of_getElem? found)
    have remaining (nodeId : String) : m'.inFlight nodeId =
        (m.routed.eraseIdx index).countP (countedAt nodeId) := by
      rcases rest with erased | ⟨chosen, replaced, -⟩
      · rw [Mesh.inFlight, erased]
      · have after := List.countP_set_found (countedAt nodeId) found
          ⟨r.model, chosen :: r.tried, chosen, .chosen⟩
        rw [← replaced] at after
        simpa [Mesh.inFlight, countedAt, CallPhase.counted] using after
    refine ⟨fun nodeId => ?_, fun other member => ?_⟩
    · have count : m'.inFlight nodeId =
          if nodeId = r.nodeId then m.inFlight nodeId - 1 else m.inFlight nodeId := by
        have before := List.countP_found (countedAt nodeId) found
        rw [remaining]
        by_cases same : nodeId = r.nodeId
        · rw [if_pos same]
          have one : countedAt nodeId r = true := by
            simp [countedAt, same, recorded, CallPhase.counted]
          rw [one] at before
          exact (Nat.sub_eq_of_eq_add (by rw [Nat.add_comm]; exact before)).symm
        · rw [if_neg same]
          have zero : countedAt nodeId r = false := by simp [countedAt, Ne.symm same]
          rw [zero] at before
          simpa [Mesh.inFlight] using before.symm
      rw [count, store]
      exact (consistent.nodes nodeId).setInFlight r.nodeId (· - 1) known
    · rw [store]
      have old (here : other ∈ m.routed) :
          ((m.store.endRequest r.nodeId).get other.nodeId).isSome = true :=
        setInFlight_known _ _ _ _ (consistent.known other here)
      rcases rest with erased | ⟨chosen, replaced, record, listed, id, -⟩
      · rw [erased] at member
        exact old (List.mem_of_mem_eraseIdx member)
      · rw [replaced] at member
        rcases mem_set_found member with rfl | here
        · obtain ⟨key, present⟩ := (OrderedMap.mem_values _ _).mp listed
          have keyed := ((consistent.nodes key).setInFlight r.nodeId (· - 1) known).present record
            present
          rw [← id, keyed.keyed]
          exact Option.isSome_iff_exists.mpr ⟨record, present⟩
        · exact old here

theorem consistent_of_reaches (reached : Mesh.Reaches config .empty m) : m.Consistent config :=
  reached.invariant consistent_empty fun _ a _ held _ taken => consistent_step held a taken

structure Mesh.Trapped (m : Mesh) (nodeId : String) : Prop where
  streak : unhealthyConsecutiveFailures ≤ failureStreak (m.store.window nodeId)
  idle : ∀ r ∈ m.routed, r.nodeId = nodeId → r.phase.open = false

theorem Mesh.Consistent.healthy_streak (consistent : m.Consistent config) {nodeId : String}
    {record : NodeRecord} (found : m.store.get nodeId = some record)
    (healthy : record.health.healthy = true) :
    failureStreak (m.store.window nodeId) < unhealthyConsecutiveFailures := by
  have verdict := ((consistent.nodes nodeId).present record found).verdict
  exact of_decide_eq_true (verdict.symm.trans healthy)

-- A node that is trapped is never chosen, so no outcome reaches its window.
theorem trapped_step {nodeId : String} (consistent : m.Consistent config)
    (trapped : m.Trapped nodeId) (a : MeshAction) (taken : m.step config a = some m') :
    m'.Trapped nodeId := by
  have elsewhere {store : MemoryNodeStore}
      (sound : ∀ id record, store.get id = some record → record.registration.nodeId = id ∧
        (record.health.healthy = true →
          failureStreak (m.store.window id) < unhealthyConsecutiveFailures))
      {record : NodeRecord} (listed : record ∈ store.list)
      (healthy : record.health.healthy = true) : record.registration.nodeId ≠ nodeId := by
    rintro rfl
    obtain ⟨key, found⟩ := (OrderedMap.mem_values _ _).mp listed
    obtain ⟨keyed, short⟩ := sound key record found
    have streak := trapped.streak
    rw [keyed] at streak
    exact absurd (short healthy) (not_lt.mpr streak)
  cases a with
  | register registration usdcOptedIn seenAt =>
    rw [register_inv taken]
    exact ⟨by simpa using trapped.streak, trapped.idle⟩
  | heartbeat other seenAt =>
    obtain ⟨existing, -, rfl⟩ := heartbeat_inv taken
    exact ⟨by simpa using trapped.streak, trapped.idle⟩
  | route model chosen now =>
    obtain ⟨picked, rfl⟩ := route_inv taken
    obtain ⟨record, listed, id, healthy⟩ := chooses_inv picked
    refine ⟨trapped.streak, fun r member own => ?_⟩
    rcases List.mem_append.mp member with old | new
    · exact trapped.idle r old own
    · obtain rfl := List.mem_singleton.mp new
      refine absurd (id.trans own) (elsewhere (fun key record found =>
        ⟨((consistent.nodes key).present record found).keyed, consistent.healthy_streak found⟩)
        listed healthy)
  | beginRequest index =>
    obtain ⟨r, found, chosen, rfl⟩ := beginRequest_inv taken
    refine ⟨by simpa [MemoryNodeStore.beginRequest] using trapped.streak, fun other member own => ?_⟩
    rcases mem_set_found member with rfl | old
    · have closed := trapped.idle r (List.mem_of_getElem? found) own
      simp [chosen, CallPhase.open] at closed
    · exact trapped.idle other old own
  | respond index success latencyMs now =>
    obtain ⟨r, found, running, rfl⟩ := respond_inv taken
    have other : nodeId ≠ r.nodeId := by
      rintro rfl
      have closed := trapped.idle r (List.mem_of_getElem? found) rfl
      simp [running, CallPhase.open] at closed
    refine ⟨by simpa [MemoryNodeStore.window_recordOutcome, other] using trapped.streak,
      fun next member own => ?_⟩
    rcases mem_set_found member with rfl | old
    · rfl
    · exact trapped.idle next old own
  | finish index fatal next now =>
    obtain ⟨r, success, found, -, store, rest⟩ := finish_inv taken
    refine ⟨by rw [store]; simpa [MemoryNodeStore.endRequest] using trapped.streak,
      fun other member own => ?_⟩
    rcases rest with erased | ⟨chosen, replaced, record, listed, id, healthy⟩
    · rw [erased] at member
      exact trapped.idle other (List.mem_of_mem_eraseIdx member) own
    · rw [replaced] at member
      rcases mem_set_found member with rfl | old
      · have ended (key : String) := (consistent.nodes key).setInFlight r.nodeId (· - 1)
          (consistent.known r (List.mem_of_getElem? found))
        refine absurd (id.trans own) (elsewhere (fun key record present => ?_) listed healthy)
        have held := (ended key).present record present
        refine ⟨held.keyed, fun well => ?_⟩
        have short := of_decide_eq_true (held.verdict.symm.trans well)
        rwa [MemoryNodeStore.window_setInFlight] at short
      · exact trapped.idle other old own

theorem trapped_never_selectable {nodeId : String} (consistent : m.Consistent config)
    (trapped : m.Trapped nodeId) (reached : Mesh.Reaches config m m') :
    ¬ m'.Selectable config nodeId := by
  obtain ⟨kept, held⟩ := reached.invariant (P := fun m => m.Consistent config ∧ m.Trapped nodeId)
    ⟨consistent, trapped⟩ fun m a m' both _ taken =>
      ⟨consistent_step both.1 a taken, trapped_step both.1 both.2 a taken⟩
  rintro ⟨record, model, now, found, passes⟩
  have healthy := (NodeSelector.eligible_healthy config.selector passes).1
  exact absurd (kept.healthy_streak found healthy) (not_lt.mpr held.streak)

variable (config)

structure Ends (m m' : Mesh) : Prop where
  reaches : Mesh.Reaches config m m'
  known : ∀ nodeId, (m.store.get nodeId).isSome = true → (m'.store.get nodeId).isSome = true
  windows : ∀ nodeId, m'.store.window nodeId = m.store.window nodeId ∨
    failureStreak (m'.store.window nodeId) = 0

theorem Ends.trans {a b c : Mesh} (left : Ends config a b)
    (right : Ends config b c) : Ends config a c where
  reaches := left.reaches.trans right.reaches
  known := fun nodeId held => right.known nodeId (left.known nodeId held)
  windows := by
    intro nodeId
    rcases right.windows nodeId with same | ended
    · rw [same]
      exact left.windows nodeId
    · exact .inr ended

theorem ends_finish (store : MemoryNodeStore) (r : Routed) (rest : List Routed) (success : Bool)
    (recorded : r.phase = .recorded success) :
    Ends config ⟨store, r :: rest⟩ ⟨store.endRequest r.nodeId, rest⟩ where
  reaches := by
    apply Transition.Run.single (a := .finish 0 true none 0) trivial
    simp [Mesh.step, Mesh.finish, recorded]
  known := fun nodeId held => setInFlight_known _ _ _ _ held
  windows := fun nodeId => .inl (by simp [MemoryNodeStore.endRequest])

theorem ends_respond (store : MemoryNodeStore) (r : Routed) (rest : List Routed)
    (running : r.phase = .running) (known : (store.get r.nodeId).isSome = true) :
    ∃ m', Ends config ⟨store, r :: rest⟩ m' ∧ m'.routed = rest ∧
      failureStreak (m'.store.window r.nodeId) = 0 := by
  have answered : Ends config ⟨store, r :: rest⟩
      ⟨store.recordOutcome r.nodeId ⟨true, some 0, some 0⟩,
        { r with phase := .recorded true } :: rest⟩ := by
    refine ⟨?_, fun nodeId held => recordOutcome_known _ _ _ _ held, fun nodeId => ?_⟩
    · apply Transition.Run.single (a := .respond 0 true 0 0) trivial
      simp [Mesh.step, Mesh.respond, running]
    · rw [MemoryNodeStore.window_recordOutcome]
      split
      · exact .inr (failureStreak_bounded _ _ rfl)
      · exact .inl rfl
  refine ⟨_, answered.trans config (ends_finish config _ _ rest true rfl), rfl, ?_⟩
  simp only [MemoryNodeStore.endRequest, MemoryNodeStore.window_setInFlight,
    MemoryNodeStore.window_recordOutcome, known, and_self, if_true]
  exact failureStreak_bounded _ _ rfl

theorem ends_begin (store : MemoryNodeStore) (r : Routed) (rest : List Routed)
    (chosen : r.phase = .chosen) :
    Ends config ⟨store, r :: rest⟩
      ⟨store.beginRequest r.nodeId, { r with phase := .running } :: rest⟩ where
  reaches := by
    apply Transition.Run.single (a := .beginRequest 0) trivial
    simp [Mesh.step, Mesh.beginRequest, chosen]
  known := fun nodeId held => setInFlight_known _ _ _ _ held
  windows := fun nodeId => .inl (by simp [MemoryNodeStore.beginRequest])

-- One call is brought to its end; had its outcome been open, it is now a success.
theorem ends_first (store : MemoryNodeStore) (r : Routed) (rest : List Routed)
    (known : (store.get r.nodeId).isSome = true) :
    ∃ m', Ends config ⟨store, r :: rest⟩ m' ∧ m'.routed = rest ∧
      (r.phase.open = true → failureStreak (m'.store.window r.nodeId) = 0) := by
  cases phase : r.phase with
  | chosen =>
    obtain ⟨m', ends, routed, good⟩ := ends_respond config
      (store.beginRequest r.nodeId) { r with phase := .running } rest rfl
      (setInFlight_known _ _ _ _ known)
    exact ⟨m', (ends_begin config store r rest phase).trans config ends, routed, fun _ => good⟩
  | running =>
    obtain ⟨m', ends, routed, good⟩ := ends_respond config store r rest phase known
    exact ⟨m', ends, routed, fun _ => good⟩
  | recorded success => exact ⟨_, ends_finish config store r rest success phase, rfl, nofun⟩

theorem ends_all (routed : List Routed) (store : MemoryNodeStore) (nodeId : String)
    (known : ∀ r ∈ routed, (store.get r.nodeId).isSome = true)
    (hope : failureStreak (store.window nodeId) = 0 ∨
      ∃ r ∈ routed, r.nodeId = nodeId ∧ r.phase.open = true) :
    ∃ m', Ends config ⟨store, routed⟩ m' ∧ m'.routed = [] ∧
      failureStreak (m'.store.window nodeId) = 0 := by
  induction routed generalizing store with
  | nil =>
    have good := hope.resolve_right (by simp)
    exact ⟨⟨store, []⟩, ⟨.refl, fun _ held => held, fun _ => .inl rfl⟩, rfl, good⟩
  | cons r rest ih =>
    obtain ⟨⟨store', routed'⟩, ends, same, good⟩ :=
      ends_first config store r rest (known r (by simp))
    obtain rfl : routed' = rest := same
    have later : failureStreak (store'.window nodeId) = 0 ∨
        ∃ r ∈ routed', r.nodeId = nodeId ∧ r.phase.open = true := by
      rcases hope with already | ⟨other, member, own, pending⟩
      · rcases ends.windows nodeId with kept | ended
        · exact .inl (by rw [kept]; exact already)
        · exact .inl ended
      · rcases List.mem_cons.mp member with rfl | tail
        · exact .inl (own ▸ good pending)
        · exact .inr ⟨other, tail, own, pending⟩
    obtain ⟨m', more, idle, ended⟩ := ih store'
      (fun other member => ends.known _ (known other (by simp [member]))) later
    exact ⟨m', ends.trans config more, idle, ended⟩

variable {config}

-- The operator registers the node again, with a model it prices and an account it has opted in.
def returning (config : MeshConfig) (record : NodeRecord) : NodeRegistration :=
  { record.registration with network := config.network, capabilities := [demoCapability] }

theorem returns (m : Mesh) (consistent : m.Consistent config) (idle : m.routed = [])
    (nodeId : String) (known : (m.store.get nodeId).isSome = true)
    (good : failureStreak (m.store.window nodeId) = 0) :
    ∃ m', Mesh.Reaches config m m' ∧ m'.Selectable config nodeId := by
  obtain ⟨record, found⟩ := Option.isSome_iff_exists.mp known
  have held := (consistent.nodes nodeId).present record found
  obtain rfl : record.registration.nodeId = nodeId := held.keyed
  let incoming := buildRecord config (returning config record) (some record) true 0
  have registered : m.step config (.register (returning config record) true 0) =
      some ⟨m.store.upsert incoming, m.routed⟩ := by
    simp [Mesh.step, handleRegister, found, returning, Except.toOption, incoming]
  refine ⟨_, .single trivial registered,
    mergeRecord (some record) incoming (m.store.window record.registration.nodeId),
    "llama3.1:8b", 0, ?_, ?_⟩
  · have same : record.registration.nodeId = incoming.registration.nodeId := rfl
    rw [MemoryNodeStore.get_upsert, if_pos same, found]
  obtain ⟨verdict, -⟩ :=
    mergeRecord_verdict record incoming (m.store.window record.registration.nodeId) rfl rfl
  obtain ⟨registration, optedIn⟩ :=
    mergeRecord_registration (some record) incoming (m.store.window record.registration.nodeId)
  obtain ⟨count, capacity⟩ :=
    mergeRecord_owner record incoming (m.store.window record.registration.nodeId)
  have seen := mergeRecord_seen (some record) incoming (m.store.window record.registration.nodeId)
  generalize mergeRecord (some record) incoming (m.store.window record.registration.nodeId) =
    after at *
  have recent : (0 : Int) ≤ after.health.lastSeenAt := seen
  have fresh : NodeSelector.stale config.selector 0 after = false := by
    simp only [NodeSelector.stale, MeshConfig.selector, decide_eq_false_iff_not]
    omega
  have network : NodeSelector.wrongNetwork config.selector after = false := by
    simp [NodeSelector.wrongNetwork, MeshConfig.selector, registration, incoming, buildRecord,
      returning]
  have healthy : after.health.healthy = true := by
    rw [verdict, good]
    rfl
  have headroom : after.health.inFlight < after.health.maxConcurrency := by
    have room : incoming.health.maxConcurrency = config.maxConcurrentPerNode := held.capacity
    have none_left : m.inFlight record.registration.nodeId = 0 := by simp [Mesh.inFlight, idle]
    rw [count, capacity, room, held.counted, none_left]
    exact config.roomy
  have price : (Money.usdcToAtomic "0.01").toOption = some 10000 := by decide
  have priced : NodeSelector.nodePriceAtomic config.selector after "llama3.1:8b" = some 10000 := by
    simp [NodeSelector.nodePriceAtomic, NodeSelector.capability, registration, incoming,
      buildRecord, returning, demoCapability, price]
  exact NodeSelector.eligible_of config.selector network fresh healthy optedIn headroom priced

theorem comes_back_iff (reached : Mesh.Reaches config .empty m) (nodeId : String)
    (benched : m.Benched nodeId) :
    (∃ m', Mesh.Reaches config m m' ∧ m'.Selectable config nodeId) ↔
      ∃ r ∈ m.routed, r.nodeId = nodeId ∧ r.phase.open = true := by
  have consistent := consistent_of_reaches reached
  obtain ⟨record, found, -, failures⟩ := benched
  have held := (consistent.nodes nodeId).present record found
  constructor
  · rintro ⟨m', later, selectable⟩
    by_contra none_open
    refine trapped_never_selectable consistent ⟨held.streak ▸ failures, ?_⟩ later selectable
    intro r member own
    by_contra pending
    exact none_open ⟨r, member, own, by simpa using pending⟩
  · intro pending
    obtain ⟨m', ends, idle, good⟩ :=
      ends_all config m.routed m.store nodeId consistent.known (.inr pending)
    have kept := consistent_of_reaches (reached.trans ends.reaches)
    obtain ⟨m'', returned, selectable⟩ := returns m' kept idle nodeId
      (ends.known nodeId (by simp [found])) good
    exact ⟨m'', ends.reaches.trans returned, selectable⟩

end consistent

def demoRoute : MeshAction := .route "llama3.1:8b" "node-a" 1000

-- Three of four calls have failed, and the fourth is still running.
theorem comes_back_while_running :
    ∃ m, Mesh.Reaches demoMesh .empty m ∧ m.Benched "node-a" ∧
      ∃ m', Mesh.Reaches demoMesh m m' ∧ m'.Selectable demoMesh "node-a" := by
  let actions : List MeshAction :=
    [.register demoRegistration true 1000, demoRoute, demoRoute, demoRoute, demoRoute,
      .beginRequest 0, .beginRequest 1, .beginRequest 2, .beginRequest 3,
      .respond 0 false 5 1001, .respond 1 false 5 1002, .respond 2 false 5 1003]
  have shown : (Transition.replay (Mesh.step demoMesh) .empty actions).map (fun m =>
      ((m.store.get "node-a").map fun r => (r.health.healthy, r.health.consecutiveFailures),
        m.routed[3]?)) =
      some (some (false, 3), some ⟨"llama3.1:8b", ["node-a"], "node-a", .running⟩) := by
    decide +kernel
  obtain ⟨m, replayed, facts⟩ := Option.map_eq_some_iff.mp shown
  simp only [Prod.mk.injEq, Option.map_eq_some_iff] at facts
  obtain ⟨⟨record, found, healthy, failures⟩, running⟩ := facts
  have reached : Mesh.Reaches demoMesh .empty m :=
    Transition.run_of_replay actions (Transition.allows_of_forall actions fun _ _ _ => trivial)
      replayed
  have benched : m.Benched "node-a" := ⟨record, found, healthy, failures.ge⟩
  exact ⟨m, reached, benched, (comes_back_iff reached "node-a" benched).mpr
    ⟨_, List.mem_of_getElem? running, rfl, rfl⟩⟩

-- A request that meets a failure and finds no other node.
def failedRequest (now : Int) : List MeshAction :=
  [.route "llama3.1:8b" "node-a" now, .beginRequest 0, .respond 0 false 5 now,
    .finish 0 false none now]

-- The three calls have failed and are over.
theorem benched_for_good :
    ∃ m, Mesh.Reaches demoMesh .empty m ∧ m.Benched "node-a" ∧ m.routed = [] ∧
      ¬ ∃ m', Mesh.Reaches demoMesh m m' ∧ m'.Selectable demoMesh "node-a" := by
  let actions : List MeshAction :=
    .register demoRegistration true 1000 ::
      (failedRequest 1001 ++ failedRequest 1002 ++ failedRequest 1003)
  have shown : (Transition.replay (Mesh.step demoMesh) .empty actions).map (fun m =>
      ((m.store.get "node-a").map fun r => (r.health.healthy, r.health.consecutiveFailures),
        m.routed)) = some (some (false, 3), []) := by
    decide +kernel
  obtain ⟨m, replayed, facts⟩ := Option.map_eq_some_iff.mp shown
  simp only [Prod.mk.injEq, Option.map_eq_some_iff] at facts
  obtain ⟨⟨record, found, healthy, failures⟩, idle⟩ := facts
  have reached : Mesh.Reaches demoMesh .empty m :=
    Transition.run_of_replay actions (Transition.allows_of_forall actions fun _ _ _ => trivial)
      replayed
  have consistent := consistent_of_reaches reached
  refine ⟨m, reached, ⟨record, found, healthy, failures.ge⟩, idle, ?_⟩
  rintro ⟨m', later, selectable⟩
  have streak := ((consistent.nodes "node-a").present record found).streak
  refine trapped_never_selectable consistent ⟨?_, by simp [idle]⟩ later selectable
  rw [← streak]
  exact failures.ge

end X402Mesh.Gateway
