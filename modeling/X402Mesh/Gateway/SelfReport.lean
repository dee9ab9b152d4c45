import X402Mesh.Gateway.Authentic
import X402Mesh.Registry.Marks
import X402Mesh.Registry.Routable
import X402Mesh.Registry.Score

set_option autoImplicit false

namespace X402Mesh.Gateway

open JsonText Registry

/-- What the selector wants of a node whatever its health, its age and its load. -/
structure Offered (options : NodeSelectorOptions) (record : NodeRecord) : Prop where
  network : NodeSelector.wrongNetwork options record = false
  optedIn : record.usdcOptedIn = true
  room : 0 < record.health.maxConcurrency
  priced : ∃ model, (NodeSelector.nodePriceAtomic options record model).isSome = true

structure SameOffer (known record : NodeRecord) : Prop where
  registration : record.registration = known.registration
  optedIn : record.usdcOptedIn = known.usdcOptedIn
  capacity : record.health.maxConcurrency = known.health.maxConcurrency

theorem SameOffer.refl (record : NodeRecord) : SameOffer record record := ⟨rfl, rfl, rfl⟩

theorem SameOffer.trans {a b c : NodeRecord} (first : SameOffer a b) (second : SameOffer b c) :
    SameOffer a c :=
  ⟨second.registration.trans first.registration, second.optedIn.trans first.optedIn,
    second.capacity.trans first.capacity⟩

theorem SameOffer.offered {options : NodeSelectorOptions} {known record : NodeRecord}
    (same : SameOffer known record) (offered : Offered options known) :
    Offered options record := by
  obtain ⟨model, priced⟩ := offered.priced
  constructor
  case network =>
    unfold NodeSelector.wrongNetwork
    rw [same.registration]
    exact offered.network
  case optedIn => rw [same.optedIn, offered.optedIn]
  case room =>
    rw [same.capacity]
    exact offered.room
  case priced =>
    refine ⟨model, ?_⟩
    unfold NodeSelector.nodePriceAtomic NodeSelector.capability
    rw [same.registration]
    exact priced

theorem SameOffer.symm {known record : NodeRecord} (same : SameOffer known record) :
    SameOffer record known :=
  ⟨same.registration.symm, same.optedIn.symm, same.capacity.symm⟩

theorem seen_offer (existing : NodeRecord) (seenAt : Int) (window : List RequestOutcome) :
    SameOffer existing (mergeRecord (some existing) (seen existing seenAt) window) := by
  obtain ⟨registration, optedIn⟩ :=
    mergeRecord_registration (some existing) (seen existing seenAt) window
  exact ⟨registration, optedIn, (mergeRecord_owner existing (seen existing seenAt) window).2⟩

theorem seen_verdict (existing : NodeRecord) (seenAt : Int) (window : List RequestOutcome) :
    (mergeRecord (some existing) (seen existing seenAt) window).health.healthy =
      decide (failureStreak window < unhealthyConsecutiveFailures) :=
  (mergeRecord_verdict existing (seen existing seenAt) window rfl rfl).1

variable (r : Routes)

namespace Routes

theorem handleRegister_kept {gate : Gate} {q : Registering} (alone : q.others = fun _ => id)
    (refused : (r.handleRegister gate q).1.isOk = false) :
    (r.handleRegister gate q).2.store = gate.store := by
  cases answered : (r.handleRegister gate q).1 with
  | ok response =>
    rw [answered] at refused
    cases refused
  | error e =>
    obtain ⟨wait, waits, left⟩ := r.handleRegister_refused answered
    rw [left, waits_alone alone waits, id, Gate.burn_store]

end Routes

namespace Traffic

-- A registration, a heartbeat that says the node is healthy, and a success.
def releases (s : Traffic) (nodeId : String) : TrafficAction → Prop
  | .register q => (r.handleRegister s.gate q).1.isOk = true ∧
    ∃ signed, r.admitRegistration q = .ok signed ∧ signed.registration.record.nodeId = nodeId
  | .heartbeat q => q.id = nodeId ∧ (r.handleHeartbeat s.gate q).1.isOk = true ∧
    ∃ signed, Routes.admitHeartbeat q = .ok signed ∧ signed.heartbeat.healthy = true
  | .recordOutcome other o => other = nodeId ∧ o.success = true
  | _ => False

def Returned (s : Traffic) (nodeId : String) : Prop :=
  ∃ draw now model excluded selection,
    NodeSelector.select r.config.selector draw s.gate.store.list now model excluded =
      .ok selection ∧ selection.node.registration.nodeId = nodeId

def quiet (nodeId : String) (s : Traffic) (a : TrafficAction) : Prop :=
  a.alone ∧ ¬ s.releases r nodeId a

-- No selection gives the node until something releases it.
def KeptOut (s : Traffic) (nodeId : String) : Prop :=
  ∀ s', Transition.Run (step r) (quiet r nodeId) s s' → ¬ s'.Returned r nodeId

structure Unreleased (options : NodeSelectorOptions) (nodeId : String) (known : NodeRecord)
    (store : MemoryNodeStore) : Prop where
  found : ∃ record, store.get nodeId = some record ∧ SameOffer known record ∧
    (Offered options known → record.health.healthy = false)
  failing : Offered options known →
    unhealthyConsecutiveFailures ≤ failureStreak (store.window nodeId)

variable {options : NodeSelectorOptions} {nodeId : String} {known : NodeRecord}
  {store : MemoryNodeStore}

theorem Unreleased.same (held : Unreleased options nodeId known store) {store' : MemoryNodeStore}
    (get : store'.get nodeId = store.get nodeId) (window : store'.window nodeId = store.window nodeId) :
    Unreleased options nodeId known store' := by
  constructor
  case found =>
    rw [get]
    exact held.found
  case failing =>
    rw [window]
    exact held.failing

theorem Unreleased.other (held : Unreleased options nodeId known store) (op : StoreOp)
    (other : nodeId ≠ op.nodeId) : Unreleased options nodeId known (op.onMemory store) := by
  obtain ⟨get, window⟩ := Shared.get_onMemory_other other store
  exact held.same get window

-- The adapter calls the node healthy, and only the window can gainsay it.
theorem unreleased_seen {existing : NodeRecord} (stored : store.get nodeId = some existing)
    (named : existing.registration.nodeId = nodeId) (same : SameOffer known existing)
    (failing : Offered options known →
      unhealthyConsecutiveFailures ≤ failureStreak (store.window nodeId)) (seenAt : Int) :
    Unreleased options nodeId known (store.upsert (seen existing seenAt)) := by
  have own : nodeId = (Gateway.seen existing seenAt).registration.nodeId := named.symm
  constructor
  case found =>
    rw [store.get_upsert, if_pos own, stored]
    refine ⟨_, rfl, same.trans (seen_offer existing seenAt _), ?_⟩
    intro offered
    rw [seen_verdict]
    have streak := failing offered
    exact decide_eq_false (by omega)
  case failing =>
    rw [store.window_upsert]
    exact failing

theorem Unreleased.failed (held : Unreleased options nodeId known store) {o : ReportedOutcome}
    (failed : o.success = false) :
    Unreleased options nodeId known (store.recordOutcome nodeId o) := by
  obtain ⟨record, found, same, -⟩ := held.found
  have streak := failureStreak_failed (store.window nodeId) (o := normalizeOutcome o) failed
  have longer (offered : Offered options known) : unhealthyConsecutiveFailures ≤
      failureStreak (MemoryNodeStore.bounded (store.window nodeId ++ [normalizeOutcome o])) := by
    have failing := held.failing offered
    simp only [streak, healthWindowSize, unhealthyConsecutiveFailures] at failing ⊢
    omega
  constructor
  case found =>
    rw [store.get_recordOutcome, if_pos rfl, found]
    refine ⟨_, rfl, ?_, ?_⟩
    · exact same.trans ⟨rfl, rfl, (deriveHealth_owner record.health _).2⟩
    · intro offered
      have failing := longer offered
      rw [(deriveHealth_window _ _ (MemoryNodeStore.bounded_ne_nil _ _)).1]
      exact decide_eq_false (by omega)
  case failing =>
    intro offered
    rw [store.window_recordOutcome, if_pos ⟨rfl, by rw [found]; rfl⟩]
    exact longer offered

theorem Unreleased.setInFlight (held : Unreleased options nodeId known store)
    (revise : Nat → Nat) : Unreleased options nodeId known (store.setInFlight nodeId revise) := by
  obtain ⟨record, found, same, benched⟩ := held.found
  constructor
  case found =>
    rw [store.get_setInFlight, if_pos rfl, found]
    exact ⟨_, rfl, same.trans ⟨rfl, rfl, rfl⟩, benched⟩
  case failing =>
    rw [store.window_setInFlight]
    exact held.failing

theorem Unreleased.register {s : Traffic} (held : Unreleased options nodeId known s.gate.store)
    {q : Registering} (quiet : s.quiet r nodeId (.register q)) :
    Unreleased options nodeId known (r.handleRegister s.gate q).2.store := by
  obtain ⟨alone, unreleased⟩ := quiet
  cases accepted : (r.handleRegister s.gate q).1.isOk with
  | false =>
    rw [r.handleRegister_kept alone accepted]
    exact held
  | true =>
    rcases r.handleRegister_cases s.gate q alone with ⟨refused, -⟩ | ⟨signed, admitted, -, -, written⟩
    · rw [accepted] at refused
      cases refused
    · rw [written]
      apply held.other (.upsert _)
      intro own
      exact unreleased ⟨accepted, signed, admitted, own.symm⟩

theorem Unreleased.heartbeat {s : Traffic} (held : Unreleased options nodeId known s.gate.store)
    (keyed : Keyed s.gate.store) {q : Beating} (alone : q.others = fun _ => id) :
    Unreleased options nodeId known (r.handleHeartbeat s.gate q).2.store := by
  rcases r.handleHeartbeat_cases s.gate q alone with
    ⟨-, same⟩ | ⟨signed, existing, -, stored, -, -, written⟩
  · rw [same]
    exact held
  · have named := keyed q.id existing stored
    rw [written]
    by_cases own : nodeId = q.id
    · subst own
      obtain ⟨record, found, same, -⟩ := held.found
      obtain rfl := Option.some.inj (stored.symm.trans found)
      exact unreleased_seen stored named same held.failing q.seenAt
    · apply held.other (.upsert _)
      intro same
      exact own (same.trans named)

theorem Unreleased.step {s s' : Traffic} {a : TrafficAction}
    (held : Unreleased options nodeId known s.gate.store) (keyed : Keyed s.gate.store)
    (quiet : s.quiet r nodeId a) (taken : s.step r a = some s') :
    Unreleased options nodeId known s'.gate.store := by
  cases a with
  | sign =>
    obtain rfl := Option.some.inj taken
    exact held
  | register q =>
    obtain rfl := Option.some.inj taken
    exact held.register r quiet
  | heartbeat q =>
    obtain rfl := Option.some.inj taken
    exact held.heartbeat r keyed quiet.1
  | recordOutcome other o =>
    obtain rfl := Option.some.inj taken
    by_cases own : nodeId = other
    · subst own
      apply held.failed
      rw [← Bool.not_eq_true]
      intro success
      exact quiet.2 ⟨rfl, success⟩
    · exact held.other (.recordOutcome other o) own
  | beginRequest other =>
    obtain rfl := Option.some.inj taken
    by_cases own : nodeId = other
    · subst own
      exact held.setInFlight (· + 1)
    · exact held.other (.beginRequest other) own
  | endRequest other =>
    obtain rfl := Option.some.inj taken
    by_cases own : nodeId = other
    · subst own
      exact held.setInFlight (· - 1)
    · exact held.other (.endRequest other) own

theorem get_listed {store : MemoryNodeStore} (keyed : Keyed store) {record : NodeRecord}
    (member : record ∈ store.list) : store.get record.registration.nodeId = some record := by
  obtain ⟨key, found⟩ := (OrderedMap.mem_values _ _).mp member
  rw [keyed key record found]
  exact found

theorem listed {store : MemoryNodeStore} {nodeId : String} {record : NodeRecord}
    (found : store.get nodeId = some record) : record ∈ store.list :=
  (OrderedMap.mem_values _ _).mpr ⟨nodeId, found⟩

theorem offered_of_suitable {options : NodeSelectorOptions} {now : Int} {model : String}
    {excluded : List String} {record : NodeRecord}
    (suitable : NodeSelector.Suitable options now model excluded record) :
    Offered options record ∧ record.health.healthy = true := by
  have routable := suitable.routable
  rw [NodeSelector.unroutableReason_eq] at routable
  cases network : NodeSelector.wrongNetwork options record
  case true => simp [network] at routable
  cases old : NodeSelector.stale options now record
  case true => simp [network, old] at routable
  cases healthy : record.health.healthy
  case false => simp [network, old, healthy] at routable
  cases optedIn : record.usdcOptedIn
  case false => simp [network, old, healthy, optedIn] at routable
  have headroom := suitable.headroom
  exact ⟨⟨network, optedIn, by omega, model, suitable.priced⟩, rfl⟩

theorem suitable_of_offered {options : NodeSelectorOptions} {record : NodeRecord} {model : String}
    (offered : Offered options record) (healthy : record.health.healthy = true)
    (idle : record.health.inFlight = 0)
    (priced : (NodeSelector.nodePriceAtomic options record model).isSome = true) {now : Int}
    (recent : NodeSelector.stale options now record = false) {excluded : List String}
    (kept : record.registration.nodeId ∉ excluded) :
    NodeSelector.Suitable options now model excluded record := by
  constructor
  case routable =>
    rw [NodeSelector.unroutableReason_eq]
    simp [offered.network, offered.optedIn, healthy, recent]
  case kept => exact kept
  case serves =>
    apply (NodeSelector.capability_isNone options record model).mp
    unfold NodeSelector.nodePriceAtomic at priced
    cases served : NodeSelector.capability options record model with
    | none => simp [served] at priced
    | some capability => rfl
  case headroom =>
    rw [idle]
    exact offered.room
  case priced => exact priced

theorem returned_record {s : Traffic} (keyed : Keyed s.gate.store) {nodeId : String}
    (returned : s.Returned r nodeId) :
    ∃ record, s.gate.store.get nodeId = some record ∧ Offered r.config.selector record ∧
      record.health.healthy = true := by
  obtain ⟨draw, now, model, excluded, selection, selected, named⟩ := returned
  obtain ⟨e, member, chosen⟩ := NodeSelector.select_mem r.config.selector selected
  obtain ⟨stored, passes⟩ := (NodeSelector.mem_accepted r.config.selector).mp member
  have suitable := (NodeSelector.filter_ok_iff r.config.selector).mp ⟨e.price, passes⟩
  rw [chosen] at named
  refine ⟨e.record, ?_, offered_of_suitable suitable⟩
  rw [← named]
  exact get_listed keyed stored

-- With every other node excluded, whatever the draw.
theorem returned_idle {s : Traffic} (keyed : Keyed s.gate.store) {nodeId : String}
    {record : NodeRecord} (found : s.gate.store.get nodeId = some record)
    (offered : Offered r.config.selector record) (healthy : record.health.healthy = true)
    (idle : record.health.inFlight = 0) : s.Returned r nodeId := by
  obtain ⟨model, priced⟩ := offered.priced
  have named := keyed nodeId record found
  let others := (s.gate.store.list.map (·.registration.nodeId)).filter (· ≠ nodeId)
  let draw : NodeSelector.Draw := ⟨defaultWeights, none, none⟩
  have recent : NodeSelector.stale r.config.selector record.health.lastSeenAt record = false := by
    simp [NodeSelector.stale, MeshConfig.selector]
  have kept : record.registration.nodeId ∉ others := by
    simp [others, named]
  obtain ⟨price, passes⟩ := (NodeSelector.filter_ok_iff r.config.selector).mpr
    (suitable_of_offered offered healthy idle priced recent kept)
  have own : (⟨record, price⟩ : NodeSelector.Eligible) ∈ NodeSelector.accepted r.config.selector
      record.health.lastSeenAt model others s.gate.store.list :=
    (NodeSelector.mem_accepted r.config.selector).mpr ⟨listed found, passes⟩
  rcases NodeSelector.select_cases r.config.selector draw s.gate.store.list
    record.health.lastSeenAt model others (by decide +kernel) with
    ⟨none_left, -⟩ | ⟨e, member, score, reason, selected⟩
  · rw [none_left] at own
    cases own
  · refine ⟨draw, _, model, others, _, selected, ?_⟩
    obtain ⟨stored, passes⟩ := (NodeSelector.mem_accepted r.config.selector).mp member
    have allowed := ((NodeSelector.filter_ok_iff r.config.selector).mp ⟨e.price, passes⟩).kept
    by_contra other
    apply allowed
    exact List.mem_filter.mpr ⟨List.mem_map_of_mem stored, decide_eq_true other⟩

theorem run_alone_keyed {s : Traffic}
    (run : Transition.Run (step r) (fun _ a => a.alone) initial s) : Keyed s.gate.store := by
  refine run.invariant (P := fun s => Keyed s.gate.store) ?_ ?_
  · intro nodeId record found
    cases found
  · intro t a t' keyed alone taken
    exact step_keyed r keyed alone taken

theorem Unreleased.keptOut {s : Traffic} (keyed : Keyed s.gate.store) {nodeId : String}
    {known : NodeRecord} (held : Unreleased r.config.selector nodeId known s.gate.store) :
    s.KeptOut r nodeId := by
  intro s' run returned
  have reached : Keyed s'.gate.store ∧
      Unreleased r.config.selector nodeId known s'.gate.store := by
    refine run.invariant (P := fun s => Keyed s.gate.store ∧
      Unreleased r.config.selector nodeId known s.gate.store) ⟨keyed, held⟩ ?_
    rintro t a t' ⟨keyed, held⟩ quiet taken
    exact ⟨step_keyed r keyed quiet.1 taken, held.step r keyed quiet taken⟩
  obtain ⟨record, found, offered, healthy⟩ := returned_record r reached.1 returned
  obtain ⟨same, stored, unchanged, benched⟩ := reached.2.found
  obtain rfl := Option.some.inj (found.symm.trans stored)
  rw [benched (unchanged.symm.offered offered)] at healthy
  cases healthy

-- Its requests end one by one, which releases nothing.
theorem drains {nodeId : String} (count : Nat) {s : Traffic} (keyed : Keyed s.gate.store)
    {record : NodeRecord} (found : s.gate.store.get nodeId = some record)
    (busy : record.health.inFlight = count) :
    ∃ s', Transition.Run (step r) (quiet r nodeId) s s' ∧ Keyed s'.gate.store ∧
      s'.gate.store.get nodeId =
        some { record with health := { record.health with inFlight := 0 } } := by
  induction count generalizing s record with
  | zero =>
    refine ⟨s, .refl, keyed, ?_⟩
    rw [found, ← busy]
  | succ count ih =>
    have ended := s.gate.store.get_setInFlight nodeId (· - 1) nodeId
    rw [if_pos rfl, found, Option.map_some] at ended
    obtain ⟨s', run, later, drained⟩ := ih
      (s := s.withStore (s.gate.store.endRequest nodeId)) (keyed.setInFlight nodeId _) ended
      (by simp [busy])
    have taken : Transition.Run (step r) (quiet r nodeId) s
        (s.withStore (s.gate.store.endRequest nodeId)) :=
      .single (a := .endRequest nodeId) ⟨trivial, id⟩ rfl
    exact ⟨s', taken.trans run, later, drained⟩

theorem returned_healthy {s : Traffic} (keyed : Keyed s.gate.store) {nodeId : String}
    {record : NodeRecord} (found : s.gate.store.get nodeId = some record)
    (offered : Offered r.config.selector record) (healthy : record.health.healthy = true) :
    ¬ s.KeptOut r nodeId := by
  intro keptOut
  obtain ⟨s', run, later, drained⟩ := drains r record.health.inFlight keyed found rfl
  have same : SameOffer record { record with health := { record.health with inFlight := 0 } } :=
    ⟨rfl, rfl, rfl⟩
  exact keptOut s' run (returned_idle r later drained (same.offered offered) healthy rfl)

theorem beat_written {s : Traffic} {q : Beating} (alone : q.others = fun _ => id)
    (accepted : (r.handleHeartbeat s.gate q).1.isOk = true) :
    ∃ known, s.gate.store.get q.id = some known ∧
      (r.handleHeartbeat s.gate q).2.store = s.gate.store.upsert (seen known q.seenAt) := by
  rcases r.handleHeartbeat_cases s.gate q alone with
    ⟨refused, -⟩ | ⟨signed, known, -, stored, -, -, written⟩
  · rw [accepted] at refused
    cases refused
  · exact ⟨known, stored, written⟩

-- Whatever the heartbeat said, the node is kept out only where the window benched it before.
theorem beat_keptOut {s : Traffic} (keyed : Keyed s.gate.store) {q : Beating}
    (alone : q.others = fun _ => id) (accepted : (r.handleHeartbeat s.gate q).1.isOk = true) :
    KeptOut r { s with gate := (r.handleHeartbeat s.gate q).2 } q.id ↔
      ∀ known, s.gate.store.get q.id = some known → Offered r.config.selector known →
        unhealthyConsecutiveFailures ≤ failureStreak (s.gate.store.window q.id) := by
  obtain ⟨known, stored, written⟩ := beat_written r alone accepted
  have named := keyed q.id known stored
  have after : ({ s with gate := (r.handleHeartbeat s.gate q).2 } : Traffic).gate.store =
      s.gate.store.upsert (seen known q.seenAt) := written
  generalize ({ s with gate := (r.handleHeartbeat s.gate q).2 } : Traffic) = beaten at after ⊢
  have keyedAfter : Keyed beaten.gate.store := by
    rw [after]
    exact keyed.upsert _
  constructor
  · intro keptOut record found offered
    obtain rfl := Option.some.inj (stored.symm.trans found)
    by_contra few
    have merged := s.gate.store.get_upsert (seen known q.seenAt) q.id
    have own : q.id = (seen known q.seenAt).registration.nodeId := named.symm
    rw [if_pos own, stored, ← after] at merged
    have healthy := seen_verdict known q.seenAt (s.gate.store.window q.id)
    rw [decide_eq_true (by omega)] at healthy
    exact returned_healthy r keyedAfter merged
      ((seen_offer known q.seenAt _).offered offered) healthy keptOut
  · intro failing
    have benched : Unreleased r.config.selector q.id known
        (s.gate.store.upsert (seen known q.seenAt)) :=
      unreleased_seen stored named (.refl known) (failing known stored) q.seenAt
    rw [← after] at benched
    exact benched.keptOut r keyedAfter

end Traffic

def sickBeat : HeartbeatFields := { operatorBeat with healthy := false }

def sickSeal : String :=
  "BnM7xbUR1hJdUsflhDGg7xLWMVOjY2u/mdk+GAU3qsyqv20+JxuHaX8pNsogZj3BenFOHgFdg7YV2SyUz/2NAw=="

def sickCrypto : Crypto :=
  { demoCrypto with
    verify := fun key message signature =>
      demoCrypto.verify key message signature ||
        (key = spki demoKey && signature = Base64.decode sickSeal.toList &&
          message.data = (signedText heartbeatDomain sickBeat.json).data) }

def sickRoutes : Routes := { demoRoutes with crypto := sickCrypto }

def sickSigned : SignedHeartbeat := ⟨sickBeat, sickSeal, demoPublicKey⟩

def sickBeating : Beating := { demoBeating with body := sickSigned.body }

namespace Traffic

theorem sick_admitted : Routes.admitHeartbeat sickBeating = .ok sickSigned :=
  Routes.admitHeartbeat_ok (by decide) rfl
    (parseSignedHeartbeat_body (by decide) (by decide +kernel) (by decide))

theorem sick_registration_verified :
    sickRoutes.verifyRegistrationSignature (demoSigned registrationSeal) = .ok () := by
  have address : operatorFields.record.operatorAddress = demoAddress := textOf_js demoAddress
  have whole : { operatorFields with network := js testnet : RegistrationFields } = operatorFields :=
    rfl
  have bytes := canonicalRegistrationBytes_json demoSdk (readRegistration_value operatorFields)
    operator_network
  rw [whole] at bytes
  have decoded : sickCrypto.decodeAddress demoAddress = some demoKey := by
    simp [sickCrypto, demoCrypto]
  have verifies : sickCrypto.verify (spki demoKey)
      (signedText registrationDomain operatorFields.json) (Base64.decode registrationSeal.toList) =
        true := by
    simp [sickCrypto, demoCrypto]
  simp only [Routes.verifyRegistrationSignature, demoSigned, sickRoutes, demoRoutes]
  rw [address, bytes, verifyEnvelope_decides decoded rfl operator_key rfl, verifies]
  rfl

theorem sick_joined :
    ∃ gate, initial.step sickRoutes (.register (demoPost registrationSeal 1700000000000)) =
        some ⟨gate, []⟩ ∧
      gate.store = MemoryNodeStore.empty.upsert operatorRecord ∧
      gate.nonces = (Gate.initial.nonces.claim 1700000000000 "00112233445566778899aabbccddeeff").2 :=
  operator_joined sickRoutes rfl [] operator_admitted
    (operator_accepted sickRoutes rfl operator_admitted sick_registration_verified)

theorem sick_verified :
    sickRoutes.verifyHeartbeatSignature sickSigned demoAddress = .ok () := by
  have bytes := canonicalHeartbeatBytes_json (readHeartbeat_value sickBeat)
  have decoded : sickCrypto.decodeAddress demoAddress = some demoKey := by
    simp [sickCrypto, demoCrypto]
  have verifies : sickCrypto.verify (spki demoKey) (signedText heartbeatDomain sickBeat.json)
      (Base64.decode sickSeal.toList) = true := by
    simp [sickCrypto]
  simp only [Routes.verifyHeartbeatSignature, sickSigned, sickRoutes, demoRoutes]
  rw [bytes, verifyEnvelope_decides decoded rfl operator_key rfl, verifies]
  rfl

theorem sick_accepted {gate : Gate} {known : NodeRecord}
    (stored : gate.store.get "node-a" = some known)
    (owner : known.registration.operatorAddress = demoAddress)
    (nonces : gate.nonces =
      (Gate.initial.nonces.claim 1700000000000 "00112233445566778899aabbccddeeff").2) :
    (sickRoutes.handleHeartbeat gate sickBeating).1.isOk = true := by
  have fresh : Routes.freshHeartbeat sickBeating sickSigned = .ok () := by
    have named : sickSigned.heartbeat.nodeId = js sickBeating.id := rfl
    have signedAt : (sickSigned.heartbeat.timestamp.toNat : Int) = sickBeating.freshAt := by
      decide
    simp only [Routes.freshHeartbeat, named, signedAt, ne_eq, not_true, if_false, bind, Except.bind]
    exact assertFreshTimestamp_self _
  have won : (gate.nonces.claim sickBeating.claimAt (textOf sickSigned.heartbeat.nonce)).1 = true := by
    have nonce : textOf sickSigned.heartbeat.nonce = "ffeeddccbbaa99887766554433221100" := textOf_js _
    rw [nonce, nonces]
    decide
  apply sickRoutes.handleHeartbeat_beaten rfl sick_admitted stored fresh
  rw [won, Routes.authenticHeartbeat_unused, owner]
  exact sick_verified

theorem unhealthy_beat_keptOut {s : Traffic}
    (run : Transition.Run (step r) (fun _ a => a.alone) initial s) {q : Beating}
    (alone : q.others = fun _ => id)
    (_sick : ∃ signed, Routes.admitHeartbeat q = .ok signed ∧ signed.heartbeat.healthy = false)
    (accepted : (r.handleHeartbeat s.gate q).1.isOk = true) :
    KeptOut r { s with gate := (r.handleHeartbeat s.gate q).2 } q.id ↔
      ∀ known, s.gate.store.get q.id = some known → Offered r.config.selector known →
        unhealthyConsecutiveFailures ≤ failureStreak (s.gate.store.window q.id) :=
  beat_keptOut r (run_alone_keyed r run) alone accepted

theorem operator_offered : Offered sickRoutes.config.selector operatorRecord := by
  have network : operatorRecord.registration.network = testnet := textOf_js testnet
  constructor
  case network => simp [NodeSelector.wrongNetwork, MeshConfig.selector, network, sickRoutes, demoRoutes]
  case optedIn => rfl
  case room => decide
  case priced => exact ⟨"llama3.1:8b", by decide +kernel⟩

-- What the registration of the operator leaves, with nothing else done.
theorem sick_run {gate : Gate}
    (joins : initial.step sickRoutes (.register (demoPost registrationSeal 1700000000000)) =
      some ⟨gate, []⟩) :
    Transition.Run (step sickRoutes) (fun _ a => a.alone) initial ⟨gate, []⟩ :=
  .single (a := .register (demoPost registrationSeal 1700000000000)) rfl joins

def failedThrice (store : MemoryNodeStore) : MemoryNodeStore :=
  store.run (List.replicate 3 (.recordOutcome "node-a" ⟨false, none, none⟩))

theorem failed_store {store : MemoryNodeStore} {nodeId : String} {known : NodeRecord}
    (stored : store.get nodeId = some known) :
    let after := store.recordOutcome nodeId ⟨false, none, none⟩
    (∃ record, after.get nodeId = some record ∧ record.registration = known.registration) ∧
      failureStreak (after.window nodeId) =
        min healthWindowSize (failureStreak (store.window nodeId) + 1) := by
  constructor
  · rw [store.get_recordOutcome, if_pos rfl, stored]
    exact ⟨_, rfl, rfl⟩
  · rw [store.window_recordOutcome, if_pos ⟨rfl, by rw [stored]; rfl⟩]
    exact failureStreak_failed _ rfl

theorem failedThrice_store {store : MemoryNodeStore} {known : NodeRecord}
    (stored : store.get "node-a" = some known) :
    ∃ record, (failedThrice store).get "node-a" = some record ∧
      record.registration = known.registration ∧
      unhealthyConsecutiveFailures ≤ failureStreak ((failedThrice store).window "node-a") := by
  obtain ⟨⟨first, stored₁, same₁⟩, streak₁⟩ := failed_store stored
  obtain ⟨⟨second, stored₂, same₂⟩, streak₂⟩ := failed_store stored₁
  obtain ⟨⟨third, stored₃, same₃⟩, streak₃⟩ := failed_store stored₂
  refine ⟨third, stored₃, (same₃.trans same₂).trans same₁, ?_⟩
  change 3 ≤ failureStreak ((((store.recordOutcome "node-a" _).recordOutcome "node-a" _).recordOutcome
    "node-a" _).window "node-a")
  simp only [healthWindowSize] at streak₁ streak₂ streak₃
  omega

-- A node that failed three times, and says that it is unhealthy.
theorem unhealthy_beat_keptOut_benched :
    ∃ s : Traffic, (sickRoutes.handleHeartbeat s.gate sickBeating).1.isOk = true ∧
      KeptOut sickRoutes
        { s with gate := (sickRoutes.handleHeartbeat s.gate sickBeating).2 } "node-a" := by
  obtain ⟨gate, joins, store, nonces⟩ := sick_joined
  have known : gate.store.get "node-a" = some operatorRecord := by
    rw [store]
    exact operator_stored
  have owner : operatorRecord.registration.operatorAddress = demoAddress := textOf_js demoAddress
  let failures : List TrafficAction := List.replicate 3 (.recordOutcome "node-a" ⟨false, none, none⟩)
  let failing : Traffic := ⟨{ gate with store := failedThrice gate.store }, []⟩
  have fails : Transition.Run (step sickRoutes) (fun _ a => a.alone) ⟨gate, []⟩ failing :=
    Transition.run_of_replay failures (Transition.allows_of_forall failures (by simp [failures,
      TrafficAction.alone])) rfl
  obtain ⟨record, stored, same, streak⟩ := failedThrice_store known
  have accepted : (sickRoutes.handleHeartbeat failing.gate sickBeating).1.isOk = true :=
    sick_accepted stored (by rw [same, owner]) nonces
  refine ⟨failing, accepted, ?_⟩
  exact (unhealthy_beat_keptOut sickRoutes ((sick_run joins).trans fails) rfl
    ⟨sickSigned, sick_admitted, rfl⟩ accepted).mpr fun known found offered => streak

-- A healthy record, and a heartbeat that says otherwise.
theorem unhealthy_beat_unheeded :
    ¬ ∀ (r : Routes) (s : Traffic), Transition.Run (step r) (fun _ a => a.alone) initial s →
      ∀ q : Beating, q.others = (fun _ => id) →
        (∃ signed, Routes.admitHeartbeat q = .ok signed ∧ signed.heartbeat.healthy = false) →
        (r.handleHeartbeat s.gate q).1.isOk = true →
        KeptOut r { s with gate := (r.handleHeartbeat s.gate q).2 } q.id := by
  intro heeded
  obtain ⟨gate, joins, store, nonces⟩ := sick_joined
  have known : gate.store.get "node-a" = some operatorRecord := by
    rw [store]
    exact operator_stored
  have owner : operatorRecord.registration.operatorAddress = demoAddress := textOf_js demoAddress
  have accepted := sick_accepted known owner nonces
  have keptOut := heeded sickRoutes ⟨gate, []⟩ (sick_run joins) sickBeating rfl
    ⟨sickSigned, sick_admitted, rfl⟩ accepted
  have failing := (beat_keptOut sickRoutes (s := ⟨gate, []⟩) (run_alone_keyed sickRoutes
    (sick_run joins)) rfl accepted).mp keptOut operatorRecord known operator_offered
  have window : gate.store.window "node-a" = [] := by
    rw [store, MemoryNodeStore.window_upsert]
    rfl
  have unused : failureStreak (gate.store.window "node-a") = 0 := by
    rw [window]
    rfl
  have three : unhealthyConsecutiveFailures ≤ failureStreak (gate.store.window "node-a") := failing
  rw [unused] at three
  exact absurd three (by decide)

end Traffic

end X402Mesh.Gateway
