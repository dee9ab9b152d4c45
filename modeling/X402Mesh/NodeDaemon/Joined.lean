import X402Mesh.NodeDaemon.ControlPlane

set_option autoImplicit false

namespace X402Mesh.NodeDaemon

open JsonText Registry Gateway Transition

variable {node : NodeCrypto} {r : Routes} {cfg : DaemonConfig} {key : OperatorKey}
  {options : BuildRegistrationOptions}

inductive Genuine (cfg : DaemonConfig) (key : OperatorKey) (options : BuildRegistrationOptions) :
    Request → Prop
  | registration (draw : Draw) : draw.valid →
      Genuine cfg key options (.registration (registrationOf cfg key options draw))
  | heartbeat (live : HeartbeatSnapshot) (draw : Draw) : live.inFlight.toNat ≤ 1000000 →
      draw.valid → Genuine cfg key options (.heartbeat (heartbeatOf cfg key live draw))

theorem nonce_registration (draw : Draw) :
    (Request.registration (registrationOf cfg key options draw)).nonce = draw.nonce :=
  textOf_js draw.nonce

theorem nonce_heartbeat (live : HeartbeatSnapshot) (draw : Draw) :
    (Request.heartbeat (heartbeatOf cfg key live draw)).nonce = draw.nonce :=
  textOf_js draw.nonce

section

variable {gate : Gate}

theorem handleRegister_joined {q : Registering} {signed : SignedRegistration}
    {existing : Option NodeRecord} (admitted : r.admitRegistration q = .ok signed)
    (authentic : r.authenticRegistration signed
      (gate.nonces.claim q.claimAt signed.registration.record.nonce).1 = .ok ())
    {asked last : Gate}
    (first : q.others 0 (gate.burn (some (q.claimAt, signed.registration.record.nonce))) = asked)
    (settled : r.settledRegistration q asked.store signed.registration.record = .ok existing)
    (second : q.others 1 asked = last) :
    ∃ record stored, record.registration = signed.registration.record ∧
      r.handleRegister gate q = (.ok (registerResponse r.config existing stored),
        { last with store := last.store.upsert record }) := by
  subst first second
  simp only [Gate.burn] at settled ⊢
  simp only [Routes.handleRegister, admitted, authentic, settled]
  exact ⟨_, _, rfl, rfl⟩

theorem settledRegistration_own {q : Registering} {store : MemoryNodeStore}
    {registration : NodeRegistration} (routable : q.routable = .ok ())
    (ready : (q.usdcOptedIn || !r.config.requireUsdcOptIn) = true)
    (own : ∀ record, store.get registration.nodeId = some record →
      record.registration.operatorAddress = registration.operatorAddress) :
    r.settledRegistration q store registration = .ok (store.get registration.nodeId) := by
  have optedIn : r.checkOptIn registration q.usdcOptedIn = .ok () := by
    have paid : (!q.usdcOptedIn && r.config.requireUsdcOptIn) = false := by
      cases opted : q.usdcOptedIn <;> simp_all
    simp [Routes.checkOptIn, paid]
  have owner : checkOwner (store.get registration.nodeId) registration = .ok () := by
    cases found : store.get registration.nodeId with
    | none => rfl
    | some record => simp [checkOwner, own record found]
  simp [Routes.settledRegistration, routable, optedIn, owner, bind, Except.bind, pure, Except.pure]

/-- What an arrival finds and leaves: an answer, and a gate whose registry is that of before but for
what others did and the node's own record. -/
structure Handled (cfg : DaemonConfig) (key : OperatorKey) (gate : Gate) (a : Arrival)
    (request : Request) (status : Nat) (later : Gate) : Prop where
  keeps : Keeps cfg key (request.nonce :: a.claims) gate later
  welcome : (isOk status = true ∧ Known cfg later) ∨
    (status = 404 ∧ ¬ Known cfg gate ∧ ∃ signed, request = .heartbeat signed)
  missing : ∀ signed, request = .heartbeat signed → ¬ Known cfg gate → status = 404

section

variable {a : Arrival} {later : Gate}

theorem first_wait (spares : ∀ d ∈ a.first ++ a.second, d.Spares cfg key)
    (waits : a.others 0 gate = later) :
    Keeps cfg key (a.first.flatMap Disturbance.claims) gate later := by
  rw [← waits]
  exact Keeps.disturbances gate fun d member => spares d (List.mem_append_left _ member)

theorem second_wait (spares : ∀ d ∈ a.first ++ a.second, d.Spares cfg key)
    (waits : a.others 1 gate = later) :
    Keeps cfg key (a.second.flatMap Disturbance.claims) gate later := by
  rw [← waits]
  exact Keeps.disturbances gate fun d member => spares d (List.mem_append_right _ member)

end

theorem registration_handled (member : Member cfg key options node r) {draw : Draw}
    (valid : draw.valid) {a : Arrival} (near : Near draw.now.toNat a.freshAt)
    (routable : a.routable = .ok ())
    (ready : (a.usdcOptedIn || !r.config.requireUsdcOptIn) = true)
    (spares : ∀ d ∈ a.first ++ a.second, d.Spares cfg key) (accepted : Accepts gate draw.nonce)
    (owned : Owned cfg key gate) :
    Handled cfg key gate a (.registration (registrationOf cfg key options draw))
      (handle r cfg gate a (.registration (registrationOf cfg key options draw))).1
      (handle r cfg gate a (.registration (registrationOf cfg key options draw))).2 := by
  have nonce : (registrationOf cfg key options draw).registration.record.nonce = draw.nonce :=
    textOf_js draw.nonce
  have named : (registrationOf cfg key options draw).registration.record.nodeId = cfg.nodeId :=
    textOf_js cfg.nodeId
  have address : (registrationOf cfg key options draw).registration.record.operatorAddress =
      key.address := textOf_js key.address
  have network : (registrationOf cfg key options draw).registration.record.network =
      r.config.network := (textOf_js cfg.network).trans member.network
  have verified : r.verifyRegistrationSignature (registrationOf cfg key options draw) = .ok () :=
    registration_verified member
  have parsed := registration_parsed member valid
  have fresh : assertFreshTimestamp
      (registrationOf cfg key options draw).registration.record.timestamp a.freshAt = .ok () :=
    assertFreshTimestamp_of_near near
  generalize registrationOf cfg key options draw = signed
    at nonce named address network verified parsed fresh ⊢
  have admitted : r.admitRegistration (a.registering signed) = .ok signed :=
    r.admitRegistration_ok parsed fresh
  have authentic : r.authenticRegistration signed
      (gate.nonces.claim (a.registering signed).claimAt signed.registration.record.nonce).1 =
      .ok () := by
    have won : (gate.nonces.claim a.claimAt draw.nonce).1 = true := accepted a.claimAt
    have agrees : r.checkNetwork signed.registration.record = .ok () :=
      if_neg fun other => other network
    rw [nonce, show (a.registering signed).claimAt = a.claimAt from rfl, won,
      r.authenticRegistration_unused, verified]
    exact agrees
  have burnt : Keeps cfg key [signed.registration.record.nonce] gate
      (gate.burn (some (a.claimAt, signed.registration.record.nonce))) :=
    .claim gate a.claimAt _
  -- What the gate is after the first wait, and after the second.
  obtain ⟨asked, first⟩ : ∃ asked, a.others 0
      (gate.burn (some (a.claimAt, signed.registration.record.nonce))) = asked := ⟨_, rfl⟩
  obtain ⟨last, second⟩ : ∃ last, a.others 1 asked = last := ⟨_, rfl⟩
  have waited := burnt.trans (first_wait spares first)
  have own : ∀ record, asked.store.get signed.registration.record.nodeId = some record →
      record.registration.operatorAddress = signed.registration.record.operatorAddress := by
    rw [named, address]
    exact waited.owned owned
  obtain ⟨record, stored, same, handled⟩ := handleRegister_joined admitted authentic first
    (settledRegistration_own routable ready own) second
  have answered : handle r cfg gate a (.registration signed) = (registerStatus (.ok _), _) :=
    congrArg (fun answer => (registerStatus answer.1, answer.2)) handled
  rw [answered]
  constructor
  case keeps =>
    have mine : record.registration.operatorAddress = key.address := by
      rw [same, address]
    have written := (waited.trans (second_wait spares second)).trans (.upsert fun _ => mine)
    simpa [Arrival.claims, Request.nonce] using written
  case welcome =>
    refine .inl ⟨?_, ?_⟩
    · simp only [registerStatus, registerResponse]
      split <;> rfl
    · unfold Known
      rw [MemoryNodeStore.get_upsert, same, if_pos named.symm]
      rfl
  case missing =>
    intro signed beat
    cases beat

theorem handleHeartbeat_seen {q : Beating} {signed : SignedHeartbeat}
    {existing again : NodeRecord} {asked last : Gate}
    (admitted : Routes.admitHeartbeat q = .ok signed)
    (known : gate.store.get q.id = some existing) (first : q.others 0 gate = asked)
    (fresh : Routes.freshHeartbeat q signed = .ok ())
    (authentic : r.authenticHeartbeat q signed existing
      (asked.nonces.claim q.claimAt (textOf signed.heartbeat.nonce)).1 = .ok ())
    (still : asked.store.get q.id = some again)
    (second : q.others 1 (asked.burn (some (q.claimAt, textOf signed.heartbeat.nonce))) = last) :
    ∃ response, r.handleHeartbeat gate q =
      (.ok response, { last with store := last.store.upsert (seen again q.seenAt) }) := by
  subst first second
  simp only [Gate.burn]
  simp only [Routes.handleHeartbeat, admitted, known, fresh, authentic, still]
  exact ⟨_, rfl⟩

theorem handleHeartbeat_forgotten {q : Beating} {signed : SignedHeartbeat}
    (admitted : Routes.admitHeartbeat q = .ok signed) (unknown : gate.store.get q.id = none) :
    r.handleHeartbeat gate q = (.error (Routes.unknownNode q.id), gate) := by
  simp only [Routes.handleHeartbeat, admitted, unknown]

theorem heartbeat_handled (member : Member cfg key options node r) {live : HeartbeatSnapshot}
    (bounded : live.inFlight.toNat ≤ 1000000) {draw : Draw} (valid : draw.valid) {a : Arrival}
    (near : Near draw.now.toNat a.freshAt)
    (spares : ∀ d ∈ a.first ++ a.second, d.Spares cfg key) (clear : draw.nonce ∉ a.claims)
    (accepted : Accepts gate draw.nonce) (owned : Owned cfg key gate) :
    Handled cfg key gate a (.heartbeat (heartbeatOf cfg key live draw))
      (handle r cfg gate a (.heartbeat (heartbeatOf cfg key live draw))).1
      (handle r cfg gate a (.heartbeat (heartbeatOf cfg key live draw))).2 := by
  have nonce : textOf (heartbeatOf cfg key live draw).heartbeat.nonce = draw.nonce :=
    textOf_js draw.nonce
  have verified : r.verifyHeartbeatSignature (heartbeatOf cfg key live draw) key.address = .ok () :=
    heartbeat_verified member
  have wellFormed := heartbeatFields_wellFormed member.advertisable bounded valid
  have sized := seals_sized member.trusted member.loaded
    (signedText heartbeatDomain (heartbeatFields cfg live draw).json)
  have parsed : parseSignedHeartbeat (heartbeatOf cfg key live draw).body =
      some (heartbeatOf cfg key live draw) := parseSignedHeartbeat_body wellFormed sized.1 sized.2
  have named : (heartbeatOf cfg key live draw).heartbeat.nodeId = js cfg.nodeId := rfl
  have fresh : assertFreshTimestamp (heartbeatOf cfg key live draw).heartbeat.timestamp.toNat
      a.freshAt = .ok () := assertFreshTimestamp_of_near near
  generalize heartbeatOf cfg key live draw = signed at nonce verified parsed named fresh ⊢
  have present : cfg.nodeId ≠ "" := by
    intro empty
    have fits := member.advertisable
    simp [DaemonConfig.advertisable, empty, nodeIdText] at fits
  have admitted : Routes.admitHeartbeat (a.beating cfg signed) = .ok signed :=
    Routes.admitHeartbeat_ok present rfl parsed
  have answers {answer : Except MeshError HeartbeatResponse} {later : Gate}
      (handled : r.handleHeartbeat gate (a.beating cfg signed) = (answer, later)) :
      handle r cfg gate a (.heartbeat signed) = (heartbeatStatus answer, later) :=
    congrArg (fun answer => (heartbeatStatus answer.1, answer.2)) handled
  cases known : gate.store.get cfg.nodeId with
  | none =>
    rw [answers (handleHeartbeat_forgotten admitted known)]
    constructor
    case keeps => exact (Keeps.refl gate).weaken (by simp)
    case welcome =>
      refine .inr ⟨rfl, ?_, signed, rfl⟩
      simp [Known, known]
    case missing => exact fun _ _ _ => rfl
  | some existing =>
    have mine : existing.registration.operatorAddress = key.address := owned existing known
    obtain ⟨asked, first⟩ : ∃ asked, a.others 0 gate = asked := ⟨_, rfl⟩
    have waited := first_wait spares first
    have unclaimed : draw.nonce ∉ a.first.flatMap Disturbance.claims := fun claimed =>
      clear (List.mem_append_left _ claimed)
    have authentic : r.authenticHeartbeat (a.beating cfg signed) signed existing
        (asked.nonces.claim a.claimAt (textOf signed.heartbeat.nonce)).1 = .ok () := by
      have won : (asked.nonces.claim a.claimAt draw.nonce).1 = true :=
        waited.accepts draw.nonce unclaimed accepted a.claimAt
      rw [nonce, won, r.authenticHeartbeat_unused, mine]
      exact verified
    have recent : Routes.freshHeartbeat (a.beating cfg signed) signed = .ok () := by
      have same : signed.heartbeat.nodeId = js (a.beating cfg signed).id := named
      simp only [Routes.freshHeartbeat, same, ne_eq, not_true, if_false, bind, Except.bind]
      exact fresh
    obtain ⟨again, still⟩ := Option.isSome_iff_exists.mp (waited.known (by simp [Known, known]))
    have burnt := waited.trans (.claim asked a.claimAt (textOf signed.heartbeat.nonce))
    obtain ⟨last, second⟩ : ∃ last, a.others 1
        (asked.burn (some (a.claimAt, textOf signed.heartbeat.nonce))) = last := ⟨_, rfl⟩
    have later := burnt.trans (second_wait spares second)
    obtain ⟨response, handled⟩ :=
      handleHeartbeat_seen admitted known first recent authentic still second
    rw [answers handled]
    have own : (seen again a.seenAt).registration.operatorAddress = key.address :=
      waited.owned owned again still
    have written := later.trans (.upsert fun _ => own)
    constructor
    case keeps =>
      apply written.weaken
      intro claimed listed
      simp only [List.mem_append, List.mem_singleton, List.not_mem_nil, or_false] at listed
      rw [List.mem_cons, Arrival.claims, List.mem_append]
      rcases listed with (before | same) | after
      · exact .inr (.inl before)
      · exact .inl same
      · exact .inr (.inr after)
    case welcome => exact .inl ⟨rfl, written.known (by simp [Known, known])⟩
    case missing => exact fun _ _ unknown => absurd (by simp [Known, known]) unknown

theorem genuine_handled (member : Member cfg key options node r) {request : Request}
    (genuine : Genuine cfg key options request) {a : Arrival}
    (near : Near request.sentAt a.freshAt) (routable : a.routable = .ok ())
    (ready : (a.usdcOptedIn || !r.config.requireUsdcOptIn) = true)
    (spares : ∀ d ∈ a.first ++ a.second, d.Spares cfg key) (clear : request.nonce ∉ a.claims)
    (accepted : Accepts gate request.nonce) (owned : Owned cfg key gate) :
    Handled cfg key gate a request (handle r cfg gate a request).1
      (handle r cfg gate a request).2 := by
  cases genuine with
  | registration draw valid =>
    rw [nonce_registration] at accepted
    exact registration_handled member valid near routable ready spares accepted owned
  | heartbeat live draw bounded valid =>
    rw [nonce_heartbeat] at accepted clear
    exact heartbeat_handled member bounded valid near spares clear accepted owned

end

namespace Plane

-- The answer of an earlier life says nothing about this one.
def Current (cfg : DaemonConfig) (s : Plane) (life : Nat) : Prop :=
  life ≤ s.life ∧ (life = s.life → Known cfg s.gate)

/-- A nonce that is drawn and on its way is as good as one that nobody has drawn; the node is the
operator's if the gateway knows it, and it does if a success of this life says so. -/
structure Sound (cfg : DaemonConfig) (key : OperatorKey) (options : BuildRegistrationOptions)
    (s : Plane) : Prop where
  unused : ∀ nonce, nonce ∉ s.drawn → nonce ∉ s.taken → Accepts s.gate nonce
  pending : ∀ request ∈ s.inFlight, Genuine cfg key options request ∧
    request.nonce ∈ s.drawn ∧ Accepts s.gate request.nonce
  once : (s.inFlight.map Request.nonce).Nodup
  owned : Owned cfg key s.gate
  answered : ∀ answer ∈ s.answers, (isOk answer.status = true ∧ Current cfg s answer.life) ∨
    (answer.status = 404 ∧ ∃ signed, answer.request = .heartbeat signed)
  joined : ∀ life, s.joined = some life → Current cfg s life
  counted : ∀ signed attempt caller, s.phase = .registering signed attempt caller →
    attempt ≤ defaultMaxAttempts

variable {s : Plane}

theorem accepts_initial (nonce : String) : Accepts .initial nonce := by
  intro now
  rw [Gate.accepts, NonceCache.claim_won, Bool.not_eq_true', ← Bool.not_eq_true]
  intro held
  obtain ⟨since, found, -⟩ := (NonceCache.holds_iff _ _ _).mp held
  cases NonceCache.get?_prune_some found

theorem sound_initial : Sound cfg key options initial where
  unused nonce _ _ := accepts_initial nonce
  pending request member := by cases member
  once := List.nodup_nil
  owned record found := by cases found
  answered answer member := by cases member
  joined life same := by cases same
  counted signed attempt caller same := by cases same

theorem Sound.giveUp (sound : Sound cfg key options s) (caller : Caller) :
    Sound cfg key options (s.giveUp caller) := by
  cases caller with
  | startCommand => exact { sound with counted := fun _ _ _ same => by cases same }
  | heartbeat => exact { sound with counted := fun _ _ _ same => by cases same }

theorem Sound.succeed (sound : Sound cfg key options s) {life : Nat}
    (current : Current cfg s life) : Sound cfg key options (s.succeed life) :=
  { sound with
    joined := fun _ same => Option.some.inj same ▸ current
    counted := fun _ _ _ same => by cases same }

theorem Sound.post (sound : Sound cfg key options s) {draw : Draw} (unused : s.Unused draw)
    {request : Request} (genuine : Genuine cfg key options request)
    (nonce : request.nonce = draw.nonce) {phase : Phase}
    (counted : ∀ signed attempt caller, phase = .registering signed attempt caller →
      attempt ≤ defaultMaxAttempts) : Sound cfg key options (s.post request phase) where
  unused other undrawn free := by
    have before : other ∉ s.drawn := fun drawn => undrawn (List.mem_cons_of_mem _ drawn)
    exact sound.unused other before free
  pending other member := by
    rcases List.mem_append.mp member with earlier | last
    · obtain ⟨made, drawn, accepted⟩ := sound.pending other earlier
      exact ⟨made, List.mem_cons_of_mem _ drawn, accepted⟩
    · rw [List.mem_singleton] at last
      subst last
      refine ⟨genuine, List.mem_cons_self, ?_⟩
      rw [nonce]
      exact sound.unused draw.nonce unused.2.1 unused.2.2
  once := by
    have apart : request.nonce ∉ s.inFlight.map Request.nonce := by
      intro listed
      obtain ⟨other, earlier, same⟩ := List.mem_map.mp listed
      have drawn := (sound.pending other earlier).2.1
      rw [same, nonce] at drawn
      exact unused.2.1 drawn
    change ((s.inFlight ++ [request]).map Request.nonce).Nodup
    rw [List.map_append, List.map_singleton]
    exact sound.once.append (List.nodup_singleton _) (by simpa using apart)
  owned := sound.owned
  answered := sound.answered
  joined := sound.joined
  counted := counted

theorem attemptRegistration_eq (member : Member cfg key options node r) {draw : Draw}
    (valid : draw.valid) (s : Plane) (attempt : Nat) (caller : Caller) :
    s.attemptRegistration r cfg key options attempt caller draw =
      s.post (.registration (registrationOf cfg key options draw))
        (.registering (registrationOf cfg key options draw) attempt caller) := by
  simp only [attemptRegistration, envelope_ok member valid]

theorem beat_eq (s : Plane) (live : HeartbeatSnapshot) (draw : Draw) :
    s.beat cfg key live draw =
      s.post (.heartbeat (heartbeatOf cfg key live draw))
        (.beating (heartbeatOf cfg key live draw)) := by
  simp only [beat, signHeartbeat_ok]

theorem Sound.attemptRegistration (member : Member cfg key options node r)
    (sound : Sound cfg key options s) {draw : Draw} (unused : s.Unused draw) {attempt : Nat}
    (few : attempt ≤ defaultMaxAttempts) (caller : Caller) :
    Sound cfg key options (s.attemptRegistration r cfg key options attempt caller draw) := by
  rw [attemptRegistration_eq member unused.1]
  refine sound.post unused (.registration draw unused.1) (nonce_registration draw) ?_
  intro signed other caller same
  cases same
  exact few

theorem Sound.retry (member : Member cfg key options node r) (sound : Sound cfg key options s)
    {draw : Draw} (unused : s.Unused draw) {attempt : Nat} (few : attempt ≤ defaultMaxAttempts)
    (caller : Caller) :
    Sound cfg key options (s.retry r cfg key options attempt caller draw) := by
  unfold Plane.retry
  split
  next => exact sound.giveUp caller
  next => exact sound.attemptRegistration member unused (by omega) caller

variable (r cfg key options) in
-- What the daemon makes of an answer: a success, or the 404 of its beat.
theorem receive_cases {answer : Answer}
    (welcome : isOk answer.status = true ∨
      (answer.status = 404 ∧ ∃ signed, answer.request = .heartbeat signed))
    (awaited : s.phase.awaited = some answer.request) (draw : Draw) :
    (isOk answer.status = true ∧ s.receive r cfg key options answer draw = s.succeed answer.life) ∨
    (answer.status = 404 ∧ (∃ signed, s.phase = .beating signed) ∧
      s.receive r cfg key options answer draw =
        s.attemptRegistration r cfg key options 1 .heartbeat draw) := by
  unfold receive
  cases phase : s.phase with
  | stopped | idle =>
    rw [phase] at awaited
    cases awaited
  | registering signed attempt caller =>
    rw [phase] at awaited
    have request := Option.some.inj awaited
    rcases welcome with success | ⟨-, other, same⟩
    · exact .inl ⟨success, if_pos success⟩
    · cases request.trans same
  | beating signed =>
    rcases welcome with success | ⟨missing, -⟩
    · exact .inl ⟨success, if_pos success⟩
    · refine .inr ⟨missing, ⟨signed, rfl⟩, ?_⟩
      simp [missing, isOk]

theorem Sound.welcome (sound : Sound cfg key options s) {answer : Answer}
    (member : answer ∈ s.answers) :
    isOk answer.status = true ∨
      (answer.status = 404 ∧ ∃ signed, answer.request = .heartbeat signed) :=
  (sound.answered answer member).imp And.left id

theorem Sound.receive (member : Member cfg key options node r) (sound : Sound cfg key options s)
    {answer : Answer} (listed : answer ∈ s.answers)
    (awaited : s.phase.awaited = some answer.request) {draw : Draw} (unused : s.Unused draw) :
    Sound cfg key options (s.receive r cfg key options answer draw) := by
  rcases receive_cases r cfg key options (sound.welcome listed) awaited draw with
    ⟨success, taken⟩ | ⟨-, -, taken⟩
  · rw [taken]
    rcases sound.answered answer listed with ⟨-, current⟩ | ⟨missing, -⟩
    · exact sound.succeed current
    · rw [missing] at success
      cases success
  · rw [taken]
    exact sound.attemptRegistration member unused (by decide) .heartbeat

theorem Sound.unanswered (member : Member cfg key options node r)
    (sound : Sound cfg key options s) {draw : Draw} (unused : s.Unused draw) {s' : Plane}
    (taken : s.unanswered r cfg key options draw = some s') : Sound cfg key options s' := by
  unfold Plane.unanswered at taken
  split at taken
  next signed attempt caller phase =>
    obtain rfl := Option.some.inj taken
    exact sound.retry member unused (sound.counted signed attempt caller phase) caller
  next =>
    obtain rfl := Option.some.inj taken
    exact sound.giveUp .heartbeat
  next => cases taken

theorem Current.kept {life : Nat} (current : Current cfg s life) {s' : Plane}
    (same : s'.life = s.life) (known : Known cfg s.gate → Known cfg s'.gate) :
    Current cfg s' life := by
  unfold Current at current ⊢
  rw [same]
  exact ⟨current.1, fun now => known (current.2 now)⟩

theorem Current.forgotten {life : Nat} (current : Current cfg s life) {s' : Plane}
    (next : s'.life = s.life + 1) : Current cfg s' life := by
  obtain ⟨earlier, -⟩ := current
  exact ⟨by omega, fun now => by omega⟩

theorem Sound.disturbed (sound : Sound cfg key options s) {d : Disturbance}
    (harmless : s.Harmless cfg key d) :
    Sound cfg key options { s with gate := d.apply s.gate, taken := d.claims ++ s.taken } := by
  obtain ⟨spares, clear⟩ := harmless
  have keeps := Keeps.disturbed s.gate spares
  constructor
  case unused =>
    intro nonce undrawn free
    rw [List.mem_append, not_or] at free
    exact keeps.accepts nonce free.1 (sound.unused nonce undrawn free.2)
  case pending =>
    intro request member
    obtain ⟨genuine, drawn, accepted⟩ := sound.pending request member
    exact ⟨genuine, drawn, keeps.accepts _ (clear request member) accepted⟩
  case once => exact sound.once
  case owned => exact keeps.owned sound.owned
  case answered =>
    intro answer member
    exact (sound.answered answer member).imp (And.imp_right fun now => now.kept rfl keeps.known) id
  case joined => exact fun life same => (sound.joined life same).kept rfl keeps.known
  case counted => exact sound.counted

theorem Sound.lost (sound : Sound cfg key options s) (index : Nat) :
    Sound cfg key options { s with inFlight := s.inFlight.eraseIdx index } := by
  have fewer := List.eraseIdx_sublist s.inFlight index
  exact { sound with
    pending := fun request member => sound.pending request (fewer.subset member)
    once := (fewer.map Request.nonce).nodup sound.once }

theorem Sound.restarted (sound : Sound cfg key options s) :
    Sound cfg key options { s with gate := .initial, life := s.life + 1 } := by
  constructor
  case unused => exact fun nonce _ _ => accepts_initial nonce
  case pending =>
    intro request member
    obtain ⟨genuine, drawn, -⟩ := sound.pending request member
    exact ⟨genuine, drawn, accepts_initial _⟩
  case once => exact sound.once
  case owned =>
    intro record found
    cases found
  case answered =>
    intro answer member
    exact (sound.answered answer member).imp (And.imp_right fun now => now.forgotten rfl) id
  case joined => exact fun life same => (sound.joined life same).forgotten rfl
  case counted => exact sound.counted

-- The nonces of what is left on the way are others.
theorem Sound.apart (sound : Sound cfg key options s) {index : Nat} {request other : Request}
    (arrives : s.inFlight[index]? = some request) (waits : other ∈ s.inFlight.eraseIdx index) :
    other.nonce ≠ request.nonce := by
  obtain ⟨inside, at_index⟩ := List.getElem?_eq_some_iff.mp arrives
  have order := (List.getElem_cons_eraseIdx_perm inside).map Request.nonce
  rw [at_index, List.map_cons] at order
  have alone := (List.nodup_cons.mp (order.nodup_iff.mpr sound.once)).1
  intro same
  exact alone (same ▸ List.mem_map_of_mem waits)

theorem Timely.clear {index : Nat} {a : Arrival} (timely : s.Timely r cfg key index a)
    {request : Request} (listed : request ∈ s.inFlight) : request.nonce ∉ a.claims := by
  intro claimed
  rw [Arrival.claims, ← List.flatMap_append] at claimed
  obtain ⟨d, waits, claims⟩ := List.mem_flatMap.mp claimed
  exact (timely.2.2.2 d waits).2 request listed claims

theorem timely_handled (member : Member cfg key options node r) (sound : Sound cfg key options s)
    {index : Nat} {a : Arrival} (timely : s.Timely r cfg key index a) {request : Request}
    (arrives : s.inFlight[index]? = some request) :
    Handled cfg key s.gate a request (handle r cfg s.gate a request).1
      (handle r cfg s.gate a request).2 := by
  have listed := List.mem_of_getElem? arrives
  have clear := Timely.clear timely listed
  obtain ⟨near, routable, ready, harmless⟩ := timely
  obtain ⟨genuine, -, accepted⟩ := sound.pending request listed
  exact genuine_handled member genuine (near request arrives) routable ready
    (fun d waits => (harmless d waits).1) clear accepted sound.owned

theorem Sound.arrived (member : Member cfg key options node r) (sound : Sound cfg key options s)
    {index : Nat} {a : Arrival} (timely : s.Timely r cfg key index a) {request : Request}
    (arrives : s.inFlight[index]? = some request) :
    Sound cfg key options (s.arrive r cfg index a request) := by
  have handled := timely_handled member sound timely arrives
  have fewer := List.eraseIdx_sublist s.inFlight index
  unfold Plane.arrive
  generalize handle r cfg s.gate a request = outcome at handled ⊢
  obtain ⟨status, later⟩ := outcome
  dsimp only at handled ⊢
  constructor
  case unused =>
    intro nonce undrawn free
    rw [List.mem_append, not_or] at free
    refine handled.keeps.accepts nonce ?_ (sound.unused nonce undrawn free.2)
    rw [List.mem_cons, not_or]
    refine ⟨?_, free.1⟩
    rintro rfl
    exact undrawn (sound.pending request (List.mem_of_getElem? arrives)).2.1
  case pending =>
    intro other waits
    have listed := fewer.subset waits
    obtain ⟨genuine, drawn, accepted⟩ := sound.pending other listed
    refine ⟨genuine, drawn, handled.keeps.accepts _ ?_ accepted⟩
    rw [List.mem_cons, not_or]
    exact ⟨sound.apart arrives waits, Timely.clear timely listed⟩
  case once => exact (fewer.map Request.nonce).nodup sound.once
  case owned => exact handled.keeps.owned sound.owned
  case answered =>
    intro answer listed
    rcases List.mem_cons.mp listed with rfl | earlier
    · exact handled.welcome.imp (And.imp_right fun known => ⟨le_refl _, fun _ => known⟩)
        (And.imp_right And.right)
    · exact (sound.answered answer earlier).imp
        (And.imp_right fun now => now.kept rfl handled.keeps.known) id
  case joined => exact fun life same => (sound.joined life same).kept rfl handled.keeps.known
  case counted => exact sound.counted

theorem answer_found {draw : Draw} {s' : Plane}
    (taken : s.step r cfg key options (.answer draw) = some s') :
    ∃ answer ∈ s.answers, s.phase.awaited = some answer.request ∧
      s' = s.receive r cfg key options answer draw := by
  obtain ⟨answer, found, rfl⟩ := Option.map_eq_some_iff.mp taken
  have awaited := List.find?_some found
  rw [decide_eq_true_eq] at awaited
  exact ⟨answer, List.mem_of_find?_eq_some found, awaited, rfl⟩

theorem step_sound (member : Member cfg key options node r) (sound : Sound cfg key options s)
    {action : Action} {s' : Plane} (ok : s.allowed r cfg key action)
    (taken : s.step r cfg key options action = some s') : Sound cfg key options s' := by
  cases action with
  | start draw =>
    simp only [step] at taken
    split at taken
    next =>
      obtain rfl := Option.some.inj taken
      exact sound.attemptRegistration member ok (by decide) .startCommand
    next => cases taken
  | beat live draw =>
    simp only [step] at taken
    split at taken
    next =>
      obtain rfl := Option.some.inj taken
      rw [beat_eq]
      exact sound.post ok.1 (.heartbeat live draw ok.2 ok.1.1) (nonce_heartbeat live draw)
        fun _ _ _ same => by cases same
    next => cases taken
  | arrive index a =>
    obtain ⟨request, arrives, rfl⟩ := Option.map_eq_some_iff.mp taken
    exact sound.arrived member ok arrives
  | lose index =>
    obtain rfl := Option.some.inj taken
    exact sound.lost index
  | answer draw =>
    obtain ⟨answer, listed, awaited, rfl⟩ := answer_found taken
    exact sound.receive member listed awaited ok
  | unanswered draw => exact sound.unanswered member ok taken
  | disturb d =>
    obtain rfl := Option.some.inj taken
    exact sound.disturbed ok
  | restart =>
    obtain rfl := Option.some.inj taken
    exact sound.restarted

theorem run_sound (member : Member cfg key options node r)
    (run : Run (step r cfg key options) (allowed r cfg key) initial s) :
    Sound cfg key options s :=
  run.invariant sound_initial fun _ _ _ sound ok taken => step_sound member sound ok taken

def Registered (cfg : DaemonConfig) (key : OperatorKey) (s : Plane) : Prop :=
  ∃ record, s.gate.store.get cfg.nodeId = some record ∧
    record.registration.operatorAddress = key.address

theorem Sound.registered (sound : Sound cfg key options s) (known : Known cfg s.gate) :
    Registered cfg key s := by
  obtain ⟨record, found⟩ := Option.isSome_iff_exists.mp known
  exact ⟨record, found, sound.owned record found⟩

theorem daemon_joins (member : Member cfg key options node r)
    (run : Run (step r cfg key options) (allowed r cfg key) initial s) :
    (∀ answer ∈ s.answers, isOk answer.status = true ∨
      (answer.status = 404 ∧ ∃ signed, answer.request = .heartbeat signed)) ∧
    (s.joined = some s.life → Registered cfg key s) ∧
    (∀ index a request s', s.inFlight[index]? = some request → s.Timely r cfg key index a →
      s.step r cfg key options (.arrive index a) = some s' →
      ∃ answer ∈ s'.answers, answer.request = request ∧ answer.life = s'.life ∧
        ((isOk answer.status = true ∧ Registered cfg key s') ∨ answer.status = 404) ∧
        (answer.status = 404 ↔
          s.gate.store.get cfg.nodeId = none ∧ ∃ signed, request = .heartbeat signed)) ∧
    ∀ draw s', s.Unused draw → s.step r cfg key options (.answer draw) = some s' →
      (s'.phase = .idle ∧ s'.consecutiveFailures = 0) ∨
      ∃ beat signed, s.phase = .beating beat ∧ s'.phase = .registering signed 1 .heartbeat ∧
        .registration signed ∈ s'.inFlight ∧ signed.registration.record.nonce = draw.nonce := by
  have sound := run_sound member run
  refine ⟨fun answer listed => sound.welcome listed, ?_, ?_, ?_⟩
  · intro joined
    exact sound.registered ((sound.joined s.life joined).2 rfl)
  · intro index a request s' arrives timely taken
    obtain ⟨_, same, rfl⟩ := Option.map_eq_some_iff.mp taken
    obtain rfl := Option.some.inj (arrives.symm.trans same)
    have handled := timely_handled member sound timely arrives
    have later := sound.arrived member timely arrives
    have forgotten : ¬ Known cfg s.gate ↔ s.gate.store.get cfg.nodeId = none := by
      simp [Known]
    refine ⟨_, List.mem_cons_self, rfl, rfl, ?_, ?_⟩
    · rcases handled.welcome with ⟨success, known⟩ | ⟨missing, -⟩
      · exact .inl ⟨success, later.registered known⟩
      · exact .inr missing
    · constructor
      · intro (missing : (handle r cfg s.gate a request).1 = 404)
        rcases handled.welcome with ⟨success, -⟩ | ⟨-, unknown, beat⟩
        · rw [missing] at success
          cases success
        · exact ⟨forgotten.mp unknown, beat⟩
      · rintro ⟨unknown, signed, beat⟩
        exact handled.missing signed beat (forgotten.mpr unknown)
  · intro draw s' unused taken
    obtain ⟨answer, listed, awaited, rfl⟩ := answer_found taken
    rcases receive_cases r cfg key options (sound.welcome listed) awaited draw with
      ⟨-, same⟩ | ⟨-, ⟨beat, beating⟩, same⟩
    · rw [same]
      exact .inl ⟨rfl, rfl⟩
    · rw [same, attemptRegistration_eq member unused.1]
      exact .inr ⟨beat, _, beating, rfl, List.mem_append_right _ (List.mem_singleton_self _),
        nonce_registration draw⟩

theorem step_start (member : Member cfg key options node r) (phase : s.phase = .stopped)
    {draw : Draw} (valid : draw.valid) :
    s.step r cfg key options (.start draw) =
      some (s.post (.registration (registrationOf cfg key options draw))
        (.registering (registrationOf cfg key options draw) 1 .startCommand)) := by
  simp only [step, phase, attemptRegistration_eq member valid]

theorem step_unanswered (member : Member cfg key options node r) {signed : SignedRegistration}
    {attempt : Nat} {caller : Caller} (phase : s.phase = .registering signed attempt caller)
    (more : attempt ≠ defaultMaxAttempts) {draw : Draw} (valid : draw.valid) :
    s.step r cfg key options (.unanswered draw) =
      some (s.post (.registration (registrationOf cfg key options draw))
        (.registering (registrationOf cfg key options draw) (attempt + 1) caller)) := by
  simp only [step, unanswered, phase, retry, more, if_false, attemptRegistration_eq member valid]

variable (r cfg key options) in
theorem step_answer {signed : SignedRegistration} {attempt : Nat} {caller : Caller}
    (phase : s.phase = .registering signed attempt caller) {answer : Answer} {rest : List Answer}
    (listed : s.answers = answer :: rest) (same : answer.request = .registration signed)
    (success : isOk answer.status = true) (draw : Draw) :
    s.step r cfg key options (.answer draw) = some (s.succeed answer.life) := by
  have found : (s.answers.find? fun answer => s.phase.awaited = some answer.request) =
      some answer := by
    rw [listed]
    exact List.find?_cons_of_pos (by simp [phase, Phase.awaited, same])
  have taken : s.receive r cfg key options answer draw = s.succeed answer.life := by
    simp only [receive, phase, success, if_true]
  simp only [step, found, Option.map_some, taken]

-- A registration that is alone on its way arrives, and its answer is read.
theorem Sound.exchange (member : Member cfg key options node r) (sound : Sound cfg key options s)
    {signed : SignedRegistration} {attempt : Nat} {caller : Caller}
    (phase : s.phase = .registering signed attempt caller)
    (waits : s.inFlight = [.registration signed]) {a : Arrival}
    (timely : s.Timely r cfg key 0 a) (draw : Draw) :
    ∃ later, s.step r cfg key options (.arrive 0 a) = some later ∧ later.life = s.life ∧
      later.drawn = s.drawn ∧ later.taken = a.claims ++ s.taken ∧
      later.step r cfg key options (.answer draw) = some (later.succeed s.life) := by
  have arrives : s.inFlight[0]? = some (.registration signed) := by
    rw [waits]
    rfl
  have handled := timely_handled member sound timely arrives
  have success : isOk (handle r cfg s.gate a (.registration signed)).1 = true := by
    rcases handled.welcome with ⟨success, -⟩ | ⟨-, -, other, same⟩
    · exact success
    · cases same
  refine ⟨s.arrive r cfg 0 a (.registration signed), ?_, rfl, rfl, rfl, ?_⟩
  · simp only [step, arrives, Option.map_some]
  · have still : (s.arrive r cfg 0 a (.registration signed)).phase =
        .registering signed attempt caller := phase
    exact step_answer r cfg key options still rfl rfl success draw

def joiningSeed : List UInt8 := (List.range 32).map UInt8.ofNat

def joiningPublicKey : List UInt8 :=
  [3, 161, 7, 191, 243, 206, 16, 190, 29, 112, 221, 24, 231, 75, 192, 153, 103, 228, 214, 48, 155,
    165, 13, 95, 29, 220, 134, 100, 18, 85, 49, 184]

def joiningDigest : List UInt8 :=
  [246, 94, 15, 232, 26, 22, 43, 27, 34, 9, 169, 36, 151, 158, 182, 151, 179, 102, 144, 165, 36, 79,
    126, 27, 67, 217, 174, 60, 199, 151, 20, 100]

def joiningAddress : String := "AOQQPP7TZYIL4HLQ3UMOOS6ATFT6JVRQTOSQ2XY53SDGIESVGG4MPFYUMQ"

def joiningSecret : String :=
  "AAECAwQFBgcICQoLDA0ODxAREhMUFRYXGBkaGxwdHh8DoQe/884Qvh1w3RjnS8CZZ+TWMJulDV8d3IZkElUxuA=="

theorem joiningConcurrency_small : 8 < 2 ^ 53 := by decide

def joiningConfig : DaemonConfig where
  nodeId := "node-a"
  endpoint := "https://node-a.example"
  models := ["llama3.1:8b"]
  network := testnet
  maxConcurrency := JsNumber.whole 8 joiningConcurrency_small

def joiningOptions : BuildRegistrationOptions := ⟨none, none, none, none⟩

def joiningDraw (now : Nat) (small : now < 2 ^ 53) (random : List UInt8) : Draw :=
  ⟨JsNumber.whole now small, random⟩

theorem firstDraw_small : 1700000000000 < 2 ^ 53 := by decide

def firstDraw : Draw :=
  joiningDraw 1700000000000 firstDraw_small
    [0x00, 0x11, 0x22, 0x33, 0x44, 0x55, 0x66, 0x77, 0x88, 0x99, 0xaa, 0xbb, 0xcc, 0xdd, 0xee, 0xff]

theorem secondDraw_small : 1700000001000 < 2 ^ 53 := by decide

def secondDraw : Draw :=
  joiningDraw 1700000001000 secondDraw_small
    [0xff, 0xee, 0xdd, 0xcc, 0xbb, 0xaa, 0x99, 0x88, 0x77, 0x66, 0x55, 0x44, 0x33, 0x22, 0x11, 0x00]

-- Of a key, the fields have the address alone.
def joiningFields (draw : Draw) : RegistrationFields :=
  registrationFields joiningConfig ⟨joiningAddress, joiningPublicKey, "", fun _ => []⟩
    joiningOptions (capabilitiesOf joiningConfig joiningOptions) draw

def firstSeal : String :=
  "ighK1bxLg4OD8zn0GOvsosUYtCR2BaRABBuhSgBLQik7f4/jwBMsGBvlOg9kNtTuC1f/fvPOjT9PfyjT7vPOCQ=="

def secondSeal : String :=
  "YcxpJfxMI0D+Mp2JfAVmQNvyLV0j4pufhFz7YtV/ZHrqRGYK6g7ICIsckIrzwi+5Bu/ZXUVOppDUibMV9SWCCQ=="

-- Ed25519 on the two messages of the operator.
def joiningSign (message : ByteArray) : List UInt8 :=
  if message.data = (signedText registrationDomain (joiningFields firstDraw).json).data then
    fromBase64 firstSeal.toList
  else if message.data = (signedText registrationDomain (joiningFields secondDraw).json).data then
    fromBase64 secondSeal.toList
  else List.replicate 64 0

theorem length_joiningSign (message : ByteArray) : (joiningSign message).length = 64 := by
  unfold joiningSign
  split
  next => decide +kernel
  next =>
    split
    next => decide +kernel
    next => rfl

def joiningNode : NodeCrypto where
  publicKeyOf seed := if seed = joiningSeed then some joiningPublicKey else none
  sign _ := joiningSign
  sha512_256 bytes := if bytes = joiningPublicKey then joiningDigest else List.replicate 32 0

def joiningKey : OperatorKey :=
  ⟨joiningAddress, joiningPublicKey, toBase64 joiningPublicKey, joiningSign⟩

def joiningRoutes : Routes where
  config := { demoMesh with network := testnet }
  sdk := demoSdk
  crypto := {
    decodeAddress := fun address =>
      if address = joiningAddress then some (octets joiningPublicKey) else none
    createPublicKey := fun key => key.length = 44
    verify := fun key message signature => key = spki (octets joiningPublicKey) &&
      signature = octets (joiningSign message) }

theorem joining_address :
    Keys.algorandAddressFromPublicKey joiningNode.sha512_256 joiningPublicKey =
      .ok joiningAddress := by
  decide +kernel

theorem joining_usable : joiningNode.publicKeyOf joiningSeed = some joiningPublicKey := by
  change (if joiningSeed = joiningSeed then some joiningPublicKey else none) = _
  exact if_pos rfl

theorem joining_loads : loadOperatorKey joiningNode joiningSecret = .ok joiningKey := by
  have decoded : decodeBase64Exact joiningSecret algorandSecretKeyBytes "AVM_PRIVATE_KEY" =
      .ok (joiningSeed ++ joiningPublicKey) := by
    decide +kernel
  exact loadOperatorKey_ok decoded rfl joining_usable joining_address

theorem joining_trusted : Trusted joiningNode joiningRoutes.crypto := by
  have only {seed key : List UInt8} (usable : joiningNode.publicKeyOf seed = some key) :
      seed = joiningSeed ∧ key = joiningPublicKey := by
    obtain ⟨same, known⟩ := Option.ite_none_right_eq_some.mp usable
    exact ⟨same, (Option.some.inj known).symm⟩
  constructor
  case imports =>
    intro seed key usable
    obtain ⟨-, rfl⟩ := only usable
    exact ⟨rfl, rfl⟩
  case signs =>
    intro seed message
    exact length_joiningSign message
  case verifies =>
    intro seed key message usable
    obtain ⟨rfl, rfl⟩ := only usable
    have same : joiningNode.sign joiningSeed message = joiningSign message := rfl
    simp [joiningRoutes, same]
  case decodes =>
    intro seed key address usable derived
    obtain ⟨-, rfl⟩ := only usable
    rw [joining_address] at derived
    obtain rfl := Except.ok.inj derived
    simp [joiningRoutes]

theorem joining_member :
    Member joiningConfig joiningKey joiningOptions joiningNode joiningRoutes where
  trusted := joining_trusted
  loads := ⟨joiningSecret, joining_loads⟩
  advertisable := by decide +kernel
  canonical := by decide
  network := rfl

def joiningRegistration (draw : Draw) : SignedRegistration :=
  registrationOf joiningConfig joiningKey joiningOptions draw

def joiningArrival : Arrival where
  freshAt := 1700000001500
  claimAt := 1700000001500
  seenAt := 1700000001500
  routable := .ok ()
  usdcOptedIn := true
  first := []
  second := []

def thirdDraw : Draw :=
  joiningDraw 1700000002000 (by decide) (List.replicate 16 0)

def sentPlane : Plane :=
  initial.post (.registration (joiningRegistration firstDraw))
    (.registering (joiningRegistration firstDraw) 1 .startCommand)

-- The first registration is lost, no answer comes, and the second is on its way.
def retriedPlane : Plane :=
  { sentPlane with inFlight := [] }.post (.registration (joiningRegistration secondDraw))
    (.registering (joiningRegistration secondDraw) 2 .startCommand)

theorem sentPlane_drawn : sentPlane.drawn = [firstDraw.nonce] :=
  congrArg (· :: []) (nonce_registration firstDraw)

theorem retriedPlane_drawn : retriedPlane.drawn = [secondDraw.nonce, firstDraw.nonce] :=
  congrArg₂ (· :: ·) (nonce_registration secondDraw) sentPlane_drawn

theorem retriedPlane_reached :
    Run (step joiningRoutes joiningConfig joiningKey joiningOptions)
      (allowed joiningRoutes joiningConfig joiningKey) initial retriedPlane := by
  have first : initial.Unused firstDraw := by
    refine ⟨by decide +kernel, ?_, ?_⟩ <;> exact List.not_mem_nil
  have starts := step_start joining_member (s := initial) rfl first.1
  have loses : sentPlane.step joiningRoutes joiningConfig joiningKey joiningOptions (.lose 0) =
      some { sentPlane with inFlight := [] } := rfl
  have second : Unused { sentPlane with inFlight := [] } secondDraw := by
    refine ⟨by decide +kernel, ?_, List.not_mem_nil⟩
    change secondDraw.nonce ∉ sentPlane.drawn
    rw [sentPlane_drawn]
    decide +kernel
  have waiting : Plane.phase { sentPlane with inFlight := [] } =
      .registering (joiningRegistration firstDraw) 1 .startCommand := rfl
  have retries := step_unanswered joining_member waiting (by decide) second.1
  have sent : Run (step joiningRoutes joiningConfig joiningKey joiningOptions)
      (allowed joiningRoutes joiningConfig joiningKey) initial sentPlane :=
    Run.single (a := Action.start firstDraw) first starts
  have lost := Run.tail (a := Action.lose 0) sent trivial loses
  exact Run.tail (a := Action.unanswered secondDraw) lost second retries

-- The second attempt gets through.
theorem daemon_joins_retried :
    ∃ s, Run (step joiningRoutes joiningConfig joiningKey joiningOptions)
        (allowed joiningRoutes joiningConfig joiningKey) initial s ∧
      s.phase.awaited = none ∧ Registered joiningConfig joiningKey s := by
  have sound := run_sound joining_member retriedPlane_reached
  have timely : retriedPlane.Timely joiningRoutes joiningConfig joiningKey 0 joiningArrival := by
    refine ⟨?_, rfl, rfl, by simp [joiningArrival]⟩
    intro request arrives
    obtain rfl := Option.some.inj arrives
    have sent : (Request.registration (joiningRegistration secondDraw)).sentAt =
        1700000001000 := rfl
    rw [sent]
    unfold Near
    decide
  obtain ⟨later, arrives, life, drawn, taken, answers⟩ :=
    sound.exchange joining_member rfl rfl timely thirdDraw
  have unused : later.Unused thirdDraw := by
    rw [Unused, drawn, taken, retriedPlane_drawn]
    decide +kernel
  have run : Run (step joiningRoutes joiningConfig joiningKey joiningOptions)
      (allowed joiningRoutes joiningConfig joiningKey) initial (later.succeed 0) :=
    have arrived :=
      Run.tail (a := Action.arrive 0 joiningArrival) retriedPlane_reached timely arrives
    arrived.tail (a := Action.answer thirdDraw) unused answers
  have joined : (later.succeed 0).joined = some (later.succeed 0).life := by
    change some 0 = some later.life
    rw [life]
    rfl
  exact ⟨_, run, rfl, (daemon_joins joining_member run).2.1 joined⟩

end Plane

end X402Mesh.NodeDaemon
