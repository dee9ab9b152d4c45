import X402Mesh.Gateway.Requests

set_option autoImplicit false

-- Anyone may sign anything with a key of its own, and post anything that it has seen or made up, in
-- any order. A signature that verifies was made by the owner of the key. Requests are handled one
-- at a time.

namespace X402Mesh.Gateway

open JsonText Registry

-- `signed` has what was ever signed: with which key, over which bytes, and the signature.
structure Traffic where
  gate : Gate
  signed : List (List Nat × ByteArray × List Nat)

inductive TrafficAction
  | sign (key : List Nat) (message : ByteArray) (signature : List Nat)
  | register (q : Registering)
  | heartbeat (q : Beating)
  | recordOutcome (nodeId : String) (o : ReportedOutcome)
  | beginRequest (nodeId : String)
  | endRequest (nodeId : String)

-- No other handler runs while this one waits.
def TrafficAction.alone : TrafficAction → Prop
  | .register q => q.others = fun _ => id
  | .heartbeat q => q.others = fun _ => id
  | _ => True

variable (r : Routes)

namespace Traffic

def initial : Traffic := ⟨.initial, []⟩

def withStore (s : Traffic) (store : MemoryNodeStore) : Traffic :=
  { s with gate := { s.gate with store := store } }

def step (s : Traffic) : TrafficAction → Option Traffic
  | .sign key message signature => some { s with signed := (key, message, signature) :: s.signed }
  | .register q => some { s with gate := (r.handleRegister s.gate q).2 }
  | .heartbeat q => some { s with gate := (r.handleHeartbeat s.gate q).2 }
  | .recordOutcome nodeId o => some (s.withStore (s.gate.store.recordOutcome nodeId o))
  | .beginRequest nodeId => some (s.withStore (s.gate.store.beginRequest nodeId))
  | .endRequest nodeId => some (s.withStore (s.gate.store.endRequest nodeId))

def Unforged (s : Traffic) (signature : String) : Prop :=
  ∀ key message, r.crypto.verify (spki key) message (Base64.decode signature.toList) = true →
    (key, message, Base64.decode signature.toList) ∈ s.signed

def allowed (s : Traffic) : TrafficAction → Prop
  | .register q => (q.others = fun _ => id) ∧
    ∀ signed, r.admitRegistration q = .ok signed → s.Unforged r signed.signature
  | .heartbeat q => (q.others = fun _ => id) ∧
    ∀ signed, Routes.admitHeartbeat q = .ok signed → s.Unforged r signed.signature
  | _ => True

-- The owner of the address signed the bytes.
def Signed (s : Traffic) (address : String) (message : ByteArray) : Prop :=
  ∃ key signature, r.crypto.decodeAddress address = some key ∧ (key, message, signature) ∈ s.signed

end Traffic

def Near (timestamp : Nat) (clock : Int) : Prop := ((timestamp : Int) - clock).natAbs ≤ 120000

def RegistrationFor (nodeId : String) (clock : Int) (message : ByteArray) : Prop :=
  ∃ f : RegistrationFields, f.wellFormed r.sdk = true ∧
    canonicalRegistrationBytes r.sdk f.value = .ok message ∧ f.nodeId = js nodeId ∧
    Near f.timestamp.toNat clock

def HeartbeatFor (nodeId : String) (clock : Int) (message : ByteArray) : Prop :=
  ∃ g : HeartbeatFields, g.wellFormed = true ∧ canonicalHeartbeatBytes g.value = .ok message ∧
    g.nodeId = js nodeId ∧ Near g.timestamp.toNat clock

theorem assertFreshTimestamp_near {timestamp : Nat} {clock : Int}
    (fresh : assertFreshTimestamp timestamp clock = .ok ()) : Near timestamp clock := by
  unfold assertFreshTimestamp at fresh
  dsimp only at fresh
  split at fresh
  next => cases fresh
  next inside =>
    simp only [registrationMaxSkewMs] at inside
    unfold Near
    omega

theorem bind_ok {α β : Type} {x : Except MeshError α} {f : α → Except MeshError β} {b : β}
    (taken : (x >>= f) = .ok b) : ∃ a, x = .ok a ∧ f a = .ok b := by
  cases x with
  | error e => cases taken
  | ok a => exact ⟨a, rfl, taken⟩

namespace Routes

theorem admitRegistration_cases {q : Registering} {signed : SignedRegistration}
    (admitted : r.admitRegistration q = .ok signed) :
    parseSignedRegistration r.sdk q.body = some signed ∧
      assertFreshTimestamp signed.registration.record.timestamp q.freshAt = .ok () := by
  obtain ⟨parsed, parses, later⟩ := bind_ok admitted
  obtain ⟨⟨⟩, fresh, same⟩ := bind_ok later
  obtain rfl := Except.ok.inj same
  refine ⟨?_, fresh⟩
  unfold parseOrThrow at parses
  split at parses
  next found => rw [found, Except.ok.inj parses]
  next => cases parses

theorem authenticRegistration_cases {signed : SignedRegistration} {unused : Bool}
    (authentic : r.authenticRegistration signed unused = .ok ()) :
    r.verifyRegistrationSignature signed = .ok () := by
  cases unused with
  | false =>
    rw [authenticRegistration_used] at authentic
    cases authentic
  | true =>
    rw [authenticRegistration_unused] at authentic
    obtain ⟨⟨⟩, verified, -⟩ := bind_ok authentic
    exact verified

theorem settledRegistration_cases {q : Registering} {store : MemoryNodeStore}
    {registration : NodeRegistration} {existing : Option NodeRecord}
    (settled : r.settledRegistration q store registration = .ok existing) :
    existing = store.get registration.nodeId ∧
      ∀ known, store.get registration.nodeId = some known →
        known.registration.operatorAddress = registration.operatorAddress := by
  obtain ⟨⟨⟩, -, opted⟩ := bind_ok settled
  obtain ⟨⟨⟩, -, asked⟩ := bind_ok opted
  obtain ⟨⟨⟩, owned, same⟩ := bind_ok asked
  refine ⟨(Except.ok.inj same).symm, ?_⟩
  intro known found
  unfold checkOwner at owned
  split at owned
  next => cases owned
  next own =>
    rw [found] at own
    simpa using own

theorem waits_alone {others : Nat → Gate → Gate} (alone : others = fun _ => id)
    {wait : Gate → Gate} (waits : Waits others wait) : wait = id := by
  subst alone
  exact waits.elim (fun still => still) fun other => other

theorem handleRegister_cases (gate : Gate) (q : Registering) (alone : q.others = fun _ => id) :
    ((r.handleRegister gate q).1.isOk = false ∧ (r.handleRegister gate q).2.store = gate.store) ∨
    ∃ signed, r.admitRegistration q = .ok signed ∧
      r.verifyRegistrationSignature signed = .ok () ∧
      (∀ known, gate.store.get signed.registration.record.nodeId = some known →
        known.registration.operatorAddress = signed.registration.record.operatorAddress) ∧
      (r.handleRegister gate q).2.store = gate.store.upsert
        (buildRecord r.config signed.registration.record
          (gate.store.get signed.registration.record.nodeId) q.usdcOptedIn q.seenAt) := by
  cases answered : (r.handleRegister gate q).1 with
  | error e =>
    obtain ⟨wait, waits, left⟩ := r.handleRegister_refused answered
    rw [left, waits_alone alone waits, id, Gate.burn_store]
    exact .inl ⟨rfl, rfl⟩
  | ok response =>
    right
    unfold handleRegister at answered ⊢
    cases admitted : r.admitRegistration q with
    | error =>
      rw [admitted] at answered
      cases answered
    | ok signed =>
      simp only [admitted] at answered ⊢
      cases authentic : r.authenticRegistration signed
          (gate.nonces.claim q.claimAt signed.registration.record.nonce).1 with
      | error =>
        rw [authentic] at answered
        cases answered
      | ok =>
        simp only [authentic, alone, id] at answered ⊢
        cases settled : r.settledRegistration q gate.store signed.registration.record with
        | error =>
          rw [settled] at answered
          cases answered
        | ok existing =>
          obtain ⟨read, owned⟩ := r.settledRegistration_cases settled
          exact ⟨signed, rfl, r.authenticRegistration_cases authentic, owned, by rw [read]⟩

theorem admitHeartbeat_cases {q : Beating} {signed : SignedHeartbeat}
    (admitted : admitHeartbeat q = .ok signed) :
    ∃ body, parseSignedHeartbeat body = some signed ∧ (body = q.body ∨ body = .object []) := by
  unfold admitHeartbeat at admitted
  by_cases unnamed : q.id.isEmpty = true
  · simp [unnamed, bind, Except.bind, throw, throwThe, MonadExceptOf.throw] at admitted
  · simp only [unnamed, Bool.false_eq_true, if_false, bind, Except.bind] at admitted
    unfold parseOrThrow at admitted
    split at admitted
    next parsed =>
      obtain rfl := Except.ok.inj admitted
      refine ⟨_, parsed, ?_⟩
      cases q.body <;> simp
    next => cases admitted

theorem admitHeartbeat_wellFormed {q : Beating} {signed : SignedHeartbeat}
    (admitted : admitHeartbeat q = .ok signed) : signed.heartbeat.wellFormed = true := by
  obtain ⟨body, parsed, -⟩ := admitHeartbeat_cases admitted
  exact (parseSignedHeartbeat_cases parsed).2.2

theorem authenticHeartbeat_cases {q : Beating} {signed : SignedHeartbeat} {existing : NodeRecord}
    {unused : Bool} (authentic : r.authenticHeartbeat q signed existing unused = .ok ()) :
    r.verifyHeartbeatSignature signed existing.registration.operatorAddress = .ok () := by
  cases unused with
  | false => cases authentic
  | true => exact (r.authenticHeartbeat_unused q signed existing).symm.trans authentic

theorem freshHeartbeat_cases {q : Beating} {signed : SignedHeartbeat}
    (fresh : freshHeartbeat q signed = .ok ()) :
    signed.heartbeat.nodeId = js q.id ∧
      assertFreshTimestamp signed.heartbeat.timestamp.toNat q.freshAt = .ok () := by
  by_cases same : signed.heartbeat.nodeId = js q.id
  · refine ⟨same, ?_⟩
    simpa [freshHeartbeat, same, bind, Except.bind] using fresh
  · simp [freshHeartbeat, same, bind, Except.bind, throw, throwThe, MonadExceptOf.throw] at fresh

theorem handleHeartbeat_cases (gate : Gate) (q : Beating) (alone : q.others = fun _ => id) :
    ((r.handleHeartbeat gate q).1.isOk = false ∧ (r.handleHeartbeat gate q).2.store = gate.store) ∨
    ∃ signed existing, admitHeartbeat q = .ok signed ∧ gate.store.get q.id = some existing ∧
      freshHeartbeat q signed = .ok () ∧
      r.verifyHeartbeatSignature signed existing.registration.operatorAddress = .ok () ∧
      (r.handleHeartbeat gate q).2.store = gate.store.upsert (seen existing q.seenAt) := by
  cases answered : (r.handleHeartbeat gate q).1 with
  | error e =>
    obtain ⟨wait, waits, left⟩ := r.handleHeartbeat_refused answered
    rw [left, waits_alone alone waits, id, Gate.burn_store]
    exact .inl ⟨rfl, rfl⟩
  | ok response =>
    right
    unfold handleHeartbeat at answered ⊢
    cases admitted : admitHeartbeat q with
    | error =>
      rw [admitted] at answered
      cases answered
    | ok signed =>
      simp only [admitted] at answered ⊢
      cases known : gate.store.get q.id with
      | none =>
        rw [known] at answered
        cases answered
      | some existing =>
        simp only [known, alone, id] at answered ⊢
        cases fresh : freshHeartbeat q signed with
        | error =>
          rw [fresh] at answered
          cases answered
        | ok =>
          simp only [fresh] at answered ⊢
          cases authentic : r.authenticHeartbeat q signed existing
              (gate.nonces.claim q.claimAt (textOf signed.heartbeat.nonce)).1 with
          | error =>
            rw [authentic] at answered
            cases answered
          | ok =>
            exact ⟨signed, existing, rfl, rfl, fresh, r.authenticHeartbeat_cases authentic, rfl⟩

end Routes

theorem signed_of_verified {s : Traffic} {signature : String} (unforged : s.Unforged r signature)
    {address : String} {message : ByteArray}
    (verified : Verified r.crypto address signature message) : s.Signed r address message := by
  obtain ⟨key, decoded, verifies⟩ := verified
  exact ⟨key, _, decoded, unforged key message verifies⟩

theorem registration_vouched {s : Traffic} {q : Registering} {signed : SignedRegistration}
    (ok : s.allowed r (.register q)) (admitted : r.admitRegistration q = .ok signed)
    (verified : r.verifyRegistrationSignature signed = .ok ()) :
    ∃ message, RegistrationFor r signed.registration.record.nodeId q.freshAt message ∧
      s.Signed r signed.registration.record.operatorAddress message := by
  obtain ⟨parsed, fresh⟩ := r.admitRegistration_cases admitted
  unfold Routes.verifyRegistrationSignature at verified
  obtain ⟨message, bytes, genuine⟩ := verifyEnvelope_ok verified
  have wellFormed := (parseSignedRegistration_cases r.sdk parsed).2.2
  have named : signed.registration.nodeId = js signed.registration.record.nodeId := by
    simp only [RegistrationFields.wellFormed, Bool.and_eq_true] at wellFormed
    exact matching_js wellFormed.1.1.1.1.1.1.1.1.1.1
  have stamped : signed.registration.record.timestamp = signed.registration.timestamp.toNat := rfl
  rw [stamped] at fresh
  have near := assertFreshTimestamp_near fresh
  exact ⟨message, ⟨signed.registration, wellFormed, bytes, named, near⟩,
    signed_of_verified r (ok.2 signed admitted) genuine⟩

theorem heartbeat_vouched {s : Traffic} {q : Beating} {signed : SignedHeartbeat} {address : String}
    (ok : s.allowed r (.heartbeat q)) (admitted : Routes.admitHeartbeat q = .ok signed)
    (fresh : Routes.freshHeartbeat q signed = .ok ())
    (verified : r.verifyHeartbeatSignature signed address = .ok ()) :
    ∃ message, HeartbeatFor q.id q.freshAt message ∧ s.Signed r address message := by
  obtain ⟨named, recent⟩ := Routes.freshHeartbeat_cases fresh
  unfold Routes.verifyHeartbeatSignature at verified
  obtain ⟨message, bytes, genuine⟩ := verifyEnvelope_ok verified
  have wellFormed := Routes.admitHeartbeat_wellFormed admitted
  exact ⟨message, ⟨signed.heartbeat, wellFormed, bytes, named, assertFreshTimestamp_near recent⟩,
    signed_of_verified r (ok.2 signed admitted) genuine⟩

-- No bytes are those of a registration and of a heartbeat.
theorem registration_not_heartbeat {nodeId nodeId' : String} {clock clock' : Int}
    {message : ByteArray} (registration : RegistrationFor r nodeId clock message)
    (heartbeat : HeartbeatFor nodeId' clock' message) : False := by
  obtain ⟨f, formed, bytes, -, -⟩ := registration
  obtain ⟨g, passes, bytes', -, -⟩ := heartbeat
  have differ := (canonical_bytes_faithful r.sdk).2.2.1 f.value g.value f g
    ⟨readRegistration_value f, formed⟩ ⟨readHeartbeat_value g, passes⟩
  exact differ (bytes.trans bytes'.symm)

def Keyed (store : MemoryNodeStore) : Prop :=
  ∀ nodeId record, store.get nodeId = some record → record.registration.nodeId = nodeId

theorem Keyed.upsert {store : MemoryNodeStore} (keyed : Keyed store) (record : NodeRecord) :
    Keyed (store.upsert record) := by
  intro nodeId stored found
  rw [MemoryNodeStore.get_upsert] at found
  split at found
  next own =>
    rw [← Option.some.inj found, (mergeRecord_registration _ _ _).1, own]
  next => exact keyed nodeId stored found

theorem Keyed.recordOutcome {store : MemoryNodeStore} (keyed : Keyed store) (nodeId : String)
    (o : ReportedOutcome) : Keyed (store.recordOutcome nodeId o) := by
  intro other record found
  rw [MemoryNodeStore.get_recordOutcome] at found
  split at found
  next same =>
    obtain ⟨before, known, rfl⟩ := Option.map_eq_some_iff.mp found
    exact (keyed nodeId before known).trans same.symm
  next => exact keyed other record found

theorem Keyed.setInFlight {store : MemoryNodeStore} (keyed : Keyed store) (nodeId : String)
    (revise : Nat → Nat) : Keyed (store.setInFlight nodeId revise) := by
  intro other record found
  rw [MemoryNodeStore.get_setInFlight] at found
  split at found
  next same =>
    obtain ⟨before, known, rfl⟩ := Option.map_eq_some_iff.mp found
    exact (keyed nodeId before known).trans same.symm
  next => exact keyed other record found

theorem upserted (store : MemoryNodeStore) {record : NodeRecord} {nodeId : String}
    (own : record.registration.nodeId = nodeId) :
    ∃ after, (store.upsert record).get nodeId = some after ∧
      record.health.lastSeenAt ≤ after.health.lastSeenAt := by
  refine ⟨_, (store.get_upsert record nodeId).trans (if_pos own.symm), ?_⟩
  exact mergeRecord_seen _ _ _

namespace Traffic

theorem allowed_alone {s : Traffic} {a : TrafficAction} (ok : s.allowed r a) : a.alone := by
  cases a with
  | register q => exact ok.1
  | heartbeat q => exact ok.1
  | _ => trivial

theorem step_keyed {s s' : Traffic} {a : TrafficAction} (keyed : Keyed s.gate.store)
    (alone : a.alone) (taken : s.step r a = some s') : Keyed s'.gate.store := by
  cases a with
  | sign =>
    obtain rfl := Option.some.inj taken
    exact keyed
  | register q =>
    obtain rfl := Option.some.inj taken
    change Keyed (r.handleRegister s.gate q).2.store
    rcases r.handleRegister_cases s.gate q alone with ⟨-, same⟩ | ⟨signed, -, -, -, written⟩
    · rw [same]
      exact keyed
    · rw [written]
      exact keyed.upsert _
  | heartbeat q =>
    obtain rfl := Option.some.inj taken
    change Keyed (r.handleHeartbeat s.gate q).2.store
    rcases r.handleHeartbeat_cases s.gate q alone with ⟨-, same⟩ | ⟨signed, existing, -, -, -, -, written⟩
    · rw [same]
      exact keyed
    · rw [written]
      exact keyed.upsert _
  | recordOutcome nodeId o =>
    obtain rfl := Option.some.inj taken
    exact keyed.recordOutcome nodeId o
  | beginRequest nodeId =>
    obtain rfl := Option.some.inj taken
    exact keyed.setInFlight nodeId _
  | endRequest nodeId =>
    obtain rfl := Option.some.inj taken
    exact keyed.setInFlight nodeId _

theorem run_keyed {s : Traffic} (run : Transition.Run (step r) (allowed r) initial s) :
    Keyed s.gate.store := by
  refine run.invariant (P := fun s => Keyed s.gate.store) ?_ ?_
  · intro nodeId record found
    cases found
  · intro t a t' keyed ok taken
    exact step_keyed r keyed (allowed_alone r ok) taken

-- The node is stored after a step, and later seen than before if it was stored then.
def Raises (s s' : Traffic) (nodeId : String) (after : NodeRecord) : Prop :=
  s'.gate.store.get nodeId = some after ∧
    ∀ before, s.gate.store.get nodeId = some before →
      before.health.lastSeenAt < after.health.lastSeenAt

-- Only the record that was written was raised.
theorem raised_upsert {s s' : Traffic} {record : NodeRecord}
    (written : s'.gate.store = s.gate.store.upsert record) {nodeId : String} {after : NodeRecord}
    (raises : s.Raises s' nodeId after) :
    nodeId = record.registration.nodeId ∧ after.registration = record.registration := by
  obtain ⟨found, later⟩ := raises
  rw [written, MemoryNodeStore.get_upsert] at found
  split at found
  next own =>
    rw [← Option.some.inj found]
    exact ⟨own, (mergeRecord_registration _ _ _).1⟩
  next => exact absurd (later after found) (by omega)

theorem raised_same {s s' : Traffic} (same : s'.gate.store = s.gate.store) {nodeId : String}
    {after : NodeRecord} (raises : s.Raises s' nodeId after) : False := by
  obtain ⟨found, later⟩ := raises
  rw [same] at found
  exact absurd (later after found) (by omega)

theorem register_raises {s s' : Traffic} {q : Registering} (ok : s.allowed r (.register q))
    (taken : s.step r (.register q) = some s') {nodeId : String} {after : NodeRecord}
    (raises : s.Raises s' nodeId after) :
    (∀ before, s.gate.store.get nodeId = some before →
      before.registration.operatorAddress = after.registration.operatorAddress) ∧
    ∃ message, RegistrationFor r nodeId q.freshAt message ∧
      s.Signed r after.registration.operatorAddress message := by
  obtain rfl := Option.some.inj taken
  rcases r.handleRegister_cases s.gate q ok.1 with ⟨-, same⟩ | ⟨signed, admitted, verified, owned, written⟩
  · exact absurd raises (raised_same same)
  · obtain ⟨rfl, stored⟩ := raised_upsert written raises
    rw [stored]
    exact ⟨owned, registration_vouched r ok admitted verified⟩

theorem heartbeat_raises {s s' : Traffic} {q : Beating} (keyed : Keyed s.gate.store)
    (ok : s.allowed r (.heartbeat q)) (taken : s.step r (.heartbeat q) = some s')
    {nodeId : String} {after : NodeRecord} (raises : s.Raises s' nodeId after) :
    (∃ before, s.gate.store.get nodeId = some before ∧
      before.registration.operatorAddress = after.registration.operatorAddress) ∧
    ∃ message, HeartbeatFor nodeId q.freshAt message ∧
      s.Signed r after.registration.operatorAddress message := by
  obtain rfl := Option.some.inj taken
  rcases r.handleHeartbeat_cases s.gate q ok.1 with
    ⟨-, same⟩ | ⟨signed, existing, admitted, known, fresh, verified, written⟩
  · exact absurd raises (raised_same same)
  · obtain ⟨named, stored⟩ := raised_upsert written raises
    have own : nodeId = q.id := named.trans (keyed q.id existing known)
    subst own
    rw [stored]
    exact ⟨⟨existing, known, rfl⟩, heartbeat_vouched r ok admitted fresh verified⟩

theorem heartbeat_accepted {s : Traffic} {q : Beating} (ok : s.allowed r (.heartbeat q))
    (accepted : (r.handleHeartbeat s.gate q).1.isOk = true) :
    ∃ known message, s.gate.store.get q.id = some known ∧ HeartbeatFor q.id q.freshAt message ∧
      s.Signed r known.registration.operatorAddress message := by
  rcases r.handleHeartbeat_cases s.gate q ok.1 with
    ⟨refused, -⟩ | ⟨signed, existing, admitted, known, fresh, verified, -⟩
  · rw [accepted] at refused
    cases refused
  · obtain ⟨message, named, signed⟩ := heartbeat_vouched r ok admitted fresh verified
    exact ⟨existing, message, known, named, signed⟩

theorem registration_accepted {s : Traffic} {q : Registering} (ok : s.allowed r (.register q))
    (accepted : (r.handleRegister s.gate q).1.isOk = true) :
    ∃ nodeId address message, RegistrationFor r nodeId q.freshAt message ∧
      s.Signed r address message := by
  rcases r.handleRegister_cases s.gate q ok.1 with ⟨refused, -⟩ | ⟨signed, admitted, verified, -, -⟩
  · rw [accepted] at refused
    cases refused
  · obtain ⟨message, named, signed⟩ := registration_vouched r ok admitted verified
    exact ⟨_, _, message, named, signed⟩

-- No body passes both schemas.
theorem accepted_once {gate gate' : Gate} {q : Registering} {q' : Beating} (same : q.body = q'.body)
    (registered : (r.handleRegister gate q).1.isOk = true)
    (beaten : (r.handleHeartbeat gate' q').1.isOk = true) : False := by
  unfold Routes.handleRegister at registered
  unfold Routes.handleHeartbeat at beaten
  cases admitted : r.admitRegistration q with
  | error =>
    rw [admitted] at registered
    cases registered
  | ok registration =>
    have parsed := (r.admitRegistration_cases admitted).1
    cases entered : Routes.admitHeartbeat q' with
    | error =>
      rw [entered] at beaten
      cases beaten
    | ok heartbeat =>
      obtain ⟨body, parses, origin⟩ := Routes.admitHeartbeat_cases entered
      rcases origin with own | none
      · rw [own, ← same] at parses
        exact envelopes_differ r.sdk parsed parses
      · rw [none] at parses
        cases parses

theorem authentic_liveness {s : Traffic} (run : Transition.Run (step r) (allowed r) initial s) :
    (∀ q s' nodeId after, s.allowed r (.register q) → s.step r (.register q) = some s' →
      s.Raises s' nodeId after →
        (∀ before, s.gate.store.get nodeId = some before →
          before.registration.operatorAddress = after.registration.operatorAddress) ∧
        ∃ message, RegistrationFor r nodeId q.freshAt message ∧
          s.Signed r after.registration.operatorAddress message) ∧
    (∀ q s' nodeId after, s.allowed r (.heartbeat q) → s.step r (.heartbeat q) = some s' →
      s.Raises s' nodeId after →
        (∃ before, s.gate.store.get nodeId = some before ∧
          before.registration.operatorAddress = after.registration.operatorAddress) ∧
        ∃ message, HeartbeatFor nodeId q.freshAt message ∧
          s.Signed r after.registration.operatorAddress message) ∧
    (∀ q, s.allowed r (.register q) → (r.handleRegister s.gate q).1.isOk = true →
      ∃ nodeId address message, RegistrationFor r nodeId q.freshAt message ∧
        s.Signed r address message) ∧
    (∀ q, s.allowed r (.heartbeat q) → (r.handleHeartbeat s.gate q).1.isOk = true →
      ∃ known message, s.gate.store.get q.id = some known ∧
        HeartbeatFor q.id q.freshAt message ∧
        s.Signed r known.registration.operatorAddress message) ∧
    (∀ message nodeId nodeId' clock clock', RegistrationFor r nodeId clock message →
      ¬ HeartbeatFor nodeId' clock' message) ∧
    ∀ gate gate' q q', q.body = q'.body → (r.handleRegister gate q).1.isOk = true →
      (r.handleHeartbeat gate' q').1.isOk = false := by
  refine ⟨?_, ?_, ?_, ?_, ?_, ?_⟩
  · intro q s' nodeId after ok taken raises
    exact register_raises r ok taken raises
  · intro q s' nodeId after ok taken raises
    exact heartbeat_raises r (run_keyed r run) ok taken raises
  · intro q ok accepted
    exact registration_accepted r ok accepted
  · intro q ok accepted
    exact heartbeat_accepted r ok accepted
  · intro message nodeId nodeId' clock clock' registration heartbeat
    exact registration_not_heartbeat r registration heartbeat
  · intro gate gate' q q' same registered
    rw [← Bool.not_eq_true]
    intro beaten
    exact accepted_once r same registered beaten

end Traffic

def registrationMessage : ByteArray := signedText registrationDomain operatorFields.json

def heartbeatMessage : ByteArray := signedText heartbeatDomain operatorBeat.json

def beatSigned : SignedHeartbeat := ⟨operatorBeat, heartbeatSeal, demoPublicKey⟩

def demoBeating : Beating where
  id := "node-a"
  body := beatSigned.body
  freshAt := 1700000060000
  claimAt := 1700000060000
  seenAt := 1700000060000
  others _ := id

theorem seals_differ :
    Base64.decode registrationSeal.toList ≠ Base64.decode heartbeatSeal.toList := by
  decide +kernel

theorem spki_injective {key key' : List Nat} (same : spki key = spki key') : key = key' :=
  List.append_cancel_left same

namespace Traffic

theorem registration_allowed {s : Traffic}
    (signed : (demoKey, registrationMessage, Base64.decode registrationSeal.toList) ∈ s.signed) :
    s.allowed demoRoutes (.register (demoPost registrationSeal 1700000000000)) := by
  refine ⟨rfl, ?_⟩
  intro envelope admitted key message verifies
  rw [operator_admitted] at admitted
  obtain rfl := Except.ok.inj admitted
  change demoCrypto.verify (spki key) message (Base64.decode registrationSeal.toList) = true
    at verifies
  simp only [demoCrypto, Bool.and_eq_true, Bool.or_eq_true, decide_eq_true_eq, seals_differ,
    false_and, or_false, true_and] at verifies
  rw [spki_injective verifies.1, ByteArray.ext verifies.2]
  exact signed

theorem heartbeat_admitted : Routes.admitHeartbeat demoBeating = .ok beatSigned :=
  Routes.admitHeartbeat_ok (by decide) rfl
    (parseSignedHeartbeat_body (by decide) (by decide +kernel) (by decide))

theorem heartbeat_allowed {s : Traffic}
    (signed : (demoKey, heartbeatMessage, Base64.decode heartbeatSeal.toList) ∈ s.signed) :
    s.allowed demoRoutes (.heartbeat demoBeating) := by
  refine ⟨rfl, ?_⟩
  intro envelope admitted key message verifies
  rw [heartbeat_admitted] at admitted
  obtain rfl := Except.ok.inj admitted
  change demoCrypto.verify (spki key) message (Base64.decode heartbeatSeal.toList) = true
    at verifies
  simp only [demoCrypto, Bool.and_eq_true, Bool.or_eq_true, decide_eq_true_eq, seals_differ.symm,
    false_and, false_or, true_and] at verifies
  rw [spki_injective verifies.1, ByteArray.ext verifies.2]
  exact signed

theorem step_register (s : Traffic) (q : Registering) :
    s.step r (.register q) = some { s with gate := (r.handleRegister s.gate q).2 } := rfl

theorem step_heartbeat (s : Traffic) (q : Beating) :
    s.step r (.heartbeat q) = some { s with gate := (r.handleHeartbeat s.gate q).2 } := rfl

def operatorRecord : NodeRecord :=
  buildRecord demoRoutes.config operatorFields.record none true 1700000000000

theorem operator_named : operatorRecord.registration.nodeId = "node-a" := textOf_js "node-a"

theorem operator_stored :
    (MemoryNodeStore.empty.upsert operatorRecord).get "node-a" = some operatorRecord := by
  rw [MemoryNodeStore.get_upsert]
  exact if_pos operator_named.symm

theorem operator_joined (r : Routes) (config : r.config = demoRoutes.config)
    (signed : List (List Nat × ByteArray × List Nat))
    (admitted : r.admitRegistration (demoPost registrationSeal 1700000000000) =
      .ok (demoSigned registrationSeal))
    (accepted : (r.handleRegister .initial (demoPost registrationSeal 1700000000000)).1.isOk = true) :
    ∃ gate, (Traffic.mk .initial signed).step r
        (.register (demoPost registrationSeal 1700000000000)) = some ⟨gate, signed⟩ ∧
      gate.store = MemoryNodeStore.empty.upsert operatorRecord ∧
      gate.nonces = (Gate.initial.nonces.claim 1700000000000 "00112233445566778899aabbccddeeff").2 := by
  have taken := step_register r ⟨.initial, signed⟩ (demoPost registrationSeal 1700000000000)
  have nonces := r.handleRegister_nonces .initial rfl admitted
  have split := r.handleRegister_cases .initial (demoPost registrationSeal 1700000000000) rfl
  rw [accepted] at split
  rw [demo_claim] at nonces
  dsimp only at taken
  generalize (r.handleRegister .initial (demoPost registrationSeal 1700000000000)).2 = gate
    at taken nonces split
  refine ⟨gate, taken, ?_, nonces⟩
  rcases split with ⟨refused, -⟩ | ⟨envelope, same, -, -, written⟩
  · cases refused
  · rw [admitted] at same
    obtain rfl := Except.ok.inj same
    rw [config] at written
    exact written

theorem beat_verified :
    demoRoutes.verifyHeartbeatSignature beatSigned operatorRecord.registration.operatorAddress =
      .ok () := by
  have address : operatorRecord.registration.operatorAddress = demoAddress := textOf_js demoAddress
  have bytes := canonicalHeartbeatBytes_json (readHeartbeat_value operatorBeat)
  have decoded : demoCrypto.decodeAddress demoAddress = some demoKey := by
    simp [demoCrypto]
  have verifies : demoCrypto.verify (spki demoKey) (signedText heartbeatDomain operatorBeat.json)
      (Base64.decode heartbeatSeal.toList) = true := by
    simp [demoCrypto]
  rw [address]
  simp only [Routes.verifyHeartbeatSignature, beatSigned, demoRoutes]
  rw [bytes, verifyEnvelope_decides decoded rfl operator_key rfl, verifies]
  rfl

theorem beat_accepted {gate : Gate} (known : gate.store.get "node-a" = some operatorRecord)
    (nonces : gate.nonces =
      (Gate.initial.nonces.claim 1700000000000 "00112233445566778899aabbccddeeff").2) :
    (demoRoutes.handleHeartbeat gate demoBeating).1.isOk = true := by
  have fresh : Routes.freshHeartbeat demoBeating beatSigned = .ok () := by
    have named : beatSigned.heartbeat.nodeId = js demoBeating.id := rfl
    have signedAt : (beatSigned.heartbeat.timestamp.toNat : Int) = demoBeating.freshAt := by
      decide
    simp only [Routes.freshHeartbeat, named, signedAt, ne_eq, not_true, if_false, bind, Except.bind]
    exact assertFreshTimestamp_self _
  have won : (gate.nonces.claim demoBeating.claimAt (textOf beatSigned.heartbeat.nonce)).1 = true := by
    have nonce : textOf beatSigned.heartbeat.nonce = "ffeeddccbbaa99887766554433221100" := textOf_js _
    rw [nonce, nonces]
    decide +kernel
  apply demoRoutes.handleHeartbeat_beaten rfl heartbeat_admitted known fresh
  rw [won, Routes.authenticHeartbeat_unused]
  exact beat_verified

-- A minute later the node is seen again.
theorem authentic_liveness_beat :
    ∃ (s s' : Traffic) (after : NodeRecord),
      s.step demoRoutes (.heartbeat demoBeating) = some s' ∧ s.Raises s' "node-a" after ∧
      ∃ message, HeartbeatFor "node-a" 1700000060000 message ∧
        s.Signed demoRoutes after.registration.operatorAddress message := by
  obtain ⟨gate, joins, store, nonces⟩ := operator_joined demoRoutes rfl
    [(demoKey, registrationMessage, Base64.decode registrationSeal.toList)] operator_admitted
    honest_accepted
  have known : gate.store.get "node-a" = some operatorRecord := by
    rw [store]
    exact operator_stored
  let spoken : Traffic :=
    ⟨gate, [(demoKey, heartbeatMessage, Base64.decode heartbeatSeal.toList),
      (demoKey, registrationMessage, Base64.decode registrationSeal.toList)]⟩
  have vows : Transition.Run (step demoRoutes) (allowed demoRoutes) initial
      ⟨.initial, [(demoKey, registrationMessage, Base64.decode registrationSeal.toList)]⟩ :=
    .single (a := .sign demoKey registrationMessage (Base64.decode registrationSeal.toList))
      trivial rfl
  have run := vows.tail (registration_allowed List.mem_cons_self) joins
  have speaks : Transition.Run (step demoRoutes) (allowed demoRoutes) initial spoken :=
    .tail (a := .sign demoKey heartbeatMessage (Base64.decode heartbeatSeal.toList)) run trivial rfl
  have ok : spoken.allowed demoRoutes (.heartbeat demoBeating) :=
    heartbeat_allowed List.mem_cons_self
  have raising := (authentic_liveness demoRoutes speaks).2.1
  have taken := step_heartbeat demoRoutes spoken demoBeating
  have split := demoRoutes.handleHeartbeat_cases gate demoBeating rfl
  rw [beat_accepted known nonces] at split
  change _ = some { spoken with gate := (demoRoutes.handleHeartbeat gate demoBeating).2 } at taken
  generalize (demoRoutes.handleHeartbeat gate demoBeating).2 = later at taken split
  rcases split with ⟨refused, -⟩ | ⟨envelope, existing, -, found, -, -, written⟩
  · cases refused
  · obtain rfl : operatorRecord = existing := Option.some.inj (known.symm.trans found)
    have named : (seen operatorRecord demoBeating.seenAt).registration.nodeId = "node-a" :=
      operator_named
    obtain ⟨after, stored, seenLater⟩ := upserted gate.store named
    rw [← written] at stored
    have raises : spoken.Raises { spoken with gate := later } "node-a" after := by
      refine ⟨stored, ?_⟩
      intro before held
      obtain rfl : operatorRecord = before := Option.some.inj (known.symm.trans held)
      have earlier : operatorRecord.health.lastSeenAt = 1700000000000 := rfl
      have now : (seen operatorRecord demoBeating.seenAt).health.lastSeenAt = 1700000060000 := rfl
      omega
    exact ⟨spoken, _, after, taken, raises, (raising demoBeating _ "node-a" after ok taken raises).2⟩

end Traffic

end X402Mesh.Gateway
