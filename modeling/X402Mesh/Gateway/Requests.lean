import X402Mesh.Gateway.Lifecycle
import X402Mesh.Gateway.NonceCache
import X402Mesh.Gateway.Surfaces
import X402Mesh.Registry.Envelopes

set_option autoImplicit false

-- A handler runs on its own but where it waits: there the other handlers may do anything to the
-- store and to the nonces.

namespace X402Mesh.Gateway

open JsonText Registry

-- `decodeAddress` is the SDK's, the other two are Node's.
structure Crypto where
  decodeAddress : String → Option (List Nat)
  createPublicKey : List Nat → Bool
  verify : List Nat → ByteArray → List Nat → Bool

structure Routes where
  config : MeshConfig
  sdk : Sdk
  crypto : Crypto

structure Gate where
  store : MemoryNodeStore
  nonces : NonceCache

/-- Here `routable` is what the endpoint check answered, and `others` what the other handlers do at
each wait. -/
structure Registering where
  body : JsValue
  freshAt : Int
  claimAt : Int
  seenAt : Int
  routable : Except MeshError Unit
  usdcOptedIn : Bool
  others : Nat → Gate → Gate

structure Beating where
  id : String
  body : JsValue
  freshAt : Int
  claimAt : Int
  seenAt : Int
  others : Nat → Gate → Gate

def ed25519PublicKeyBytes : Nat := 32

def ed25519SpkiPrefix : List Nat :=
  [0x30, 0x2a, 0x30, 0x05, 0x06, 0x03, 0x2b, 0x65, 0x70, 0x03, 0x21, 0x00]

def spki (key : List Nat) : List Nat := ed25519SpkiPrefix ++ key

-- Both envelopes are checked against an address; the errors are those of the caller.
def verifyEnvelope (crypto : Crypto) (address publicKey signature : String)
    (bytes : Except MeshError ByteArray) (invalid mismatch failed : MeshError) :
    Except MeshError Unit :=
  match crypto.decodeAddress address with
  | none => .error invalid
  | some key =>
    if key.length ≠ ed25519PublicKeyBytes then
      .error ⟨.auth, "operator address did not yield a 32-byte Ed25519 public key", []⟩
    else if key ≠ Base64.decode publicKey.toList then .error mismatch
    else if !crypto.createPublicKey (spki key) then
      .error ⟨.auth, "operator public key could not be imported for verification", []⟩
    else
      match bytes with
      | .error e => .error e
      | .ok message =>
        if crypto.verify (spki key) message (Base64.decode signature.toList) then .ok ()
        else .error failed

-- The bytes were signed, with the key that the address stands for.
def Verified (crypto : Crypto) (address signature : String) (message : ByteArray) : Prop :=
  ∃ key, crypto.decodeAddress address = some key ∧
    crypto.verify (spki key) message (Base64.decode signature.toList) = true

theorem verifyEnvelope_ok {crypto : Crypto} {address publicKey signature : String}
    {bytes : Except MeshError ByteArray} {invalid mismatch failed : MeshError}
    (passes : verifyEnvelope crypto address publicKey signature bytes invalid mismatch failed =
      .ok ()) :
    ∃ message, bytes = .ok message ∧ Verified crypto address signature message := by
  unfold verifyEnvelope at passes
  cases decoded : crypto.decodeAddress address with
  | none => simp [decoded] at passes
  | some key =>
    simp only [decoded] at passes
    split at passes
    next => cases passes
    split at passes
    next => cases passes
    split at passes
    next => cases passes
    cases bytes with
    | error e => cases passes
    | ok message =>
      dsimp only at passes
      split at passes
      next verified => exact ⟨message, rfl, key, decoded, verified⟩
      next => cases passes

theorem verifyEnvelope_decides {crypto : Crypto} {address publicKey : String} {key : List Nat}
    (decoded : crypto.decodeAddress address = some key)
    (length : key.length = ed25519PublicKeyBytes) (declared : key = Base64.decode publicKey.toList)
    (imported : crypto.createPublicKey (spki key) = true) (signature : String) (message : ByteArray)
    (invalid mismatch failed : MeshError) :
    verifyEnvelope crypto address publicKey signature (.ok message) invalid mismatch failed =
      if crypto.verify (spki key) message (Base64.decode signature.toList) then .ok ()
      else .error failed := by
  simp only [verifyEnvelope, decoded, length, ← declared, imported, ne_eq, not_true, if_false,
    Bool.not_true, Bool.false_eq_true]

namespace Routes

variable (r : Routes)

def verifyRegistrationSignature (signed : SignedRegistration) : Except MeshError Unit :=
  let registration := signed.registration.record
  verifyEnvelope r.crypto registration.operatorAddress signed.publicKey signed.signature
    (canonicalRegistrationBytes r.sdk signed.registration.value)
    ⟨.auth, "operator address is not a valid Algorand address",
      [("operatorAddress", registration.operatorAddress)]⟩
    ⟨.auth, "declared public key does not match the operator address",
      [("operatorAddress", registration.operatorAddress)]⟩
    ⟨.auth, "registration signature verification failed",
      [("nodeId", registration.nodeId), ("operatorAddress", registration.operatorAddress)]⟩

def verifyHeartbeatSignature (signed : SignedHeartbeat) (operatorAddress : String) :
    Except MeshError Unit :=
  let nodeId := textOf signed.heartbeat.nodeId
  verifyEnvelope r.crypto operatorAddress signed.publicKey signed.signature
    (canonicalHeartbeatBytes signed.heartbeat.value)
    ⟨.auth, "stored operator address is not a valid Algorand address", [("nodeId", nodeId)]⟩
    ⟨.auth, "heartbeat public key does not match the registered operator", [("nodeId", nodeId)]⟩
    ⟨.auth, "heartbeat signature verification failed", [("nodeId", nodeId)]⟩

def checkNetwork (registration : NodeRegistration) : Except MeshError Unit :=
  if registration.network ≠ r.config.network then
    .error ⟨.validation, "node settles on a different network than this gateway",
      [("nodeNetwork", registration.network), ("gatewayNetwork", r.config.network)]⟩
  else .ok ()

def checkOptIn (registration : NodeRegistration) (usdcOptedIn : Bool) : Except MeshError Unit :=
  if !usdcOptedIn && r.config.requireUsdcOptIn then
    .error ⟨.validation,
      "operator payout address has not opted in to USDC and cannot receive payouts",
      [("operatorAddress", registration.operatorAddress), ("assetId", r.config.usdcAssetId),
        ("network", r.config.network), ("remedy", remedy r.config registration)]⟩
  else .ok ()

def admitRegistration (q : Registering) : Except MeshError SignedRegistration := do
  let signed ← parseOrThrow (parseSignedRegistration r.sdk q.body) "node registration"
  assertFreshTimestamp signed.registration.record.timestamp q.freshAt
  return signed

theorem admitRegistration_ok {q : Registering} {signed : SignedRegistration}
    (parsed : parseSignedRegistration r.sdk q.body = some signed)
    (fresh : assertFreshTimestamp signed.registration.record.timestamp q.freshAt = .ok ()) :
    r.admitRegistration q = .ok signed := by
  simp only [admitRegistration, parsed, parseOrThrow, bind, Except.bind, fresh]
  rfl

def authenticRegistration (signed : SignedRegistration) (unused : Bool) :
    Except MeshError Unit := do
  let registration := signed.registration.record
  if !unused then
    throw ⟨.validation, "registration nonce has already been used",
      [("nodeId", registration.nodeId)]⟩
  r.verifyRegistrationSignature signed
  r.checkNetwork registration

def settledRegistration (q : Registering) (store : MemoryNodeStore)
    (registration : NodeRegistration) : Except MeshError (Option NodeRecord) := do
  q.routable
  r.checkOptIn registration q.usdcOptedIn
  let existing := store.get registration.nodeId
  checkOwner existing registration
  return existing

def handleRegister (gate : Gate) (q : Registering) : Except MeshError RegisterResponse × Gate :=
  match r.admitRegistration q with
  | .error e => (.error e, gate)
  | .ok signed =>
    let registration := signed.registration.record
    let (unused, nonces) := gate.nonces.claim q.claimAt registration.nonce
    let gate := { gate with nonces := nonces }
    match r.authenticRegistration signed unused with
    | .error e => (.error e, gate)
    | .ok () =>
      -- The resolver, the chain and the store are asked.
      let gate := q.others 0 gate
      match r.settledRegistration q gate.store registration with
      | .error e => (.error e, gate)
      | .ok existing =>
        let gate := q.others 1 gate
        let record := buildRecord r.config registration existing q.usdcOptedIn q.seenAt
        let store := gate.store.upsert record
        let stored := (store.get registration.nodeId).getD record
        (.ok (registerResponse r.config existing stored), { gate with store := store })

theorem authenticRegistration_used (signed : SignedRegistration) :
    r.authenticRegistration signed false =
      .error ⟨.validation, "registration nonce has already been used",
        [("nodeId", signed.registration.record.nodeId)]⟩ := by
  simp [authenticRegistration, throw, throwThe, MonadExceptOf.throw, bind, Except.bind]

theorem authenticRegistration_unused (signed : SignedRegistration) :
    r.authenticRegistration signed true = (do
      r.verifyRegistrationSignature signed
      r.checkNetwork signed.registration.record) := by
  simp [authenticRegistration, bind, Except.bind]

theorem handleRegister_unauthentic {gate : Gate} {q : Registering} {signed : SignedRegistration}
    (admitted : r.admitRegistration q = .ok signed) {e : MeshError}
    (failing : r.authenticRegistration signed
      (gate.nonces.claim q.claimAt signed.registration.record.nonce).1 = .error e) :
    r.handleRegister gate q = (.error e, { gate with
      nonces := (gate.nonces.claim q.claimAt signed.registration.record.nonce).2 }) := by
  simp only [handleRegister, admitted, failing]

-- A node that is opted in, and that nobody has registered.
theorem settledRegistration_new {q : Registering} {store : MemoryNodeStore}
    {registration : NodeRegistration} (routable : q.routable = .ok ())
    (optedIn : q.usdcOptedIn = true) (unknown : store.get registration.nodeId = none) :
    r.settledRegistration q store registration = .ok none := by
  simp [settledRegistration, routable, optedIn, checkOptIn, checkOwner, unknown, bind, Except.bind,
    pure, Except.pure]

theorem handleRegister_settled {gate : Gate} {q : Registering} {signed : SignedRegistration}
    (admitted : r.admitRegistration q = .ok signed)
    (authentic : r.authenticRegistration signed
      (gate.nonces.claim q.claimAt signed.registration.record.nonce).1 = .ok ())
    {existing : Option NodeRecord}
    (settled : r.settledRegistration q
      (q.others 0 { gate with
        nonces := (gate.nonces.claim q.claimAt signed.registration.record.nonce).2 }).store
      signed.registration.record = .ok existing) :
    (r.handleRegister gate q).1.isOk = true := by
  simp only [handleRegister, admitted, authentic, settled]
  rfl

theorem handleRegister_nonces (gate : Gate) {q : Registering} {signed : SignedRegistration}
    (alone : q.others = fun _ => id) (admitted : r.admitRegistration q = .ok signed) :
    (r.handleRegister gate q).2.nonces =
      (gate.nonces.claim q.claimAt signed.registration.record.nonce).2 := by
  simp only [handleRegister, admitted, alone, id]
  split
  next => rfl
  next => split <;> rfl

def unknownNode (nodeId : String) : MeshError :=
  ⟨.notFound, "unknown node; register before sending heartbeats", [("nodeId", nodeId)]⟩

def admitHeartbeat (q : Beating) : Except MeshError SignedHeartbeat := do
  if q.id.isEmpty then
    throw ⟨.validation, "node id is required", []⟩
  let body := match q.body with
    | .undefined | .null => .object []
    | body => body
  parseOrThrow (parseSignedHeartbeat body) "heartbeat"

def freshHeartbeat (q : Beating) (signed : SignedHeartbeat) : Except MeshError Unit := do
  if signed.heartbeat.nodeId ≠ js q.id then
    throw ⟨.auth, "heartbeat nodeId does not match the path",
      [("nodeId", q.id), ("signedNodeId", textOf signed.heartbeat.nodeId)]⟩
  assertFreshTimestamp signed.heartbeat.timestamp.toNat q.freshAt

theorem admitHeartbeat_ok {q : Beating} {signed : SignedHeartbeat} (named : q.id ≠ "")
    (body : q.body = signed.body) (parsed : parseSignedHeartbeat signed.body = some signed) :
    admitHeartbeat q = .ok signed := by
  have present : q.id.isEmpty = false := by simpa using named
  simp only [admitHeartbeat, body, present, Bool.false_eq_true, if_false, bind, Except.bind]
  rw [show (match signed.body with
    | .undefined | .null => .object []
    | body => body) = signed.body from rfl, parsed]
  rfl

def authenticHeartbeat (q : Beating) (signed : SignedHeartbeat) (existing : NodeRecord)
    (unused : Bool) : Except MeshError Unit := do
  if !unused then
    throw ⟨.validation, "heartbeat nonce has already been used", [("nodeId", q.id)]⟩
  r.verifyHeartbeatSignature signed existing.registration.operatorAddress

def handleHeartbeat (gate : Gate) (q : Beating) : Except MeshError HeartbeatResponse × Gate :=
  match admitHeartbeat q with
  | .error e => (.error e, gate)
  | .ok signed =>
    match gate.store.get q.id with
    | none => (.error (unknownNode q.id), gate)
    | some existing =>
      let gate := q.others 0 gate
      match freshHeartbeat q signed with
      | .error e => (.error e, gate)
      | .ok () =>
        let (unused, nonces) := gate.nonces.claim q.claimAt (textOf signed.heartbeat.nonce)
        let gate := { gate with nonces := nonces }
        match r.authenticHeartbeat q signed existing unused with
        | .error e => (.error e, gate)
        | .ok () =>
          -- The adapter reads the record once more.
          match gate.store.get q.id with
          | none => (.error (unknownNode q.id), gate)
          | some existing =>
            let gate := q.others 1 gate
            let store := gate.store.upsert (seen existing q.seenAt)
            let updated := (store.get q.id).getD existing
            (.ok (heartbeatResponse r.config q.id updated), { gate with store := store })

theorem authenticHeartbeat_unused (q : Beating) (signed : SignedHeartbeat) (existing : NodeRecord) :
    r.authenticHeartbeat q signed existing true =
      r.verifyHeartbeatSignature signed existing.registration.operatorAddress := by
  simp [authenticHeartbeat]

theorem handleHeartbeat_beaten {gate : Gate} {q : Beating} {signed : SignedHeartbeat}
    {existing : NodeRecord} (alone : q.others = fun _ => id)
    (admitted : admitHeartbeat q = .ok signed) (known : gate.store.get q.id = some existing)
    (fresh : freshHeartbeat q signed = .ok ())
    (authentic : r.authenticHeartbeat q signed existing
      (gate.nonces.claim q.claimAt (textOf signed.heartbeat.nonce)).1 = .ok ()) :
    (r.handleHeartbeat gate q).1.isOk = true := by
  simp only [handleHeartbeat, admitted, known, alone, id, fresh, authentic]
  rfl

end Routes

namespace Gate

def burn (gate : Gate) : Option (Int × String) → Gate
  | none => gate
  | some (now, nonce) => { gate with nonces := (gate.nonces.claim now nonce).2 }

-- Whether an envelope with the nonce would win it.
def accepts (gate : Gate) (now : Int) (nonce : String) : Bool := (gate.nonces.claim now nonce).1

theorem burn_store (gate : Gate) (claim : Option (Int × String)) :
    (gate.burn claim).store = gate.store := by
  cases claim <;> rfl

theorem burn_others (gate : Gate) {now later : Int} {nonce other : String}
    (different : other ≠ nonce) (accepted : gate.accepts later other = true) :
    (gate.burn (some (now, nonce))).accepts later other = true :=
  NonceCache.claim_keeps_others different accepted

theorem burn_below (gate : Gate) {now later : Int} {nonce other : String}
    (below : gate.nonces.belowCap) (still : (gate.burn (some (now, nonce))).nonces.belowCap)
    (forward : now ≤ later) (different : other ≠ nonce) :
    (gate.burn (some (now, nonce))).accepts later other = gate.accepts later other :=
  NonceCache.claim_below_others below still forward different

end Gate

namespace Routes

variable (r : Routes)

theorem handleRegister_used {gate : Gate} {q : Registering} {signed : SignedRegistration}
    (admitted : r.admitRegistration q = .ok signed)
    (used : gate.accepts q.claimAt signed.registration.record.nonce = false) :
    ∃ e, (r.handleRegister gate q).1 = .error e := by
  have failing := r.authenticRegistration_used signed
  rw [← used] at failing
  exact ⟨_, congrArg Prod.fst (r.handleRegister_unauthentic admitted failing)⟩

-- The claim that a request makes, once the checks that come before it let it.
def registrationClaim (q : Registering) : Option (Int × String) :=
  match r.admitRegistration q with
  | .error _ => none
  | .ok signed => some (q.claimAt, signed.registration.record.nonce)

def heartbeatClaim (gate : Gate) (q : Beating) : Option (Int × String) :=
  match admitHeartbeat q with
  | .error _ => none
  | .ok signed =>
    if (gate.store.get q.id).isSome && (freshHeartbeat q signed).isOk then
      some (q.claimAt, textOf signed.heartbeat.nonce)
    else none

-- Where the handler waits, if it does.
def Waits (others : Nat → Gate → Gate) (wait : Gate → Gate) : Prop := wait = id ∨ wait = others 0

theorem handleRegister_refused {gate : Gate} {q : Registering} {e : MeshError}
    (refused : (r.handleRegister gate q).1 = .error e) :
    ∃ wait, Waits q.others wait ∧
      (r.handleRegister gate q).2 = wait (gate.burn (r.registrationClaim q)) := by
  unfold handleRegister at refused ⊢
  unfold registrationClaim
  cases admitted : r.admitRegistration q with
  | error => exact ⟨id, .inl rfl, rfl⟩
  | ok signed =>
    simp only [admitted] at refused ⊢
    cases authentic : r.authenticRegistration signed
        (gate.nonces.claim q.claimAt signed.registration.record.nonce).1 with
    | error => exact ⟨id, .inl rfl, rfl⟩
    | ok =>
      simp only [authentic] at refused ⊢
      split at refused
      next => exact ⟨q.others 0, .inr rfl, rfl⟩
      next => cases refused

theorem handleHeartbeat_refused {gate : Gate} {q : Beating} {e : MeshError}
    (refused : (r.handleHeartbeat gate q).1 = .error e) :
    ∃ wait, Waits q.others wait ∧
      (r.handleHeartbeat gate q).2 = (wait gate).burn (heartbeatClaim gate q) := by
  unfold handleHeartbeat at refused ⊢
  unfold heartbeatClaim
  cases admitted : admitHeartbeat q with
  | error => exact ⟨id, .inl rfl, rfl⟩
  | ok signed =>
    simp only [admitted] at refused ⊢
    cases known : gate.store.get q.id with
    | none => exact ⟨id, .inl rfl, by simp [Gate.burn]⟩
    | some existing =>
      simp only [known, Option.isSome_some, Bool.true_and] at refused ⊢
      cases fresh : freshHeartbeat q signed with
      | error => exact ⟨q.others 0, .inr rfl, rfl⟩
      | ok =>
        refine ⟨q.others 0, .inr rfl, ?_⟩
        simp only [fresh] at refused ⊢
        cases authentic : r.authenticHeartbeat q signed existing
            ((q.others 0 gate).nonces.claim q.claimAt (textOf signed.heartbeat.nonce)).1 with
        | error => rfl
        | ok =>
          simp only [authentic] at refused ⊢
          split at refused
          next => rfl
          next => cases refused

theorem refused_burns_only_its_nonce (gate : Gate) :
    (∀ q e, (r.handleRegister gate q).1 = .error e → ∃ wait, Waits q.others wait ∧
      (r.handleRegister gate q).2 = wait (gate.burn (r.registrationClaim q))) ∧
    (∀ q e, (r.handleHeartbeat gate q).1 = .error e → ∃ wait, Waits q.others wait ∧
      (r.handleHeartbeat gate q).2 = (wait gate).burn (heartbeatClaim gate q)) ∧
    (∀ claim, (gate.burn claim).store = gate.store) ∧
    ∀ now nonce later other, other ≠ nonce →
      (gate.accepts later other = true →
        (gate.burn (some (now, nonce))).accepts later other = true) ∧
      (gate.nonces.belowCap → (gate.burn (some (now, nonce))).nonces.belowCap → now ≤ later →
        (gate.burn (some (now, nonce))).accepts later other = gate.accepts later other) := by
  refine ⟨?_, ?_, gate.burn_store, ?_⟩
  · intro q e refused
    exact r.handleRegister_refused refused
  · intro q e refused
    exact r.handleHeartbeat_refused refused
  · intro now nonce later other different
    constructor
    · intro accepted
      exact gate.burn_others different accepted
    · intro below still forward
      exact gate.burn_below below still forward different

end Routes

def demoKey : List Nat :=
  [234, 74, 108, 99, 226, 156, 82, 10, 190, 245, 80, 123, 19, 46, 197, 249, 149, 71, 118, 174, 190,
    190, 123, 146, 66, 30, 234, 105, 20, 70, 210, 44]

def demoAddress : String := "5JFGYY7CTRJAVPXVKB5RGLWF7GKUO5VOX27HXESCD3VGSFCG2IWAKDM5YU"

def demoPublicKey : String := "6kpsY+KcUgq+9VB7Ey7F+ZVHdq6+vnuSQh7qaRRG0iw="

def operatorFields : RegistrationFields := { demoFields with operatorAddress := js demoAddress }

def registrationSeal : String :=
  "OZZEEzfPOb0Kajr8zSTOxGYbWWr4DxkstMtTv/zdsNvIX2m3kGZ1IGxWh7WJQ+S4krhZyKy3FoCDIwxIE3NICA=="

def forgedSeal : String := String.ofList (List.replicate 86 'A' ++ ['=', '='])

def operatorBeat : HeartbeatFields :=
  { demoBeat with
    timestamp := JsNumber.whole 1700000060000 (by decide)
    nonce := js "ffeeddccbbaa99887766554433221100" }

def heartbeatSeal : String :=
  "zGrvKQhRMqDgfX5qyPNvLic75bCvBn9r4eqtF8o7/oHlEUh+ZOIJz+oVieipkdPwQuJB6ABU1RYul9dx3SOEBA=="

-- Ed25519 on the two messages that the operator has signed.
def demoCrypto : Crypto where
  decodeAddress address := if address = demoAddress then some demoKey else none
  createPublicKey key := key.length = 44
  verify key message signature :=
    key = spki demoKey &&
      ((signature = Base64.decode registrationSeal.toList &&
          message.data = (signedText registrationDomain operatorFields.json).data) ||
        (signature = Base64.decode heartbeatSeal.toList &&
          message.data = (signedText heartbeatDomain operatorBeat.json).data))

def demoRoutes : Routes := ⟨{ demoMesh with network := testnet }, demoSdk, demoCrypto⟩

def demoSigned (signature : String) : SignedRegistration := ⟨operatorFields, signature, demoPublicKey⟩

def demoPost (signature : String) (now : Int) : Registering where
  body := (demoSigned signature).body
  freshAt := now
  claimAt := now
  seenAt := now
  routable := .ok ()
  usdcOptedIn := true
  others _ := id

def Gate.initial : Gate := ⟨.empty, .fresh⟩

theorem operator_network : networkOf demoSdk operatorFields.network = some testnet := by
  decide

theorem operator_key : demoKey = Base64.decode demoPublicKey.toList := by
  decide +kernel

theorem demo_admitted (signature : String) (canonical : Base64.ofLength 64 signature = true) :
    demoRoutes.admitRegistration (demoPost signature 1700000000000) = .ok (demoSigned signature) := by
  have body : parseRegistrationBody demoSdk operatorFields.value = some operatorFields.value :=
    parseRegistrationBody_value demoSdk (by decide +kernel) operator_network rfl
  have publicKey : Base64.ofLength 32 demoPublicKey = true := by decide +kernel
  have signedAt : operatorFields.record.timestamp = 1700000000000 := by decide
  apply demoRoutes.admitRegistration_ok
  · exact parseSignedRegistration_body demoSdk body canonical publicKey
  · exact (congrArg (assertFreshTimestamp · _) signedAt).trans (assertFreshTimestamp_self _)

theorem forged_admitted : demoRoutes.admitRegistration (demoPost forgedSeal 1700000000000) =
    .ok (demoSigned forgedSeal) :=
  demo_admitted forgedSeal (by decide)

theorem operator_admitted : demoRoutes.admitRegistration (demoPost registrationSeal 1700000000000) =
    .ok (demoSigned registrationSeal) :=
  demo_admitted registrationSeal (by decide)

theorem demo_verified (signature : String) :
    (demoRoutes.verifyRegistrationSignature (demoSigned signature)).isOk =
      decide (Base64.decode signature.toList = Base64.decode registrationSeal.toList) := by
  have address : operatorFields.record.operatorAddress = demoAddress := textOf_js demoAddress
  have whole : { operatorFields with network := js testnet : RegistrationFields } = operatorFields :=
    rfl
  have bytes := canonicalRegistrationBytes_json demoSdk (readRegistration_value operatorFields)
    operator_network
  rw [whole] at bytes
  have decoded : demoCrypto.decodeAddress demoAddress = some demoKey := by
    simp [demoCrypto]
  have imported : demoCrypto.createPublicKey (spki demoKey) = true := rfl
  simp only [Routes.verifyRegistrationSignature, demoSigned, demoRoutes]
  rw [address, bytes, verifyEnvelope_decides decoded rfl operator_key imported]
  by_cases same : Base64.decode signature.toList = Base64.decode registrationSeal.toList
  · have verified : demoCrypto.verify (spki demoKey)
        (signedText registrationDomain operatorFields.json) (Base64.decode signature.toList) = true := by
      simp [demoCrypto, same]
    rw [verified, decide_eq_true same]
    rfl
  · have forged : demoCrypto.verify (spki demoKey)
        (signedText registrationDomain operatorFields.json) (Base64.decode signature.toList) = false := by
      simp [demoCrypto, same, ← ByteArray.ext_iff, domains_differ]
    rw [forged, decide_eq_false same]
    rfl

theorem operator_nonce : operatorFields.record.nonce = "00112233445566778899aabbccddeeff" :=
  textOf_js _

theorem demo_claim (gate : Gate) (signature : String) :
    gate.nonces.claim (demoPost signature 1700000000000).claimAt
        (demoSigned signature).registration.record.nonce =
      gate.nonces.claim 1700000000000 "00112233445566778899aabbccddeeff" :=
  congrArg (gate.nonces.claim 1700000000000) operator_nonce

theorem first_claim :
    (Gate.initial.nonces.claim 1700000000000 "00112233445566778899aabbccddeeff").1 = true := by
  decide

theorem forged_refused :
    ∃ e, demoRoutes.handleRegister .initial (demoPost forgedSeal 1700000000000) =
      (.error e, Gate.initial.burn
        (some (1700000000000, "00112233445566778899aabbccddeeff"))) := by
  have claim := demo_claim .initial forgedSeal
  have forged := demo_verified forgedSeal
  have other : Base64.decode forgedSeal.toList ≠ Base64.decode registrationSeal.toList := by
    decide
  rw [decide_eq_false other] at forged
  cases verified : demoRoutes.verifyRegistrationSignature (demoSigned forgedSeal) with
  | ok =>
    rw [verified] at forged
    cases forged
  | error e =>
    have failing := demoRoutes.authenticRegistration_unused (demoSigned forgedSeal)
    rw [verified] at failing
    refine ⟨e, ?_⟩
    rw [demoRoutes.handleRegister_unauthentic forged_admitted
      (by rw [claim, first_claim]; exact failing), claim]
    rfl

-- The operator's own registration, on any routes of its network that verify it.
theorem operator_accepted (r : Routes) (network : r.config.network = testnet)
    (admitted : r.admitRegistration (demoPost registrationSeal 1700000000000) =
      .ok (demoSigned registrationSeal))
    (verified : r.verifyRegistrationSignature (demoSigned registrationSeal) = .ok ()) :
    (r.handleRegister .initial (demoPost registrationSeal 1700000000000)).1.isOk = true := by
  have claim := demo_claim .initial registrationSeal
  have own : operatorFields.record.network = r.config.network :=
    (textOf_js testnet).trans network.symm
  have checked : r.checkNetwork operatorFields.record = .ok () := if_neg fun other => other own
  have passing := r.authenticRegistration_unused (demoSigned registrationSeal)
  rw [verified] at passing
  apply r.handleRegister_settled admitted
  · rw [claim, first_claim]
    exact passing.trans checked
  · exact r.settledRegistration_new rfl rfl rfl

theorem honest_accepted :
    (demoRoutes.handleRegister .initial (demoPost registrationSeal 1700000000000)).1.isOk =
      true := by
  have genuine := demo_verified registrationSeal
  rw [decide_eq_true rfl] at genuine
  cases verified : demoRoutes.verifyRegistrationSignature (demoSigned registrationSeal) with
  | error =>
    rw [verified] at genuine
    cases genuine
  | ok => exact operator_accepted demoRoutes rfl operator_admitted verified

-- A stranger posts a registration under a nonce of the operator.
theorem honest_registration_refused :
    ∃ e gate, demoRoutes.handleRegister .initial (demoPost forgedSeal 1700000000000) =
        (.error e, gate) ∧
      (demoRoutes.handleRegister .initial (demoPost registrationSeal 1700000000000)).1.isOk = true ∧
      ∃ e', (demoRoutes.handleRegister gate (demoPost registrationSeal 1700000000000)).1 =
        .error e' := by
  obtain ⟨e, refused⟩ := forged_refused
  refine ⟨e, _, refused, honest_accepted, demoRoutes.handleRegister_used operator_admitted ?_⟩
  rw [Gate.accepts, demo_claim]
  decide

theorem refused_burns_only_its_nonce_forged :
    (demoRoutes.handleRegister .initial (demoPost forgedSeal 1700000000000)).2.accepts
      1700000060000 "ffeeddccbbaa99887766554433221100" = true := by
  obtain ⟨e, refused⟩ := forged_refused
  obtain ⟨register, -, -, nonces⟩ := demoRoutes.refused_burns_only_its_nonce .initial
  obtain ⟨wait, waits, left⟩ := register _ e (congrArg Prod.fst refused)
  have claims : demoRoutes.registrationClaim (demoPost forgedSeal 1700000000000) =
      some (1700000000000, "00112233445566778899aabbccddeeff") := by
    rw [Routes.registrationClaim, forged_admitted]
    exact congrArg (fun nonce => some ((1700000000000 : Int), nonce)) operator_nonce
  have waited : wait = id := waits.elim (fun still => still) fun others => others
  rw [left, waited, claims]
  exact (nonces 1700000000000 _ 1700000060000 _ (by decide)).1 (by decide)

end X402Mesh.Gateway
