import X402Mesh.Gateway.Authentic
import X402Mesh.NodeDaemon.Registration

set_option autoImplicit false

-- While a handler waits, other handlers may do anything that leaves the daemon its nonces and its
-- node id.

namespace X402Mesh.NodeDaemon

open JsonText Registry Gateway Keys

-- The bytes as the gateway has them.
def octets (bytes : List UInt8) : List Nat := bytes.map UInt8.toNat

/-- What Ed25519 and the SDK do with the keys of operators. -/
structure Trusted (node : NodeCrypto) (crypto : Crypto) : Prop where
  imports : ∀ seed key, node.publicKeyOf seed = some key →
    key.length = 32 ∧ crypto.createPublicKey (spki (octets key)) = true
  signs : ∀ seed message, (node.sign seed message).length = 64
  verifies : ∀ seed key message, node.publicKeyOf seed = some key →
    crypto.verify (spki (octets key)) message (octets (node.sign seed message)) = true
  decodes : ∀ seed key address, node.publicKeyOf seed = some key →
    algorandAddressFromPublicKey node.sha512_256 key = .ok address →
    crypto.decodeAddress address = some (octets key)

section

variable {node : NodeCrypto} {crypto : Crypto} {key : OperatorKey}

theorem verifyEnvelope_own (trusted : Trusted node crypto) (loaded : key.Loaded node)
    (message : ByteArray) (invalid mismatch failed : MeshError) :
    verifyEnvelope crypto key.address key.publicKeyB64 (key.signB64 message) (.ok message) invalid
      mismatch failed = .ok () := by
  obtain ⟨seed, usable, signing⟩ := loaded.seeded
  obtain ⟨size, imported⟩ := trusted.imports seed key.publicKey usable
  have decoded := trusted.decodes seed key.publicKey key.address usable loaded.addressed
  have length : (octets key.publicKey).length = Gateway.ed25519PublicKeyBytes := by
    rw [octets, List.length_map, size]
    rfl
  have declared : octets key.publicKey = Base64.decode key.publicKeyB64.toList := by
    rw [loaded.written, decode_toBase64]
    rfl
  have signature : Base64.decode (key.signB64 message).toList =
      octets (node.sign seed message) := by
    rw [OperatorKey.signB64, decode_toBase64, signing]
    rfl
  rw [verifyEnvelope_decides decoded length declared imported, signature,
    trusted.verifies seed key.publicKey message usable]
  rfl

-- A signature and a public key are of the sizes that the schemas ask for.
theorem seals_sized (trusted : Trusted node crypto) (loaded : key.Loaded node)
    (message : ByteArray) :
    Base64.ofLength 64 (key.signB64 message) = true ∧
      Base64.ofLength 32 key.publicKeyB64 = true := by
  obtain ⟨seed, usable, signing⟩ := loaded.seeded
  have size := (trusted.imports seed key.publicKey usable).1
  have signed : (key.sign message).length = 64 := by
    rw [signing]
    exact trusted.signs seed message
  constructor
  · exact ofLength_toBase64 signed (by decide)
  · rw [loaded.written]
    exact ofLength_toBase64 size (by decide)

end

section

variable (sdk : Sdk) (cfg : DaemonConfig) (key : OperatorKey) (options : BuildRegistrationOptions)

def envelope (draw : Draw) : Except MeshError SignedRegistration := do
  let registration ← buildRegistration sdk cfg key options draw
  signRegistration sdk key registration

def registrationOf (draw : Draw) : SignedRegistration :=
  let fields := registrationFields cfg key options (capabilitiesOf cfg options) draw
  ⟨fields, key.signB64 (signedText registrationDomain fields.json), key.publicKeyB64⟩

def heartbeatOf (live : HeartbeatSnapshot) (draw : Draw) : SignedHeartbeat :=
  let fields := heartbeatFields cfg live draw
  ⟨fields, key.signB64 (signedText heartbeatDomain fields.json), key.publicKeyB64⟩

structure Member (node : NodeCrypto) (r : Routes) : Prop where
  trusted : Trusted node r.crypto
  loads : ∃ privateKeyB64, loadOperatorKey node privateKeyB64 = .ok key
  advertisable : cfg.advertisable r.sdk options = true
  canonical : networkOf r.sdk (js cfg.network) = some cfg.network
  network : cfg.network = r.config.network

end

variable {node : NodeCrypto} {r : Routes} {cfg : DaemonConfig} {key : OperatorKey}
  {options : BuildRegistrationOptions} {draw : Draw} {live : HeartbeatSnapshot}

theorem Member.loaded (member : Member cfg key options node r) : key.Loaded node :=
  member.loads.elim fun _ => loadOperatorKey_loaded

theorem registration_parsed (member : Member cfg key options node r) (valid : draw.valid) :
    parseSignedRegistration r.sdk (registrationOf cfg key options draw).body =
      some (registrationOf cfg key options draw) := by
  have address := algorandAddress_derived member.loaded.addressed
  have wellFormed :=
    registrationFields_wellFormed member.advertisable member.canonical address valid
  have sized := seals_sized member.trusted member.loaded (signedText registrationDomain
    (registrationFields cfg key options (capabilitiesOf cfg options) draw).json)
  exact parseSignedRegistration_body r.sdk
    (parseRegistrationBody_value r.sdk wellFormed member.canonical rfl) sized.1 sized.2

theorem registration_bytes (member : Member cfg key options node r) (draw : Draw) :
    canonicalRegistrationBytes r.sdk (registrationOf cfg key options draw).registration.value =
      .ok (signedText registrationDomain
        (registrationOf cfg key options draw).registration.json) := by
  have reads := readRegistration_value (registrationOf cfg key options draw).registration
  have normal : networkOf r.sdk (registrationOf cfg key options draw).registration.network =
      some cfg.network := member.canonical
  have bytes := canonicalRegistrationBytes_json r.sdk reads normal
  have whole : { (registrationOf cfg key options draw).registration with
      network := js cfg.network : RegistrationFields } =
      (registrationOf cfg key options draw).registration := rfl
  rwa [whole] at bytes

-- The daemon's own checks let the envelope pass.
theorem envelope_ok (member : Member cfg key options node r) (valid : draw.valid) :
    envelope r.sdk cfg key options draw = .ok (registrationOf cfg key options draw) := by
  have address := algorandAddress_derived member.loaded.addressed
  have built := buildRegistration_ok member.advertisable member.canonical address valid
  have bytes := registration_bytes member draw
  have parsed := registration_parsed member valid
  simp only [envelope, built, bind, Except.bind, signRegistration]
  simp only [registrationOf] at bytes parsed ⊢
  simp only [bytes, parsed]
  rfl

theorem signHeartbeat_ok (live : HeartbeatSnapshot) (draw : Draw) :
    signHeartbeat key (heartbeatFields cfg live draw) = .ok (heartbeatOf cfg key live draw) := by
  have bytes := canonicalHeartbeatBytes_json (readHeartbeat_value (heartbeatFields cfg live draw))
  simp only [signHeartbeat, bytes, bind, Except.bind]
  rfl

theorem assertFreshTimestamp_of_near {timestamp : Nat} {clock : Int} (near : Near timestamp clock) :
    assertFreshTimestamp timestamp clock = .ok () := by
  unfold Near at near
  have inside : ¬ (((timestamp : Int) - clock).natAbs : Int) > registrationMaxSkewMs := by
    unfold registrationMaxSkewMs
    omega
  simp only [assertFreshTimestamp, inside, if_false]

theorem registration_verified (member : Member cfg key options node r) :
    r.verifyRegistrationSignature (registrationOf cfg key options draw) = .ok () := by
  have bytes := registration_bytes member draw
  have address : (registrationOf cfg key options draw).registration.record.operatorAddress =
      key.address := textOf_js key.address
  simp only [Routes.verifyRegistrationSignature]
  rw [address, bytes]
  exact verifyEnvelope_own member.trusted member.loaded _ _ _ _

theorem heartbeat_verified (member : Member cfg key options node r) :
    r.verifyHeartbeatSignature (heartbeatOf cfg key live draw) key.address = .ok () := by
  have bytes := canonicalHeartbeatBytes_json (readHeartbeat_value (heartbeatFields cfg live draw))
  unfold Routes.verifyHeartbeatSignature
  simp only [heartbeatOf]
  rw [bytes]
  exact verifyEnvelope_own member.trusted member.loaded _ _ _ _

/-- What another handler does to the store and the nonces at one time. -/
inductive Disturbance
  | claim (now : Int) (nonce : String)
  | upsert (record : NodeRecord)
  | recordOutcome (nodeId : String) (o : ReportedOutcome)
  | beginRequest (nodeId : String)
  | endRequest (nodeId : String)

namespace Disturbance

def apply (gate : Gate) : Disturbance → Gate
  | claim now nonce => gate.burn (some (now, nonce))
  | upsert record => { gate with store := gate.store.upsert record }
  | recordOutcome nodeId o => { gate with store := gate.store.recordOutcome nodeId o }
  | beginRequest nodeId => { gate with store := gate.store.beginRequest nodeId }
  | endRequest nodeId => { gate with store := gate.store.endRequest nodeId }

def claims : Disturbance → List String
  | claim _ nonce => [nonce]
  | _ => []

-- The node id stays with the operator.
def Spares (cfg : DaemonConfig) (key : OperatorKey) : Disturbance → Prop
  | upsert record => record.registration.nodeId = cfg.nodeId →
    record.registration.operatorAddress = key.address
  | _ => True

end Disturbance

def Known (cfg : DaemonConfig) (gate : Gate) : Prop := (gate.store.get cfg.nodeId).isSome = true

def Owned (cfg : DaemonConfig) (key : OperatorKey) (gate : Gate) : Prop :=
  ∀ record, gate.store.get cfg.nodeId = some record →
    record.registration.operatorAddress = key.address

def Accepts (gate : Gate) (nonce : String) : Prop := ∀ now, gate.accepts now nonce = true

/-- From one gate to a later one no nonce is used but the listed, and the node stays what it is. -/
structure Keeps (cfg : DaemonConfig) (key : OperatorKey) (claims : List String)
    (gate later : Gate) : Prop where
  accepts : ∀ nonce, nonce ∉ claims → Accepts gate nonce → Accepts later nonce
  owned : Owned cfg key gate → Owned cfg key later
  known : Known cfg gate → Known cfg later

namespace Keeps

variable {gate later : Gate}

theorem refl (gate : Gate) : Keeps cfg key [] gate gate := ⟨fun _ _ => id, id, id⟩

theorem trans {claims more : List String} {last : Gate} (first : Keeps cfg key claims gate later)
    (second : Keeps cfg key more later last) : Keeps cfg key (claims ++ more) gate last where
  accepts nonce unused accepted := by
    rw [List.mem_append, not_or] at unused
    exact second.accepts nonce unused.2 (first.accepts nonce unused.1 accepted)
  owned owned := second.owned (first.owned owned)
  known known := second.known (first.known known)

theorem weaken {claims more : List String} (keeps : Keeps cfg key claims gate later)
    (listed : ∀ nonce ∈ claims, nonce ∈ more) : Keeps cfg key more gate later where
  accepts nonce unused := keeps.accepts nonce fun claimed => unused (listed nonce claimed)
  owned := keeps.owned
  known := keeps.known

theorem claim (gate : Gate) (now : Int) (nonce : String) :
    Keeps cfg key [nonce] gate (gate.burn (some (now, nonce))) where
  accepts other unused accepted later := by
    rw [List.mem_singleton] at unused
    exact gate.burn_others unused (accepted later)
  owned := id
  known := id

-- A store that changes no owner and forgets nobody.
theorem store {store : MemoryNodeStore}
    (owned : Owned cfg key gate → Owned cfg key { gate with store := store })
    (known : Known cfg gate → Known cfg { gate with store := store }) :
    Keeps cfg key [] gate { gate with store := store } :=
  ⟨fun _ _ => id, owned, known⟩

theorem upsert {record : NodeRecord} (own : record.registration.nodeId = cfg.nodeId →
      record.registration.operatorAddress = key.address) :
    Keeps cfg key [] gate { gate with store := gate.store.upsert record } := by
  apply store
  next =>
    intro owned stored found
    rw [MemoryNodeStore.get_upsert] at found
    split at found
    next same =>
      rw [← Option.some.inj found, (mergeRecord_registration _ _ _).1]
      exact own same.symm
    next => exact owned stored found
  next =>
    intro known
    unfold Known
    rw [MemoryNodeStore.get_upsert]
    split
    next => rfl
    next => exact known

-- A record is revised, and keeps its registration.
theorem revised {store : MemoryNodeStore} (nodeId : String) (revise : NodeRecord → NodeRecord)
    (same : ∀ record, (revise record).registration = record.registration)
    (reads : ∀ other, store.get other =
      if other = nodeId then (gate.store.get nodeId).map revise else gate.store.get other) :
    Keeps cfg key [] gate { gate with store := store } := by
  apply Keeps.store
  next =>
    intro owned stored found
    change store.get cfg.nodeId = some stored at found
    rw [reads] at found
    split at found
    next own =>
      obtain ⟨record, before, rfl⟩ := Option.map_eq_some_iff.mp found
      rw [same]
      exact owned record (own ▸ before)
    next => exact owned stored found
  next =>
    intro known
    change (store.get cfg.nodeId).isSome = true
    rw [reads]
    split
    next own =>
      rw [Option.isSome_map, ← own]
      exact known
    next => exact known

theorem disturbed (gate : Gate) {d : Disturbance} (spares : d.Spares cfg key) :
    Keeps cfg key d.claims gate (d.apply gate) := by
  cases d with
  | claim now nonce => exact claim gate now nonce
  | upsert record => exact upsert spares
  | recordOutcome nodeId o =>
    exact revised nodeId _ (by intro; rfl) (gate.store.get_recordOutcome nodeId o)
  | beginRequest nodeId =>
    exact revised nodeId _ (by intro; rfl) (gate.store.get_setInFlight nodeId _)
  | endRequest nodeId =>
    exact revised nodeId _ (by intro; rfl) (gate.store.get_setInFlight nodeId _)

theorem disturbances (gate : Gate) {ds : List Disturbance}
    (spares : ∀ d ∈ ds, d.Spares cfg key) :
    Keeps cfg key (ds.flatMap Disturbance.claims) gate (ds.foldl Disturbance.apply gate) := by
  induction ds generalizing gate with
  | nil => exact refl gate
  | cons d rest ih =>
    have first := disturbed gate (spares d List.mem_cons_self)
    have later := ih (d.apply gate) fun e member => spares e (List.mem_cons_of_mem d member)
    exact first.trans later

end Keeps

end X402Mesh.NodeDaemon
