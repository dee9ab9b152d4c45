import X402Mesh.NodeDaemon.OperatorKey

set_option autoImplicit false

namespace X402Mesh.NodeDaemon

open JsonText Registry

def daemonVersion : String := "0.1.0"

theorem defaultContextWindow_small : 8192 < 2 ^ 53 := by decide

def defaultContextWindow : JsNumber.Whole := JsNumber.whole 8192 defaultContextWindow_small

def defaultPricePer1kTokensUsdc : String := "0.0017"

structure DaemonConfig where
  nodeId : String
  endpoint : String
  models : List String
  network : String
  maxConcurrency : JsNumber.Whole

structure BuildRegistrationOptions where
  contextWindow : Option JsNumber.Whole
  pricePer1kTokensUsdc : Option String
  quantization : Option String
  version : Option String

structure Draw where
  now : JsNumber.Whole
  random : List UInt8

structure HeartbeatSnapshot where
  healthy : Bool
  inFlight : JsNumber.Whole

def hexByte (byte : UInt8) : List Char :=
  [hexDigit (byte.toNat / 16), hexDigit (byte.toNat % 16)]

def registrationNonce (random : List UInt8) : String := String.ofList (random.flatMap hexByte)

def Draw.nonce (draw : Draw) : String := registrationNonce draw.random

def buildCapabilities (cfg : DaemonConfig) (overrides : BuildRegistrationOptions) :
    Except MeshError (List CapabilityFields) :=
  if cfg.models.isEmpty then
    .error ⟨.validation, "a node must advertise at least one model", []⟩
  else
    .ok <| cfg.models.map fun model =>
      { model := js model
        contextWindow := overrides.contextWindow.getD defaultContextWindow
        pricePer1kTokensUsdc :=
          js (overrides.pricePer1kTokensUsdc.getD defaultPricePer1kTokensUsdc)
        quantization := overrides.quantization.map js }

variable (sdk : Sdk) (cfg : DaemonConfig) (key : OperatorKey) (options : BuildRegistrationOptions)

def registrationFields (capabilities : List CapabilityFields) (draw : Draw) :
    RegistrationFields where
  nodeId := js cfg.nodeId
  operatorAddress := js key.address
  endpoint := js cfg.endpoint
  capabilities := capabilities
  network := js cfg.network
  version := js (options.version.getD daemonVersion)
  timestamp := draw.now
  nonce := js draw.nonce

def buildRegistration (draw : Draw) : Except MeshError RegistrationFields := do
  let capabilities ← buildCapabilities cfg options
  let registration := registrationFields cfg key options capabilities draw
  parseOrThrow (parseRegistrationBody sdk registration.value >>= readRegistration)
    "node registration"

def signRegistration (registration : RegistrationFields) : Except MeshError SignedRegistration := do
  let message ← canonicalRegistrationBytes sdk registration.value
  let envelope : SignedRegistration :=
    ⟨registration, key.signB64 message, key.publicKeyB64⟩
  parseOrThrow (parseSignedRegistration sdk envelope.body) "signed node registration"

def heartbeatFields (live : HeartbeatSnapshot) (draw : Draw) : HeartbeatFields where
  nodeId := js cfg.nodeId
  healthy := live.healthy
  inFlight := live.inFlight
  maxConcurrency := cfg.maxConcurrency
  version := js daemonVersion
  timestamp := draw.now
  nonce := js draw.nonce

def signHeartbeat (heartbeat : HeartbeatFields) : Except MeshError SignedHeartbeat := do
  let message ← canonicalHeartbeatBytes heartbeat.value
  return ⟨heartbeat, key.signB64 message, key.publicKeyB64⟩

-- 408, 425, 429 and every 5xx.
def isRetryableStatus (status : Nat) : Bool :=
  status = 408 || status = 425 || status = 429 || 500 ≤ status

theorem hexDigit_hex : ∀ d < 16, isHex (hexDigit d) = true := by
  decide

theorem hexDigit_injective : ∀ d < 16, ∀ e < 16, hexDigit d = hexDigit e → d = e := by
  decide

theorem length_hexBytes (random : List UInt8) :
    (random.flatMap hexByte).length = 2 * random.length := by
  induction random with
  | nil => rfl
  | cons byte rest ih =>
    simp only [List.flatMap_cons, List.length_append, ih, hexByte, List.length_cons,
      List.length_nil]
    omega

theorem nonceText_registrationNonce {random : List UInt8} (size : random.length = 16) :
    nonceText (registrationNonce random) = true := by
  have hex : ∀ c ∈ random.flatMap hexByte, isHex c = true := by
    intro c member
    obtain ⟨byte, -, digit⟩ := List.mem_flatMap.mp member
    have small : byte.toNat < 256 := byte.toNat_lt
    simp only [hexByte, List.mem_cons, List.not_mem_nil, or_false] at digit
    rcases digit with rfl | rfl
    · exact hexDigit_hex _ (by omega)
    · exact hexDigit_hex _ (by omega)
  have length := length_hexBytes random
  simp only [nonceText, registrationNonce, String.toList_ofList, length, size, Bool.and_eq_true,
    decide_eq_true_eq, List.all_eq_true]
  exact ⟨by omega, hex⟩

-- Draws that differ make nonces that differ.
theorem registrationNonce_injective : Function.Injective registrationNonce := by
  intro xs ys same
  have texts : xs.flatMap hexByte = ys.flatMap hexByte := String.ofList_injective same
  clear same
  induction xs generalizing ys with
  | nil =>
    cases ys with
    | nil => rfl
    | cons y rest => cases texts
  | cons x rest ih =>
    cases ys with
    | nil => cases texts
    | cons y others =>
      simp only [List.flatMap_cons, hexByte, List.cons_append, List.nil_append,
        List.cons.injEq] at texts
      obtain ⟨high, low, later⟩ := texts
      have small : x.toNat < 256 := x.toNat_lt
      have small' : y.toNat < 256 := y.toNat_lt
      have upper := hexDigit_injective _ (by omega) _ (by omega) high
      have lower := hexDigit_injective _ (by omega) _ (by omega) low
      have byte : x = y := UInt8.toNat_inj.mp (by omega)
      rw [byte, ih later]

def capabilitiesOf : List CapabilityFields :=
  cfg.models.map fun model =>
    { model := js model
      contextWindow := options.contextWindow.getD defaultContextWindow
      pricePer1kTokensUsdc := js (options.pricePer1kTokensUsdc.getD defaultPricePer1kTokensUsdc)
      quantization := options.quantization.map js }

/-- What the schemas ask of a configuration. -/
def DaemonConfig.advertisable : Bool :=
  nodeIdText cfg.nodeId && endpointUrl sdk cfg.endpoint && 1 ≤ cfg.models.length &&
    cfg.models.length ≤ 64 && (capabilitiesOf cfg options).all CapabilityFields.wellFormed &&
    versionText (options.version.getD daemonVersion) && 0 < cfg.maxConcurrency.toNat &&
    cfg.maxConcurrency.toNat ≤ 4096

def Draw.valid (draw : Draw) : Prop :=
  0 < draw.now.toNat ∧ draw.now.toNat ≤ maxSafeInteger ∧ draw.random.length = 16

instance (draw : Draw) : Decidable draw.valid := inferInstanceAs (Decidable (_ ∧ _ ∧ _))

theorem matching_of {pattern : String → Bool} {s : String} :
    matching pattern (js s) = pattern s := by
  simp [matching, plain?_js]

variable {sdk cfg key options}

-- `resolveNetwork` answers the canonical name of a network.
theorem registrationFields_wellFormed (fits : cfg.advertisable sdk options = true)
    (canonical : networkOf sdk (js cfg.network) = some cfg.network)
    (address : algorandAddress key.address = true) {draw : Draw} (valid : draw.valid) :
    (registrationFields cfg key options (capabilitiesOf cfg options) draw).wellFormed sdk =
      true := by
  obtain ⟨positive, bounded, size⟩ := valid
  have url : String.ofList (shown (js cfg.endpoint)) = cfg.endpoint := textOf_js cfg.endpoint
  have length : (capabilitiesOf cfg options).length = cfg.models.length := List.length_map _
  have nonce := nonceText_registrationNonce size
  simp only [DaemonConfig.advertisable, Bool.and_eq_true, decide_eq_true_eq] at fits
  obtain ⟨⟨⟨⟨⟨⟨⟨named, reached⟩, one⟩, few⟩, capable⟩, versioned⟩, -⟩, -⟩ := fits
  simp only [RegistrationFields.wellFormed, registrationFields, matching_of, url, length, canonical,
    Draw.nonce, Bool.and_eq_true, decide_eq_true_eq, Option.isSome_some]
  exact ⟨⟨⟨⟨⟨⟨⟨⟨⟨⟨named, address⟩, reached⟩, one⟩, few⟩, capable⟩, trivial⟩, versioned⟩,
    decide_eq_true positive⟩, decide_eq_true bounded⟩, nonce⟩

theorem buildRegistration_ok (fits : cfg.advertisable sdk options = true)
    (canonical : networkOf sdk (js cfg.network) = some cfg.network)
    (address : algorandAddress key.address = true) {draw : Draw} (valid : draw.valid) :
    buildRegistration sdk cfg key options draw =
      .ok (registrationFields cfg key options (capabilitiesOf cfg options) draw) := by
  have wellFormed := registrationFields_wellFormed fits canonical address valid
  have served : cfg.models.isEmpty = false := by
    simp only [DaemonConfig.advertisable, Bool.and_eq_true, decide_eq_true_eq] at fits
    cases models : cfg.models with
    | nil => simp [models] at fits
    | cons => rfl
  have capabilities : buildCapabilities cfg options = .ok (capabilitiesOf cfg options) := by
    simp [buildCapabilities, served, capabilitiesOf]
  have parsed := parseRegistrationBody_value sdk wellFormed canonical rfl
  simp only [buildRegistration, capabilities, bind, Except.bind, parsed, Option.bind_some,
    readRegistration_value]
  rfl

theorem heartbeatFields_wellFormed (fits : cfg.advertisable sdk options = true)
    {live : HeartbeatSnapshot} (bounded : live.inFlight.toNat ≤ 1000000) {draw : Draw}
    (valid : draw.valid) : (heartbeatFields cfg live draw).wellFormed = true := by
  obtain ⟨positive, -, size⟩ := valid
  have nonce := nonceText_registrationNonce size
  have versioned : unitLength (js daemonVersion) = 5 := by decide
  simp only [DaemonConfig.advertisable, Bool.and_eq_true, decide_eq_true_eq] at fits
  obtain ⟨⟨⟨⟨⟨⟨⟨named, -⟩, -⟩, -⟩, -⟩, -⟩, some⟩, few⟩ := fits
  simp only [HeartbeatFields.wellFormed, heartbeatFields, matching_of, versioned, Draw.nonce,
    Bool.and_eq_true, decide_eq_true_eq]
  exact ⟨⟨⟨⟨⟨⟨⟨named, decide_eq_true bounded⟩, decide_eq_true some⟩, decide_eq_true few⟩,
    by decide⟩, by decide⟩, decide_eq_true positive⟩, nonce⟩

end X402Mesh.NodeDaemon
