import X402Mesh.Registry.Nodes

set_option autoImplicit false

namespace X402Mesh.Registry

open Text

/-- The `url` is zod's check of an absolute URL. The SDK knows two networks, and answers the
canonical name of one for either of its spellings. -/
structure Sdk where
  isUrl : String → Bool
  normalizeAlgorandNetwork : String → Option String
  canonical : ∀ raw network, normalizeAlgorandNetwork raw = some network →
    normalizeAlgorandNetwork network = some network
  trimmed : ∀ raw network, normalizeAlgorandNetwork raw = some network →
    trim network.toList = network.toList ∧ network ≠ ""

variable (sdk : Sdk)

def normalizeNetwork (raw : String) : Option String :=
  let candidate := trim raw.toList
  if candidate.isEmpty then none else sdk.normalizeAlgorandNetwork (String.ofList candidate)

def algorandAddress (address : String) : Bool :=
  address.toList.length = 58 && address.toList.all fun c => c.isUpper || ('2' ≤ c && c ≤ '7')

def endpointUrl (endpoint : String) : Bool :=
  sdk.isUrl endpoint && utf16Length endpoint.toList ≤ 512 &&
    ("http://".toList.isPrefixOf endpoint.toList || "https://".toList.isPrefixOf endpoint.toList)

def modelId (model : String) : Bool :=
  model ≠ "" && model.toList.length ≤ 200 &&
    model.toList.all fun c => c.isAlphanum || c ∈ ['.', '_', ':', '/', '-']

def nodeIdText (nodeId : String) : Bool :=
  nodeId.toList.length ≤ 128 &&
    match nodeId.toList with
    | [] => false
    | first :: rest =>
      first.isAlphanum && rest.all fun c => c.isAlphanum || c ∈ ['.', '_', ':', '-']

def isHex (c : Char) : Bool := c.isDigit || ('a' ≤ c && c ≤ 'f') || ('A' ≤ c && c ≤ 'F')

def nonceText (nonce : String) : Bool :=
  16 ≤ nonce.toList.length && nonce.toList.length ≤ 128 && nonce.toList.all isHex

def versionText (version : String) : Bool :=
  version ≠ "" && version.toList.length ≤ 32 &&
    version.toList.all fun c => c.isAlphanum || c ∈ ['.', '+', '-']

def maxSafeInteger : Nat := 2 ^ 53 - 1

def NodeCapability.wellFormed (c : NodeCapability) : Bool :=
  modelId c.model && 0 < c.contextWindow && c.contextWindow ≤ 10000000 &&
    (Money.usdcToAtomic c.pricePer1kTokensUsdc).isOk &&
    c.quantization.all fun q => 1 ≤ utf16Length q.toList && utf16Length q.toList ≤ 64

-- All that the schema asks but the network.
def NodeRegistration.wellFormed (r : NodeRegistration) : Bool :=
  nodeIdText r.nodeId && algorandAddress r.operatorAddress && endpointUrl sdk r.endpoint &&
    1 ≤ r.capabilities.length && r.capabilities.length ≤ 64 &&
    r.capabilities.all NodeCapability.wellFormed && versionText r.version &&
    0 < r.timestamp && r.timestamp ≤ maxSafeInteger && nonceText r.nonce

def NodeHealth.wellFormed (h : NodeHealth) : Bool :=
  1 ≤ utf16Length h.nodeId.toList && utf16Length h.nodeId.toList ≤ 128 &&
    0 ≤ h.latencyMsP50 && 0 ≤ h.latencyMsP95 && 0 < h.maxConcurrency && h.maxConcurrency ≤ 4096 &&
    0 ≤ h.uptimeRatio && h.uptimeRatio ≤ 1 && 0 ≤ h.qualityScore && h.qualityScore ≤ 1 &&
    0 ≤ h.lastSeenAt

-- A schema answers what it was given with the network in its canonical spelling.
def parseRegistration (r : NodeRegistration) : Option NodeRegistration :=
  if r.wellFormed sdk then
    (normalizeNetwork sdk r.network).map fun network => { r with network := network }
  else none

def parseNodeRecord (record : NodeRecord) : Option NodeRecord :=
  if record.health.wellFormed && isDecimal record.totalPaidAtomic.toList &&
      decide (0 ≤ record.registeredAt) then
    (parseRegistration sdk record.registration).map fun registration =>
      { record with registration := registration }
  else none

def NodeRecord.valid (record : NodeRecord) : Bool := (parseNodeRecord sdk record).isSome

theorem normalizeNetwork_idem {raw network : String}
    (normal : normalizeNetwork sdk raw = some network) :
    normalizeNetwork sdk network = some network := by
  unfold normalizeNetwork at normal
  dsimp only at normal
  split at normal
  next => cases normal
  next =>
    have plain := sdk.trimmed _ _ normal
    have named : network.toList ≠ [] := fun empty => plain.2 (String.toList_eq_nil_iff.mp empty)
    rw [normalizeNetwork, plain.1, String.ofList_toList, sdk.canonical _ _ normal]
    simp [named]

theorem parseRegistration_idem {r parsed : NodeRegistration}
    (passes : parseRegistration sdk r = some parsed) :
    parseRegistration sdk parsed = some parsed := by
  unfold parseRegistration at passes
  split at passes
  next wellFormed =>
    obtain ⟨network, normal, rfl⟩ := Option.map_eq_some_iff.mp passes
    have same : NodeRegistration.wellFormed sdk { r with network := network } = true := wellFormed
    simp only [parseRegistration, same, if_true, normalizeNetwork_idem sdk normal, Option.map_some]
  next => cases passes

def mainnet : String := "algorand:wGHE2Pwdvd7S12BL5FaOP20EGYesN73k"

def mainnetGenesis : String := "algorand:wGHE2Pwdvd7S12BL5FaOP20EGYesN73ktiC1qzkkit8="

def testnet : String := "algorand:SGO1GKSzyE7IEPItTxCByw9x8FmnrCDe"

def testnetGenesis : String := "algorand:SGO1GKSzyE7IEPItTxCByw9x8FmnrCDexi9/cOUJOiI="

def knownNetwork (raw : String) : Option String :=
  if raw = mainnet ∨ raw = mainnetGenesis then some mainnet
  else if raw = testnet ∨ raw = testnetGenesis then some testnet
  else none

theorem knownNetwork_answers {raw network : String} (known : knownNetwork raw = some network) :
    network = mainnet ∨ network = testnet := by
  unfold knownNetwork at known
  split at known
  next => exact .inl (Option.some.inj known).symm
  next =>
    split at known
    next => exact .inr (Option.some.inj known).symm
    next => cases known

def demoSdk : Sdk where
  isUrl url := "https://".toList.isPrefixOf url.toList
  normalizeAlgorandNetwork := knownNetwork
  canonical := by
    intro raw network known
    rcases knownNetwork_answers known with rfl | rfl <;> decide +kernel
  trimmed := by
    intro raw network known
    rcases knownNetwork_answers known with rfl | rfl <;> decide

def demoRegistered : NodeRegistration where
  nodeId := "node-a"
  operatorAddress := String.ofList (List.replicate 58 'A')
  endpoint := "https://node-a.example"
  capabilities := [⟨"llama3.1:8b", 8192, "0.01", none⟩]
  network := testnet
  version := "1.0.0"
  timestamp := 1700000000000
  nonce := "00112233445566778899aabbccddeeff"

def demoNode : NodeRecord where
  registration := demoRegistered
  health := {
    nodeId := "node-a"
    healthy := true
    latencyMsP50 := 0
    latencyMsP95 := 0
    inFlight := 0
    maxConcurrency := 8
    uptimeRatio := 1
    qualityScore := 1
    consecutiveFailures := 0
    lastSeenAt := 1700000000000 }
  usdcOptedIn := true
  totalRequests := 0
  totalPaidAtomic := "0"
  registeredAt := 1700000000000

end X402Mesh.Registry
