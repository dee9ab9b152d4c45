import X402Mesh.Registry.Signing

set_option autoImplicit false

namespace X402Mesh.Registry

open JsonText

structure CapabilityFields where
  model : JsString
  contextWindow : JsNumber.Whole
  pricePer1kTokensUsdc : JsString
  quantization : Option JsString
  deriving DecidableEq

structure RegistrationFields where
  nodeId : JsString
  operatorAddress : JsString
  endpoint : JsString
  capabilities : List CapabilityFields
  network : JsString
  version : JsString
  timestamp : JsNumber.Whole
  nonce : JsString
  deriving DecidableEq

structure HeartbeatFields where
  nodeId : JsString
  healthy : Bool
  inFlight : JsNumber.Whole
  maxConcurrency : JsNumber.Whole
  version : JsString
  timestamp : JsNumber.Whole
  nonce : JsString
  deriving DecidableEq

namespace JsValue

def string? : JsValue → Option JsString
  | string s => some s
  | _ => none

def optionalString? : JsValue → Option (Option JsString)
  | undefined => some none
  | string s => some (some s)
  | _ => none

def number? : JsValue → Option JsNumber.Whole
  | number n => some n
  | _ => none

def bool? : JsValue → Option Bool
  | bool b => some b
  | _ => none

def array? : JsValue → Option (List JsValue)
  | array items => some items
  | _ => none

@[simp] theorem string?_eq_some {v : JsValue} {s : JsString} : v.string? = some s ↔ v = string s := by
  cases v <;> simp [string?]

@[simp] theorem number?_eq_some {v : JsValue} {n : JsNumber.Whole} :
    v.number? = some n ↔ v = number n := by
  cases v <;> simp [number?]

@[simp] theorem bool?_eq_some {v : JsValue} {b : Bool} : v.bool? = some b ↔ v = bool b := by
  cases v <;> simp [bool?]

@[simp] theorem array?_eq_some {v : JsValue} {items : List JsValue} :
    v.array? = some items ↔ v = array items := by
  cases v <;> simp [array?]

def ofOptional (s : Option JsString) : JsValue := (s.map string).getD undefined

@[simp] theorem optionalString?_eq_some {v : JsValue} {s : Option JsString} :
    v.optionalString? = some s ↔ v = ofOptional s := by
  cases v <;> cases s <;> simp [optionalString?, ofOptional]

end JsValue

def readCapability (c : JsValue) : Option CapabilityFields := do
  let model ← (c.property "model").string?
  let contextWindow ← (c.property "contextWindow").number?
  let pricePer1kTokensUsdc ← (c.property "pricePer1kTokensUsdc").string?
  let quantization ← (c.property "quantization").optionalString?
  return ⟨model, contextWindow, pricePer1kTokensUsdc, quantization⟩

def readRegistration (r : JsValue) : Option RegistrationFields := do
  let nodeId ← (r.property "nodeId").string?
  let operatorAddress ← (r.property "operatorAddress").string?
  let endpoint ← (r.property "endpoint").string?
  let items ← (r.property "capabilities").array?
  let capabilities ← items.mapM readCapability
  let network ← (r.property "network").string?
  let version ← (r.property "version").string?
  let timestamp ← (r.property "timestamp").number?
  let nonce ← (r.property "nonce").string?
  return ⟨nodeId, operatorAddress, endpoint, capabilities, network, version, timestamp, nonce⟩

def readHeartbeat (h : JsValue) : Option HeartbeatFields := do
  let nodeId ← (h.property "nodeId").string?
  let healthy ← (h.property "healthy").bool?
  let inFlight ← (h.property "inFlight").number?
  let maxConcurrency ← (h.property "maxConcurrency").number?
  let version ← (h.property "version").string?
  let timestamp ← (h.property "timestamp").number?
  let nonce ← (h.property "nonce").string?
  return ⟨nodeId, healthy, inFlight, maxConcurrency, version, timestamp, nonce⟩

theorem readCapability_cases {c : JsValue} {f : CapabilityFields}
    (reads : readCapability c = some f) :
    c.property "model" = .string f.model ∧ c.property "contextWindow" = .number f.contextWindow ∧
      c.property "pricePer1kTokensUsdc" = .string f.pricePer1kTokensUsdc ∧
      c.property "quantization" = .ofOptional f.quantization := by
  simp only [readCapability, Option.bind_eq_bind, Option.bind_eq_some_iff, Option.pure_def,
    Option.some.injEq, JsValue.string?_eq_some, JsValue.number?_eq_some,
    JsValue.optionalString?_eq_some] at reads
  obtain ⟨_, model, _, contextWindow, _, price, _, quantization, rfl⟩ := reads
  exact ⟨model, contextWindow, price, quantization⟩

theorem readRegistration_cases {r : JsValue} {f : RegistrationFields}
    (reads : readRegistration r = some f) :
    r.property "nodeId" = .string f.nodeId ∧
      r.property "operatorAddress" = .string f.operatorAddress ∧
      r.property "endpoint" = .string f.endpoint ∧
      (∃ items, r.property "capabilities" = .array items ∧
        items.mapM readCapability = some f.capabilities) ∧
      r.property "network" = .string f.network ∧ r.property "version" = .string f.version ∧
      r.property "timestamp" = .number f.timestamp ∧ r.property "nonce" = .string f.nonce := by
  simp only [readRegistration, Option.bind_eq_bind, Option.bind_eq_some_iff, Option.pure_def,
    Option.some.injEq, JsValue.string?_eq_some, JsValue.number?_eq_some,
    JsValue.array?_eq_some] at reads
  obtain ⟨_, nodeId, _, operator, _, endpoint, items, listed, _, capabilities, _, network, _,
    version, _, timestamp, _, nonce, rfl⟩ := reads
  exact ⟨nodeId, operator, endpoint, ⟨items, listed, capabilities⟩, network, version, timestamp,
    nonce⟩

theorem readHeartbeat_cases {h : JsValue} {f : HeartbeatFields} (reads : readHeartbeat h = some f) :
    h.property "nodeId" = .string f.nodeId ∧ h.property "healthy" = .bool f.healthy ∧
      h.property "inFlight" = .number f.inFlight ∧
      h.property "maxConcurrency" = .number f.maxConcurrency ∧
      h.property "version" = .string f.version ∧ h.property "timestamp" = .number f.timestamp ∧
      h.property "nonce" = .string f.nonce := by
  simp only [readHeartbeat, Option.bind_eq_bind, Option.bind_eq_some_iff, Option.pure_def,
    Option.some.injEq, JsValue.string?_eq_some, JsValue.number?_eq_some,
    JsValue.bool?_eq_some] at reads
  obtain ⟨_, nodeId, _, healthy, _, inFlight, _, maxConcurrency, _, version, _, timestamp, _, nonce,
    rfl⟩ := reads
  exact ⟨nodeId, healthy, inFlight, maxConcurrency, version, timestamp, nonce⟩

variable (sdk : Sdk)

def unitLength (s : JsString) : Nat := (s.flatMap units).length

-- A pattern has only characters of its own, so no text with a lone surrogate matches it.
def matching (pattern : String → Bool) (s : JsString) : Bool := (plain? s).any pattern

def networkOf (s : JsString) : Option String := (plain? s).bind (normalizeNetwork sdk)

namespace CapabilityFields

def wellFormed (f : CapabilityFields) : Bool :=
  matching modelId f.model && 0 < f.contextWindow.toNat && f.contextWindow.toNat ≤ 10000000 &&
    matching (fun price => (Money.usdcToAtomic price).isOk) f.pricePer1kTokensUsdc &&
    f.quantization.all fun q => 1 ≤ unitLength q && unitLength q ≤ 64

def value (f : CapabilityFields) : JsValue :=
  .object
    ([(js "model", .string f.model), (js "contextWindow", .number f.contextWindow),
        (js "pricePer1kTokensUsdc", .string f.pricePer1kTokensUsdc)] ++
      (f.quantization.map fun q => (js "quantization", JsValue.string q)).toList)

-- The members stand in the order of their keys.
def json (f : CapabilityFields) : Json :=
  .object
    ([(js "contextWindow", .number f.contextWindow), (js "model", .string f.model),
        (js "pricePer1kTokensUsdc", .string f.pricePer1kTokensUsdc)] ++
      (f.quantization.map fun q => (js "quantization", Json.string q)).toList)

end CapabilityFields

namespace RegistrationFields

def wellFormed (f : RegistrationFields) : Bool :=
  matching nodeIdText f.nodeId && matching algorandAddress f.operatorAddress &&
    endpointUrl sdk (String.ofList (shown f.endpoint)) &&
    1 ≤ f.capabilities.length && f.capabilities.length ≤ 64 &&
    f.capabilities.all CapabilityFields.wellFormed && (networkOf sdk f.network).isSome &&
    matching versionText f.version && 0 < f.timestamp.toNat &&
    f.timestamp.toNat ≤ maxSafeInteger && matching nonceText f.nonce

def value (f : RegistrationFields) : JsValue :=
  .object
    [(js "nodeId", .string f.nodeId), (js "operatorAddress", .string f.operatorAddress),
      (js "endpoint", .string f.endpoint),
      (js "capabilities", .array (f.capabilities.map CapabilityFields.value)),
      (js "network", .string f.network), (js "version", .string f.version),
      (js "timestamp", .number f.timestamp), (js "nonce", .string f.nonce)]

def json (f : RegistrationFields) : Json :=
  .object
    [(js "capabilities", .array (f.capabilities.map CapabilityFields.json)),
      (js "endpoint", .string f.endpoint), (js "network", .string f.network),
      (js "nodeId", .string f.nodeId), (js "nonce", .string f.nonce),
      (js "operatorAddress", .string f.operatorAddress), (js "timestamp", .number f.timestamp),
      (js "version", .string f.version)]

-- The eight fields are the same, the network by the name that it normalizes to.
def Agrees (f g : RegistrationFields) : Prop :=
  f.nodeId = g.nodeId ∧ f.operatorAddress = g.operatorAddress ∧ f.endpoint = g.endpoint ∧
    f.capabilities = g.capabilities ∧ networkOf sdk f.network = networkOf sdk g.network ∧
    f.version = g.version ∧ f.timestamp = g.timestamp ∧ f.nonce = g.nonce

end RegistrationFields

namespace HeartbeatFields

def wellFormed (f : HeartbeatFields) : Bool :=
  matching nodeIdText f.nodeId && f.inFlight.toNat ≤ 1000000 && 0 < f.maxConcurrency.toNat &&
    f.maxConcurrency.toNat ≤ 4096 && 1 ≤ unitLength f.version && unitLength f.version ≤ 64 &&
    0 < f.timestamp.toNat && matching nonceText f.nonce

def json (f : HeartbeatFields) : Json :=
  .object
    [(js "healthy", .bool f.healthy), (js "inFlight", .number f.inFlight),
      (js "maxConcurrency", .number f.maxConcurrency), (js "nodeId", .string f.nodeId),
      (js "nonce", .string f.nonce), (js "timestamp", .number f.timestamp),
      (js "version", .string f.version)]

end HeartbeatFields

-- A strict schema refuses a key that it does not name.
def strict (keys : List String) : JsValue → Bool
  | .object entries => entries.all fun entry => keys.any fun key => entry.1 = js key
  | _ => false

def capabilityKeys : List String :=
  ["model", "contextWindow", "pricePer1kTokensUsdc", "quantization"]

def registrationKeys : List String :=
  ["nodeId", "operatorAddress", "endpoint", "capabilities", "network", "version", "timestamp",
    "nonce"]

-- `NodeRegistrationSchema.parse`: the answer is a new object.
def parseRegistrationBody (r : JsValue) : Option JsValue := do
  let fields ← readRegistration r
  let items ← (r.property "capabilities").array?
  let network ← networkOf sdk fields.network
  if strict registrationKeys r && items.all (strict capabilityKeys) && fields.wellFormed sdk then
    return { fields with network := js network : RegistrationFields }.value
  else none

theorem sortEntries_texts (members : List (JsString × Json)) :
    sortEntries (members.map fun m => (m.1, (Except.ok m.2.text : Except MeshError (List Char)))) =
      (sortEntries members).map fun m => (m.1, .ok m.2.text) :=
  sortEntries_map (fun v : Json => Except.ok v.text) members

theorem entryTexts_ok (members : List (JsString × Json)) :
    entryTexts (members.map fun m => (m.1, .ok m.2.text)) = .ok (memberTexts members) := by
  induction members with
  | nil => rfl
  | cons m rest ih =>
    rw [List.map_cons, entryTexts, ih, memberTexts, memberText]
    rfl

theorem canonicalJson_object {entries : List (JsString × JsValue)}
    {members sorted : List (JsString × Json)}
    (texts : canonicalEntries entries = members.map fun m => (m.1, .ok m.2.text))
    (order : sortEntries members = sorted) :
    canonicalJson (.object entries) = .ok (Json.object sorted).text := by
  rw [canonicalJson, texts, sortEntries_texts, order, entryTexts_ok]
  rfl

theorem canonicalEntries_nil : canonicalEntries [] = [] := by
  rw [canonicalEntries]

theorem canonicalEntries_string (key s : JsString) (rest : List (JsString × JsValue)) :
    canonicalEntries ((key, .string s) :: rest) =
      (key, .ok (Json.string s).text) :: canonicalEntries rest := by
  rw [canonicalEntries, canonicalEntry, canonicalJson, Json.text]
  rfl

theorem canonicalEntries_number (key : JsString) (n : JsNumber.Whole)
    (rest : List (JsString × JsValue)) :
    canonicalEntries ((key, .number n) :: rest) =
      (key, .ok (Json.number n).text) :: canonicalEntries rest := by
  rw [canonicalEntries, canonicalEntry, canonicalJson, Json.text]
  rfl

theorem canonicalEntries_bool (key : JsString) (b : Bool) (rest : List (JsString × JsValue)) :
    canonicalEntries ((key, .bool b) :: rest) =
      (key, .ok (Json.bool b).text) :: canonicalEntries rest := by
  rw [canonicalEntries, canonicalEntry, canonicalJson]
  rfl

theorem canonicalEntries_array {items : List JsValue} {texts : List Json}
    (shown : canonicalItems items = .ok (itemTexts texts)) (key : JsString)
    (rest : List (JsString × JsValue)) :
    canonicalEntries ((key, .array items) :: rest) =
      (key, .ok (Json.array texts).text) :: canonicalEntries rest := by
  rw [canonicalEntries, canonicalEntry, canonicalJson, shown, Json.text]
  rfl

theorem capability_order (model contextWindow price : Json) (rest : Option Json) :
    sortEntries ([(js "model", model), (js "contextWindow", contextWindow),
        (js "pricePer1kTokensUsdc", price)] ++ (rest.map fun q => (js "quantization", q)).toList) =
      [(js "contextWindow", contextWindow), (js "model", model),
        (js "pricePer1kTokensUsdc", price)] ++ (rest.map fun q => (js "quantization", q)).toList := by
  cases rest <;> rfl

theorem projectCapability_json {c : JsValue} {f : CapabilityFields}
    (reads : readCapability c = some f) :
    canonicalJson (projectCapability c) = .ok f.json.text := by
  obtain ⟨model, contextWindow, price, quantization⟩ := readCapability_cases reads
  have order := capability_order (.string f.model) (.number f.contextWindow)
    (.string f.pricePer1kTokensUsdc) (f.quantization.map .string)
  rw [Option.map_map] at order
  rw [projectCapability, model, contextWindow, price, quantization]
  refine canonicalJson_object ?_ order
  cases f.quantization with
  | none =>
    simp [JsValue.ofOptional, JsValue.isUndefined, canonicalEntries_string, canonicalEntries_number,
      canonicalEntries_nil]
  | some q =>
    simp [JsValue.ofOptional, JsValue.isUndefined, canonicalEntries_string, canonicalEntries_number,
      canonicalEntries_nil]

theorem projected_json {items : List JsValue} {capabilities : List CapabilityFields}
    (reads : items.mapM readCapability = some capabilities) :
    canonicalItems (items.map projectCapability) =
      .ok (itemTexts (capabilities.map CapabilityFields.json)) := by
  induction items generalizing capabilities with
  | nil =>
    cases Option.some.inj reads
    rfl
  | cons c rest ih =>
    simp only [List.mapM_cons, Option.bind_eq_bind, Option.bind_eq_some_iff, Option.pure_def,
      Option.some.injEq] at reads
    obtain ⟨f, first, fields, later, rfl⟩ := reads
    have defined : (projectCapability c).isUndefined = false := rfl
    simp only [List.map_cons, canonicalItems, defined, Bool.false_eq_true, if_false, ih later,
      projectCapability_json first, itemTexts]
    rfl

theorem registration_order (nodeId operator endpoint capabilities network version timestamp
    nonce : Json) :
    sortEntries [(js "nodeId", nodeId), (js "operatorAddress", operator), (js "endpoint", endpoint),
        (js "capabilities", capabilities), (js "network", network), (js "version", version),
        (js "timestamp", timestamp), (js "nonce", nonce)] =
      [(js "capabilities", capabilities), (js "endpoint", endpoint), (js "network", network),
        (js "nodeId", nodeId), (js "nonce", nonce), (js "operatorAddress", operator),
        (js "timestamp", timestamp), (js "version", version)] := rfl

theorem heartbeat_order (nodeId healthy inFlight maxConcurrency version timestamp nonce : Json) :
    sortEntries [(js "nodeId", nodeId), (js "healthy", healthy), (js "inFlight", inFlight),
        (js "maxConcurrency", maxConcurrency), (js "version", version), (js "timestamp", timestamp),
        (js "nonce", nonce)] =
      [(js "healthy", healthy), (js "inFlight", inFlight), (js "maxConcurrency", maxConcurrency),
        (js "nodeId", nodeId), (js "nonce", nonce), (js "timestamp", timestamp),
        (js "version", version)] := rfl

def signedText (domain : String) (json : Json) : ByteArray :=
  (domain ++ "\n" ++ String.ofList json.text).toUTF8

theorem domainSeparatedBytes_ok {payload : JsValue} {json : Json}
    (shown : canonicalJson payload = .ok json.text) (domain : String) :
    domainSeparatedBytes domain payload = .ok (signedText domain json) := by
  rw [domainSeparatedBytes, shown]
  rfl

theorem canonicalHeartbeatBytes_json {h : JsValue} {f : HeartbeatFields}
    (reads : readHeartbeat h = some f) :
    canonicalHeartbeatBytes h = .ok (signedText heartbeatDomain f.json) := by
  obtain ⟨nodeId, healthy, inFlight, maxConcurrency, version, timestamp, nonce⟩ :=
    readHeartbeat_cases reads
  rw [canonicalHeartbeatBytes, nodeId, healthy, inFlight, maxConcurrency, version, timestamp, nonce]
  apply domainSeparatedBytes_ok
  refine canonicalJson_object ?_ (heartbeat_order (.string f.nodeId) (.bool f.healthy)
    (.number f.inFlight) (.number f.maxConcurrency) (.string f.version) (.number f.timestamp)
    (.string f.nonce))
  simp [canonicalEntries_string, canonicalEntries_number, canonicalEntries_bool,
    canonicalEntries_nil]

theorem networkValue_normal {s : JsString} {network : String}
    (normal : networkOf sdk s = some network) :
    networkValue sdk (.string s) = .ok (.string (js network)) := by
  rw [networkOf] at normal
  simp only [networkValue, normal]

theorem canonicalRegistrationBytes_json {r : JsValue} {f : RegistrationFields} {network : String}
    (reads : readRegistration r = some f) (normal : networkOf sdk f.network = some network) :
    canonicalRegistrationBytes sdk r = .ok (signedText registrationDomain
      { f with network := js network : RegistrationFields }.json) := by
  obtain ⟨nodeId, operator, endpoint, ⟨items, listed, capabilities⟩, given, version, timestamp,
    nonce⟩ := readRegistration_cases reads
  simp only [canonicalRegistrationBytes, given, networkValue_normal sdk normal,
    projectedCapabilities, nodeId, operator, endpoint, listed, version, timestamp, nonce, bind,
    Except.bind]
  apply domainSeparatedBytes_ok
  refine canonicalJson_object ?_ (registration_order (.string f.nodeId) (.string f.operatorAddress)
    (.string f.endpoint) (.array (f.capabilities.map CapabilityFields.json)) (.string (js network))
    (.string f.version) (.number f.timestamp) (.string f.nonce))
  simp [canonicalEntries_string, canonicalEntries_number,
    canonicalEntries_array (projected_json capabilities), canonicalEntries_nil]

theorem signedText_injective {domain : String} {v w : Json}
    (same : signedText domain v = signedText domain w) : v = w := by
  have texts : domain ++ "\n" ++ String.ofList v.text = domain ++ "\n" ++ String.ofList w.text :=
    String.toByteArray_inj.mp same
  have chars := congrArg String.toList texts
  simp only [String.toList_append, List.append_assoc, List.append_cancel_left_eq,
    String.toList_ofList] at chars
  exact text_injective chars

-- The domains part at their sixteenth character.
theorem domains_differ (v w : Json) :
    signedText registrationDomain v ≠ signedText heartbeatDomain w := by
  intro same
  have texts : registrationDomain ++ "\n" ++ String.ofList v.text =
      heartbeatDomain ++ "\n" ++ String.ofList w.text := String.toByteArray_inj.mp same
  have chars := congrArg (fun s : String => s.toList[15]?) texts
  simp only [String.toList_append, List.append_assoc] at chars
  rw [List.getElem?_append_left (by decide), List.getElem?_append_left (by decide)] at chars
  exact absurd chars (by decide)

theorem CapabilityFields.json_injective {f g : CapabilityFields} (same : f.json = g.json) :
    f = g := by
  cases f with | mk model contextWindow price quantization =>
  cases g with | mk model' contextWindow' price' quantization' =>
  cases quantization <;> cases quantization' <;>
    simp_all [CapabilityFields.json]

theorem RegistrationFields.json_injective {f g : RegistrationFields} (same : f.json = g.json) :
    f = g := by
  have lists {xs ys : List CapabilityFields}
      (equal : xs.map CapabilityFields.json = ys.map CapabilityFields.json) : xs = ys :=
    (List.map_inj_right fun _ _ => CapabilityFields.json_injective).mp equal
  simp only [json, Json.object.injEq, List.cons.injEq, Prod.mk.injEq, Json.array.injEq,
    Json.string.injEq, Json.number.injEq, true_and, and_true] at same
  obtain ⟨capabilities, endpoint, network, nodeId, nonce, operator, timestamp, version⟩ := same
  have listed := lists capabilities
  cases f
  cases g
  simp_all

theorem HeartbeatFields.json_injective {f g : HeartbeatFields} (same : f.json = g.json) :
    f = g := by
  cases f
  cases g
  simp_all [json]

theorem plain?_js (s : String) : plain? (js s) = some s := by
  have chars (cs : List Char) : (cs.map CodePoint.scalar).mapM scalar? = some cs := by
    induction cs with
    | nil => rfl
    | cons c rest ih => simp [ih, scalar?]
  rw [plain?, js, chars]
  simp

theorem networkOf_idem {s : JsString} {network : String} (normal : networkOf sdk s = some network) :
    networkOf sdk (js network) = some network := by
  obtain ⟨raw, -, known⟩ := Option.bind_eq_some_iff.mp normal
  rw [networkOf, plain?_js]
  exact normalizeNetwork_idem sdk known

@[simp] theorem js_inj {a b : String} : js a = js b ↔ a = b :=
  ⟨js_injective, congrArg js⟩

theorem readCapability_value (f : CapabilityFields) : readCapability f.value = some f := by
  cases f with | mk model contextWindow price quantization =>
  cases quantization <;>
    simp [readCapability, CapabilityFields.value, JsValue.property, JsValue.string?,
      JsValue.number?, JsValue.optionalString?]

theorem readRegistration_value (f : RegistrationFields) : readRegistration f.value = some f := by
  have capabilities (list : List CapabilityFields) :
      (list.map CapabilityFields.value).mapM readCapability = some list := by
    induction list with
    | nil => rfl
    | cons c rest ih => simp [readCapability_value, ih]
  simp [readRegistration, RegistrationFields.value, JsValue.property, JsValue.string?,
    JsValue.number?, JsValue.array?, capabilities]

theorem parseRegistrationBody_cases {r parsed : JsValue}
    (passes : parseRegistrationBody sdk r = some parsed) :
    ∃ f network, readRegistration r = some f ∧ f.wellFormed sdk = true ∧
      networkOf sdk f.network = some network ∧
      parsed = { f with network := js network : RegistrationFields }.value := by
  simp only [parseRegistrationBody, Option.bind_eq_bind, Option.bind_eq_some_iff] at passes
  obtain ⟨f, reads, items, -, network, normal, checked⟩ := passes
  split at checked
  next passing =>
    simp only [Bool.and_eq_true] at passing
    exact ⟨f, network, reads, passing.2, normal, (Option.some.inj checked).symm⟩
  next => cases checked

-- A registration that the schema lets pass: other properties, and the order of all, are free.
def IsRegistration (r : JsValue) (f : RegistrationFields) : Prop :=
  readRegistration r = some f ∧ f.wellFormed sdk = true

def IsHeartbeat (h : JsValue) (g : HeartbeatFields) : Prop :=
  readHeartbeat h = some g ∧ g.wellFormed = true

theorem IsRegistration.bytes {r : JsValue} {f : RegistrationFields} (valid : IsRegistration sdk r f) :
    ∃ network, networkOf sdk f.network = some network ∧
      canonicalRegistrationBytes sdk r = .ok (signedText registrationDomain
        { f with network := js network : RegistrationFields }.json) := by
  obtain ⟨reads, passing⟩ := valid
  have known : (networkOf sdk f.network).isSome = true := by
    simp only [RegistrationFields.wellFormed, Bool.and_eq_true] at passing
    exact passing.1.1.1.1.2
  obtain ⟨network, normal⟩ := Option.isSome_iff_exists.mp known
  exact ⟨network, normal, canonicalRegistrationBytes_json sdk reads normal⟩

theorem registration_bytes_iff {r r' : JsValue} {f f' : RegistrationFields}
    (valid : IsRegistration sdk r f) (valid' : IsRegistration sdk r' f') :
    canonicalRegistrationBytes sdk r = canonicalRegistrationBytes sdk r' ↔ f.Agrees sdk f' := by
  obtain ⟨network, normal, bytes⟩ := valid.bytes
  obtain ⟨network', normal', bytes'⟩ := valid'.bytes
  rw [bytes, bytes', RegistrationFields.Agrees, normal, normal']
  constructor
  · intro same
    have fields := RegistrationFields.json_injective (signedText_injective (Except.ok.inj same))
    simp only [RegistrationFields.mk.injEq, js_inj] at fields
    simpa using fields
  · rintro ⟨nodeId, operator, endpoint, capabilities, networks, version, timestamp, nonce⟩
    rw [nodeId, operator, endpoint, capabilities, Option.some.inj networks, version, timestamp,
      nonce]

theorem heartbeat_bytes_iff {h h' : JsValue} {g g' : HeartbeatFields} (valid : IsHeartbeat h g)
    (valid' : IsHeartbeat h' g') :
    canonicalHeartbeatBytes h = canonicalHeartbeatBytes h' ↔ g = g' := by
  rw [canonicalHeartbeatBytes_json valid.1, canonicalHeartbeatBytes_json valid'.1]
  constructor
  · intro same
    exact HeartbeatFields.json_injective (signedText_injective (Except.ok.inj same))
  · intro same
    rw [same]

theorem parsed_bytes {r parsed : JsValue} (passes : parseRegistrationBody sdk r = some parsed) :
    canonicalRegistrationBytes sdk parsed = canonicalRegistrationBytes sdk r := by
  obtain ⟨f, network, reads, -, normal, rfl⟩ := parseRegistrationBody_cases sdk passes
  rw [canonicalRegistrationBytes_json sdk reads normal,
    canonicalRegistrationBytes_json sdk (readRegistration_value _) (networkOf_idem sdk normal)]

theorem canonical_bytes_faithful :
    (∀ r r' f f', IsRegistration sdk r f → IsRegistration sdk r' f' →
      (canonicalRegistrationBytes sdk r).isOk = true ∧
      (canonicalRegistrationBytes sdk r = canonicalRegistrationBytes sdk r' ↔ f.Agrees sdk f')) ∧
    (∀ h h' g g', IsHeartbeat h g → IsHeartbeat h' g' →
      (canonicalHeartbeatBytes h).isOk = true ∧
      (canonicalHeartbeatBytes h = canonicalHeartbeatBytes h' ↔ g = g')) ∧
    (∀ r h f g, IsRegistration sdk r f → IsHeartbeat h g →
      canonicalRegistrationBytes sdk r ≠ canonicalHeartbeatBytes h) ∧
    ∀ r parsed, parseRegistrationBody sdk r = some parsed →
      canonicalRegistrationBytes sdk parsed = canonicalRegistrationBytes sdk r := by
  refine ⟨?_, ?_, ?_, ?_⟩
  · intro r r' f f' valid valid'
    obtain ⟨network, -, bytes⟩ := valid.bytes
    exact ⟨by rw [bytes]; rfl, registration_bytes_iff sdk valid valid'⟩
  · intro h h' g g' valid valid'
    exact ⟨by rw [canonicalHeartbeatBytes_json valid.1]; rfl, heartbeat_bytes_iff valid valid'⟩
  · intro r h f g registration heartbeat same
    obtain ⟨network, -, bytes⟩ := registration.bytes
    rw [bytes, canonicalHeartbeatBytes_json heartbeat.1] at same
    exact domains_differ _ _ (Except.ok.inj same)
  · intro r parsed passes
    exact parsed_bytes sdk passes

def demoFields : RegistrationFields where
  nodeId := js "node-a"
  operatorAddress := List.replicate 58 (.scalar 'A')
  endpoint := js "https://node-a.example"
  capabilities := [⟨js "llama3.1:8b", JsNumber.whole 8192 (by decide), js "0.01", none⟩]
  network := js testnet
  version := js "1.0.0"
  timestamp := JsNumber.whole 1700000000000 (by decide)
  nonce := js "00112233445566778899aabbccddeeff"

/-- The same registration with its properties in another order, the long name of its network, and
one property more. -/
def demoReordered : JsValue :=
  .object
    [(js "nonce", .string demoFields.nonce), (js "note", .null),
      (js "network", .string (js testnetGenesis)), (js "version", .string demoFields.version),
      (js "timestamp", .number demoFields.timestamp), (js "nodeId", .string demoFields.nodeId),
      (js "endpoint", .string demoFields.endpoint),
      (js "capabilities", .array (demoFields.capabilities.map CapabilityFields.value)),
      (js "operatorAddress", .string demoFields.operatorAddress)]

def demoBeat : HeartbeatFields where
  nodeId := js "node-a"
  healthy := true
  inFlight := JsNumber.whole 0 (by decide)
  maxConcurrency := JsNumber.whole 8 (by decide)
  version := js "1.0.0"
  timestamp := JsNumber.whole 1700000000000 (by decide)
  nonce := js "00112233445566778899aabbccddeeff"

def demoBeatBody : JsValue :=
  .object
    [(js "nodeId", .string demoBeat.nodeId), (js "healthy", .bool demoBeat.healthy),
      (js "inFlight", .number demoBeat.inFlight),
      (js "maxConcurrency", .number demoBeat.maxConcurrency),
      (js "version", .string demoBeat.version), (js "timestamp", .number demoBeat.timestamp),
      (js "nonce", .string demoBeat.nonce)]

theorem canonical_bytes_faithful_reordered :
    canonicalRegistrationBytes demoSdk demoFields.value =
        canonicalRegistrationBytes demoSdk demoReordered ∧
      (canonicalHeartbeatBytes demoBeatBody).isOk = true ∧
      canonicalRegistrationBytes demoSdk demoReordered ≠ canonicalHeartbeatBytes demoBeatBody ∧
      canonicalRegistrationBytes demoSdk demoFields.value =
        canonicalRegistrationBytes demoSdk demoFields.value := by
  have plain : IsRegistration demoSdk demoFields.value demoFields :=
    ⟨readRegistration_value demoFields, by decide⟩
  have other : IsRegistration demoSdk demoReordered
      { demoFields with network := js testnetGenesis } := ⟨rfl, by decide +kernel⟩
  have beat : IsHeartbeat demoBeatBody demoBeat := ⟨rfl, by decide +kernel⟩
  have faithful := canonical_bytes_faithful demoSdk
  refine ⟨(faithful.1 _ _ _ _ plain other).2.mpr ?_, (faithful.2.1 _ _ _ _ beat beat).1,
    faithful.2.2.1 _ _ _ _ other beat, faithful.2.2.2 demoFields.value demoFields.value ?_⟩
  · exact ⟨rfl, rfl, rfl, rfl, by decide, rfl, rfl, rfl⟩
  · rfl

end X402Mesh.Registry
