import X402Mesh.Registry.Payloads

set_option autoImplicit false

namespace X402Mesh.Registry

open JsonText

namespace Base64

def digit (n : Nat) : Char :=
  if n < 26 then Char.ofNat (n + 65)
  else if n < 52 then Char.ofNat (n + 71)
  else if n < 62 then Char.ofNat (n - 4)
  else if n = 62 then '+'
  else '/'

def value (c : Char) : Nat :=
  if c.isUpper then c.toNat - 65
  else if c.isLower then c.toNat - 71
  else if c.isDigit then c.toNat + 4
  else if c = '+' then 62
  else 63

def standard (c : Char) : Bool := c.isAlphanum || c = '+' || c = '/'

-- `Buffer.from(text, "base64")` on a text that the pattern lets pass.
def decode : List Char → List Nat
  | a :: b :: c :: d :: rest =>
    if c = '=' then [value a * 4 + value b / 16]
    else if d = '=' then [value a * 4 + value b / 16, value b % 16 * 16 + value c / 4]
    else
      [value a * 4 + value b / 16, value b % 16 * 16 + value c / 4, value c % 4 * 64 + value d] ++
        decode rest
  | _ => []

def encode : List Nat → List Char
  | [] => []
  | [x] => [digit (x / 4), digit (x % 4 * 16), '=', '=']
  | [x, y] => [digit (x / 4), digit (x % 4 * 16 + y / 16), digit (y % 16 * 4), '=']
  | x :: y :: z :: rest =>
    [digit (x / 4), digit (x % 4 * 16 + y / 16), digit (y % 16 * 4 + z / 64), digit (z % 64)] ++
      encode rest

-- `/^[A-Za-z0-9+/]+={0,2}$/`.
def pattern (cs : List Char) : Bool :=
  let body := cs.takeWhile standard
  !body.isEmpty && cs.drop body.length ∈ [[], ['='], ['=', '=']]

def ofLength (byteLength : Nat) (text : String) : Bool :=
  let cs := text.toList
  !cs.isEmpty && cs.length % 4 = 0 && pattern cs && (decode cs).length = byteLength &&
    encode (decode cs) = cs

end Base64

structure SignedRegistration where
  registration : RegistrationFields
  signature : String
  publicKey : String

structure SignedHeartbeat where
  heartbeat : HeartbeatFields
  signature : String
  publicKey : String

def HeartbeatFields.value (g : HeartbeatFields) : JsValue :=
  .object
    [(js "nodeId", .string g.nodeId), (js "healthy", .bool g.healthy),
      (js "inFlight", .number g.inFlight), (js "maxConcurrency", .number g.maxConcurrency),
      (js "version", .string g.version), (js "timestamp", .number g.timestamp),
      (js "nonce", .string g.nonce)]

def heartbeatKeys : List String :=
  ["nodeId", "healthy", "inFlight", "maxConcurrency", "version", "timestamp", "nonce"]

def parseHeartbeatBody (h : JsValue) : Option HeartbeatFields := do
  let fields ← readHeartbeat h
  if strict heartbeatKeys h && fields.wellFormed then some fields else none

def sealText (byteLength : Nat) (v : JsValue) : Option String := do
  let text ← v.string? >>= plain?
  if Base64.ofLength byteLength text then some text else none

variable (sdk : Sdk)

def parseSignedRegistration (body : JsValue) : Option SignedRegistration := do
  let registration ← parseRegistrationBody sdk (body.property "registration") >>= readRegistration
  let signature ← sealText 64 (body.property "signature")
  let publicKey ← sealText 32 (body.property "publicKey")
  if strict ["registration", "signature", "publicKey"] body then
    some ⟨registration, signature, publicKey⟩
  else none

def parseSignedHeartbeat (body : JsValue) : Option SignedHeartbeat := do
  let heartbeat ← parseHeartbeatBody (body.property "heartbeat")
  let signature ← sealText 64 (body.property "signature")
  let publicKey ← sealText 32 (body.property "publicKey")
  if strict ["heartbeat", "signature", "publicKey"] body then
    some ⟨heartbeat, signature, publicKey⟩
  else none

-- `parseOrThrow`; the issues that the schema found are left out of the details.
def parseOrThrow {α : Type} (parsed : Option α) (what : String) : Except MeshError α :=
  match parsed with
  | some value => .ok value
  | none => .error ⟨.validation, "invalid " ++ what, [("what", what)]⟩

/-- The text of a string; the patterns leave no lone surrogate in any but the endpoint and the
quantization. -/
def textOf (s : JsString) : String := String.ofList (shown s)

def CapabilityFields.record (f : CapabilityFields) : NodeCapability where
  model := textOf f.model
  contextWindow := f.contextWindow.toNat
  pricePer1kTokensUsdc := textOf f.pricePer1kTokensUsdc
  quantization := f.quantization.map textOf

def RegistrationFields.record (f : RegistrationFields) : NodeRegistration where
  nodeId := textOf f.nodeId
  operatorAddress := textOf f.operatorAddress
  endpoint := textOf f.endpoint
  capabilities := f.capabilities.map CapabilityFields.record
  network := textOf f.network
  version := textOf f.version
  timestamp := f.timestamp.toNat
  nonce := textOf f.nonce

theorem textOf_js (s : String) : textOf (js s) = s := by
  simp [textOf, shown, js, scalar?, Function.comp_def]

theorem scalars_eq {s : JsString} {cs : List Char} (plain : s.mapM scalar? = some cs) :
    s = cs.map .scalar := by
  induction s generalizing cs with
  | nil =>
    cases Option.some.inj plain
    rfl
  | cons u rest ih =>
    simp only [List.mapM_cons, Option.bind_eq_bind, Option.bind_eq_some_iff, Option.pure_def,
      Option.some.injEq] at plain
    obtain ⟨c, first, tail, later, rfl⟩ := plain
    cases u with
    | surrogate index => cases first
    | scalar d =>
      obtain rfl := Option.some.inj first
      rw [List.map_cons, ih later]

theorem matching_js {pattern : String → Bool} {s : JsString} (fits : matching pattern s = true) :
    s = js (textOf s) := by
  cases plain : plain? s with
  | none => simp [matching, plain] at fits
  | some text =>
    obtain ⟨cs, scalars, rfl⟩ := Option.map_eq_some_iff.mp plain
    have whole : s = js (String.ofList cs) := by
      rw [js, String.toList_ofList]
      exact scalars_eq scalars
    rw [whole, textOf_js]

theorem readHeartbeat_value (g : HeartbeatFields) : readHeartbeat g.value = some g := by
  simp [readHeartbeat, HeartbeatFields.value, JsValue.property, JsValue.string?, JsValue.number?,
    JsValue.bool?]

theorem parseSignedRegistration_cases {body : JsValue} {signed : SignedRegistration}
    (passes : parseSignedRegistration sdk body = some signed) :
    strict ["registration", "signature", "publicKey"] body = true ∧
      IsRegistration sdk signed.registration.value signed.registration := by
  simp only [parseSignedRegistration, Option.bind_eq_bind, Option.bind_eq_some_iff] at passes
  obtain ⟨registration, ⟨parsed, accepted, reads⟩, _, -, _, -, checked⟩ := passes
  obtain ⟨f, network, -, wellFormed, normal, rfl⟩ := parseRegistrationBody_cases sdk accepted
  rw [readRegistration_value] at reads
  obtain rfl := Option.some.inj reads
  split at checked
  next keys =>
    obtain rfl := Option.some.inj checked
    have known := networkOf_idem sdk normal
    refine ⟨keys, readRegistration_value _, ?_⟩
    simp only [RegistrationFields.wellFormed, Bool.and_eq_true] at wellFormed ⊢
    simp only [known, Option.isSome_some]
    simp_all
  next => cases checked

theorem parseSignedHeartbeat_cases {body : JsValue} {signed : SignedHeartbeat}
    (passes : parseSignedHeartbeat body = some signed) :
    (readHeartbeat (body.property "heartbeat")).isSome = true ∧
      IsHeartbeat signed.heartbeat.value signed.heartbeat := by
  simp only [parseSignedHeartbeat, parseHeartbeatBody, Option.bind_eq_bind,
    Option.bind_eq_some_iff] at passes
  obtain ⟨heartbeat, ⟨fields, reads, accepted⟩, _, -, _, -, checked⟩ := passes
  split at accepted
  next passing =>
    obtain rfl := Option.some.inj accepted
    split at checked
    next =>
      obtain rfl := Option.some.inj checked
      simp only [Bool.and_eq_true] at passing
      exact ⟨by rw [reads]; rfl, readHeartbeat_value _, passing.2⟩
    next => cases checked
  next => cases accepted

theorem property_strict {keys : List String} {v : JsValue} (only : strict keys v = true)
    {key : String} (foreign : key ∉ keys) : v.property key = .undefined := by
  cases v with
  | object entries =>
    have missing : (entries.find? fun entry => entry.1 = js key) = none := by
      rw [List.find?_eq_none]
      intro entry member same
      simp only [strict, List.all_eq_true, List.any_eq_true, decide_eq_true_eq] at only
      obtain ⟨known, listed, named⟩ := only entry member
      rw [decide_eq_true_eq, named, js_inj] at same
      exact foreign (same ▸ listed)
    simp [JsValue.property, missing]
  | _ => rfl

-- A body that is a registration is no heartbeat.
theorem envelopes_differ {body : JsValue} {registration : SignedRegistration}
    {heartbeat : SignedHeartbeat} (first : parseSignedRegistration sdk body = some registration)
    (second : parseSignedHeartbeat body = some heartbeat) : False := by
  have absent : body.property "heartbeat" = .undefined :=
    property_strict (parseSignedRegistration_cases sdk first).1 (by decide)
  have present := (parseSignedHeartbeat_cases second).1
  rw [absent] at present
  cases present

def SignedRegistration.body (signed : SignedRegistration) : JsValue :=
  .object
    [(js "registration", signed.registration.value), (js "signature", .string (js signed.signature)),
      (js "publicKey", .string (js signed.publicKey))]

def SignedHeartbeat.body (signed : SignedHeartbeat) : JsValue :=
  .object
    [(js "heartbeat", signed.heartbeat.value), (js "signature", .string (js signed.signature)),
      (js "publicKey", .string (js signed.publicKey))]

theorem strict_capability (f : CapabilityFields) : strict capabilityKeys f.value = true := by
  cases f with | mk model contextWindow price quantization =>
  cases quantization <;> simp [strict, capabilityKeys, CapabilityFields.value]

theorem parseRegistrationBody_value {f : RegistrationFields} (wellFormed : f.wellFormed sdk = true)
    {network : String} (normal : networkOf sdk f.network = some network)
    (canonical : f.network = js network) :
    parseRegistrationBody sdk f.value = some f.value := by
  have listed : f.value.property "capabilities" =
      .array (f.capabilities.map CapabilityFields.value) := by
    simp [RegistrationFields.value, JsValue.property]
  have keys : strict registrationKeys f.value = true := by
    simp [strict, registrationKeys, RegistrationFields.value]
  have items : (f.capabilities.map CapabilityFields.value).all (strict capabilityKeys) = true := by
    simp [strict_capability]
  simp only [parseRegistrationBody, readRegistration_value, listed, normal, wellFormed, keys, items,
    JsValue.array?, Option.bind_eq_bind, Option.bind_some, Bool.and_self, if_true]
  rw [← canonical]
  rfl

theorem parseHeartbeatBody_value {g : HeartbeatFields} (wellFormed : g.wellFormed = true) :
    parseHeartbeatBody g.value = some g := by
  have keys : strict heartbeatKeys g.value = true := by
    simp [strict, heartbeatKeys, HeartbeatFields.value]
  simp [parseHeartbeatBody, readHeartbeat_value, keys, wellFormed]

theorem sealText_js {byteLength : Nat} {text : String}
    (canonical : Base64.ofLength byteLength text = true) :
    sealText byteLength (.string (js text)) = some text := by
  simp [sealText, JsValue.string?, plain?_js, canonical]

theorem parseSignedRegistration_body {signed : SignedRegistration}
    (registration : parseRegistrationBody sdk signed.registration.value =
      some signed.registration.value)
    (signature : Base64.ofLength 64 signed.signature = true)
    (publicKey : Base64.ofLength 32 signed.publicKey = true) :
    parseSignedRegistration sdk signed.body = some signed := by
  have keys : strict ["registration", "signature", "publicKey"] signed.body = true := by
    simp [strict, SignedRegistration.body]
  simp only [parseSignedRegistration, keys, if_true]
  simp [SignedRegistration.body, JsValue.property, registration, readRegistration_value,
    sealText_js signature, sealText_js publicKey]

theorem parseSignedHeartbeat_body {signed : SignedHeartbeat}
    (heartbeat : signed.heartbeat.wellFormed = true)
    (signature : Base64.ofLength 64 signed.signature = true)
    (publicKey : Base64.ofLength 32 signed.publicKey = true) :
    parseSignedHeartbeat signed.body = some signed := by
  have keys : strict ["heartbeat", "signature", "publicKey"] signed.body = true := by
    simp [strict, SignedHeartbeat.body]
  simp only [parseSignedHeartbeat, keys, if_true]
  simp [SignedHeartbeat.body, JsValue.property, parseHeartbeatBody_value heartbeat,
    sealText_js signature, sealText_js publicKey]

end X402Mesh.Registry
