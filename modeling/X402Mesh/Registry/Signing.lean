import X402Mesh.Lib.JsonText
import X402Mesh.Registry.Schemas

set_option autoImplicit false

-- A value is what a handler has of a request body: an object is the list of its own properties, in
-- any order, with any others among them.

namespace X402Mesh.Registry

open JsonText

inductive JsValue
  | undefined
  | null
  | bool (b : Bool)
  | number (n : JsNumber.Whole)
  | nonFinite (name : String)
  | bigint (i : Int)
  | string (s : JsString)
  | array (items : List JsValue)
  | object (entries : List (JsString × JsValue))

namespace JsValue

def isUndefined : JsValue → Bool
  | undefined => true
  | _ => false

def typeOf : JsValue → String
  | undefined => "undefined"
  | null | array _ | object _ => "object"
  | bool _ => "boolean"
  | number _ | nonFinite _ => "number"
  | bigint _ => "bigint"
  | string _ => "string"

def property (v : JsValue) (key : String) : JsValue :=
  match v with
  | object entries => ((entries.find? fun entry => entry.1 = js key).map (·.2)).getD undefined
  | _ => undefined

end JsValue

-- The UTF-16 units of a code point.
def units : CodePoint → List Nat
  | .scalar c =>
    if c.toNat < 0x10000 then [c.toNat]
    else [0xD800 + (c.toNat - 0x10000) / 1024, 0xDC00 + (c.toNat - 0x10000) % 1024]
  | .surrogate index => [0xD800 + index]

def keyLt (a b : JsString) : Bool := a.flatMap units < b.flatMap units

section

variable {α β : Type}

def insertEntry (entry : JsString × α) : List (JsString × α) → List (JsString × α)
  | [] => [entry]
  | first :: rest =>
    if keyLt first.1 entry.1 then first :: insertEntry entry rest else entry :: first :: rest

-- `entries.sort` by key; no two entries of an object have one key.
def sortEntries (entries : List (JsString × α)) : List (JsString × α) :=
  entries.foldr insertEntry []

theorem insertEntry_map (f : α → β) (entry : JsString × α) (entries : List (JsString × α)) :
    insertEntry (entry.1, f entry.2) (entries.map fun e => (e.1, f e.2)) =
      (insertEntry entry entries).map fun e => (e.1, f e.2) := by
  induction entries with
  | nil => rfl
  | cons first rest ih =>
    simp only [insertEntry, List.map_cons]
    split
    next => rw [ih, List.map_cons]
    next => rfl

-- The order looks at the keys alone.
theorem sortEntries_map (f : α → β) (entries : List (JsString × α)) :
    sortEntries (entries.map fun e => (e.1, f e.2)) =
      (sortEntries entries).map fun e => (e.1, f e.2) := by
  induction entries with
  | nil => rfl
  | cons first rest ih =>
    rw [List.map_cons, sortEntries, List.foldr_cons]
    change insertEntry _ (sortEntries _) = _
    rw [ih]
    exact insertEntry_map f first (sortEntries rest)

end

def entryTexts : List (JsString × Except MeshError (List Char)) → Except MeshError (List (List Char))
  | [] => .ok []
  | (key, text) :: rest => do
    let text ← text
    let texts ← entryTexts rest
    return (quote key ++ ':' :: text) :: texts

mutual

def canonicalJson : JsValue → Except MeshError (List Char)
  | .null => .ok ['n', 'u', 'l', 'l']
  | .string s => .ok (quote s)
  | .bool b => .ok (Json.text (.bool b))
  | .number n => .ok (JsNumber.text n)
  | .nonFinite name =>
    .error ⟨.validation, "cannot canonicalize a non-finite number", [("value", name)]⟩
  | .bigint i => .ok (quote (js (toString i)))
  | .array items => (canonicalItems items).map fun texts => '[' :: (join texts ++ [']'])
  | .object entries =>
    (entryTexts (sortEntries (canonicalEntries entries))).map fun texts =>
      '{' :: (join texts ++ ['}'])
  | .undefined => .error ⟨.validation, "cannot canonicalize value", [("type", "undefined")]⟩

def canonicalItems : List JsValue → Except MeshError (List (List Char))
  | [] => .ok []
  | v :: rest => do
    let text ← if v.isUndefined then .ok ['n', 'u', 'l', 'l'] else canonicalJson v
    let texts ← canonicalItems rest
    return text :: texts

def canonicalEntries : List (JsString × JsValue) → List (JsString × Except MeshError (List Char))
  | [] => []
  | entry :: rest => canonicalEntry entry ++ canonicalEntries rest

def canonicalEntry : JsString × JsValue → List (JsString × Except MeshError (List Char))
  | (key, v) => if v.isUndefined then [] else [(key, canonicalJson v)]

end

def registrationDomain : String := "x402-mesh/node-registration/v1"

def heartbeatDomain : String := "x402-mesh/node-heartbeat/v1"

def domainSeparatedBytes (domain : String) (payload : JsValue) : Except MeshError ByteArray :=
  (canonicalJson payload).map fun json => (domain ++ "\n" ++ String.ofList json).toUTF8

def projectCapability (c : JsValue) : JsValue :=
  .object
    ([(js "model", c.property "model"), (js "contextWindow", c.property "contextWindow"),
        (js "pricePer1kTokensUsdc", c.property "pricePer1kTokensUsdc")] ++
      if (c.property "quantization").isUndefined then []
      else [(js "quantization", c.property "quantization")])

def scalar? : CodePoint → Option Char
  | .scalar c => some c
  | .surrogate _ => none

-- The text of a string that has no lone surrogate.
def plain? (s : JsString) : Option String := (s.mapM scalar?).map String.ofList

-- A lone surrogate is replaced, as it is in a URL.
def shown (s : JsString) : List Char := s.map fun u => (scalar? u).getD '\uFFFD'

variable (sdk : Sdk)

def networkValue : JsValue → Except MeshError JsValue
  | .string s =>
    let candidate := Text.trim (shown s)
    match (plain? s).bind (normalizeNetwork sdk) with
    | some network => .ok (.string (js network))
    | none =>
      if candidate.isEmpty then
        .error ⟨.config, "network must be a non-empty CAIP-2 string", [("received", "string")]⟩
      else
        .error ⟨.config, "unsupported network: " ++ String.ofList candidate,
          [("network", String.ofList candidate)]⟩
  | v => .error ⟨.config, "network must be a non-empty CAIP-2 string", [("received", v.typeOf)]⟩

def projectedCapabilities (r : JsValue) : List JsValue :=
  match r.property "capabilities" with
  | .array items => items.map projectCapability
  | _ => []

def canonicalRegistrationBytes (r : JsValue) : Except MeshError ByteArray := do
  let network ← networkValue sdk (r.property "network")
  domainSeparatedBytes registrationDomain <| .object
    [(js "nodeId", r.property "nodeId"), (js "operatorAddress", r.property "operatorAddress"),
      (js "endpoint", r.property "endpoint"), (js "capabilities", .array (projectedCapabilities r)),
      (js "network", network), (js "version", r.property "version"),
      (js "timestamp", r.property "timestamp"), (js "nonce", r.property "nonce")]

def canonicalHeartbeatBytes (h : JsValue) : Except MeshError ByteArray :=
  domainSeparatedBytes heartbeatDomain <| .object
    [(js "nodeId", h.property "nodeId"), (js "healthy", h.property "healthy"),
      (js "inFlight", h.property "inFlight"), (js "maxConcurrency", h.property "maxConcurrency"),
      (js "version", h.property "version"), (js "timestamp", h.property "timestamp"),
      (js "nonce", h.property "nonce")]

end X402Mesh.Registry
