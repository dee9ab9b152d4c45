import Mathlib.Data.List.Sort
import X402Mesh.Lib.OrderedMap
import X402Mesh.Registry.Signing
import X402Mesh.Shared.Config
import X402Mesh.Shared.Pricing

set_option autoImplicit false

namespace X402Mesh.Pricing

open JsonText Money Registry Text

/-- A text that has been trimmed, and that `usdcToAtomic` accepts. -/
structure UsdcAmount where
  text : String
  atomic : Int
  parsed : usdcToAtomic text = .ok atomic
  trimmed : trim text.toList = text.toList

namespace UsdcAmount

theorem eq_of_text {a b : UsdcAmount} (same : a.text = b.text) : a = b := by
  cases a with
  | mk text atomic parsed trimmed =>
    cases b with
    | mk text' atomic' parsed' trimmed' =>
      obtain rfl : text = text' := same
      obtain rfl : atomic = atomic' := Except.ok.inj (parsed.symm.trans parsed')
      rfl

instance : DecidableEq UsdcAmount := fun a b =>
  decidable_of_iff (a.text = b.text) ⟨eq_of_text, fun same => by rw [same]⟩

theorem usdcToAtomic_trim (cs : List Char) :
    (usdcToAtomic (String.ofList (trim cs))).toOption =
      (usdcToAtomic (String.ofList cs)).toOption := by
  simp only [usdcToAtomic_toOption, String.toList_ofList, trim_trim]

-- `usdcToAtomic(price)`, after which `price.trim()` is what is kept.
def parse (cs : List Char) : Except MeshError UsdcAmount :=
  match read : usdcToAtomic (String.ofList cs) with
  | .error e => .error e
  | .ok a => .ok {
      text := String.ofList (trim cs)
      atomic := a
      parsed := by
        rw [usdcToAtomic_eq_ok, ← usdcToAtomic_toOption, usdcToAtomic_trim, read]
        rfl
      trimmed := by rw [String.toList_ofList, trim_trim] }

-- `amount.toString(10)`, which is also what goes on the wire.
def wire (amount : UsdcAmount) : String := toString amount.atomic

theorem atomic_nonneg (amount : UsdcAmount) : 0 ≤ amount.atomic := by
  apply decimal?_nonneg
  exact (usdcToAtomic_eq_ok _ _).mp amount.parsed

def dollarFirst (amount : UsdcAmount) : Bool := ['$'].isPrefixOf amount.text.toList

end UsdcAmount

def defaultInboundUsdc : String := "0.0020"

def maxPriceTiers : Nat := 16

abbrev ModelPrices := OrderedMap JsString UsdcAmount

def isBlank : CodePoint → Bool
  | .scalar c => isWhitespace c
  | .surrogate _ => false

-- An own property that is an array index comes before all that are not.
def arrayIndex? (key : JsString) : Option Nat :=
  (plain? key).bind fun text =>
    if isDecimal text.toList && (text = "0" || text.toList.head? ≠ some '0') then
      some (Nat.ofDigitChars 10 text.toList 0) |>.filter (· < 4294967295)
    else none

def ownEntries (table : ModelPrices) : List (JsString × UsdcAmount) :=
  (table.entries.filter fun e => (arrayIndex? e.1).isSome).insertionSort
      (fun a b => (arrayIndex? a.1).getD 0 ≤ (arrayIndex? b.1).getD 0) ++
    table.entries.filter fun e => !(arrayIndex? e.1).isSome

def modelPricesVariables : List (String × String) := [("variables", "MESH_MODEL_PRICES")]

section

variable (toLowerCase : JsString → JsString)

def normalizeModelId (model : JsString) : JsString :=
  toLowerCase ((model.dropWhile isBlank).reverse.dropWhile isBlank).reverse

def addPrice (table : ModelPrices) : JsString × JsValue → Except MeshError ModelPrices
  | (model, price) =>
    let key := normalizeModelId toLowerCase model
    let name := String.ofList (shown model)
    if key = [] then
      .error ⟨.config, "MESH_MODEL_PRICES contains an empty model id", modelPricesVariables⟩
    else
      match price with
      | .string s => (UsdcAmount.parse (shown s)).map (table.set key)
      | _ =>
        .error ⟨.config, "MESH_MODEL_PRICES price for \"" ++ name ++ "\" must be a string",
          modelPricesVariables ++ [("model", name), ("received", price.typeOf)]⟩

-- `jsonParse`: what `JSON.parse` makes of a text, the entries of an object as `Object.entries` has
-- them.
def parseModelPrices (jsonParse : String → Option JsValue) (raw : Option String) :
    Except MeshError ModelPrices :=
  match raw.filter fun text => trim text.toList ≠ [] with
  | none => .ok .empty
  | some text =>
    match jsonParse text with
    | none => .error ⟨.config, "MESH_MODEL_PRICES must be a JSON object", modelPricesVariables⟩
    | some (.object entries) => do
      let table ← entries.foldlM (addPrice toLowerCase) .empty
      let distinct := ((ownEntries table).map (·.2)).eraseDups.length
      if distinct > maxPriceTiers then
        .error ⟨.config, "MESH_MODEL_PRICES declares " ++ toString distinct ++
            " distinct prices, maximum is " ++ toString maxPriceTiers,
          modelPricesVariables ++
            [("distinct", toString distinct), ("max", toString maxPriceTiers)]⟩
      else .ok table
    | some _ =>
      .error ⟨.config, "MESH_MODEL_PRICES must be a JSON object of model -> price",
        modelPricesVariables⟩

def resolveModelPrice (prices : ModelPrices) (fallback : UsdcAmount) (model : Option JsString) :
    UsdcAmount :=
  match model with
  | none => fallback
  | some model => (prices.get? (normalizeModelId toLowerCase model)).getD fallback

end

def priceTiers (prices : ModelPrices) (fallback : UsdcAmount) : List UsdcAmount :=
  (fallback :: (ownEntries prices).map (·.2)).eraseDups

theorem ownEntries_perm (table : ModelPrices) : (ownEntries table).Perm table.entries := by
  have split := List.filter_append_perm (fun e => (arrayIndex? e.1).isSome) table.entries
  exact ((List.perm_insertionSort _ _).append_right _).trans split

theorem resolveModelPrice_mem (toLowerCase : JsString → JsString) (prices : ModelPrices)
    (fallback : UsdcAmount) (model : Option JsString) :
    resolveModelPrice toLowerCase prices fallback model ∈ priceTiers prices fallback := by
  rw [priceTiers, List.mem_eraseDups, List.mem_cons]
  cases model with
  | none => exact .inl rfl
  | some model =>
    rw [resolveModelPrice]
    cases found : prices.get? (normalizeModelId toLowerCase model) with
    | none => exact .inl rfl
    | some price =>
      right
      have entry := (prices.get?_eq_some _ _).mp found
      exact List.mem_map.mpr ⟨_, (ownEntries_perm prices).mem_iff.mpr entry, rfl⟩

end X402Mesh.Pricing

namespace X402Mesh.Config

open JsonText Registry Text Pricing

/-- What the loader makes of the variables that no price depends on; the network is the form that
the facilitator is given. -/
structure PaymentTerms where
  payToAddress : String
  network : String
  usdcAssetId : String
  challengeTag : String
  nodeRequestTimeoutMs : Int

structure GatewayConfig where
  terms : PaymentTerms
  inboundPriceUsdc : UsdcAmount
  modelPricesUsdc : ModelPrices
  marginBps : Int
  bps : 0 ≤ marginBps ∧ marginBps ≤ 10000

def optionalStringField (max : Nat) (raw : Option String) : Option (Option String) :=
  match envValue raw with
  | none => some none
  | some cs => if utf16Length cs ≤ max then some (some (String.ofList cs)) else none

def usdcField (defaultValue : String) (raw : Option String) : Option UsdcAmount :=
  (UsdcAmount.parse ((envValue raw).getD defaultValue.toList)).toOption

def defaultMarginBps : Int := 1500

def marginBps (env : String → Option String) : Option Int :=
  intField defaultMarginBps 0 10000 (env "MESH_MARGIN_BPS")

-- The issues that the schema found are left out of the details.
def invalid (fields : List String) : MeshError :=
  let named := ", ".intercalate fields
  ⟨.config, "invalid gateway configuration: " ++ named, [("variables", named)]⟩

def loadGatewayConfig (toLowerCase : JsString → JsString) (jsonParse : String → Option JsValue)
    (terms : PaymentTerms) (env : String → Option String) : Except MeshError GatewayConfig :=
  let inbound := usdcField defaultInboundUsdc (env "MESH_INBOUND_PRICE_USDC")
  let table := optionalStringField 4096 (env "MESH_MODEL_PRICES")
  match inbound, margin : marginBps env, table with
  | some inbound, some bps, some table =>
    (parseModelPrices toLowerCase jsonParse table).map fun prices => {
      terms := terms
      inboundPriceUsdc := inbound
      modelPricesUsdc := prices
      marginBps := bps
      bps := intField_bounds margin }
  | _, _, _ =>
    .error (invalid (
      (if inbound.isNone then ["MESH_INBOUND_PRICE_USDC"] else []) ++
      (if (marginBps env).isNone then ["MESH_MARGIN_BPS"] else []) ++
      (if table.isNone then ["MESH_MODEL_PRICES"] else [])))

end X402Mesh.Config
