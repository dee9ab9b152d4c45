import X402Mesh.Shared.ModelPrices

set_option autoImplicit false

namespace X402Mesh

open JsonText

namespace Gateway

open Config Money Pricing Registry

/-- The default and the models that have a price of their own. -/
structure Listing (α : Type) where
  default : α
  models : List (JsString × α)

namespace Listing

variable {α β : Type}

def map (f : α → β) (listing : Listing α) : Listing β where
  default := f listing.default
  models := listing.models.map fun m => (m.1, f m.2)

-- What a reader finds for a normalized model id.
def entry (listing : Listing α) (key : Option JsString) : α :=
  (key.bind fun key => OrderedMap.lookup key listing.models).getD listing.default

theorem entry_map (f : α → β) (listing : Listing α) (key : Option JsString) :
    (listing.map f).entry key = f (listing.entry key) := by
  cases key with
  | none => rfl
  | some key =>
    simp only [entry, map, Option.bind_some, OrderedMap.lookup_map]
    cases OrderedMap.lookup key listing.models <;> rfl

end Listing

def maxTimeoutSeconds (nodeRequestTimeoutMs : Int) : Int :=
  max 60 (-(-nodeRequestTimeoutMs / 1000) + 60)

section

variable (config : GatewayConfig)

-- `pricingTable`; a row's `display` is the price string of its amount.
def pricingTable : Listing UsdcAmount where
  default := config.inboundPriceUsdc
  models := (ownEntries config.modelPricesUsdc).insertionSort fun a b => a.2.atomic ≤ b.2.atomic

def priceString (priceUsdc : Option UsdcAmount) : String :=
  "$" ++ (priceUsdc.getD config.inboundPriceUsdc).text

structure ChallengeExtra where
  asset : String
  tag : String

def challengeExtra : ChallengeExtra where
  asset := config.terms.usdcAssetId
  tag := config.terms.challengeTag

structure ResourceConfig where
  scheme : String
  payTo : String
  price : String
  network : String
  maxTimeoutSeconds : Int
  extra : ChallengeExtra

def buildPaymentOption (priceUsdc : Option UsdcAmount) : ResourceConfig where
  scheme := "exact"
  payTo := config.terms.payToAddress
  price := priceString config priceUsdc
  network := config.terms.network
  maxTimeoutSeconds := maxTimeoutSeconds config.terms.nodeRequestTimeoutMs
  extra := challengeExtra config

structure PreviewPrice where
  usdc : String
  display : String
  atomic : String
  asset : String
  decimals : Nat
  per : String

structure UnpaidPreview where
  price : PreviewPrice
  pricing : Listing UsdcAmount
  network : String
  payTo : String
  scheme : String
  maxTimeoutSeconds : Int

def unpaidPreview (priceUsdc : Option UsdcAmount) : UnpaidPreview :=
  let quoted := priceUsdc.getD config.inboundPriceUsdc
  { price := {
      usdc := quoted.text
      display := priceString config (some quoted)
      atomic := quoted.wire
      asset := config.terms.usdcAssetId
      decimals := 6
      per := "request" }
    pricing := pricingTable config
    network := config.terms.network
    payTo := config.terms.payToAddress
    scheme := "exact"
    maxTimeoutSeconds := maxTimeoutSeconds config.terms.nodeRequestTimeoutMs }

structure RouteConfig where
  accepts : ResourceConfig
  unpaidResponseBody : UnpaidPreview

def buildRoutesConfig (priceUsdc : Option UsdcAmount) : List (String × RouteConfig) :=
  let route : RouteConfig := ⟨buildPaymentOption config priceUsdc, unpaidPreview config priceUsdc⟩
  [("POST /v1/chat/completions", route), ("POST /v1/inference", route)]

-- A middleware is the routes that it was built from.
def build (priceUsdc : UsdcAmount) : List (String × RouteConfig) :=
  buildRoutesConfig config (some priceUsdc)

def requestedModel (body : JsValue) : Option JsString :=
  match body.property "model" with
  | .string model => some model
  | _ => none

variable (toLowerCase : JsString → JsString)

def priceTierDispatch (body : JsValue) : List (String × RouteConfig) :=
  let tiers := priceTiers config.modelPricesUsdc config.inboundPriceUsdc
  let fallback := build config config.inboundPriceUsdc
  if tiers.length = 1 then fallback
  else
    let byPrice : OrderedMap UsdcAmount (List (String × RouteConfig)) :=
      tiers.foldl (fun built price => built.set price (build config price)) .empty
    let price := resolveModelPrice toLowerCase config.modelPricesUsdc config.inboundPriceUsdc
      (requestedModel body)
    (byPrice.get? price).getD fallback

structure ListedPrice where
  usdc : String
  display : String
  atomic : String

-- The prices that `GET /v1/pricing` sends.
def pricingPage : Listing ListedPrice :=
  (pricingTable config).map fun usdc => ⟨usdc.text, "$" ++ usdc.text, usdc.wire⟩

structure Tier where
  inboundAtomic : String
  payoutAtomic : String
  marginAtomic : String
  inboundUsdc : String
  payoutUsdc : String
  marginUsdc : String
  deriving Inhabited

def tier (usdc : UsdcAmount) : Except MeshError Tier := do
  let split ← computeSplit usdc.atomic config.marginBps
  return {
    inboundAtomic := toString split.inbound
    payoutAtomic := toString split.payout
    marginAtomic := toString split.margin
    inboundUsdc := atomicToUsdc split.inbound
    payoutUsdc := atomicToUsdc split.payout
    marginUsdc := atomicToUsdc split.margin }

def economics : Except MeshError (Listing Tier) := do
  let inbound ← tier config config.inboundPriceUsdc
  let models ← (pricingTable config).models.mapM fun m => return (m.1, ← tier config m.2)
  return ⟨inbound, models⟩

structure RequirementExtra extends ChallengeExtra where
  name : String
  decimals : Nat

structure PaymentRequirements where
  scheme : String
  network : String
  asset : String
  amount : String
  payTo : String
  maxTimeoutSeconds : Int
  extra : RequirementExtra

def paymentRequirements (priceUsdc : Option UsdcAmount) : PaymentRequirements where
  scheme := "exact"
  network := config.terms.network
  asset := config.terms.usdcAssetId
  amount := (priceUsdc.getD config.inboundPriceUsdc).wire
  payTo := config.terms.payToAddress
  maxTimeoutSeconds := maxTimeoutSeconds config.terms.nodeRequestTimeoutMs
  extra := { challengeExtra config with name := "USDC", decimals := 6 }

def acceptsForDiscovery : List PaymentRequirements :=
  (priceTiers config.modelPricesUsdc config.inboundPriceUsdc).map fun price =>
    paymentRequirements config (some price)

structure ManifestPrice where
  usdc : String
  amount : String

def modelPricingBlock : Listing ManifestPrice :=
  (pricingTable config).map fun usdc => ⟨usdc.text, usdc.wire⟩

end

/-- The Money values of the payment SDK: decimal digits after at most one dollar sign. -/
structure MoneySdk where
  amount : String → Option Int
  documented : ∀ text, amount text =
    if isNumeral (bare text.toList) then (usdcToAtomic text).toOption else none

section

variable (sdk : MoneySdk) (config : GatewayConfig) (toLowerCase : JsString → JsString)

def priceOf (body : JsValue) : UsdcAmount :=
  resolveModelPrice toLowerCase config.modelPricesUsdc config.inboundPriceUsdc (requestedModel body)

/-- Every surface states `amount` for the request. -/
structure Quoted (body : JsValue) (amount : Int) : Prop where
  charged : ∀ route ∈ priceTierDispatch config toLowerCase body,
    sdk.amount route.2.accepts.price = some amount
  previewed : ∀ route ∈ priceTierDispatch config toLowerCase body,
    route.2.unpaidResponseBody.price.atomic = toString amount
  listed : ((pricingPage config).entry
    ((requestedModel body).map (normalizeModelId toLowerCase))).atomic = toString amount
  published : ∃ listing, economics config = .ok listing ∧ (listing.entry
    ((requestedModel body).map (normalizeModelId toLowerCase))).inboundAtomic = toString amount
  mapped : ((modelPricingBlock config).entry
    ((requestedModel body).map (normalizeModelId toLowerCase))).amount = toString amount
  accepted : ∃ requirements ∈ acceptsForDiscovery config, requirements.amount = toString amount

theorem priceTierDispatch_eq (body : JsValue) :
    priceTierDispatch config toLowerCase body =
      build config (priceOf config toLowerCase body) := by
  have among := resolveModelPrice_mem toLowerCase config.modelPricesUsdc config.inboundPriceUsdc
    (requestedModel body)
  simp only [priceTierDispatch, priceOf]
  split
  next single =>
    -- The default is one of the tiers, so it is the only one.
    obtain ⟨only, tiers⟩ := List.length_eq_one_iff.mp single
    have first : config.inboundPriceUsdc ∈
        priceTiers config.modelPricesUsdc config.inboundPriceUsdc := by
      simp [priceTiers, List.mem_eraseDups]
    rw [tiers, List.mem_singleton] at among first
    rw [among, first]
  next => rw [OrderedMap.get?_fill, if_pos among, Option.getD_some]

theorem entry_pricingTable (model : Option JsString) :
    (pricingTable config).entry (model.map (normalizeModelId toLowerCase)) =
      resolveModelPrice toLowerCase config.modelPricesUsdc config.inboundPriceUsdc model := by
  have same : (pricingTable config).models.Perm config.modelPricesUsdc.entries :=
    (List.perm_insertionSort _ _).trans (ownEntries_perm config.modelPricesUsdc)
  cases model with
  | none => rfl
  | some model =>
    rw [Option.map_some, Listing.entry, Option.bind_some, OrderedMap.lookup_perm _ same]
    rfl

theorem tier_ok (usdc : UsdcAmount) :
    ∃ t, tier config usdc = .ok t ∧ t.inboundAtomic = usdc.wire := by
  obtain ⟨split, priced, -⟩ :=
    computeSplit_ok usdc.atomic config.marginBps usdc.atomic_nonneg config.bps.1 config.bps.2
  have inbound := computeSplit_inbound _ _ _ priced
  rw [tier, priced]
  exact ⟨_, rfl, by rw [inbound]; rfl⟩

theorem economics_ok :
    ∃ listing, economics config = .ok listing ∧
      ∀ key, (listing.entry key).inboundAtomic = ((pricingTable config).entry key).wire := by
  choose tierOf made inbound using tier_ok config
  have rows (models : List (JsString × UsdcAmount)) :
      (models.mapM fun m => return (m.1, ← tier config m.2) :
        Except MeshError (List (JsString × Tier))) = .ok (models.map fun m => (m.1, tierOf m.2)) := by
    induction models with
    | nil => rfl
    | cons m rest ih =>
      rw [List.mapM_cons, ih, made]
      rfl
  refine ⟨(pricingTable config).map tierOf, ?_, ?_⟩
  · rw [economics, made, rows]
    rfl
  · intro key
    rw [Listing.entry_map, inbound]

theorem amount_priceString (usdc : UsdcAmount) :
    sdk.amount ("$" ++ usdc.text) = if usdc.dollarFirst then none else some usdc.atomic := by
  have whole : Text.trim ("$" ++ usdc.text).toList = '$' :: usdc.text.toList := by
    rw [String.toList_append]
    exact (Text.trim_cons '$' _ (by decide)).trans
      (congrArg _ (Text.trimEnd_of_trim _ usdc.trimmed))
  have left : bare ("$" ++ usdc.text).toList = usdc.text.toList := by
    rw [String.toList_append]
    rfl
  have value := (usdcToAtomic_eq_ok _ _).mp usdc.parsed
  rw [usdc.trimmed] at value
  rw [sdk.documented, left, usdcToAtomic_toOption, whole]
  cases dollar : usdc.dollarFirst with
  | true =>
    obtain ⟨rest, shape⟩ := List.isPrefixOf_iff_prefix.mp dollar
    rw [← shape]
    rfl
  | false =>
    have plain : bare usdc.text.toList = usdc.text.toList := if_neg (Bool.eq_false_iff.mp dollar)
    have again : bare ('$' :: usdc.text.toList) = usdc.text.toList := rfl
    rw [plain] at value
    have numeral : isNumeral usdc.text.toList = true := by
      simp only [decimal?] at value
      split at value
      next found => simp_all
      next => cases value
    simp [numeral, again, value]

-- The challenge puts its own dollar sign in front of the one that was configured.
theorem charged_plain (body : JsValue) (amount : Int)
    (quoted : Quoted sdk config toLowerCase body amount) :
    (priceOf config toLowerCase body).dollarFirst = false := by
  have price := amount_priceString sdk (priceOf config toLowerCase body)
  have charged := quoted.charged _ (by
    rw [priceTierDispatch_eq]
    exact List.mem_cons_self)
  cases dollar : (priceOf config toLowerCase body).dollarFirst with
  | false => rfl
  | true =>
    rw [dollar] at price
    cases price.symm.trans charged

theorem surfaces_agree_iff (body : JsValue) :
    (∃ amount, Quoted sdk config toLowerCase body amount) ↔
      (priceOf config toLowerCase body).dollarFirst = false := by
  constructor
  · intro ⟨amount, quoted⟩
    exact charged_plain sdk config toLowerCase body amount quoted
  · intro plain
    have key := entry_pricingTable config toLowerCase (requestedModel body)
    have price := amount_priceString sdk (priceOf config toLowerCase body)
    rw [plain, if_neg (by simp)] at price
    obtain ⟨listing, made, inbound⟩ := economics_ok config
    have routes : ∀ route ∈ priceTierDispatch config toLowerCase body,
        route.2 = ⟨buildPaymentOption config (priceOf config toLowerCase body),
          unpaidPreview config (priceOf config toLowerCase body)⟩ := by
      intro route member
      rw [priceTierDispatch_eq, build, buildRoutesConfig, List.mem_cons, List.mem_singleton] at member
      cases member with
      | inl first => rw [first]
      | inr second => rw [second]
    refine ⟨(priceOf config toLowerCase body).atomic, ?_⟩
    constructor
    · intro route member
      rw [routes route member]
      exact price
    · intro route member
      rw [routes route member]
      rfl
    · rw [pricingPage, Listing.entry_map, key]
      rfl
    · exact ⟨listing, made, by rw [inbound, key]; rfl⟩
    · rw [modelPricingBlock, Listing.entry_map, key]
      rfl
    · exact ⟨_, List.mem_map_of_mem (resolveModelPrice_mem toLowerCase _ _ _), rfl⟩

end

def demoTerms : PaymentTerms where
  payToAddress := "GATEWAY"
  network := "algorand:testnet"
  usdcAssetId := "10458941"
  challengeTag := "challenge"
  nodeRequestTimeoutMs := 120000

-- A loader that was given no table prices every request alike.
theorem loaded_untiered (env : String → Option String) (dollar : Bool)
    (loaded : (loadGatewayConfig id (fun _ => none) demoTerms env).toOption.map
      (fun config => (config.inboundPriceUsdc.dollarFirst, config.modelPricesUsdc.entries)) =
        some (dollar, [])) :
    ∃ config, loadGatewayConfig id (fun _ => none) demoTerms env = .ok config ∧
      ∀ body, (priceOf config id body).dollarFirst = dollar := by
  obtain ⟨config, found, values⟩ := Option.map_eq_some_iff.mp loaded
  simp only [Prod.mk.injEq] at values
  refine ⟨config, ?_, fun body => ?_⟩
  · cases outcome : loadGatewayConfig id (fun _ => none) demoTerms env with
    | error e => rw [outcome] at found; cases found
    | ok c => rw [outcome] at found; exact congrArg _ (Option.some.inj found)
  · have flat : priceOf config id body = config.inboundPriceUsdc := by
      unfold priceOf resolveModelPrice
      cases requestedModel body with
      | none => rfl
      | some model =>
        have absent : config.modelPricesUsdc.get? (normalizeModelId id model) = none := by
          rw [OrderedMap.get?_eq_none, OrderedMap.keys, values.2]
          simp
        simp only [absent, Option.getD_none]
    rw [flat, values.1]

-- The documented reading, as a parser of it has it.
def documentedSdk : MoneySdk where
  amount text := if isNumeral (bare text.toList) then (usdcToAtomic text).toOption else none
  documented _ := rfl

theorem surfaces_agree_default :
    ∃ config, loadGatewayConfig id (fun _ => none) demoTerms (fun _ => none) = .ok config ∧
      ∀ body, ∃ amount, Quoted documentedSdk config id body amount := by
  obtain ⟨config, loaded, plain⟩ := loaded_untiered (fun _ => none) false (by decide)
  exact ⟨config, loaded, fun body =>
    (surfaces_agree_iff documentedSdk config id body).mpr (plain body)⟩

-- The loader accepts a default price of "$0.0020", and no request is quoted it.
theorem dollar_price_unquoted :
    ∃ config, loadGatewayConfig id (fun _ => none) demoTerms
        (fun name => if name = "MESH_INBOUND_PRICE_USDC" then some "$0.0020" else none) =
          .ok config ∧
      ∀ (sdk : MoneySdk) (body : JsValue) (amount : Int), ¬ Quoted sdk config id body amount := by
  obtain ⟨config, loaded, dollar⟩ := loaded_untiered
    (fun name => if name = "MESH_INBOUND_PRICE_USDC" then some "$0.0020" else none) true (by decide)
  refine ⟨config, loaded, fun sdk body amount quoted => ?_⟩
  have plain := charged_plain sdk config id body amount quoted
  rw [dollar] at plain
  cases plain

end Gateway

end X402Mesh
