import X402Mesh.Gateway.Router
import X402Mesh.Settlement.World

set_option autoImplicit false

-- The payment middleware is known by what it does with an ended response: below 400 it settles the
-- inbound payment, otherwise it cancels it.

namespace X402Mesh.Gateway

open Settlement

/-- With `buffered` the payment middleware holds the writes back, so nothing reaches the wire while
the handler runs. `finished` is the status the response carried when it was first ended. -/
structure Response where
  statusCode : Nat
  headers : OrderedMap String String
  buffered : Bool
  headersSent : Bool
  written : List String
  finished : Option Nat

namespace Response

def writableEnded (res : Response) : Bool := !res.buffered && res.finished.isSome

def status (res : Response) (code : Nat) : Response := { res with statusCode := code }

def setHeader (res : Response) (name value : String) : Response :=
  { res with headers := res.headers.set name value }

def flushHeaders (res : Response) : Response :=
  { res with headersSent := res.headersSent || !res.buffered }

def write (res : Response) (chunk : String) : Response :=
  { res.flushHeaders with written := res.written ++ [chunk] }

def finish (res : Response) : Response :=
  { res.flushHeaders with finished := some (res.finished.getD res.statusCode) }

def json (res : Response) (body : String) : Response :=
  ((res.setHeader "content-type" "application/json; charset=utf-8").write body).finish

end Response

def requestIdHeader : String := "x-request-id"

def nodeIdHeader : String := "x-mesh-node-id"

def routeReasonHeader : String := "x-mesh-route-reason"

/-- What one request can change: its response and the settlement service. -/
structure Exchange where
  res : Response
  settlement : Service

def createResponseSink : Router.StreamSink Exchange where
  start exchange contentType :=
    { exchange with
      res := (((((exchange.res.status 200).setHeader "content-type" contentType).setHeader
        "cache-control" "no-cache, no-transform").setHeader "connection" "keep-alive").setHeader
        "x-accel-buffering" "no").flushHeaders }
  write exchange chunk :=
    if exchange.res.writableEnded then exchange
    else { exchange with res := exchange.res.write chunk }
  finish exchange :=
    if exchange.res.writableEnded then exchange
    else { exchange with res := exchange.res.finish }

structure ChatCompletionRequest where
  model : String
  stream : Option Bool
  deriving DecidableEq, Repr

structure JsonText (Json : Type) where
  parse : String → Option Json
  stringify : Json → String

structure ChatConfig where
  nodeRequestTimeoutMs : Int
  -- What the clock reads when the request is routed.
  now : Nat

variable {Json : Type} (text : JsonText Json) (config : ChatConfig)
variable (select : String → List String → Except Thrown NodeCall)

def onNodeSelected (requestId : String) (exchange : Exchange) (call : NodeCall) : Exchange where
  res := exchange.res.setHeader nodeIdHeader call.nodeId
  settlement :=
    exchange.settlement.recordRouting requestId call.nodeId call.operatorAddress config.now

def routeInput (requestId : String) (request : ChatCompletionRequest) : Router.RouteInput where
  requestId := requestId
  model := request.model
  streaming := request.stream == some true
  nodeRequestTimeoutMs := config.nodeRequestTimeoutMs

def routed (requestId : String) (request : ChatCompletionRequest) (exchange : Exchange) :
    Except Thrown (Router.RouteResult Json) × Exchange :=
  Router.route createResponseSink text.parse (routeInput config requestId request) select
    (onNodeSelected config requestId) exchange

-- `request` is what the schema made of the body.
def handleChat (requestId : String) (request : Except Thrown ChatCompletionRequest)
    (exchange : Exchange) : Except Thrown Unit × Exchange :=
  match request with
  | .error error => (.error error, exchange)
  | .ok request =>
    match routed text config select requestId request exchange with
    | (.error error, exchange) => (.error error, exchange)
    | (.ok result, exchange) =>
      if request.stream == some true then (.ok (), exchange)
      else
        let reason := "attempts=" ++ toString result.attempts ++ " latency=" ++
          toString result.latencyMs ++ "ms"
        let body := (result.body.map text.stringify).getD ""
        (.ok (), { exchange with
          res := ((exchange.res.setHeader routeReasonHeader reason).status 200).json body })

def normalizeBodyParserError : Thrown → Thrown
  | .mesh error => .mesh error
  | .other text status type =>
    let code := status.getD 0
    if code < 400 ∨ code ≥ 500 then .other text status type
    else if code = 413 then
      .mesh ⟨.payloadTooLarge, "request body is too large", [("limit", "1mb")]⟩
    else
      .mesh ⟨.validation,
        if type = some "entity.parse.failed" then "request body is not valid JSON"
        else "request body could not be read", []⟩

def errorHandler (render : MeshErrorBody → String) (error : Thrown) (res : Response) : Response :=
  let (status, body) := toErrorResponse (normalizeBodyParserError error)
  if res.headersSent then res.finish else (res.status status).json (render body)

structure SettleResult where
  success : Bool
  transaction : Option String
  amount : Option String
  payer : Option String
  requiredAmount : Option String
  deriving DecidableEq, Repr

def parseInboundAmount (wire requestId : String) : Except MeshError Int :=
  if Text.isDecimal wire.toList then .ok (Money.decimalValue wire.toList)
  else .error ⟨.settlement, "facilitator reported a non-integer settled amount",
    [("requestId", requestId), ("amount", wire)]⟩

-- none: the hook returned or threw before it called `settleInbound`.
def onAfterSettle (headers : OrderedMap String String) (result : SettleResult) :
    Option InboundSettlement := do
  let id ← (headers.get? requestIdHeader).filter (· ≠ "")
  guard result.success
  let transaction ← result.transaction.filter (· ≠ "")
  let amount ← result.amount.or result.requiredAmount
  let inboundAtomic ← (parseInboundAmount amount id).toOption
  return ⟨id, result.payer.getD "", transaction, inboundAtomic⟩

structure Served where
  res : Response
  settlement : Service
  settled : Bool

def paymentMiddleware (cfg : Settlement.Deps) (result : SettleResult) (readings : Service.Readings)
    (exchange : Exchange) : Served :=
  match exchange.res.finished with
  | some status =>
    if status < 400 then
      match onAfterSettle exchange.res.headers result with
      | some inbound =>
        ⟨exchange.res, exchange.settlement.settleInbound cfg inbound readings, true⟩
      | none => ⟨exchange.res, exchange.settlement, true⟩
    else ⟨exchange.res, exchange.settlement, false⟩
  | none => ⟨exchange.res, exchange.settlement, false⟩

structure Serving where
  cfg : Settlement.Deps
  render : MeshErrorBody → String
  result : SettleResult
  readings : Service.Readings

def accept (requestId : String) (buffered : Bool) (settlement : Service) : Exchange where
  res := ⟨200, OrderedMap.empty.set requestIdHeader requestId, buffered, false, [], none⟩
  settlement := settlement

def serve (serving : Serving) (requestId : String) (request : Except Thrown ChatCompletionRequest)
    (exchange : Exchange) : Served :=
  let handled :=
    match handleChat text config select requestId request exchange with
    | (.ok _, exchange) => exchange
    | (.error error, exchange) =>
      { exchange with res := errorHandler serving.render error exchange.res }
  paymentMiddleware serving.cfg serving.result serving.readings handled

structure Unscheduled (before after : Service) : Prop where
  accepted : after.accepted = before.accepted
  accruals : after.accruals = before.accruals
  payouts : after.payouts = before.payouts

def ChargedOnlyIfServed (serving : Serving) (requestId : String) (request : ChatCompletionRequest)
    (exchange : Exchange) : Prop :=
  ∀ error, (routed text config select requestId request exchange).1 = .error error →
    let served := serve text config select serving requestId (.ok request) exchange
    (∃ status, served.res.finished = some status ∧ 400 ≤ status) ∧ served.settled = false ∧
      Unscheduled exchange.settlement served.settlement

structure Untouched (settlement : Service) (exchange : Exchange) : Prop where
  unfinished : exchange.res.finished = none
  unsent : exchange.res.headersSent = false
  unscheduled : Unscheduled settlement exchange.settlement

theorem accept_untouched (requestId : String) (buffered : Bool) (settlement : Service) :
    Untouched settlement (accept requestId buffered settlement) :=
  ⟨rfl, rfl, rfl, rfl, rfl⟩

theorem response_phases (requestId : String) (settlement : Service) :
    Router.Phases createResponseSink (onNodeSelected config requestId) (Untouched settlement)
      (fun exchange => exchange.res.finished = none ∧ exchange.res.statusCode = 200)
      (fun exchange => exchange.res.finished = some 200) where
  selected _ _ fresh := by
    obtain ⟨unfinished, unsent, accepted, accruals, payouts⟩ := fresh
    exact ⟨unfinished, unsent, accepted, accruals, payouts⟩
  start _ _ fresh := ⟨fresh.unfinished, rfl⟩
  write exchange chunk running := by
    have live : exchange.res.writableEnded = false := by
      simp [Response.writableEnded, running.1]
    simp only [createResponseSink, live, Bool.false_eq_true, if_false]
    exact running
  finish exchange running := by
    have live : exchange.res.writableEnded = false := by
      simp [Response.writableEnded, running.1]
    simp only [createResponseSink, live, Bool.false_eq_true, if_false]
    simp [Response.finish, Response.flushHeaders, running.1, running.2]

theorem errorHandler_untouched (render : MeshErrorBody → String) (error : Thrown) (res : Response)
    (unfinished : res.finished = none) (unsent : res.headersSent = false) :
    ∃ status, (errorHandler render error res).finished = some status ∧ 400 ≤ status := by
  refine ⟨(toErrorResponse (normalizeBodyParserError error)).1, ?_, toErrorResponse_refused _⟩
  simp [errorHandler, unsent, unfinished, Response.json, Response.status, Response.setHeader,
    Response.write, Response.finish, Response.flushHeaders]

theorem errorHandler_finished (render : MeshErrorBody → String) (error : Thrown) (res : Response)
    (code : Nat) (finished : res.finished = some code) :
    (errorHandler render error res).finished = some code := by
  unfold errorHandler
  dsimp only
  split <;>
    simp [finished, Response.json, Response.status, Response.setHeader, Response.write,
      Response.finish, Response.flushHeaders]

theorem paymentMiddleware_res (cfg : Settlement.Deps) (result : SettleResult)
    (readings : Service.Readings) (exchange : Exchange) :
    (paymentMiddleware cfg result readings exchange).res = exchange.res := by
  unfold paymentMiddleware
  repeat' split
  all_goals rfl

theorem paymentMiddleware_refused (cfg : Settlement.Deps) (result : SettleResult)
    (readings : Service.Readings) (exchange : Exchange) (status : Nat)
    (finished : exchange.res.finished = some status) (refused : 400 ≤ status) :
    paymentMiddleware cfg result readings exchange = ⟨exchange.res, exchange.settlement, false⟩ := by
  have above : ¬ status < 400 := by omega
  simp only [paymentMiddleware, finished, above, if_false]

section served

variable (serving : Serving) (requestId : String) (request : ChatCompletionRequest)
variable (exchange : Exchange)

theorem serve_rejected (error : Thrown) (after : Exchange)
    (rejected : routed text config select requestId request exchange = (.error error, after)) :
    serve text config select serving requestId (.ok request) exchange =
      paymentMiddleware serving.cfg serving.result serving.readings
        { after with res := errorHandler serving.render error after.res } := by
  simp only [serve, handleChat, rejected]

theorem served_untouched (settlement : Service) (error : Thrown) (after : Exchange)
    (rejected : routed text config select requestId request exchange = (.error error, after))
    (untouched : Untouched settlement after) :
    let served := serve text config select serving requestId (.ok request) exchange
    (∃ status, served.res.finished = some status ∧ 400 ≤ status) ∧ served.settled = false ∧
      Unscheduled settlement served.settlement := by
  obtain ⟨status, finished, refused⟩ :=
    errorHandler_untouched serving.render error after.res untouched.unfinished untouched.unsent
  rw [serve_rejected text config select serving requestId request exchange error after rejected]
  rw [paymentMiddleware_refused _ _ _ _ status finished refused]
  exact ⟨⟨status, finished, refused⟩, rfl, untouched.unscheduled⟩

theorem served_closed (error : Thrown) (after : Exchange)
    (rejected : routed text config select requestId request exchange = (.error error, after))
    (closed : after.res.finished = some 200) :
    (serve text config select serving requestId (.ok request) exchange).res.finished = some 200 := by
  rw [serve_rejected text config select serving requestId request exchange error after rejected]
  rw [paymentMiddleware_res]
  exact errorHandler_finished serving.render error after.res 200 closed

end served

/-- A stream that was opened has ended with a 200, so all depends on whether `route` still rejects.
-/
theorem charged_only_if_served_iff (serving : Serving) (requestId : String)
    (request : ChatCompletionRequest) (buffered : Bool) (settlement : Service) :
    ChargedOnlyIfServed text config select serving requestId request
        (accept requestId buffered settlement) ↔
      (request.stream = some true →
        ∀ call ∈ Router.openedCall select request.model 2 [], Router.delivers call = true) := by
  have phases := response_phases config requestId settlement
  have untouched := accept_untouched requestId buffered settlement
  have unserved (kept : Untouched settlement
      (routed text config select requestId request (accept requestId buffered settlement)).2) :
      ChargedOnlyIfServed text config select serving requestId request
        (accept requestId buffered settlement) := by
    intro error rejected
    exact served_untouched text config select serving requestId request _ settlement error _
      (Prod.ext rejected rfl) kept
  by_cases streaming : request.stream = some true
  · have asked : (routeInput config requestId request).streaming = true := by
      simp [routeInput, streaming]
    cases opened : Router.openedCall select request.model 2 [] with
    | none =>
      have kept : Untouched settlement
          (routed text config select requestId request (accept requestId buffered settlement)).2 :=
        Router.route_unopened _ _ _ _ _ phases asked _ untouched opened
      exact ⟨fun _ _ call member => absurd member (by simp), fun _ => unserved kept⟩
    | some call =>
      have ending : (routed text config select requestId request
            (accept requestId buffered settlement)).1.isOk = Router.delivers call ∧
          (routed text config select requestId request
            (accept requestId buffered settlement)).2.res.finished = some 200 :=
        Router.route_opened _ _ _ _ _ phases asked _ untouched call opened
      obtain ⟨outcome, closed⟩ := ending
      constructor
      · intro charged _ _ same
        obtain rfl := Option.some.inj same
        rcases answer : (routed text config select requestId request
          (accept requestId buffered settlement)).1 with error | result
        · -- The rejected request would have to end with two statuses.
          obtain ⟨⟨status, finished, refused⟩, -⟩ := charged error answer
          have ended := served_closed text config select serving requestId request _ error _
            (Prod.ext answer rfl) closed
          rw [ended, Option.some.injEq] at finished
          omega
        · have served : (routed text config select requestId request
            (accept requestId buffered settlement)).1.isOk = true := by rw [answer]; rfl
          exact outcome.symm.trans served
      · intro delivered error rejected
        have served := outcome.trans (delivered streaming call rfl)
        have failed : (routed text config select requestId request
          (accept requestId buffered settlement)).1.isOk = false := by rw [rejected]; rfl
        exact absurd (served.symm.trans failed) (by simp)
  · have asked : (routeInput config requestId request).streaming = false := by
      simpa [routeInput] using streaming
    have kept : Untouched settlement
        (routed text config select requestId request (accept requestId buffered settlement)).2 :=
      Router.route_buffered _ _ _ _ _ phases asked _ untouched
    exact ⟨fun _ streams => absurd streams streaming, fun _ => unserved kept⟩

-- A node that opens the stream with one frame and then dies.
def brokenCall : NodeCall where
  nodeId := "node-a"
  operatorAddress := "OPERATOR-A"
  beginFails := none
  unroutable := none
  upstream := .answered 200 (some "text/event-stream")
    (some ⟨[⟨15, "data: partial\n\n"⟩], some (.other "node died mid-stream" none none), ""⟩)
  latencyMs := 40
  successFails := none
  failureFails := none
  endFails := none

def demoServing : Serving where
  cfg := World.demoDeps
  render := MeshErrorBody.code
  result := ⟨true, some "INBOUND-TX", some "2000", some "PAYER", some "2000"⟩
  readings := ⟨5, 5, 5⟩

def demoText : JsonText String := ⟨some, id⟩

def brokenServed : Served :=
  serve demoText ⟨120000, 0⟩ (fun _ _ => .ok brokenCall) demoServing "r1"
    (.ok ⟨"llama3.1:8b", some true⟩) (accept "r1" true .init)

theorem broken_stream_charged :
    ¬ ChargedOnlyIfServed demoText ⟨120000, 0⟩ (fun _ _ => .ok brokenCall) demoServing "r1"
        ⟨"llama3.1:8b", some true⟩ (accept "r1" true .init) ∧
      brokenServed.res.finished = some 200 ∧ brokenServed.settled = true ∧
      brokenServed.settlement.accepted.map (·.requestId) = ["r1"] := by
  have shown : brokenServed.res.finished = some 200 ∧ brokenServed.settled = true ∧
      brokenServed.settlement.accepted.map (·.requestId) = ["r1"] := by
    decide
  refine ⟨fun charged => ?_, shown⟩
  obtain ⟨-, unsettled, -⟩ := charged _ rfl
  exact absurd (shown.2.1.symm.trans unsettled) (by decide)

end X402Mesh.Gateway
