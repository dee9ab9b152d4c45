import X402Mesh.Gateway.Chat
import X402Mesh.Gateway.Relay

set_option autoImplicit false

-- Nothing is asked of the selector or of the stores here: a node may be selected twice, and any
-- call of a store may throw.

namespace X402Mesh.Gateway

namespace Relay

open Router

variable {Json : Type} (parseJson : String → Option Json) (input : RouteInput)
variable (gone : Nat → Bool) (select : String → List String → Except Thrown NodeCall)

theorem accounted_ok {call : NodeCall} {α : Type} {outcome : Except Thrown α} {result : α}
    (resolved : accounted call outcome = .ok result) : outcome = .ok result := by
  unfold accounted at resolved
  cases ends : call.endFails with
  | some error => simp [ends] at resolved
  | none =>
    cases outcome with
    | error error => simp [ends] at resolved
    | ok own =>
      cases succeeds : call.successFails with
      | some error => simp [ends, succeeds] at resolved
      | none => simpa [ends, succeeds] using resolved

theorem accounting_quiet (call : NodeCall) {α : Type} (outcome : Except Thrown α) :
    nodes (accounting call outcome) = [] ∧ (accounting call outcome).filter onSink = [] := by
  unfold accounting
  cases outcome <;> cases call.successFails <;> cases call.failureFails <;>
    cases call.endFails <;> exact ⟨rfl, rfl⟩

theorem nodes_pumped {call : NodeCall} {ended : Bool} {pump : Trace}
    (pumped : Pumped call ended pump) : nodes pump = [] := by
  apply List.filterMap_eq_nil_iff.mpr
  intro e member
  have other := (onSink_other (pumped_onSink pumped e member)).1
  cases e <;> first | rfl | cases other

theorem performCall_plain (plain : input.streaming = false) (attempt : Nat) (call : NodeCall)
    (t : TrackedSink Trace) : (performCall parseJson input gone attempt call t).2 = t := by
  unfold performCall
  split
  next => rfl
  next =>
    unfold Router.performCall
    cases call.unroutable with
    | some error => rfl
    | none =>
      cases call.upstream with
      | refused reason timedOut => rfl
      | answered status contentType body =>
        by_cases good : responseOk status = true <;> simp [good, plain]

-- What one call adds to the trace, apart from the selection.
theorem callNode_added (attempt : Nat) (call : NodeCall) (t : TrackedSink Trace)
    (idle : t.started = false) (unended : t.ended = false) :
    ∃ ended added, nodes added = [] ∧ Pumped call ended (added.filter onSink) ∧
      (callNode parseJson input gone attempt call t).2.inner = t.inner ++ added ∧
      (added.filter onSink = [] →
        (callNode parseJson input gone attempt call t).2.started = false ∧
          (callNode parseJson input gone attempt call t).2.ended = false) ∧
      (added.filter onSink ≠ [] →
        input.streaming = true ∧ (callNode parseJson input gone attempt call t).2.started = true) ∧
      ∀ body, (callNode parseJson input gone attempt call t).1 = .ok body →
        Delivered parseJson input call (added.filter onSink) body := by
  unfold callNode
  cases call.beginFails with
  | some error =>
    refine ⟨false, [], rfl, .nothing, by simp, fun _ => ⟨idle, unended⟩, by simp, ?_⟩
    intro body resolved
    cases resolved
  | none =>
    obtain ⟨ended, pump, pumped, left, delivers⟩ := performCall_trace parseJson input gone attempt
      call (note t [.began call.nodeId]) idle unended
    have plain (shut : input.streaming = false) :=
      performCall_plain parseJson input gone shut attempt call (note t [.began call.nodeId])
    dsimp only
    generalize performCall parseJson input gone attempt call _ = answer at left delivers plain
    obtain ⟨outcome, after⟩ := answer
    obtain ⟨unselected, quiet⟩ := accounting_quiet call outcome
    have own : pump.filter onSink = pump := List.filter_eq_self.mpr (pumped_onSink pumped)
    have sent : ([.began call.nodeId] ++ pump ++ accounting call outcome : Trace).filter onSink =
        pump := by
      simp [onSink, own, quiet]
    have nobody := nodes_pumped pumped
    refine ⟨ended, [.began call.nodeId] ++ pump ++ accounting call outcome, ?_, by rwa [sent], ?_⟩
    next =>
      simp only [nodes] at unselected nobody
      simp [nodes, unselected, nobody]
    next =>
      rw [sent]
      have ok : ∀ body, accounted call outcome = .ok body →
          Delivered parseJson input call pump body :=
        fun body resolved => delivers body (accounted_ok resolved)
      rcases left with ⟨nothing, kept⟩ | ⟨something, kept⟩
      · simp only at kept
        refine ⟨by simp [kept, nothing, note], fun _ => by simp [kept, note, idle, unended],
          fun some_sent => absurd nothing some_sent, ok⟩
      · simp only at kept plain
        refine ⟨by simp [kept, note], fun nothing => absurd nothing something,
          fun _ => ⟨?_, by simp [kept, note]⟩, ok⟩
        by_contra shut
        have started := congrArg TrackedSink.started (plain (Bool.eq_false_iff.mpr shut))
        simp [kept, note, idle] at started

structure Sourced (trace : Trace) (outcome : Except Thrown (RouteResult Json)) : Prop where
  sink : trace.filter onSink = [] ∨
    input.streaming = true ∧
      ∃ call ended, (nodes trace).getLast? = some call ∧ Pumped call ended (trace.filter onSink)
  served : ∀ result, outcome = .ok result →
    ∃ call, (nodes trace).getLast? = some call ∧ result.nodeId = call.nodeId ∧
      Delivered parseJson input call (trace.filter onSink) result.body

theorem routeLoop_sourced (left attempt : Nat) (tried : List String) (lastError : Option Thrown)
    (t : TrackedSink Trace) (idle : t.started = false) (unended : t.ended = false) :
    ∃ added,
      (routeLoop parseJson input gone select left attempt tried lastError t).2.inner =
        t.inner ++ added ∧
      Sourced parseJson input added
        (routeLoop parseJson input gone select left attempt tried lastError t).1 := by
  -- A route that ends here has sent nothing of its own.
  have stops (error : Thrown) : Sourced parseJson input [] (.error error) :=
    ⟨.inl rfl, fun _ resolved => by cases resolved⟩
  induction left generalizing attempt tried lastError t with
  | zero => exact ⟨[], by simp [routeLoop], stops _⟩
  | succ left ih =>
    simp only [routeLoop]
    cases select input.model tried with
    | error error =>
      dsimp only
      split
      next => exact ⟨[], by simp, stops _⟩
      next => exact ⟨[], by simp, stops _⟩
    | ok call =>
      obtain ⟨ended, added, nobody, pumped, inner, quiet, opened, delivers⟩ :=
        callNode_added parseJson input gone attempt call (note t [.selected call]) idle unended
      dsimp only
      generalize callNode parseJson input gone attempt call (note t [.selected call]) = answer
        at inner quiet opened delivers
      obtain ⟨outcome, after⟩ := answer
      simp only at inner quiet opened delivers
      have last : nodes (.selected call :: added) = [call] := by
        simp only [nodes] at nobody
        simp [nodes, nobody]
      have sink : (.selected call :: added : Trace).filter onSink = added.filter onSink := rfl
      have whole : after.inner = t.inner ++ (.selected call :: added) := by
        simp [inner, note]
      have source : (.selected call :: added : Trace).filter onSink = [] ∨
          input.streaming = true ∧ ∃ chosen ended,
            (nodes (.selected call :: added)).getLast? = some chosen ∧
              Pumped chosen ended ((.selected call :: added : Trace).filter onSink) := by
        rw [sink, last]
        by_cases nothing : added.filter onSink = []
        · exact .inl nothing
        · exact .inr ⟨(opened nothing).1, call, ended, rfl, pumped⟩
      cases outcome with
      | ok body =>
        refine ⟨_, whole, source, fun result resolved => ?_⟩
        cases resolved
        exact ⟨call, by rw [last]; rfl, rfl, sink ▸ delivers body rfl⟩
      | error error =>
        dsimp only
        split
        next =>
          exact ⟨_, whole, source, fun _ resolved => by cases resolved⟩
        next fatal =>
          -- The sink was left alone, so whatever it gets is from the calls to come.
          have nothing : added.filter onSink = [] := by
            by_contra something
            simp [(opened something).2] at fatal
          obtain ⟨more, later, sourced⟩ := ih (attempt + 1) (tried ++ [call.nodeId]) (some error)
            after (quiet nothing).1 (quiet nothing).2
          have pump : (.selected call :: added ++ more : Trace).filter onSink =
              more.filter onSink := by
            rw [List.filter_append, sink, nothing, List.nil_append]
          have final (chosen : NodeCall) (found : (nodes more).getLast? = some chosen) :
              (nodes (.selected call :: added ++ more)).getLast? = some chosen := by
            simp only [nodes] at found last ⊢
            rw [List.filterMap_append, last, List.getLast?_append, found]
            rfl
          refine ⟨.selected call :: added ++ more, ?_, ?_, fun result resolved => ?_⟩
          · rw [later, whole, List.append_assoc]
          · rw [pump]
            rcases sourced.sink with silent | ⟨streaming, chosen, ended, found, streamed⟩
            · exact .inl silent
            · exact .inr ⟨streaming, chosen, ended, final chosen found, streamed⟩
          · obtain ⟨chosen, found, same, delivered⟩ := sourced.served result resolved
            exact ⟨chosen, final chosen found, same, pump ▸ delivered⟩

theorem route_sourced :
    Sourced parseJson input (route parseJson input gone select).2
      (route parseJson input gone select).1 := by
  obtain ⟨added, inner, sourced⟩ := routeLoop_sourced parseJson input gone select 2 1 [] none
    ⟨false, false, []⟩ rfl rfl
  have trace : (route parseJson input gone select).2 = added := by
    simpa [route] using inner
  rw [trace]
  exact sourced

section renames

variable {S S' : Type} {sink : StreamSink S} {sink' : StreamSink S'} {name : S → S'}
variable (onNodeSelected : S → NodeCall → S) (onNodeSelected' : S' → NodeCall → S')
variable (renames : Renames sink sink' name)

include renames

theorem callNode_renamed (call : NodeCall) (t : TrackedSink S) :
    Router.callNode sink' parseJson input call (renamed name t) =
      ((Router.callNode sink parseJson input call t).1,
        renamed name (Router.callNode sink parseJson input call t).2) := by
  unfold Router.callNode
  cases call.beginFails with
  | some error => rfl
  | none => simp only [performCall_renamed parseJson input renames]

theorem routeLoop_renamed
    (selects : ∀ s call, name (onNodeSelected s call) = onNodeSelected' (name s) call)
    (left attempt : Nat) (tried : List String) (lastError : Option Thrown) (t : TrackedSink S) :
    Router.routeLoop sink' parseJson input select onNodeSelected' left attempt tried lastError
        (renamed name t) =
      ((Router.routeLoop sink parseJson input select onNodeSelected left attempt tried lastError
          t).1,
        renamed name (Router.routeLoop sink parseJson input select onNodeSelected left attempt tried
          lastError t).2) := by
  induction left generalizing attempt tried lastError t with
  | zero => rfl
  | succ left ih =>
    simp only [Router.routeLoop]
    cases select input.model tried with
    | error error =>
      dsimp only
      split <;> rfl
    | ok call =>
      have selected : ({ renamed name t with
          inner := onNodeSelected' (renamed name t).inner call } : TrackedSink S') =
            renamed name { t with inner := onNodeSelected t.inner call } := by
        simp [renamed, selects]
      dsimp only
      rw [selected, callNode_renamed parseJson input renames]
      generalize Router.callNode sink parseJson input call _ = answer
      obtain ⟨outcome, after⟩ := answer
      cases outcome with
      | ok body => rfl
      | error error =>
        have same : (renamed name after).started = after.started := rfl
        simp only [same]
        cases after.started with
        | true => rfl
        | false => exact ih _ _ _ _

theorem route_renamed
    (selects : ∀ s call, name (onNodeSelected s call) = onNodeSelected' (name s) call) (s : S) :
    Router.route sink' parseJson input select onNodeSelected' (name s) =
      ((Router.route sink parseJson input select onNodeSelected s).1,
        name (Router.route sink parseJson input select onNodeSelected s).2) := by
  have run := routeLoop_renamed parseJson input select _ _ renames selects 2 1 [] none
    ⟨false, false, s⟩
  simp only [Router.route]
  rw [show (⟨false, false, name s⟩ : TrackedSink S') = renamed name ⟨false, false, s⟩ from rfl, run]
  rfl

end renames

end Relay

open Relay

-- What an event of the router does to the response of its request.
def respond (res : Response) : RelayEvent → Response
  | .selected call => res.setHeader nodeIdHeader call.nodeId
  | .opened contentType =>
    (((((res.status 200).setHeader "content-type" contentType).setHeader
      "cache-control" "no-cache, no-transform").setHeader "connection" "keep-alive").setHeader
      "x-accel-buffering" "no").flushHeaders
  | .wrote chunk => if res.writableEnded then res else res.write chunk
  | .closed => if res.writableEnded then res else res.finish
  | _ => res

theorem respond_headers (trace : Trace) (res : Response) :
    (trace.foldl respond res).headers.get? requestIdHeader = res.headers.get? requestIdHeader ∧
      (trace.foldl respond res).headers.get? nodeIdHeader =
        ((nodes trace).getLast?.map (·.nodeId)).or (res.headers.get? nodeIdHeader) := by
  induction trace using List.reverseRecOn with
  | nil => simp [nodes]
  | append_singleton trace e ih =>
    have split : nodes (trace ++ [e]) = nodes trace ++ nodes [e] := List.filterMap_append
    rw [List.foldl_append, split, List.getLast?_append]
    generalize trace.foldl respond res = after at ih
    cases e with
    | selected call =>
      simpa [respond, Response.setHeader, OrderedMap.get?_set, nodes, requestIdHeader,
        nodeIdHeader] using ih.1
    | opened contentType =>
      simpa [respond, Response.setHeader, Response.status, Response.flushHeaders,
        OrderedMap.get?_set, nodes, requestIdHeader, nodeIdHeader] using ih
    | wrote chunk | closed =>
      simp only [List.foldl_cons, List.foldl_nil, respond]
      split <;> simpa [nodes, Response.write, Response.finish, Response.flushHeaders] using ih
    | began | recorded | ended => simpa [respond, nodes] using ih

-- The response without its headers.
def unheaded (res : Response) : Response := { res with headers := .empty }

theorem respond_unheaded (res : Response) (e : RelayEvent) :
    unheaded (respond (unheaded res) e) = unheaded (respond res e) := by
  have live : (unheaded res).writableEnded = res.writableEnded := rfl
  cases e with
  | wrote chunk | closed =>
    simp only [respond, live]
    split <;> rfl
  | _ => rfl

-- But for the headers, the response is what the sink has made of it.
theorem respond_sink (trace : Trace) (res : Response) :
    unheaded (trace.foldl respond res) = unheaded ((trace.filter onSink).foldl respond res) := by
  induction trace using List.reverseRecOn with
  | nil => rfl
  | append_singleton trace e ih =>
    rw [List.foldl_append, List.filter_append, List.foldl_append, List.filter_singleton]
    cases sinks : onSink e with
    | true =>
      simp only [List.foldl_cons, List.foldl_nil, cond_true]
      rw [← respond_unheaded, ih, respond_unheaded]
    | false =>
      have untouched (res : Response) : unheaded (respond res e) = unheaded res := by
        cases e <;> first | rfl | cases sinks
      simpa only [List.foldl_cons, List.foldl_nil, cond_false, untouched] using ih

theorem respond_wrote (chunks : List String) (res : Response) (unfinished : res.finished = none) :
    let after := (chunks.map RelayEvent.wrote).foldl respond res
    after.finished = none ∧ after.statusCode = res.statusCode ∧
      after.written = res.written ++ chunks := by
  induction chunks generalizing res with
  | nil => exact ⟨unfinished, rfl, (List.append_nil _).symm⟩
  | cons chunk rest ih =>
    have live : res.writableEnded = false := by simp [Response.writableEnded, unfinished]
    obtain ⟨open', status, written⟩ := ih (res.write chunk) unfinished
    simp only [List.map_cons, List.foldl_cons, respond, live, Bool.false_eq_true, if_false]
    exact ⟨open', status, written.trans (by simp [Response.write, Response.flushHeaders])⟩

theorem respond_pumped {call : NodeCall} {ended : Bool} {pump : Trace}
    (pumped : Pumped call ended pump) (streamed : pump ≠ []) (res : Response)
    (unfinished : res.finished = none) :
    (pump.foldl respond res).finished = some 200 ∧
      (pump.foldl respond res).written = res.written ++ written pump := by
  cases pumped with
  | nothing => exact absurd rfl streamed
  | @streamed status contentType body ended chunks answered good relayed =>
    rw [written_streamed, List.foldl_cons, List.foldl_append]
    obtain ⟨running, status, copied⟩ := respond_wrote chunks
      (respond res (.opened (contentType.getD "text/event-stream"))) unfinished
    generalize (chunks.map RelayEvent.wrote).foldl respond _ = after at running status copied
    have live : after.writableEnded = false := by simp [Response.writableEnded, running]
    simp only [List.foldl_cons, List.foldl_nil, respond, live, Bool.false_eq_true, if_false]
    refine ⟨?_, copied⟩
    simp [Response.finish, Response.flushHeaders, running, status, respond, Response.status,
      Response.setHeader]

variable {Json : Type} (text : JsonText Json) (config : ChatConfig)
variable (render : MeshErrorBody → String)

-- The router's part of a request that the schema may have refused.
def script (requestId : String) (request : Except Thrown ChatCompletionRequest)
    (gone : Nat → Bool) (select : String → List String → Except Thrown NodeCall) :
    Except Thrown (Router.RouteResult Json) × Trace :=
  match request with
  | .error error => (.error error, [])
  | .ok request => route text.parse (routeInput config requestId request) gone select

def streams (request : Except Thrown ChatCompletionRequest) : Bool :=
  match request with
  | .error _ => false
  | .ok request => request.stream == some true

-- What the handler, or the error handler behind it, does once the router is done.
def conclude (streaming : Bool) (outcome : Except Thrown (Router.RouteResult Json))
    (res : Response) : Response :=
  match outcome with
  | .error error => errorHandler render error res
  | .ok result =>
    if streaming then res
    else
      let reason := "attempts=" ++ toString result.attempts ++ " latency=" ++
        toString result.latencyMs ++ "ms"
      ((res.setHeader routeReasonHeader reason).status 200).json
        ((result.body.map text.stringify).getD "")

theorem conclude_headers (streaming : Bool) (outcome : Except Thrown (Router.RouteResult Json))
    (res : Response) (name : String) (plain : name ≠ "content-type")
    (own : name ≠ routeReasonHeader) :
    (conclude text render streaming outcome res).headers.get? name = res.headers.get? name := by
  cases outcome with
  | error error =>
    simp only [conclude, errorHandler]
    split
    next => rfl
    next =>
      simp [Response.json, Response.status, Response.setHeader, Response.write, Response.finish,
        Response.flushHeaders, OrderedMap.get?_set, plain]
  | ok result =>
    simp only [conclude]
    split
    next => rfl
    next =>
      simp [Response.json, Response.status, Response.setHeader, Response.write, Response.finish,
        Response.flushHeaders, OrderedMap.get?_set, plain, own]

theorem errorHandler_written (error : Thrown) (res : Response) :
    (errorHandler render error res).written = res.written ∨
      (errorHandler render error res).written =
        res.written ++ [render (toErrorResponse (normalizeBodyParserError error)).2] := by
  unfold errorHandler
  dsimp only
  split
  next => exact .inl rfl
  next => exact .inr rfl

/-- The response names `call`, the node selected last, and carries what that node answered: a JSON
body, or a stream to its end. A stream that broke off may be followed by one error body. -/
structure GivenBy (streaming : Bool) (outcome : Except Thrown (Router.RouteResult Json))
    (trace : Trace) (call : NodeCall) (res : Response) : Prop where
  last : (nodes trace).getLast? = some call
  named : res.headers.get? nodeIdHeader = some call.nodeId
  content :
    if streaming then
      trace.any isOpened = true ∧
        match outcome with
        | .ok _ => WrittenFrom call true trace ∧ res.written = written trace
        | .error error =>
          (∃ ended, WrittenFrom call ended trace) ∧ (res.written = written trace ∨
            res.written =
              written trace ++ [render (toErrorResponse (normalizeBodyParserError error)).2])
    else
      ∃ status contentType body json, call.upstream = .answered status contentType body ∧
        Router.responseOk status = true ∧
        Router.readJson text.parse body call.nodeId = .ok json ∧
        res.written = [text.stringify json]

section given

variable (requestId : String) (request : Except Thrown ChatCompletionRequest)
variable (gone : Nat → Bool) (select : String → List String → Except Thrown NodeCall)

-- The response of a request at its end.
def ended (buffered : Bool) : Response :=
  let (outcome, trace) := script text config requestId request gone select
  conclude text render (streams request) outcome
    (trace.foldl respond (accept requestId buffered .init).res)

theorem ended_requestId (buffered : Bool) :
    (ended text config render requestId request gone select buffered).headers.get? requestIdHeader =
      some requestId := by
  simp only [ended]
  rw [conclude_headers text render _ _ _ requestIdHeader (by decide) (by decide),
    (respond_headers _ _).1]
  simp [accept]

theorem ended_given (buffered : Bool) {status : Nat}
    (finished : (ended text config render requestId request gone select buffered).finished =
      some status) (served : status < 400) :
    ∃ call, GivenBy text render (streams request)
      (script text config requestId request gone select).1
      (script text config requestId request gone select).2 call
      (ended text config render requestId request gone select buffered) := by
  let start := (accept requestId buffered .init).res
  let trace := (script text config requestId request gone select).2
  have name {call : NodeCall} (last : (nodes trace).getLast? = some call) :
      (ended text config render requestId request gone select buffered).headers.get? nodeIdHeader =
        some call.nodeId := by
    simp only [ended]
    rw [conclude_headers text render _ _ _ nodeIdHeader (by decide) (by decide),
      (respond_headers _ _).2]
    change (((nodes trace).getLast?.map (·.nodeId)).or _) = _
    rw [last]
    rfl
  have stripped := respond_sink trace start
  -- An error before the sink was opened is answered with a status of its own.
  have refused {error : Thrown} (nothing : trace.filter onSink = [])
      (failed : (script text config requestId request gone select).1 = .error error) : False := by
    rw [nothing] at stripped
    obtain ⟨code, answered, above⟩ := errorHandler_untouched render error
      (trace.foldl respond start) (congrArg Response.finished stripped)
      (congrArg Response.headersSent stripped)
    simp only [ended, failed, conclude] at finished
    have same := answered.symm.trans finished
    cases same
    omega
  cases request with
  | error error => exact (refused rfl rfl).elim
  | ok request =>
    have sourced : Sourced text.parse (routeInput config requestId request) trace
        (script text config requestId (.ok request) gone select).1 :=
      route_sourced text.parse (routeInput config requestId request) gone select
    by_cases nothing : trace.filter onSink = []
    · cases outcome : (script text config requestId (.ok request) gone select).1 with
      | error error => exact (refused nothing outcome).elim
      | ok result =>
        obtain ⟨call, last, -, delivered⟩ := sourced.served result outcome
        refine ⟨call, last, name last, ?_⟩
        rw [nothing] at delivered stripped
        unfold Delivered at delivered
        split at delivered
        next => cases delivered.1
        next plain =>
          have buffers : streams (.ok request) = false := by
            simpa [streams, routeInput] using plain
          obtain ⟨-, status, contentType, body, json, answered, good, read, same⟩ := delivered
          rw [buffers]
          simp only [Bool.false_eq_true, if_false]
          refine ⟨status, contentType, body, json, answered, good, read, ?_⟩
          have before : (trace.foldl respond start).written = [] :=
            congrArg Response.written stripped
          simp only [ended, outcome, conclude, buffers, same, Bool.false_eq_true, if_false,
            Option.map_some, Option.getD_some]
          change (trace.foldl respond start).written ++ [text.stringify json] = _
          rw [before]
          rfl
    · obtain ⟨streaming, call, ended', last, pumped⟩ := sourced.sink.resolve_left nothing
      have streamed : streams (.ok request) = true := streaming
      obtain ⟨-, copied⟩ := respond_pumped pumped nothing start rfl
      have before : (trace.foldl respond start).written = written trace := by
        rw [← written_sink trace]
        exact (congrArg Response.written stripped).trans copied
      cases outcome : (script text config requestId (.ok request) gone select).1 with
      | ok result =>
        obtain ⟨served, found, -, delivered⟩ := sourced.served result outcome
        obtain ⟨pumped', -⟩ := (if_pos streaming).mp delivered
        obtain ⟨opened, source⟩ := (pumped_written pumped' rfl).resolve_left fun both =>
          nothing both.1
        refine ⟨served, found, name found, ?_⟩
        rw [streamed, if_pos rfl]
        refine ⟨opened, source, ?_⟩
        simp only [ended, outcome, conclude, streamed, if_true]
        exact before
      | error error =>
        obtain ⟨opened, source⟩ := (pumped_written pumped rfl).resolve_left fun both =>
          nothing both.1
        refine ⟨call, last, name last, ?_⟩
        rw [streamed, if_pos rfl]
        refine ⟨opened, ⟨ended', source⟩, ?_⟩
        have more := errorHandler_written render error (trace.foldl respond start)
        rw [before] at more
        simp only [ended, outcome, conclude]
        exact more

end given

section handler

variable (requestId : String)

-- An event of the router in the exchange, by the handler's own sink and callback.
def play (exchange : Exchange) : RelayEvent → Exchange
  | .selected call => onNodeSelected config requestId exchange call
  | .opened contentType => createResponseSink.start exchange contentType
  | .wrote chunk => createResponseSink.write exchange chunk
  | .closed => createResponseSink.finish exchange
  | _ => exchange

theorem play_res (exchange : Exchange) (e : RelayEvent) :
    (play config requestId exchange e).res = respond exchange.res e := by
  cases e with
  | wrote chunk =>
    simp only [play, createResponseSink, respond]
    split <;> rfl
  | closed =>
    simp only [play, createResponseSink, respond]
    split <;> rfl
  | _ => rfl

theorem play_renames (exchange : Exchange) :
    Renames traced createResponseSink
      fun trace => trace.foldl (play config requestId) exchange where
  start := by simp [traced, play]
  write := by simp [traced, play]
  finish := by simp [traced, play]

theorem played_unaccounted (trace : Trace) (exchange : Exchange) :
    (unaccounted trace).foldl (play config requestId) exchange =
      trace.foldl (play config requestId) exchange := by
  induction trace generalizing exchange with
  | nil => rfl
  | cons e rest ih => cases e <;> exact ih _

variable (select : String → List String → Except Thrown NodeCall) (gone : Nat → Bool)

theorem routed_played (stays : ∀ n, gone n = false) (request : ChatCompletionRequest)
    (exchange : Exchange) :
    routed text config select requestId request exchange =
      ((script text config requestId (.ok request) gone select).1,
        (script text config requestId (.ok request) gone select).2.foldl (play config requestId)
          exchange) := by
  have named := route_renamed text.parse (routeInput config requestId request) select
    (fun trace call => trace ++ [.selected call]) (onNodeSelected config requestId)
    (play_renames config requestId exchange) (fun trace call => by simp [play]) []
  rw [route_stays text.parse (routeInput config requestId request) gone select stays,
    played_unaccounted] at named
  exact named

-- What the payment middleware is given is the trace played on, and the end of the request.
theorem serve_played (stays : ∀ n, gone n = false) (serving : Serving)
    (request : Except Thrown ChatCompletionRequest) (exchange : Exchange) :
    serve text config select serving requestId request exchange =
      let (outcome, trace) := script text config requestId request gone select
      let after := trace.foldl (play config requestId) exchange
      paymentMiddleware serving.cfg serving.result serving.readings
        { after with res := conclude text serving.render (streams request) outcome after.res } := by
  unfold serve handleChat
  cases request with
  | error error => rfl
  | ok request =>
    simp only [routed_played text config requestId select gone stays]
    generalize (script text config requestId (.ok request) gone select).2.foldl _ _ = after
    cases (script text config requestId (.ok request) gone select).1 with
    | error error => rfl
    | ok result =>
      by_cases streaming : (request.stream == some true) = true <;>
        simp [conclude, streams, streaming]

end handler

end X402Mesh.Gateway
