import X402Mesh.Lib.Sessions
import X402Mesh.NodeDaemon.BodyReader
import X402Mesh.NodeDaemon.Semaphore
import X402Mesh.NodeDaemon.Stream
import X402Mesh.NodeDaemon.Usage

set_option autoImplicit false

-- An exchange is a request that has been handed to the server, with what its response was told so
-- far. Each goes through its phases at its own pace.

namespace X402Mesh.NodeDaemon.Server

open Js ChatSchemas

structure Options where
  nodeId : Units
  version : Units
  provider : Units
  models : List Units
  authToken : Option (List Char)

def healthCacheMs : Int := 5000

structure Reply where
  headers : List (String × String)
  status : Option Nat
  body : List String
  ended : Bool

namespace Reply

def fresh : Reply := ⟨[], none, [], false⟩

def setHeader (reply : Reply) (name value : String) : Reply :=
  { reply with headers := reply.headers ++ [(name, value)] }

def headersSent (reply : Reply) : Bool := reply.status.isSome

def writeHead (reply : Reply) (status : Nat) (headers : List (String × String)) : Reply :=
  { reply with status := some status, headers := reply.headers ++ headers }

def write (reply : Reply) (text : String) : Reply := { reply with body := reply.body ++ [text] }

def finish (reply : Reply) : Reply := { reply with ended := true }

def writeSseData (reply : Reply) (data : String) : Reply := reply.write (sseData data)

end Reply

def orNull : Value → Value
  | .undefined => .null
  | body => body

def errorBody (code message : String) : Value :=
  .object [(units "error", .object [(units "code", .string (units code)),
    (units "message", .string (units message))])]

/-- `JSON.parse` (none when it throws), `JSON.stringify` of a value and of the body of an error,
whose details are sanitized first, and the issues that zod flattens for a body it refuses. -/
structure Codec where
  parse : List Char → Option Value
  stringify : Value → String
  render : MeshErrorBody → String
  flatten : Value → List (String × String)

section exchange

variable (codec : Codec)

def Reply.sendPayload (reply : Reply) (status : Nat) (payload : String) : Reply :=
  if reply.headersSent || reply.ended then reply
  else
    ((reply.writeHead status [("content-type", "application/json; charset=utf-8"),
      ("content-length", toString payload.utf8ByteSize)]).write payload).finish

def Reply.sendJson (reply : Reply) (status : Nat) (body : Value) : Reply :=
  reply.sendPayload status (codec.stringify (orNull body))

def Reply.sendError (reply : Reply) (cause : Thrown) : Reply :=
  let response := toErrorResponse cause
  reply.sendPayload response.1 (codec.render response.2)

def Reply.failInfer (reply : Reply) (cause : Thrown) : Reply :=
  if reply.headersSent || reply.ended then reply else reply.sendError codec cause

-- The headers have the id of the request already.
def Reply.startStream (reply : Reply) : Reply :=
  reply.writeHead 200 [("content-type", "text/event-stream; charset=utf-8"),
    ("cache-control", "no-cache, no-transform"), ("connection", "keep-alive"),
    ("x-accel-buffering", "no")]

def Reply.endStream (reply : Reply) (failure : Option Thrown) : Reply :=
  if reply.ended then reply
  else
    match failure with
    | none => (reply.writeSseData sseDone).finish
    | some cause =>
      ((reply.write ("event: error\ndata: " ++ codec.render (toErrorResponse cause).2 ++
        "\n\n")).writeSseData sseDone).finish

inductive Phase
  | probing (since : Int)
  | reading (permit : Nat) (reader : BodyReader)
  | inferring (permit : Nat) (request : Value)
  | streaming (permit : Nat) (request : Value)
  | finished

structure Exchange where
  phase : Phase
  reply : Reply
  aborted : Bool

inductive Event
  | body (event : BodyEvent)
  | completed (result : Except Thrown Value)
  | chunk (chunk : Value)
  | streamEnded (failure : Option Thrown)
  | closed

namespace Exchange

def permit (e : Exchange) : Option Nat :=
  match e.phase with
  | .reading permit _ | .inferring permit _ | .streaming permit _ => some permit
  | .probing _ | .finished => none

def finish (e : Exchange) (reply : Reply) : Exchange :=
  { e with phase := .finished, reply := reply }

-- `parseOrThrow`
def parseRequest (raw : Value) : Except MeshError Value :=
  match chatCompletionRequestSchema raw with
  | some request => .ok request
  | none =>
    refused "invalid chat completion request"
      (("what", "chat completion request") :: codec.flatten raw)

-- `request.stream === true`
def streams (request : Value) : Bool :=
  match request.field (units "stream") with
  | .boolean b => b
  | _ => false

-- What `handleInfer` does once the body is there.
def begin (e : Exchange) (permit : Nat) (raw : Except MeshError Value) : Exchange :=
  match raw.bind (parseRequest codec) with
  | .error error => e.finish (e.reply.failInfer codec (.mesh error))
  | .ok request =>
    if streams request then
      { e with phase := .streaming permit request, reply := e.reply.startStream }
    else { e with phase := .inferring permit request }

def onBody (e : Exchange) (permit : Nat) (reader : BodyReader) : Exchange :=
  match reader.settled with
  | none => { e with phase := .reading permit reader }
  | some raw => e.begin codec permit raw

def on (e : Exchange) (event : Event) : Exchange :=
  match e.phase, event with
  | .reading permit reader, .body event => e.onBody codec permit (reader.on codec.parse event)
  | .inferring _ _, .completed (.ok completion) =>
    e.finish (e.reply.sendJson codec 200 completion)
  | .inferring _ _, .completed (.error cause) => e.finish (e.reply.failInfer codec cause)
  | .streaming _ _, .chunk chunk =>
    if e.reply.ended then e.finish e.reply
    else { e with reply := e.reply.writeSseData (codec.stringify chunk) }
  | .streaming _ _, .streamEnded failure => e.finish (e.reply.endStream codec failure)
  | .finished, _ => e
  | _, .closed => { e with aborted := true }
  -- Nobody listens.
  | _, _ => e

end Exchange

structure Request where
  method : String
  url : String
  authorization : Option (List Char)
  xRequestId : Option String
  randomUUID : String

structure State where
  permits : Permits.State
  cachedHealth : Option (Bool × Int)
  now : Int
  exchanges : List Exchange

def init (sem : Permits.Semaphore) (now : Int) : State := ⟨Permits.init sem, none, now, []⟩

inductive Action
  | clock (now : Int)
  | request (request : Request)
  | probed (i : Nat) (result : Except Thrown Bool)
  | event (i : Nat) (event : Event)

variable (options : Options)

def bearer : List Char := "Bearer ".toList

def authorized (request : Request) : Bool :=
  match options.authToken with
  | none => true
  | some expected =>
    let header := request.authorization.getD []
    let presented := if bearer.isPrefixOf header then header.drop 7 else []
    Utf8.encode presented = Utf8.encode expected

def pathOf (request : Request) : String := String.ofList (request.url.toList.takeWhile (· ≠ '?'))

namespace State

def opened (s : State) (phase : Phase) (reply : Reply) : State :=
  { s with exchanges := s.exchanges ++ [⟨phase, reply, false⟩] }

def loadValue (s : State) : List (Units × Value) :=
  [(units "inFlight", .number (.finite s.permits.sem.inFlight)),
    (units "maxConcurrency", .number (Usage.count s.permits.sem.permits))]

def health (s : State) (healthy : Bool) : Value :=
  .object ([(units "status", .string (units (if healthy then "ok" else "degraded"))),
    (units "nodeId", .string options.nodeId), (units "version", .string options.version),
    (units "provider", .string options.provider),
    (units "models", .array (options.models.map .string))] ++ s.loadValue ++
    [(units "available", .number (.finite s.permits.sem.available))])

def sendHealth (s : State) (reply : Reply) (healthy : Bool) : Reply :=
  reply.sendJson codec (if healthy then 200 else 503) (s.health options healthy)

def handleHealth (s : State) (reply : Reply) : State :=
  match s.cachedHealth with
  | some (healthy, since) =>
    if s.now - since < healthCacheMs then
      s.opened .finished (s.sendHealth codec options reply healthy)
    else s.opened (.probing s.now) reply
  | none => s.opened (.probing s.now) reply

def saturated (s : State) : Value :=
  .object [(units "error", .object [(units "code", .string (units "no_capacity")),
    (units "message", .string (units "node is at maximum concurrency")),
    (units "details", .object s.loadValue)])]

def handleInfer (s : State) (reply : Reply) (request : Request) : State :=
  if authorized options request then
    match Permits.tryAcquire? s.permits with
    | none =>
      s.opened .finished
        ((reply.setHeader "retry-after" "1").sendJson codec 503 s.saturated)
    | some permits =>
      opened { s with permits := permits } (.reading s.permits.released.length .fresh) reply
  else
    s.opened .finished (reply.sendJson codec 401
      (errorBody "auth_error" "missing or invalid bearer token"))

def handle (s : State) (request : Request) : State :=
  let reply := Reply.fresh.setHeader "x-request-id"
    (request.xRequestId.getD request.randomUUID)
  let path := pathOf request
  let refuse (status : Nat) (code message : String) : State :=
    s.opened .finished (reply.sendJson codec status (errorBody code message))
  if path = "/health" then
    if request.method ≠ "GET" ∧ request.method ≠ "HEAD" then
      refuse 405 "method_not_allowed" "use GET /health"
    else s.handleHealth codec options reply
  else if path = "/v1/chat/completions" ∨ path = "/infer" then
    if request.method ≠ "POST" then refuse 405 "method_not_allowed" ("use POST " ++ path)
    else s.handleInfer codec options reply request
  else refuse 404 "not_found" ("no route for " ++ path)

-- An exchange that was served gives its permit back, whatever became of it.
def serve (s : State) (i : Nat) (e e' : Exchange) : State :=
  { s with
    exchanges := s.exchanges.set i e'
    permits :=
      match e.permit, e'.permit with
      | some permit, none => Permits.release s.permits permit
      | _, _ => s.permits }

def probed (s : State) (i : Nat) (e : Exchange) (since : Int) (result : Except Thrown Bool) :
    State :=
  match result with
  | .ok healthy =>
    { s with
      cachedHealth := some (healthy, since)
      exchanges := s.exchanges.set i (e.finish (s.sendHealth codec options e.reply healthy)) }
  | .error cause =>
    { s with exchanges := s.exchanges.set i (e.finish (e.reply.sendError codec cause)) }

end State

def step (s : State) : Action → Option State
  | .clock now => some { s with now := now }
  | .request request => some (s.handle codec options request)
  | .probed i result =>
    match s.exchanges[i]? with
    | some e =>
      match e.phase with
      | .probing since => some (s.probed codec options i e since result)
      | _ => none
    | none => none
  | .event i event =>
    match s.exchanges[i]? with
    | some e => some (s.serve i e (e.on codec event))
    | none => none

abbrev Runs (s s' : State) : Prop :=
  Transition.Run (step codec options) (fun _ _ => True) s s'

end exchange

end X402Mesh.NodeDaemon.Server
