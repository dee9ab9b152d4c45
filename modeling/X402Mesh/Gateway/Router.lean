import X402Mesh.Lib.Utf8Decoder
import X402Mesh.Shared.Errors
import X402Mesh.Shared.Text
import Mathlib.Data.List.Infix
import Mathlib.Algebra.BigOperators.Group.List.Basic

set_option autoImplicit false

-- The client stays connected, so the signal of the request is never aborted.

namespace X402Mesh.Gateway

-- `text` is what the decoder yields for the chunk at its place in the stream.
structure Chunk where
  byteLength : Nat
  text : String
  deriving DecidableEq, Repr

-- `broke`: the read after the last chunk rejects. `rest` is what the decoder flushes at the end.
structure Body where
  chunks : List Chunk
  broke : Option Thrown
  rest : String
  deriving DecidableEq, Repr

inductive Upstream
  | refused (reason : String) (timedOut : Bool)
  | answered (status : Nat) (contentType : Option String) (body : Option Body)
  deriving DecidableEq, Repr

/-- One selected node, what it makes of the request, and what the stores throw around the call. -/
structure NodeCall where
  nodeId : String
  operatorAddress : String
  beginFails : Option Thrown
  unroutable : Option Thrown
  upstream : Upstream
  latencyMs : Int
  successFails : Option Thrown
  failureFails : Option Thrown
  endFails : Option Thrown
  deriving DecidableEq, Repr

namespace Router

def maxJsonBodyBytes : Nat := 8 * 1024 * 1024

def maxStreamBodyBytes : Nat := 64 * 1024 * 1024

def errorSnippetBytes : Nat := 256

def doneFrame : String := "data: [DONE]\n\n"

def describe : Thrown → String
  | .mesh error => error.message
  | .other text .. => text

def upstreamError (message : String) (details : List (String × String)) : Thrown :=
  .mesh ⟨.upstream, message, details⟩

structure StreamSink (S : Type) where
  start : S → String → S
  write : S → String → S
  finish : S → S

structure TrackedSink (S : Type) where
  started : Bool
  ended : Bool
  inner : S
  deriving DecidableEq, Repr

namespace TrackedSink

variable {S : Type} (sink : StreamSink S)

def start (t : TrackedSink S) (contentType : String) : TrackedSink S :=
  if t.started then t else { t with started := true, inner := sink.start t.inner contentType }

def write (t : TrackedSink S) (chunk : String) : TrackedSink S :=
  { t with inner := sink.write t.inner chunk }

def finish (t : TrackedSink S) : TrackedSink S :=
  if t.ended then t else { t with ended := true, inner := sink.finish t.inner }

end TrackedSink

variable {S : Type} (sink : StreamSink S)

def readChunks (limit : Nat) (broke : Option Thrown) (rest : String) :
    List Chunk → Nat → String → Except Thrown (String × Bool)
  | [], _, text =>
    match broke with
    | some error => .error error
    | none => .ok (text ++ rest, false)
  | chunk :: chunks, received, text =>
    if received + chunk.byteLength > limit then .ok (text, true)
    else readChunks limit broke rest chunks (received + chunk.byteLength) (text ++ chunk.text)

def readBounded (limit : Nat) : Option Body → Except Thrown (String × Bool)
  | none => .ok ("", false)
  | some body => readChunks limit body.broke body.rest body.chunks 0 ""

def readErrorSnippet (body : Option Body) : String :=
  match readBounded errorSnippetBytes body with
  | .ok (text, _) => String.ofList (text.toList.take errorSnippetBytes)
  | .error _ => ""

variable {Json : Type} (parseJson : String → Option Json)

def readJson (body : Option Body) (nodeId : String) : Except Thrown Json := do
  let (text, truncated) ← readBounded maxJsonBodyBytes body
  if truncated then
    .error (upstreamError "node response exceeded the maximum body size"
      [("nodeId", nodeId), ("maxBytes", toString maxJsonBodyBytes)])
  else
    match parseJson text with
    | some json => .ok json
    | none => .error (upstreamError "node returned a body that is not valid JSON" [("nodeId", nodeId)])

-- `slice(-64)`, which counts UTF-16 units.
def tailOf (units : List Nat) : List Nat := units.drop (units.length - 64)

theorem tailOf_append (a b : List Nat) : tailOf (tailOf a ++ b) = tailOf (a ++ b) := by
  -- Both drop all but 64 of the joined list, the first in two steps.
  have front : tailOf a ++ b = (a ++ b).drop (a.length - 64) :=
    (List.drop_append_of_le_length (by omega)).symm
  have cut : a.length - 64 + ((a ++ b).length - (a.length - 64) - 64) = (a ++ b).length - 64 := by
    rw [List.length_append]
    omega
  rw [front, tailOf, List.drop_drop, List.length_drop, cut]
  rfl

def doneMark : List Nat := Utf8.units "[DONE]".toList

def closeFrames (t : TrackedSink S) (tail : List Nat) : TrackedSink S :=
  if doneMark <:+: tail then t else t.write sink doneFrame

def copyChunks (broke : Option Thrown) :
    List Chunk → Nat → List Nat → TrackedSink S → Except Thrown Unit × TrackedSink S
  | [], _, tail, t =>
    match broke with
    | some error => (.error error, t)
    | none => (.ok (), closeFrames sink t tail)
  | chunk :: chunks, forwarded, tail, t =>
    -- Past the cap the stream is closed as if the node had ended it.
    if forwarded + chunk.byteLength > maxStreamBodyBytes then (.ok (), closeFrames sink t tail)
    else
      copyChunks broke chunks (forwarded + chunk.byteLength)
        (tailOf (tail ++ Utf8.units chunk.text.toList)) (t.write sink chunk.text)

def pumpStream (contentType : Option String) (body : Option Body) (nodeId : String)
    (t : TrackedSink S) : Except Thrown Unit × TrackedSink S :=
  match body with
  | none =>
    (.error (upstreamError "node returned a streaming response with no body" [("nodeId", nodeId)]), t)
  | some body =>
    let opened := t.start sink (contentType.getD "text/event-stream")
    let (outcome, pumped) := copyChunks sink body.broke body.chunks 0 [] opened
    (outcome, pumped.finish sink)

structure RouteInput where
  requestId : String
  model : String
  streaming : Bool
  nodeRequestTimeoutMs : Int
  deriving DecidableEq, Repr

variable (input : RouteInput)

def responseOk (status : Nat) : Bool := 200 ≤ status && status ≤ 299

def performCall (call : NodeCall) (t : TrackedSink S) : Except Thrown (Option Json) × TrackedSink S :=
  match call.unroutable, call.upstream with
  | some error, _ => (.error error, t)
  | none, .refused reason timedOut =>
    (.error (upstreamError
      (if timedOut then "node did not respond before the deadline" else "node request failed")
      [("nodeId", call.nodeId), ("timeoutMs", toString input.nodeRequestTimeoutMs),
        ("reason", reason)]), t)
  | none, .answered status contentType body =>
    if responseOk status then
      if input.streaming then
        let (outcome, t) := pumpStream sink contentType body call.nodeId t
        (outcome.map fun _ => none, t)
      else ((readJson parseJson body call.nodeId).map some, t)
    else
      (.error (upstreamError ("node returned HTTP " ++ toString status)
        [("nodeId", call.nodeId), ("status", toString status),
          ("detail", readErrorSnippet body)]), t)

/-- An error of `recordOutcome` on the success path is caught and recorded as a failure in turn, and
one of `endRequest` replaces whatever the call came to. -/
def accounted (call : NodeCall) {α : Type} (outcome : Except Thrown α) : Except Thrown α :=
  let recorded :=
    match outcome, call.successFails with
    | .ok result, none => .ok result
    | .ok _, some error => .error (call.failureFails.getD error)
    | .error error, _ => .error (call.failureFails.getD error)
  match call.endFails with
  | some error => .error error
  | none => recorded

def callNode (call : NodeCall) (t : TrackedSink S) : Except Thrown (Option Json) × TrackedSink S :=
  match call.beginFails with
  | some error => (.error error, t)
  | none =>
    let (outcome, t) := performCall sink parseJson input call t
    (accounted call outcome, t)

structure RouteResult (Json : Type) where
  nodeId : String
  body : Option Json
  latencyMs : Int
  attempts : Nat
  deriving DecidableEq, Repr

def routeFailure (tried : List String) (lastError : Option Thrown) : Thrown :=
  match lastError with
  | some (.mesh ⟨.noCapacity, message, details⟩) => .mesh ⟨.noCapacity, message, details⟩
  | _ =>
    upstreamError "every candidate node failed to serve the request"
      [("requestId", input.requestId), ("triedNodeIds", String.intercalate "," tried),
        ("reason", ((lastError.map describe).getD "undefined"))]

-- The selector's answer to a model and the nodes to leave out.
variable (select : String → List String → Except Thrown NodeCall)
variable (onNodeSelected : S → NodeCall → S)

def routeLoop : Nat → Nat → List String → Option Thrown → TrackedSink S →
    Except Thrown (RouteResult Json) × TrackedSink S
  | 0, _, tried, lastError, t => (.error (routeFailure input tried lastError), t)
  | left + 1, attempt, tried, lastError, t =>
    match select input.model tried with
    | .error error =>
      if attempt > 1 ∧ lastError.isSome then (.error (routeFailure input tried lastError), t)
      else (.error error, t)
    | .ok call =>
      let t := { t with inner := onNodeSelected t.inner call }
      match callNode sink parseJson input call t with
      | (.ok body, t) => (.ok ⟨call.nodeId, body, call.latencyMs, attempt⟩, t)
      | (.error error, t) =>
        if t.started then (.error (routeFailure input (tried ++ [call.nodeId]) (some error)), t)
        else routeLoop left (attempt + 1) (tried ++ [call.nodeId]) (some error) t

def route (s : S) : Except Thrown (RouteResult Json) × S :=
  let (outcome, t) := routeLoop sink parseJson input select onNodeSelected 2 1 [] none ⟨false, false, s⟩
  (outcome, t.inner)

def endsWell (body : Body) : Bool :=
  body.broke.isNone || decide (maxStreamBodyBytes < (body.chunks.map (·.byteLength)).sum)

-- The call gets as far as opening the stream towards the client.
def opens (call : NodeCall) : Bool :=
  call.beginFails.isNone && call.unroutable.isNone &&
    match call.upstream with
    | .answered status _ (some _) => responseOk status
    | _ => false

def delivers (call : NodeCall) : Bool :=
  call.successFails.isNone && call.endFails.isNone &&
    match call.upstream with
    | .answered _ _ (some body) => endsWell body
    | _ => false

-- The first call, among those the router makes, that opens the stream.
def openedCall (model : String) : Nat → List String → Option NodeCall
  | 0, _ => none
  | left + 1, tried =>
    match select model tried with
    | .error _ => none
    | .ok call => if opens call then some call else openedCall model left (tried ++ [call.nodeId])

structure Phases (Fresh Open Closed : S → Prop) : Prop where
  selected : ∀ s call, Fresh s → Fresh (onNodeSelected s call)
  start : ∀ s contentType, Fresh s → Open (sink.start s contentType)
  write : ∀ s chunk, Open s → Open (sink.write s chunk)
  finish : ∀ s, Open s → Closed (sink.finish s)

section phases

variable {sink onNodeSelected} {Fresh Open Closed : S → Prop}
variable (phases : Phases sink onNodeSelected Fresh Open Closed)

include phases

theorem copyChunks_open (broke : Option Thrown) (chunks : List Chunk) (forwarded : Nat)
    (tail : List Nat) (t : TrackedSink S) (running : Open t.inner) :
    Open (copyChunks sink broke chunks forwarded tail t).2.inner ∧
      (copyChunks sink broke chunks forwarded tail t).2.started = t.started ∧
      (copyChunks sink broke chunks forwarded tail t).2.ended = t.ended := by
  have closing (tail : List Nat) (t : TrackedSink S) (running : Open t.inner) :
      Open (closeFrames sink t tail).inner ∧ (closeFrames sink t tail).started = t.started ∧
        (closeFrames sink t tail).ended = t.ended := by
    unfold closeFrames
    split
    · exact ⟨running, rfl, rfl⟩
    · exact ⟨phases.write _ _ running, rfl, rfl⟩
  induction chunks generalizing forwarded tail t with
  | nil =>
    cases broke with
    | none => exact closing tail t running
    | some error => exact ⟨running, rfl, rfl⟩
  | cons chunk chunks ih =>
    simp only [copyChunks]
    split
    · exact closing tail t running
    · exact ih _ _ _ (phases.write _ _ running)

theorem pumpStream_closed (contentType : Option String) (body : Body) (nodeId : String)
    (t : TrackedSink S) (fresh : Fresh t.inner) (idle : t.started = false)
    (unended : t.ended = false) :
    Closed (pumpStream sink contentType (some body) nodeId t).2.inner ∧
      (pumpStream sink contentType (some body) nodeId t).2.started = true := by
  have opened := phases.start t.inner (contentType.getD "text/event-stream") fresh
  have copied := copyChunks_open phases body.broke body.chunks 0 []
    (t.start sink (contentType.getD "text/event-stream"))
    (by simpa [TrackedSink.start, idle] using opened)
  obtain ⟨running, started, ended⟩ := copied
  have live : (t.start sink (contentType.getD "text/event-stream")).started = true ∧
      (t.start sink (contentType.getD "text/event-stream")).ended = false := by
    simp [TrackedSink.start, idle, unended]
  simp only [pumpStream, TrackedSink.finish, ended, live.2, Bool.false_eq_true, if_false]
  exact ⟨phases.finish _ running, started.trans live.1⟩

end phases

theorem copyChunks_ok (broke : Option Thrown) (chunks : List Chunk) (forwarded : Nat)
    (tail : List Nat) (t : TrackedSink S) (within : forwarded ≤ maxStreamBodyBytes) :
    (copyChunks sink broke chunks forwarded tail t).1.isOk =
      (broke.isNone ||
        decide (maxStreamBodyBytes < forwarded + (chunks.map (·.byteLength)).sum)) := by
  induction chunks generalizing forwarded tail t with
  | nil =>
    have short : ¬ maxStreamBodyBytes < forwarded := by omega
    cases broke <;> simp [copyChunks, short, Except.isOk, Except.toBool]
  | cons chunk chunks ih =>
    simp only [copyChunks, List.map_cons, List.sum_cons]
    split
    next passes =>
      have passed : maxStreamBodyBytes <
          forwarded + (chunk.byteLength + (chunks.map (·.byteLength)).sum) := by omega
      simp [passed, Except.isOk, Except.toBool]
    next under =>
      rw [ih _ _ _ (by omega), Nat.add_assoc]

theorem accounted_isOk (call : NodeCall) {α : Type} (outcome : Except Thrown α) :
    (accounted call outcome).isOk =
      (outcome.isOk && (call.successFails.isNone && call.endFails.isNone)) := by
  unfold accounted
  cases call.endFails <;> cases outcome <;> cases call.successFails <;> rfl

-- A call that does not open the stream fails with the response as it was.
theorem callNode_unopened (streaming : input.streaming = true) (call : NodeCall)
    (t : TrackedSink S) (shut : opens call = false) :
    (callNode sink parseJson input call t).1.isOk = false ∧
      (callNode sink parseJson input call t).2 = t := by
  unfold callNode
  cases begins : call.beginFails with
  | some error => exact ⟨rfl, rfl⟩
  | none =>
    have failed : (performCall sink parseJson input call t).1.isOk = false ∧
        (performCall sink parseJson input call t).2 = t := by
      unfold performCall
      cases routable : call.unroutable with
      | some error => exact ⟨rfl, rfl⟩
      | none =>
        cases answer : call.upstream with
        | refused reason timedOut => exact ⟨rfl, rfl⟩
        | answered status contentType body =>
          by_cases good : responseOk status = true
          · cases body with
            | none => simp [good, streaming, pumpStream, Except.isOk, Except.toBool, Except.map]
            | some body => simp [opens, begins, routable, answer, good] at shut
          · simp [good, Except.isOk, Except.toBool]
    simp only [accounted_isOk, failed, Bool.false_and, and_self]

theorem callNode_opened {Fresh Open Closed : S → Prop} {onNodeSelected : S → NodeCall → S}
    (phases : Phases sink onNodeSelected Fresh Open Closed) (streaming : input.streaming = true)
    (call : NodeCall) (t : TrackedSink S) (fresh : Fresh t.inner) (idle : t.started = false)
    (unended : t.ended = false) (opening : opens call = true) :
    (callNode sink parseJson input call t).1.isOk = delivers call ∧
      Closed (callNode sink parseJson input call t).2.inner ∧
      (callNode sink parseJson input call t).2.started = true := by
  simp only [opens, Bool.and_eq_true, Option.isNone_iff_eq_none] at opening
  obtain ⟨⟨begins, routable⟩, answers⟩ := opening
  match answer : call.upstream, answers with
  | .answered status contentType (some body), good =>
    have pumped := pumpStream_closed phases contentType body call.nodeId t fresh idle unended
    have outcome : (pumpStream sink contentType (some body) call.nodeId t).1.isOk =
        endsWell body := by
      have copied := copyChunks_ok sink body.broke body.chunks 0 []
        (t.start sink (contentType.getD "text/event-stream")) (Nat.zero_le _)
      rw [Nat.zero_add] at copied
      exact copied
    have mapped (e : Except Thrown Unit) :
        (e.map fun _ => (none : Option Json)).isOk = e.isOk := by
      cases e <;> rfl
    simp only [callNode, begins, performCall, routable, answer, good, streaming, if_true,
      accounted_isOk, mapped, outcome, delivers]
    exact ⟨Bool.and_comm _ _, pumped⟩

section route

variable {Fresh Open Closed : S → Prop}

-- Without a stream nobody touches the sink.
theorem callNode_buffered (plain : input.streaming = false) (call : NodeCall)
    (t : TrackedSink S) : (callNode sink parseJson input call t).2 = t := by
  unfold callNode
  cases call.beginFails with
  | some error => rfl
  | none =>
    unfold performCall
    cases call.unroutable with
    | some error => rfl
    | none =>
      cases call.upstream with
      | refused reason timedOut => rfl
      | answered status contentType body =>
        by_cases good : responseOk status = true <;> simp [good, plain]

theorem routeLoop_buffered (phases : Phases sink onNodeSelected Fresh Open Closed)
    (plain : input.streaming = false) (left attempt : Nat) (tried : List String)
    (lastError : Option Thrown) (t : TrackedSink S) (fresh : Fresh t.inner)
    (idle : t.started = false) :
    Fresh (routeLoop sink parseJson input select onNodeSelected left attempt tried lastError
      t).2.inner := by
  induction left generalizing attempt tried lastError t with
  | zero => exact fresh
  | succ left ih =>
    simp only [routeLoop]
    cases select input.model tried with
    | error error =>
      dsimp only
      split <;> exact fresh
    | ok call =>
      have selected := phases.selected t.inner call fresh
      have kept := callNode_buffered sink parseJson input plain call
        { t with inner := onNodeSelected t.inner call }
      dsimp only
      generalize callNode sink parseJson input call _ = answer at kept
      obtain ⟨outcome, after⟩ := answer
      simp only at kept
      subst kept
      cases outcome with
      | ok body => exact selected
      | error error =>
        simp only [idle, Bool.false_eq_true, if_false]
        exact ih _ _ _ _ selected rfl

-- A stream that was opened is ended when `route` is done, whatever became of it.
theorem routeLoop_streaming (phases : Phases sink onNodeSelected Fresh Open Closed)
    (streaming : input.streaming = true) (left attempt : Nat) (tried : List String)
    (lastError : Option Thrown) (t : TrackedSink S) (fresh : Fresh t.inner)
    (idle : t.started = false) (unended : t.ended = false) :
    let outcome := routeLoop sink parseJson input select onNodeSelected left attempt tried
      lastError t
    match openedCall select input.model left tried with
    | none => outcome.1.isOk = false ∧ Fresh outcome.2.inner
    | some call => outcome.1.isOk = delivers call ∧ Closed outcome.2.inner := by
  induction left generalizing attempt tried lastError t with
  | zero => exact ⟨rfl, fresh⟩
  | succ left ih =>
    simp only [routeLoop, openedCall]
    cases select input.model tried with
    | error error =>
      dsimp only
      split <;> exact ⟨rfl, fresh⟩
    | ok call =>
      have selected := phases.selected t.inner call fresh
      by_cases opening : opens call = true
      · have opened := callNode_opened sink parseJson input phases streaming call
          { t with inner := onNodeSelected t.inner call } selected idle unended opening
        simp only [opening, if_true]
        generalize callNode sink parseJson input call _ = answer at opened
        obtain ⟨outcome, after⟩ := answer
        obtain ⟨delivered, closed, started⟩ := opened
        cases outcome with
        | ok body => exact ⟨delivered, closed⟩
        | error error =>
          simp only at started
          simp only [started, if_true]
          exact ⟨delivered, closed⟩
      · have shut : opens call = false := Bool.eq_false_iff.mpr opening
        have unopened := callNode_unopened sink parseJson input streaming call
          { t with inner := onNodeSelected t.inner call } shut
        simp only [shut, Bool.false_eq_true, if_false]
        generalize callNode sink parseJson input call _ = answer at unopened
        obtain ⟨outcome, after⟩ := answer
        obtain ⟨failed, kept⟩ := unopened
        cases outcome with
        | ok body => exact absurd failed (by simp [Except.isOk, Except.toBool])
        | error error =>
          simp only at kept
          subst kept
          simp only [idle, Bool.false_eq_true, if_false]
          exact ih _ _ _ _ selected rfl unended

theorem route_buffered (phases : Phases sink onNodeSelected Fresh Open Closed)
    (plain : input.streaming = false) (s : S) (fresh : Fresh s) :
    Fresh (route sink parseJson input select onNodeSelected s).2 :=
  routeLoop_buffered sink parseJson input select onNodeSelected phases plain 2 1 [] none
    ⟨false, false, s⟩ fresh rfl

theorem route_unopened (phases : Phases sink onNodeSelected Fresh Open Closed)
    (streaming : input.streaming = true) (s : S) (fresh : Fresh s)
    (shut : openedCall select input.model 2 [] = none) :
    Fresh (route sink parseJson input select onNodeSelected s).2 := by
  have run := routeLoop_streaming sink parseJson input select onNodeSelected phases streaming 2 1 []
    none ⟨false, false, s⟩ fresh rfl rfl
  rw [shut] at run
  exact run.2

theorem route_opened (phases : Phases sink onNodeSelected Fresh Open Closed)
    (streaming : input.streaming = true) (s : S) (fresh : Fresh s) (call : NodeCall)
    (opened : openedCall select input.model 2 [] = some call) :
    (route sink parseJson input select onNodeSelected s).1.isOk = delivers call ∧
      Closed (route sink parseJson input select onNodeSelected s).2 := by
  have run := routeLoop_streaming sink parseJson input select onNodeSelected phases streaming 2 1 []
    none ⟨false, false, s⟩ fresh rfl rfl
  rw [opened] at run
  exact run

end route

end Router

end X402Mesh.Gateway
