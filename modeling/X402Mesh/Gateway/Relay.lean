import Mathlib.Data.List.Nodup
import X402Mesh.Gateway.Router

set_option autoImplicit false

-- The client may go away at any time. The router looks at its signal twice in an attempt, and what
-- an abort does to a request on its way is among the answers of a node.

namespace X402Mesh.Gateway

inductive RelayEvent
  | selected (call : NodeCall)
  | began (nodeId : String)
  | opened (contentType : String)
  | wrote (chunk : String)
  | closed
  | recorded (nodeId : String) (success : Bool)
  | ended (nodeId : String)
  deriving DecidableEq, Repr

namespace Relay

open Router

abbrev Trace := List RelayEvent

def traced : StreamSink Trace where
  start trace contentType := trace ++ [.opened contentType]
  write trace chunk := trace ++ [.wrote chunk]
  finish trace := trace ++ [.closed]

def note (t : TrackedSink Trace) (events : Trace) : TrackedSink Trace :=
  { t with inner := t.inner ++ events }

variable {Json : Type} (parseJson : String → Option Json) (input : RouteInput)

-- `gone n`: the client is gone at the `n`th look, of which each attempt takes two.
variable (gone : Nat → Bool)

def performCall (attempt : Nat) (call : NodeCall) (t : TrackedSink Trace) :
    Except Thrown (Option Json) × TrackedSink Trace :=
  if gone (2 * attempt) then
    (.error (upstreamError "client disconnected before the request was forwarded"
      [("nodeId", call.nodeId)]), t)
  else Router.performCall traced parseJson input call t

-- The calls of the stores that complete, after the one to the node.
def accounting (call : NodeCall) {α : Type} (outcome : Except Thrown α) : Trace :=
  let failed : Trace := if call.failureFails.isNone then [.recorded call.nodeId false] else []
  let noted : Trace :=
    match outcome, call.successFails with
    | .ok _, none => [.recorded call.nodeId true]
    | _, _ => failed
  noted ++ if call.endFails.isNone then [.ended call.nodeId] else []

def callNode (attempt : Nat) (call : NodeCall) (t : TrackedSink Trace) :
    Except Thrown (Option Json) × TrackedSink Trace :=
  match call.beginFails with
  | some error => (.error error, t)
  | none =>
    let (outcome, t) := performCall parseJson input gone attempt call (note t [.began call.nodeId])
    (accounted call outcome, note t (accounting call outcome))

variable (select : String → List String → Except Thrown NodeCall)

def routeLoop : Nat → Nat → List String → Option Thrown → TrackedSink Trace →
    Except Thrown (RouteResult Json) × TrackedSink Trace
  | 0, _, tried, lastError, t => (.error (routeFailure input tried lastError), t)
  | left + 1, attempt, tried, lastError, t =>
    match select input.model tried with
    | .error error =>
      if attempt > 1 ∧ lastError.isSome then (.error (routeFailure input tried lastError), t)
      else (.error error, t)
    | .ok call =>
      match callNode parseJson input gone attempt call (note t [.selected call]) with
      | (.ok body, t) => (.ok ⟨call.nodeId, body, call.latencyMs, attempt⟩, t)
      | (.error error, t) =>
        if gone (2 * attempt + 1) || t.started then
          (.error (routeFailure input (tried ++ [call.nodeId]) (some error)), t)
        else routeLoop left (attempt + 1) (tried ++ [call.nodeId]) (some error) t

def route : Except Thrown (RouteResult Json) × Trace :=
  let (outcome, t) := routeLoop parseJson input gone select 2 1 [] none ⟨false, false, []⟩
  (outcome, t.inner)

structure Renames {S S' : Type} (sink : StreamSink S) (sink' : StreamSink S') (name : S → S') :
    Prop where
  start : ∀ s contentType, name (sink.start s contentType) = sink'.start (name s) contentType
  write : ∀ s chunk, name (sink.write s chunk) = sink'.write (name s) chunk
  finish : ∀ s, name (sink.finish s) = sink'.finish (name s)

def renamed {S S' : Type} (name : S → S') (t : TrackedSink S) : TrackedSink S' :=
  ⟨t.started, t.ended, name t.inner⟩

section renames

variable {S S' : Type} {sink : StreamSink S} {sink' : StreamSink S'} {name : S → S'}
variable (renames : Renames sink sink' name)

include renames

theorem copyChunks_renamed (broke : Option Thrown) (chunks : List Chunk) (forwarded : Nat)
    (tail : List Nat) (t : TrackedSink S) :
    copyChunks sink' broke chunks forwarded tail (renamed name t) =
      ((copyChunks sink broke chunks forwarded tail t).1,
        renamed name (copyChunks sink broke chunks forwarded tail t).2) := by
  have written (t : TrackedSink S) (chunk : String) :
      (renamed name t).write sink' chunk = renamed name (t.write sink chunk) := by
    simp [renamed, TrackedSink.write, renames.write]
  have closed (tail : List Nat) (t : TrackedSink S) :
      closeFrames sink' (renamed name t) tail = renamed name (closeFrames sink t tail) := by
    unfold closeFrames
    split
    · rfl
    · exact written t doneFrame
  induction chunks generalizing forwarded tail t with
  | nil =>
    cases broke with
    | some error => rfl
    | none => simp only [copyChunks, closed]
  | cons chunk chunks ih =>
    simp only [copyChunks]
    split
    · rw [closed]
    · rw [written, ih]

theorem pumpStream_renamed (contentType : Option String) (body : Option Body) (nodeId : String)
    (t : TrackedSink S) :
    pumpStream sink' contentType body nodeId (renamed name t) =
      ((pumpStream sink contentType body nodeId t).1,
        renamed name (pumpStream sink contentType body nodeId t).2) := by
  have started (t : TrackedSink S) (contentType : String) :
      (renamed name t).start sink' contentType = renamed name (t.start sink contentType) := by
    unfold TrackedSink.start
    by_cases before : t.started = true <;> simp [renamed, before, renames.start]
  have finished (t : TrackedSink S) :
      (renamed name t).finish sink' = renamed name (t.finish sink) := by
    unfold TrackedSink.finish
    by_cases before : t.ended = true <;> simp [renamed, before, renames.finish]
  cases body with
  | none => rfl
  | some body =>
    simp only [pumpStream]
    rw [started, copyChunks_renamed renames]
    simp only [finished]

theorem performCall_renamed (call : NodeCall) (t : TrackedSink S) :
    Router.performCall sink' parseJson input call (renamed name t) =
      ((Router.performCall sink parseJson input call t).1,
        renamed name (Router.performCall sink parseJson input call t).2) := by
  unfold Router.performCall
  cases call.unroutable with
  | some error => rfl
  | none =>
    cases call.upstream with
    | refused reason timedOut => rfl
    | answered status contentType body =>
      by_cases good : responseOk status = true
      · by_cases streaming : input.streaming = true
        · simp only [good, streaming, if_true, pumpStream_renamed renames]
        · simp only [good, streaming, if_true, Bool.false_eq_true, if_false]
      · simp only [good, Bool.false_eq_true, if_false]

end renames

-- The trace without the calls of the stores.
def unaccounted (trace : Trace) : Trace :=
  trace.filter fun
    | .began _ => false
    | .recorded .. => false
    | .ended _ => false
    | _ => true

theorem unaccounted_renames : Renames traced traced unaccounted where
  start := by simp [traced, unaccounted]
  write := by simp [traced, unaccounted]
  finish := by simp [traced, unaccounted]

theorem unaccounted_accounting (call : NodeCall) {α : Type} (outcome : Except Thrown α) :
    unaccounted (accounting call outcome) = [] := by
  unfold accounting
  cases outcome <;> cases call.successFails <;> cases call.failureFails <;>
    cases call.endFails <;> rfl

theorem callNode_stays (stays : ∀ n, gone n = false) (attempt : Nat) (call : NodeCall)
    (t : TrackedSink Trace) :
    Router.callNode traced parseJson input call (renamed unaccounted t) =
      ((callNode parseJson input gone attempt call t).1,
        renamed unaccounted (callNode parseJson input gone attempt call t).2) := by
  have noted (t : TrackedSink Trace) (events : Trace) (stores : unaccounted events = []) :
      renamed unaccounted (note t events) = renamed unaccounted t := by
    have appended : unaccounted (t.inner ++ events) = unaccounted t.inner := by
      rw [unaccounted, List.filter_append]
      exact (congrArg (unaccounted t.inner ++ ·) stores).trans (List.append_nil _)
    simp [renamed, note, appended]
  unfold Router.callNode callNode
  cases call.beginFails with
  | some error => rfl
  | none =>
    simp only [performCall, stays, Bool.false_eq_true, if_false]
    rw [← noted t [.began call.nodeId] rfl, performCall_renamed parseJson input unaccounted_renames]
    simp only [noted _ _ (unaccounted_accounting call _)]

theorem routeLoop_stays (stays : ∀ n, gone n = false) (left attempt : Nat) (tried : List String)
    (lastError : Option Thrown) (t : TrackedSink Trace) :
    Router.routeLoop traced parseJson input select (fun trace call => trace ++ [.selected call])
        left attempt tried lastError (renamed unaccounted t) =
      ((routeLoop parseJson input gone select left attempt tried lastError t).1,
        renamed unaccounted
          (routeLoop parseJson input gone select left attempt tried lastError t).2) := by
  induction left generalizing attempt tried lastError t with
  | zero => rfl
  | succ left ih =>
    simp only [Router.routeLoop, routeLoop]
    cases select input.model tried with
    | error error =>
      dsimp only
      split <;> rfl
    | ok call =>
      have selected : ({ renamed unaccounted t with
          inner := (renamed unaccounted t).inner ++ [.selected call] } : TrackedSink Trace) =
            renamed unaccounted (note t [.selected call]) := by
        simp [renamed, note, unaccounted]
      dsimp only
      rw [selected, callNode_stays parseJson input gone stays attempt]
      generalize callNode parseJson input gone attempt call (note t [.selected call]) = answer
      obtain ⟨outcome, after⟩ := answer
      cases outcome with
      | ok body => rfl
      | error error =>
        have same : (renamed unaccounted after).started = after.started := rfl
        simp only [stays, Bool.false_or, same]
        cases after.started with
        | true => rfl
        | false => exact ih _ _ _ _

-- With a client that stays, the trace is the router's with the calls of the stores put in.
theorem route_stays (stays : ∀ n, gone n = false) :
    Router.route traced parseJson input select (fun trace call => trace ++ [.selected call]) [] =
      ((route parseJson input gone select).1, unaccounted (route parseJson input gone select).2) := by
  have run := routeLoop_stays parseJson input gone select stays 2 1 [] none ⟨false, false, []⟩
  simp only [Router.route, route]
  rw [show (⟨false, false, []⟩ : TrackedSink Trace) = renamed unaccounted ⟨false, false, []⟩
    from rfl, run]
  rfl

def storesWork (call : NodeCall) : Bool :=
  call.beginFails.isNone && call.successFails.isNone && call.failureFails.isNone &&
    call.endFails.isNone

/-- Of the chunks of a body, `sent` is all that stays within the cap, and `rest` is not read. -/
structure UpToCap (chunks sent rest : List Chunk) : Prop where
  whole : chunks = sent ++ rest
  within : (sent.map (·.byteLength)).sum ≤ maxStreamBodyBytes
  beyond : ∀ next ∈ rest.head?,
    maxStreamBodyBytes < (sent.map (·.byteLength)).sum + next.byteLength

def unitsOf (chunks : List Chunk) : List Nat :=
  chunks.flatMap fun chunk => Utf8.units chunk.text.toList

-- The frame that closes a stream which does not show one at its end.
def closing (sent : List Chunk) : List String :=
  if doneMark <:+: tailOf (unitsOf sent) then [] else [doneFrame]

/-- What is written of a body: every chunk up to the cap and, unless the stream breaks off before
it, the frame that closes it. -/
def Relayed (body : Body) (ended : Bool) (chunks : List String) : Prop :=
  ∃ sent rest, UpToCap body.chunks sent rest ∧
    (ended = true ↔ (rest = [] → body.broke = none)) ∧
    chunks = sent.map (·.text) ++ if ended then closing sent else []

/-- What the sink has from one call: nothing, or the body of its answer. -/
inductive Pumped (call : NodeCall) : Bool → Trace → Prop
  | nothing : Pumped call false []
  | streamed {status : Nat} {contentType : Option String} {body : Body} {ended : Bool}
      {chunks : List String}
      (answered : call.upstream = .answered status contentType (some body))
      (good : responseOk status = true) (relayed : Relayed body ended chunks) :
      Pumped call ended
        (.opened (contentType.getD "text/event-stream") ::
          (chunks.map RelayEvent.wrote ++ [.closed]))

theorem closeFrames_trace (sent : List Chunk) (t : TrackedSink Trace) :
    closeFrames traced t (tailOf (unitsOf sent)) = note t ((closing sent).map RelayEvent.wrote) := by
  unfold closeFrames closing
  split
  · simp [note]
  · rfl

-- `past` is what has been written so far; the tail is that of all its text.
theorem copyChunks_trace (broke : Option Thrown) (chunks past : List Chunk)
    (within : (past.map (·.byteLength)).sum ≤ maxStreamBodyBytes) (t : TrackedSink Trace) :
    ∃ sent rest, chunks = sent ++ rest ∧
      ((past ++ sent).map (·.byteLength)).sum ≤ maxStreamBodyBytes ∧
      (∀ next ∈ rest.head?,
        maxStreamBodyBytes < ((past ++ sent).map (·.byteLength)).sum + next.byteLength) ∧
      ((copyChunks traced broke chunks (past.map (·.byteLength)).sum (tailOf (unitsOf past)) t).1.isOk =
        true ↔ (rest = [] → broke = none)) ∧
      (copyChunks traced broke chunks (past.map (·.byteLength)).sum (tailOf (unitsOf past)) t).2 =
        note t ((sent.map (·.text) ++
          if (copyChunks traced broke chunks (past.map (·.byteLength)).sum (tailOf (unitsOf past))
            t).1.isOk then closing (past ++ sent) else []).map RelayEvent.wrote) := by
  induction chunks generalizing past t with
  | nil =>
    refine ⟨[], [], rfl, by simpa using within, by simp, ?_⟩
    cases broke with
    | some error => simp [copyChunks, Except.isOk, Except.toBool, note]
    | none =>
      simp only [copyChunks, Except.isOk, Except.toBool, closeFrames_trace]
      simp
  | cons chunk chunks ih =>
    simp only [copyChunks]
    split
    next passes =>
      refine ⟨[], chunk :: chunks, rfl, by simpa using within, by simpa using passes, ?_⟩
      simp only [Except.isOk, Except.toBool, closeFrames_trace]
      simp
    next fits =>
      have bytes : (past.map (·.byteLength)).sum + chunk.byteLength =
          ((past ++ [chunk]).map (·.byteLength)).sum := by simp
      have tail : tailOf (tailOf (unitsOf past) ++ Utf8.units chunk.text.toList) =
          tailOf (unitsOf (past ++ [chunk])) := by
        rw [tailOf_append]
        simp [unitsOf]
      rw [bytes, tail]
      obtain ⟨sent, rest, whole, under, beyond, ok, same⟩ :=
        ih (past ++ [chunk]) (by omega) (t.write traced chunk.text)
      have joined : past ++ [chunk] ++ sent = past ++ (chunk :: sent) := by simp
      rw [joined] at under beyond same
      refine ⟨chunk :: sent, rest, by rw [whole]; rfl, under, beyond, ok, ?_⟩
      rw [same]
      simp [note, TrackedSink.write, traced]

theorem pumpStream_trace (contentType : Option String) (body : Body) (call : NodeCall)
    {status : Nat} (answered : call.upstream = .answered status contentType (some body))
    (good : responseOk status = true) (t : TrackedSink Trace) (idle : t.started = false)
    (unended : t.ended = false) :
    ∃ pump, Pumped call (pumpStream traced contentType (some body) call.nodeId t).1.isOk pump ∧
      pump ≠ [] ∧
      (pumpStream traced contentType (some body) call.nodeId t).2 = ⟨true, true, t.inner ++ pump⟩ := by
  obtain ⟨sent, rest, whole, within, beyond, ok, same⟩ := copyChunks_trace body.broke body.chunks []
    (Nat.zero_le _) (t.start traced (contentType.getD "text/event-stream"))
  have outcome : (pumpStream traced contentType (some body) call.nodeId t).1 =
      (copyChunks traced body.broke body.chunks 0 []
        (t.start traced (contentType.getD "text/event-stream"))).1 := rfl
  have after : (pumpStream traced contentType (some body) call.nodeId t).2 =
      (copyChunks traced body.broke body.chunks 0 []
        (t.start traced (contentType.getD "text/event-stream"))).2.finish traced := rfl
  change (copyChunks traced body.broke body.chunks 0 [] _).2 = _ at same
  rw [List.nil_append] at within beyond same
  rw [outcome, after, same]
  refine ⟨_, .streamed answered good ⟨sent, rest, ⟨whole, within, beyond⟩, ok, rfl⟩,
    List.cons_ne_nil _ _, ?_⟩
  simp [TrackedSink.start, TrackedSink.finish, idle, unended, note, traced, unitsOf, tailOf]

-- What a call that resolves has delivered: its own stream, or its own body.
def Delivered (call : NodeCall) (pump : Trace) (body : Option Json) : Prop :=
  if input.streaming then Pumped call true pump ∧ body = none
  else
    pump = [] ∧ ∃ status contentType content json,
      call.upstream = .answered status contentType content ∧ responseOk status = true ∧
        readJson parseJson content call.nodeId = .ok json ∧ body = some json

-- An idle sink is left alone, or opened and ended.
def Left (t after : TrackedSink Trace) (pump : Trace) : Prop :=
  pump = [] ∧ after = t ∨ pump ≠ [] ∧ after = ⟨true, true, t.inner ++ pump⟩

theorem left_alone (t : TrackedSink Trace) : Left t t [] := .inl ⟨rfl, rfl⟩

theorem ok_of_map {α β : Type} {f : α → β} {outcome : Except Thrown α} {b : β}
    (resolved : outcome.map f = .ok b) : ∃ a, outcome = .ok a ∧ f a = b := by
  cases outcome with
  | error error => cases resolved
  | ok a =>
    cases resolved
    exact ⟨a, rfl, rfl⟩

theorem performCall_trace (attempt : Nat) (call : NodeCall) (t : TrackedSink Trace)
    (idle : t.started = false) (unended : t.ended = false) :
    ∃ ended pump, Pumped call ended pump ∧
      Left t (performCall parseJson input gone attempt call t).2 pump ∧
      ∀ body, (performCall parseJson input gone attempt call t).1 = .ok body →
        Delivered parseJson input call pump body := by
  -- A call that sends nothing leaves the sink alone.
  have silent (outcome : Except Thrown (Option Json))
      (delivers : ∀ body, outcome = .ok body → Delivered parseJson input call [] body) :
      ∃ ended pump, Pumped call ended pump ∧ Left t t pump ∧
        ∀ body, outcome = .ok body → Delivered parseJson input call pump body :=
    ⟨false, [], .nothing, left_alone t, delivers⟩
  unfold performCall
  by_cases early : gone (2 * attempt) = true
  · rw [if_pos early]
    exact silent _ nofun
  · rw [if_neg early]
    unfold Router.performCall
    cases call.unroutable with
    | some error => exact silent _ nofun
    | none =>
      cases answered : call.upstream with
      | refused reason timedOut => exact silent _ nofun
      | answered status contentType content =>
        by_cases good : responseOk status = true
        · simp only [good, if_true]
          cases streaming : input.streaming with
          | true =>
            cases content with
            | none => exact silent _ nofun
            | some content =>
              obtain ⟨pump, pumped, some_sent, same⟩ :=
                pumpStream_trace contentType content call answered good t idle unended
              refine ⟨_, pump, pumped, .inr ⟨some_sent, same⟩, ?_⟩
              intro body resolved
              obtain ⟨_, ran, rfl⟩ := ok_of_map resolved
              rw [ran] at pumped
              exact (if_pos streaming).mpr ⟨pumped, rfl⟩
          | false =>
            apply silent
            intro body resolved
            obtain ⟨json, read, rfl⟩ := ok_of_map resolved
            simp only [Delivered, streaming, Bool.false_eq_true, if_false]
            exact ⟨trivial, status, contentType, content, json, answered, good, read, rfl⟩
        · simp only [good, Bool.false_eq_true, if_false]
          exact silent _ nofun

structure Attempt where
  call : NodeCall
  ended : Bool
  pump : Trace
  success : Bool
  pumped : Pumped call ended pump

namespace Attempt

def nodeId (a : Attempt) : String := a.call.nodeId

def trace (a : Attempt) : Trace :=
  .selected a.call :: .began a.nodeId :: (a.pump ++ [.recorded a.nodeId a.success, .ended a.nodeId])

end Attempt

theorem accounted_works {call : NodeCall} (works : storesWork call = true) {α : Type}
    (outcome : Except Thrown α) :
    accounted call outcome = outcome ∧
      accounting call outcome = [.recorded call.nodeId outcome.isOk, .ended call.nodeId] := by
  simp only [storesWork, Bool.and_eq_true, Option.isNone_iff_eq_none] at works
  obtain ⟨⟨⟨-, successes⟩, failures⟩, ends⟩ := works
  cases outcome <;>
    simp [accounted, accounting, successes, failures, ends, Except.isOk, Except.toBool]

theorem callNode_attempt (attempt : Nat) (call : NodeCall) (works : storesWork call = true)
    (t : TrackedSink Trace) (idle : t.started = false) (unended : t.ended = false) :
    ∃ a : Attempt, a.call = call ∧
      (a.pump = [] ∧
          (callNode parseJson input gone attempt call (note t [.selected call])).2 = note t a.trace ∨
        a.pump ≠ [] ∧
          (callNode parseJson input gone attempt call (note t [.selected call])).2 =
            ⟨true, true, t.inner ++ a.trace⟩) ∧
      ∀ body, (callNode parseJson input gone attempt call (note t [.selected call])).1 = .ok body →
        Delivered parseJson input call a.pump body := by
  obtain ⟨ended, pump, pumped, left, delivers⟩ := performCall_trace parseJson input gone attempt call
    (note (note t [.selected call]) [.began call.nodeId]) idle unended
  have begins : call.beginFails = none := by
    simp only [storesWork, Bool.and_eq_true, Option.isNone_iff_eq_none] at works
    exact works.1.1.1
  unfold callNode
  simp only [begins]
  generalize performCall parseJson input gone attempt call _ = answer at left delivers
  obtain ⟨outcome, after⟩ := answer
  obtain ⟨same, noted⟩ := accounted_works works outcome
  refine ⟨⟨call, ended, pump, outcome.isOk, pumped⟩, rfl, ?_, ?_⟩
  next =>
    simp only [noted]
    rcases left with ⟨nothing, kept⟩ | ⟨something, kept⟩
    · refine .inl ⟨nothing, ?_⟩
      simp only at kept
      simp [kept, nothing, note, Attempt.trace, Attempt.nodeId]
    · refine .inr ⟨something, ?_⟩
      simp only at kept
      simp [kept, note, Attempt.trace, Attempt.nodeId]
  next =>
    simp only [same]
    exact delivers

theorem routeLoop_attempts
    (honours : ∀ tried call, select input.model tried = .ok call → call.nodeId ∉ tried)
    (works : ∀ tried call, select input.model tried = .ok call → storesWork call = true)
    (left attempt : Nat) (tried : List String) (lastError : Option Thrown) (t : TrackedSink Trace)
    (idle : t.started = false) (unended : t.ended = false) :
    ∃ attempts : List Attempt, attempts.length ≤ left ∧
      (routeLoop parseJson input gone select left attempt tried lastError t).2.inner =
        t.inner ++ attempts.flatMap Attempt.trace ∧
      (attempts.Pairwise fun a _ => a.pump = []) ∧
      (attempts.map (·.nodeId)).Nodup ∧ (∀ a ∈ attempts, a.nodeId ∉ tried) ∧
      ∀ result, (routeLoop parseJson input gone select left attempt tried lastError t).1 =
          .ok result →
        ∃ last, attempts.getLast? = some last ∧ result.nodeId = last.nodeId ∧
          Delivered parseJson input last.call last.pump result.body := by
  induction left generalizing attempt tried lastError t with
  | zero =>
    refine ⟨[], Nat.le_refl 0, by simp [routeLoop], by simp, by simp, by simp, ?_⟩
    intro result resolved
    cases resolved
  | succ left ih =>
    simp only [routeLoop]
    cases chosen : select input.model tried with
    | error error =>
      refine ⟨[], Nat.zero_le _, ?_, by simp, by simp, by simp, ?_⟩
      · dsimp only
        split <;> simp
      · intro result resolved
        dsimp only at resolved
        split at resolved <;> cases resolved
    | ok call =>
      obtain ⟨a, rfl, after, delivers⟩ := callNode_attempt parseJson input gone attempt call
        (works tried call chosen) t idle unended
      have fresh : a.nodeId ∉ tried := honours tried a.call chosen
      have inner : (callNode parseJson input gone attempt a.call
          (note t [.selected a.call])).2.inner = t.inner ++ a.trace := by
        rcases after with ⟨-, same⟩ | ⟨-, same⟩ <;> exact congrArg TrackedSink.inner same
      dsimp only
      generalize callNode parseJson input gone attempt a.call (note t [.selected a.call]) = answer
        at after delivers inner
      obtain ⟨outcome, t'⟩ := answer
      -- The route ends with this attempt, or goes on with the sink as it was.
      cases outcome with
      | ok body =>
        refine ⟨[a], by simp, by simpa using inner, by simp, by simp, by simpa using fresh, ?_⟩
        intro result resolved
        cases resolved
        exact ⟨a, rfl, rfl, delivers body rfl⟩
      | error error =>
        by_cases fatal : (gone (2 * attempt + 1) || t'.started) = true
        · simp only [fatal, if_true]
          refine ⟨[a], by simp, by simpa using inner, by simp, by simp, by simpa using fresh, ?_⟩
          intro result resolved
          cases resolved
        · simp only [if_neg fatal]
          have unstarted : t'.started = false := by
            simp only [Bool.or_eq_true, not_or, Bool.not_eq_true] at fatal
            exact fatal.2
          have nothing : a.pump = [] ∧ t' = note t a.trace := by
            rcases after with both | ⟨-, same⟩
            · exact both
            · simp only at same
              rw [same] at unstarted
              cases unstarted
          obtain ⟨unpumped, rfl⟩ := nothing
          obtain ⟨attempts, short, traces, early, distinct, others, ends⟩ :=
            ih (attempt + 1) (tried ++ [a.nodeId]) (some error) (note t a.trace) idle unended
          refine ⟨a :: attempts, by simpa using short, ?_, ?_, ?_, ?_, ?_⟩
          · change (routeLoop parseJson input gone select left (attempt + 1) (tried ++ [a.nodeId])
              (some error) (note t a.trace)).2.inner = _
            rw [traces]
            simp [note]
          · exact List.pairwise_cons.mpr ⟨fun _ _ => unpumped, early⟩
          · refine List.nodup_cons.mpr ⟨?_, distinct⟩
            rintro again
            obtain ⟨b, member, same⟩ := List.mem_map.mp again
            exact others b member (by simp [same])
          · rintro b member
            rcases List.mem_cons.mp member with rfl | later
            · exact fresh
            · exact fun within => others b later (List.mem_append_left _ within)
          · intro result resolved
            obtain ⟨last, found, same, delivered⟩ := ends result resolved
            refine ⟨last, ?_, same, delivered⟩
            rw [List.getLast?_cons, found]
            rfl

def nodes (trace : Trace) : List NodeCall :=
  trace.filterMap fun
    | .selected call => some call
    | _ => none

def written (trace : Trace) : List String :=
  trace.filterMap fun
    | .wrote chunk => some chunk
    | _ => none

def isOpened : RelayEvent → Bool
  | .opened _ => true
  | _ => false

def isClosed : RelayEvent → Bool
  | .closed => true
  | _ => false

def isSelected : RelayEvent → Bool
  | .selected _ => true
  | _ => false

def onSink : RelayEvent → Bool
  | .opened _ => true
  | .wrote _ => true
  | .closed => true
  | _ => false

def records (nodeId : String) : RelayEvent → Bool
  | .recorded of _ => of = nodeId
  | _ => false

-- All that was written is this node's body, and `ended` tells whether up to its end.
def WrittenFrom (call : NodeCall) (ended : Bool) (trace : Trace) : Prop :=
  ∃ (status : Nat) (contentType : Option String) (body : Body),
    call.upstream = .answered status contentType (some body) ∧ responseOk status = true ∧
      Relayed body ended (written trace)

structure Integrity (trace : Trace) : Prop where
  tries : (nodes trace).length ≤ 2
  distinct : ((nodes trace).map (·.nodeId)).Nodup
  one_source : written trace = [] ∨ ∃ call ∈ nodes trace, ∃ ended, WrittenFrom call ended trace
  opens_once : trace.countP isOpened ≤ 1
  closes_once : trace.countP isClosed ≤ 1
  closes_opened : ∀ before after, trace = before ++ .closed :: after → before.any isOpened = true
  committed : ∀ before after contentType, trace = before ++ .opened contentType :: after →
    after.any isSelected = false
  accounted : ∀ before after nodeId, trace = before ++ .began nodeId :: after →
    after.countP (records nodeId) = 1 ∧ after.count (.ended nodeId) = 1

-- The node a route returns is the last one selected, and all that was delivered is its own.
def Attributed (trace : Trace) (result : RouteResult Json) : Prop :=
  ∃ call, (nodes trace).getLast? = some call ∧ result.nodeId = call.nodeId ∧
    if input.streaming then
      WrittenFrom call true trace ∧ trace.any isOpened = true ∧ result.body = none
    else
      trace.any onSink = false ∧ ∃ status contentType content json,
        call.upstream = .answered status contentType content ∧ responseOk status = true ∧
          readJson parseJson content call.nodeId = .ok json ∧ result.body = some json

theorem pumped_onSink {call : NodeCall} {ended : Bool} {pump : Trace}
    (pumped : Pumped call ended pump) : ∀ e ∈ pump, onSink e = true := by
  cases pumped with
  | nothing => simp
  | streamed answered good relayed =>
    intro e member
    simp only [List.mem_cons, List.mem_append, List.mem_map, List.not_mem_nil, or_false] at member
    rcases member with rfl | ⟨chunk, -, rfl⟩ | rfl <;> rfl

theorem onSink_other {e : RelayEvent} (sink : onSink e = true) :
    isSelected e = false ∧ ∀ nodeId,
      e ≠ .began nodeId ∧ records nodeId e = false ∧ e ≠ .ended nodeId := by
  cases e with
  | opened contentType => exact ⟨rfl, fun _ => ⟨by simp, rfl, by simp⟩⟩
  | wrote chunk => exact ⟨rfl, fun _ => ⟨by simp, rfl, by simp⟩⟩
  | closed => exact ⟨rfl, fun _ => ⟨by simp, rfl, by simp⟩⟩
  | _ => cases sink

theorem filter_trace (a : Attempt) : a.trace.filter onSink = a.pump := by
  have kept : a.pump.filter onSink = a.pump := List.filter_eq_self.mpr (pumped_onSink a.pumped)
  simp [Attempt.trace, onSink, kept]

theorem nodes_trace (a : Attempt) : nodes a.trace = [a.call] := by
  have none_selected : nodes a.pump = [] := by
    apply List.filterMap_eq_nil_iff.mpr
    intro e member
    have unselected := (onSink_other (pumped_onSink a.pumped e member)).1
    cases e <;> first | rfl | cases unselected
  simp only [nodes] at none_selected
  simp [nodes, Attempt.trace, none_selected]

theorem nodes_attempts (attempts : List Attempt) :
    nodes (attempts.flatMap Attempt.trace) = attempts.map (·.call) := by
  induction attempts with
  | nil => rfl
  | cons a rest ih =>
    have split : nodes (a.trace ++ rest.flatMap Attempt.trace) =
        nodes a.trace ++ nodes (rest.flatMap Attempt.trace) := List.filterMap_append
    rw [List.flatMap_cons, split, nodes_trace, ih]
    rfl

-- Only the last attempt can have reached the sink.
theorem sink_attempts (attempts : List Attempt)
    (early : attempts.Pairwise fun a _ => a.pump = []) :
    (attempts.flatMap Attempt.trace).filter onSink =
      (attempts.getLast?.map (·.pump)).getD [] := by
  induction attempts with
  | nil => rfl
  | cons a rest ih =>
    obtain ⟨first, later⟩ := List.pairwise_cons.mp early
    rw [List.flatMap_cons, List.filter_append, filter_trace, ih later]
    cases rest with
    | nil => simp
    | cons b rest => simp [first b List.mem_cons_self]

-- Nothing is selected once the sink is open, and no request begins again once it is accounted for.
def Orderly (x y : RelayEvent) : Prop :=
  (isOpened x = true → isSelected y = false) ∧
    ∀ nodeId, y = .began nodeId → records nodeId x = false ∧ x ≠ .ended nodeId

theorem mem_trace {a : Attempt} {e : RelayEvent} (member : e ∈ a.trace) :
    e = .selected a.call ∨ e = .began a.nodeId ∨ e ∈ a.pump ∨ e = .recorded a.nodeId a.success ∨
      e = .ended a.nodeId := by
  simpa [Attempt.trace] using member

theorem orderly_trace (a : Attempt) : a.trace.Pairwise Orderly := by
  have quiet {x y : RelayEvent} (member : y ∈ a.pump ++
      [.recorded a.nodeId a.success, .ended a.nodeId]) : Orderly x y := by
    have other : isSelected y = false ∧ ∀ nodeId, y ≠ .began nodeId := by
      rcases List.mem_append.mp member with pumped | accounts
      · have other := onSink_other (pumped_onSink a.pumped y pumped)
        exact ⟨other.1, fun nodeId => (other.2 nodeId).1⟩
      · rcases List.mem_pair.mp accounts with rfl | rfl <;> exact ⟨rfl, by simp⟩
    exact ⟨fun _ => other.1, fun nodeId same => absurd same (other.2 nodeId)⟩
  rw [Attempt.trace, List.pairwise_cons, List.pairwise_cons]
  refine ⟨?_, fun y member => quiet member, ?_⟩
  · intro y member
    rcases List.mem_cons.mp member with rfl | later
    · exact ⟨fun _ => rfl, fun _ _ => ⟨rfl, by simp⟩⟩
    · exact quiet later
  · exact List.pairwise_of_forall_mem_list fun x _ y member => quiet member

theorem began_own {a : Attempt} {nodeId : String} (member : .began nodeId ∈ a.trace) :
    nodeId = a.nodeId := by
  rcases mem_trace member with same | same | pumped | same | same
  · cases same
  · cases same
    rfl
  · cases pumped_onSink a.pumped _ pumped
  · cases same
  · cases same

theorem orderly_attempts (attempts : List Attempt)
    (early : attempts.Pairwise fun a _ => a.pump = [])
    (distinct : (attempts.map (·.nodeId)).Nodup) :
    (attempts.flatMap Attempt.trace).Pairwise Orderly := by
  rw [List.pairwise_flatMap]
  refine ⟨fun a _ => orderly_trace a, ?_⟩
  have apart := (List.pairwise_map.mp distinct).and early
  apply apart.imp
  rintro a b ⟨different, unpumped⟩ x first y second
  constructor
  · intro opened
    rcases mem_trace first with rfl | rfl | pumped | rfl | rfl
    · cases opened
    · cases opened
    · rw [unpumped] at pumped
      cases pumped
    · cases opened
    · cases opened
  · rintro nodeId rfl
    obtain rfl := began_own second
    rcases mem_trace first with rfl | rfl | pumped | rfl | rfl
    · exact ⟨rfl, by simp⟩
    · exact ⟨rfl, by simp⟩
    · rw [unpumped] at pumped
      cases pumped
    · exact ⟨by simpa [records] using different, by simp⟩
    · exact ⟨rfl, by simpa using different⟩

theorem count_trace (a : Attempt) (nodeId : String) :
    a.trace.countP (records nodeId) = [a.nodeId].count nodeId ∧
      a.trace.count (.ended nodeId) = [a.nodeId].count nodeId := by
  have unrecorded : a.pump.countP (records nodeId) = 0 := by
    apply List.countP_eq_zero.mpr
    intro e member
    simp [((onSink_other (pumped_onSink a.pumped e member)).2 nodeId).2.1]
  have unended : a.pump.count (.ended nodeId) = 0 := by
    apply List.count_eq_zero.mpr
    intro member
    cases pumped_onSink a.pumped _ member
  constructor
  · simp [Attempt.trace, List.countP_cons, List.countP_append, unrecorded, records,
      List.count_cons]
  · simp [Attempt.trace, List.count_cons, List.count_append, unended]

theorem count_attempts (attempts : List Attempt) (nodeId : String) :
    (attempts.flatMap Attempt.trace).countP (records nodeId) =
        (attempts.map (·.nodeId)).count nodeId ∧
      (attempts.flatMap Attempt.trace).count (.ended nodeId) =
        (attempts.map (·.nodeId)).count nodeId := by
  induction attempts with
  | nil => exact ⟨rfl, rfl⟩
  | cons a rest ih =>
    obtain ⟨recorded, ended⟩ := count_trace a nodeId
    have split : (a.nodeId :: rest.map (·.nodeId)).count nodeId =
        [a.nodeId].count nodeId + (rest.map (·.nodeId)).count nodeId := by
      rw [← List.count_append]
      rfl
    rw [List.flatMap_cons, List.countP_append, List.count_append, List.map_cons, split, recorded,
      ended, ih.1, ih.2]
    exact ⟨rfl, rfl⟩

theorem written_sink (trace : Trace) : written (trace.filter onSink) = written trace := by
  rw [written, written, List.filterMap_filter]
  apply List.filterMap_congr
  intro e _
  cases e <;> rfl

theorem countP_sink {p : RelayEvent → Bool} (sinks : ∀ e, p e = true → onSink e = true)
    (trace : Trace) : (trace.filter onSink).countP p = trace.countP p := by
  rw [List.countP_filter]
  apply List.countP_congr
  intro e _
  simpa using sinks e

theorem onSink_of_opened (e : RelayEvent) (opened : isOpened e = true) : onSink e = true := by
  cases e <;> first | rfl | cases opened

theorem onSink_of_closed (e : RelayEvent) (closed : isClosed e = true) : onSink e = true := by
  cases e <;> first | rfl | cases closed

theorem written_wrote (chunks : List String) :
    written (chunks.map RelayEvent.wrote) = chunks := by
  induction chunks with
  | nil => rfl
  | cons chunk rest ih => exact congrArg (chunk :: ·) ih

theorem written_streamed (contentType : String) (chunks : List String) :
    written (.opened contentType :: (chunks.map RelayEvent.wrote ++ [.closed])) = chunks := by
  have split : written (.opened contentType :: (chunks.map RelayEvent.wrote ++ [.closed])) =
      written (chunks.map RelayEvent.wrote) ++ [] := List.filterMap_append
  rw [split, written_wrote, List.append_nil]

theorem pumped_written {call : NodeCall} {ended : Bool} {pump : Trace}
    (pumped : Pumped call ended pump) {trace : Trace} (sink : trace.filter onSink = pump) :
    pump = [] ∧ ended = false ∧ written trace = [] ∨
      trace.any isOpened = true ∧ WrittenFrom call ended trace := by
  have same : written trace = written pump := by rw [← written_sink, sink]
  rw [WrittenFrom, same]
  cases pumped with
  | nothing => exact .inl ⟨rfl, rfl, rfl⟩
  | @streamed status contentType body ended chunks answered good relayed =>
    rw [written_streamed]
    refine .inr ⟨?_, status, contentType, body, answered, good, relayed⟩
    have opened : RelayEvent.opened (contentType.getD "text/event-stream") ∈
        trace.filter onSink := sink ▸ List.mem_cons_self
    exact List.any_eq_true.mpr ⟨_, (List.mem_filter.mp opened).1, rfl⟩

theorem pumped_once {call : NodeCall} {ended : Bool} {pump : Trace}
    (pumped : Pumped call ended pump) :
    pump.countP isOpened ≤ 1 ∧ pump.countP isClosed ≤ 1 ∧
      ∀ e, pump.head? = some e → isOpened e = true := by
  cases pumped with
  | nothing => simp
  | @streamed status contentType body ended chunks answered good relayed =>
    have unopened : (chunks.map RelayEvent.wrote).countP isOpened = 0 := by
      simp [List.countP_map, List.countP_eq_zero, isOpened]
    have unclosed : (chunks.map RelayEvent.wrote).countP isClosed = 0 := by
      simp [List.countP_map, List.countP_eq_zero, isClosed]
    refine ⟨?_, ?_, ?_⟩
    · rw [List.countP_cons, List.countP_append, unopened]
      simp [isOpened]
    · rw [List.countP_cons, List.countP_append, unclosed]
      simp [isClosed]
    · rintro e found
      cases found
      rfl

theorem integrity_of_attempts (attempts : List Attempt) (short : attempts.length ≤ 2)
    (early : attempts.Pairwise fun a _ => a.pump = [])
    (distinct : (attempts.map (·.nodeId)).Nodup) :
    Integrity (attempts.flatMap Attempt.trace) := by
  have selections := nodes_attempts attempts
  have ordered := orderly_attempts attempts early distinct
  have sink := sink_attempts attempts early
  have pumped : ∃ pump, (attempts.flatMap Attempt.trace).filter onSink = pump ∧
      (pump = [] ∨ ∃ a ∈ attempts, Pumped a.call a.ended pump) := by
    cases found : attempts.getLast? with
    | none => exact ⟨[], by simpa [found] using sink, .inl rfl⟩
    | some last =>
      refine ⟨last.pump, by simpa [found] using sink, .inr ⟨last, ?_, last.pumped⟩⟩
      exact List.mem_of_getLast? found
  obtain ⟨pump, sink, source⟩ := pumped
  have once : pump.countP isOpened ≤ 1 ∧ pump.countP isClosed ≤ 1 ∧
      ∀ e, pump.head? = some e → isOpened e = true := by
    rcases source with rfl | ⟨a, -, pumped⟩
    · simp
    · exact pumped_once pumped
  constructor
  case tries => simpa [selections] using short
  case distinct =>
    rw [selections, List.map_map]
    exact distinct
  case one_source =>
    rcases source with rfl | ⟨a, member, pumped⟩
    · left
      rw [← written_sink, sink]
      rfl
    · rcases pumped_written pumped sink with ⟨-, -, nothing⟩ | ⟨-, from_node⟩
      · exact .inl nothing
      · refine .inr ⟨a.call, ?_, a.ended, from_node⟩
        rw [selections]
        exact List.mem_map_of_mem member
  case opens_once =>
    rw [← countP_sink onSink_of_opened, sink]
    exact once.1
  case closes_once =>
    rw [← countP_sink onSink_of_closed, sink]
    exact once.2.1
  case closes_opened =>
    intro before after split
    have halves : before.filter onSink ++ .closed :: after.filter onSink = pump := by
      rw [← sink, split, List.filter_append]
      rfl
    -- What the sink has begins with its opening, so something stands before the closing.
    cases first : before.filter onSink with
    | nil =>
      have closing := once.2.2 .closed (by rw [← halves, first]; rfl)
      cases closing
    | cons e rest =>
      have opening := once.2.2 e (by rw [← halves, first]; rfl)
      have member : e ∈ before.filter onSink := first ▸ List.mem_cons_self
      exact List.any_eq_true.mpr ⟨e, (List.mem_filter.mp member).1, opening⟩
  case committed =>
    intro before after contentType split
    rw [split] at ordered
    have later := (List.pairwise_cons.mp (List.pairwise_append.mp ordered).2.1).1
    rw [List.any_eq_false]
    intro e member
    simp [(later e member).1 rfl]
  case accounted =>
    intro before after nodeId split
    obtain ⟨recorded, ended⟩ := count_attempts attempts nodeId
    have begun : nodeId ∈ attempts.map (·.nodeId) := by
      have member : .began nodeId ∈ attempts.flatMap Attempt.trace := split ▸ by simp
      obtain ⟨a, within, own⟩ := List.mem_flatMap.mp member
      exact began_own own ▸ List.mem_map_of_mem within
    have one := List.count_eq_one_of_mem distinct begun
    rw [one, split] at recorded ended
    rw [split] at ordered
    have earlier := (List.pairwise_append.mp ordered).2.2
    have unrecorded : before.countP (records nodeId) = 0 := by
      apply List.countP_eq_zero.mpr
      intro e member
      simp [((earlier e member _ List.mem_cons_self).2 nodeId rfl).1]
    have unended : before.count (.ended nodeId) = 0 := by
      apply List.count_eq_zero.mpr
      intro member
      exact ((earlier _ member _ List.mem_cons_self).2 nodeId rfl).2 rfl
    rw [List.countP_append, List.countP_cons, unrecorded] at recorded
    rw [List.count_append, List.count_cons, unended] at ended
    simp only [records, Bool.false_eq_true, if_false] at recorded
    exact ⟨by omega, by simpa using ended⟩

theorem attributed_of_attempts (attempts : List Attempt)
    (early : attempts.Pairwise fun a _ => a.pump = []) (last : Attempt)
    (found : attempts.getLast? = some last) (result : RouteResult Json)
    (same : result.nodeId = last.nodeId)
    (delivered : Delivered parseJson input last.call last.pump result.body) :
    Attributed parseJson input (attempts.flatMap Attempt.trace) result := by
  have sink : (attempts.flatMap Attempt.trace).filter onSink = last.pump := by
    simpa [found] using sink_attempts attempts early
  refine ⟨last.call, ?_, same, ?_⟩
  · rw [nodes_attempts, List.getLast?_map, found]
    rfl
  · unfold Delivered at delivered
    split at delivered
    next streaming =>
      rw [if_pos streaming]
      rcases pumped_written delivered.1 sink with ⟨-, unended, -⟩ | ⟨opened, from_node⟩
      · cases unended
      · exact ⟨from_node, opened, delivered.2⟩
    next plain =>
      rw [if_neg plain]
      refine ⟨?_, delivered.2⟩
      rw [delivered.1, List.filter_eq_nil_iff] at sink
      rw [List.any_eq_false]
      exact sink

theorem route_integrity
    (honours : ∀ tried call, select input.model tried = .ok call → call.nodeId ∉ tried)
    (works : ∀ tried call, select input.model tried = .ok call → storesWork call = true) :
    Integrity (route parseJson input gone select).2 ∧
      ∀ result, (route parseJson input gone select).1 = .ok result →
        Attributed parseJson input (route parseJson input gone select).2 result := by
  obtain ⟨attempts, short, traces, early, distinct, -, ends⟩ :=
    routeLoop_attempts parseJson input gone select honours works 2 1 [] none ⟨false, false, []⟩
      rfl rfl
  have trace : (route parseJson input gone select).2 = attempts.flatMap Attempt.trace := traces
  rw [trace]
  refine ⟨integrity_of_attempts attempts short early distinct, ?_⟩
  intro result resolved
  obtain ⟨last, found, same, delivered⟩ := ends result resolved
  exact attributed_of_attempts parseJson input attempts early last found result same delivered

def silentNode : NodeCall where
  nodeId := "node-a"
  operatorAddress := "OPERATOR-A"
  beginFails := none
  unroutable := none
  upstream := .refused "connection refused" false
  latencyMs := 3
  successFails := none
  failureFails := none
  endFails := none

def streamingNode : NodeCall :=
  { silentNode with
    nodeId := "node-b"
    operatorAddress := "OPERATOR-B"
    upstream := .answered 200 (some "text/event-stream") (some ⟨[⟨8, "data: hi"⟩], none, ""⟩) }

def selectDemo (_model : String) (tried : List String) : Except Thrown NodeCall :=
  if "node-a" ∉ tried then .ok silentNode
  else if "node-b" ∉ tried then .ok streamingNode
  else .error (.mesh ⟨.noCapacity, "no eligible node", []⟩)

theorem selectDemo_some (tried : List String) (call : NodeCall)
    (chosen : selectDemo "m" tried = .ok call) :
    call.nodeId ∉ tried ∧ storesWork call = true := by
  unfold selectDemo at chosen
  split at chosen
  next first =>
    cases chosen
    exact ⟨first, rfl⟩
  next =>
    split at chosen
    next second =>
      cases chosen
      exact ⟨second, rfl⟩
    next => cases chosen

-- The first node refuses the connection and the second streams.
theorem route_integrity_failover :
    let routed := route (fun text => some text) ⟨"r", "m", true, 1000⟩ (fun _ => false) selectDemo
    Integrity routed.2 ∧ (nodes routed.2).map (·.nodeId) = ["node-a", "node-b"] ∧
      written routed.2 = ["data: hi", doneFrame] ∧
      ∃ result, routed.1 = .ok result ∧
        Attributed (fun text => some text) ⟨"r", "m", true, 1000⟩ routed.2 result := by
  obtain ⟨integrity, attributed⟩ := route_integrity (fun text => some text) ⟨"r", "m", true, 1000⟩
    (fun _ => false) selectDemo (fun tried call chosen => (selectDemo_some tried call chosen).1)
    (fun tried call chosen => (selectDemo_some tried call chosen).2)
  exact ⟨integrity, by decide, by decide, ⟨"node-b", none, 3, 2⟩, rfl, attributed _ rfl⟩

end Relay

end X402Mesh.Gateway
