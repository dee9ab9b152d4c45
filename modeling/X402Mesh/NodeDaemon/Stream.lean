import X402Mesh.Gateway.Relay

set_option autoImplicit false

namespace X402Mesh.NodeDaemon

-- `chunks` are serialized, and `failure` is what the iteration throws after the last of them.
structure ProviderStream where
  chunks : List String
  failure : Option Thrown
  deriving DecidableEq, Repr

namespace ProviderStream

def completes (stream : ProviderStream) : Bool := stream.failure.isNone

end ProviderStream

def sseDone : String := "[DONE]"

def sseData (data : String) : String := "data: " ++ data ++ "\n\n"

/-- Each frame is one write; the response is ended after the last. -/
structure SseResponse where
  status : Nat
  contentType : String
  frames : List String
  deriving DecidableEq, Repr

variable (stringify : MeshErrorBody → String)

def streamCompletion (stream : ProviderStream) : SseResponse where
  status := 200
  contentType := "text/event-stream; charset=utf-8"
  frames :=
    stream.chunks.map sseData ++
      match stream.failure with
      | none => [sseData sseDone]
      | some cause =>
        ["event: error\ndata: " ++ stringify (toErrorResponse cause).2 ++ "\n\n", sseData sseDone]

open Gateway Gateway.Router Gateway.Relay

-- The network cuts the writes into chunks where it likes, and loses nothing.
def Carries (response : SseResponse) (upstream : Upstream) : Prop :=
  ∃ body : Body, upstream = .answered response.status (some response.contentType) (some body) ∧
    body.broke = none ∧
    String.join (body.chunks.map (·.text)) = String.join response.frames ∧
    (body.chunks.map (·.byteLength)).sum = (String.join response.frames).utf8ByteSize

variable {Json : Type} (parseJson : String → Option Json) (input : RouteInput)
variable (gone : Nat → Bool)

theorem pumpStream_ok (contentType : Option String) (body : Body) (nodeId : String)
    (t : TrackedSink Trace) (whole : body.broke = none) :
    (pumpStream traced contentType (some body) nodeId t).1 = .ok () := by
  have copied := copyChunks_ok traced body.broke body.chunks 0 []
    (t.start traced (contentType.getD "text/event-stream")) (Nat.zero_le _)
  rw [whole] at copied
  simp only [pumpStream, whole]
  cases outcome : (copyChunks traced none body.chunks 0 []
      (t.start traced (contentType.getD "text/event-stream"))).1 with
  | ok done => rfl
  | error error =>
    rw [outcome] at copied
    cases copied

-- Whatever the provider did, the gateway has a response that is fine.
theorem callNode_carried (stream : ProviderStream) (attempt : Nat) (call : NodeCall)
    (t : TrackedSink Trace) (streaming : input.streaming = true)
    (works : storesWork call = true) (routable : call.unroutable = none)
    (here : gone (2 * attempt) = false)
    (carried : Carries (streamCompletion stringify stream) call.upstream)
    (idle : t.started = false) (unended : t.ended = false) :
    ∃ pump, Pumped call true pump ∧
      (Relay.callNode parseJson input gone attempt call t).2.inner =
        t.inner ++ (.began call.nodeId :: (pump ++
          [.recorded call.nodeId true, .ended call.nodeId])) := by
  obtain ⟨body, answered, whole, -, -⟩ := carried
  have begins : call.beginFails = none := by
    simp only [storesWork, Bool.and_eq_true, Option.isNone_iff_eq_none] at works
    exact works.1.1.1
  have good : responseOk (streamCompletion stringify stream).status = true := rfl
  obtain ⟨pump, pumped, -, same⟩ := pumpStream_trace
    (some (streamCompletion stringify stream).contentType) body call answered
    good (note t [.began call.nodeId]) idle unended
  have pumps := pumpStream_ok (some (streamCompletion stringify stream).contentType) body
    call.nodeId (note t [.began call.nodeId]) whole
  rw [pumps] at pumped
  refine ⟨pump, pumped, ?_⟩
  simp only [Relay.callNode, begins, Relay.performCall, here, Bool.false_eq_true, if_false,
    Router.performCall, routable, answered, good, streaming, if_true, same, pumps]
  rw [(accounted_works works _).2]
  simp [note, Except.map, Except.isOk, Except.toBool]

theorem records_success (stream : ProviderStream) (attempt : Nat) (call : NodeCall)
    (t : TrackedSink Trace) (streaming : input.streaming = true)
    (works : storesWork call = true) (routable : call.unroutable = none)
    (here : gone (2 * attempt) = false)
    (carried : Carries (streamCompletion stringify stream) call.upstream)
    (idle : t.started = false) (unended : t.ended = false) :
    let events := (Relay.callNode parseJson input gone attempt call t).2.inner.drop t.inner.length
    (.recorded call.nodeId true ∈ events ↔ stream.completes = true) ↔ stream.completes = true := by
  intro events
  obtain ⟨pump, -, trace⟩ := callNode_carried stringify parseJson input gone stream attempt call t
    streaming works routable here carried idle unended
  have success : RelayEvent.recorded call.nodeId true ∈ events := by
    simp [events, trace]
  simp [success]

def demoStringify (body : MeshErrorBody) : String := body.message

def demoCall (stream : ProviderStream) : NodeCall where
  nodeId := "node-a"
  operatorAddress := "OPERATOR"
  beginFails := none
  unroutable := none
  upstream :=
    .answered 200 (some "text/event-stream; charset=utf-8")
      (some ⟨(streamCompletion demoStringify stream).frames.map fun frame =>
        ⟨frame.utf8ByteSize, frame⟩, none, ""⟩)
  latencyMs := 5
  successFails := none
  failureFails := none
  endFails := none

def demoOutcomes (stream : ProviderStream) : Trace :=
  (Relay.callNode (fun text => some text) ⟨"r", "m", true, 1000⟩ (fun _ => false) 1
    (demoCall stream) ⟨false, false, []⟩).2.inner.filter (records "node-a")

theorem records_success_whole :
    .recorded "node-a" true ∈ (Relay.callNode (fun text => some text) ⟨"r", "m", true, 1000⟩
        (fun _ => false) 1 (demoCall ⟨["a", "b"], none⟩) ⟨false, false, []⟩).2.inner ↔
      (⟨["a", "b"], none⟩ : ProviderStream).completes = true := by
  have agreed := records_success demoStringify (fun text => some text) ⟨"r", "m", true, 1000⟩
    (fun _ => false) ⟨["a", "b"], none⟩ 1 (demoCall ⟨["a", "b"], none⟩) ⟨false, false, []⟩ rfl rfl
    rfl rfl ⟨_, rfl, rfl, by decide, by decide⟩ rfl rfl
  exact agreed.mpr rfl

def failsMidway : ProviderStream := ⟨["a"], some (.mesh ⟨.upstream, "CUDA out of memory", []⟩)⟩

def failsAtOnce : ProviderStream := ⟨[], some (.mesh ⟨.upstream, "CUDA out of memory", []⟩)⟩

theorem failure_recorded_as_success :
    (failsMidway.completes = false ∧
      Carries (streamCompletion demoStringify failsMidway) (demoCall failsMidway).upstream ∧
      demoOutcomes failsMidway = [.recorded "node-a" true]) ∧
    failsAtOnce.completes = false ∧
      Carries (streamCompletion demoStringify failsAtOnce) (demoCall failsAtOnce).upstream ∧
      demoOutcomes failsAtOnce = [.recorded "node-a" true] :=
  ⟨⟨rfl, ⟨_, rfl, rfl, by decide, by decide⟩, by decide⟩,
    rfl, ⟨_, rfl, rfl, by decide, by decide⟩, by decide⟩

end X402Mesh.NodeDaemon
