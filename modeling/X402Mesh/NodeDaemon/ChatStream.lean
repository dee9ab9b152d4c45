import X402Mesh.NodeDaemon.Completions
import X402Mesh.NodeDaemon.RoundTrip

set_option autoImplicit false

namespace X402Mesh.NodeDaemon.Sse

open LineBreaks JsonText

def pointUnits : CodePoint → Units
  | .scalar c => unitsOf [c]
  | .surrogate index => [(0xD800 + index.val).toUInt16]

def stringUnits (s : JsString) : Units := s.flatMap pointUnits

mutual

def valueOf : Json → Js.Value
  | .null => .null
  | .bool b => .boolean b
  | .number n => .number (Usage.count n.toNat)
  | .string s => .string (stringUnits s)
  | .array items => .array (valuesOf items)
  | .object members => .object (membersOf members)

def valuesOf : List Json → List Js.Value
  | [] => []
  | v :: rest => valueOf v :: valuesOf rest

def membersOf : List (JsString × Json) → List (Js.Units × Js.Value)
  | [] => []
  | member :: rest => memberOf member :: membersOf rest

def memberOf : JsString × Json → Js.Units × Js.Value
  | (key, v) => (stringUnits key, valueOf v)

end

mutual

theorem valueOf_json : ∀ v : Json, (valueOf v).IsJson
  | .null => .null
  | .bool b => .boolean b
  | .number _ => .number _
  | .string _ => .string _
  | .array items => .array (valuesOf_json items)
  | .object members => .object (membersOf_json members)

theorem valuesOf_json : ∀ items : List Json, ∀ v ∈ valuesOf items, v.IsJson
  | [] => fun _ member => nomatch member
  | v :: rest => List.forall_mem_cons.mpr ⟨valueOf_json v, valuesOf_json rest⟩

theorem membersOf_json : ∀ members : List (JsString × Json), ∀ m ∈ membersOf members, m.2.IsJson
  | [] => fun _ member => nomatch member
  | member :: rest => List.forall_mem_cons.mpr ⟨memberOf_json member, membersOf_json rest⟩

theorem memberOf_json : ∀ member : JsString × Json, (memberOf member).2.IsJson
  | (_, v) => valueOf_json v

end

section provider

variable (parse : Units → Option Js.Value) (stringify : Js.Value → Units)
variable (requestedModel : Js.Units) (label : String)

-- What the clock says when each of the frames is read.
variable (clock : Nat → Completions.Readings)

def chunksFrom (read : Nat) : List Js.Value → Yields Js.Value
  | [] => ([], none)
  | frame :: rest =>
    match Completions.normalizeChunk stringify frame requestedModel label (clock read) with
    | .ok chunk => (chunk :: (chunksFrom (read + 1) rest).1, (chunksFrom (read + 1) rest).2)
    | .error error => ([], some error)

structure ChatAnswer where
  status : Nat
  body : Option (List (List UInt8))

def errorSnippetLength : Nat := 400

-- `errorSnippet` reads the text of the response.
def upstreamErrorFrom (answer : ChatAnswer) (what : String) : Details.MeshError :=
  let snippet := (unitsOf (Utf8.text (answer.body.getD []).flatten)).take errorSnippetLength
  ⟨"upstream_error", label ++ " " ++ what ++ " failed with HTTP " ++ toString answer.status,
    some ([(Js.units "status", .number (Usage.count answer.status)),
      (Js.units "upstream", .string (Js.units label))] ++
        if snippet.length > 0 then [(Js.units "body", .string snippet)] else [])⟩

def noBody : Details.MeshError :=
  Completions.upstreamError label " returned a streaming response with no body" []

def chatStream (answer : ChatAnswer) : Yields Js.Value :=
  if Gateway.Router.responseOk answer.status then
    match answer.body with
    | some chunks =>
      let frames := iterateSseJson parse label chunks
      andThen (chunksFrom stringify requestedModel label clock 0 frames.1) ([], frames.2)
    | none => ([], some (noBody label))
  else ([], some (upstreamErrorFrom label answer "streaming chat completion"))

end provider

-- A frame that the parser finds again in front of a blank line.
structure Sound (frame : Units) : Prop where
  free : cr ∉ frame
  whole : ∀ back, cut lf (frame ++ lf :: lf :: back) = some (frame, back)

theorem dispatch_ended {frames : List Frame} {events : List SseEvent}
    (ended : dispatch frames = (events, true)) (more : List Frame) :
    dispatch (frames ++ more) = (events, true) := by
  rw [dispatch_append, ended]
  rfl

-- Whatever follows frames that end a stream is not looked at.
theorem dispatch_frames {frames : List Units} (sound : ∀ frame ∈ frames, Sound frame)
    {events : List SseEvent} (ended : dispatch (frames.map emit) = (events, true)) (more : Units) :
    dispatch ((cutAll lf (settled cr lf (frames.flatMap (· ++ [lf, lf]) ++ more))).1.map emit) =
      (events, true) := by
  have plain : cr ∉ frames.flatMap (· ++ [lf, lf]) := by
    intro member
    obtain ⟨frame, listed, inside⟩ := List.mem_flatMap.mp member
    rcases List.mem_append.mp inside with body | ends
    · exact (sound frame listed).free body
    · exact absurd ends (by decide)
  have settles := settled_plain cr lf plain
  have kept : ∃ rest, settled cr lf (frames.flatMap (· ++ [lf, lf]) ++ more) =
      frames.flatMap (· ++ [lf, lf]) ++ rest := by
    cases more with
    | nil => exact ⟨[], by rw [List.append_nil, settles]⟩
    | cons c rest =>
      have grown := settled_append cr_ne_lf (frames.flatMap (· ++ [lf, lf])) c rest
      rw [settles] at grown
      exact ⟨_, grown⟩
  obtain ⟨rest, grown⟩ := kept
  rw [grown, cutAll_append, cutAll_whole lf fun frame listed => (sound frame listed).whole,
    List.map_append]
  exact dispatch_ended ended _

theorem sound_line {line : Units} (noFeed : lf ∉ line) (noReturn : cr ∉ line) : Sound line :=
  ⟨noReturn, cut_frame lf noFeed⟩

def errorLine : Units := units "event: error"

theorem lines_two {first second : Units} (free : lf ∉ first) (free' : lf ∉ second) :
    lines lf (first ++ lf :: second) = [first, second] := by
  rw [lines, List.splitOn_append_cons_self, List.splitOn_eq_singleton free,
    List.splitOn_eq_singleton free']
  rfl

def errorEventOf (v : Json) : SseEvent := ⟨unitsOf v.text, some (units "error"), none⟩

theorem dataFrame_free (v : Json) :
    lf ∉ dataFrame (unitsOf v.text) ∧ cr ∉ dataFrame (unitsOf v.text) :=
  frames_free [v] _ List.mem_cons_self

theorem emit_errorFrame (v : Json) :
    emit (errorLine ++ lf :: dataFrame (unitsOf v.text)) = .event (errorEventOf v) := by
  have named : Fields.none.add errorLine = ⟨[], some (units "error"), none⟩ := rfl
  have front : units "data: " = [100, 97, 116, 97, 58, 32] := by decide
  have name : units "data" = [100, 97, 116, 97] := by decide
  have told : (⟨[], some (units "error"), none⟩ : Fields).add (dataFrame (unitsOf v.text)) =
      ⟨[unitsOf v.text], some (units "error"), none⟩ := by
    simp [Fields.add, dataFrame, front, name, colon, blank]
  rw [emit, lines_two (by decide) (dataFrame_free v).1, frameOf, List.foldl_cons, List.foldl_cons,
    List.foldl_nil, named, told]
  simp [unitsOf_text_ne_done, errorEventOf]

section written

-- The JSON text of an error body; what the details are does not matter.
variable (details : List (JsString × Json))

def errorOf (body : MeshErrorBody) : Json :=
  .object ([(js "code", .string (js body.code)), (js "message", .string (js body.message))] ++
    details)

def errorJson (body : MeshErrorBody) : Json := .object [(js "error", errorOf details body)]

def bodyText (body : MeshErrorBody) : String := String.ofList (errorJson details body).text

variable (values : List Json) (failure : Option Thrown)

def stream : ProviderStream := ⟨values.map fun v => String.ofList v.text, failure⟩

def failureJson : List Json := (failure.map fun cause =>
  errorJson details (toErrorResponse cause).2).toList

-- The texts in front of the blank lines.
def bodies : List (List Char) :=
  values.map (fun v => "data: ".toList ++ v.text) ++
    ((failureJson details failure).map (fun v => "event: error\ndata: ".toList ++ v.text) ++
      ["data: [DONE]".toList])

theorem wire_stream : wire (streamCompletion (bodyText details) (stream values failure)) =
    Utf8.encode ((bodies details values failure).flatMap (· ++ ['\n', '\n'])) := by
  have frame (v : Json) : (sseData (String.ofList v.text)).toList =
      "data: ".toList ++ v.text ++ ['\n', '\n'] := by
    have body : (String.ofList v.text).toList = v.text := String.toList_ofList
    rw [sseData, String.toList_append, String.toList_append, body]
    rfl
  have sentinel : (sseData sseDone).toList = "data: [DONE]".toList ++ ['\n', '\n'] := by decide
  have failed (body : MeshErrorBody) :
      ("event: error\ndata: " ++ bodyText details body ++ "\n\n").toList =
        "event: error\ndata: ".toList ++ (errorJson details body).text ++ ['\n', '\n'] := by
    have text : (bodyText details body).toList = (errorJson details body).text :=
      String.toList_ofList
    rw [String.toList_append, String.toList_append, text]
    rfl
  rw [encode_flatMap]
  cases failure with
  | none =>
    simp only [wire, streamCompletion, stream, bodies, failureJson, List.flatMap_append,
      List.flatMap_map, List.flatMap_singleton, frame, sentinel, Option.map_none,
      Option.toList_none, List.map_nil, List.nil_append]
  | some cause =>
    simp only [wire, streamCompletion, stream, bodies, failureJson, List.flatMap_append,
      List.flatMap_map, List.flatMap_cons, frame, sentinel, failed, Option.map_some,
      Option.toList_some, List.map_cons, List.map_nil, List.flatMap_nil, List.append_nil]

-- The frames as the parser gets to see them.
def frames : List Units :=
  values.map (fun v => dataFrame (unitsOf v.text)) ++
    ((failureJson details failure).map (fun v => errorLine ++ lf :: dataFrame (unitsOf v.text)) ++
      [dataFrame (units "[DONE]")])

theorem unitsOf_bodies : unitsOf ((bodies details values failure).flatMap (· ++ ['\n', '\n'])) =
    (frames details values failure).flatMap (· ++ [lf, lf]) := by
  have data : unitsOf "data: ".toList = units "data: " := rfl
  have error : unitsOf "event: error\ndata: ".toList = errorLine ++ lf :: units "data: " := by
    decide
  have ends : unitsOf ['\n', '\n'] = [lf, lf] := by decide
  have sentinel : unitsOf "data: [DONE]".toList = dataFrame (units "[DONE]") := by decide
  rw [unitsOf_flatMap, frames, bodies]
  simp only [List.flatMap_append, List.flatMap_map, List.flatMap_singleton, unitsOf_append, data,
    error, ends, sentinel, dataFrame, List.append_assoc, List.cons_append]

theorem frames_sound : ∀ frame ∈ frames details values failure, Sound frame := by
  have free := fun v : Json => dataFrame_free v
  intro frame member
  rcases List.mem_append.mp member with value | member
  next =>
    obtain ⟨v, -, rfl⟩ := List.mem_map.mp value
    exact sound_line (free v).1 (free v).2
  rcases List.mem_append.mp member with failed | sentinel
  next =>
    obtain ⟨v, -, rfl⟩ := List.mem_map.mp failed
    have line : cr ∉ errorLine ∧ lf ∉ errorLine := by decide
    refine ⟨?_, cut_two_lines lf line.2 (by simp [dataFrame, units, Utf8.units]) (free v).1⟩
    intro inside
    rcases List.mem_append.mp inside with name | later
    · exact line.1 name
    · rcases List.mem_cons.mp later with feed | data
      · exact absurd feed (by decide)
      · exact (free v).2 data
  next =>
    obtain rfl := List.mem_singleton.mp sentinel
    exact sound_line (by decide) (by decide)

theorem dispatch_bodies : dispatch ((frames details values failure).map emit) =
    (values.map eventOf ++ (failureJson details failure).map errorEventOf, true) := by
  have sentinel : emit (dataFrame (units "[DONE]")) = .done := by
    rw [emit_dataFrame (by decide), if_pos rfl]
  induction values with
  | nil =>
    cases failure with
    | none => simp [frames, failureJson, sentinel, dispatch]
    | some cause => simp [frames, failureJson, sentinel, emit_errorFrame, dispatch]
  | cons v rest ih =>
    rw [frames, List.map_cons, List.cons_append, List.map_cons, emit_text, dispatch]
    rw [frames] at ih
    rw [ih]
    rfl

theorem text_bodies (extra : List UInt8) :
    let written := (bodies details values failure).flatMap (· ++ ['\n', '\n'])
    ∃ more, Utf8.text (Utf8.encode written ++ extra) = written ++ more := by
  intro written
  have start : ∃ c rest, written = c :: rest ∧ c.toNat < 128 := by
    cases values with
    | nil =>
      cases failure with
      | none => exact ⟨_, _, rfl, by decide⟩
      | some cause => exact ⟨_, _, rfl, by decide⟩
    | cons v rest => exact ⟨_, _, rfl, by decide⟩
  obtain ⟨c, rest, begins, plain⟩ := start
  refine ⟨((Utf8.Decoder.init.decode (Utf8.encode written)).1.decode extra).2, ?_⟩
  rw [Utf8.text_append, begins, Utf8.text_encode c rest plain]

variable {details values failure}
variable {parse : Units → Option Js.Value} {label : String}

theorem yieldAll_read {events : List SseEvent} {read : List Js.Value}
    (reads : List.Forall₂ (fun event v => parse event.data = some v) events read) :
    yieldAll parse label events = (read, none) := by
  induction reads with
  | nil => rfl
  | @cons event v _ _ first _ ih =>
    have parsed : parseFrame parse label event.data = .ok v := by rw [parseFrame, first]
    rw [yieldAll, parsed, ih]

theorem iterate_bodies {chunks : List (List UInt8)} {extra : List UInt8}
    (pieces : chunks.flatten =
      wire (streamCompletion (bodyText details) (stream values failure)) ++ extra) :
    iterateSseJson parse label chunks = yieldAll parse label
      (values.map eventOf ++ (failureJson details failure).map errorEventOf) := by
  obtain ⟨more, text⟩ := text_bodies details values failure extra
  have whole : (texts .init chunks).flatten =
      (frames details values failure).flatMap (· ++ [lf, lf]) ++ unitsOf more := by
    rw [flatten_texts, pieces, wire_stream, ← unitsOf_bodies, ← unitsOf_append, ← text]
    rfl
  have told := (SseParser.pushAll_fresh (texts .init chunks)).told
  rw [whole, dispatch_frames (frames_sound details values failure)
    (dispatch_bodies details values failure)] at told
  have done := congrArg Prod.snd told
  have read := decodeFrom_eq parse label .init .fresh chunks rfl done.symm
  rw [iterateSseJson, read, ← congrArg Prod.fst told]

variable {stringify : Js.Value → Units} {requestedModel : Js.Units}
variable {clock : Nat → Completions.Readings}

-- Chunks that were made by whatever provider, and then frames of whatever kind.
theorem chunksFrom_made {chunks : List Js.Value} (more : List Js.Value)
    (made : ∀ chunk ∈ chunks, chunk.IsJson ∧ ∃ frame model label now, model ≠ [] ∧
      Completions.normalizeChunk stringify frame model label now = .ok chunk) (read : Nat) :
    chunksFrom stringify requestedModel label clock read (chunks ++ more) =
      andThen (chunks, none)
        (chunksFrom stringify requestedModel label clock (read + chunks.length) more) := by
  induction chunks generalizing read with
  | nil => rfl
  | cons chunk rest ih =>
    rw [List.forall_mem_cons] at made
    obtain ⟨⟨json, frame, model, other, now, named, came⟩, later⟩ := made
    have again := Completions.normalizeChunk_again requestedModel label (clock read) named json came
    have next : read + 1 + rest.length = read + (chunk :: rest).length := by
      rw [List.length_cons]
      omega
    rw [List.cons_append, chunksFrom, again, ih later, next]
    rfl

theorem chunksFrom_failure (read : Nat) :
    chunksFrom stringify requestedModel label clock read
        ((failureJson details failure).map valueOf) =
      ([], failure.map fun cause =>
        Completions.reported stringify label (valueOf (errorOf details (toErrorResponse cause).2))) := by
  cases failure with
  | none => rfl
  | some cause =>
    have failed : Completions.embedded (valueOf (errorJson details (toErrorResponse cause).2)) =
        some (valueOf (errorOf details (toErrorResponse cause).2)) := rfl
    have object : Completions.isObject (valueOf (errorJson details (toErrorResponse cause).2)) =
        true := rfl
    simp [failureJson, chunksFrom, Completions.normalizeChunk, object, failed]

end written

/-- Whoever reads the stream of a node gets the chunks that the provider of the node made, in
whatever pieces they come, and hears of its failure as a failure. -/
theorem stream_relayed (parse : Units → Option Js.Value) (stringify : Js.Value → Units)
    (requestedModel : Js.Units) (label : String) (clock : Nat → Completions.Readings)
    (details : List (JsString × Json)) (values : List Json) (failure : Option Thrown)
    (made : ∀ v ∈ values, ∃ frame model label now, model ≠ [] ∧
      Completions.normalizeChunk stringify frame model label now = .ok (valueOf v))
    (inverts : ∀ v ∈ values ++ failureJson details failure,
      parse (unitsOf v.text) = some (valueOf v))
    (chunks : List (List UInt8)) (extra : List UInt8)
    (pieces : chunks.flatten =
      wire (streamCompletion (bodyText details) (stream values failure)) ++ extra) :
    chatStream parse stringify requestedModel label clock
        ⟨(streamCompletion (bodyText details) (stream values failure)).status, some chunks⟩ =
      (values.map valueOf, failure.map fun cause =>
        Completions.reported stringify label
          (valueOf (errorOf details (toErrorResponse cause).2))) := by
  have fine : Gateway.Router.responseOk
      (streamCompletion (bodyText details) (stream values failure)).status = true := rfl
  have read : iterateSseJson parse label chunks =
      (values.map valueOf ++ (failureJson details failure).map valueOf, none) := by
    rw [iterate_bodies pieces]
    refine yieldAll_read ?_
    rw [List.forall_mem_append] at inverts
    refine List.rel_append ?_ ?_
    · rw [List.forall₂_map_left_iff, List.forall₂_map_right_iff, List.forall₂_same]
      exact inverts.1
    · rw [List.forall₂_map_left_iff, List.forall₂_map_right_iff, List.forall₂_same]
      exact inverts.2
  have each : ∀ chunk ∈ values.map valueOf, chunk.IsJson ∧ ∃ frame model label now, model ≠ [] ∧
      Completions.normalizeChunk stringify frame model label now = .ok chunk := by
    intro chunk member
    obtain ⟨v, listed, rfl⟩ := List.mem_map.mp member
    exact ⟨valueOf_json v, made v listed⟩
  simp only [chatStream, fine, if_true, read, chunksFrom_made _ each, chunksFrom_failure]
  cases failure <;> simp [andThen]

-- A backend that sends nothing but the text.
def bareFrame : Js.Value :=
  .object [(Js.units "choices", .array [.object [(Js.units "delta",
    .object [(Js.units "content", .string (Js.units "hi"))])]])]

theorem bareIndex_small : 0 < 2 ^ 53 := Nat.two_pow_pos 53

def bareIndex : JsNumber.Whole := JsNumber.whole 0 bareIndex_small

def bareChunk : Json :=
  .object [(js "id", .string (js "chatcmpl-0")),
    (js "object", .string (js "chat.completion.chunk")),
    (js "created", .number bareIndex),
    (js "model", .string (js "m")),
    (js "choices", .array [.object [(js "index", .number bareIndex),
      (js "delta", .object [(js "content", .string (js "hi"))]), (js "finish_reason", .null)]])]

def outOfMemory : Thrown := .mesh ⟨.upstream, "out of memory", []⟩

def bareFailure : Json := errorJson [] (toErrorResponse outOfMemory).2

def bareParse (data : Units) : Option Js.Value :=
  if data = unitsOf bareChunk.text then some (valueOf bareChunk)
  else if data = unitsOf bareFailure.text then some (valueOf bareFailure)
  else none

theorem stream_relayed_bytewise :
    chatStream bareParse (fun _ => []) (Js.units "m") "node" (fun _ => ⟨9, 9⟩)
        ⟨200, some ((wire (streamCompletion (bodyText [])
          (stream [bareChunk] (some outOfMemory)))).map fun b => [b])⟩ =
      ([valueOf bareChunk], some (Completions.reported (fun _ => []) "node"
        (valueOf (errorOf [] (toErrorResponse outOfMemory).2)))) := by
  have made : ∀ v ∈ [bareChunk], ∃ frame model label now, model ≠ [] ∧
      Completions.normalizeChunk (fun _ => []) frame model label now = .ok (valueOf v) := by
    intro v member
    obtain rfl := List.mem_singleton.mp member
    refine ⟨bareFrame, Js.units "m", "ollama", ⟨0, 0⟩, by decide, ?_⟩
    exact (Completions.normalizeChunk_eq_ok (by decide)).mpr ⟨rfl, rfl, rfl⟩
  have inverts : ∀ v ∈ [bareChunk] ++ failureJson [] (some outOfMemory),
      bareParse (unitsOf v.text) = some (valueOf v) := by
    have other : unitsOf bareFailure.text ≠ unitsOf bareChunk.text := by decide
    intro v member
    simp only [failureJson, Option.map_some, Option.toList_some, List.singleton_append,
      List.mem_cons, List.not_mem_nil, or_false] at member
    rcases member with rfl | rfl
    · exact if_pos rfl
    · exact (if_neg other).trans (if_pos rfl)
  refine stream_relayed bareParse (fun _ => []) (Js.units "m") "node" (fun _ => ⟨9, 9⟩) []
    [bareChunk] (some outOfMemory) made inverts _ [] ?_
  rw [← List.flatMap_def, List.flatMap_singleton', List.append_nil]

end X402Mesh.NodeDaemon.Sse
