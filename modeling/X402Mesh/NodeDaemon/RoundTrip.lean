import X402Mesh.Lib.JsonText
import X402Mesh.NodeDaemon.Sse
import X402Mesh.NodeDaemon.Stream
import X402Mesh.Shared.Details

set_option autoImplicit false

namespace X402Mesh.NodeDaemon.Sse

open LineBreaks JsonText

-- The string that a decoder makes of some characters.
def unitsOf (cs : List Char) : Units := (Utf8.units cs).map Nat.toUInt16

section

variable {J : Type} (parse : Units → Option J) (label : String)

-- What was yielded, and what was thrown after that.
abbrev Yields (J : Type) := List J × Option Details.MeshError

def malformed (data : Units) : Details.MeshError :=
  ⟨"upstream_error", label ++ " sent a malformed SSE frame",
    some [(Js.units "frame", .string (data.take 200))]⟩

def parseFrame (data : Units) : Except Details.MeshError J :=
  match parse data with
  | some value => .ok value
  | none => .error (malformed label data)

def yieldAll : List SseEvent → Yields J
  | [] => ([], none)
  | event :: rest =>
    match parseFrame parse label event.data with
    | .ok value => (value :: (yieldAll rest).1, (yieldAll rest).2)
    | .error error => ([], some error)

def andThen (first more : Yields J) : Yields J :=
  match first.2 with
  | some error => (first.1, some error)
  | none => (first.1 ++ more.1, more.2)

def decodeFrom (decoder : Utf8.Decoder) (parser : SseParser) : List (List UInt8) → Yields J
  | bytes :: rest =>
    let decoded := decoder.decode bytes
    let pushed := parser.push (unitsOf decoded.2)
    andThen (yieldAll parse label pushed.1)
      (if pushed.2.finished then ([], none) else decodeFrom decoded.1 pushed.2 rest)
  | [] =>
    let tail := unitsOf decoder.broken
    let pushed := if tail.length > 0 then parser.push tail else ([], parser)
    andThen (yieldAll parse label pushed.1)
      (if pushed.2.finished then ([], none) else yieldAll parse label pushed.2.flush.1)

def iterateSseJson (chunks : List (List UInt8)) : Yields J :=
  decodeFrom parse label .init .fresh chunks

def texts (decoder : Utf8.Decoder) : List (List UInt8) → List Units
  | [] => []
  | bytes :: rest => unitsOf (decoder.decode bytes).2 :: texts (decoder.decode bytes).1 rest

theorem unitsOf_append (a b : List Char) : unitsOf (a ++ b) = unitsOf a ++ unitsOf b := by
  rw [unitsOf, Utf8.units_append, List.map_append]
  rfl

theorem flatten_texts (decoder : Utf8.Decoder) (chunks : List (List UInt8)) :
    (texts decoder chunks).flatten = unitsOf (decoder.decode chunks.flatten).2 := by
  induction chunks generalizing decoder with
  | nil => rfl
  | cons bytes rest ih =>
    rw [texts, List.flatten_cons, List.flatten_cons, ih, Utf8.Decoder.decode_append, unitsOf_append]

theorem yieldAll_append (a b : List SseEvent) :
    yieldAll parse label (a ++ b) = andThen (yieldAll parse label a) (yieldAll parse label b) := by
  induction a with
  | nil => rfl
  | cons event rest ih =>
    rw [List.cons_append, yieldAll, yieldAll, ih]
    cases parseFrame parse label event.data with
    | ok value =>
      cases thrown : (yieldAll parse label rest).2 <;> simp [andThen, thrown]
    | error error => rfl

theorem pushAll_finished {parser : SseParser} (done : parser.finished = true) (chunks : List Units) :
    parser.pushAll chunks = ([], parser) := by
  induction chunks with
  | nil => rfl
  | cons chunk rest ih =>
    have ignored : parser.push chunk = ([], parser) := by simp [SseParser.push, done]
    rw [SseParser.pushAll, ignored, ih]
    rfl

-- As soon as the sentinel is among the pieces the rest of them is not looked at.
theorem decodeFrom_eq (decoder : Utf8.Decoder) (parser : SseParser) (chunks : List (List UInt8))
    (going : parser.finished = false)
    (done : (parser.pushAll (texts decoder chunks)).2.finished = true) :
    decodeFrom parse label decoder parser chunks =
      yieldAll parse label (parser.pushAll (texts decoder chunks)).1 := by
  induction chunks generalizing decoder parser with
  | nil => simp [texts, SseParser.pushAll, going] at done
  | cons bytes rest ih =>
    rw [texts, SseParser.pushAll] at done ⊢
    rw [decodeFrom, yieldAll_append]
    simp only at done ⊢
    cases ended : (parser.push (unitsOf (decoder.decode bytes).2)).2.finished with
    | true =>
      rw [pushAll_finished ended]
      rfl
    | false =>
      rw [ih _ _ ended done]
      rfl

end

theorem units_printable {cs : List Char} (printable : Printable cs) :
    ∀ unit ∈ unitsOf cs, 32 ≤ unit.toNat := by
  intro unit member
  obtain ⟨n, listed, rfl⟩ := List.mem_map.mp member
  obtain ⟨c, inside, value⟩ := List.mem_flatMap.mp listed
  have low := printable c inside
  have range := Utf8.Decoder.scalar_range c
  rw [Nat.toUInt16, UInt16.toNat_ofNat']
  split at value
  next =>
    obtain rfl := List.mem_singleton.mp value
    omega
  next =>
    simp only [List.mem_cons, List.not_mem_nil, or_false] at value
    omega

-- A JSON text is an array when it starts with a bracket, and no value starts with a capital letter.
theorem text_ne_sentinel (v : Json) (rest : List Char) : v.text ≠ '[' :: 'D' :: rest := by
  intro same
  cases v with
  | null => simp [Json.text] at same
  | bool b => cases b <;> simp [Json.text] at same
  | string s => simp [Json.text, quote] at same
  | object members => simp [Json.text] at same
  | number n =>
    have numeric := JsNumber.text_numeric n '[' (by rw [Json.text] at same; simp [same])
    exact absurd numeric (by decide)
  | array items =>
    have inner : join (itemTexts items) ++ [']'] = 'D' :: rest := (List.cons.inj same).2
    cases items with
    | nil => simp [itemTexts, join] at inner
    | cons first more =>
      rw [itemTexts, join_cons] at inner
      obtain ⟨c, tail, front, shape, -⟩ := text_head first (follow (itemTexts more) ']' [])
      rw [front] at inner
      obtain rfl := (List.cons.inj inner).1
      cases first with
      | number n =>
        obtain ⟨d, digits, begins⟩ := List.exists_cons_of_ne_nil (JsNumber.text_ne_nil n)
        rw [Json.text, begins, List.cons_append] at front
        have numeric := JsNumber.text_numeric n d (by rw [begins]; exact List.mem_cons_self)
        rw [(List.cons.inj front).1] at numeric
        exact absurd numeric (by decide)
      | bool b => cases b <;> exact absurd shape (by decide)
      | null => exact absurd shape (by decide)
      | string s => exact absurd shape (by simp [Json.shape, shapeOf])
      | array items => exact absurd shape (by simp [Json.shape, shapeOf])
      | object members => exact absurd shape (by simp [Json.shape, shapeOf])

-- A unit that is no surrogate is a character of its own.
theorem unitsOf_plain {cs : List Char} {unit : UInt16} {rest : Units}
    (same : unitsOf cs = unit :: rest) (plain : unit.toNat < 0xD800) :
    ∃ c tail, cs = c :: tail ∧ c.toNat = unit.toNat ∧ unitsOf tail = rest := by
  cases cs with
  | nil => simp [unitsOf, Utf8.units] at same
  | cons c tail =>
    have range := Utf8.Decoder.scalar_range c
    rw [← List.singleton_append, unitsOf_append, unitsOf, Utf8.units, List.flatMap_singleton] at same
    split at same
    next low =>
      obtain ⟨first, later⟩ := List.cons.inj same
      refine ⟨c, tail, rfl, ?_, later⟩
      rw [← first, Nat.toUInt16, UInt16.toNat_ofNat']
      omega
    next =>
      obtain ⟨first, -⟩ := List.cons.inj same
      rw [← first, Nat.toUInt16, UInt16.toNat_ofNat'] at plain
      omega

theorem unitsOf_text_ne_done (v : Json) : unitsOf v.text ≠ units "[DONE]" := by
  intro same
  have sentinel : units "[DONE]" = 91 :: 68 :: [79, 78, 69, 93] := by decide
  rw [sentinel] at same
  obtain ⟨a, tail, shape, first, later⟩ := unitsOf_plain same (by decide)
  obtain ⟨b, rest, shape', second, -⟩ := unitsOf_plain later (by decide)
  obtain rfl : a = '[' := Char.toNat_inj.mp first
  obtain rfl : b = 'D' := Char.toNat_inj.mp second
  exact text_ne_sentinel v rest (shape.trans (by rw [shape']))

def dataFrame (data : Units) : Units := units "data: " ++ data

theorem emit_dataFrame {data : Units} (line : lf ∉ data) :
    emit (dataFrame data) =
      if data = units "[DONE]" then .done else .event ⟨data, none, none⟩ := by
  have front : units "data: " = [100, 97, 116, 97, 58, 32] := by decide
  have line : (10 : UInt16) ∉ data := line
  have free : lf ∉ dataFrame data := by simp [dataFrame, front, lf, line]
  have whole : lines lf (dataFrame data) = [dataFrame data] := List.splitOn_eq_singleton free
  have name : units "data" = [100, 97, 116, 97] := by decide
  have added : Fields.none.add (dataFrame data) = ⟨[data], none, none⟩ := by
    simp [Fields.add, Fields.none, dataFrame, front, name, colon, blank]
  rw [emit, whole, frameOf, List.foldl_cons, List.foldl_nil, added]
  simp

theorem text_free (v : Json) : lf ∉ unitsOf v.text ∧ cr ∉ unitsOf v.text := by
  have printable := units_printable (text_printable v)
  constructor
  next => exact fun member => absurd (printable lf member) (by decide)
  next => exact fun member => absurd (printable cr member) (by decide)

def eventOf (v : Json) : SseEvent := ⟨unitsOf v.text, none, none⟩

theorem emit_text (v : Json) : emit (dataFrame (unitsOf v.text)) = .event (eventOf v) := by
  rw [emit_dataFrame (text_free v).1, if_neg (unitsOf_text_ne_done v)]
  rfl

-- The frames of some values and the sentinel, as the parser gets to see them.
def framesOf (values : List Json) : List Units :=
  values.map (fun v => dataFrame (unitsOf v.text)) ++ [dataFrame (units "[DONE]")]

theorem dispatch_framesOf (values : List Json) :
    dispatch ((framesOf values).map emit) = (values.map eventOf, true) := by
  induction values with
  | nil =>
    have sentinel : emit (dataFrame (units "[DONE]")) = .done := by
      rw [emit_dataFrame (by decide), if_pos rfl]
    rw [framesOf, List.map_nil, List.nil_append, List.map_cons, sentinel]
    rfl
  | cons v rest ih =>
    rw [framesOf, List.map_cons, List.cons_append, List.map_cons, emit_text, dispatch]
    rw [framesOf] at ih
    rw [ih]
    rfl

-- Every write is encoded on its own.
def wire (response : SseResponse) : List UInt8 :=
  response.frames.flatMap fun frame => Utf8.encode frame.toList

-- The provider yields every value, each by its JSON text, and does not fail.
def completion (values : List Json) : ProviderStream :=
  ⟨values.map fun v => String.ofList v.text, none⟩

def written (values : List Json) : List Char :=
  values.flatMap (fun v => "data: ".toList ++ v.text ++ ['\n', '\n']) ++ "data: [DONE]\n\n".toList

theorem encode_append (a b : List Char) :
    Utf8.encode (a ++ b) = Utf8.encode a ++ Utf8.encode b := List.flatMap_append

theorem encode_flatMap {α : Type} (f : α → List Char) (l : List α) :
    Utf8.encode (l.flatMap f) = l.flatMap fun a => Utf8.encode (f a) := List.flatMap_assoc

theorem wire_completion (stringify : MeshErrorBody → String) (values : List Json) :
    wire (streamCompletion stringify (completion values)) = Utf8.encode (written values) := by
  have frame (v : Json) : (sseData (String.ofList v.text)).toList =
      "data: ".toList ++ v.text ++ ['\n', '\n'] := by
    have body : (String.ofList v.text).toList = v.text := String.toList_ofList
    rw [sseData, String.toList_append, String.toList_append, body]
    rfl
  have sentinel : (sseData sseDone).toList = "data: [DONE]\n\n".toList := by decide
  rw [written, encode_append, encode_flatMap]
  simp only [wire, streamCompletion, completion, List.flatMap_append, List.flatMap_map,
    List.flatMap_singleton, List.map_map, Function.comp_def, frame, sentinel]

theorem unitsOf_flatMap {α : Type} (f : α → List Char) (l : List α) :
    unitsOf (l.flatMap f) = l.flatMap fun a => unitsOf (f a) := by
  simp only [unitsOf, Utf8.units, List.flatMap_assoc, List.map_flatMap]

theorem unitsOf_written (values : List Json) :
    unitsOf (written values) = (framesOf values).flatMap (· ++ [lf, lf]) := by
  have front : unitsOf "data: ".toList = units "data: " := rfl
  have ends : unitsOf ['\n', '\n'] = [lf, lf] := by decide
  have sentinel : unitsOf "data: [DONE]\n\n".toList = dataFrame (units "[DONE]") ++ [lf, lf] := by
    decide
  rw [written, unitsOf_append, unitsOf_flatMap, framesOf, List.flatMap_append, List.flatMap_map,
    List.flatMap_singleton, sentinel]
  simp only [unitsOf_append, front, ends, dataFrame]

theorem text_written (values : List Json) (extra : List UInt8) :
    ∃ more, Utf8.text (Utf8.encode (written values) ++ extra) = written values ++ more := by
  have start : ∃ rest, written values = 'd' :: rest := by
    cases values with
    | nil => exact ⟨_, rfl⟩
    | cons v rest => exact ⟨_, rfl⟩
  obtain ⟨rest, begins⟩ := start
  refine ⟨((Utf8.Decoder.init.decode (Utf8.encode (written values))).1.decode extra).2, ?_⟩
  rw [Utf8.text_append, begins, Utf8.text_encode 'd' rest (by decide)]

theorem frames_free (values : List Json) :
    ∀ frame ∈ framesOf values, lf ∉ frame ∧ cr ∉ frame := by
  have front : units "data: " = [100, 97, 116, 97, 58, 32] := by decide
  intro frame member
  rcases List.mem_append.mp member with value | sentinel
  next =>
    obtain ⟨v, -, rfl⟩ := List.mem_map.mp value
    have free := text_free v
    constructor
    next =>
      have line : (10 : UInt16) ∉ unitsOf v.text := free.1
      simp [dataFrame, front, lf, line]
    next =>
      have line : (13 : UInt16) ∉ unitsOf v.text := free.2
      simp [dataFrame, front, cr, line]
  next =>
    obtain rfl := List.mem_singleton.mp sentinel
    decide

-- Whatever follows the sentinel, the frames in front of it are read and it ends the stream.
theorem dispatch_written (values : List Json) (more : Units) :
    dispatch ((cutAll lf (settled cr lf (unitsOf (written values) ++ more))).1.map emit) =
      (values.map eventOf, true) := by
  have free := frames_free values
  have plain : cr ∉ unitsOf (written values) := by
    rw [unitsOf_written]
    intro member
    obtain ⟨frame, listed, inside⟩ := List.mem_flatMap.mp member
    rcases List.mem_append.mp inside with body | ends
    · exact (free frame listed).2 body
    · exact absurd ends (by decide)
  have cutted := cutAll_frames lf fun frame listed => (free frame listed).1
  have settled_more : ∃ rest, settled cr lf (unitsOf (written values) ++ more) =
      (framesOf values).flatMap (· ++ [lf, lf]) ++ rest := by
    have settles := settled_plain cr lf plain
    cases more with
    | nil => exact ⟨[], by rw [List.append_nil, List.append_nil, settles, unitsOf_written]⟩
    | cons c rest =>
      have grown := settled_append cr_ne_lf (unitsOf (written values)) c rest
      rw [settles] at grown
      exact ⟨_, grown.trans (by rw [unitsOf_written])⟩
  obtain ⟨rest, settles⟩ := settled_more
  rw [settles, cutAll_append, cutted, List.map_append, dispatch_append, dispatch_framesOf]
  rfl

theorem yieldAll_values {parse : Units → Option Json} {label : String} {values : List Json}
    (inverts : ∀ v ∈ values, parse (unitsOf v.text) = some v) :
    yieldAll parse label (values.map eventOf) = (values, none) := by
  induction values with
  | nil => rfl
  | cons v rest ih =>
    have later := ih fun w member => inverts w (List.mem_cons_of_mem v member)
    have parsed : parseFrame parse label (eventOf v).data = .ok v := by
      rw [parseFrame, eventOf, inverts v List.mem_cons_self]
    rw [List.map_cons, yieldAll, parsed, later]

/-- What the daemon writes for some values is read back as those values, however the bytes are cut
and whatever comes after the sentinel. -/
theorem sse_round_trip (parse : Units → Option Json) (label : String)
    (stringify : MeshErrorBody → String) (values : List Json)
    (inverts : ∀ v ∈ values, parse (unitsOf v.text) = some v) (chunks : List (List UInt8))
    (extra : List UInt8)
    (pieces : chunks.flatten = wire (streamCompletion stringify (completion values)) ++ extra) :
    iterateSseJson parse label chunks = (values, none) := by
  obtain ⟨more, text⟩ := text_written values extra
  have whole : (texts .init chunks).flatten = unitsOf (written values) ++ unitsOf more := by
    rw [flatten_texts, pieces, wire_completion, ← unitsOf_append, ← text]
    rfl
  have told := (SseParser.pushAll_fresh (texts .init chunks)).told
  rw [whole, dispatch_written] at told
  have events := congrArg Prod.fst told
  have done := congrArg Prod.snd told
  have read := decodeFrom_eq parse label .init .fresh chunks rfl done.symm
  rw [iterateSseJson, read, ← events, yieldAll_values inverts]

def demoChunk : Json :=
  .object [(js "id", .string (js "chatcmpl-1")), (js "object", .string (js "chat.completion.chunk")),
    (js "choices", .array [.object [(js "index", .number (JsNumber.whole 0 (Nat.two_pow_pos 53))),
      (js "delta", .object [(js "content", .string (js "é\r\n[DONE]"))]),
      (js "finish_reason", .null)]])]

def demoParse (data : Units) : Option Json :=
  if data = unitsOf demoChunk.text then some demoChunk else none

-- Every byte comes on its own, and half a character behind the sentinel.
theorem sse_round_trip_bytewise :
    iterateSseJson demoParse "node"
      ((wire (streamCompletion demoStringify (completion [demoChunk]))).map (fun b => [b]) ++
        [[0xC3]]) = ([demoChunk], none) := by
  have parsed : ∀ v ∈ [demoChunk], demoParse (unitsOf v.text) = some v := by
    simp [demoParse]
  refine sse_round_trip demoParse "node" demoStringify [demoChunk] parsed _ [0xC3] ?_
  rw [List.flatten_append, List.flatten_singleton, ← List.flatMap_def, List.flatMap_singleton']

end X402Mesh.NodeDaemon.Sse
