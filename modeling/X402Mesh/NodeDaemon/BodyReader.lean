import X402Mesh.Gateway.Forward
import X402Mesh.Shared.Errors
import X402Mesh.Shared.Text

set_option autoImplicit false

namespace X402Mesh.NodeDaemon.Server

open Js

def maxBodyBytes : Nat := 1048576

inductive BodyEvent
  | data (chunk : List UInt8)
  | ended
  | failed (message : String)

structure BodyReader where
  chunks : List (List UInt8)
  size : Nat
  settled : Option (Except MeshError Value)
  listening : Bool

def refused (message : String) (details : List (String × String)) : Except MeshError Value :=
  .error ⟨.validation, message, details⟩

def tooLarge : Except MeshError Value :=
  refused "request body is too large" [("maxBytes", "1048576")]

def unreadable (message : String) : Except MeshError Value :=
  refused ("could not read request body: " ++ message) []

-- `Buffer.toString("utf8")` strips no byte order mark.
def toText (bytes : List UInt8) : List Char :=
  let decoded := ({ Utf8.Decoder.init with bomSeen := true } : Utf8.Decoder).decode bytes
  decoded.2 ++ decoded.1.broken

theorem toText_encode (cs : List Char) : toText (Utf8.encode cs) = cs := by
  have between : ({ Utf8.Decoder.init with bomSeen := true } : Utf8.Decoder).Between := ⟨rfl, rfl⟩
  have closed := (Utf8.Decoder.between_encode between cs).closed
  simp only [toText, Utf8.Decoder.decode_encode_between between, Utf8.Decoder.broken, closed,
    if_true, List.append_nil]

section parse

-- `JSON.parse`; none when it throws.
variable (parse : List Char → Option Value)

def parseBody (bytes : List UInt8) : Except MeshError Value :=
  let text := toText bytes
  if Text.trim text = [] then refused "request body is empty" []
  else
    match parse text with
    | some value => .ok value
    | none => refused "request body is not valid JSON" []

namespace BodyReader

def fresh : BodyReader := ⟨[], 0, none, true⟩

def fail (reader : BodyReader) (error : Except MeshError Value) : BodyReader :=
  if reader.settled.isSome then reader
  else { reader with settled := some error, listening := false }

def onData (reader : BodyReader) (chunk : List UInt8) : BodyReader :=
  let arrived := { reader with size := reader.size + chunk.length }
  if arrived.size > maxBodyBytes then arrived.fail tooLarge
  else { arrived with chunks := arrived.chunks ++ [chunk] }

def onEnd (reader : BodyReader) : BodyReader :=
  if reader.settled.isSome then reader
  else { reader with settled := some (parseBody parse reader.chunks.flatten) }

def on (reader : BodyReader) (event : BodyEvent) : BodyReader :=
  if reader.listening then
    match event with
    | .data chunk => reader.onData chunk
    | .ended => reader.onEnd parse
    | .failed message => reader.fail (unreadable message)
  else reader

def readJsonBody (events : List BodyEvent) : BodyReader := events.foldl (on parse) fresh

end BodyReader

namespace BodyReader

variable {parse}

theorem readJsonBody_append (events more : List BodyEvent) :
    readJsonBody parse (events ++ more) = more.foldl (on parse) (readJsonBody parse events) :=
  List.foldl_append

theorem on_settled {reader : BodyReader} {result : Except MeshError Value}
    (settled : reader.settled = some result) (event : BodyEvent) :
    (reader.on parse event).settled = some result := by
  unfold on
  split
  · cases event with
    | data chunk =>
      simp only [onData, fail]
      split
      · simp [settled]
      · exact settled
    | ended => simp [onEnd, settled]
    | failed => simp [fail, settled]
  · exact settled

theorem foldl_settled {reader : BodyReader} {result : Except MeshError Value}
    (settled : reader.settled = some result) (events : List BodyEvent) :
    (events.foldl (on parse) reader).settled = some result := by
  induction events generalizing reader with
  | nil => exact settled
  | cons event rest ih => exact ih (on_settled settled event)

/-- Nothing is kept beyond the limit, and as long as nothing is settled all that arrived is kept. -/
structure Within (reader : BodyReader) : Prop where
  kept : reader.chunks.flatten.length ≤ maxBodyBytes
  sized : reader.chunks.flatten.length ≤ reader.size
  whole : reader.settled = none → reader.listening = true ∧
    reader.size = reader.chunks.flatten.length

theorem fresh_within : fresh.Within := ⟨Nat.zero_le _, Nat.zero_le _, fun _ => ⟨rfl, rfl⟩⟩

-- Whatever settles, settles with what has been kept.
theorem Within.settle {reader after : BodyReader} (within : reader.Within)
    (chunks : after.chunks = reader.chunks) (size : reader.size ≤ after.size)
    (settled : after.settled ≠ none) : after.Within where
  kept := chunks ▸ within.kept
  sized := chunks ▸ Nat.le_trans within.sized size
  whole unsettled := absurd unsettled settled

theorem Within.onData {reader : BodyReader} (within : reader.Within)
    (listening : reader.listening = true) (chunk : List UInt8) : (reader.onData chunk).Within := by
  unfold BodyReader.onData
  simp only
  split
  next past =>
    unfold fail
    split
    next settled =>
      exact within.settle rfl (Nat.le_add_right ..) (Option.isSome_iff_ne_none.mp settled)
    next => exact within.settle rfl (Nat.le_add_right ..) nofun
  next fits =>
    have length : (reader.chunks ++ [chunk]).flatten.length =
        reader.chunks.flatten.length + chunk.length := by simp
    have sized := within.sized
    refine ⟨?_, ?_, fun unsettled => ⟨listening, ?_⟩⟩
    · simp only [length]
      omega
    · simp only [length]
      omega
    · simp only [length, (within.whole unsettled).2]

theorem Within.on {reader : BodyReader} (within : reader.Within) (event : BodyEvent) :
    (reader.on parse event).Within := by
  cases listening : reader.listening with
  | false => simpa [BodyReader.on, listening] using within
  | true =>
    simp only [BodyReader.on, listening, if_true]
    cases event with
    | data chunk => exact within.onData listening chunk
    | ended =>
      simp only [onEnd]
      split
      · exact within
      · exact within.settle rfl (Nat.le_refl _) nofun
    | failed message =>
      simp only [fail]
      split
      · exact within
      · exact within.settle rfl (Nat.le_refl _) nofun

theorem foldl_within {reader : BodyReader} (within : reader.Within) (events : List BodyEvent) :
    (events.foldl (BodyReader.on parse) reader).Within := by
  induction events generalizing reader with
  | nil => exact within
  | cons event rest ih => exact ih (within.on event)

-- Chunks alone settle nothing until they are past the limit.
theorem foldl_data {reader : BodyReader} (within : reader.Within)
    (unsettled : reader.settled = none) (chunks : List (List UInt8)) :
    (chunks.map .data).foldl (BodyReader.on parse) reader =
        { reader with
          chunks := reader.chunks ++ chunks
          size := reader.size + chunks.flatten.length } ∧
      reader.size + chunks.flatten.length ≤ maxBodyBytes ∨
    ((chunks.map .data).foldl (BodyReader.on parse) reader).settled = some tooLarge ∧
      maxBodyBytes < reader.size + chunks.flatten.length := by
  induction chunks generalizing reader with
  | nil =>
    obtain ⟨-, size⟩ := within.whole unsettled
    exact .inl ⟨by simp, by simpa [size] using within.kept⟩
  | cons chunk rest ih =>
    obtain ⟨listening, -⟩ := within.whole unsettled
    rw [List.map_cons, List.foldl_cons, List.flatten_cons, List.length_append]
    by_cases past : reader.size + chunk.length > maxBodyBytes
    · have refused : (reader.on parse (.data chunk)).settled = some tooLarge := by
        simp [BodyReader.on, listening, BodyReader.onData, past, fail, unsettled]
      exact .inr ⟨foldl_settled refused _, by omega⟩
    · have kept : reader.on parse (.data chunk) =
          { reader with
            chunks := reader.chunks ++ [chunk]
            size := reader.size + chunk.length } := by
        simp [BodyReader.on, listening, BodyReader.onData, past]
      have next := ih (@Within.on parse reader within (.data chunk))
        (by rw [kept]; exact unsettled)
      rw [kept] at next ⊢
      simpa [Nat.add_assoc] using next

end BodyReader

-- What becomes of a body, by its bytes and by how it ends.
def verdict (bytes : List UInt8) (last : BodyEvent) : Option (Except MeshError Value) :=
  if maxBodyBytes < bytes.length then some tooLarge
  else
    match last with
    | .data _ => none
    | .ended => some (parseBody parse bytes)
    | .failed message => some (unreadable message)

open BodyReader in
/-- A body is judged once, by its bytes and not by the chunks that they come in, and whatever
comes no more than the limit is kept. -/
theorem body_read (chunks : List (List UInt8)) (last : BodyEvent) (later : List BodyEvent)
    (result : Except MeshError Value)
    (judged : verdict parse chunks.flatten last = some result) :
    (readJsonBody parse (chunks.map .data ++ last :: later)).settled = some result ∧
      (readJsonBody parse (chunks.map .data ++ last :: later)).chunks.flatten.length ≤
        maxBodyBytes := by
  refine ⟨?_, (foldl_within fresh_within _).kept⟩
  rw [readJsonBody_append, List.foldl_cons]
  apply foldl_settled
  rcases @foldl_data parse _ fresh_within rfl chunks with
    ⟨kept, fits⟩ | ⟨refused, past⟩
  · have size : chunks.flatten.length ≤ maxBodyBytes := by simpa [fresh] using fits
    rw [readJsonBody, kept]
    rw [verdict.eq_def, if_neg (by omega)] at judged
    cases last with
    | data => cases judged
    | ended | failed =>
      simpa [BodyReader.on, onEnd, fail, fresh] using judged
  · have size : maxBodyBytes < chunks.flatten.length := by simpa [fresh] using past
    rw [verdict.eq_def, if_pos size] at judged
    rw [← judged]
    exact on_settled refused last

end parse

open ChatSchemas Gateway.Router in
/-- What the gateway accepts and forwards, a node reads and accepts as the same request, in whatever
chunks it comes. -/
theorem request_reaches_node (parse : List Char → Option Value) (stringify : Value → List Char)
    (blank : ∀ text, Text.trim text = [] → parse text = none)
    (body request : Value) (json : body.IsJson)
    (accepted : chatCompletionRequestSchema body = some request)
    (roundTrip : request.IsJson → parse (stringify request) = some request)
    (chunks : List (List UInt8))
    (sent : chunks.flatten = Utf8.encode (stringify (forwardBody request)))
    (fits : chunks.flatten.length ≤ maxBodyBytes) (later : List BodyEvent) :
    ∃ raw, (BodyReader.readJsonBody parse (chunks.map .data ++ .ended :: later)).settled =
        some (.ok raw) ∧
      chatCompletionRequestSchema raw = some request := by
  have same := forwardBody_accepted json accepted
  have readBack : parse (stringify request) = some request :=
    roundTrip (request_keeps.json json accepted)
  have solid : Text.trim (stringify request) ≠ [] := by
    intro empty
    simp [blank _ empty] at readBack
  refine ⟨request, (body_read parse chunks .ended later _ ?_).1, request_stable _ _ accepted⟩
  rw [verdict.eq_def, if_neg (by omega), sent, same]
  simp [parseBody, toText_encode, solid, readBack]

def demoMessage : Value :=
  .object [(units "role", .string (units "user")), (units "content", .string (units "hi"))]

def demoRequest : Value :=
  .object [(units "model", .string (units "llama3.1:8b")), (units "messages", .array [demoMessage]),
    (units "stream", .boolean true)]

-- The client also names a user.
def demoBody : Value :=
  .object [(units "stream", .boolean true), (units "user", .string (units "me")),
    (units "messages", .array [demoMessage]), (units "model", .string (units "llama3.1:8b"))]

def demoText : List Char :=
  ("\x7b\"model\":\"llama3.1:8b\",\"messages\":[\x7b\"role\":\"user\",\"content\":\"hi\"\x7d]," ++
    "\"stream\":true\x7d").toList

theorem request_reaches_node_halves :
    ∃ raw, (BodyReader.readJsonBody (fun text => if text = demoText then some demoRequest else none)
        [.data ((Utf8.encode demoText).take 40), .data ((Utf8.encode demoText).drop 40),
          .ended]).settled = some (.ok raw) ∧
      ChatSchemas.chatCompletionRequestSchema raw = some demoRequest := by
  have message : demoMessage.IsJson := .object (by simp [Value.IsJson.string])
  have json : demoBody.IsJson := by
    refine .object ?_
    simp only [List.forall_mem_cons, List.not_mem_nil, false_implies, implies_true, and_true]
    exact ⟨.boolean _, .string _, .array (by simpa using message), .string _⟩
  have both : [(Utf8.encode demoText).take 40, (Utf8.encode demoText).drop 40].flatten =
      Utf8.encode demoText := by
    rw [List.flatten_cons, List.flatten_singleton, List.take_append_drop]
  have solid : Text.trim demoText ≠ [] := by decide
  refine request_reaches_node (fun text => if text = demoText then some demoRequest else none)
    (fun _ => demoText) (fun text empty => ?_) demoBody demoRequest json rfl (fun _ => if_pos rfl)
    [(Utf8.encode demoText).take 40, (Utf8.encode demoText).drop 40] both ?_ []
  · refine if_neg ?_
    rintro rfl
    exact solid empty
  · rw [both]
    decide

end X402Mesh.NodeDaemon.Server
