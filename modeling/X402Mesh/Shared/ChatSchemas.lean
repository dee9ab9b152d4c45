import X402Mesh.Lib.Schema

set_option autoImplicit false

namespace X402Mesh.ChatSchemas

open Js Schema

def isInteger (x : ℚ) : Bool := x.den = 1

def isModelUnit (u : UInt16) : Bool :=
  (65 ≤ u && u ≤ 90) || (97 ≤ u && u ≤ 122) || (48 ≤ u && u ≤ 57) || u ∈ units "._:/-"

def modelIdSchema : Schema :=
  string fun text => text ≠ [] && text.length ≤ 200 && text.all isModelUnit

def roles : List Units := [units "system", units "user", units "assistant"]

def roleSchema : Schema := string fun text => text ∈ roles

def anyText : Schema := string fun _ => true

def nonEmptyText : Schema := string fun text => text ≠ []

def countSchema : Schema := number fun x => isInteger x && 0 ≤ x

def messageFields : List (Units × Schema) :=
  [(units "role", roleSchema), (units "content", anyText)]

def chatMessageSchema : Schema := object messageFields

def requestFields : List (Units × Schema) :=
  [(units "model", modelIdSchema),
    (units "messages", array (fun n => 1 ≤ n && n ≤ 512) chatMessageSchema),
    (units "stream", optional boolean),
    (units "max_tokens", optional (number fun x => isInteger x && 0 < x && x ≤ 1000000)),
    (units "temperature", optional (number fun x => 0 ≤ x && x ≤ 2)),
    (units "top_p", optional (number fun x => 0 ≤ x && x ≤ 1)),
    (units "stop", optional (array (fun n => n ≤ 4) anyText))]

def chatCompletionRequestSchema : Schema := object requestFields

def usageFields : List (Units × Schema) :=
  [(units "prompt_tokens", countSchema), (units "completion_tokens", countSchema),
    (units "total_tokens", countSchema)]

def chatCompletionUsageSchema : Schema := object usageFields

def choiceFields : List (Units × Schema) :=
  [(units "index", countSchema), (units "message", chatMessageSchema),
    (units "finish_reason", nullable anyText)]

def chatCompletionChoiceSchema : Schema := object choiceFields

def responseFields : List (Units × Schema) :=
  [(units "id", nonEmptyText), (units "object", string (· = units "chat.completion")),
    (units "created", countSchema), (units "model", nonEmptyText),
    (units "choices", array (fun _ => true) chatCompletionChoiceSchema),
    (units "usage", chatCompletionUsageSchema)]

def chatCompletionResponseSchema : Schema := object responseFields

def deltaFields : List (Units × Schema) :=
  [(units "role", optional roleSchema), (units "content", optional anyText)]

def chunkChoiceFields : List (Units × Schema) :=
  [(units "index", countSchema), (units "delta", object deltaFields),
    (units "finish_reason", nullable anyText)]

def chatCompletionChunkChoiceSchema : Schema := object chunkChoiceFields

def chunkFields : List (Units × Schema) :=
  [(units "id", nonEmptyText), (units "object", string (· = units "chat.completion.chunk")),
    (units "created", countSchema), (units "model", nonEmptyText),
    (units "choices", array (fun _ => true) chatCompletionChunkChoiceSchema)]

def chatCompletionChunkSchema : Schema := object chunkFields

theorem chatMessage_stable : Stable chatMessageSchema := by
  apply object_stable (by decide)
  simp [messageFields, roleSchema, anyText, string_stable]

theorem messageFields_keep : ∀ f ∈ messageFields, Keeps f.2 := by
  simp [messageFields, roleSchema, anyText, string_keeps]

theorem chatMessage_keeps : Keeps chatMessageSchema := object_keeps messageFields_keep

theorem request_stable : Stable chatCompletionRequestSchema := by
  apply object_stable (by decide)
  simp [requestFields, modelIdSchema, anyText, string_stable, optional_stable, array_stable,
    number_stable, boolean_stable, chatMessage_stable]

theorem requestFields_keep : ∀ f ∈ requestFields, Keeps f.2 := by
  simp [requestFields, modelIdSchema, anyText, string_keeps, optional_keeps, array_keeps,
    number_keeps, boolean_keeps, chatMessage_keeps]

theorem request_keeps : Keeps chatCompletionRequestSchema := object_keeps requestFields_keep

theorem usageFields_keep : ∀ f ∈ usageFields, Keeps f.2 := by
  simp [usageFields, countSchema, number_keeps]

theorem choiceFields_keep : ∀ f ∈ choiceFields, Keeps f.2 := by
  simp [choiceFields, countSchema, number_keeps, chatMessage_keeps, anyText, nullable_keeps,
    string_keeps]

theorem responseFields_keep : ∀ f ∈ responseFields, Keeps f.2 := by
  have usage : Keeps chatCompletionUsageSchema := object_keeps usageFields_keep
  have choice : Keeps chatCompletionChoiceSchema := object_keeps choiceFields_keep
  simp [responseFields, nonEmptyText, countSchema, string_keeps, number_keeps, array_keeps, usage,
    choice]

theorem deltaFields_keep : ∀ f ∈ deltaFields, Keeps f.2 := by
  simp [deltaFields, roleSchema, anyText, optional_keeps, string_keeps]

theorem chunkChoiceFields_keep : ∀ f ∈ chunkChoiceFields, Keeps f.2 := by
  have delta : Keeps (object deltaFields) := object_keeps deltaFields_keep
  simp [chunkChoiceFields, countSchema, number_keeps, delta, anyText, nullable_keeps,
    string_keeps]

theorem chunkFields_keep : ∀ f ∈ chunkFields, Keeps f.2 := by
  have choice : Keeps chatCompletionChunkChoiceSchema := object_keeps chunkChoiceFields_keep
  simp [chunkFields, nonEmptyText, countSchema, string_keeps, number_keeps, array_keeps, choice]

end X402Mesh.ChatSchemas
