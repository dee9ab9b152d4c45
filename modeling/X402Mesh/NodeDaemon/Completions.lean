import X402Mesh.NodeDaemon.Usage
import X402Mesh.Shared.ChatSchemas
import X402Mesh.Shared.Details
import X402Mesh.Shared.Text

set_option autoImplicit false

namespace X402Mesh.NodeDaemon.Completions

open Js Schema ChatSchemas Usage

def asNonEmptyString : Value → Option Units
  | .string text => if text.length > 0 then some text else none
  | _ => none

-- Date.now() / 1000
def asEpochSeconds (value : Value) (now : Nat) : Nat := (asCount value).getD (now / 1000)

def normalizeRole : Value → Units
  | .string text => if text = units "system" ∨ text = units "user" then text else units "assistant"
  | _ => units "assistant"

def textOr (value : Value) (other : Value) : Value :=
  match value with
  | .string text => .string text
  | _ => other

def countValue (n : Nat) : Value := .number (count n)

def normalizeChoice (index : Nat) (entry : Value) : Value :=
  let message := entry.field (units "message")
  .object [(units "index", countValue ((asCount (entry.field (units "index"))).getD index)),
    (units "message", .object
      [(units "role", .string (normalizeRole (message.field (units "role")))),
        (units "content", textOr (message.field (units "content")) (.string []))]),
    (units "finish_reason", textOr (entry.field (units "finish_reason")) .null)]

def itemsOf : Value → List Value
  | .array items => items
  | _ => []

def normalizeChoices (value : Value) : Value :=
  .array ((itemsOf value).mapIdx normalizeChoice)

-- A delta has only what the backend sent of it.
def normalizeDelta (rawDelta : Value) : Value :=
  let role := rawDelta.field (units "role")
  let content := rawDelta.field (units "content")
  .object
    ((match role with
      | .string _ => [(units "role", .string (normalizeRole role))]
      | _ => []) ++
      match content with
      | .string text => [(units "content", .string text)]
      | _ => [])

def normalizeChunkChoice (index : Nat) (entry : Value) : Value :=
  .object [(units "index", countValue ((asCount (entry.field (units "index"))).getD index)),
    (units "delta", normalizeDelta (entry.field (units "delta"))),
    (units "finish_reason", textOr (entry.field (units "finish_reason")) .null)]

def normalizeChunkChoices (value : Value) : Value :=
  .array ((itemsOf value).mapIdx normalizeChunkChoice)

def usageValue (usage : ChatCompletionUsage) : Value :=
  .object [(units "prompt_tokens", .number usage.promptTokens),
    (units "completion_tokens", .number usage.completionTokens),
    (units "total_tokens", .number usage.totalTokens)]

-- typeof value === "object" && value !== null
def isObject : Value → Bool
  | .object _ | .array _ | .error _ => true
  | _ => false

-- The clock is read for the id, then for the time of creation.
structure Readings where
  id : Nat
  created : Nat

def idOr (value : Value) (now : Nat) : Units :=
  (asNonEmptyString value).getD (units ("chatcmpl-" ++ Text.toString36 now))

def modelOr (value : Value) (requestedModel : Units) : Units :=
  (asNonEmptyString value).getD requestedModel

def completionCandidate (raw : Value) (requestedModel : Units) (now : Readings) : Value :=
  .object [(units "id", .string (idOr (raw.field (units "id")) now.id)),
    (units "object", .string (units "chat.completion")),
    (units "created", countValue (asEpochSeconds (raw.field (units "created")) now.created)),
    (units "model", .string (modelOr (raw.field (units "model")) requestedModel)),
    (units "choices", normalizeChoices (raw.field (units "choices"))),
    (units "usage", usageValue (normalizeUsage (raw.field (units "usage"))))]

def chunkCandidate (raw : Value) (requestedModel : Units) (now : Readings) : Value :=
  .object [(units "id", .string (idOr (raw.field (units "id")) now.id)),
    (units "object", .string (units "chat.completion.chunk")),
    (units "created", countValue (asEpochSeconds (raw.field (units "created")) now.created)),
    (units "model", .string (modelOr (raw.field (units "model")) requestedModel)),
    (units "choices", normalizeChunkChoices (raw.field (units "choices")))]

def upstreamError (label what : String) (details : List (Units × Value)) : Details.MeshError :=
  ⟨"upstream_error", label ++ what,
    some ((units "upstream", .string (units label)) :: details)⟩

def unusable (label what cause : String) : Details.MeshError :=
  upstreamError label what [(units "cause", .string (units cause))]

def normalizeCompletion (body : Value) (requestedModel : Units) (label : String) (now : Readings) :
    Except Details.MeshError Value :=
  if isObject body then
    match chatCompletionResponseSchema (completionCandidate body requestedModel now) with
    | some completion => .ok completion
    | none => .error
        (unusable label " returned an unusable completion" "invalid chat completion")
  else .error (upstreamError label " returned a completion that is not an object" [])

-- A failure that a backend reports in a frame of a stream.
def embedded (frame : Value) : Option Value :=
  match frame.field (units "error") with
  | .undefined | .null => none
  | error => some error

section stringify

-- `JSON.stringify`
variable (stringify : Value → Units)

def reported (label : String) (error : Value) : Details.MeshError :=
  upstreamError label " reported an error mid-stream"
    [(units "detail", match error with
      | .string text => .string text
      | error => .string ((stringify error).take 200))]

def normalizeChunk (frame : Value) (requestedModel : Units) (label : String) (now : Readings) :
    Except Details.MeshError Value :=
  if isObject frame then
    match embedded frame with
    | some error => .error (reported stringify label error)
    | none =>
      match chatCompletionChunkSchema (chunkCandidate frame requestedModel now) with
      | some chunk => .ok chunk
      | none => .error
          (unusable label " sent an unusable stream frame" "invalid chat completion chunk")
  else .error (upstreamError label " sent a stream frame that is not an object" [])

end stringify

theorem count_accepted (n : Nat) : countSchema (countValue n) = some (countValue n) := by
  simp [countSchema, number, countValue, count, isInteger]

theorem countSchema_inv {v w : Value} (accepted : countSchema v = some w) :
    ∃ n, asCount v = some n ∧ v = countValue n := by
  unfold countSchema number at accepted
  split at accepted
  next x =>
    obtain ⟨good, -⟩ := Option.ite_none_right_eq_some.mp accepted
    rw [Bool.and_eq_true, isInteger, decide_eq_true_eq, decide_eq_true_eq] at good
    have counted : asCount (.number (.finite x)) = some x.num.toNat :=
      if_pos ⟨good.1, Rat.num_nonneg.mpr good.2⟩
    exact ⟨_, counted, asCount_eq_some.mp counted⟩
  next => cases accepted

theorem asCount_kept {v w : Value} (accepted : countSchema v = some w) (other : Nat) :
    countValue ((asCount v).getD other) = v := by
  obtain ⟨n, counted, same⟩ := countSchema_inv accepted
  rw [counted, Option.getD_some, same]

theorem string_inv {ok : Units → Bool} {v w : Value} (accepted : string ok v = some w) :
    ∃ text, v = .string text ∧ ok text = true := by
  cases v <;> simp only [string, reduceCtorEq] at accepted
  next text => exact ⟨text, rfl, (Option.ite_none_right_eq_some.mp accepted).1⟩

theorem nonEmpty_kept {v w : Value} (accepted : nonEmptyText v = some w) (other : Units) :
    .string ((asNonEmptyString v).getD other) = v := by
  obtain ⟨text, rfl, some⟩ := string_inv accepted
  have long : text.length > 0 := List.length_pos_iff.mpr (of_decide_eq_true some)
  simp [asNonEmptyString, long]

theorem textOr_defined (v : Value) {other : Value} (defined : other.isUndefined = false) :
    (textOr v other).isUndefined = false := by
  unfold textOr
  split
  · rfl
  · exact defined

theorem textOr_kept {v w : Value} (accepted : anyText v = some w) (other : Value) :
    textOr v other = v := by
  obtain ⟨text, rfl, -⟩ := string_inv accepted
  rfl

theorem finish_kept {v w : Value} (accepted : nullable anyText v = some w) :
    textOr v .null = v := by
  unfold nullable at accepted
  split at accepted
  next => rfl
  next => exact textOr_kept accepted .null

theorem normalizeRole_kept {v w : Value} (accepted : roleSchema v = some w) :
    .string (normalizeRole v) = v := by
  obtain ⟨text, rfl, listed⟩ := string_inv accepted
  have one : text ∈ roles := of_decide_eq_true listed
  simp only [roles, List.mem_cons, List.not_mem_nil, or_false] at one
  rcases one with rfl | rfl | rfl <;> simp [normalizeRole]

section

variable {v w : Value}

theorem field_json (json : v.IsJson) {name : Units} (defined : (v.field name).isUndefined = false) :
    (v.field name).IsJson := by
  cases json with
  | object each => exact (plain_field each name).json defined
  | _ => cases defined

theorem json_of_object {fields : List (Units × Schema)} (json : v.IsJson) {name : Units} {x : Value}
    (accepted : object fields (v.field name) = some x) : (v.field name).IsJson := by
  refine field_json json ?_
  obtain ⟨members, parsed, same, -⟩ := object_eq_some.mp accepted
  rw [same]
  rfl

theorem normalizeChoice_kept (json : v.IsJson) (accepted : chatCompletionChoiceSchema v = some w)
    (index : Nat) : chatCompletionChoiceSchema (normalizeChoice index v) = some w := by
  refine object_refilled (by decide) choiceFields_keep json accepted
    (.cons ⟨rfl, rfl, fun x came => ?_⟩ (.cons ⟨rfl, rfl, fun x came => ?_⟩
      (.cons ⟨rfl, textOr_defined _ rfl, fun x came => ?_⟩ .nil)))
  · exact (asCount_kept came index).symm ▸ came
  · refine object_refilled (by decide) messageFields_keep (json_of_object json came) came
      (.cons ⟨rfl, rfl, fun y own => ?_⟩ (.cons ⟨rfl, textOr_defined _ rfl, fun y own => ?_⟩ .nil))
    · exact (normalizeRole_kept own).symm ▸ own
    · exact (textOr_kept own (.string [])).symm ▸ own
  · exact (finish_kept came).symm ▸ came

theorem usage_told (accepted : chatCompletionUsageSchema v = some w) (name : Units)
    (member : (name, countSchema) ∈ usageFields) :
    ∃ n, asCount (v.field name) = some n ∧ v.field name = countValue n := by
  obtain ⟨members, parsed, rfl, shaped, -⟩ := object_eq_some.mp accepted
  obtain ⟨p, -, -, came⟩ := shape_member shaped member
  exact countSchema_inv came

theorem normalizeUsage_kept (json : v.IsJson) (accepted : chatCompletionUsageSchema v = some w) :
    chatCompletionUsageSchema (usageValue (normalizeUsage v)) = some w := by
  obtain ⟨p, prompt, samePrompt⟩ := usage_told accepted (units "prompt_tokens")
    (by simp [usageFields])
  obtain ⟨c, completion, sameCompletion⟩ := usage_told accepted (units "completion_tokens")
    (by simp [usageFields])
  obtain ⟨t, total, sameTotal⟩ := usage_told accepted (units "total_tokens")
    (by simp [usageFields])
  have filled : normalizeUsage v = ⟨count p, count c, count t⟩ := by
    simp [normalizeUsage, prompt, completion, total]
  rw [filled]
  refine object_refilled (by decide) usageFields_keep json accepted
    (.cons ⟨rfl, rfl, fun x came => ?_⟩ (.cons ⟨rfl, rfl, fun x came => ?_⟩
      (.cons ⟨rfl, rfl, fun x came => ?_⟩ .nil)))
  · exact (congrArg countSchema samePrompt).symm.trans came
  · exact (congrArg countSchema sameCompletion).symm.trans came
  · exact (congrArg countSchema sameTotal).symm.trans came

theorem items_kept {schema : Schema} {f : Nat → Value → Value}
    (kept : ∀ i v w, v.IsJson → schema v = some w → schema (f i v) = some w) (json : v.IsJson)
    (accepted : array (fun _ => true) schema v = some w) :
    array (fun _ => true) schema (.array ((itemsOf v).mapIdx f)) = some w := by
  cases json with
  | array each =>
    obtain ⟨parsed, mapped, rfl⟩ := Option.map_eq_some_iff.mp accepted
    have again := mapM_mapIdx (f := f) mapped fun i v member w came =>
      kept i v w (each v member) came
    simp [itemsOf, array, again]
  | _ => cases accepted

theorem json_of_array {schema : Schema} (json : v.IsJson) {name : Units} {x : Value}
    (accepted : array (fun _ => true) schema (v.field name) = some x) :
    (v.field name).IsJson := by
  refine field_json json ?_
  cases items : v.field name with
  | undefined => simp [items, array] at accepted
  | _ => rfl

theorem completionCandidate_kept (json : v.IsJson)
    (accepted : chatCompletionResponseSchema v = some w) (requestedModel : Units) (now : Readings) :
    chatCompletionResponseSchema (completionCandidate v requestedModel now) = some w := by
  refine object_refilled (by decide) responseFields_keep json accepted
    (.cons ⟨rfl, rfl, fun x came => ?_⟩ (.cons ⟨rfl, rfl, fun x came => ?_⟩
      (.cons ⟨rfl, rfl, fun x came => ?_⟩ (.cons ⟨rfl, rfl, fun x came => ?_⟩
        (.cons ⟨rfl, rfl, fun x came => ?_⟩ (.cons ⟨rfl, rfl, fun x came => ?_⟩ .nil))))))
  · exact (nonEmpty_kept came _).symm ▸ came
  · obtain ⟨text, same, exact⟩ := string_inv came
    obtain rfl : text = units "chat.completion" := of_decide_eq_true exact
    exact same ▸ came
  · exact (asCount_kept came _).symm ▸ came
  · exact (nonEmpty_kept came _).symm ▸ came
  · exact items_kept (fun i v w json came => normalizeChoice_kept json came i)
      (json_of_array json came) came
  · exact normalizeUsage_kept (json_of_object json came) came

theorem text_accepted (v : Value) :
    anyText (textOr v (.string [])) = some (textOr v (.string [])) := by
  unfold textOr
  split <;> rfl

theorem finish_accepted (v : Value) :
    nullable anyText (textOr v .null) = some (textOr v .null) := by
  unfold textOr
  split <;> rfl

theorem role_accepted (v : Value) :
    roleSchema (.string (normalizeRole v)) = some (.string (normalizeRole v)) := by
  have listed : normalizeRole v ∈ roles := by
    unfold normalizeRole
    split
    · split
      next one => rcases one with rfl | rfl <;> simp [roles]
      next => simp [roles]
    · simp [roles]
  simp [roleSchema, string, listed]

theorem normalizeChoice_accepted (index : Nat) (entry : Value) :
    chatCompletionChoiceSchema (normalizeChoice index entry) =
      some (normalizeChoice index entry) := by
  refine object_accepts (by decide)
    (.cons ⟨rfl, rfl, count_accepted _⟩ (.cons ⟨rfl, rfl, ?_⟩
      (.cons ⟨rfl, textOr_defined _ rfl, finish_accepted _⟩ .nil)))
  exact object_accepts (by decide) (.cons ⟨rfl, rfl, role_accepted _⟩
    (.cons ⟨rfl, textOr_defined _ rfl, text_accepted _⟩ .nil))

-- No total is told, and the sum of what is told is no double.
def Overflows (usage : Value) : Prop :=
  asCount (usage.field (units "total_tokens")) = none ∧
    tooLarge ≤ JsNumber.round ((asCount (usage.field (units "prompt_tokens"))).getD 0 +
      (asCount (usage.field (units "completion_tokens"))).getD 0)

theorem normalizeUsage_counts (usage : Value) : ∃ p c, ∃ total : Number,
    normalizeUsage usage = ⟨count p, count c, total⟩ ∧
      (Overflows usage ∧ total = .infinite false ∨ ¬ Overflows usage ∧ ∃ t, total = count t) := by
  cases total : asCount (usage.field (units "total_tokens")) with
  | some t =>
    have fine : ¬ Overflows usage := fun exceeds => nomatch total.symm.trans exceeds.1
    rw [normalizeUsage_filled total]
    cases asCount (usage.field (units "prompt_tokens")) <;>
      cases asCount (usage.field (units "completion_tokens")) <;>
        exact ⟨_, _, _, rfl, .inr ⟨fine, t, rfl⟩⟩
  | none =>
    rw [normalizeUsage_summed total]
    refine ⟨_, _, _, rfl, ?_⟩
    unfold plus
    simp only
    split
    next small => exact .inr ⟨fun exceeds => Nat.not_le.mpr small exceeds.2, _, rfl⟩
    next large => exact .inl ⟨⟨total, Nat.not_lt.mp large⟩, rfl⟩

theorem usage_accepted {usage : Value} (fine : ¬ Overflows usage) :
    chatCompletionUsageSchema (usageValue (normalizeUsage usage)) =
      some (usageValue (normalizeUsage usage)) := by
  obtain ⟨p, c, total, filled, exceeds | ⟨-, t, rfl⟩⟩ := normalizeUsage_counts usage
  · exact absurd exceeds.1 fine
  · rw [filled]
    exact object_accepts (by decide) (.cons ⟨rfl, rfl, count_accepted p⟩
      (.cons ⟨rfl, rfl, count_accepted c⟩ (.cons ⟨rfl, rfl, count_accepted t⟩ .nil)))

theorem usage_refused {usage : Value} (exceeds : Overflows usage) :
    chatCompletionUsageSchema (usageValue (normalizeUsage usage)) = none := by
  obtain ⟨p, c, total, filled, ⟨-, rfl⟩ | fine⟩ := normalizeUsage_counts usage
  · rw [filled, Option.eq_none_iff_forall_ne_some]
    intro w accepted
    obtain ⟨n, counted, -⟩ := usage_told accepted (units "total_tokens")
      (by simp [usageFields])
    cases counted
  · exact absurd exceeds fine.1

variable {requestedModel : Units}

theorem nonEmptyOr_some {other : Units} (some : other ≠ []) (value : Value) :
    (asNonEmptyString value).getD other ≠ [] := by
  unfold asNonEmptyString
  split
  next text =>
    split
    next long => exact List.length_pos_iff.mp long
    next => exact some
  next => exact some

theorem idOr_some (value : Value) (now : Nat) : idOr value now ≠ [] := by
  refine nonEmptyOr_some ?_ value
  have parts : units ("chatcmpl-" ++ Text.toString36 now) =
      units "chatcmpl-" ++ units (Text.toString36 now) := by
    simp only [units, String.toList_append, Utf8.units_append, List.map_append]
  have front : units "chatcmpl-" ≠ [] := by decide
  simp [parts, front]

theorem items_accepted {schema : Schema} {f : Nat → Value → Value}
    (each : ∀ i entry, schema (f i entry) = some (f i entry)) (value : Value) :
    array (fun _ => true) schema (.array ((itemsOf value).mapIdx f)) =
      some (.array ((itemsOf value).mapIdx f)) := by
  have all : ∀ item ∈ (itemsOf value).mapIdx f, schema item = some item := by
    intro item member
    obtain ⟨i, below, rfl⟩ := List.mem_mapIdx.mp member
    exact each i _
  simp [array, mapM_accepts all]

theorem completionCandidate_accepted (body : Value) (named : requestedModel ≠ []) (now : Readings)
    (fine : ¬ Overflows (body.field (units "usage"))) :
    chatCompletionResponseSchema (completionCandidate body requestedModel now) =
      some (completionCandidate body requestedModel now) := by
  have choices := items_accepted normalizeChoice_accepted (body.field (units "choices"))
  refine object_accepts (by decide) (.cons ⟨rfl, rfl, ?_⟩ (.cons ⟨rfl, rfl, rfl⟩
    (.cons ⟨rfl, rfl, count_accepted _⟩ (.cons ⟨rfl, rfl, ?_⟩ (.cons ⟨rfl, rfl, choices⟩
      (.cons ⟨rfl, rfl, usage_accepted fine⟩ .nil))))))
  · simp [nonEmptyText, string, idOr_some]
  · simp [nonEmptyText, string, modelOr, nonEmptyOr_some named]

theorem completionCandidate_refused (body : Value) (now : Readings)
    (exceeds : Overflows (body.field (units "usage"))) :
    chatCompletionResponseSchema (completionCandidate body requestedModel now) = none := by
  rw [Option.eq_none_iff_forall_ne_some]
  intro w accepted
  obtain ⟨members, parsed, same, shaped, -⟩ := object_eq_some.mp accepted
  obtain ⟨p, -, -, came⟩ := shape_member shaped (f := (units "usage", chatCompletionUsageSchema))
    (by simp [responseFields])
  rw [← same] at came
  have field : (completionCandidate body requestedModel now).field (units "usage") =
      usageValue (normalizeUsage (body.field (units "usage"))) := rfl
  simp only [field, usage_refused exceeds, reduceCtorEq] at came

theorem normalizeChoices_json (value : Value) : (normalizeChoices value).IsJson := by
  have text (v : Value) {other : Value} (json : other.IsJson) : (textOr v other).IsJson := by
    unfold textOr
    split
    · exact .string _
    · exact json
  refine .array fun choice member => ?_
  obtain ⟨i, below, rfl⟩ := List.mem_mapIdx.mp member
  refine .object ?_
  simp only [List.forall_mem_cons, List.not_mem_nil, false_implies, implies_true, and_true]
  refine ⟨.number _, .object ?_, text _ .null⟩
  simp only [List.forall_mem_cons, List.not_mem_nil, false_implies, implies_true, and_true]
  exact ⟨.string _, text _ (.string [])⟩

theorem completionCandidate_json (body : Value) (now : Readings)
    (fine : ¬ Overflows (body.field (units "usage"))) :
    (completionCandidate body requestedModel now).IsJson := by
  obtain ⟨p, c, total, filled, exceeds | ⟨-, t, rfl⟩⟩ :=
    normalizeUsage_counts (body.field (units "usage"))
  · exact absurd exceeds.1 fine
  · refine .object ?_
    simp only [List.forall_mem_cons, List.not_mem_nil, false_implies, implies_true, and_true]
    refine ⟨.string _, .string _, .number _, .string _, normalizeChoices_json _, ?_⟩
    rw [filled]
    refine .object ?_
    simp only [List.forall_mem_cons, List.not_mem_nil, false_implies, implies_true, and_true]
    exact ⟨.number _, .number _, .number _⟩

variable {label : String} {now : Readings}

theorem normalizeCompletion_of_valid (json : v.IsJson)
    (accepted : chatCompletionResponseSchema v = some w) :
    normalizeCompletion v requestedModel label now = .ok w := by
  obtain ⟨members, parsed, rfl, -⟩ := object_eq_some.mp accepted
  simp [normalizeCompletion, isObject, completionCandidate_kept json accepted]

theorem normalizeCompletion_eq_ok (named : requestedModel ≠ []) :
    normalizeCompletion v requestedModel label now = .ok w ↔
      isObject v = true ∧ ¬ Overflows (v.field (units "usage")) ∧
        w = completionCandidate v requestedModel now := by
  unfold normalizeCompletion
  cases object : isObject v with
  | false => simp
  | true =>
    by_cases exceeds : Overflows (v.field (units "usage"))
    · simp [completionCandidate_refused v now exceeds, exceeds]
    · simp [completionCandidate_accepted v named now exceeds, exceeds, eq_comm]

/-- A completion that is in order is left as it is, whatever comes out is in order, and something
comes out of every object whose token counts add up to a double. -/
theorem normalizeCompletion_repairs (body : Value) (json : body.IsJson) (requestedModel : Units)
    (named : requestedModel ≠ []) (label : String) (now : Readings) :
    (∀ w, chatCompletionResponseSchema body = some w →
      normalizeCompletion body requestedModel label now = .ok w) ∧
    (∀ w, normalizeCompletion body requestedModel label now = .ok w →
      chatCompletionResponseSchema w = some w ∧
        ∀ (requestedModel' : Units) (label' : String) (now' : Readings),
          normalizeCompletion w requestedModel' label' now' = .ok w) ∧
    ((∃ w, normalizeCompletion body requestedModel label now = .ok w) ↔
      isObject body = true ∧ ¬ Overflows (body.field (units "usage"))) := by
  refine ⟨fun w accepted => normalizeCompletion_of_valid json accepted, fun w made => ?_, ?_⟩
  · obtain ⟨-, fine, rfl⟩ := (normalizeCompletion_eq_ok named).mp made
    have accepted := completionCandidate_accepted body named now fine
    exact ⟨accepted, fun _ _ _ =>
      normalizeCompletion_of_valid (completionCandidate_json body now fine) accepted⟩
  · constructor
    · rintro ⟨w, made⟩
      obtain ⟨object, fine, -⟩ := (normalizeCompletion_eq_ok named).mp made
      exact ⟨object, fine⟩
    · rintro ⟨object, fine⟩
      exact ⟨_, (normalizeCompletion_eq_ok named).mpr ⟨object, fine, rfl⟩⟩

-- A turn that only calls a tool, of a backend that counts nothing.
def toolTurn : Value :=
  .object [(units "id", .string (units "chatcmpl-7")), (units "model", .string []),
    (units "choices", .array [.object [(units "message", .object
      [(units "role", .string (units "tool")), (units "content", .null)])]])]

theorem normalizeCompletion_repairs_toolTurn :
    ∃ w, normalizeCompletion toolTurn (units "llama3.1:8b") "ollama" ⟨0, 1000⟩ = .ok w := by
  have message : Value.IsJson (.object [(units "role", .string (units "tool")),
      (units "content", .null)]) := .object (by simp [Value.IsJson.string, Value.IsJson.null])
  have choice : Value.IsJson (.object [(units "message", .object
      [(units "role", .string (units "tool")), (units "content", .null)])]) :=
    .object (by simpa using message)
  have json : toolTurn.IsJson := by
    refine .object ?_
    simp only [List.forall_mem_cons, List.not_mem_nil, false_implies, implies_true, and_true]
    exact ⟨.string _, .string _, .array (by simpa using choice)⟩
  have fine : ¬ Overflows (toolTurn.field (units "usage")) := by
    intro exceeds
    have zero : IsDouble 0 := small_double (by decide)
    have large : tooLarge ≤ JsNumber.round 0 := exceeds.2
    rw [zero.1] at large
    exact Nat.not_le.mpr zero.2 large
  exact (normalizeCompletion_repairs toolTurn json (units "llama3.1:8b") (by decide) "ollama"
    ⟨0, 1000⟩).2.2.mpr ⟨rfl, fine⟩

variable {stringify : Value → Units}

theorem normalizeDelta_role (v : Value) : (normalizeDelta v).field (units "role") =
    match v.field (units "role") with
    | .string text => .string (normalizeRole (.string text))
    | _ => .undefined := by
  unfold normalizeDelta
  cases v.field (units "role") <;> cases v.field (units "content") <;> rfl

theorem normalizeDelta_content (v : Value) : (normalizeDelta v).field (units "content") =
    match v.field (units "content") with
    | .string text => .string text
    | _ => .undefined := by
  unfold normalizeDelta
  cases v.field (units "role") <;> cases v.field (units "content") <;> rfl

theorem normalizeDelta_clean (v : Value) : ∃ members, normalizeDelta v = .object members ∧
    Clean members := by
  refine ⟨_, rfl, fun m member => ?_⟩
  rcases List.mem_append.mp member with role | content
  · split at role
    · obtain rfl := List.mem_singleton.mp role
      rfl
    · cases role
  · split at content
    · obtain rfl := List.mem_singleton.mp content
      rfl
    · cases content

-- What is optional came as a text or not at all.
theorem optional_string_inv {ok : Units → Bool} {x : Value}
    (accepted : Schema.optional (string ok) v = some x) :
    v = .undefined ∨ ∃ text, v = .string text ∧ string ok v = some x := by
  unfold Schema.optional at accepted
  split at accepted
  next => exact .inl rfl
  next =>
    obtain ⟨text, rfl, -⟩ := string_inv accepted
    exact .inr ⟨text, rfl, accepted⟩

theorem normalizeDelta_kept (json : v.IsJson) (accepted : object deltaFields v = some w) :
    object deltaFields (normalizeDelta v) = some w := by
  obtain ⟨members, parsed, rfl, shaped, -⟩ := object_eq_some.mp accepted
  obtain ⟨others, same, clean⟩ := normalizeDelta_clean (.object members)
  have each : ∀ m ∈ members, m.2.IsJson := by
    cases json with
    | object each => exact each
  rw [← accepted, same]
  refine object_agree deltaFields_keep (clean_of_json each) clean ?_
  rw [← same]
  simp only [deltaFields, List.forall_mem_cons, List.not_mem_nil, false_implies, implies_true,
    and_true]
  constructor
  · obtain ⟨p, -, -, came⟩ := shape_member shaped (f := (units "role", optional roleSchema))
      (by simp [deltaFields])
    rw [normalizeDelta_role]
    rcases optional_string_inv came with absent | ⟨text, told, own⟩
    · rw [absent]
    · rw [told] at own ⊢
      exact congrArg _ (normalizeRole_kept own)
  · obtain ⟨p, -, -, came⟩ := shape_member shaped (f := (units "content", optional anyText))
      (by simp [deltaFields])
    rw [normalizeDelta_content]
    rcases optional_string_inv came with absent | ⟨text, told, -⟩
    · rw [absent]
    · rw [told]

theorem normalizeDelta_accepted (v : Value) :
    object deltaFields (normalizeDelta v) = some (normalizeDelta v) := by
  have role (v : Value) : Schema.optional roleSchema (.string (normalizeRole v)) =
      some (.string (normalizeRole v)) := role_accepted v
  unfold normalizeDelta
  simp only
  split <;> split
  next =>
    exact object_accepts (by decide) (.cons ⟨rfl, rfl, role _⟩ (.cons ⟨rfl, rfl, rfl⟩ .nil))
  next =>
    exact object_eq_some.mpr ⟨_, [(units "role", _), (units "content", .undefined)], rfl,
      shape_eq_some.mpr (.cons ⟨rfl, role _⟩ (.cons ⟨rfl, rfl⟩ .nil)), rfl⟩
  next =>
    exact object_eq_some.mpr ⟨_, [(units "role", .undefined), (units "content", _)], rfl,
      shape_eq_some.mpr (.cons ⟨rfl, rfl⟩ (.cons ⟨rfl, rfl⟩ .nil)), rfl⟩
  next =>
    exact object_eq_some.mpr ⟨_, [(units "role", .undefined), (units "content", .undefined)], rfl,
      shape_eq_some.mpr (.cons ⟨rfl, rfl⟩ (.cons ⟨rfl, rfl⟩ .nil)), rfl⟩

theorem normalizeChunkChoice_kept (json : v.IsJson)
    (accepted : chatCompletionChunkChoiceSchema v = some w) (index : Nat) :
    chatCompletionChunkChoiceSchema (normalizeChunkChoice index v) = some w := by
  refine object_refilled (by decide) chunkChoiceFields_keep json accepted
    (.cons ⟨rfl, rfl, fun x came => ?_⟩ (.cons ⟨rfl, rfl, fun x came => ?_⟩
      (.cons ⟨rfl, textOr_defined _ rfl, fun x came => ?_⟩ .nil)))
  · exact (asCount_kept came index).symm ▸ came
  · exact normalizeDelta_kept (json_of_object json came) came
  · exact (finish_kept came).symm ▸ came

theorem normalizeChunkChoice_accepted (index : Nat) (entry : Value) :
    chatCompletionChunkChoiceSchema (normalizeChunkChoice index entry) =
      some (normalizeChunkChoice index entry) :=
  object_accepts (by decide) (.cons ⟨rfl, rfl, count_accepted _⟩
    (.cons ⟨rfl, rfl, normalizeDelta_accepted _⟩
      (.cons ⟨rfl, textOr_defined _ rfl, finish_accepted _⟩ .nil)))

theorem chunkCandidate_kept (json : v.IsJson) (accepted : chatCompletionChunkSchema v = some w)
    (requestedModel : Units) (now : Readings) :
    chatCompletionChunkSchema (chunkCandidate v requestedModel now) = some w := by
  refine object_refilled (by decide) chunkFields_keep json accepted
    (.cons ⟨rfl, rfl, fun x came => ?_⟩ (.cons ⟨rfl, rfl, fun x came => ?_⟩
      (.cons ⟨rfl, rfl, fun x came => ?_⟩ (.cons ⟨rfl, rfl, fun x came => ?_⟩
        (.cons ⟨rfl, rfl, fun x came => ?_⟩ .nil)))))
  · exact (nonEmpty_kept came _).symm ▸ came
  · obtain ⟨text, same, exact⟩ := string_inv came
    obtain rfl : text = units "chat.completion.chunk" := of_decide_eq_true exact
    exact same ▸ came
  · exact (asCount_kept came _).symm ▸ came
  · exact (nonEmpty_kept came _).symm ▸ came
  · exact items_kept (fun i v w json came => normalizeChunkChoice_kept json came i)
      (json_of_array json came) came

theorem chunkCandidate_accepted (frame : Value) (named : requestedModel ≠ []) (now : Readings) :
    chatCompletionChunkSchema (chunkCandidate frame requestedModel now) =
      some (chunkCandidate frame requestedModel now) := by
  have choices := items_accepted normalizeChunkChoice_accepted (frame.field (units "choices"))
  refine object_accepts (by decide) (.cons ⟨rfl, rfl, ?_⟩ (.cons ⟨rfl, rfl, rfl⟩
    (.cons ⟨rfl, rfl, count_accepted _⟩ (.cons ⟨rfl, rfl, ?_⟩ (.cons ⟨rfl, rfl, choices⟩ .nil)))))
  · simp [nonEmptyText, string, idOr_some]
  · simp [nonEmptyText, string, modelOr, nonEmptyOr_some named]

theorem normalizeChunk_of_valid (json : v.IsJson) (accepted : chatCompletionChunkSchema v = some w)
    (fine : embedded v = none) :
    normalizeChunk stringify v requestedModel label now = .ok w := by
  obtain ⟨members, parsed, rfl, -⟩ := object_eq_some.mp accepted
  simp [normalizeChunk, isObject, fine, chunkCandidate_kept json accepted]

theorem normalizeChunk_eq_ok (named : requestedModel ≠ []) :
    normalizeChunk stringify v requestedModel label now = .ok w ↔
      isObject v = true ∧ embedded v = none ∧ w = chunkCandidate v requestedModel now := by
  unfold normalizeChunk
  cases object : isObject v with
  | false => simp
  | true =>
    cases failed : embedded v with
    | some error => simp
    | none => simp [chunkCandidate_accepted v named now, eq_comm]

-- What was made of one frame is made of itself, by whoever reads it next.
theorem normalizeChunk_again (requestedModel' : Units) (label' : String) (now' : Readings)
    (named : requestedModel ≠ []) (json : w.IsJson)
    (made : normalizeChunk stringify v requestedModel label now = .ok w) :
    normalizeChunk stringify w requestedModel' label' now' = .ok w := by
  obtain ⟨-, -, rfl⟩ := (normalizeChunk_eq_ok named).mp made
  exact normalizeChunk_of_valid json (chunkCandidate_accepted v named now) rfl

end

end X402Mesh.NodeDaemon.Completions
