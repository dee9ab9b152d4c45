import X402Mesh.Shared.ChatSchemas

set_option autoImplicit false

namespace X402Mesh.Gateway.Router

open Js Schema ChatSchemas

-- The members that are copied when they are there.
def optionalMembers : List Units :=
  [units "stream", units "max_tokens", units "temperature", units "top_p", units "stop"]

def forwardBody (request : Value) : Value :=
  .object ([(units "model", request.field (units "model")),
    (units "messages", request.field (units "messages"))] ++
      (optionalMembers.filter fun name => !(request.field name).isUndefined).map
        fun name => (name, request.field name))

-- The request of a client that the gateway accepts is forwarded as it was accepted.
theorem forwardBody_accepted {v request : Value} (json : v.IsJson)
    (accepted : chatCompletionRequestSchema v = some request) : forwardBody request = request := by
  obtain ⟨members, parsed, rfl, shaped, rfl⟩ := object_eq_some.mp accepted
  have each : ∀ m ∈ members, m.2.IsJson := by
    cases json with
    | object each => exact each
  have names : parsed.map (·.1) = requestFields.map (·.1) := names_of_shape shaped
  have unique : (parsed.map (·.1)).Nodup := names ▸ (by decide)
  have whole := map_field_shown unique
    (shown_clean requestFields_keep (clean_of_json each) shaped)
  have required : ∀ name ∈ [units "model", units "messages"],
      ((Value.object (shown members parsed)).field name).isUndefined = false := by
    intro name member
    simp only [List.mem_cons, List.not_mem_nil, or_false] at member
    rcases member with rfl | rfl
    · exact string_defined (field_accepted (by decide) shaped (List.mem_cons_self ..))
    · exact array_defined (field_accepted (by decide) shaped
        (List.mem_cons_of_mem _ (List.mem_cons_self ..)))
  have order : requestFields.map (·.1) = [units "model", units "messages"] ++ optionalMembers := rfl
  rw [names, order, List.filter_append, List.map_append, List.filter_eq_self.mpr (by
    simpa using required)] at whole
  exact congrArg _ whole

end X402Mesh.Gateway.Router
