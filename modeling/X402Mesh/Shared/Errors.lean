import Mathlib.Data.List.Basic

set_option autoImplicit false

namespace X402Mesh

/-- The subclasses of `MeshError`, with the code and HTTP status each constructor passes up;
`payloadTooLarge` is the one made without a class of its own. -/
inductive ErrorKind
  | config | pricing | validation | notFound | payment | settlement | noCapacity | upstream
  | auth | rateLimit | payloadTooLarge
  deriving DecidableEq, Repr

namespace ErrorKind

def code : ErrorKind → String
  | config => "config_error"
  | pricing => "pricing_error"
  | validation => "validation_error"
  | notFound => "not_found"
  | payment => "payment_error"
  | settlement => "settlement_error"
  | noCapacity => "no_capacity"
  | upstream => "upstream_error"
  | auth => "auth_error"
  | rateLimit => "rate_limited"
  | payloadTooLarge => "payload_too_large"

def httpStatus : ErrorKind → Nat
  | config | pricing => 500
  | validation => 400
  | notFound => 404
  | payment => 402
  | settlement | upstream => 502
  | noCapacity => 503
  | auth => 401
  | rateLimit => 429
  | payloadTooLarge => 413

theorem httpStatus_refused (kind : ErrorKind) : 400 ≤ kind.httpStatus := by
  cases kind <;> decide

end ErrorKind

structure MeshError where
  kind : ErrorKind
  message : String
  details : List (String × String)
  deriving DecidableEq, Repr

/-- Anything a handler can throw: one of ours, or a value of some other class with the HTTP status
and the type it may carry. -/
inductive Thrown
  | mesh (error : MeshError)
  | other (text : String) (status : Option Nat) (type : Option String)
  deriving DecidableEq, Repr

structure MeshErrorBody where
  code : String
  message : String
  details : List (String × String)
  deriving DecidableEq, Repr

def toErrorResponse : Thrown → Nat × MeshErrorBody
  | .mesh error => (error.kind.httpStatus, ⟨error.kind.code, error.message, error.details⟩)
  | .other .. => (500, ⟨"internal_error", "Internal server error", []⟩)

theorem toErrorResponse_refused (e : Thrown) : 400 ≤ (toErrorResponse e).1 := by
  cases e with
  | mesh error => exact error.kind.httpStatus_refused
  | other => simp [toErrorResponse]

end X402Mesh
