import X402Mesh.Shared.Money

set_option autoImplicit false

namespace X402Mesh.Config

open Text Money

-- Missing and blank variables are both absent.
def envValue (raw : Option String) : Option (List Char) :=
  (raw.map fun text => trim text.toList).filter (· ≠ [])

-- none: the field fails validation, and the loader throws a `ConfigError` that names it.
def intField (defaultValue min max : Int) (raw : Option String) : Option Int :=
  let value : Option Int :=
    match envValue raw with
    | none => some defaultValue
    | some ('-' :: cs) => if isDecimal cs then some (-(decimalValue cs)) else none
    | some cs => if isDecimal cs then some (decimalValue cs) else none
  value.filter fun n => decide (min ≤ n ∧ n ≤ max)

def defaultNodeRequestTimeoutMs : Int := 120000

def nodeRequestTimeoutMs (env : String → Option String) : Option Int :=
  intField defaultNodeRequestTimeoutMs 1000 600000 (env "MESH_NODE_REQUEST_TIMEOUT_MS")

theorem intField_bounds {defaultValue min max n : Int} {raw : Option String}
    (accepted : intField defaultValue min max raw = some n) : min ≤ n ∧ n ≤ max := by
  obtain ⟨-, inside⟩ := Option.filter_eq_some_iff.mp accepted
  simpa using inside

end X402Mesh.Config
