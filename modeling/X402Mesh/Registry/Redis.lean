import X402Mesh.Lib.Pool
import X402Mesh.Registry.Nodes

set_option autoImplicit false

-- An operation of the Redis store is a few commands, and those of other callers may come between
-- them.

namespace X402Mesh.Registry

/-- The `record` is the blob as `parseRecord` reads it, and `window` is newest first. A counter key
that is absent counts as zero, and `indexed` says whether the index set has the id. -/
structure RedisNode where
  record : Option NodeRecord
  window : List RequestOutcome
  inFlight : Int
  indexed : Bool
  deriving DecidableEq

inductive RedisCall
  | upsert (record : NodeRecord)
  | recordOutcome (o : ReportedOutcome)
  | beginRequest
  | endRequest
  deriving DecidableEq

namespace RedisNode

def absent : RedisNode := ⟨none, [], 0, false⟩

def parseCount (counter : Int) : Nat := counter.toNat

def withInFlight (record : NodeRecord) (inFlight : Nat) : NodeRecord :=
  { record with health := { record.health with inFlight := inFlight } }

def readRecord (keys : RedisNode) : Option NodeRecord :=
  keys.record.map (withInFlight · (parseCount keys.inFlight))

-- `LRANGE 0 99` with the entries parsed, oldest first.
def history (window : List RequestOutcome) : List RequestOutcome :=
  ((window.take healthWindowSize).map fun o => normalizeOutcome o.reported).reverse

def upsert (keys : RedisNode) (record : NodeRecord) : RedisNode :=
  { keys with
    record := some (mergeRecord keys.readRecord record (history keys.window))
    indexed := true }

def recordOutcome (keys : RedisNode) (o : ReportedOutcome) : RedisNode :=
  match keys.readRecord with
  | none => keys
  | some record =>
    let window := (normalizeOutcome o :: keys.window).take healthWindowSize
    { keys with
      window := window
      record := some
        { record with
          totalRequests := record.totalRequests + 1
          health := deriveHealth record.health (history window) } }

def beginRequest (keys : RedisNode) : RedisNode := { keys with inFlight := keys.inFlight + 1 }

def endRequest (keys : RedisNode) : RedisNode :=
  let remaining := keys.inFlight - 1
  { keys with inFlight := if remaining < 0 then 0 else remaining }

def perform (keys : RedisNode) : RedisCall → RedisNode
  | .upsert record => keys.upsert record
  | .recordOutcome o => keys.recordOutcome o
  | .beginRequest => keys.beginRequest
  | .endRequest => keys.endRequest

/-- What a call has from the commands it has sent. -/
inductive Point
  | start
  | gotBlob (blob : Option NodeRecord)
  | gotRecord (record : Option NodeRecord)
  | pushed (record : NodeRecord)
  | trimmed (record : NodeRecord)
  | gotWindow (record : Option NodeRecord) (window : List RequestOutcome)
  | indexing
  | clamping
  | done
  deriving DecidableEq

def advance (keys : RedisNode) : RedisCall → Point → Option (RedisNode × Point)
  | .upsert _, .start => some (keys, .gotBlob keys.record)
  | .upsert _, .gotBlob blob =>
    some (keys, .gotRecord (blob.map (withInFlight · (parseCount keys.inFlight))))
  | .upsert _, .gotRecord existing => some (keys, .gotWindow existing (history keys.window))
  | .upsert record, .gotWindow existing window =>
    some ({ keys with record := some (mergeRecord existing record window) }, .indexing)
  | .upsert _, .indexing => some ({ keys with indexed := true }, .done)
  | .recordOutcome _, .start => some (keys, .gotBlob keys.record)
  | .recordOutcome _, .gotBlob none => some (keys, .done)
  | .recordOutcome _, .gotBlob (some blob) =>
    some (keys, .gotRecord (some (withInFlight blob (parseCount keys.inFlight))))
  | .recordOutcome o, .gotRecord (some record) =>
    some ({ keys with window := normalizeOutcome o :: keys.window }, .pushed record)
  | .recordOutcome _, .pushed record =>
    some ({ keys with window := keys.window.take healthWindowSize }, .trimmed record)
  | .recordOutcome _, .trimmed record =>
    some (keys, .gotWindow (some record) (history keys.window))
  | .recordOutcome _, .gotWindow (some record) window =>
    some
      ({ keys with
          record := some
            { record with
              totalRequests := record.totalRequests + 1
              health := deriveHealth record.health window } }, .done)
  | .beginRequest, .start => some ({ keys with inFlight := keys.inFlight + 1 }, .done)
  | .endRequest, .start =>
    let remaining := keys.inFlight - 1
    some ({ keys with inFlight := remaining }, if remaining < 0 then .clamping else .done)
  | .endRequest, .clamping => some ({ keys with inFlight := 0 }, .done)
  | _, _ => none

-- A call that has the keys to itself.
theorem advance_alone (keys : RedisNode) (call : RedisCall) :
    ∃ n, Transition.replay (fun (s : RedisNode × Point) (_ : Unit) => advance s.1 call s.2)
      (keys, .start) (List.replicate n ()) = some (keys.perform call, .done) := by
  cases call with
  | upsert record => exact ⟨5, rfl⟩
  | recordOutcome o =>
    cases found : keys.record with
    | none =>
      exact ⟨2, by simp [Transition.replay, List.replicate, advance, perform, recordOutcome,
        readRecord, found]⟩
    | some blob =>
      exact ⟨6, by simp [Transition.replay, List.replicate, advance, perform, recordOutcome,
        readRecord, found]⟩
  | beginRequest => exact ⟨1, rfl⟩
  | endRequest =>
    by_cases below : keys.inFlight - 1 < 0
    · exact ⟨2, by simp only [Transition.replay, List.replicate, advance, perform, endRequest,
        if_pos below, Option.bind_some]⟩
    · exact ⟨1, by simp only [Transition.replay, List.replicate, advance, perform, endRequest,
        if_neg below, Option.bind_some]⟩

end RedisNode

end X402Mesh.Registry
