import Mathlib.Logic.Function.Basic
import X402Mesh.Registry.Accruals

set_option autoImplicit false

-- A row is a text under a key of its own, and its id is a member of an index. A method of the store
-- sends two commands, one after the other.

namespace X402Mesh.Registry

inductive RedisEntry
  | text (value : String)
  | members (ids : List String)
  deriving DecidableEq, Repr

abbrev Keyspace := String → Option RedisEntry

inductive Command
  | set (key value : String)
  | del (key : String)
  | sadd (key member : String)
  | srem (key member : String)
  deriving DecidableEq, Repr

namespace Keyspace

-- none: the reply is an error, the key has a value of another type.
def smembers (keys : Keyspace) (key : String) : Option (List String) :=
  match keys key with
  | none => some []
  | some (.members ids) => some ids
  | some (.text _) => none

def get (keys : Keyspace) (key : String) : Option String :=
  match keys key with
  | some (.text value) => some value
  | _ => none

def mget (keys : Keyspace) (names : List String) : List (Option String) := names.map keys.get

-- A set that has no members left is no key.
def withMembers (keys : Keyspace) (key : String) (ids : List String) : Keyspace :=
  Function.update keys key (if ids = [] then none else some (.members ids))

def perform (keys : Keyspace) : Command → Option Keyspace
  | .set key value => some (Function.update keys key (some (.text value)))
  | .del key => some (Function.update keys key none)
  | .sadd key member =>
    (keys.smembers key).map fun ids => keys.withMembers key (ids.insert member)
  | .srem key member =>
    (keys.smembers key).map fun ids => keys.withMembers key (ids.erase member)

theorem smembers_withMembers (keys : Keyspace) (key other : String) (ids : List String) :
    (keys.withMembers key ids).smembers other =
      if other = key then some ids else keys.smembers other := by
  by_cases same : other = key
  · subst same
    by_cases empty : ids = [] <;> simp [withMembers, smembers, empty]
  · simp [withMembers, smembers, same]

theorem get_withMembers (keys : Keyspace) {key other : String} (apart : other ≠ key)
    (ids : List String) : (keys.withMembers key ids).get other = keys.get other := by
  simp [withMembers, get, apart]

end Keyspace

inductive RowKey
  | openRow (operatorAddress : String)
  | batch (batchId : String)
  deriving DecidableEq, Repr

namespace RowKey

def id : RowKey → String
  | .openRow operatorAddress => operatorAddress
  | .batch batchId => batchId

end RowKey

namespace RedisAccrualStore

variable (keyPrefix : String)

def openKey (address : String) : String := keyPrefix ++ ":accrual:open:" ++ address

def batchKey (batchId : String) : String := keyPrefix ++ ":accrual:batch:" ++ batchId

def openIndex : String := keyPrefix ++ ":accrual:open"

def batchIndex : String := keyPrefix ++ ":accrual:batches"

def keyOf : RowKey → String
  | .openRow operatorAddress => openKey keyPrefix operatorAddress
  | .batch batchId => batchKey keyPrefix batchId

def indexOf : RowKey → String
  | .openRow _ => openIndex keyPrefix
  | .batch _ => batchIndex keyPrefix

-- The text that the row gets; none: the row is removed.
def commands (row : RowKey) : Option String → List Command
  | some text => [.set (keyOf keyPrefix row) text, .sadd (indexOf keyPrefix row) row.id]
  | none => [.del (keyOf keyPrefix row), .srem (indexOf keyPrefix row) row.id]

section json

-- `readRow` is what `#readMany` makes of one text.
variable (stringify : PersistedAccrual → String) (readRow : String → Option PersistedAccrual)

def putOpen (accrual : PersistedAccrual) : List Command :=
  commands keyPrefix (.openRow accrual.operatorAddress) (some (stringify accrual))

def removeOpen (operatorAddress : String) : List Command :=
  commands keyPrefix (.openRow operatorAddress) none

def putBatch (batchId : String) (accrual : PersistedAccrual) : List Command :=
  commands keyPrefix (.batch batchId) (some (stringify accrual))

def removeBatch (batchId : String) : List Command :=
  commands keyPrefix (.batch batchId) none

def readMany (keys : Keyspace) (names : List String) : List (Option PersistedAccrual) :=
  (keys.mget names).map (·.bind readRow)

def loadAll (keys : Keyspace) : Option (List PersistedAccrual × List PersistedAccrual) := do
  let openIds ← keys.smembers (openIndex keyPrefix)
  let batchIds ← keys.smembers (batchIndex keyPrefix)
  let opened := readMany readRow keys (openIds.map (openKey keyPrefix))
  let batches := readMany readRow keys (batchIds.map (batchKey keyPrefix))
  return (opened.filterMap (·), (batches.filterMap (·)).filter Rows.named)

end json

theorem keyOf_injective {row other : RowKey} (same : keyOf keyPrefix row = keyOf keyPrefix other) :
    row = other := by
  have texts := congrArg String.toList same
  cases row <;> cases other <;>
    simp [keyOf, openKey, batchKey, String.toList_append] at texts
  · exact congrArg _ (String.toList_injective texts)
  · exact congrArg _ (String.toList_injective texts)

theorem keyOf_ne_indexOf (row other : RowKey) :
    keyOf keyPrefix row ≠ indexOf keyPrefix other := by
  intro same
  have texts := congrArg String.toList same
  cases row <;> cases other <;>
    simp [keyOf, indexOf, openKey, batchKey, openIndex, batchIndex, String.toList_append] at texts

theorem openIndex_ne_batchIndex : openIndex keyPrefix ≠ batchIndex keyPrefix := by
  intro same
  have texts := congrArg String.toList same
  simp [openIndex, batchIndex, String.toList_append] at texts

def listed (keys : Keyspace) (row : RowKey) : Prop :=
  ∃ ids, keys.smembers (indexOf keyPrefix row) = some ids ∧ row.id ∈ ids

def stored (keys : Keyspace) (row : RowKey) : Option String := keys.get (keyOf keyPrefix row)

instance (keys : Keyspace) (row : RowKey) : Decidable (listed keyPrefix keys row) :=
  match same : keys.smembers (indexOf keyPrefix row) with
  | none => .isFalse (by simp [listed, same])
  | some ids => decidable_of_iff (row.id ∈ ids) (by simp [listed, same])

/-- The indexes are sets. -/
def Shaped (keys : Keyspace) : Prop :=
  ∀ row, ∃ ids, keys.smembers (indexOf keyPrefix row) = some ids ∧ ids.Nodup

variable {keyPrefix} {keys : Keyspace} (shaped : Shaped keyPrefix keys) (row : RowKey)

theorem shaped_empty : Shaped keyPrefix fun _ => none := fun _ => ⟨[], rfl, .nil⟩

theorem indexOf_eq_iff {row other : RowKey} (same : other.id = row.id) :
    indexOf keyPrefix other = indexOf keyPrefix row ↔ other = row := by
  cases row <;> cases other <;> simp only [RowKey.id] at same <;>
    simp [indexOf, same, openIndex_ne_batchIndex, (openIndex_ne_batchIndex _).symm]

section key

variable (entry : Option RedisEntry)

theorem smembers_keyOf (other : RowKey) :
    Keyspace.smembers (Function.update keys (keyOf keyPrefix row) entry)
      (indexOf keyPrefix other) = keys.smembers (indexOf keyPrefix other) := by
  simp [Keyspace.smembers, (keyOf_ne_indexOf keyPrefix row other).symm]

include shaped in
theorem Shaped.keyOf : Shaped keyPrefix (Function.update keys (keyOf keyPrefix row) entry) := by
  intro other
  rw [smembers_keyOf]
  exact shaped other

theorem listed_keyOf (other : RowKey) :
    listed keyPrefix (Function.update keys (keyOf keyPrefix row) entry) other ↔
      listed keyPrefix keys other := by
  unfold listed
  rw [smembers_keyOf]

theorem stored_keyOf (other : RowKey) :
    stored keyPrefix (Function.update keys (keyOf keyPrefix row) entry) other =
      if other = row then Keyspace.get (fun _ => entry) "" else stored keyPrefix keys other := by
  by_cases same : other = row
  · subst same
    simp [stored, Keyspace.get]
  · have apart : RedisAccrualStore.keyOf keyPrefix other ≠ RedisAccrualStore.keyOf keyPrefix row :=
      fun equal => same (keyOf_injective keyPrefix equal)
    simp [stored, Keyspace.get, same, apart]

end key

section index

variable {ids changed : List String} (found : keys.smembers (indexOf keyPrefix row) = some ids)

include shaped in
theorem Shaped.indexOf (unique : changed.Nodup) :
    Shaped keyPrefix (keys.withMembers (indexOf keyPrefix row) changed) := by
  intro other
  rw [Keyspace.smembers_withMembers]
  split
  · exact ⟨changed, rfl, unique⟩
  · exact shaped other

theorem stored_indexOf (other : RowKey) :
    stored keyPrefix (keys.withMembers (indexOf keyPrefix row) changed) other =
      stored keyPrefix keys other :=
  Keyspace.get_withMembers keys (keyOf_ne_indexOf keyPrefix other row) changed

include found in
theorem listed_indexOf (others : ∀ id, id ≠ row.id → (id ∈ changed ↔ id ∈ ids))
    (other : RowKey) :
    listed keyPrefix (keys.withMembers (indexOf keyPrefix row) changed) other ↔
      if other = row then row.id ∈ changed else listed keyPrefix keys other := by
  unfold listed
  rw [Keyspace.smembers_withMembers]
  by_cases index : indexOf keyPrefix other = indexOf keyPrefix row
  · rw [if_pos index, index, found]
    simp only [Option.some.injEq, exists_eq_left']
    split
    next same => rw [same]
    next differ =>
      apply others
      exact fun same => differ ((indexOf_eq_iff same).mp index)
  · have differ : other ≠ row := fun same => index (congrArg _ same)
    rw [if_neg index, if_neg differ]

end index

-- The first command leaves the text and not the index, the second one the index.
theorem commands_eq (text : Option String) : ∃ first second,
    commands keyPrefix row text = [first, second] ∧
    (∀ keys, Shaped keyPrefix keys → ∃ after, keys.perform first = some after ∧
      Shaped keyPrefix after ∧
      (∀ other, listed keyPrefix after other ↔ listed keyPrefix keys other) ∧
      ∀ other, stored keyPrefix after other =
        if other = row then text else stored keyPrefix keys other) ∧
    ∀ keys, Shaped keyPrefix keys → ∃ after, keys.perform second = some after ∧
      Shaped keyPrefix after ∧
      (∀ other, listed keyPrefix after other ↔
        if other = row then text.isSome = true else listed keyPrefix keys other) ∧
      ∀ other, stored keyPrefix after other = stored keyPrefix keys other := by
  cases text with
  | some text =>
    refine ⟨_, _, rfl, fun keys shaped => ?_, fun keys shaped => ?_⟩
    · exact ⟨_, rfl, shaped.keyOf row _, listed_keyOf row _, stored_keyOf row _⟩
    · obtain ⟨ids, found, unique⟩ := shaped row
      refine ⟨_, by rw [Keyspace.perform, found, Option.map_some],
        shaped.indexOf row unique.insert, fun other => ?_, stored_indexOf row⟩
      rw [listed_indexOf row found (by simp +contextual [List.mem_insert_iff])]
      simp
  | none =>
    refine ⟨_, _, rfl, fun keys shaped => ?_, fun keys shaped => ?_⟩
    · exact ⟨_, rfl, shaped.keyOf row _, listed_keyOf row _, stored_keyOf row _⟩
    · obtain ⟨ids, found, unique⟩ := shaped row
      refine ⟨_, by rw [Keyspace.perform, found, Option.map_some],
        shaped.indexOf row (unique.erase _), fun other => ?_, stored_indexOf row⟩
      rw [listed_indexOf row found (by simp +contextual [unique.mem_erase_iff])]
      simp [unique.mem_erase_iff]

section read

variable (keyPrefix)
variable (readRow : String → Option PersistedAccrual)

-- The row that `loadAll` finds.
def view (keys : Keyspace) (row : RowKey) : Option PersistedAccrual :=
  if listed keyPrefix keys row then (stored keyPrefix keys row).bind readRow else none

end read

end RedisAccrualStore

namespace Rows

def find (rows : Rows) : RowKey → Option PersistedAccrual
  | .openRow operatorAddress => rows.openRows.get? operatorAddress
  | .batch batchId => rows.batchRows.get? batchId

end Rows

namespace RedisAccrualStore

variable {keyPrefix : String} {readRow : String → Option PersistedAccrual} {keys : Keyspace}

variable (keys readRow) in
-- What an index lists, less what has no row any more.
theorem readMany_listed {ids : List String} (unique : ids.Nodup) (keyFor : String → String)
    (rows : OrderedMap String PersistedAccrual)
    (same : ∀ id, rows.get? id = if id ∈ ids then (keys.get (keyFor id)).bind readRow else none) :
    ∃ listed : List String, listed.Perm rows.keys ∧
      (readMany readRow keys (ids.map keyFor)).filterMap (·) = listed.filterMap rows.get? := by
  refine ⟨ids.filter fun id => (rows.get? id).isSome, ?_, ?_⟩
  · refine (List.perm_ext_iff_of_nodup (unique.filter _) rows.nodup).mpr fun id => ?_
    rw [List.mem_filter]
    refine Iff.trans ?_ (rows.mem_keys id).symm
    rw [← Option.isSome_iff_exists]
    refine ⟨fun both => both.2, fun some => ⟨?_, some⟩⟩
    by_contra absent
    simp [same, absent] at some
  · rw [readMany, Keyspace.mget, List.map_map, List.map_map, List.filterMap_map,
      List.filterMap_filter]
    refine List.filterMap_congr fun id member => ?_
    rw [same, if_pos member]
    cases found : (keys.get (keyFor id)).bind readRow <;> simp [found]

theorem loadAll_eq (shaped : Shaped keyPrefix keys) (rows : Rows)
    (same : ∀ row, view keyPrefix readRow keys row = rows.find row) :
    ∃ addresses batchIds : List String,
      addresses.Perm rows.openRows.keys ∧ batchIds.Perm rows.batchRows.keys ∧
      loadAll keyPrefix readRow keys =
        some (rows.readOpen addresses, rows.readBatches batchIds) := by
  obtain ⟨openIds, foundOpen, uniqueOpen⟩ := shaped (.openRow "")
  obtain ⟨batchIds, foundBatch, uniqueBatch⟩ := shaped (.batch "")
  simp only [indexOf] at foundOpen foundBatch
  obtain ⟨addresses, open_, readOpen⟩ := readMany_listed readRow keys uniqueOpen
    (openKey keyPrefix) rows.openRows fun id => by
      refine (same (.openRow id)).symm.trans ?_
      simp [view, listed, indexOf, foundOpen, RowKey.id, stored, keyOf]
  obtain ⟨named, batch, readBatch⟩ := readMany_listed readRow keys uniqueBatch
    (batchKey keyPrefix) rows.batchRows fun id => by
      refine (same (.batch id)).symm.trans ?_
      simp [view, listed, indexOf, foundBatch, RowKey.id, stored, keyOf]
  refine ⟨addresses, named, open_, batch, ?_⟩
  simp [loadAll, foundOpen, foundBatch, readOpen, readBatch, Rows.readOpen, Rows.readBatches]

end RedisAccrualStore

end X402Mesh.Registry
