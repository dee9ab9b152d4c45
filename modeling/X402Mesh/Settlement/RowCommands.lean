import X402Mesh.Lib.Simulation
import X402Mesh.Registry.AccrualKeys
import X402Mesh.Settlement.World

set_option autoImplicit false

-- No two writes of one row are in progress at once. A process may stop, or a write be given up,
-- between any two commands.

namespace X402Mesh.Settlement

open Registry RedisAccrualStore

-- The row that a serialized write is about, and what it becomes.
def StoreOp.target : StoreOp → Option (RowKey × Option PersistedAccrual)
  | .putOpenRow row => some (.openRow row.operatorAddress, some row)
  | .removeOpen operatorAddress => some (.openRow operatorAddress, none)
  | .putBatch batchId row => some (.batch batchId, some row)
  | .removeBatch batchId => some (.batch batchId, none)
  | .putOpen .. | .putLedger _ => none

theorem find_effect {op : StoreOp} {row : RowKey} {value : Option PersistedAccrual} (rows : Rows)
    (target : op.target = some (row, value)) :
    ∃ after, op.effect rows = some after ∧
      ∀ other, after.find other = if other = row then value else rows.find other := by
  cases op with
  | putOpen | putLedger => cases target
  | putOpenRow | removeOpen | putBatch | removeBatch =>
    cases target
    refine ⟨_, rfl, fun other => ?_⟩
    cases other <;>
      simp [Rows.find, Rows.putOpen, Rows.removeOpen, Rows.putBatch, Rows.removeBatch,
        OrderedMap.get?_set, OrderedMap.get?_erase]

inductive RowAction
  | call (op : StoreOp)
  | advance (row : RowKey)
  | resolve (row : RowKey)
  | reject (row : RowKey)
  | crash
  deriving DecidableEq, Repr

def RowAction.shown : RowAction → Option RowAction
  | .advance _ => none
  | action => some action

structure AtomicRows where
  rows : Rows
  inFlight : RowKey → Option (StoreOp × Bool)

namespace AtomicRows

def start (rows : Rows) : AtomicRows := ⟨rows, fun _ => none⟩

def setFlight (s : AtomicRows) (row : RowKey) (flight : Option (StoreOp × Bool)) : AtomicRows :=
  { s with inFlight := Function.update s.inFlight row flight }

def step (s : AtomicRows) : RowAction → Option AtomicRows
  | .call op =>
    op.target.bind fun (row, _) =>
      if s.inFlight row = none then some (s.setFlight row (some (op, false))) else none
  | .advance row =>
    match s.inFlight row with
    | some (op, false) =>
      (op.effect s.rows).map fun rows => ({ s with rows }).setFlight row (some (op, true))
    | _ => none
  | .resolve row =>
    match s.inFlight row with
    | some (_, true) => some (s.setFlight row none)
    | _ => none
  | .reject row => (s.inFlight row).map fun _ => s.setFlight row none
  | .crash => some (.start s.rows)

end AtomicRows

structure Flight where
  op : StoreOp
  left : List Command
  deriving DecidableEq, Repr

structure CommandRows where
  keys : Keyspace
  inFlight : RowKey → Option Flight

namespace CommandRows

variable (keyPrefix : String) (stringify : PersistedAccrual → String)

def start (keys : Keyspace) : CommandRows := ⟨keys, fun _ => none⟩

def setFlight (s : CommandRows) (row : RowKey) (flight : Option Flight) : CommandRows :=
  { s with inFlight := Function.update s.inFlight row flight }

def commandsOf : StoreOp → List Command
  | .putOpenRow row => putOpen keyPrefix stringify row
  | .removeOpen operatorAddress => removeOpen keyPrefix operatorAddress
  | .putBatch batchId row => putBatch keyPrefix stringify batchId row
  | .removeBatch batchId => removeBatch keyPrefix batchId
  | .putOpen .. | .putLedger _ => []

def step (s : CommandRows) : RowAction → Option CommandRows
  | .call op =>
    op.target.bind fun (row, _) =>
      if s.inFlight row = none then
        some (s.setFlight row (some ⟨op, commandsOf keyPrefix stringify op⟩))
      else none
  | .advance row =>
    match s.inFlight row with
    | some ⟨op, command :: left⟩ =>
      (s.keys.perform command).map fun keys =>
        ({ s with keys }).setFlight row (some ⟨op, left⟩)
    | _ => none
  | .resolve row =>
    match s.inFlight row with
    | some ⟨_, []⟩ => some (s.setFlight row none)
    | _ => none
  | .reject row => (s.inFlight row).map fun _ => s.setFlight row none
  | .crash => some (.start s.keys)

section inversion

variable {keyPrefix stringify} {s s' : CommandRows} {row : RowKey}

theorem call_inv {op : StoreOp} (taken : step keyPrefix stringify s (.call op) = some s') :
    ∃ row value, op.target = some (row, value) ∧ s.inFlight row = none ∧
      s' = s.setFlight row (some ⟨op, commandsOf keyPrefix stringify op⟩) := by
  obtain ⟨⟨row, value⟩, target, rest⟩ := Option.bind_eq_some_iff.mp taken
  obtain ⟨idle, same⟩ := Option.ite_none_right_eq_some.mp rest
  exact ⟨row, value, target, idle, (Option.some.inj same).symm⟩

theorem advance_inv (taken : step keyPrefix stringify s (.advance row) = some s') :
    ∃ op command left after, s.inFlight row = some ⟨op, command :: left⟩ ∧
      s.keys.perform command = some after ∧
      s' = ({ s with keys := after }).setFlight row (some ⟨op, left⟩) := by
  simp only [step] at taken
  split at taken
  next op command left found =>
    obtain ⟨after, performed, rfl⟩ := Option.map_eq_some_iff.mp taken
    exact ⟨op, command, left, after, found, performed, rfl⟩
  next => cases taken

theorem resolve_inv (taken : step keyPrefix stringify s (.resolve row) = some s') :
    ∃ op, s.inFlight row = some ⟨op, []⟩ ∧ s' = s.setFlight row none := by
  simp only [step] at taken
  split at taken
  next op found => exact ⟨op, found, (Option.some.inj taken).symm⟩
  next => cases taken

end inversion

theorem commandsOf_eq {op : StoreOp} {row : RowKey} {value : Option PersistedAccrual}
    (target : op.target = some (row, value)) :
    commandsOf keyPrefix stringify op = commands keyPrefix row (value.map stringify) := by
  cases op with
  | putOpen | putLedger => cases target
  | putOpenRow | removeOpen | putBatch | removeBatch =>
    cases target
    rfl

section refinement

variable {keyPrefix stringify} {readRow : String → Option PersistedAccrual}

variable (stringify readRow) in
-- `loadAll` reads the text of the row as the row.
def Readable (action : RowAction) : Prop :=
  ∀ op row value, action = .call op → op.target = some (row, some value) →
    readRow (stringify value) = some value

variable (keyPrefix stringify readRow) in
inductive Stage (keys : Keyspace) (row : RowKey) : Option Flight → Option (StoreOp × Bool) → Prop
  | idle : Stage keys row none none
  | called (op : StoreOp) (value : Option PersistedAccrual)
      (target : op.target = some (row, value))
      (read : (value.map stringify).bind readRow = value) :
      Stage keys row (some ⟨op, commandsOf keyPrefix stringify op⟩) (some (op, false))
  | halfway (op : StoreOp) (value : Option PersistedAccrual) (first second : Command)
      (target : op.target = some (row, value))
      (read : (value.map stringify).bind readRow = value)
      (sent : commandsOf keyPrefix stringify op = [first, second])
      (text : stored keyPrefix keys row = value.map stringify) (effect : Bool)
      (visible : effect = true ↔ value = none ∨ listed keyPrefix keys row) :
      Stage keys row (some ⟨op, [second]⟩) (some (op, effect))
  | sent (op : StoreOp) (value : Option PersistedAccrual)
      (target : op.target = some (row, value)) (landed : view keyPrefix readRow keys row = value) :
      Stage keys row (some ⟨op, []⟩) (some (op, true))

variable (keyPrefix stringify readRow) in
structure Refines (s : CommandRows) (t : AtomicRows) : Prop where
  shaped : Shaped keyPrefix s.keys
  rows : ∀ row, view keyPrefix readRow s.keys row = t.rows.find row
  stage : ∀ row, Stage keyPrefix stringify readRow s.keys row
    (s.inFlight row) (t.inFlight row)

variable {s s' : CommandRows} {t : AtomicRows} {keys after : Keyspace} {row : RowKey}
variable {flight : Option Flight} {above : Option (StoreOp × Bool)}

theorem Stage.congr
    (stage : Stage keyPrefix stringify readRow keys row flight above)
    (listing : listed keyPrefix after row ↔ listed keyPrefix keys row)
    (text : stored keyPrefix after row = stored keyPrefix keys row) :
    Stage keyPrefix stringify readRow after row flight above := by
  cases stage with
  | idle => exact .idle
  | called op value target read => exact .called op value target read
  | halfway op value first second target read sent own effect visible =>
    exact .halfway op value first second target read sent (text.trans own) effect
      (visible.trans (or_congr_right listing.symm))
  | sent op value target landed =>
    exact .sent op value target (by simpa only [view, listing, text] using landed)

theorem Refines.setFlight (refines : Refines keyPrefix stringify readRow s t)
    (stage : Stage keyPrefix stringify readRow s.keys row flight above) :
    Refines keyPrefix stringify readRow (s.setFlight row flight) (t.setFlight row above) where
  shaped := refines.shaped
  rows := refines.rows
  stage other := by
    by_cases same : other = row
    · subst same
      simpa [CommandRows.setFlight, AtomicRows.setFlight] using stage
    · simpa [CommandRows.setFlight, AtomicRows.setFlight, same] using refines.stage other

-- A command of one row leaves the others as they are.
theorem Refines.perform (refines : Refines keyPrefix stringify readRow s t)
    (shaped : Shaped keyPrefix after)
    (listing : ∀ other, other ≠ row → (listed keyPrefix after other ↔ listed keyPrefix s.keys other))
    (text : ∀ other, other ≠ row → stored keyPrefix after other = stored keyPrefix s.keys other)
    (rows : Rows) (own : view keyPrefix readRow after row = rows.find row)
    (others : ∀ other, other ≠ row → rows.find other = t.rows.find other)
    (stage : Stage keyPrefix stringify readRow after row flight above) :
    Refines keyPrefix stringify readRow (({ s with keys := after }).setFlight row flight)
      (({ t with rows := rows }).setFlight row above) where
  shaped := shaped
  rows other := by
    by_cases same : other = row
    · subst same
      exact own
    · have unchanged : view keyPrefix readRow after other = view keyPrefix readRow s.keys other := by
        simp only [view, listing other same, text other same]
      exact (unchanged.trans (refines.rows other)).trans (others other same).symm
  stage other := by
    by_cases same : other = row
    · subst same
      simpa [CommandRows.setFlight, AtomicRows.setFlight] using stage
    · simpa [CommandRows.setFlight, AtomicRows.setFlight, same] using
        (refines.stage other).congr (listing other same) (text other same)

theorem AtomicRows.advance_unapplied {op : StoreOp} {value : Option PersistedAccrual}
    (target : op.target = some (row, value)) (found : t.inFlight row = some (op, false)) :
    ∃ rows, AtomicRows.step t (.advance row) =
        some (({ t with rows := rows }).setFlight row (some (op, true))) ∧
      rows.find row = value ∧ ∀ other, other ≠ row → rows.find other = t.rows.find other := by
  obtain ⟨rows, effect, finds⟩ := find_effect t.rows target
  refine ⟨rows, ?_, by simp [finds], fun other apart => by simp [finds, apart]⟩
  simp [AtomicRows.step, found, effect]

theorem AtomicRows.setFlight_self (found : t.inFlight row = above) : t.setFlight row above = t := by
  simp [AtomicRows.setFlight, ← found]

theorem view_of_text {value : Option PersistedAccrual}
    (read : (value.map stringify).bind readRow = value)
    (text : stored keyPrefix keys row = value.map stringify) :
    view keyPrefix readRow keys row = if listed keyPrefix keys row then value else none := by
  rw [view, text, read]

theorem Refines.advance (refines : Refines keyPrefix stringify readRow s t)
    (taken : step keyPrefix stringify s (.advance row) = some s') :
    ∃ labels t', Transition.replay AtomicRows.step t labels = some t' ∧
      labels.filterMap RowAction.shown = [] ∧ Refines keyPrefix stringify readRow s' t' := by
  obtain ⟨op, command, left, after, found, performed, rfl⟩ := advance_inv taken
  have stage := refines.stage row
  rw [found] at stage
  generalize flightAbove : t.inFlight row = above at stage
  generalize lists : command :: left = sequence at stage
  cases stage with
  | called _ value target read =>
    obtain ⟨first, second, both, firstSpec, -⟩ :=
      @commands_eq keyPrefix row (value.map stringify)
    have own := (commandsOf_eq keyPrefix stringify target).trans both
    obtain ⟨rfl, rfl⟩ : command = first ∧ left = [second] := by
      simpa using lists.trans own
    obtain ⟨after', performed', shaped, listing, text⟩ := firstSpec s.keys refines.shaped
    obtain rfl : after = after' := Option.some.inj (performed.symm.trans performed')
    have sent : stored keyPrefix after row = value.map stringify := by simp [text]
    have view := view_of_text read sent
    have others (other : RowKey) (apart : other ≠ row) :
        stored keyPrefix after other = stored keyPrefix s.keys other := by simp [text, apart]
    by_cases visible : value = none ∨ listed keyPrefix after row
    · -- The row was listed, or goes: the text decides.
      obtain ⟨rows, stepped, itself, rest⟩ := AtomicRows.advance_unapplied target flightAbove
      refine ⟨[.advance row], _, by simp [Transition.replay, stepped], rfl,
        refines.perform shaped (fun other _ => listing other) others rows ?_ rest
          (.halfway op value command second target read own sent true (by simpa using visible))⟩
      rw [view, itself]
      rcases visible with rfl | already
      · simp
      · rw [if_pos already]
    · -- The row is in no index yet.
      refine ⟨[], t, rfl, rfl, ?_⟩
      have same := refines.perform shaped (fun other _ => listing other) others t.rows
        ?_ (fun _ _ => rfl)
        (.halfway op value command second target read own sent false (by simpa using visible))
      · rwa [show ({ t with rows := t.rows } : AtomicRows) = t from rfl,
          AtomicRows.setFlight_self flightAbove] at same
      · have hidden : ¬ listed keyPrefix s.keys row := fun already =>
          visible (.inr ((listing row).mpr already))
        rw [view, if_neg fun already => visible (.inr already), ← refines.rows row,
          RedisAccrualStore.view, if_neg hidden]
  | halfway _ value first second target read own text effect visible =>
    obtain ⟨rfl, rfl⟩ : command = second ∧ left = [] := by simpa using lists
    obtain ⟨first', second', both, -, secondSpec⟩ :=
      @commands_eq keyPrefix row (value.map stringify)
    have same := own.symm.trans ((commandsOf_eq keyPrefix stringify target).trans both)
    obtain ⟨rfl, rfl⟩ : first = first' ∧ command = second' := by simpa using same
    obtain ⟨after', performed', shaped, listing, texts⟩ := secondSpec s.keys refines.shaped
    obtain rfl : after = after' := Option.some.inj (performed.symm.trans performed')
    have view := view_of_text read ((texts row).trans text)
    have before := view_of_text read text
    have final : RedisAccrualStore.view keyPrefix readRow after row = value := by
      rw [view]
      cases value <;> simp [listing]
    have others (other : RowKey) (apart : other ≠ row) :
        listed keyPrefix after other ↔ listed keyPrefix s.keys other := by
      rw [listing, if_neg apart]
    cases effect with
    | true =>
      refine ⟨[], t, rfl, rfl, ?_⟩
      have same := refines.perform shaped others (fun other _ => texts other) t.rows
        ?_ (fun _ _ => rfl) (.sent op value target final)
      · rwa [show ({ t with rows := t.rows } : AtomicRows) = t from rfl,
          AtomicRows.setFlight_self flightAbove] at same
      · rw [final, ← refines.rows row, before]
        rcases visible.mp rfl with rfl | already
        · simp
        · rw [if_pos already]
    | false =>
      obtain ⟨rows, stepped, itself, rest⟩ := AtomicRows.advance_unapplied target flightAbove
      exact ⟨[.advance row], _, by simp [Transition.replay, stepped], rfl,
        refines.perform shaped others (fun other _ => texts other) rows (final.trans itself.symm)
          rest (.sent op value target final)⟩
  | sent => cases lists

theorem Refines.filed (refines : Refines keyPrefix stringify readRow s t) {op : StoreOp}
    {effect : Bool} (found : t.inFlight row = some (op, effect)) :
    ∃ value, op.target = some (row, value) := by
  have stage := refines.stage row
  rw [found] at stage
  generalize s.inFlight row = flight at stage
  cases stage with
  | called _ value target | halfway _ value _ _ target | sent _ value target =>
    exact ⟨value, target⟩

-- Both commands of the write have gone out.
theorem Refines.sent (refines : Refines keyPrefix stringify readRow s t) {op : StoreOp}
    (found : s.inFlight row = some ⟨op, []⟩) :
    t.inFlight row = some (op, true) ∧ op.target = some (row, t.rows.find row) := by
  have stage := refines.stage row
  rw [found] at stage
  generalize flightAbove : t.inFlight row = above at stage
  generalize lists : ([] : List Command) = left at stage
  cases stage with
  | called _ put own =>
    obtain ⟨first, second, both, -⟩ :=
      @commands_eq keyPrefix row (put.map stringify)
    cases lists.trans ((commandsOf_eq keyPrefix stringify own).trans both)
  | halfway => cases lists
  | sent _ put own landed =>
    rw [← refines.rows row, landed]
    exact ⟨rfl, own⟩

theorem Refines.step {a : RowAction} (refines : Refines keyPrefix stringify readRow s t)
    (readable : Readable stringify readRow a) (taken : CommandRows.step keyPrefix stringify s a = some s') :
    ∃ labels t', Transition.replay AtomicRows.step t labels = some t' ∧
      labels.filterMap RowAction.shown = a.shown.toList ∧
      Refines keyPrefix stringify readRow s' t' := by
  cases a with
  | call op =>
    obtain ⟨row, value, target, idle, rfl⟩ := call_inv taken
    have stage := refines.stage row
    rw [idle] at stage
    generalize flightAbove : t.inFlight row = above at stage
    cases stage
    have read : (value.map stringify).bind readRow = value := by
      cases value with
      | none => rfl
      | some value => exact readable op row value rfl target
    refine ⟨[.call op], t.setFlight row (some (op, false)), ?_, rfl,
      refines.setFlight (.called op value target read)⟩
    simp [Transition.replay, AtomicRows.step, target, flightAbove]
  | advance row => simpa [RowAction.shown] using refines.advance taken
  | resolve row =>
    obtain ⟨op, found, rfl⟩ := resolve_inv taken
    refine ⟨[.resolve row], t.setFlight row none, ?_, rfl, refines.setFlight .idle⟩
    simp [Transition.replay, AtomicRows.step, refines.sent found]
  | reject row =>
    obtain ⟨flight, found, rfl⟩ := Option.map_eq_some_iff.mp taken
    have stage := refines.stage row
    rw [found] at stage
    obtain ⟨above, flightAbove⟩ : ∃ above, t.inFlight row = some above := by
      generalize t.inFlight row = above at stage
      cases stage <;> exact ⟨_, rfl⟩
    refine ⟨[.reject row], t.setFlight row none, ?_, rfl, refines.setFlight .idle⟩
    simp [Transition.replay, AtomicRows.step, flightAbove]
  | crash =>
    cases taken
    exact ⟨[.crash], .start t.rows, rfl, rfl, refines.shaped, refines.rows, fun _ => .idle⟩

theorem start_refines :
    Refines keyPrefix stringify readRow (.start fun _ => none) (.start .empty) := by
  refine ⟨shaped_empty, fun row => ?_, fun _ => .idle⟩
  rw [view]
  cases row <;> split <;> rfl

def refinement : Transition.Simulation (CommandRows.step keyPrefix stringify) AtomicRows.step
    RowAction.shown RowAction.shown (Readable stringify readRow) where
  related := Refines keyPrefix stringify readRow
  matched refines readable taken := refines.step readable taken

end refinement

end CommandRows

-- Whatever is called, given up or cut off between two commands, the rows are those of writes that
-- have their effect at once, and those are what a boot finds.
theorem commands_refine_rows (keyPrefix : String) (stringify : PersistedAccrual → String)
    (readRow : String → Option PersistedAccrual)
    (labels : List RowAction)
    (readable : ∀ action ∈ labels, CommandRows.Readable stringify readRow action) (s : CommandRows)
    (ran : Transition.replay (CommandRows.step keyPrefix stringify) (.start fun _ => none) labels =
      some s) :
    ∃ above t, Transition.replay AtomicRows.step (.start .empty) above = some t ∧
      above.filterMap RowAction.shown = labels.filterMap RowAction.shown ∧
      ∃ addresses batchIds : List String,
        addresses.Perm t.rows.openRows.keys ∧ batchIds.Perm t.rows.batchRows.keys ∧
        loadAll keyPrefix readRow s.keys = some (World.loadAll t.rows addresses batchIds) := by
  obtain ⟨above, t, stepped, same, refines⟩ :=
    CommandRows.refinement.run CommandRows.start_refines labels readable ran
  exact ⟨above, t, stepped, same, loadAll_eq refines.shaped t.rows refines.rows⟩

-- An operator's first open row, and its text.
def demoOpen : PersistedAccrual := ⟨"OPERATOR", [], some 10, none⟩

def demoText : String :=
  "\x7b\"operatorAddress\":\"OPERATOR\",\"records\":[],\"firstAt\":10,\"batchId\":null\x7d"

def readDemo (text : String) : Option PersistedAccrual :=
  if text = demoText then some demoOpen else none

theorem readDemo_readable {labels : List RowAction}
    (own : ∀ op, .call op ∈ labels → op = .putOpenRow demoOpen ∨ op = .removeBatch "k-1") :
    ∀ action ∈ labels, CommandRows.Readable (fun _ => demoText) readDemo action := by
  rintro action member op row value rfl target
  rcases own op member with rfl | rfl <;> cases target
  rfl

-- The process stops between the two commands and the next one writes the row again.
theorem commands_refine_rows_cut : ∃ above t,
    Transition.replay AtomicRows.step (.start .empty) above = some t ∧
      above.filterMap RowAction.shown = [.call (.putOpenRow demoOpen), .crash,
        .call (.putOpenRow demoOpen), .resolve (.openRow "OPERATOR"), .crash] := by
  let labels : List RowAction :=
    [.call (.putOpenRow demoOpen), .advance (.openRow "OPERATOR"), .crash,
      .call (.putOpenRow demoOpen), .advance (.openRow "OPERATOR"),
      .advance (.openRow "OPERATOR"), .resolve (.openRow "OPERATOR"), .crash]
  have ran : (Transition.replay (CommandRows.step "x402mesh" fun _ => demoText)
      (.start fun _ => none) labels).isSome = true := by
    decide
  obtain ⟨s, replayed⟩ := Option.isSome_iff_exists.mp ran
  obtain ⟨above, t, stepped, same, -⟩ := commands_refine_rows "x402mesh" (fun _ => demoText)
    readDemo labels (readDemo_readable (by simp [labels])) s replayed
  exact ⟨above, t, stepped, same⟩

namespace AtomicRows

/-- The row has settled at a value, and a write in progress is filed under the row that it is
about. -/
structure Resting (t : AtomicRows) (row : RowKey) (value : Option PersistedAccrual) : Prop where
  idle : t.inFlight row = none
  value : t.rows.find row = value
  filed : ∀ other op effect, t.inFlight other = some (op, effect) →
    ∃ value, op.target = some (other, value)

theorem Resting.setFlight {t : AtomicRows} {row other : RowKey} {value : Option PersistedAccrual}
    (resting : t.Resting row value) (apart : other ≠ row) {flight : Option (StoreOp × Bool)}
    (filed : ∀ op effect, flight = some (op, effect) → ∃ value, op.target = some (other, value)) :
    (t.setFlight other flight).Resting row value where
  idle := by simp [AtomicRows.setFlight, apart.symm, resting.idle]
  value := resting.value
  filed key op effect found := by
    by_cases same : key = other
    · subst same
      exact filed op effect (by simpa [AtomicRows.setFlight] using found)
    · exact resting.filed key op effect (by simpa [AtomicRows.setFlight, same] using found)

def touches (row : RowKey) : RowAction → Prop
  | .call op => ∃ value, op.target = some (row, value)
  | _ => False

theorem Resting.step {t t' : AtomicRows} {row : RowKey} {value : Option PersistedAccrual}
    {a : RowAction} (resting : t.Resting row value) (untouched : ¬ touches row a)
    (taken : AtomicRows.step t a = some t') : t'.Resting row value := by
  have busy {other : RowKey} {flight : StoreOp × Bool} (found : t.inFlight other = some flight) :
      other ≠ row := by
    rintro rfl
    simp [resting.idle] at found
  cases a with
  | call op =>
    obtain ⟨⟨other, put⟩, target, rest⟩ := Option.bind_eq_some_iff.mp taken
    obtain ⟨-, same⟩ := Option.ite_none_right_eq_some.mp rest
    obtain rfl := Option.some.inj same
    refine resting.setFlight (fun same => untouched ⟨put, same ▸ target⟩) fun op' _ own => ?_
    cases own
    exact ⟨put, target⟩
  | advance other =>
    simp only [AtomicRows.step] at taken
    split at taken
    next op found =>
      obtain ⟨rows, effect, rfl⟩ := Option.map_eq_some_iff.mp taken
      obtain ⟨put, target⟩ := resting.filed other op false found
      obtain ⟨rows', effect', finds⟩ := find_effect t.rows target
      obtain rfl : rows = rows' := Option.some.inj (effect.symm.trans effect')
      have kept : Resting { t with rows := rows } row value :=
        ⟨resting.idle, by simp [finds, (busy found).symm, resting.value], resting.filed⟩
      refine kept.setFlight (busy found) fun op' _ own => ?_
      cases own
      exact ⟨put, target⟩
    next => cases taken
  | resolve other =>
    simp only [AtomicRows.step] at taken
    split at taken
    next op found =>
      cases taken
      exact resting.setFlight (busy found) nofun
    next => cases taken
  | reject other =>
    obtain ⟨flight, found, rfl⟩ := Option.map_eq_some_iff.mp taken
    exact resting.setFlight (busy found) nofun
  | crash =>
    cases taken
    exact ⟨rfl, resting.value, nofun⟩

theorem Resting.replay {t t' : AtomicRows} {row : RowKey} {value : Option PersistedAccrual}
    (resting : t.Resting row value) (labels : List RowAction)
    (untouched : ∀ a ∈ labels, ¬ touches row a)
    (ran : Transition.replay AtomicRows.step t labels = some t') : t'.Resting row value := by
  induction labels generalizing t with
  | nil =>
    obtain rfl : t = t' := by simpa [Transition.replay] using ran
    exact resting
  | cons a rest ih =>
    rw [List.forall_mem_cons] at untouched
    obtain ⟨next, taken, later⟩ := Option.bind_eq_some_iff.mp ran
    exact ih (resting.step untouched.1 taken) untouched.2 later

end AtomicRows

-- What an acknowledged write made of a row is what every later boot finds, until the row is
-- written again.
theorem acknowledged_row_loaded (keyPrefix : String) (stringify : PersistedAccrual → String)
    (readRow : String → Option PersistedAccrual) (before after : List RowAction)
    (readable : ∀ action ∈ before ++ after, CommandRows.Readable stringify readRow action)
    (s s' : CommandRows)
    (ran : Transition.replay (CommandRows.step keyPrefix stringify) (.start fun _ => none) before =
      some s)
    (op : StoreOp) (row : RowKey) (value : Option PersistedAccrual)
    (target : op.target = some (row, value)) (sent : s.inFlight row = some ⟨op, []⟩)
    (ran' : Transition.replay (CommandRows.step keyPrefix stringify) s (.resolve row :: after) =
      some s')
    (untouched : ∀ a ∈ after, ¬ AtomicRows.touches row a) :
    ∃ (rows : Rows) (addresses batchIds : List String), rows.find row = value ∧
      addresses.Perm rows.openRows.keys ∧ batchIds.Perm rows.batchRows.keys ∧
      loadAll keyPrefix readRow s'.keys = some (World.loadAll rows addresses batchIds) := by
  obtain ⟨-, t, -, -, refines⟩ := CommandRows.refinement.run CommandRows.start_refines before
    (fun action member => readable action (List.mem_append_left _ member)) ran
  obtain ⟨flying, own⟩ := CommandRows.Refines.sent refines sent
  obtain ⟨-, landed⟩ := Prod.mk.inj (Option.some.inj (own.symm.trans target))
  have resting : (t.setFlight row none).Resting row value :=
    { idle := by simp [AtomicRows.setFlight]
      value := landed
      filed := fun other op' effect found => by
        by_cases same : other = row
        · simp [AtomicRows.setFlight, same] at found
        · exact CommandRows.Refines.filed refines
            (by simpa [AtomicRows.setFlight, same] using found) }
  obtain ⟨middle, taken, later⟩ := Option.bind_eq_some_iff.mp ran'
  obtain ⟨op', found, rfl⟩ := CommandRows.resolve_inv taken
  obtain ⟨above, t', stepped, same, refines'⟩ := CommandRows.refinement.run
    (CommandRows.Refines.setFlight refines .idle) after
    (fun action member => readable action (List.mem_append_right _ member)) later
  have untouched' : ∀ a ∈ above, ¬ AtomicRows.touches row a := by
    rintro (op | _ | _ | _ | _) member touched
    · have shown : RowAction.call op ∈ above.filterMap RowAction.shown :=
        List.mem_filterMap.mpr ⟨.call op, member, rfl⟩
      rw [same] at shown
      obtain ⟨action, own, equal⟩ := List.mem_filterMap.mp shown
      cases action <;> cases equal
      exact untouched _ own touched
    all_goals exact touched
  obtain ⟨addresses, batchIds, opens, batches, loaded⟩ :=
    loadAll_eq refines'.shaped t'.rows refines'.rows
  exact ⟨t'.rows, addresses, batchIds, (resting.replay above untouched' stepped).value, opens,
    batches, loaded⟩

-- The row outlives a restart and a write of another row that is cut off.
theorem acknowledged_row_loaded_restart : ∃ (s : CommandRows) (rows : Rows),
    rows.openRows.get? "OPERATOR" = some demoOpen ∧
      ∃ addresses batchIds : List String, addresses.Perm rows.openRows.keys ∧
        loadAll "x402mesh" readDemo s.keys = some (World.loadAll rows addresses batchIds) := by
  let before : List RowAction := [.call (.putOpenRow demoOpen), .advance (.openRow "OPERATOR"),
    .advance (.openRow "OPERATOR")]
  let after : List RowAction := [.crash, .call (.removeBatch "k-1"), .advance (.batch "k-1"), .crash]
  have ran : (Transition.replay (CommandRows.step "x402mesh" fun _ => demoText)
      (.start fun _ => none) before).isSome = true := by
    decide
  obtain ⟨s, replayed⟩ := Option.isSome_iff_exists.mp ran
  have sent : s.inFlight (.openRow "OPERATOR") = some ⟨.putOpenRow demoOpen, []⟩ := by
    cases replayed
    decide
  have ran' : (Transition.replay (CommandRows.step "x402mesh" fun _ => demoText) s
      (.resolve (.openRow "OPERATOR") :: after)).isSome = true := by
    cases replayed
    decide
  obtain ⟨s', replayed'⟩ := Option.isSome_iff_exists.mp ran'
  obtain ⟨rows, addresses, batchIds, found, opens, -, loaded⟩ := acknowledged_row_loaded "x402mesh"
    (fun _ => demoText) readDemo before after (readDemo_readable (by simp [before, after])) s s'
    replayed _ (.openRow "OPERATOR") (some demoOpen) rfl sent replayed'
    (by simp [after, AtomicRows.touches, StoreOp.target])
  exact ⟨s', rows, found, addresses, batchIds, opens, loaded⟩

end X402Mesh.Settlement
