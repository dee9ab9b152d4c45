import X402Mesh.Settlement.RowView

set_option autoImplicit false

namespace X402Mesh.Settlement

open Registry Service

-- The record stays in the open row until a batch row takes it over. `last` is what the writes
-- after these ones ask of it.
def Spares (arrays : String → Nat → List SettlementRecord) (last : Prop) (r : StoredRecord) :
    List StoreOp → Prop
  | [] => last
  | .putOpen operatorAddress serial _ :: rest =>
    r ∈ (arrays operatorAddress serial).map (·.stored) ∧ Spares arrays last r rest
  | .putOpenRow row :: rest => r ∈ row.records ∧ Spares arrays last r rest
  | .removeOpen _ :: _ => False
  | .putBatch _ row :: rest => r ∈ row.records ∨ Spares arrays last r rest
  | .removeBatch _ :: rest | .putLedger _ :: rest => Spares arrays last r rest

def promotes (r : StoredRecord) : StoreOp → Bool
  | .putBatch _ row => r ∈ row.records
  | _ => false

-- One of the writes puts the record in a batch row.
def Promoted (r : StoredRecord) (ops : List StoreOp) : Prop := ∃ op ∈ ops, promotes r op = true

instance (r : StoredRecord) (ops : List StoreOp) : Decidable (Promoted r ops) :=
  inferInstanceAs (Decidable (∃ _ ∈ _, _))

section spares

variable {arrays after : String → Nat → List SettlementRecord} {last later : Prop}
variable {r : StoredRecord} {key : String}

theorem spares_append (xs ys : List StoreOp) :
    Spares arrays last r (xs ++ ys) ↔ Spares arrays (Spares arrays last r ys) r xs := by
  induction xs with
  | nil => exact Iff.rfl
  | cons op rest ih => cases op <;> simp [Spares, ih]

theorem Spares.mono {ops : List StoreOp} (spares : Spares arrays last r ops)
    (weaken : last → later)
    (grows : ∀ operatorAddress serial firstAt, .putOpen operatorAddress serial firstAt ∈ ops →
      ∀ record ∈ arrays operatorAddress serial, record ∈ after operatorAddress serial) :
    Spares after later r ops := by
  induction ops with
  | nil => exact weaken spares
  | cons op rest ih =>
    have tail (kept : Spares arrays last r rest) : Spares after later r rest :=
      ih kept fun operatorAddress serial firstAt member =>
        grows operatorAddress serial firstAt (List.mem_cons_of_mem _ member)
    cases op with
    | putOpen operatorAddress serial firstAt =>
      obtain ⟨record, written, rfl⟩ := List.mem_map.mp spares.1
      have still := grows operatorAddress serial firstAt (List.mem_cons_self ..) record written
      exact ⟨List.mem_map_of_mem still, tail spares.2⟩
    | putOpenRow row => exact ⟨spares.1, tail spares.2⟩
    | removeOpen => exact spares
    | putBatch b row => exact spares.imp_right tail
    | removeBatch | putLedger => exact tail spares

theorem Spares.weaken {ops : List StoreOp} (spares : Spares arrays last r ops)
    (weaken : last → later) : Spares arrays later r ops :=
  spares.mono weaken fun _ _ _ _ _ member => member

-- A record on its way to a batch row no longer depends on what comes after.
theorem Spares.promoted {ops : List StoreOp} (spares : Spares arrays last r ops)
    (promoted : Promoted r ops) : Spares arrays False r ops := by
  obtain ⟨own, member, listed⟩ := promoted
  induction ops with
  | nil => cases member
  | cons op rest ih =>
    rcases List.mem_cons.mp member with rfl | behind
    · cases own with
      | putBatch => exact .inl (of_decide_eq_true listed)
      | _ => cases listed
    · cases op with
      | putOpen | putOpenRow => exact ⟨spares.1, ih spares.2 behind⟩
      | removeOpen => exact spares
      | putBatch => exact spares.imp_right fun kept => ih kept behind
      | removeBatch | putLedger => exact ih spares behind

-- Writes that are given up without the record having been promoted by them.
theorem Spares.skip {gone left : List StoreOp} (spares : Spares arrays last r (gone ++ left))
    (unpromoted : ¬ Promoted r gone) : Spares arrays last r left := by
  induction gone with
  | nil => exact spares
  | cons op rest ih =>
    have behind : ¬ Promoted r rest := fun ⟨own, member, listed⟩ =>
      unpromoted ⟨own, List.mem_cons_of_mem _ member, listed⟩
    cases op with
    | putOpen | putOpenRow => exact ih spares.2 behind
    | removeOpen => exact spares.elim
    | putBatch b row =>
      rcases spares with listed | kept
      · exact absurd ⟨_, List.mem_cons_self .., decide_eq_true listed⟩ unpromoted
      · exact ih kept behind
    | removeBatch | putLedger => exact ih spares behind

theorem spares_of_unopened {ops : List StoreOp} (unopened : ∀ op ∈ ops, openKey op = none)
    (held : last) : Spares arrays last r ops := by
  induction ops with
  | nil => exact held
  | cons op rest ih =>
    rw [List.forall_mem_cons] at unopened
    cases op with
    | putOpen | putOpenRow | removeOpen => cases unopened.1
    | putBatch => exact .inr (ih unopened.2)
    | removeBatch | putLedger => exact ih unopened.2

end spares

-- The records that a write of an open row puts there.
def opened (arrays : String → Nat → List SettlementRecord) : StoreOp → Option (List StoredRecord)
  | .putOpen operatorAddress serial _ => some ((arrays operatorAddress serial).map (·.stored))
  | .putOpenRow row => some row.records
  | _ => none

-- The write leaves the open row alone, or writes the same array again.
def Continues (key : String) (serial : Nat) : StoreOp → Prop
  | .putOpen operatorAddress other _ => operatorAddress = key ∧ other = serial
  | .putOpenRow _ | .removeOpen _ => False
  | _ => True

-- The records written are accruing and stay in the open row, or they are all promoted.
def Tends (arrays : String → Nat → List SettlementRecord) (key : String) (accrual : Option Accrual)
    (op : StoreOp) (rest : List StoreOp) : Prop :=
  ∀ records, opened arrays op = some records →
    (∃ own, accrual = some own ∧ (∀ r ∈ records, r ∈ own.records.map (·.stored)) ∧
      ∀ later ∈ rest, Continues key own.serial later) ∨
    (∀ own, accrual = some own → ∀ operatorAddress firstAt,
      op ≠ .putOpen operatorAddress own.serial firstAt) ∧
      ∀ r ∈ records, Spares arrays False r rest

def Tended (arrays : String → Nat → List SettlementRecord) (key : String)
    (accrual : Option Accrual) : List StoreOp → Prop
  | [] => True
  | op :: rest => Tends arrays key accrual op rest ∧ Tended arrays key accrual rest

section tended

variable {arrays after : String → Nat → List SettlementRecord} {last : Prop}
variable {r : StoredRecord} {key : String} {accrual : Option Accrual} {ops : List StoreOp}

theorem continues_of_unopened {serial : Nat} {op : StoreOp} (unopened : openKey op = none) :
    Continues key serial op := by
  cases op with
  | putOpen | putOpenRow | removeOpen => cases unopened
  | _ => trivial

theorem opened_of_unopened {op : StoreOp} (unopened : openKey op = none) :
    opened arrays op = none := by
  cases op with
  | putOpen | putOpenRow => cases unopened
  | _ => rfl

theorem spares_of_continues {own : Accrual} (live : arrays key own.serial = own.records)
    (continues : ∀ op ∈ ops, Continues key own.serial op)
    (listed : r ∈ own.records.map (·.stored)) (held : last) : Spares arrays last r ops := by
  induction ops with
  | nil => exact held
  | cons op rest ih =>
    rw [List.forall_mem_cons] at continues
    obtain ⟨first, others⟩ := continues
    cases op with
    | putOpen operatorAddress serial firstAt =>
      obtain ⟨rfl, rfl⟩ := first
      exact ⟨live ▸ listed, ih others⟩
    | putOpenRow | removeOpen => exact first.elim
    | putBatch => exact .inr (ih others)
    | removeBatch | putLedger => exact ih others

theorem tended_of_closed (closed : ∀ op ∈ ops, opened arrays op = none) :
    Tended arrays key accrual ops := by
  induction ops with
  | nil => trivial
  | cons op rest ih =>
    rw [List.forall_mem_cons] at closed
    refine ⟨fun records written => ?_, ih closed.2⟩
    rw [closed.1] at written
    cases written

theorem tended_of_unopened (unopened : ∀ op ∈ ops, openKey op = none) :
    Tended arrays key accrual ops :=
  tended_of_closed fun op member => opened_of_unopened (unopened op member)

theorem Tended.suffix {gone left : List StoreOp}
    (tended : Tended arrays key accrual (gone ++ left)) : Tended arrays key accrual left := by
  induction gone with
  | nil => exact tended
  | cons op rest ih => exact ih tended.2

theorem Tended.append {more : List StoreOp} (tended : Tended arrays key accrual ops)
    (unopened : ∀ op ∈ more, openKey op = none) : Tended arrays key accrual (ops ++ more) := by
  induction ops with
  | nil => exact tended_of_unopened unopened
  | cons op rest ih =>
    refine ⟨fun records written => ?_, ih tended.2⟩
    rcases tended.1 records written with ⟨own, accruing, listed, continues⟩ | ⟨stale, promoted⟩
    · refine .inl ⟨own, accruing, listed, fun later member => ?_⟩
      rcases List.mem_append.mp member with old | new
      · exact continues later old
      · exact continues_of_unopened (unopened later new)
    · refine .inr ⟨stale, fun r member => ?_⟩
      exact (spares_append rest more).mpr ((promoted r member).weaken False.elim)

theorem Spares.serialize {op : StoreOp} {rest : List StoreOp}
    (spares : Spares arrays last r (op :: rest)) :
    Spares arrays last r (op.serialize arrays :: rest) := by
  cases op with
  | putOpen => exact spares
  | _ => exact spares

theorem Tended.serialize {op : StoreOp} {rest : List StoreOp}
    (tended : Tended arrays key accrual (op :: rest)) :
    Tended arrays key accrual (op.serialize arrays :: rest) := by
  refine ⟨fun records written => ?_, tended.2⟩
  cases op with
  | putOpen operatorAddress serial firstAt =>
    apply (tended.1 records written).imp_right
    exact fun ⟨_, promoted⟩ => ⟨fun _ _ _ _ => nofun, promoted⟩
  | _ => exact tended.1 records written

theorem Tended.congr (tended : Tended arrays key accrual ops)
    (same : ∀ operatorAddress serial firstAt, .putOpen operatorAddress serial firstAt ∈ ops →
      after operatorAddress serial = arrays operatorAddress serial) :
    Tended after key accrual ops := by
  induction ops with
  | nil => trivial
  | cons op rest ih =>
    have behind := fun operatorAddress serial firstAt member =>
      same operatorAddress serial firstAt (List.mem_cons_of_mem _ member)
    refine ⟨fun records written => ?_, ih tended.2 behind⟩
    have before : opened arrays op = some records := by
      cases op with
      | putOpen operatorAddress serial firstAt =>
        rwa [opened, same operatorAddress serial firstAt (List.mem_cons_self ..)] at written
      | _ => exact written
    apply (tended.1 records before).imp_right
    refine And.imp_right fun promoted r member => (promoted r member).mono id ?_
    intro operatorAddress serial firstAt later record inside
    rwa [behind operatorAddress serial firstAt later]

-- The accrual and its array grow by records, and every other array stays as it is.
structure Grows (arrays after : String → Nat → List SettlementRecord) (accrual : Option Accrual)
    (grown : Accrual) (ops : List StoreOp) : Prop where
  extends_own : ∀ own, accrual = some own →
    own.serial = grown.serial ∧ ∀ record ∈ own.records, record ∈ grown.records
  begins : accrual = none → ∀ operatorAddress serial firstAt,
    .putOpen operatorAddress serial firstAt ∈ ops → serial ≠ grown.serial
  kept : ∀ operatorAddress serial firstAt, .putOpen operatorAddress serial firstAt ∈ ops →
    ∀ record ∈ arrays operatorAddress serial, record ∈ after operatorAddress serial
  added : ∀ operatorAddress serial, ∀ record ∈ after operatorAddress serial,
    record ∈ arrays operatorAddress serial ∨ serial = grown.serial ∧ record ∈ grown.records

theorem Grows.tail {grown : Accrual} {op : StoreOp} {rest : List StoreOp}
    (grows : Grows arrays after accrual grown (op :: rest)) :
    Grows arrays after accrual grown rest where
  extends_own := grows.extends_own
  begins none operatorAddress serial firstAt member :=
    grows.begins none operatorAddress serial firstAt (List.mem_cons_of_mem _ member)
  kept operatorAddress serial firstAt member :=
    grows.kept operatorAddress serial firstAt (List.mem_cons_of_mem _ member)
  added := grows.added

theorem Tends.grow {grown : Accrual} {op : StoreOp} {rest : List StoreOp}
    (tends : Tends arrays key accrual op rest)
    (grows : Grows arrays after accrual grown (op :: rest)) :
    Tends after key (some grown) op rest := by
  have spared {r : StoredRecord} (kept : Spares arrays False r rest) : Spares after False r rest :=
    kept.mono id grows.tail.kept
  have current {own : Accrual} (accruing : accrual = some own) {later : StoreOp}
      (continues : Continues key own.serial later) : Continues key grown.serial later := by
    rwa [(grows.extends_own own accruing).1] at continues
  have inside {own : Accrual} (accruing : accrual = some own) {r : StoredRecord}
      (listed : r ∈ own.records.map (·.stored)) : r ∈ grown.records.map (·.stored) := by
    obtain ⟨record, member, rfl⟩ := List.mem_map.mp listed
    exact List.mem_map_of_mem ((grows.extends_own own accruing).2 record member)
  intro records written
  cases op with
  | putOpen operatorAddress serial firstAt =>
    cases written
    rcases tends _ rfl with ⟨own, accruing, listed, continues⟩ | ⟨stale, promoted⟩
    · refine .inl ⟨grown, rfl, fun r member => ?_, fun later behind =>
        current accruing (continues later behind)⟩
      obtain ⟨record, put, rfl⟩ := List.mem_map.mp member
      rcases grows.added operatorAddress serial record put with old | ⟨-, new⟩
      · exact inside accruing (listed _ (List.mem_map_of_mem old))
      · exact List.mem_map_of_mem new
    · have other : serial ≠ grown.serial := by
        cases accruing : accrual with
        | none =>
          exact grows.begins accruing operatorAddress serial firstAt (List.mem_cons_self ..)
        | some own =>
          rintro rfl
          apply stale own accruing operatorAddress firstAt
          rw [(grows.extends_own own accruing).1]
      refine .inr ⟨fun own same operatorAddress' firstAt' => ?_, fun r member => ?_⟩
      · obtain rfl := Option.some.inj same
        rintro ⟨⟩
        exact other rfl
      · obtain ⟨record, put, rfl⟩ := List.mem_map.mp member
        rcases grows.added operatorAddress serial record put with old | ⟨same, -⟩
        · exact spared (promoted _ (List.mem_map_of_mem old))
        · exact absurd same other
  | putOpenRow row =>
    rcases tends records written with ⟨own, accruing, listed, continues⟩ | ⟨-, promoted⟩
    · exact .inl ⟨grown, rfl, fun r member => inside accruing (listed r member),
        fun later behind => current accruing (continues later behind)⟩
    · exact .inr ⟨fun _ _ _ _ => nofun, fun r member => spared (promoted r member)⟩
  | _ => cases written

theorem Tended.grow {grown : Accrual} (tended : Tended arrays key accrual ops)
    (grows : Grows arrays after accrual grown ops) : Tended after key (some grown) ops := by
  induction ops with
  | nil => trivial
  | cons op rest ih => exact ⟨tended.1.grow grows, ih tended.2 grows.tail⟩

-- The row of the growing array is queued once more.
theorem Tended.reput {own : Accrual} (tended : Tended arrays key (some own) ops)
    (live : arrays key own.serial = own.records) (firstAt : Nat) :
    Tended arrays key (some own) (ops ++ [.putOpen key own.serial firstAt]) := by
  induction ops with
  | nil =>
    refine ⟨fun records written => .inl ⟨own, rfl, ?_, by simp⟩, trivial⟩
    cases written
    simp [live]
  | cons op rest ih =>
    refine ⟨fun records written => ?_, ih tended.2⟩
    rcases tended.1 records written with ⟨same, accruing, listed, continues⟩ | ⟨stale, promoted⟩
    · obtain rfl := Option.some.inj accruing
      refine .inl ⟨own, rfl, listed, fun later member => ?_⟩
      rcases List.mem_append.mp member with old | new
      · exact continues later old
      · obtain rfl := List.mem_singleton.mp new
        exact ⟨rfl, rfl⟩
    · refine .inr ⟨stale, fun r member => ?_⟩
      exact (spares_append rest _).mpr ((promoted r member).weaken False.elim)

-- The accrual leaves with all its records, for one batch row.
theorem Tended.promote {own : Accrual} (tended : Tended arrays key (some own) ops)
    (live : arrays key own.serial = own.records) (b : String) {row : PersistedAccrual}
    (lists : row.records = own.records.map (·.stored)) :
    Tended arrays key none (ops ++ [.putBatch b row, .removeOpen key]) := by
  induction ops with
  | nil => exact ⟨nofun, nofun, trivial⟩
  | cons op rest ih =>
    refine ⟨fun records written => .inr ⟨nofun, fun r member => ?_⟩, ih tended.2⟩
    apply (spares_append rest _).mpr
    rcases tended.1 records written with ⟨same, accruing, listed, continues⟩ | ⟨-, promoted⟩
    · obtain rfl := Option.some.inj accruing
      apply spares_of_continues live continues (listed r member)
      exact .inl (lists ▸ listed r member)
    · exact (promoted r member).weaken False.elim

end tended

end X402Mesh.Settlement
