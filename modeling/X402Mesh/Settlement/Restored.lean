import X402Mesh.Settlement.Upkeep

set_option autoImplicit false

namespace X402Mesh.Settlement

open Registry Service

variable (cfg : Deps) (now : Nat → Nat)

namespace Service

/-- What recovery does with one row, and the number that a new batch id takes. -/
inductive RowMove (state : Recovery) (row : PersistedAccrual) (after : Recovery) : Prop
  | halted (unsummed : amount (payable state.handled row) = none) (stopped : after.stopped = true)
      (recovered : Recovered cfg state.svc after.svc row.operatorAddress [] [])
  | dropped (nothing : amount (payable state.handled row) = some 0) (going : after.stopped = false)
      (seq : after.svc.batchSeq = state.svc.batchSeq)
      (recovered : Recovered cfg state.svc after.svc row.operatorAddress [dropOp row] [])
  | resumed (b : String) (summed : Int) (sum : amount (payable state.handled row) = some summed)
      (going : after.stopped = false) (id : resumedId row = some b)
      (seq : after.svc.batchSeq = state.svc.batchSeq)
      (recovered : Recovered cfg state.svc after.svc row.operatorAddress
        [.putBatch b (rowUnder row (payable state.handled row) b)]
        [recoveredRun cfg row (payable state.handled row) b summed true])
  | fresh (b : String) (summed : Int) (sum : amount (payable state.handled row) = some summed)
      (going : after.stopped = false) (id : resumedId row = none)
      (named : b = recoveredIdOf (now (state.svc.batchSeq + 1)) (state.svc.batchSeq + 1))
      (seq : after.svc.batchSeq = state.svc.batchSeq + 1)
      (recovered : Recovered cfg state.svc after.svc row.operatorAddress
        [.putBatch b (rowUnder row (payable state.handled row) b), .removeOpen row.operatorAddress]
        [recoveredRun cfg row (payable state.handled row) b summed false])

theorem recoverRow_move (stored : cfg.accrualStore = true) (state : Recovery)
    (going : state.stopped = false) (row : PersistedAccrual) :
    RowMove cfg now state row (recoverRow cfg now state row) := by
  obtain ⟨ops, runs, outcome, recovered, -, idle⟩ :=
    recoverRow_outcome cfg stored now state going row
  cases recoverRow_rowPass cfg now state going row with
  | halted unsummed stopped =>
    obtain ⟨rfl, rfl⟩ := idle stopped
    exact .halted unsummed stopped recovered
  | nothing sum continues seq =>
    unfold amount at sum
    cases outcome with
    | dropped => exact .dropped sum continues seq recovered
    | stopped unsummed => simp [sum] at unsummed
    | resumed _ summed _ sum' owes => exact absurd (Option.some.inj (sum'.symm.trans sum)) owes
    | fresh _ summed _ sum' owes => exact absurd (Option.some.inj (sum'.symm.trans sum)) owes
  | pays run continues paid payouts =>
    have same : runs = [run] := List.append_cancel_left (recovered.payouts.symm.trans payouts)
    generalize counted : (recoverRow cfg now state row).svc.batchSeq = next at paid
    cases outcome with
    | dropped | stopped => cases same
    | resumed b summed id sum owes =>
      cases paid with
      | resumed => exact .resumed b summed sum continues id counted recovered
      | fresh _ _ id' =>
        rw [id] at id'
        cases id'
    | fresh b summed id sum owes =>
      cases paid with
      | resumed _ _ id' =>
        rw [id] at id'
        cases id'
      | fresh =>
        have named := congrArg (fun runs => runs.map (·.job.batchId)) same
        simp only [List.map_cons, List.map_nil, recoveredRun, batchJob, List.cons.injEq,
          Option.some.injEq, and_true] at named
        exact .fresh b summed sum continues id named counted recovered

-- The rows that recovery gets through before an amount throws.
def passed : List String → List PersistedAccrual → List PersistedAccrual
  | _, [] => []
  | handled, row :: rest =>
    if (amount (payable handled row)).isSome then
      row :: passed (requestIdsOf (payable handled row) ++ handled) rest
    else []

end Service

namespace Standing

/-- Each row has a place of its own in the store, its records are what they seem, and new batch ids
are free. -/
structure Orderly (rows : Rows) (now : Nat → Nat) (all : List PersistedAccrual) : Prop where
  place : ∀ row ∈ all,
    (∃ b, b ≠ "" ∧ row.batchId = some b ∧ rows.batchRows.get? b = some row) ∨
      row.batchId = none ∧ rows.openRows.get? row.operatorAddress = some row
  apart : all.Pairwise fun row other =>
    (∀ b, row.batchId = some b → other.batchId ≠ some b) ∧
      (row.batchId = none → other.batchId = none ∧ row.operatorAddress ≠ other.operatorAddress)
  usable : ∀ row ∈ all, ∀ r ∈ row.records, r.usable = true
  agree : ∀ row ∈ all, ∀ other ∈ all, ∀ r ∈ row.records, ∀ r' ∈ other.records,
    r.requestId = r'.requestId → r = r'
  owing : ∀ before row later, all = before ++ row :: later →
    remaining before row = [] ∨ amount (remaining before row) ≠ some 0
  fresh : ∀ n < all.countP (·.batchId.isNone),
    rows.batchRows.get? (recoveredIdOf (now (n + 1)) (n + 1)) = none

-- A batch id that the pass has used.
def Touched (before : List PersistedAccrual) (seq : Nat) (b : String) : Prop :=
  (∃ row ∈ before, row.batchId = some b) ∨
    ∃ n < seq, b = recoveredIdOf (now (n + 1)) (n + 1)

def InBatch (s : Standing) (before : List PersistedAccrual) (r : StoredRecord) : Prop :=
  ∃ row ∈ before, ∃ b, row.batchId = some b ∧ s.rows.batchRows.get? b = some row ∧
    r ∈ row.records ∧ s.Covered b r

def Leaving (s : Standing) (r : StoredRecord) : Prop :=
  ∃ key row, s.rows.openRows.get? key = some row ∧ r ∈ row.records ∧
    Spares s.svc.arrays False r (s.svc.pending key)

structure Recovering (s : Standing) (before : List PersistedAccrual) (seq : Nat) : Prop where
  idle : ∀ key, s.svc.accruals.get? key = none
  queued : ∀ key, ∀ op ∈ s.svc.pending key, openKey op = none ∨
    op = .removeOpen key ∧ ∃ row ∈ before, row.batchId = none ∧ row.operatorAddress = key
  batches : ∀ key, ∀ op ∈ s.svc.pending key, ∀ b, batchKey op = some b → Touched now before seq b
  runs : ∀ run ∈ s.svc.payouts, ∀ b, run.job.batchId = some b → Touched now before seq b
  covered : ∀ key b row, .putBatch b row ∈ s.svc.pending key → ∀ r ∈ row.records, s.Covered b r
  secured : ∀ row ∈ before, ∀ r ∈ row.records,
    s.InBatch before r ∨ row.batchId = none ∧ s.Leaving r

structure Apart (before : List PersistedAccrual) (seq : Nat) (ops : List StoreOp)
    (runs : List PayoutRun) : Prop where
  ops : ∀ b, Touched now before seq b → ∀ op ∈ ops, batchKey op ≠ some b
  runs : ∀ b, Touched now before seq b → ∀ run ∈ runs, run.job.batchId ≠ some b

section recovering

variable {cfg now} {s : Standing} {before more later : List PersistedAccrual}
variable {row : PersistedAccrual} {operatorAddress : String} {seq seq' : Nat} {after : Service}
variable {ops : List StoreOp} {runs : List PayoutRun}

theorem Covered.recovered {b : String} {r : StoredRecord} (covered : s.Covered b r)
    (recovered : Recovered cfg s.svc after operatorAddress ops runs)
    (apart : Apart now before seq ops runs) (touched : Touched now before seq b) :
    Covered { s with svc := after } b r := by
  apply covered.fewer
  refine ⟨fun _ member => member, fun key op filed member => ?_, fun run member named => ?_⟩
  · rcases recovered.mem_pending member with old | ⟨_, rfl⟩ | ⟨-, new⟩
    · exact old
    · cases filed
    · exact absurd filed (apart.ops b touched op new)
  · rw [recovered.payouts, List.mem_append] at member
    rcases member with old | new
    · exact ⟨run, old, rfl⟩
    · exact absurd named (apart.runs b touched run new)

theorem InBatch.recovered {r : StoredRecord} (batched : s.InBatch before r)
    (recovered : Recovered cfg s.svc after operatorAddress ops runs)
    (apart : Apart now before seq ops runs) :
    InBatch { s with svc := after } (before ++ more) r := by
  obtain ⟨own, member, b, named, found, listed, covered⟩ := batched
  exact ⟨own, List.mem_append_left _ member, b, named, found, listed,
    covered.recovered recovered apart (.inl ⟨own, member, named⟩)⟩

theorem Leaving.recovered {r : StoredRecord} (leaving : s.Leaving r)
    (recovered : Recovered cfg s.svc after operatorAddress ops runs) :
    Leaving { s with svc := after } r := by
  obtain ⟨key, own, found, listed, spares⟩ := leaving
  obtain ⟨records, queued⟩ := recovered.pending key
  refine ⟨key, own, found, listed, ?_⟩
  dsimp only
  rw [queued, recovered.arrays, List.append_assoc]
  exact (spares_append _ _).mpr (spares.weaken False.elim)

-- The next rows, whose records are secured as well.
theorem Recovering.extend (recovering : Recovering now s before seq)
    (recovered : Recovered cfg s.svc after operatorAddress ops runs)
    (apart : Apart now before seq ops runs) (grows : seq ≤ seq')
    (opened : ∀ op ∈ ops, openKey op = none ∨
      op = .removeOpen operatorAddress ∧
        ∃ row ∈ more, row.batchId = none ∧ row.operatorAddress = operatorAddress)
    (batches : ∀ op ∈ ops, ∀ b, batchKey op = some b → Touched now (before ++ more) seq' b)
    (started : ∀ run ∈ runs, ∀ b, run.job.batchId = some b → Touched now (before ++ more) seq' b)
    (covered : ∀ b put, .putBatch b put ∈ ops → ∀ r ∈ put.records,
      Covered { s with svc := after } b r)
    (secured : ∀ row ∈ more, ∀ r ∈ row.records,
      InBatch { s with svc := after } (before ++ more) r ∨
        row.batchId = none ∧ Leaving { s with svc := after } r) :
    Recovering now { s with svc := after } (before ++ more) seq' := by
  have touched {b : String} (own : Touched now before seq b) :
      Touched now (before ++ more) seq' b := by
    rcases own with ⟨own, member, named⟩ | ⟨n, bound, named⟩
    · exact .inl ⟨own, List.mem_append_left _ member, named⟩
    · exact .inr ⟨n, by omega, named⟩
  constructor
  · exact fun key => by
      dsimp only
      rw [recovered.accruals]
      exact recovering.idle key
  · intro key op member
    rcases recovered.mem_pending member with old | ⟨_, rfl⟩ | ⟨rfl, new⟩
    · apply (recovering.queued key op old).imp_right
      rintro ⟨rfl, own, listed, rest⟩
      exact ⟨rfl, own, List.mem_append_left _ listed, rest⟩
    · exact .inl rfl
    · apply (opened op new).imp_right
      rintro ⟨rfl, own, listed, rest⟩
      exact ⟨rfl, own, List.mem_append_right _ listed, rest⟩
  · intro key op member b filed
    rcases recovered.mem_pending member with old | ⟨_, rfl⟩ | ⟨-, new⟩
    · exact touched (recovering.batches key op old b filed)
    · cases filed
    · exact batches op new b filed
  · intro run member b named
    dsimp only at member
    rw [recovered.payouts, List.mem_append] at member
    rcases member with old | new
    · exact touched (recovering.runs run old b named)
    · exact started run new b named
  · intro key b put member r listed
    rcases recovered.mem_pending member with old | ⟨_, ledger⟩ | ⟨-, new⟩
    · exact (recovering.covered key b put old r listed).recovered recovered apart
        (recovering.batches key _ old b rfl)
    · cases ledger
    · exact covered b put new r listed
  · intro own member r listed
    rcases List.mem_append.mp member with old | new
    · apply (recovering.secured own old r listed).imp
      · exact fun batched => batched.recovered recovered apart
      · exact And.imp_right fun leaving => leaving.recovered recovered
    · exact secured own new r listed

section row

variable {rows : Rows} {settled : List String} {state next : Recovery}
variable (orderly : Orderly rows now (before ++ row :: later))

include orderly

omit orderly in
theorem count_before : before.countP (·.batchId.isNone) ≤
    (before ++ row :: later).countP (·.batchId.isNone) := by
  rw [List.countP_append]
  omega

theorem Orderly.ordered {own : PersistedAccrual} (member : own ∈ before) :
    (∀ b, own.batchId = some b → row.batchId ≠ some b) ∧
      (own.batchId = none → row.batchId = none ∧ own.operatorAddress ≠ row.operatorAddress) :=
  (List.pairwise_append.mp orderly.apart).2.2 own member row (List.mem_cons_self ..)

theorem Orderly.resumedId : resumedId row = row.batchId := by
  rcases orderly.place row (by simp) with ⟨b, filled, named, -⟩ | ⟨none, -⟩
  · simp [Service.resumedId, named, filled]
  · simp [Service.resumedId, none]

-- Neither the id of a stored row nor a new id has been used by the rows before.
theorem Orderly.untouched_stored (bound : seq ≤ before.countP (·.batchId.isNone)) {b : String}
    (named : row.batchId = some b) : ¬ Touched now before seq b := by
  rintro (⟨own, member, same⟩ | ⟨n, below, rfl⟩)
  · exact (orderly.ordered member).1 b same named
  · have free := orderly.fresh n (below.trans_le (bound.trans count_before))
    rcases orderly.place row (by simp) with ⟨b, -, own, stored⟩ | ⟨none, -⟩
    · rw [named] at own
      cases own
      rw [free] at stored
      cases stored
    · rw [named] at none
      cases none

theorem Orderly.untouched_fresh (bound : seq ≤ before.countP (·.batchId.isNone))
    (unnamed : row.batchId = none) :
    ¬ Touched now before seq (recoveredIdOf (now (seq + 1)) (seq + 1)) := by
  rintro (⟨own, member, same⟩ | ⟨n, below, same⟩)
  · have free := orderly.fresh seq (by simp [List.countP_append, unnamed]; omega)
    rcases orderly.place own (List.mem_append_left _ member) with ⟨b, -, named, stored⟩ | ⟨none, -⟩
    · rw [same] at named
      cases named
      rw [free] at stored
      cases stored
    · rw [same] at none
      cases none
  · have equal := recoveredIdOf_injective same
    omega

-- A record that is not payable any more is secured by an earlier row.
theorem Recovering.earlier (recovering : Recovering now s before seq) {r : StoredRecord}
    (inside : r ∈ row.records) (gone : r ∉ remaining before row) :
    s.InBatch before r ∨ row.batchId = none ∧ s.Leaving r := by
  have usable := orderly.usable row (by simp) r inside
  have handled : r.requestId.getD "" ∈ before.flatMap rowIds := by
    by_contra new
    exact gone ((mem_payable _ row r).mpr ⟨inside, usable, new⟩)
  obtain ⟨own, member, listed⟩ := List.mem_flatMap.mp handled
  obtain ⟨r', inside', usable', id⟩ := (mem_rowIds own _).mp listed
  have same : r.requestId = r'.requestId := by
    simp only [StoredRecord.usable, Bool.and_eq_true, Option.isSome_iff_exists] at usable usable'
    obtain ⟨-, id₁, first⟩ := usable
    obtain ⟨-, id₂, second⟩ := usable'
    simp_all
  obtain rfl := orderly.agree row (by simp) own (List.mem_append_left _ member) r inside r' inside'
    same
  apply (recovering.secured own member r inside').imp_right
  exact And.imp_left fun unnamed => ((orderly.ordered member).2 unnamed).1

omit orderly in
-- What is left of the row is on its way to a batch of its own.
theorem Recovering.taken (recovering : Recovering now s before seq) {b : String}
    (untouched : ¬ Touched now before seq b)
    (recovered : Recovered cfg s.svc after operatorAddress ops runs)
    (puts : ∀ put, .putBatch b put ∈ ops → put.records = remaining before row)
    (keeps : .removeBatch b ∉ ops)
    (pays : ∀ run ∈ runs, run.job.requestIds = requestIdsOf (remaining before row))
    {r : StoredRecord} (listed : r ∈ remaining before row) :
    Covered { s with svc := after } b r := by
  refine ⟨fun key put member => ?_, fun key member => ?_, fun run member named => ?_⟩
  · rcases recovered.mem_pending member with old | ⟨_, ledger⟩ | ⟨-, new⟩
    · exact absurd (recovering.batches key _ old b rfl) untouched
    · cases ledger
    · exact puts put new ▸ listed
  · rcases recovered.mem_pending member with old | ⟨_, ledger⟩ | ⟨-, new⟩
    · exact absurd (recovering.batches key _ old b rfl) untouched
    · cases ledger
    · exact absurd new keeps
  · dsimp only at member
    rw [recovered.payouts, List.mem_append] at member
    rcases member with old | new
    · exact absurd (recovering.runs run old b named) untouched
    · rw [pays run new]
      obtain ⟨inside, usable, -⟩ := (mem_payable _ row r).mp listed
      simp only [StoredRecord.usable, Bool.and_eq_true, Option.isSome_iff_exists] at usable
      obtain ⟨-, id, requestId⟩ := usable
      exact ⟨id, List.mem_map.mpr ⟨r, listed, by simp [requestId]⟩, requestId⟩

-- What one row does to how the process stands.
theorem Recovering.advance
    (recovering : Recovering now ⟨rows, settled, state.svc⟩ before state.svc.batchSeq)
    (handled : ∀ id, id ∈ state.handled ↔ id ∈ before.flatMap rowIds)
    (bound : state.svc.batchSeq ≤ before.countP (·.batchId.isNone))
    (move : RowMove cfg now state row next) (going : next.stopped = false) :
    Recovering now ⟨rows, settled, next.svc⟩ (before ++ [row]) next.svc.batchSeq ∧
      next.svc.batchSeq ≤ (before ++ [row]).countP (·.batchId.isNone) := by
  have left : payable state.handled row = remaining before row := payable_congr handled row
  have counted : before.countP (·.batchId.isNone) ≤
      (before ++ [row]).countP (·.batchId.isNone) := by
    rw [List.countP_append]
    omega
  have own {seq : Nat} {b : String} (named : row.batchId = some b) :
      Touched now (before ++ [row]) seq b := .inl ⟨row, by simp, named⟩
  cases move with
  | halted _ stopped =>
    rw [going] at stopped
    cases stopped
  | dropped nothing _ seq recovered =>
    rw [left] at nothing
    have none_left : remaining before row = [] :=
      (orderly.owing before row later rfl).resolve_right fun owes => owes nothing
    rw [seq]
    refine ⟨?_, bound.trans counted⟩
    have apart : Apart now before state.svc.batchSeq [dropOp row] [] := by
      refine ⟨fun b touched => ?_, fun _ _ _ member => by cases member⟩
      rw [List.forall_mem_singleton]
      intro filed
      unfold dropOp at filed
      cases named : row.batchId with
      | none => simp [named, batchKey] at filed
      | some b' =>
        simp only [named, batchKey, Option.some.injEq] at filed
        subst filed
        exact orderly.untouched_stored bound named touched
    apply recovering.extend recovered apart (le_refl _)
    · rw [List.forall_mem_singleton]
      unfold dropOp
      cases named : row.batchId with
      | none => exact .inr ⟨rfl, row, List.mem_singleton_self _, named, rfl⟩
      | some b => exact .inl rfl
    · rw [List.forall_mem_singleton]
      intro b filed
      unfold dropOp at filed
      cases named : row.batchId with
      | none => simp [named, batchKey] at filed
      | some b' =>
        simp only [named, batchKey, Option.some.injEq] at filed
        exact own (filed ▸ named)
    · exact fun _ member => by cases member
    · intro b put member
      unfold dropOp at member
      cases named : row.batchId <;> simp [named] at member
    · rw [List.forall_mem_singleton]
      intro r inside
      have gone : r ∉ remaining before row := by simp [none_left]
      apply (recovering.earlier orderly inside gone).imp
      · exact fun batched => batched.recovered recovered apart
      · exact And.imp_right fun leaving => leaving.recovered recovered
  | resumed b summed sum _ id seq recovered =>
    rw [left] at recovered
    have named : row.batchId = some b := orderly.resumedId ▸ id
    rw [seq]
    refine ⟨?_, bound.trans counted⟩
    have untouched := orderly.untouched_stored bound named
    have apart : Apart now before state.svc.batchSeq
        [.putBatch b (rowUnder row (remaining before row) b)]
        [recoveredRun cfg row (remaining before row) b summed true] := by
      constructor <;>
      · intro b' touched
        rw [List.forall_mem_singleton]
        intro filed
        obtain rfl : b = b' := Option.some.inj filed
        exact untouched touched
    have covered {r : StoredRecord} (listed : r ∈ remaining before row) :
        Covered ⟨rows, settled, next.svc⟩ b r := by
      refine recovering.taken untouched recovered (fun put member => ?_) (by simp) ?_ listed
      · obtain rfl := (StoreOp.putBatch.inj (List.mem_singleton.mp member)).2
        rfl
      · rw [List.forall_mem_singleton]
        exact recoveredRun_requestIds ..
    apply recovering.extend recovered apart (le_refl _)
    · rw [List.forall_mem_singleton]
      exact .inl rfl
    · rw [List.forall_mem_singleton]
      exact fun b' filed => own (named.trans filed)
    · rw [List.forall_mem_singleton]
      exact fun b' filed => own (named.trans filed)
    · intro b' put member r listed
      obtain ⟨rfl, rfl⟩ := StoreOp.putBatch.inj (List.mem_singleton.mp member)
      exact covered listed
    · rw [List.forall_mem_singleton]
      intro r inside
      by_cases listed : r ∈ remaining before row
      · left
        rcases orderly.place row (by simp) with ⟨b', -, named', stored⟩ | ⟨none, -⟩
        · obtain rfl : b = b' := Option.some.inj (named.symm.trans named')
          exact ⟨row, by simp, b, named, stored, inside, covered listed⟩
        · rw [named] at none
          cases none
      · apply (recovering.earlier orderly inside listed).imp
        · exact fun batched => batched.recovered recovered apart
        · exact And.imp_right fun leaving => leaving.recovered recovered
  | fresh b summed sum _ id named seq recovered =>
    rw [left] at recovered
    have unnamed : row.batchId = none := orderly.resumedId ▸ id
    rw [seq]
    have untouched := orderly.untouched_fresh bound unnamed
    rw [← named] at untouched
    have new {b' : String} (same : b = b') :
        Touched now (before ++ [row]) (state.svc.batchSeq + 1) b' :=
      .inr ⟨state.svc.batchSeq, by omega, same ▸ named⟩
    have apart : Apart now before state.svc.batchSeq
        [.putBatch b (rowUnder row (remaining before row) b), .removeOpen row.operatorAddress]
        [recoveredRun cfg row (remaining before row) b summed false] := by
      constructor
      · intro b' touched op member filed
        simp only [List.mem_cons, List.not_mem_nil, or_false] at member
        rcases member with rfl | rfl
        · obtain rfl : b = b' := Option.some.inj filed
          exact untouched touched
        · cases filed
      · intro b' touched
        rw [List.forall_mem_singleton]
        intro filed
        obtain rfl : b = b' := Option.some.inj filed
        exact untouched touched
    have covered {r : StoredRecord} (listed : r ∈ remaining before row) :
        Covered ⟨rows, settled, next.svc⟩ b r := by
      refine recovering.taken untouched recovered (fun put member => ?_) (by simp) ?_ listed
      · simp only [List.mem_cons, StoreOp.putBatch.injEq, true_and, reduceCtorEq,
          List.not_mem_nil, or_false] at member
        rw [member]
        rfl
      · rw [List.forall_mem_singleton]
        exact recoveredRun_requestIds ..
    refine ⟨?_, by simp [List.countP_append, unnamed]; omega⟩
    apply recovering.extend recovered apart (Nat.le_succ _)
    · intro op member
      simp only [List.mem_cons, List.not_mem_nil, or_false] at member
      rcases member with rfl | rfl
      · exact .inl rfl
      · exact .inr ⟨rfl, row, List.mem_singleton_self _, unnamed, rfl⟩
    · intro op member b' filed
      simp only [List.mem_cons, List.not_mem_nil, or_false] at member
      rcases member with rfl | rfl
      · exact new (Option.some.inj filed)
      · cases filed
    · rw [List.forall_mem_singleton]
      exact fun b' filed => new (Option.some.inj filed)
    · intro b' put member r listed
      simp only [List.mem_cons, StoreOp.putBatch.injEq, reduceCtorEq, List.not_mem_nil,
        or_false] at member
      obtain ⟨rfl, rfl⟩ := member
      exact covered listed
    · rw [List.forall_mem_singleton]
      intro r inside
      by_cases listed : r ∈ remaining before row
      · right
        rcases orderly.place row (by simp) with ⟨b', -, named', -⟩ | ⟨-, stored⟩
        · rw [unnamed] at named'
          cases named'
        · obtain ⟨records, queued⟩ := recovered.pending row.operatorAddress
          refine ⟨unnamed, row.operatorAddress, row, stored, inside, ?_⟩
          dsimp only
          rw [queued, if_pos rfl, List.append_assoc]
          have unopened : ∀ op ∈ state.svc.pending row.operatorAddress, openKey op = none := by
            intro op member
            rcases recovering.queued _ op member with closed | ⟨-, other, earlier, none, same⟩
            · exact closed
            · exact absurd same ((orderly.ordered earlier).2 none).2
          refine (spares_append _ _).mpr (spares_of_unopened unopened ?_)
          refine (spares_append _ _).mpr (spares_of_unopened (ledger_unopened records) ?_)
          exact .inl listed
      · apply (recovering.earlier orderly inside listed).imp
        · exact fun batched => batched.recovered recovered apart
        · exact And.imp_right fun leaving => leaving.recovered recovered

end row

-- The pass over the rows, as far as it gets.
theorem recoverRows_recovering (stored : cfg.accrualStore = true) {rows : Rows}
    {settled : List String} (rest before : List PersistedAccrual) (state : Recovery)
    (going : state.stopped = false)
    (handled : ∀ id, id ∈ state.handled ↔ id ∈ before.flatMap rowIds)
    (bound : state.svc.batchSeq ≤ before.countP (·.batchId.isNone))
    (orderly : Orderly rows now (before ++ passed state.handled rest))
    (recovering : Recovering now ⟨rows, settled, state.svc⟩ before state.svc.batchSeq) :
    ∃ seq ≤ (before ++ passed state.handled rest).countP (·.batchId.isNone),
      Recovering now ⟨rows, settled, (rest.foldl (recoverRow cfg now) state).svc⟩
        (before ++ passed state.handled rest) seq := by
  induction rest generalizing before state with
  | nil =>
    refine ⟨state.svc.batchSeq, ?_, ?_⟩
    · simpa [passed] using bound
    · simpa [passed] using recovering
  | cons row rest ih =>
    have move := recoverRow_move cfg now stored state going row
    have own := recoverRow_handled cfg now state going row
    rw [List.foldl_cons]
    unfold passed at orderly ⊢
    split at orderly
    next summed =>
      rw [if_pos summed]
      have continues : (recoverRow cfg now state row).stopped = false := by
        cases move with
        | halted unsummed => simp [unsummed] at summed
        | dropped | resumed | fresh => assumption
      obtain ⟨advanced, bound'⟩ := recovering.advance orderly handled bound move continues
      have handled' (id : String) : id ∈ (recoverRow cfg now state row).handled ↔
          id ∈ (before ++ [row]).flatMap rowIds := by
        rw [own, mem_handled, handled]
        simp [or_comm]
      rw [List.append_cons, ← own] at orderly ⊢
      exact ih (before ++ [row]) _ continues handled' bound' orderly advanced
    next unsummed =>
      rw [if_neg unsummed, List.append_nil]
      cases move with
      | halted _ stopped recovered =>
        rw [recoverRows_stopped cfg now rest _ stopped]
        refine ⟨state.svc.batchSeq, bound, ?_⟩
        have apart : Apart now before state.svc.batchSeq [] [] :=
          ⟨by simp, by simp⟩
        have kept : Recovering now _ (before ++ []) state.svc.batchSeq :=
          recovering.extend recovered apart (le_refl _) (by simp) (by simp) (by simp) (by simp)
            (by simp)
        simpa using kept
      | dropped sum => simp [sum] at unsummed
      | resumed _ _ sum => simp [sum] at unsummed
      | fresh _ _ sum => simp [sum] at unsummed

theorem Recovering.held {all : List PersistedAccrual} (recovering : Recovering now s all seq)
    (orderly : Orderly s.rows now all) (bound : seq ≤ all.countP (·.batchId.isNone)) : Held s := by
  refine ⟨⟨fun key own found => ?_, fun key op member other filed => ?_,
    fun key operatorAddress serial firstAt member => ?_, fun key own found => ?_, fun key => ?_⟩,
    recovering.covered, fun b row found r listed => ?_, fun key row found r listed => ?_⟩
  · rw [recovering.idle] at found
    cases found
  · rcases recovering.queued key op member with closed | ⟨rfl, -⟩
    · rw [closed] at filed
      cases filed
    · exact (Option.some.inj filed).symm
  · rcases recovering.queued key _ member with closed | ⟨same, -⟩
    · cases closed
    · cases same
  · rw [recovering.idle] at found
    cases found
  · apply tended_of_closed
    intro op member
    rcases recovering.queued key op member with closed | ⟨rfl, -⟩
    · exact opened_of_unopened closed
    · rfl
  · by_cases handled : ∃ own ∈ all, own.batchId = some b
    · obtain ⟨own, member, named⟩ := handled
      rcases orderly.place own member with ⟨b', -, same, stored⟩ | ⟨none, -⟩
      · obtain rfl : b = b' := Option.some.inj (named.symm.trans same)
        obtain rfl : own = row := Option.some.inj (stored.symm.trans found)
        rcases recovering.secured own member r listed with ⟨_, _, b', -, kept⟩ | ⟨none, -⟩
        · exact .inr ⟨b', _, kept⟩
        · rw [named] at none
          cases none
      · rw [named] at none
        cases none
    · have untouched : ¬ Touched now all seq b := by
        rintro (own | ⟨n, below, rfl⟩)
        · exact handled own
        · rw [orderly.fresh n (by omega)] at found
          cases found
      refine .inr ⟨b, row, found, listed, fun key put member => ?_, fun key member => ?_,
        fun run member named => ?_⟩
      · exact absurd (recovering.batches key _ member b rfl) untouched
      · exact absurd (recovering.batches key _ member b rfl) untouched
      · exact absurd (recovering.runs run member b named) untouched
  · by_cases handled : ∃ own ∈ all, own.batchId = none ∧ own.operatorAddress = key
    · obtain ⟨own, member, none, rfl⟩ := handled
      rcases orderly.place own member with ⟨b', -, same, -⟩ | ⟨-, stored⟩
      · rw [none] at same
        cases same
      · obtain rfl : own = row := Option.some.inj (stored.symm.trans found)
        rcases recovering.secured own member r listed with
          ⟨_, _, b', -, kept⟩ | ⟨-, key, row', kept⟩
        · exact .inl (.inr ⟨b', _, kept⟩)
        · exact .inr ⟨key, row', kept.1, kept.2.1, kept.2.2.weaken False.elim⟩
    · refine .inr ⟨key, row, found, listed, spares_of_unopened (fun op member => ?_) ?_⟩
      · rcases recovering.queued key op member with closed | ⟨-, own⟩
        · exact closed
        · exact absurd own handled
      · intro own there
        rw [recovering.idle] at there
        cases there

-- A record that a row lists is kept by whoever holds the rows.
theorem Held.keeps {s s' : Standing} (held : Held s') (rows : s'.rows = s.rows)
    (settled : s'.settled = s.settled) : Keeps s s' := by
  have batched (r : StoredRecord) (before : s.Batched r) : s'.Batched r := by
    rcases before with paid | ⟨b, row, found, listed, -⟩
    · exact .inl (settled ▸ paid)
    · exact held.batchRows b row (rows ▸ found) r listed
  refine ⟨batched, fun r kept => kept.elim (fun before => .inl (batched r before)) ?_⟩
  rintro ⟨key, row, found, listed, -⟩
  exact held.openRows key row (rows ▸ found) r listed

end recovering

end Standing

end X402Mesh.Settlement
