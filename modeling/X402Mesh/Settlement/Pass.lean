import X402Mesh.Settlement.Recovery

set_option autoImplicit false

-- Which payouts recovery starts depends on the rows alone: not on the ledger, the claims or the
-- writes. `Pass` reads it off the rows, and `recoverRows_pass` connects it to the loop.

namespace X402Mesh.Settlement.Service

open Registry Money

variable (cfg : Deps) (now : Nat → Nat)

-- What a row still lists once the rows before it are handled.
def remaining (before : List PersistedAccrual) (row : PersistedAccrual) : List StoredRecord :=
  payable (before.flatMap rowIds) row

def amount (records : List StoredRecord) : Option Int := sumPayouts (records.map (·.cast))

inductive PaidAs (seq : Nat) (row : PersistedAccrual) (records : List StoredRecord) :
    PayoutRun → Nat → Prop
  | resumed {summed : Int} {batchId : String} (sum : amount records = some summed)
      (owes : summed ≠ 0) (id : resumedId row = some batchId) :
      PaidAs seq row records (recoveredRun cfg row records batchId summed true) seq
  | fresh {summed : Int} (sum : amount records = some summed) (owes : summed ≠ 0)
      (id : resumedId row = none) :
      PaidAs seq row records
        (recoveredRun cfg row records (recoveredIdOf (now (seq + 1)) (seq + 1)) summed false)
        (seq + 1)

/-- Here `handled` and `seq` are the requests and the batch counter that the pass starts from, and
the last argument says whether a BigInt threw. -/
inductive Pass : List String → Nat → List PersistedAccrual → List PayoutRun → Bool → Prop
  | done {handled : List String} {seq : Nat} : Pass handled seq [] [] false
  | halted {handled : List String} {seq : Nat} {row : PersistedAccrual}
      {rest : List PersistedAccrual} (unsummed : amount (payable handled row) = none) :
      Pass handled seq (row :: rest) [] true
  | nothing {handled : List String} {seq : Nat} {row : PersistedAccrual}
      {rest : List PersistedAccrual} {runs : List PayoutRun} {stopped : Bool}
      (sum : amount (payable handled row) = some 0)
      (later : Pass (requestIdsOf (payable handled row) ++ handled) seq rest runs stopped) :
      Pass handled seq (row :: rest) runs stopped
  | pays {handled : List String} {seq next : Nat} {row : PersistedAccrual}
      {rest : List PersistedAccrual} {run : PayoutRun} {runs : List PayoutRun} {stopped : Bool}
      (paid : PaidAs cfg now seq row (payable handled row) run next)
      (later : Pass (requestIdsOf (payable handled row) ++ handled) next rest runs stopped) :
      Pass handled seq (row :: rest) (run :: runs) stopped

section loop

variable (svc : Service) (row : PersistedAccrual)

theorem dropRecovered_payouts :
    (dropRecovered cfg (svc.dropLiability row.batchId) row).payouts = svc.payouts := by
  cases id : row.batchId <;> simp [dropRecovered, dropLiability, id]

theorem dropRecovered_batchSeq :
    (dropRecovered cfg (svc.dropLiability row.batchId) row).batchSeq = svc.batchSeq := by
  cases id : row.batchId <;> simp [dropRecovered, dropLiability, id]

variable (records : List StoredRecord) (summed : Int)

theorem recoverPay_paidAs (sum : amount records = some summed) (owes : summed ≠ 0) :
    ∃ run, PaidAs cfg now svc.batchSeq row records run
        (recoverPay cfg svc row records summed now).batchSeq ∧
      (recoverPay cfg svc row records summed now).payouts = svc.payouts ++ [run] := by
  unfold recoverPay
  cases id : resumedId row with
  | some batchId =>
    refine ⟨recoveredRun cfg row records batchId summed true, ?_, ?_⟩
    next =>
      have unchanged : (payRow cfg svc row records summed batchId true).batchSeq = svc.batchSeq := by
        simp [payRow, runPayout]
      dsimp only
      rw [unchanged]
      exact .resumed sum owes id
    next => simp [payRow, runPayout, recoveredRun]
  | none =>
    refine ⟨recoveredRun cfg row records
      (recoveredIdOf (now (svc.batchSeq + 1)) (svc.batchSeq + 1)) summed false, ?_, ?_⟩
    next =>
      have counted : (payRow cfg { svc with batchSeq := svc.batchSeq + 1 } row records summed
          (recoveredIdOf (now (svc.batchSeq + 1)) (svc.batchSeq + 1)) false).batchSeq =
            svc.batchSeq + 1 := by
        simp [payRow, runPayout]
      dsimp only
      rw [counted]
      exact .fresh sum owes id
    next => simp [payRow, runPayout, recoveredRun]

end loop

inductive RowPass (state : Recovery) (row : PersistedAccrual) (after : Recovery) : Prop
  | halted (unsummed : amount (payable state.handled row) = none) (stopped : after.stopped = true)
      (payouts : after.svc.payouts = state.svc.payouts)
  | nothing (sum : amount (payable state.handled row) = some 0) (going : after.stopped = false)
      (seq : after.svc.batchSeq = state.svc.batchSeq)
      (payouts : after.svc.payouts = state.svc.payouts)
  | pays (run : PayoutRun) (going : after.stopped = false)
      (paid : PaidAs cfg now state.svc.batchSeq row (payable state.handled row) run
        after.svc.batchSeq)
      (payouts : after.svc.payouts = state.svc.payouts ++ [run])

theorem recoverRow_rowPass (state : Recovery) (going : state.stopped = false)
    (row : PersistedAccrual) : RowPass cfg now state row (recoverRow cfg now state row) := by
  unfold recoverRow
  simp only [going, Bool.false_eq_true, if_false]
  by_cases empty : payable state.handled row = []
  · simp only [empty, List.isEmpty_nil, if_true]
    exact .nothing (by rw [empty]; rfl) rfl (dropRecovered_batchSeq cfg state.svc row)
      (dropRecovered_payouts cfg state.svc row)
  · simp only [List.isEmpty_iff, empty, if_false]
    have seeded := reseed_bookkeeping cfg state.svc ((payable state.handled row).map (·.cast))
    cases sum : sumPayouts ((payable state.handled row).map (·.cast)) with
    | none => exact .halted sum rfl seeded.payouts
    | some summed =>
      dsimp only
      by_cases zero : summed = 0
      · rw [if_pos zero]
        exact .nothing (zero ▸ sum) rfl
          ((dropRecovered_batchSeq cfg _ row).trans seeded.batchSeq)
          ((dropRecovered_payouts cfg _ row).trans seeded.payouts)
      · rw [if_neg zero]
        obtain ⟨run, paid, payouts⟩ := recoverPay_paidAs cfg now
          (reseed cfg state.svc ((payable state.handled row).map (·.cast))) row
          (payable state.handled row) summed sum zero
        rw [seeded.batchSeq] at paid
        rw [seeded.payouts] at payouts
        exact .pays run rfl paid payouts

theorem recoverRow_handled (state : Recovery) (going : state.stopped = false)
    (row : PersistedAccrual) : (recoverRow cfg now state row).handled =
      requestIdsOf (payable state.handled row) ++ state.handled := by
  unfold recoverRow
  simp only [going, Bool.false_eq_true, if_false]
  by_cases empty : payable state.handled row = []
  · simp [empty, requestIdsOf]
  · simp only [List.isEmpty_iff, empty, if_false]
    split
    next => rfl
    next => split <;> rfl

theorem recoverRows_stopped (rows : List PersistedAccrual) (state : Recovery)
    (stopped : state.stopped = true) : rows.foldl (recoverRow cfg now) state = state := by
  induction rows with
  | nil => rfl
  | cons row rest ih => rw [List.foldl_cons, recoverRow_stopped cfg now state stopped, ih]

theorem recoverRows_pass (rows : List PersistedAccrual) (state : Recovery)
    (going : state.stopped = false) :
    ∃ runs, Pass cfg now state.handled state.svc.batchSeq rows runs
        (rows.foldl (recoverRow cfg now) state).stopped ∧
      (rows.foldl (recoverRow cfg now) state).svc.payouts = state.svc.payouts ++ runs := by
  induction rows generalizing state with
  | nil => exact ⟨[], going ▸ .done, by simp⟩
  | cons row rest ih =>
    rw [List.foldl_cons]
    have own := recoverRow_handled cfg now state going row
    cases recoverRow_rowPass cfg now state going row with
    | halted unsummed stopped payouts =>
      rw [recoverRows_stopped cfg now rest _ stopped, stopped]
      exact ⟨[], .halted unsummed, by simp [payouts]⟩
    | nothing sum continues seq payouts =>
      obtain ⟨runs, later, started⟩ := ih _ continues
      rw [own, seq] at later
      exact ⟨runs, .nothing sum later, by rw [started, payouts]⟩
    | pays run continues paid payouts =>
      obtain ⟨runs, later, started⟩ := ih _ continues
      rw [own] at later
      exact ⟨run :: runs, .pays paid later, by simp [started, payouts]⟩

theorem payable_congr {a b : List String} (same : ∀ id, id ∈ a ↔ id ∈ b)
    (row : PersistedAccrual) : payable a row = payable b row := by
  unfold payable
  congr 1
  funext record
  simp [same]

-- Handling a row handles all that it lists.
theorem mem_handled (handled : List String) (row : PersistedAccrual) (id : String) :
    id ∈ requestIdsOf (payable handled row) ++ handled ↔ id ∈ rowIds row ∨ id ∈ handled := by
  constructor
  · intro member
    rcases List.mem_append.mp member with own | earlier
    · exact .inl (payable_ids handled row id own).1
    · exact .inr earlier
  · rintro (own | earlier)
    · exact rowIds_handled handled row id own
    · exact List.mem_append_right _ earlier

theorem payable_after (handled : List String) (first row : PersistedAccrual)
    (before : List PersistedAccrual) :
    payable (before.flatMap rowIds ++ (requestIdsOf (payable handled first) ++ handled)) row =
      payable ((first :: before).flatMap rowIds ++ handled) row := by
  apply payable_congr
  intro id
  rw [List.mem_append, mem_handled, List.flatMap_cons]
  simp only [List.mem_append]
  tauto

-- No row has an amount that is left to be summed and is not a number.
def Summable (handled : List String) (rows : List PersistedAccrual) : Prop :=
  ∀ before row after, rows = before ++ row :: after →
    (amount (payable (before.flatMap rowIds ++ handled) row)).isSome = true

theorem summable_cons (handled : List String) (row : PersistedAccrual)
    (rest : List PersistedAccrual) : Summable handled (row :: rest) ↔
      (amount (payable handled row)).isSome = true ∧
        Summable (requestIdsOf (payable handled row) ++ handled) rest := by
  constructor
  · intro summable
    refine ⟨by simpa using summable [] row rest rfl, fun before other after split => ?_⟩
    rw [payable_after]
    exact summable (row :: before) other after (by simp [split])
  · rintro ⟨own, later⟩ before other after split
    cases before with
    | nil =>
      obtain ⟨rfl, rfl⟩ : row = other ∧ rest = after := by simpa using split
      simpa using own
    | cons first before =>
      obtain ⟨rfl, rfl⟩ : row = first ∧ rest = before ++ other :: after := by simpa using split
      rw [← payable_after]
      exact later before other after rfl

theorem Pass.summable {cfg : Deps} {now : Nat → Nat} {handled : List String} {seq : Nat}
    {rows : List PersistedAccrual} {runs : List PayoutRun} {stopped : Bool}
    (pass : Pass cfg now handled seq rows runs stopped) :
    stopped = false ↔ Summable handled rows := by
  induction pass with
  | done => simp [Summable]
  | halted unsummed => simp [summable_cons, unsummed]
  | nothing sum _ ih => simp [summable_cons, sum, ih]
  | pays paid _ ih =>
    rw [summable_cons, ih]
    cases paid with
    | resumed sum => simp [sum]
    | fresh sum => simp [sum]

-- Where a payout of the pass comes from.
theorem Pass.source {cfg : Deps} {now : Nat → Nat} {handled : List String} {seq : Nat}
    {rows : List PersistedAccrual} {runs : List PayoutRun} {stopped : Bool}
    (pass : Pass cfg now handled seq rows runs stopped) (run : PayoutRun) (member : run ∈ runs) :
    ∃ before row after seq' next, rows = before ++ row :: after ∧ Summable handled before ∧
      PaidAs cfg now seq' row (payable (before.flatMap rowIds ++ handled) row) run next := by
  induction pass with
  | done => cases member
  | halted => cases member
  | @nothing handled seq first rest runs stopped sum later ih =>
    obtain ⟨before, row, after, seq', next, rfl, summed, paid⟩ := ih member
    refine ⟨first :: before, row, after, seq', next, rfl, ?_, payable_after .. ▸ paid⟩
    exact (summable_cons ..).mpr ⟨by simp [sum], summed⟩
  | @pays handled seq after first rest own runs stopped paid later ih =>
    rcases List.mem_cons.mp member with rfl | tail
    · exact ⟨[], first, rest, seq, after, rfl, by simp [Summable], by simpa using paid⟩
    · obtain ⟨before, row, after, seq', next, rfl, summed, paidLater⟩ := ih tail
      refine ⟨first :: before, row, after, seq', next, rfl, ?_, payable_after .. ▸ paidLater⟩
      refine (summable_cons ..).mpr ⟨?_, summed⟩
      cases paid with
      | resumed sum => simp [sum]
      | fresh sum => simp [sum]

-- A row that the pass reaches, and that still owes something, is paid.
theorem Pass.serves {cfg : Deps} {now : Nat → Nat} {handled : List String} {seq : Nat}
    {rows : List PersistedAccrual} {runs : List PayoutRun} {stopped : Bool}
    (pass : Pass cfg now handled seq rows runs stopped) (before : List PersistedAccrual)
    (row : PersistedAccrual) (after : List PersistedAccrual) (split : rows = before ++ row :: after)
    (reached : Summable handled before) (summed : Int)
    (sum : amount (payable (before.flatMap rowIds ++ handled) row) = some summed)
    (owes : summed ≠ 0) :
    ∃ run ∈ runs, ∃ seq' next,
      PaidAs cfg now seq' row (payable (before.flatMap rowIds ++ handled) row) run next := by
  induction pass generalizing before with
  | done => simp at split
  | @halted handled seq first rest unsummed =>
    cases before with
    | nil =>
      obtain ⟨rfl, rfl⟩ : first = row ∧ rest = after := by simpa using split
      simp [unsummed] at sum
    | cons other before =>
      obtain ⟨rfl, -⟩ : first = other ∧ rest = before ++ row :: after := by simpa using split
      simp [summable_cons, unsummed] at reached
  | @nothing handled seq first rest runs stopped zero later ih =>
    cases before with
    | nil =>
      obtain ⟨rfl, rfl⟩ : first = row ∧ rest = after := by simpa using split
      simp only [List.flatMap_nil, List.nil_append, zero, Option.some.injEq] at sum
      exact absurd sum.symm owes
    | cons other before =>
      obtain ⟨rfl, rfl⟩ : first = other ∧ rest = before ++ row :: after := by simpa using split
      rw [← payable_after] at sum ⊢
      exact ih before rfl ((summable_cons ..).mp reached).2 sum
  | @pays handled seq next first rest run runs stopped paid later ih =>
    cases before with
    | nil =>
      obtain ⟨rfl, rfl⟩ : first = row ∧ rest = after := by simpa using split
      exact ⟨run, by simp, seq, next, by simpa using paid⟩
    | cons other before =>
      obtain ⟨rfl, rfl⟩ : first = other ∧ rest = before ++ row :: after := by simpa using split
      rw [← payable_after] at sum ⊢
      obtain ⟨own, member, paidLater⟩ := ih before rfl ((summable_cons ..).mp reached).2 sum
      exact ⟨own, List.mem_cons_of_mem _ member, paidLater⟩

end X402Mesh.Settlement.Service
