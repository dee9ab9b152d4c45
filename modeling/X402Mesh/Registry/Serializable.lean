import X402Mesh.Registry.Redis

set_option autoImplicit false

-- The record with its window, and the counter, are two objects that share nothing: a blob's own
-- `inFlight` is never read back.

namespace X402Mesh.Registry

namespace RedisNode

open Pool

def erased (record : NodeRecord) : NodeRecord := withInFlight record 0

abbrev View := Option NodeRecord × List RequestOutcome

def view (keys : RedisNode) : View := (keys.record.map erased, keys.window)

def viewed (t : View) : RedisCall → View
  | .upsert record => (some (erased (mergeRecord t.1 record (history t.2))), t.2)
  | .recordOutcome o =>
    match t.1 with
    | none => t
    | some record =>
      let window := (normalizeOutcome o :: t.2).take healthWindowSize
      (some
        { record with
          totalRequests := record.totalRequests + 1
          health := deriveHealth record.health (history window) }, window)
  | _ => t

@[simp] theorem erased_withInFlight (record : NodeRecord) (n : Nat) :
    erased (withInFlight record n) = erased record := rfl

theorem erased_deriveHealth (record : NodeRecord) (totalRequests : Nat)
    (window : List RequestOutcome) :
    erased { record with
      totalRequests := totalRequests, health := deriveHealth record.health window } =
      { erased record with
        totalRequests := totalRequests
        health := deriveHealth (erased record).health window } := by
  by_cases empty : window = [] <;> simp [erased, withInFlight, deriveHealth, empty]

theorem erased_mergeRecord (existing incoming : NodeRecord) (window : List RequestOutcome) :
    erased (mergeRecord (some existing) incoming window) =
      erased (mergeRecord (some (erased existing)) incoming window) := by
  by_cases empty : window = [] <;>
    simp [erased, withInFlight, mergeRecord, deriveHealth, empty]

theorem erased_merged {existing known : Option NodeRecord} (same : existing.map erased = known)
    (incoming : NodeRecord) (window : List RequestOutcome) :
    erased (mergeRecord existing incoming window) =
      erased (mergeRecord known incoming window) := by
  subst same
  cases existing with
  | none => rfl
  | some existing => exact erased_mergeRecord existing incoming window

theorem readRecord_view (keys : RedisNode) :
    keys.readRecord = (view keys).1.map (withInFlight · (parseCount keys.inFlight)) := by
  cases found : keys.record <;> simp [readRecord, view, found, erased, withInFlight]

theorem erased_readRecord (keys : RedisNode) : keys.readRecord.map erased = (view keys).1 := by
  cases found : keys.record <;> simp [readRecord, view, found]

theorem view_perform (keys : RedisNode) (call : RedisCall) :
    view (keys.perform call) = viewed (view keys) call := by
  cases call with
  | upsert record =>
    simp only [perform, upsert, view, viewed, Option.map_some, Prod.mk.injEq, and_true,
      Option.some.injEq]
    exact erased_merged (erased_readRecord keys) record _
  | recordOutcome o =>
    cases found : keys.record with
    | none => simp [perform, recordOutcome, readRecord, view, viewed, found]
    | some record =>
      simp only [perform, recordOutcome, readRecord, view, viewed, found, Option.map_some]
      rw [erased_deriveHealth]
      rfl
  | beginRequest => rfl
  | endRequest => rfl

theorem view_foldl (calls : List RedisCall) (keys : RedisNode) :
    view (calls.foldl perform keys) = calls.foldl viewed (view keys) := by
  induction calls generalizing keys with
  | nil => rfl
  | cons call rest ih => rw [List.foldl_cons, ih, view_perform, List.foldl_cons]

-- A call of the record is inside from its first read to its write of the blob.
def phase : RedisCall → Point → Phase
  | .upsert _, .start | .recordOutcome _, .start => .before
  | .upsert _, .indexing | .upsert _, .done | .recordOutcome _, .done => .after
  | .upsert _, _ | .recordOutcome _, _ => .inside
  | _, _ => .after

-- What is known while a call is inside that found the view `t`, of the view there is now.
def Knows (t now : View) : RedisCall → Point → Prop
  | .upsert _, .gotBlob blob => now = t ∧ blob.map erased = t.1
  | .upsert _, .gotRecord existing => now = t ∧ existing.map erased = t.1
  | .upsert _, .gotWindow existing window =>
    now = t ∧ existing.map erased = t.1 ∧ window = history t.2
  | .recordOutcome _, .gotBlob blob => now = t ∧ blob.map erased = t.1
  | .recordOutcome _, .gotRecord record => now = t ∧ record.map erased = t.1
  | .recordOutcome o, .pushed record =>
    some (erased record) = t.1 ∧ now.2 = normalizeOutcome o :: t.2
  | .recordOutcome o, .trimmed record =>
    some (erased record) = t.1 ∧ now.2 = (normalizeOutcome o :: t.2).take healthWindowSize
  | .recordOutcome o, .gotWindow record window =>
    record.map erased = t.1 ∧ now.2 = (normalizeOutcome o :: t.2).take healthWindowSize ∧
      window = history now.2
  | _, _ => False

theorem record_atomic : Atomic advance phase view viewed
    (fun t call point keys => Knows t (view keys) call point) where
  enters := by
    intro keys keys' call point point' advanced before
    cases call with
    | upsert record =>
      cases point <;> simp only [phase, reduceCtorEq] at before
      cases advanced
      exact ⟨rfl, rfl, rfl⟩
    | recordOutcome o =>
      cases point <;> simp only [phase, reduceCtorEq] at before
      cases advanced
      exact ⟨rfl, rfl, rfl⟩
    | _ => cases before
  goes := by
    intro t keys keys' call point point' advanced inside knows
    cases call with
    | upsert record =>
      cases point with
      | gotBlob blob =>
        cases advanced
        refine .inl ⟨rfl, knows.1, ?_⟩
        cases blob <;> exact knows.2
      | gotRecord existing =>
        cases advanced
        refine .inl ⟨rfl, knows.1, knows.2, ?_⟩
        rw [← knows.1]
        rfl
      | gotWindow existing window =>
        cases advanced
        obtain ⟨now, known, read⟩ := knows
        refine .inr ⟨rfl, ?_⟩
        simp only [view, viewed, Option.map_some, Prod.mk.injEq, Option.some.injEq]
        rw [erased_merged known, read]
        exact ⟨rfl, congrArg Prod.snd now⟩
      | _ => cases knows
    | recordOutcome o =>
      cases point with
      | gotBlob blob =>
        obtain ⟨now, known⟩ := knows
        cases blob with
        | none =>
          cases advanced
          refine .inr ⟨rfl, ?_⟩
          simp [viewed, now, ← known]
        | some blob =>
          cases advanced
          exact .inl ⟨rfl, now, known⟩
      | gotRecord record =>
        obtain ⟨now, known⟩ := knows
        cases record with
        | none => cases advanced
        | some record =>
          cases advanced
          refine .inl ⟨rfl, known, ?_⟩
          rw [← now]
          rfl
      | pushed record =>
        cases advanced
        refine .inl ⟨rfl, knows.1, ?_⟩
        rw [← knows.2]
        rfl
      | trimmed record =>
        cases advanced
        exact .inl ⟨rfl, knows.1, knows.2, rfl⟩
      | gotWindow record window =>
        obtain ⟨known, now, read⟩ := knows
        cases record with
        | none => cases advanced
        | some record =>
          cases advanced
          refine .inr ⟨rfl, ?_⟩
          have window_now : keys.window = (normalizeOutcome o :: t.2).take healthWindowSize := now
          simp only [view, viewed, Option.map_some, ← known]
          rw [erased_deriveHealth, read, now, window_now]
          rfl
      | _ => cases knows
    | _ => cases inside
  idles := by
    intro keys keys' call point point' advanced after
    have same : phase call point' = .after ∧ view keys' = view keys := by
      cases call with
      | upsert record =>
        cases point <;> simp only [phase, reduceCtorEq] at after <;> cases advanced
        exact ⟨rfl, rfl⟩
      | recordOutcome o =>
        cases point <;> simp only [phase, reduceCtorEq] at after
        cases advanced
      | beginRequest =>
        cases point <;> cases advanced
        exact ⟨rfl, rfl⟩
      | endRequest =>
        cases point <;> cases advanced
        · exact ⟨rfl, rfl⟩
        · exact ⟨rfl, rfl⟩
    refine ⟨same.1, same.2, fun t other point knows => ?_⟩
    rwa [same.2]

def begun (slot : Slot RedisCall Point) : Bool :=
  slot.call = .beginRequest && slot.point ≠ .start

def given (slot : Slot RedisCall Point) : Bool := slot.call = .endRequest && slot.point ≠ .start

def clamps (slot : Slot RedisCall Point) : Bool :=
  slot.call = .endRequest && slot.point = .clamping

-- The `SET` that clamps a counter does not find it above zero.
def clampsLow (pool : Pool RedisNode RedisCall Point) (i : Nat) : Bool :=
  match pool.slots[i]? with
  | some ⟨.endRequest, .clamping⟩ => pool.shared.inFlight ≤ 0
  | _ => true

structure Counted (first : Int) (pool : Pool RedisNode RedisCall Point) : Prop where
  least : first + pool.slots.countP begun - pool.slots.countP given ≤ pool.shared.inFlight
  most : pool.shared.inFlight ≤
    max 0 (first - pool.slots.countP given) + pool.slots.countP begun
  clamped : 0 ≤ pool.shared.inFlight ∨ 0 < pool.slots.countP clamps ∨
    pool.slots.countP given = 0
  untouched : pool.slots.countP given = 0 →
    pool.shared.inFlight = first + pool.slots.countP begun

-- The commands of the record leave the counter alone.
theorem advance_inFlight {keys keys' : RedisNode} {call : RedisCall} {point point' : Point}
    (advanced : advance keys call point = some (keys', point'))
    (other : call ≠ .beginRequest ∧ call ≠ .endRequest) : keys'.inFlight = keys.inFlight := by
  cases call with
  | upsert record => cases point <;> cases advanced <;> rfl
  | recordOutcome o =>
    cases point with
    | gotBlob blob => cases blob <;> cases advanced <;> rfl
    | gotRecord record => cases record <;> cases advanced; rfl
    | gotWindow record window => cases record <;> cases advanced; rfl
    | _ => cases advanced <;> rfl
  | beginRequest => exact absurd rfl other.1
  | endRequest => exact absurd rfl other.2

theorem step_counted {first : Int} {pool pool' : Pool RedisNode RedisCall Point} {i : Nat}
    (low : clampsLow pool i = true) (taken : step advance pool i = some pool')
    (held : Counted first pool) : Counted first pool' := by
  obtain ⟨⟨call, stage⟩, keys, point, found, advanced, rfl⟩ := step_inv taken
  have begins := List.countP_set_add begun pool.slots i ⟨call, stage⟩ ⟨call, point⟩ found
  have gives := List.countP_set_add given pool.slots i ⟨call, stage⟩ ⟨call, point⟩ found
  have clampings := List.countP_set_add clamps pool.slots i ⟨call, stage⟩ ⟨call, point⟩ found
  obtain ⟨least, most, clamped, untouched⟩ := held
  cases call with
  | beginRequest =>
    cases stage <;> cases advanced
    have one : begun ⟨.beginRequest, .done⟩ = true := rfl
    have none_yet : begun ⟨.beginRequest, .start⟩ = false := rfl
    simp only [one, none_yet, Bool.toNat_true, Bool.toNat_false, Nat.add_zero] at begins
    change _ + 0 = _ + 0 at gives clampings
    constructor <;> dsimp only <;> omega
  | endRequest =>
    change _ + 0 = _ + 0 at begins
    cases stage with
    | start =>
      simp only [advance, Option.some.injEq, Prod.mk.injEq] at advanced
      obtain ⟨rfl, which⟩ := advanced
      by_cases below : pool.shared.inFlight - 1 < 0
      · rw [if_pos below] at which
        subst which
        change _ + 0 = _ + 1 at gives clampings
        constructor <;> dsimp only <;> omega
      · rw [if_neg below] at which
        subst which
        change _ + 0 = _ + 1 at gives
        change _ + 0 = _ + 0 at clampings
        constructor <;> dsimp only <;> omega
    | clamping =>
      cases advanced
      have found_low : pool.shared.inFlight ≤ 0 := by simpa [clampsLow, found] using low
      change _ + 1 = _ + 1 at gives
      have some_given : 0 < pool.slots.countP given :=
        List.countP_pos_iff.mpr ⟨_, List.mem_of_getElem? found, rfl⟩
      constructor <;> dsimp only <;> omega
    | _ => cases advanced
  | _ =>
    have same := advance_inFlight advanced (by simp)
    change _ + 0 = _ + 0 at begins gives clampings
    constructor <;> dsimp only <;> omega

def counted (counter : Int) : RedisCall → Int
  | .beginRequest => counter + 1
  | .endRequest => if counter - 1 < 0 then 0 else counter - 1
  | _ => counter

theorem inFlight_foldl (calls : List RedisCall) (keys : RedisNode) :
    (calls.foldl perform keys).inFlight = calls.foldl counted keys.inFlight := by
  have one (keys : RedisNode) (call : RedisCall) :
      (keys.perform call).inFlight = counted keys.inFlight call := by
    cases call with
    | recordOutcome o =>
      unfold perform recordOutcome
      cases keys.readRecord <;> rfl
    | _ => rfl
  induction calls generalizing keys with
  | nil => rfl
  | cons call rest ih => rw [List.foldl_cons, ih, one, List.foldl_cons]

theorem counted_begins (n : Nat) (counter : Int) :
    (List.replicate n RedisCall.beginRequest).foldl counted counter = counter + n := by
  induction n generalizing counter with
  | zero => simp
  | succ n ih =>
    rw [List.replicate_succ, List.foldl_cons, ih]
    simp only [counted]
    omega

theorem counted_ends (n : Nat) (counter : Int) :
    (List.replicate n RedisCall.endRequest).foldl counted counter =
      if n = 0 then counter else max 0 (counter - n) := by
  induction n generalizing counter with
  | zero => simp
  | succ n ih =>
    rw [List.replicate_succ, List.foldl_cons, ih]
    simp only [counted]
    split <;> split <;> omega

-- Some calls count up first, then all that count down, then the others.
def counting (early begins ends : Nat) : List RedisCall :=
  List.replicate early .beginRequest ++ List.replicate ends .endRequest ++
    List.replicate (begins - early) .beginRequest

theorem counting_perm (calls : List RedisCall) (early : Nat)
    (some_of : early ≤ calls.count .beginRequest) :
    (counting early (calls.count .beginRequest) (calls.count .endRequest)).Perm
      (calls.filter fun call => phase call .start = .after) := by
  rw [List.perm_iff_count]
  intro call
  cases call with
  | beginRequest =>
    rw [List.count_filter (by rfl)]
    simp [counting, List.count_replicate]
    omega
  | endRequest =>
    rw [List.count_filter (by rfl)]
    simp [counting, List.count_replicate]
  | upsert record =>
    have absent : .upsert record ∉ calls.filter fun call => phase call .start = .after := by
      simp [phase]
    rw [List.count_eq_zero.mpr absent]
    simp [counting, List.count_replicate]
  | recordOutcome o =>
    have absent : .recordOutcome o ∉ calls.filter fun call => phase call .start = .after := by
      simp [phase]
    rw [List.count_eq_zero.mpr absent]
    simp [counting, List.count_replicate]

-- Every value between the two extreme orders is that of some order.
theorem counting_reaches (first counter : Int) (begins ends : Nat)
    (least : first + begins - ends ≤ counter) (most : counter ≤ max 0 (first - ends) + begins)
    (clamped : 0 ≤ counter ∨ ends = 0) (untouched : ends = 0 → counter = first + begins) :
    ∃ early ≤ begins, (counting early begins ends).foldl counted first = counter := by
  have folded (early : Nat) (some_of : early ≤ begins) :
      (counting early begins ends).foldl counted first =
        (if ends = 0 then first + early else max 0 (first + early - ends)) +
          ((begins - early : Nat) : Int) := by
    rw [counting, List.foldl_append, List.foldl_append, counted_begins, counted_ends,
      counted_begins]
  by_cases none_given : ends = 0
  · refine ⟨0, by omega, ?_⟩
    rw [folded 0 (by omega), if_pos none_given, untouched none_given]
    omega
  · by_cases above : (ends : Int) ≤ first
    · refine ⟨0, by omega, ?_⟩
      rw [folded 0 (by omega), if_neg none_given]
      omega
    · refine ⟨(begins - counter).toNat, by omega, ?_⟩
      rw [folded _ (by omega), if_neg none_given]
      omega

-- No two calls of the record overlap, and no clamp lowers the counter.
def exclusive (pool : Pool RedisNode RedisCall Point) (i : Nat) : Bool :=
  alone phase pool i && clampsLow pool i

theorem counted_of_run {keys : RedisNode} {calls : List RedisCall}
    {pool : Pool RedisNode RedisCall Point}
    (run : Transition.Run (step advance) (fun pool i => exclusive pool i = true)
      (start keys calls .start) pool) : Counted keys.inFlight pool := by
  have init : Counted keys.inFlight (start keys calls .start) := by
    have none_begun : (start keys calls Point.start).slots.countP begun = 0 := by
      simp [start, List.countP_eq_zero, begun]
    have none_given : (start keys calls Point.start).slots.countP given = 0 := by
      simp [start, List.countP_eq_zero, given]
    have same : (start keys calls Point.start).shared.inFlight = keys.inFlight := rfl
    constructor
    · omega
    · omega
    · exact .inr (.inr none_given)
    · omega
  apply run.invariant init
  rintro pool i pool' held passed taken
  simp only [exclusive, Bool.and_eq_true] at passed
  exact step_counted passed.2 taken held

theorem countP_finished {pool : Pool RedisNode RedisCall Point}
    (finished : ∀ slot ∈ pool.slots, slot.point = .done) (wanted : RedisCall)
    (p : Slot RedisCall Point → Bool)
    (shape : ∀ call, p ⟨call, .done⟩ = decide (call = wanted)) :
    pool.slots.countP p = (pool.slots.map (·.call)).count wanted := by
  rw [List.count, List.countP_map]
  apply List.countP_congr
  rintro ⟨call, point⟩ member
  obtain rfl : point = .done := finished _ member
  rw [shape]
  simp

theorem foldl_neutral {α β : Type} {f : β → α → β} {l : List α}
    (neutral : ∀ a ∈ l, ∀ b, f b a = b) (b : β) : l.foldl f b = b := by
  induction l with
  | nil => rfl
  | cons a rest ih =>
    rw [List.foldl_cons, neutral a List.mem_cons_self]
    exact ih fun other member => neutral other (List.mem_cons_of_mem a member)

-- The calls that count leave the record alone, and those of the record do not count.
theorem viewed_counting {call : RedisCall} (outside : phase call .start = .after) (t : View) :
    viewed t call = t := by
  cases call with
  | upsert record => cases outside
  | recordOutcome o => cases outside
  | _ => rfl

theorem counted_recorded {call : RedisCall} (outside : phase call .start ≠ .after) (counter : Int) :
    counted counter call = counter := by
  cases call with
  | beginRequest => exact absurd rfl outside
  | endRequest => exact absurd rfl outside
  | _ => rfl

theorem counting_serial {keys : RedisNode} {calls : List RedisCall}
    {pool : Pool RedisNode RedisCall Point}
    (run : Transition.Run (step advance) (fun pool i => exclusive pool i = true)
      (start keys calls .start) pool)
    (finished : ∀ slot ∈ pool.slots, slot.point = .done) :
    ∃ order : List RedisCall,
      order.Perm (calls.filter fun call => phase call .start = .after) ∧
        pool.shared.inFlight = order.foldl counted keys.inFlight := by
  have same_calls : pool.slots.map (·.call) = calls := run_calls run
  have held := counted_of_run run
  have begins := countP_finished finished .beginRequest begun (by intro call; simp [begun])
  have gives := countP_finished finished .endRequest given (by intro call; simp [given])
  have none_clamping : pool.slots.countP clamps = 0 := by
    apply List.countP_eq_zero.mpr
    intro slot member
    simp [clamps, finished slot member]
  rw [same_calls] at begins gives
  have least := held.least
  have most := held.most
  have clamped := held.clamped
  have untouched := held.untouched
  rw [begins, gives] at least most
  rw [begins, gives] at untouched
  rw [gives, none_clamping] at clamped
  have settled : 0 ≤ pool.shared.inFlight ∨ calls.count .endRequest = 0 :=
    clamped.imp_right fun rest => rest.resolve_left (Nat.lt_irrefl 0)
  have reaches : ∃ early ≤ calls.count .beginRequest,
      (counting early (calls.count .beginRequest) (calls.count .endRequest)).foldl counted
        keys.inFlight = pool.shared.inFlight := by
    apply counting_reaches
    · exact least
    · exact most
    · exact settled
    · exact untouched
  obtain ⟨early, some_of, reached⟩ := reaches
  refine ⟨counting early (calls.count .beginRequest) (calls.count .endRequest), ?_, ?_⟩
  · exact counting_perm calls early some_of
  · exact reached.symm

theorem record_serial {keys : RedisNode} {calls : List RedisCall}
    {pool : Pool RedisNode RedisCall Point}
    (run : Transition.Run (step advance) (fun pool i => exclusive pool i = true)
      (start keys calls .start) pool)
    (finished : ∀ slot ∈ pool.slots, slot.point = .done) :
    ∃ order : List RedisCall,
      order.Perm (calls.filter fun call => phase call .start ≠ .after) ∧
        view pool.shared = order.foldl viewed (view keys) := by
  apply run_serial record_atomic
  next =>
    intro call _
    cases call <;> simp [phase]
  next =>
    apply run.mono
    intro pool i passed
    simp only [exclusive, Bool.and_eq_true] at passed
    exact passed.1
  next =>
    intro slot member
    rw [finished slot member]
    cases slot.call <;> rfl

theorem same_serial {keys : RedisNode} {calls : List RedisCall}
    {pool : Pool RedisNode RedisCall Point}
    (run : Transition.Run (step advance) (fun pool i => exclusive pool i = true)
      (start keys calls .start) pool)
    (finished : ∀ slot ∈ pool.slots, slot.point = .done) :
    ∃ order : List RedisCall, order.Perm calls ∧
      view pool.shared = view (order.foldl perform keys) ∧
        pool.shared.inFlight = (order.foldl perform keys).inFlight := by
  obtain ⟨recorded, record_perm, same_view⟩ := record_serial run finished
  obtain ⟨counters, counters_perm, same_count⟩ := counting_serial run finished
  refine ⟨recorded ++ counters, ?_, ?_, ?_⟩
  next =>
    refine .trans (record_perm.append counters_perm) ?_
    simpa using List.filter_append_perm (fun call => phase call .start ≠ .after) calls
  next =>
    have unviewed (t : View) : counters.foldl viewed t = t := by
      apply foldl_neutral
      intro call member
      apply viewed_counting
      simpa using (List.mem_filter.mp (counters_perm.subset member)).2
    rw [view_foldl, List.foldl_append, unviewed, same_view]
  next =>
    have uncounted : recorded.foldl counted keys.inFlight = keys.inFlight := by
      apply foldl_neutral
      intro call member
      apply counted_recorded
      simpa using (List.mem_filter.mp (record_perm.subset member)).2
    rw [inFlight_foldl, List.foldl_append, uncounted, same_count]

def isOutcome : RedisCall → Bool
  | .recordOutcome _ => true
  | _ => false

def upserted (registration : NodeRegistration) : RedisCall → NodeRegistration
  | .upsert record => record.registration
  | _ => registration

-- Every field that the window decides; a registrar may hold a node unhealthy that its window clears.
def Reflects (health : NodeHealth) (window : List RequestOutcome) : Prop :=
  window = [] ∨
    health = { deriveHealth health window with healthy := health.healthy } ∧
      (health.healthy = true → (deriveHealth health window).healthy = true)

def Reflected (keys : RedisNode) : Prop :=
  ∀ record, keys.readRecord = some record → Reflects record.health (history keys.window)

theorem reflects_derived (base : NodeHealth) (window : List RequestOutcome) (healthy : Bool)
    (held : healthy = true → (deriveHealth base window).healthy = true) :
    Reflects { deriveHealth base window with healthy := healthy } window := by
  by_cases empty : window = []
  · exact .inl empty
  · refine .inr ⟨?_, ?_⟩
    · simp [deriveHealth, empty, lastSuccess_idem]
    · simpa [deriveHealth, empty] using held

theorem reflects_inFlight {health : NodeHealth} {window : List RequestOutcome}
    (held : Reflects health window) (inFlight : Nat) :
    Reflects { health with inFlight := inFlight } window := by
  by_cases empty : window = []
  · exact .inl empty
  · obtain ⟨same, healthy⟩ := held.resolve_left empty
    refine .inr ⟨?_, ?_⟩
    · rw [NodeHealth.mk.injEq] at same
      simpa [deriveHealth, empty] using same
    · simpa [deriveHealth, empty] using healthy

theorem reflected_of_view {keys keys' : RedisNode} (same : view keys' = view keys)
    (held : Reflected keys) : Reflected keys' := by
  intro record found
  have shown : keys'.readRecord = (keys.readRecord).map
      (withInFlight · (parseCount keys'.inFlight)) := by
    rw [readRecord_view, readRecord_view, same, Option.map_map]
    rfl
  rw [shown] at found
  obtain ⟨known, read, rfl⟩ := Option.map_eq_some_iff.mp found
  have windows : keys'.window = keys.window := congrArg Prod.snd same
  rw [windows]
  exact reflects_inFlight (held known read) _

-- What one call does to a node that exists.
theorem perform_known {keys : RedisNode} {existing : NodeRecord}
    (found : keys.readRecord = some existing) (call : RedisCall) :
    ∃ record, (keys.perform call).readRecord = some record ∧
      existing.totalRequests + (if isOutcome call then 1 else 0) ≤ record.totalRequests ∧
      record.registration = upserted existing.registration call ∧
      (Reflected keys → Reflected (keys.perform call)) := by
  cases call with
  | upsert incoming =>
    refine ⟨_, rfl, ?_, ?_, ?_⟩
    · simp only [found, isOutcome, withInFlight, mergeRecord]
      exact le_max_left _ _
    · exact (mergeRecord_registration _ _ _).1
    · rintro - record read
      cases Option.some.inj read
      apply reflects_inFlight
      rw [found]
      by_cases empty : history keys.window = []
      · exact .inl empty
      · simp only [perform, upsert, mergeRecord, List.isEmpty_iff, if_neg empty]
        apply reflects_derived
        simp
  | recordOutcome o =>
    have performed : keys.perform (.recordOutcome o) = keys.recordOutcome o := rfl
    rw [performed, recordOutcome, found]
    refine ⟨_, rfl, le_rfl, rfl, ?_⟩
    rintro - record read
    cases Option.some.inj read
    exact reflects_inFlight (reflects_derived _ _ _ id) _
  | beginRequest =>
    obtain ⟨blob, stored, rfl⟩ := Option.map_eq_some_iff.mp found
    refine ⟨_, congrArg (Option.map _) stored, le_rfl, rfl, ?_⟩
    exact reflected_of_view (view_perform keys .beginRequest)
  | endRequest =>
    obtain ⟨blob, stored, rfl⟩ := Option.map_eq_some_iff.mp found
    refine ⟨_, congrArg (Option.map _) stored, le_rfl, rfl, ?_⟩
    exact reflected_of_view (view_perform keys .endRequest)

theorem performs_known (order : List RedisCall) {keys : RedisNode} {existing : NodeRecord}
    (found : keys.readRecord = some existing) :
    ∃ record, (order.foldl perform keys).readRecord = some record ∧
      existing.totalRequests + order.countP isOutcome ≤ record.totalRequests ∧
      record.registration = order.foldl upserted existing.registration ∧
      (Reflected keys → Reflected (order.foldl perform keys)) := by
  induction order generalizing keys existing with
  | nil => exact ⟨existing, found, le_rfl, rfl, id⟩
  | cons call rest ih =>
    obtain ⟨next, read, total, registration, reflected⟩ := perform_known found call
    obtain ⟨last, read_last, total_last, registration_last, reflected_last⟩ := ih read
    refine ⟨last, read_last, ?_, ?_, reflected_last ∘ reflected⟩
    · rw [List.countP_cons]
      omega
    · rw [registration_last, registration, List.foldl_cons]

theorem serializable (keys : RedisNode) (calls : List RedisCall) (existing : NodeRecord)
    (exists_already : keys.readRecord = some existing) (pool : Pool RedisNode RedisCall Point)
    (run : Transition.Run (step advance) (fun pool i => exclusive pool i = true)
      (start keys calls .start) pool)
    (finished : ∀ slot ∈ pool.slots, slot.point = .done) :
    ∃ (order : List RedisCall) (record : NodeRecord), order.Perm calls ∧
      pool.shared.readRecord = some record ∧
      (order.foldl perform keys).readRecord = some record ∧
      existing.totalRequests + calls.countP isOutcome ≤ record.totalRequests ∧
      record.registration = order.foldl upserted existing.registration ∧
      (Reflected keys → Reflected pool.shared) := by
  obtain ⟨order, perm, same_view, same_count⟩ := same_serial run finished
  obtain ⟨record, read, total, registration, reflected⟩ := performs_known order exists_already
  have same : pool.shared.readRecord = (order.foldl perform keys).readRecord := by
    rw [readRecord_view, readRecord_view, same_view, same_count]
  refine ⟨order, record, perm, same.trans read, read, ?_, registration, ?_⟩
  · rwa [perm.countP_eq] at total
  · exact fun held => reflected_of_view same_view (reflected held)

def demoNode : NodeRecord where
  registration := ⟨"node-a", "OPERATOR", "https://a.example", [], "testnet", "1.0.0", 1, "nonce-a"⟩
  health := ⟨"node-a", true, 0, 0, 0, 4, 1, 1, 0, 1⟩
  usdcOptedIn := true
  totalRequests := 0
  totalPaidAtomic := "0"
  registeredAt := 1

def demoKeys : RedisNode := absent.upsert demoNode

def demoOutcome : ReportedOutcome := ⟨true, some 5, some 10⟩

theorem serializable_interleaved :
    ∃ (order : List RedisCall) (record : NodeRecord),
      order.Perm [.upsert demoNode, .beginRequest, .recordOutcome demoOutcome, .endRequest] ∧
      (order.foldl perform demoKeys).readRecord = some record ∧ 1 ≤ record.totalRequests := by
  have shown : (Transition.replay
      (fun pool i => if exclusive pool i then step advance pool i else none)
      (start demoKeys [.upsert demoNode, .beginRequest, .recordOutcome demoOutcome, .endRequest]
        Point.start) [2, 1, 2, 2, 3, 2, 2, 2, 0, 0, 0, 0, 0]).map
      (fun pool => decide (∀ slot ∈ pool.slots, slot.point = .done)) = some true := by
    decide
  obtain ⟨pool, replayed, finished⟩ := Option.map_eq_some_iff.mp shown
  obtain ⟨order, record, perm, -, read, total, -⟩ :=
    serializable demoKeys _ (withInFlight demoNode 0) rfl pool
      (Transition.run_of_guarded exclusive _ replayed) (of_decide_eq_true finished)
  exact ⟨order, record, perm, read, total⟩

-- Two callers read the same total, and each writes it back with one more.
theorem outcome_lost :
    ∃ pool : Pool RedisNode RedisCall Point,
      Transition.Run (step advance) (fun _ _ => True)
        (start demoKeys [.recordOutcome demoOutcome, .recordOutcome demoOutcome] .start) pool ∧
      (∀ slot ∈ pool.slots, slot.point = .done) ∧
      (pool.shared.readRecord.map (·.totalRequests)) = some 1 ∧
      ∀ order : List RedisCall,
        order.Perm [.recordOutcome demoOutcome, .recordOutcome demoOutcome] →
        (order.foldl perform demoKeys).readRecord ≠ pool.shared.readRecord := by
  have shown : (Transition.replay (step advance)
      (start demoKeys [.recordOutcome demoOutcome, .recordOutcome demoOutcome] Point.start)
      [0, 1, 0, 1, 0, 1, 0, 1, 0, 1, 0, 1]).map
      (fun pool => (decide (∀ slot ∈ pool.slots, slot.point = .done),
        pool.shared.readRecord.map (·.totalRequests))) = some (true, some 1) := by
    decide
  obtain ⟨pool, replayed, facts⟩ := Option.map_eq_some_iff.mp shown
  simp only [Prod.mk.injEq] at facts
  obtain ⟨finished, once⟩ := facts
  have run := @Transition.run_of_replay _ _ (step advance) (fun _ _ => True) _ _ _
    (Transition.allows_of_forall _ fun _ _ _ => trivial) replayed
  refine ⟨pool, run, of_decide_eq_true finished, once, ?_⟩
  intro order perm same
  obtain rfl : order = List.replicate 2 (.recordOutcome demoOutcome) := List.perm_replicate.mp perm
  have twice : (((List.replicate 2 (.recordOutcome demoOutcome)).foldl perform
      demoKeys).readRecord.map (·.totalRequests)) = some 2 := rfl
  rw [same, once] at twice
  cases twice

end RedisNode

end X402Mesh.Registry
