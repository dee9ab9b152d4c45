import Mathlib.Data.List.Nodup
import Mathlib.Data.List.Range
import X402Mesh.Lib.Transition
import X402Mesh.Shared.Details

set_option autoImplicit false

-- A release closure is known by its place in the order in which they were made, and a call of
-- `acquire` by its place in the order of those calls.

namespace X402Mesh.NodeDaemon.Permits

open Js Transition

structure Waiter where
  call : Nat
  signal : Option Nat
  deriving DecidableEq

structure Semaphore where
  permits : Nat
  positive : 0 < permits
  active : Int
  waiters : List Waiter

def create (permits : Number) : Except Details.MeshError Semaphore :=
  let refused : Details.MeshError :=
    ⟨"validation_error", "semaphore permits must be a positive integer",
      some [(units "permits", .number permits)]⟩
  match permits with
  | .finite value =>
    if whole : value.den = 1 ∧ 0 < value.num then
      .ok ⟨value.num.toNat, by omega, 0, []⟩
    else .error refused
  | _ => .error refused

def Semaphore.inFlight (sem : Semaphore) : Int := sem.active

def Semaphore.available (sem : Semaphore) : Int := sem.permits - sem.active

def Semaphore.queued (sem : Semaphore) : Nat := sem.waiters.length

/-- A semaphore among its callers: for each release closure whether it has been called, the signals
that are aborted, and what became of the calls of `acquire`. -/
structure State where
  sem : Semaphore
  released : List Bool
  aborted : List Nat
  calls : Nat
  granted : List Nat
  dropped : List Nat

inductive Action
  | tryAcquire
  | acquire (signal : Option Nat)
  | abort (signal : Nat)
  | release (closure : Nat)
  deriving DecidableEq

def init (sem : Semaphore) : State := ⟨sem, [], [], 0, [], []⟩

def makeRelease (s : State) : State := { s with released := s.released ++ [false] }

-- none: there is no permit, and `tryAcquire` returns null.
def tryAcquire? (s : State) : Option State :=
  if s.sem.active ≥ s.sem.permits then none
  else some (makeRelease { s with sem := { s.sem with active := s.sem.active + 1 } })

def enter (s : State) : State := { s with calls := s.calls + 1 }

def IsAborted (s : State) (signal : Option Nat) : Prop := ∃ a ∈ s.aborted, signal = some a

instance (s : State) (signal : Option Nat) : Decidable (IsAborted s signal) :=
  inferInstanceAs (Decidable (∃ a ∈ s.aborted, signal = some a))

def acquire (s : State) (signal : Option Nat) : State :=
  match tryAcquire? s with
  | some immediate => enter { immediate with granted := immediate.granted ++ [s.calls] }
  | none =>
    if IsAborted s signal then enter { s with dropped := s.dropped ++ [s.calls] }
    else
      enter { s with sem := { s.sem with waiters := s.sem.waiters ++ [⟨s.calls, signal⟩] } }

-- Each waiter that listens to the signal leaves the queue.
def abort (s : State) (signal : Nat) : State :=
  if signal ∈ s.aborted then s
  else
    { s with
      sem := { s.sem with waiters := s.sem.waiters.filter fun w => w.signal ≠ some signal }
      aborted := signal :: s.aborted
      dropped := s.dropped ++
        (s.sem.waiters.filter fun w => w.signal = some signal).map (·.call) }

-- The permit moves straight to the first waiter; `active` stays put.
def handOver (s : State) : State :=
  match s.sem.waiters with
  | waiter :: rest =>
    let resolved := makeRelease { s with sem := { s.sem with waiters := rest } }
    { resolved with granted := s.granted ++ [waiter.call] }
  | [] => { s with sem := { s.sem with active := s.sem.active - 1 } }

def release (s : State) (closure : Nat) : State :=
  match s.released[closure]? with
  | some false => handOver { s with released := s.released.set closure true }
  | _ => s

def step (s : State) : Action → Option State
  | .tryAcquire => some ((tryAcquire? s).getD s)
  | .acquire signal => some (acquire s signal)
  | .abort signal => some (abort s signal)
  | .release closure => if closure < s.released.length then some (release s closure) else none

abbrev Runs (s s' : State) : Prop := Run step (fun _ _ => True) s s'

-- The calls that were not dropped, in their order.
def kept (calls : Nat) (dropped : List Nat) : List Nat :=
  (List.range calls).filter fun call => call ∉ dropped

/-- The counter, the closures and the queue agree, and the calls that were not dropped stand in
their order: first those that were granted, then those that wait. -/
structure Fair (s : State) : Prop where
  counted : (s.released.count false : Int) = s.sem.active
  within : s.sem.active ≤ s.sem.permits
  full : s.sem.waiters ≠ [] → s.sem.active = s.sem.permits
  order : kept s.calls s.dropped = s.granted ++ s.sem.waiters.map (·.call)
  earlier : ∀ call ∈ s.dropped, call < s.calls
  listening : ∀ w ∈ s.sem.waiters, ¬ IsAborted s w.signal

theorem create_idle {permits : Number} {sem : Semaphore} (created : create permits = .ok sem) :
    sem.active = 0 ∧ sem.waiters = [] := by
  unfold create at created
  split at created
  next value =>
    split at created
    next whole =>
      obtain rfl := Except.ok.inj created
      exact ⟨rfl, rfl⟩
    next => simp at created
  next => simp at created

theorem init_fair {sem : Semaphore} (idle : sem.active = 0 ∧ sem.waiters = []) :
    Fair (init sem) := by
  constructor
  case counted => simp [init, idle.1]
  case within => simp [init, idle.1]
  case full => simp [init, idle.2]
  case order => simp [init, kept, idle.2]
  case earlier => simp [init]
  case listening => simp [init, idle.2]

variable {s : State}

inductive Effect (s : State) : State → Prop
  | nothing : Effect s s
  | taken : s.sem.active < s.sem.permits →
      Effect s (makeRelease { s with sem := { s.sem with active := s.sem.active + 1 } })
  | granted : s.sem.active < s.sem.permits →
      Effect s (enter
        { makeRelease { s with sem := { s.sem with active := s.sem.active + 1 } } with
          granted := s.granted ++ [s.calls] })
  | refused : Effect s (enter { s with dropped := s.dropped ++ [s.calls] })
  | queued (signal : Option Nat) : s.sem.permits ≤ s.sem.active → ¬ IsAborted s signal →
      Effect s
        (enter { s with sem := { s.sem with waiters := s.sem.waiters ++ [⟨s.calls, signal⟩] } })
  | aborted (signal : Nat) : Effect s (abort s signal)
  | released (closure : Nat) : s.released[closure]? = some false →
      Effect s (handOver { s with released := s.released.set closure true })

theorem tryAcquire?_effect : Effect s ((tryAcquire? s).getD s) := by
  unfold tryAcquire?
  split
  next => exact .nothing
  next room => exact .taken (by omega)

theorem acquire_effect (signal : Option Nat) : Effect s (acquire s signal) := by
  unfold acquire tryAcquire?
  by_cases saturated : s.sem.active ≥ s.sem.permits
  next =>
    rw [if_pos saturated]
    simp only
    split
    next => exact .refused
    next heard => exact .queued signal saturated heard
  next =>
    rw [if_neg saturated]
    exact .granted (by omega)

theorem release_effect (closure : Nat) : Effect s (release s closure) := by
  unfold release
  split
  next held => exact .released closure held
  next => exact .nothing

theorem step_effect {a : Action} {s' : State} (taken : step s a = some s') : Effect s s' := by
  cases a with
  | tryAcquire =>
    obtain rfl := Option.some.inj taken
    exact tryAcquire?_effect
  | acquire signal =>
    obtain rfl := Option.some.inj taken
    exact acquire_effect signal
  | abort signal =>
    obtain rfl := Option.some.inj taken
    exact .aborted signal
  | release closure =>
    obtain ⟨-, released⟩ := Option.ite_none_right_eq_some.mp taken
    obtain rfl := Option.some.inj released
    exact release_effect closure

-- A closure that is made takes a permit that is counted, as does one that was not released.
theorem count_makeRelease : (makeRelease s).released.count false = s.released.count false + 1 := by
  simp [makeRelease]

theorem Fair.nobody (fair : Fair s) (free : s.sem.active < s.sem.permits) : s.sem.waiters = [] := by
  by_contra waiting
  have saturated := fair.full waiting
  omega

theorem Fair.taken (fair : Fair s) (free : s.sem.active < s.sem.permits) :
    Fair (makeRelease { s with sem := { s.sem with active := s.sem.active + 1 } }) := by
  constructor
  case counted =>
    rw [count_makeRelease]
    push_cast
    simp only [makeRelease, fair.counted]
  case within =>
    simp only [makeRelease]
    omega
  case full => exact fun waiting => absurd (fair.nobody free) waiting
  case order => exact fair.order
  case earlier => exact fair.earlier
  case listening => exact fair.listening

-- A call that is yet to come was not dropped.
theorem Fair.fresh (fair : Fair s) : s.calls ∉ s.dropped :=
  fun dropped => Nat.lt_irrefl _ (fair.earlier _ dropped)

theorem kept_succ {calls : Nat} {dropped : List Nat} (fresh : calls ∉ dropped) :
    kept (calls + 1) dropped = kept calls dropped ++ [calls] := by
  rw [kept, List.range_succ, List.filter_append]
  simp [kept, fresh]

theorem kept_refused (calls : Nat) (dropped : List Nat) :
    kept (calls + 1) (dropped ++ [calls]) = kept calls dropped := by
  rw [kept, List.range_succ, List.filter_append]
  have last : [calls].filter (fun call => call ∉ dropped ++ [calls]) = [] := by simp
  rw [last, List.append_nil]
  apply List.filter_congr
  intro call listed
  have other : call ≠ calls := Nat.ne_of_lt (List.mem_range.mp listed)
  simp [other]

theorem kept_append (calls : Nat) (dropped gone : List Nat) :
    kept calls (dropped ++ gone) = (kept calls dropped).filter fun call => call ∉ gone := by
  rw [kept, kept, List.filter_filter]
  apply List.filter_congr
  intro call _
  simp [Bool.and_comm]

-- The calls in their order, with one more.
theorem Fair.order_succ (fair : Fair s) : kept (s.calls + 1) s.dropped =
    s.granted ++ s.sem.waiters.map (·.call) ++ [s.calls] := by
  rw [kept_succ fair.fresh, fair.order]

theorem Fair.granted (fair : Fair s) (free : s.sem.active < s.sem.permits) :
    Fair (enter { makeRelease { s with sem := { s.sem with active := s.sem.active + 1 } } with
      granted := s.granted ++ [s.calls] }) := by
  have made := fair.taken free
  refine ⟨made.counted, made.within, made.full, ?_, ?_, made.listening⟩
  next =>
    have nobody : s.sem.waiters = [] := fair.nobody free
    simpa [makeRelease, enter, nobody] using fair.order_succ
  next => exact fun call dropped => Nat.lt_succ_of_lt (fair.earlier call dropped)

theorem Fair.refused (fair : Fair s) :
    Fair (enter { s with dropped := s.dropped ++ [s.calls] }) := by
  refine ⟨fair.counted, fair.within, fair.full, ?_, ?_, fair.listening⟩
  next => exact (kept_refused _ _).trans fair.order
  next =>
    intro call dropped
    rcases List.mem_append.mp dropped with old | new
    · exact Nat.lt_succ_of_lt (fair.earlier call old)
    · obtain rfl := List.mem_singleton.mp new
      exact Nat.lt_succ_self _

theorem Fair.queued (fair : Fair s) {signal : Option Nat}
    (saturated : s.sem.permits ≤ s.sem.active) (heard : ¬ IsAborted s signal) :
    Fair (enter
      { s with sem := { s.sem with waiters := s.sem.waiters ++ [⟨s.calls, signal⟩] } }) := by
  refine ⟨fair.counted, fair.within, fun _ => le_antisymm fair.within saturated, ?_, ?_, ?_⟩
  next => simpa [enter] using fair.order_succ
  next => exact fun call dropped => Nat.lt_succ_of_lt (fair.earlier call dropped)
  next =>
    intro w member
    rcases List.mem_append.mp member with old | new
    · exact fair.listening w old
    · obtain rfl := List.mem_singleton.mp new
      exact heard

theorem Fair.nodup (fair : Fair s) : (s.granted ++ s.sem.waiters.map (·.call)).Nodup := by
  rw [← fair.order]
  exact List.nodup_range.filter _

-- The waiters of a signal, by their calls.
def listeners (s : State) (signal : Nat) : List Nat :=
  (s.sem.waiters.filter fun w => w.signal = some signal).map (·.call)

theorem listens_iff (fair : Fair s) {w : Waiter} (member : w ∈ s.sem.waiters) (signal : Nat) :
    w.call ∈ listeners s signal ↔ w.signal = some signal := by
  constructor
  next =>
    intro listed
    obtain ⟨v, found, same⟩ := List.mem_map.mp listed
    obtain ⟨waiting, hears⟩ := List.mem_filter.mp found
    have calls := (List.nodup_append.mp fair.nodup).2.1
    obtain rfl : v = w := List.inj_on_of_nodup_map calls waiting member same
    simpa using hears
  next =>
    intro hears
    exact List.mem_map_of_mem (List.mem_filter.mpr ⟨member, by simpa using hears⟩)

theorem granted_hears_nothing (fair : Fair s) {call : Nat} (granted : call ∈ s.granted)
    (signal : Nat) : call ∉ listeners s signal := by
  intro listed
  obtain ⟨v, found, rfl⟩ := List.mem_map.mp listed
  have waiting := List.mem_map_of_mem (f := (·.call)) (List.mem_of_mem_filter found)
  exact (List.nodup_append.mp fair.nodup).2.2 _ granted _ waiting rfl

theorem Fair.aborted (fair : Fair s) (signal : Nat) : Fair (abort s signal) := by
  unfold abort
  split
  next => exact fair
  next =>
    constructor
    case counted => exact fair.counted
    case within => exact fair.within
    case full =>
      intro waiting
      apply fair.full
      intro nobody
      simp [nobody] at waiting
    case order =>
      have granted : s.granted.filter (fun call => call ∉ listeners s signal) = s.granted := by
        rw [List.filter_eq_self]
        intro call member
        simpa using granted_hears_nothing fair member signal
      have waiters : (s.sem.waiters.map (·.call)).filter (fun call => call ∉ listeners s signal) =
          (s.sem.waiters.filter fun w => w.signal ≠ some signal).map (·.call) := by
        rw [List.filter_map]
        congr 1
        apply List.filter_congr
        intro w member
        simp [listens_iff fair member]
      calc kept s.calls (s.dropped ++ listeners s signal)
          = (s.granted ++ s.sem.waiters.map (·.call)).filter
              (fun call => call ∉ listeners s signal) := by rw [kept_append, fair.order]
        _ = _ := by rw [List.filter_append, granted, waiters]
    case earlier =>
      intro call dropped
      rcases List.mem_append.mp dropped with old | new
      · exact fair.earlier call old
      · obtain ⟨w, found, rfl⟩ := List.mem_map.mp new
        have waiting : w.call ∈ s.granted ++ s.sem.waiters.map (·.call) :=
          List.mem_append_right _ (List.mem_map_of_mem (List.mem_of_mem_filter found))
        rw [← fair.order] at waiting
        exact List.mem_range.mp (List.mem_of_mem_filter waiting)
    case listening =>
      rintro w member ⟨a, listed, hears⟩
      obtain ⟨waiting, other⟩ := List.mem_filter.mp member
      rcases List.mem_cons.mp listed with rfl | before
      · simp [hears] at other
      · exact fair.listening w waiting ⟨a, before, hears⟩

-- The count of what is held goes down by one when a closure is called for the first time.
theorem count_set {closure : Nat} (held : s.released[closure]? = some false) :
    (s.released.set closure true).count false + 1 = s.released.count false := by
  obtain ⟨inside, value⟩ := List.getElem?_eq_some_iff.mp held
  have positive : 0 < s.released.count false :=
    List.count_pos_iff.mpr (value ▸ List.getElem_mem inside)
  rw [List.count_set inside]
  simp [value]
  omega

theorem Fair.released (fair : Fair s) {closure : Nat}
    (held : s.released[closure]? = some false) :
    Fair (handOver { s with released := s.released.set closure true }) := by
  have counted := count_set held
  have before := fair.counted
  have within := fair.within
  unfold handOver
  split
  next waiter rest waiting =>
    have waiting : s.sem.waiters = waiter :: rest := waiting
    have saturated := fair.full (by simp [waiting])
    have ordered := fair.order
    constructor
    case counted =>
      simp only [makeRelease, List.count_append, List.count_singleton_self, counted, before]
    case within => exact within
    case full => exact fun _ => saturated
    case order => simpa [makeRelease, waiting] using ordered
    case earlier => exact fair.earlier
    case listening =>
      intro w member
      exact fair.listening w (waiting ▸ List.mem_cons_of_mem _ member)
  next nobody =>
    have nobody : s.sem.waiters = [] := nobody
    constructor
    case counted =>
      simp only
      omega
    case within =>
      simp only
      omega
    case full => exact fun waiting => absurd nobody waiting
    case order => exact fair.order
    case earlier => exact fair.earlier
    case listening => exact fair.listening

theorem Effect.fair {s' : State} (effect : Effect s s') (fair : Fair s) : Fair s' := by
  cases effect with
  | nothing => exact fair
  | taken free => exact fair.taken free
  | granted free => exact fair.granted free
  | refused => exact fair.refused
  | queued signal saturated heard => exact fair.queued saturated heard
  | aborted signal => exact fair.aborted signal
  | released closure held => exact fair.released held

theorem runs_fair {s' : State} (fair : Fair s) (run : Runs s s') : Fair s' :=
  run.invariant fair fun _ _ _ fair _ taken => (step_effect taken).fair fair

theorem handOver_kept :
    (handOver s).dropped = s.dropped ∧ (handOver s).sem.permits = s.sem.permits := by
  unfold handOver
  split <;> exact ⟨rfl, rfl⟩

theorem abort_kept (signal : Nat) : s.dropped ⊆ (abort s signal).dropped ∧
    (abort s signal).sem.permits = s.sem.permits := by
  unfold abort
  split
  next => exact ⟨List.Subset.refl _, rfl⟩
  next => exact ⟨List.subset_append_left _ _, rfl⟩

theorem Effect.dropped {s' : State} (effect : Effect s s') : s.dropped ⊆ s'.dropped := by
  cases effect with
  | refused => exact List.subset_append_left _ _
  | aborted signal => exact (abort_kept signal).1
  | released =>
    rw [handOver_kept.1]
    exact List.Subset.refl _
  | _ => exact List.Subset.refl _

theorem Effect.permits {s' : State} (effect : Effect s s') : s'.sem.permits = s.sem.permits := by
  cases effect with
  | aborted signal => exact (abort_kept signal).2
  | released => exact handOver_kept.2
  | _ => rfl

theorem runs_dropped {s' : State} (run : Runs s s') : s.dropped ⊆ s'.dropped := by
  refine run.invariant (P := fun s' => s.dropped ⊆ s'.dropped) (List.Subset.refl _) ?_
  intro _ _ _ more _ taken
  exact List.Subset.trans more (step_effect taken).dropped

theorem runs_permits {s' : State} (run : Runs s s') : s'.sem.permits = s.sem.permits := by
  refine run.invariant (P := fun s' => s'.sem.permits = s.sem.permits) rfl ?_
  intro _ _ _ same _ taken
  exact (step_effect taken).permits.trans same

theorem Fair.dropped_never_granted (fair : Fair s) {call : Nat} (dropped : call ∈ s.dropped) :
    call ∉ s.granted := by
  intro granted
  have listed : call ∈ kept s.calls s.dropped := by
    rw [fair.order]
    exact List.mem_append_left _ granted
  simpa [dropped] using List.of_mem_filter listed

-- A waiter whose signal is aborted leaves the queue, and no permit changes hands.
theorem abort_leaves (fair : Fair s) {signal : Nat} {w : Waiter} (waiting : w ∈ s.sem.waiters)
    (hears : w.signal = some signal) :
    w.call ∈ (abort s signal).dropped ∧ (abort s signal).sem.active = s.sem.active ∧
      (abort s signal).released = s.released := by
  have heard : signal ∉ s.aborted := fun before =>
    fair.listening w waiting ⟨signal, before, hears⟩
  rw [abort, if_neg heard]
  refine ⟨?_, rfl, rfl⟩
  exact List.mem_append_right _ ((listens_iff fair waiting signal).mpr hears)

theorem release_again {closure : Nat} (before : s.released[closure]? = some true) :
    release s closure = s := by
  rw [release, before]

-- The signals that the calls of `acquire` were given, in their order.
def Action.signal? : Action → Option (Option Nat)
  | .acquire signal => some signal
  | _ => none

def signals (actions : List Action) : List (Option Nat) := actions.filterMap Action.signal?

-- The closures that were handed out and that no action has called.
def held (actions : List Action) (s : State) : List Nat :=
  (List.range s.released.length).filter fun closure => .release closure ∉ actions

structure Recorded (actions : List Action) (s : State) : Prop where
  called : ∀ closure, .release closure ∈ actions ↔ s.released[closure]? = some true
  calls : s.calls = (signals actions).length
  heard : ∀ signal ∈ s.aborted, .abort signal ∈ actions
  waiting : ∀ w ∈ s.sem.waiters, (signals actions)[w.call]? = some w.signal
  dropped : ∀ call ∈ s.dropped, ∃ signal,
    (signals actions)[call]? = some (some signal) ∧ .abort signal ∈ actions

theorem init_recorded {sem : Semaphore} (idle : sem.waiters = []) : Recorded [] (init sem) := by
  constructor
  case called => simp [init]
  case calls => rfl
  case heard => simp [init]
  case waiting => simp [init, idle]
  case dropped => simp [init]

section recorded

variable {actions : List Action} (recorded : Recorded actions s)

theorem signals_concat (a : Action) :
    signals (actions ++ [a]) = signals actions ++ a.signal?.toList := by
  simp only [signals, List.filterMap_append]
  cases a <;> rfl

theorem makeRelease_called (closure : Nat) :
    (makeRelease s).released[closure]? = some true ↔ s.released[closure]? = some true := by
  by_cases inside : closure < s.released.length
  next => simp [makeRelease, List.getElem?_append_left inside]
  next =>
    rw [makeRelease, List.getElem?_append_right (by omega),
      List.getElem?_eq_none (by omega : s.released.length ≤ closure)]
    cases closure - s.released.length <;> simp

theorem set_called {closure : Nat} (first : s.released[closure]? = some false) (other : Nat) :
    (s.released.set closure true)[other]? = some true ↔
      s.released[other]? = some true ∨ closure = other := by
  have inside := (List.getElem?_eq_some_iff.mp first).1
  by_cases same : closure = other
  next =>
    subst same
    simp [inside]
  next => simp [same]

theorem signal_kept {call : Nat} {signal : Option Nat} (a : Action)
    (found : (signals actions)[call]? = some signal) :
    (signals (actions ++ [a]))[call]? = some signal := by
  rw [signals_concat, List.getElem?_append_left (List.getElem?_eq_some_iff.mp found).1, found]

include recorded in
theorem Recorded.grows {s' : State} (a : Action)
    (called : ∀ closure, .release closure ∈ actions ++ [a] ↔ s'.released[closure]? = some true)
    (calls : s'.calls = s.calls + a.signal?.toList.length)
    (heard : ∀ signal ∈ s'.aborted, signal ∈ s.aborted ∨ a = .abort signal)
    (waiting : ∀ w ∈ s'.sem.waiters, w ∈ s.sem.waiters ∨
      (signals (actions ++ [a]))[w.call]? = some w.signal)
    (dropped : ∀ call ∈ s'.dropped, call ∈ s.dropped ∨ ∃ signal,
      (signals (actions ++ [a]))[call]? = some (some signal) ∧ .abort signal ∈ actions ++ [a]) :
    Recorded (actions ++ [a]) s' where
  called := called
  calls := by rw [calls, recorded.calls, signals_concat, List.length_append]
  heard := by
    intro signal listed
    rcases heard signal listed with before | rfl
    · exact List.mem_append_left _ (recorded.heard signal before)
    · simp
  waiting := by
    intro w member
    rcases waiting w member with before | now
    · exact signal_kept a (recorded.waiting w before)
    · exact now
  dropped := by
    intro call member
    rcases dropped call member with before | now
    · obtain ⟨signal, found, heard⟩ := recorded.dropped call before
      exact ⟨signal, signal_kept a found, List.mem_append_left _ heard⟩
    · exact now

include recorded in
theorem Recorded.acquired (signal : Option Nat) :
    Recorded (actions ++ [.acquire signal]) (acquire s signal) := by
  have place : (signals (actions ++ [.acquire signal]))[s.calls]? = some signal := by
    rw [signals_concat, recorded.calls]
    simp [Action.signal?]
  unfold acquire tryAcquire?
  by_cases saturated : s.sem.active ≥ s.sem.permits
  next =>
    rw [if_pos saturated]
    simp only
    split
    next hangs =>
      obtain ⟨a, listed, rfl⟩ := hangs
      refine recorded.grows _ (by simpa [enter] using recorded.called) rfl (fun _ => .inl)
        (fun _ => .inl) fun call member => ?_
      rcases List.mem_append.mp member with old | new
      · exact .inl old
      · obtain rfl := List.mem_singleton.mp new
        exact .inr ⟨a, place, List.mem_append_left _ (recorded.heard a listed)⟩
    next =>
      refine recorded.grows _ (by simpa [enter] using recorded.called) rfl (fun _ => .inl)
        (fun w member => ?_) fun _ => .inl
      rcases List.mem_append.mp member with old | new
      · exact .inl old
      · obtain rfl := List.mem_singleton.mp new
        exact .inr place
  next =>
    rw [if_neg saturated]
    refine recorded.grows _ (fun closure => ?_) rfl (fun _ => .inl) (fun _ => .inl) fun _ => .inl
    have before := recorded.called closure
    simpa [enter, makeRelease_called] using before

include recorded in
theorem Recorded.aborts (signal : Nat) :
    Recorded (actions ++ [.abort signal]) (abort s signal) := by
  have called : ∀ closure, .release closure ∈ actions ++ [.abort signal] ↔
      s.released[closure]? = some true := by simpa using recorded.called
  unfold abort
  split
  next => exact recorded.grows _ called rfl (fun _ => .inl) (fun _ => .inl) fun _ => .inl
  next =>
    refine recorded.grows _ called rfl (fun other listed => ?_)
      (fun w member => .inl (List.mem_of_mem_filter member)) fun call member => ?_
    · rcases List.mem_cons.mp listed with rfl | before
      · exact .inr rfl
      · exact .inl before
    · rcases List.mem_append.mp member with old | new
      · exact .inl old
      · obtain ⟨w, found, rfl⟩ := List.mem_map.mp new
        obtain ⟨waiting, hears⟩ := List.mem_filter.mp found
        have hears : w.signal = some signal := by simpa using hears
        refine .inr ⟨signal, ?_, by simp⟩
        rw [← hears]
        exact signal_kept _ (recorded.waiting w waiting)

include recorded in
theorem Recorded.releases (closure : Nat) (made : closure < s.released.length) :
    Recorded (actions ++ [.release closure]) (release s closure) := by
  have known (other : Nat) : .release other ∈ actions ++ [.release closure] ↔
      s.released[other]? = some true ∨ closure = other := by
    rw [List.mem_append, recorded.called, List.mem_singleton, Action.release.injEq,
      @eq_comm _ closure]
  unfold release
  split
  next first =>
    unfold handOver
    split
    next waiter rest waiting =>
      have waiting : s.sem.waiters = waiter :: rest := waiting
      refine recorded.grows _ (fun other => ?_) rfl (fun _ => .inl)
        (fun w member => .inl (waiting ▸ List.mem_cons_of_mem _ member)) fun _ => .inl
      simp only [makeRelease_called]
      exact (known other).trans (set_called first other).symm
    next =>
      refine recorded.grows _ (fun other => ?_) rfl (fun _ => .inl) (fun _ => .inl) fun _ => .inl
      exact (known other).trans (set_called first other).symm
  next again =>
    have before : s.released[closure]? = some true := by
      rw [List.getElem?_eq_getElem made] at again ⊢
      cases value : s.released[closure] <;> simp_all
    refine recorded.grows _ (fun other => ?_) rfl (fun _ => .inl) (fun _ => .inl) fun _ => .inl
    rw [known]
    constructor
    · rintro (already | rfl)
      · exact already
      · exact before
    · exact .inl

include recorded in
theorem Recorded.after {a : Action} {s' : State} (taken : step s a = some s') :
    Recorded (actions ++ [a]) s' := by
  cases a with
  | tryAcquire =>
    obtain rfl := Option.some.inj taken
    have called : ∀ closure, .release closure ∈ actions ++ [.tryAcquire] ↔
        s.released[closure]? = some true := by simpa using recorded.called
    unfold tryAcquire?
    split
    next => exact recorded.grows _ called rfl (fun _ => .inl) (fun _ => .inl) fun _ => .inl
    next =>
      refine recorded.grows _ (fun closure => ?_) rfl (fun _ => .inl) (fun _ => .inl) fun _ => .inl
      exact (called closure).trans (makeRelease_called closure).symm
  | acquire signal =>
    obtain rfl := Option.some.inj taken
    exact recorded.acquired signal
  | abort signal =>
    obtain rfl := Option.some.inj taken
    exact recorded.aborts signal
  | release closure =>
    obtain ⟨made, released⟩ := Option.ite_none_right_eq_some.mp taken
    obtain rfl := Option.some.inj released
    exact recorded.releases closure made

include recorded in
theorem Recorded.held_length : (held actions s).length = s.released.count false := by
  have flags : s.released =
      (List.range s.released.length).map fun closure => decide (.release closure ∈ actions) := by
    apply List.ext_getElem (by simp)
    intro closure inside _
    have known := recorded.called closure
    rw [List.getElem?_eq_getElem inside] at known
    cases value : s.released[closure] <;> simp_all
  calc (held actions s).length
      = ((List.range s.released.length).map fun closure =>
          decide (.release closure ∈ actions)).count false := by
        rw [List.count, List.countP_map, List.countP_eq_length_filter, held]
        congr 2
        funext closure
        by_cases called : .release closure ∈ actions <;> simp [called]
    _ = s.released.count false := by rw [← flags]

end recorded

theorem replay_recorded {sem : Semaphore} (idle : sem.active = 0 ∧ sem.waiters = [])
    (actions : List Action) (reached : replay step (init sem) actions = some s) :
    Fair s ∧ Recorded actions s := by
  induction actions using List.reverseRecOn generalizing s with
  | nil =>
    obtain rfl : init sem = s := Option.some.inj reached
    exact ⟨init_fair idle, init_recorded idle.2⟩
  | append_singleton actions a ih =>
    rw [replay_concat] at reached
    obtain ⟨before, earlier, taken⟩ := Option.bind_eq_some_iff.mp reached
    obtain ⟨fair, recorded⟩ := ih earlier
    exact ⟨(step_effect taken).fair fair, recorded.after taken⟩

/-- What a permit that is given back does: the first waiter has it, with a closure of its own, and
where nobody waits it is free. -/
structure Handed (s s' : State) : Prop where
  granted : s'.granted = s.granted ++ (s.sem.waiters.take 1).map (·.call)
  waiting : s'.sem.waiters = s.sem.waiters.drop 1
  closures : s'.released.length = s.released.length + (s.sem.waiters.take 1).length
  inFlight : s'.sem.inFlight + 1 = s.sem.inFlight + (s.sem.waiters.take 1).length

theorem release_handed {closure : Nat} (first : s.released[closure]? = some false) :
    Handed s (release s closure) := by
  rw [release, first]
  simp only [handOver]
  cases waiting : s.sem.waiters with
  | nil =>
    constructor
    case granted => simp [waiting]
    case waiting => simp [waiting]
    case closures => simp [waiting]
    case inFlight => simp [waiting, Semaphore.inFlight]
  | cons waiter rest =>
    constructor
    case granted => simp [waiting]
    case waiting => simp [makeRelease, waiting]
    case closures => simp [makeRelease, waiting]
    case inFlight => simp [makeRelease, waiting, Semaphore.inFlight]

/-- Over every run of calls: the permits held are those whose closures the run has not called, they
are counted and bounded, and the queue forms only when all are held; the calls of `acquire` that
were not dropped on an abort are granted in their order; a waiter that is aborted never is and costs
no permit; a closure hands its permit on when it is first called, and does nothing when it is called
again. -/
theorem semaphore_fair (permits : Number) (sem : Semaphore) (created : create permits = .ok sem)
    (actions : List Action) (s : State) (reached : replay step (init sem) actions = some s) :
    (((held actions s).length : Int) = s.sem.inFlight ∧ s.sem.inFlight ≤ sem.permits) ∧
      (0 < s.sem.queued → s.sem.inFlight = sem.permits) ∧
      (kept (signals actions).length s.dropped = s.granted ++ s.sem.waiters.map (·.call) ∧
        ∀ call ∈ s.dropped, ∃ signal, (signals actions)[call]? = some (some signal) ∧
          .abort signal ∈ actions) ∧
      (∀ w ∈ s.sem.waiters, ∀ signal s', w.signal = some signal →
        step s (.abort signal) = some s' →
        s'.sem.inFlight = s.sem.inFlight ∧
          held (actions ++ [.abort signal]) s' = held actions s ∧
          ∀ later, Runs s' later → w.call ∉ later.granted) ∧
      (∀ closure ∈ held actions s, ∀ s', step s (.release closure) = some s' → Handed s s') ∧
      ∀ closure, .release closure ∈ actions → step s (.release closure) = some s := by
  obtain ⟨fair, recorded⟩ := replay_recorded (create_idle created) actions reached
  have run : Runs (init sem) s :=
    run_of_replay actions (allows_of_forall _ fun _ _ _ => trivial) reached
  have permits : s.sem.permits = sem.permits := runs_permits run
  rw [← permits, recorded.held_length, ← recorded.calls]
  refine ⟨⟨fair.counted, fair.within⟩, ?_, ⟨fair.order, recorded.dropped⟩, ?_, ?_, ?_⟩
  next =>
    intro waiting
    exact fair.full (List.ne_nil_of_length_pos waiting)
  next =>
    intro w waiting signal s' hears taken
    obtain rfl := Option.some.inj taken
    obtain ⟨dropped, active, released⟩ := abort_leaves fair waiting hears
    refine ⟨active, by simp [held, released], ?_⟩
    intro later run
    have fair' := runs_fair (fair.aborted signal) run
    exact fair'.dropped_never_granted (runs_dropped run dropped)
  next =>
    intro closure mine s' taken
    obtain ⟨made, uncalled⟩ := List.mem_filter.mp mine
    have inside := List.mem_range.mp made
    have first : s.released[closure]? = some false := by
      have known := recorded.called closure
      rw [List.getElem?_eq_getElem inside] at known ⊢
      cases value : s.released[closure] <;> simp_all
    obtain rfl := Option.some.inj ((if_pos inside).symm.trans taken)
    exact release_handed first
  next =>
    intro closure called
    have before := (recorded.called closure).mp called
    obtain ⟨inside, -⟩ := List.getElem?_eq_some_iff.mp before
    rw [step, if_pos inside, release_again before]

-- One permit, two waiters, and the first of them hangs up before the permit is given back.
def hangUpLabels : List Action := [.tryAcquire, .acquire (some 7), .acquire none, .abort 7]

def oneIdle : Semaphore := ⟨1, by decide, 0, []⟩

def hungUp : State := (replay step (init oneIdle) hangUpLabels).getD (init oneIdle)

theorem hungUp_fair :
    (held hangUpLabels hungUp).length = hungUp.sem.inFlight ∧
      kept 2 hungUp.dropped = hungUp.granted ++ hungUp.sem.waiters.map (·.call) ∧
      (∀ later, Runs hungUp later → 0 ∉ later.granted) ∧
      Handed hungUp (release hungUp 0) ∧
      step (release hungUp 0) (.release 0) = some (release hungUp 0) := by
  have waiting := semaphore_fair (.finite 1) oneIdle rfl [.tryAcquire, .acquire (some 7),
    .acquire none] ⟨⟨1, by decide, 1, [⟨0, some 7⟩, ⟨1, none⟩]⟩, [false], [], 2, [], []⟩ rfl
  have fair := semaphore_fair (.finite 1) oneIdle rfl hangUpLabels hungUp rfl
  have again := semaphore_fair (.finite 1) oneIdle rfl (hangUpLabels ++ [.release 0])
    (release hungUp 0) rfl
  refine ⟨fair.1.1, fair.2.2.1.1, ?_, ?_, ?_⟩
  next => exact (waiting.2.2.2.1 ⟨0, some 7⟩ (by decide) 7 hungUp rfl rfl).2.2
  next => exact fair.2.2.2.2.1 0 (by decide) _ rfl
  next => exact again.2.2.2.2.2 0 (by decide)

end X402Mesh.NodeDaemon.Permits
