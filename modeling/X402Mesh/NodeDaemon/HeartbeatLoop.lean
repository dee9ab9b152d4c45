import X402Mesh.Lib.Transition
import X402Mesh.NodeDaemon.Backoff

set_option autoImplicit false

-- A beat is in flight from the call of `tick` until what waits for it has run, so it can outlive a
-- stop and the start that follows.

namespace X402Mesh.NodeDaemon.Heartbeats

open Backoff Transition

structure HeartbeatLoop where
  timer : Option Nat
  running : Bool
  consecutiveFailures : Nat
  inFlightTick : Option Nat
  deriving DecidableEq

structure ArmedTimer where
  handle : Nat
  delayMs : Int
  deriving DecidableEq

structure Beat where
  serial : Nat
  byTimer : Bool
  settled : Bool
  deriving DecidableEq

/-- The loop, the timers its scheduler holds and the beats in flight. -/
structure State where
  loop : HeartbeatLoop
  armed : List ArmedTimer
  beats : List Beat
  nextHandle : Nat
  nextBeat : Nat
  deriving DecidableEq

-- `random` is the draw of the jitter source for the timer that the action may arm.
inductive Action
  | start (random : ℚ)
  | stop
  | tick
  | fire (handle : Nat)
  | settle (serial : Nat) (ok : Bool)
  | finish (serial : Nat) (random : ℚ)

variable (options : Options)

def init : State := ⟨⟨none, false, 0, none⟩, [], [], 0, 0⟩

def clearTimeout (s : State) (handle : Nat) : State :=
  { s with armed := s.armed.filter fun t => t.handle ≠ handle }

def setTimeout (s : State) (delayMs : Int) : State :=
  { s with
    loop := { s.loop with timer := some s.nextHandle }
    armed := s.armed ++ [⟨s.nextHandle, delayMs⟩]
    nextHandle := s.nextHandle + 1 }

def clearTimer (s : State) : State :=
  match s.loop.timer with
  | some handle => clearTimeout s handle
  | none => s

def schedule (s : State) (delayMs : Int) (random : ℚ) : State :=
  if s.loop.running then setTimeout (clearTimer s) (jitter delayMs random) else s

def scheduleNext (s : State) (random : ℚ) : State :=
  if s.loop.running then schedule s (nextDelayMs options s.loop.consecutiveFailures) random else s

def start (s : State) (random : ℚ) : State :=
  if s.loop.running then s
  else
    schedule { s with loop := { s.loop with running := true, consecutiveFailures := 0 } }
      options.heartbeatIntervalMs random

def stop (s : State) : State :=
  let cleared := clearTimer { s with loop := { s.loop with running := false } }
  { cleared with loop := { cleared.loop with timer := none } }

def tick (s : State) (byTimer : Bool) : State :=
  { s with
    loop := { s.loop with inFlightTick := some s.nextBeat }
    beats := s.beats ++ [⟨s.nextBeat, byTimer, false⟩]
    nextBeat := s.nextBeat + 1 }

-- The scheduler drops a timer when it fires, and then the callback runs.
def fire (s : State) (handle : Nat) : State :=
  let fired := clearTimeout s handle
  tick { fired with loop := { fired.loop with timer := none } } true

-- `sendOnce` has its result.
def settle (s : State) (serial : Nat) (ok : Bool) : State :=
  { s with
    loop := { s.loop with
      consecutiveFailures := if ok then 0 else s.loop.consecutiveFailures + 1 }
    beats := s.beats.map fun b => if b.serial = serial then { b with settled := true } else b }

-- `tick` returns.
def leave (s : State) (beat : Beat) : State :=
  { s with
    loop := { s.loop with
      inFlightTick :=
        if s.loop.inFlightTick = some beat.serial then none else s.loop.inFlightTick }
    beats := s.beats.erase beat }

-- After that, a beat that a timer started arms the next one.
def finish (s : State) (beat : Beat) (random : ℚ) : State :=
  if beat.byTimer then scheduleNext options (leave s beat) random else leave s beat

def step (s : State) : Action → Option State
  | .start random => some (start options s random)
  | .stop => some (stop s)
  | .tick => some (tick s false)
  | .fire handle => if s.armed.any (·.handle = handle) then some (fire s handle) else none
  | .settle serial ok =>
    if s.beats.any fun b => b.serial = serial && !b.settled then some (settle s serial ok) else none
  | .finish serial random =>
    (s.beats.find? fun b => b.serial = serial && b.settled).map fun b => finish options s b random

abbrev Reachable (s : State) : Prop := Run (step options) (fun _ _ => True) init s

/-- The scheduler holds the timer of the loop and no other; only a loop that runs has one, and a
loop that runs has one or a beat that will arm it. -/
structure OneTimer (s : State) : Prop where
  owned : s.armed.map (·.handle) = s.loop.timer.toList
  stopped : s.loop.running = false → s.loop.timer = none
  alive : s.loop.running = true → s.loop.timer ≠ none ∨ ∃ b ∈ s.beats, b.byTimer = true

theorem init_oneTimer : OneTimer init where
  owned := rfl
  stopped _ := rfl
  alive running := by simp [init] at running

variable {options} {s : State}

/-- What a step can do, with what it found. -/
inductive Effect (options : Options) (s : State) : Action → State → Prop
  | started (random : ℚ) : Effect options s (.start random) (start options s random)
  | stopped : Effect options s .stop (stop s)
  | ticked : Effect options s .tick (tick s false)
  | fired (t : ArmedTimer) : t ∈ s.armed → Effect options s (.fire t.handle) (fire s t.handle)
  | settled (serial : Nat) (ok : Bool) : Effect options s (.settle serial ok) (settle s serial ok)
  | left (beat : Beat) (random : ℚ) : beat.byTimer = false →
      Effect options s (.finish beat.serial random) (leave s beat)
  | rearmed (beat : Beat) (random : ℚ) :
      Effect options s (.finish beat.serial random) (scheduleNext options (leave s beat) random)

theorem step_effect {a : Action} {s' : State} (taken : step options s a = some s') :
    Effect options s a s' := by
  cases a with
  | start random =>
    obtain rfl := Option.some.inj taken
    exact .started random
  | stop =>
    obtain rfl := Option.some.inj taken
    exact .stopped
  | tick =>
    obtain rfl := Option.some.inj taken
    exact .ticked
  | fire handle =>
    obtain ⟨due, fired⟩ := Option.ite_none_right_eq_some.mp taken
    obtain rfl := Option.some.inj fired
    obtain ⟨t, member, same⟩ := List.any_eq_true.mp due
    obtain rfl := of_decide_eq_true same
    exact .fired t member
  | settle serial ok =>
    obtain ⟨-, settled⟩ := Option.ite_none_right_eq_some.mp taken
    obtain rfl := Option.some.inj settled
    exact .settled serial ok
  | finish serial random =>
    obtain ⟨beat, found, rfl⟩ := Option.map_eq_some_iff.mp taken
    have which := List.find?_some found
    simp only [Bool.and_eq_true, decide_eq_true_eq] at which
    obtain rfl := which.1
    unfold finish
    split
    next => exact .rearmed beat random
    next manual => exact .left beat random (by simpa using manual)

theorem clearTimer_armed (owned : s.armed.map (·.handle) = s.loop.timer.toList) :
    (clearTimer s).armed = [] := by
  unfold clearTimer
  cases held : s.loop.timer with
  | none => simpa [held] using owned
  | some handle =>
    have only : ∀ t ∈ s.armed, t.handle = handle := by
      intro t member
      have listed := List.mem_map_of_mem (f := (·.handle)) member
      simpa [owned, held] using listed
    simpa [clearTimeout] using only

theorem clearTimer_loop : (clearTimer s).loop = s.loop := by
  unfold clearTimer
  split <;> rfl

-- Whatever timer there was, exactly one is left.
theorem schedule_oneTimer (owned : s.armed.map (·.handle) = s.loop.timer.toList)
    (running : s.loop.running = true) (delayMs : Int) (random : ℚ) :
    OneTimer (schedule s delayMs random) := by
  rw [schedule, if_pos running]
  constructor
  case owned => simp [setTimeout, clearTimer_armed owned]
  case stopped =>
    intro halted
    simp [setTimeout, clearTimer_loop, running] at halted
  case alive => simp [setTimeout]

theorem start_oneTimer (one : OneTimer s) (random : ℚ) : OneTimer (start options s random) := by
  unfold start
  split
  next => exact one
  next =>
    apply schedule_oneTimer
    next => exact one.owned
    next => rfl

theorem stop_oneTimer (one : OneTimer s) : OneTimer (stop s) := by
  have cleared := clearTimer_armed (s := { s with loop := { s.loop with running := false } })
    one.owned
  constructor
  case owned => simp [stop, cleared]
  case stopped => simp [stop]
  case alive => simp [stop, clearTimer_loop]

-- What leaves the timer alone has to keep a beat that a timer started.
theorem OneTimer.kept (one : OneTimer s) {s' : State} (armed : s'.armed = s.armed)
    (timer : s'.loop.timer = s.loop.timer) (running : s'.loop.running = s.loop.running)
    (beats : ∀ b ∈ s.beats, b.byTimer = true → ∃ c ∈ s'.beats, c.byTimer = true) :
    OneTimer s' := by
  constructor
  case owned => rw [armed, timer, one.owned]
  case stopped => simpa only [timer, running] using one.stopped
  case alive =>
    rw [timer, running]
    intro running
    rcases one.alive running with held | ⟨b, member, started⟩
    · exact .inl held
    · exact .inr (beats b member started)

theorem tick_oneTimer (one : OneTimer s) (byTimer : Bool) : OneTimer (tick s byTimer) := by
  refine one.kept rfl rfl rfl ?_
  intro b member started
  exact ⟨b, List.mem_append_left _ member, started⟩

theorem fire_oneTimer (one : OneTimer s) {t : ArmedTimer} (member : t ∈ s.armed) :
    OneTimer (fire s t.handle) := by
  have held : t.handle ∈ s.loop.timer.toList := one.owned ▸ List.mem_map_of_mem member
  have timer : s.loop.timer = some t.handle := by simpa using held
  have cleared : (clearTimeout s t.handle).armed = [] := by
    have emptied := clearTimer_armed one.owned
    simpa [clearTimer, timer] using emptied
  constructor
  case owned => simp [fire, tick, cleared]
  case stopped => simp [fire, tick]
  case alive => exact fun _ => .inr ⟨_, List.mem_append_right _ (List.mem_singleton_self _), rfl⟩

theorem settle_oneTimer (one : OneTimer s) (serial : Nat) (ok : Bool) :
    OneTimer (settle s serial ok) := by
  refine one.kept rfl rfl rfl ?_
  intro b member started
  refine ⟨_, List.mem_map_of_mem member, ?_⟩
  split <;> exact started

-- The beat that leaves counts for nothing when it is a manual one.
theorem leave_oneTimer (one : OneTimer s) {beat : Beat} (manual : beat.byTimer = false) :
    OneTimer (leave s beat) := by
  refine one.kept rfl rfl rfl ?_
  intro b member started
  have other : b ≠ beat := by
    rintro rfl
    simp [manual] at started
  exact ⟨b, (List.mem_erase_of_ne other).mpr member, started⟩

-- Whether the loop was stopped meanwhile decides if the beat arms the next one.
theorem scheduleNext_oneTimer (one : OneTimer s) (beat : Beat) (random : ℚ) :
    OneTimer (scheduleNext options (leave s beat) random) := by
  unfold scheduleNext
  split
  next running =>
    apply schedule_oneTimer
    next => exact one.owned
    next => exact running
  next halted => exact ⟨one.owned, one.stopped, fun running => absurd running halted⟩

theorem Effect.oneTimer {a : Action} {s' : State} (effect : Effect options s a s')
    (one : OneTimer s) : OneTimer s' := by
  cases effect with
  | started random => exact start_oneTimer one random
  | stopped => exact stop_oneTimer one
  | ticked => exact tick_oneTimer one false
  | fired t member => exact fire_oneTimer one member
  | settled serial ok => exact settle_oneTimer one serial ok
  | left beat random manual => exact leave_oneTimer one manual
  | rearmed beat random => exact scheduleNext_oneTimer one beat random

theorem reachable_oneTimer (reached : Reachable options s) : OneTimer s :=
  reached.invariant init_oneTimer fun _ _ _ one _ taken => (step_effect taken).oneTimer one

-- Every timer was armed with the jittered delay of some streak; the steady interval is that of none.
def Delays (options : Options) (s : State) : Prop :=
  ∀ t ∈ s.armed, ∃ streak random, t.delayMs = jitter (nextDelayMs options streak) random

theorem clearTimer_subset {t : ArmedTimer} (member : t ∈ (clearTimer s).armed) : t ∈ s.armed := by
  unfold clearTimer at member
  split at member
  next => exact List.mem_of_mem_filter member
  next => exact member

theorem schedule_delays (delays : Delays options s) (streak : Nat) (random : ℚ) :
    Delays options (schedule s (nextDelayMs options streak) random) := by
  unfold schedule
  split
  next =>
    intro t member
    rcases List.mem_append.mp member with old | new
    · exact delays t (clearTimer_subset old)
    · obtain rfl := List.mem_singleton.mp new
      exact ⟨streak, random, rfl⟩
  next => exact delays

theorem Effect.delays {a : Action} {s' : State} (effect : Effect options s a s')
    (delays : Delays options s) : Delays options s' := by
  cases effect with
  | started random =>
    unfold start
    split
    next => exact delays
    next =>
      have steady : options.heartbeatIntervalMs = nextDelayMs options 0 := rfl
      rw [steady]
      apply schedule_delays
      exact delays
  | stopped =>
    intro t member
    have before := clearTimer_subset (s := { s with loop := { s.loop with running := false } }) member
    exact delays t before
  | fired =>
    intro t member
    exact delays t (List.mem_of_mem_filter member)
  | rearmed beat random =>
    unfold scheduleNext
    split
    next =>
      apply schedule_delays
      exact delays
    next => exact delays
  | ticked | settled | left => exact delays

theorem reachable_delays (reached : Reachable options s) : Delays options s :=
  reached.invariant (fun _ member => nomatch member) fun _ _ _ delays _ taken =>
    (step_effect taken).delays delays

def NoStart (_ : State) : Action → Prop
  | .start _ => False
  | _ => True

theorem Effect.halted {a : Action} {s' : State} (effect : Effect options s a s')
    (quiet : NoStart s a) (halted : s.loop.running = false) : s'.loop.running = false := by
  cases effect with
  | started => exact quiet.elim
  | stopped => simp [stop, clearTimer_loop]
  | rearmed beat random =>
    unfold scheduleNext
    split
    next running => exact absurd running (by simp [leave, halted])
    next => exact halted
  | ticked | fired | settled | left => exact halted

theorem run_halted (halted : s.loop.running = false) {s' : State}
    (run : Run (step options) NoStart s s') : s'.loop.running = false :=
  run.invariant halted fun _ _ _ halted quiet taken => (step_effect taken).halted quiet halted

theorem armed_length (one : OneTimer s) : s.armed.length ≤ 1 := by
  have counted := congrArg List.length one.owned
  rw [List.length_map] at counted
  have most : s.loop.timer.toList.length ≤ 1 := by cases s.loop.timer <;> simp
  omega

theorem armed_halted (one : OneTimer s) (halted : s.loop.running = false) : s.armed = [] := by
  simpa [one.stopped halted] using one.owned

theorem armed_or_beat (one : OneTimer s) (running : s.loop.running = true) :
    s.armed ≠ [] ∨ ∃ b ∈ s.beats, b.byTimer = true := by
  rcases one.alive running with held | beat
  · refine .inl fun emptied => held ?_
    simpa [emptied] using one.owned.symm
  · exact .inr beat

-- Whether the last call of `start` or `stop` is a `start`.
def runningAfter (actions : List Action) : Bool :=
  actions.foldl (fun running a =>
    match a with
    | .start _ => true
    | .stop => false
    | _ => running) false

theorem runningAfter_concat (actions : List Action) (a : Action) :
    runningAfter (actions ++ [a]) =
      match a with
      | .start _ => true
      | .stop => false
      | _ => runningAfter actions := by
  rw [runningAfter, List.foldl_append]
  cases a <;> rfl

theorem schedule_running (delayMs : Int) (random : ℚ) :
    (schedule s delayMs random).loop.running = s.loop.running := by
  unfold schedule
  split
  next => simp [setTimeout, clearTimer_loop]
  next => rfl

theorem Effect.running {a : Action} {s' : State} (effect : Effect options s a s') :
    s'.loop.running =
      match a with
      | .start _ => true
      | .stop => false
      | _ => s.loop.running := by
  cases effect with
  | started random =>
    unfold start
    split
    next running => exact running
    next => rw [schedule_running]
  | stopped => simp [stop, clearTimer_loop]
  | rearmed beat random =>
    unfold scheduleNext
    split
    next =>
      rw [schedule_running]
      rfl
    next => rfl
  | ticked | fired | settled | left => rfl

theorem replay_running (options : Options) (actions : List Action)
    (reached : replay (step options) init actions = some s) :
    Reachable options s ∧ s.loop.running = runningAfter actions := by
  induction actions using List.reverseRecOn generalizing s with
  | nil =>
    obtain rfl : init = s := Option.some.inj reached
    exact ⟨.refl, rfl⟩
  | append_singleton actions a ih =>
    rw [replay_concat] at reached
    obtain ⟨before, earlier, taken⟩ := Option.bind_eq_some_iff.mp reached
    obtain ⟨run, running⟩ := ih earlier
    refine ⟨run.tail trivial taken, ?_⟩
    rw [(step_effect taken).running, runningAfter_concat]
    cases a with
    | start | stop => rfl
    | tick | fire | settle | finish => exact running

/-- After any calls at most one timer is armed, and while the loop was last started one is armed or
a beat is in flight that a timer started; from a stop to the next start none is. -/
theorem heartbeatLoop_one_timer (options : Options) (actions : List Action) (s : State)
    (reached : replay (step options) init actions = some s) :
    s.armed.length ≤ 1 ∧ s.loop.running = runningAfter actions ∧
      (runningAfter actions = true → s.armed ≠ [] ∨ ∃ b ∈ s.beats, b.byTimer = true) ∧
      ∀ s' later, step options s .stop = some s' → Run (step options) NoStart s' later →
        later.armed = [] := by
  obtain ⟨run, running⟩ := replay_running options actions reached
  have one := reachable_oneTimer run
  refine ⟨armed_length one, running, running ▸ armed_or_beat one, ?_⟩
  intro s' later stopped rest
  have halted : s'.loop.running = false := by
    obtain rfl := Option.some.inj stopped
    simp [stop, clearTimer_loop]
  have reached' : Reachable options later :=
    (run.tail trivial stopped).trans (rest.mono fun _ _ _ => trivial)
  exact armed_halted (reachable_oneTimer reached') (run_halted halted rest)

-- A beat of the first start arms the timer of the second one.
def staleLabels : List Action :=
  [.start (1 / 2), .fire 0, .stop, .start (1 / 2), .tick, .settle 0 false, .finish 0 (1 / 2)]

def staleState : State := ((replay (step ⟨15000, 120000⟩) init staleLabels).getD init)

theorem staleState_one_timer :
    staleState.armed.length ≤ 1 ∧ staleState.loop.running = true ∧
      (staleState.armed ≠ [] ∨ ∃ b ∈ staleState.beats, b.byTimer = true) ∧
      ∀ s' later, step ⟨15000, 120000⟩ staleState .stop = some s' →
        Run (step ⟨15000, 120000⟩) NoStart s' later → later.armed = [] := by
  obtain ⟨most, running, alive, quiet⟩ :=
    heartbeatLoop_one_timer ⟨15000, 120000⟩ staleLabels staleState rfl
  exact ⟨most, running, alive rfl, quiet⟩

example : staleState.armed.map (·.handle) = [2] ∧ staleState.loop.timer = some 2 :=
  ⟨rfl, rfl⟩

end X402Mesh.NodeDaemon.Heartbeats
