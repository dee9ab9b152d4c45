import X402Mesh.NodeDaemon.Server

set_option autoImplicit false

namespace X402Mesh.NodeDaemon.Server

open Js ChatSchemas

variable {codec : Codec} {options : Options}

def Reply.Untouched (reply : Reply) : Prop :=
  reply.status = none ∧ reply.body = [] ∧ reply.ended = false

-- The frames of a stream, with its errors as the server writes them.
def framesOf (codec : Codec) (stream : ProviderStream) : List String :=
  (streamCompletion codec.render stream).frames

def Reply.Answered (codec : Codec) (reply : Reply) : Prop :=
  reply.ended = true ∧
    ((∃ status payload, reply.status = some status ∧ reply.body = [payload]) ∨
      ∃ stream, reply.status = some 200 ∧ reply.body = framesOf codec stream)

def Exchange.Proper (codec : Codec) (e : Exchange) : Prop :=
  match e.phase with
  | .probing _ | .inferring _ _ => e.reply.Untouched
  | .reading _ reader => e.reply.Untouched ∧ reader.Within ∧ reader.settled = none
  | .streaming _ _ =>
    e.reply.status = some 200 ∧ (∃ chunks : List String, e.reply.body = chunks.map sseData) ∧
      e.reply.ended = false
  | .finished => e.reply.Answered codec

theorem Reply.Untouched.sendPayload {reply : Reply} (untouched : reply.Untouched) (status : Nat)
    (payload : String) : (reply.sendPayload status payload).Answered codec := by
  obtain ⟨none, empty, going⟩ := untouched
  have sends : (reply.headersSent || reply.ended) = false := by
    simp [Reply.headersSent, none, going]
  rw [Reply.sendPayload, if_neg (by simp [sends])]
  exact ⟨rfl, .inl ⟨status, payload, rfl, by
    simp [Reply.finish, Reply.write, Reply.writeHead, empty]⟩⟩

theorem Reply.Untouched.sendJson {reply : Reply} (untouched : reply.Untouched) (status : Nat)
    (body : Value) : (reply.sendJson codec status body).Answered codec :=
  untouched.sendPayload _ _

theorem Reply.Untouched.sendError {reply : Reply} (untouched : reply.Untouched) (cause : Thrown) :
    (reply.sendError codec cause).Answered codec :=
  untouched.sendPayload _ _

theorem Reply.Untouched.failInfer {reply : Reply} (untouched : reply.Untouched) (cause : Thrown) :
    (reply.failInfer codec cause).Answered codec := by
  have sends : (reply.headersSent || reply.ended) = false := by
    simp [Reply.headersSent, untouched.1, untouched.2.2]
  rw [Reply.failInfer, if_neg (by simp [sends])]
  exact untouched.sendError cause

theorem Reply.Untouched.setHeader {reply : Reply} (untouched : reply.Untouched)
    (name value : String) : (reply.setHeader name value).Untouched := untouched

theorem Reply.fresh_untouched : Reply.fresh.Untouched := ⟨rfl, rfl, rfl⟩

-- A stream that has written its chunks ends as `streamCompletion` has it.
theorem endStream_frames {reply : Reply} {chunks : List String} (going : reply.ended = false)
    (written : reply.body = chunks.map sseData) (failure : Option Thrown) :
    (reply.endStream codec failure).ended = true ∧
      (reply.endStream codec failure).status = reply.status ∧
      (reply.endStream codec failure).body = framesOf codec ⟨chunks, failure⟩ := by
  cases failure with
  | none =>
    simp [Reply.endStream, going, Reply.finish, Reply.writeSseData, Reply.write, written, framesOf,
      streamCompletion]
  | some cause =>
    simp [Reply.endStream, going, Reply.finish, Reply.writeSseData, Reply.write, written, framesOf,
      streamCompletion]

variable {e : Exchange}

theorem begin_proper (untouched : e.reply.Untouched) (permit : Nat)
    (raw : Except MeshError Value) : (e.begin codec permit raw).Proper codec := by
  unfold Exchange.begin
  cases raw.bind (Exchange.parseRequest codec) with
  | error error => exact untouched.failInfer (.mesh error)
  | ok request =>
    simp only
    split
    · exact ⟨rfl, ⟨[], untouched.2.1⟩, untouched.2.2⟩
    · exact untouched

theorem on_proper (proper : e.Proper codec) (event : Event) :
    (e.on codec event).Proper codec := by
  obtain ⟨phase, reply, aborted⟩ := e
  cases phase with
  | probing since => cases event <;> exact proper
  | reading permit reader =>
    cases event with
    | body event =>
      obtain ⟨untouched, within, -⟩ := proper
      simp only [Exchange.on, Exchange.onBody]
      cases settled : (reader.on codec.parse event).settled with
      | none => exact ⟨untouched, within.on event, settled⟩
      | some raw => exact begin_proper untouched permit raw
    | _ => exact proper
  | inferring permit request =>
    cases event with
    | completed result =>
      have untouched : reply.Untouched := proper
      cases result with
      | ok completion => exact untouched.sendJson 200 completion
      | error cause => exact untouched.failInfer cause
    | _ => exact proper
  | streaming permit request =>
    obtain ⟨sent, ⟨chunks, written⟩, going⟩ := proper
    cases event with
    | chunk chunk =>
      have more : (Reply.writeSseData reply (codec.stringify chunk)).body =
          (chunks ++ [codec.stringify chunk]).map sseData := by
        simp only [Reply.writeSseData, Reply.write]
        rw [show reply.body = chunks.map sseData from written, List.map_append]
        rfl
      have going : reply.ended = false := going
      simp only [Exchange.on, going, Bool.false_eq_true, if_false]
      exact ⟨sent, ⟨_, more⟩, going⟩
    | streamEnded failure =>
      obtain ⟨ended, status, frames⟩ :=
        @endStream_frames codec _ _ going written failure
      exact ⟨ended, .inr ⟨_, status.trans sent, frames⟩⟩
    | _ => exact ⟨sent, ⟨chunks, written⟩, going⟩
  | finished => cases event <;> exact proper

-- It keeps its permit until it is finished.
theorem on_permit (e : Exchange) (event : Event) :
    (e.on codec event).permit = e.permit ∨
      (e.on codec event).permit = none := by
  obtain ⟨phase, reply, aborted⟩ := e
  cases phase with
  | reading permit reader =>
    cases event with
    | body event =>
      simp only [Exchange.on, Exchange.onBody]
      cases (reader.on codec.parse event).settled with
      | none => exact .inl rfl
      | some raw =>
        simp only [Exchange.begin]
        cases raw.bind (Exchange.parseRequest codec) with
        | error error => exact .inr rfl
        | ok request =>
          simp only
          split <;> exact .inl rfl
    | _ => exact .inl rfl
  | inferring permit request =>
    cases event with
    | completed result => cases result <;> exact .inr rfl
    | _ => exact .inl rfl
  | streaming permit request =>
    cases event with
    | chunk chunk =>
      simp only [Exchange.on]
      split
      · exact .inr rfl
      · exact .inl rfl
    | streamEnded failure => exact .inr rfl
    | _ => exact .inl rfl
  | _ => cases event <;> exact .inl rfl

def AllProper (codec : Codec) (s : State) : Prop :=
  ∀ e ∈ s.exchanges, e.Proper codec

variable {s : State}

inductive Effect (codec : Codec) (s : State) :
    State → Prop
  | clock (now : Int) : Effect codec s { s with now := now }
  | answered (reply : Reply) : reply.Answered codec →
      Effect codec s (s.opened .finished reply)
  | probing (reply : Reply) : reply.Untouched →
      Effect codec s (s.opened (.probing s.now) reply)
  | admitted (permits : Permits.State) (reply : Reply) : reply.Untouched →
      Permits.tryAcquire? s.permits = some permits →
      Effect codec s
        (State.opened { s with permits := permits } (.reading s.permits.released.length .fresh)
          reply)
  | probed {i : Nat} {e : Exchange} {since : Int} (cached : Option (Bool × Int)) (reply : Reply) :
      s.exchanges[i]? = some e → e.phase = .probing since → reply.Answered codec →
      Effect codec s
        { s with cachedHealth := cached, exchanges := s.exchanges.set i (e.finish reply) }
  | served {i : Nat} {e : Exchange} (event : Event) : s.exchanges[i]? = some e →
      Effect codec s (s.serve i e (e.on codec event))

theorem handleHealth_effect {reply : Reply} (untouched : reply.Untouched) :
    Effect codec s (s.handleHealth codec options reply) := by
  unfold State.handleHealth
  split
  · split
    · exact .answered _ (untouched.sendJson _ _)
    · exact .probing _ untouched
  · exact .probing _ untouched

theorem handleInfer_effect {reply : Reply} (untouched : reply.Untouched) (request : Request) :
    Effect codec s (s.handleInfer codec options reply request) := by
  unfold State.handleInfer
  split
  · split
    next => exact .answered _ ((untouched.setHeader "retry-after" "1").sendJson _ _)
    next permits taken => exact .admitted permits _ untouched taken
  · exact .answered _ (untouched.sendJson _ _)

theorem handle_effect (request : Request) :
    Effect codec s (s.handle codec options request) := by
  have untouched : (Reply.fresh.setHeader "x-request-id"
      (request.xRequestId.getD request.randomUUID)).Untouched := Reply.fresh_untouched
  unfold State.handle
  simp only
  split
  · split
    · exact .answered _ (untouched.sendJson _ _)
    · exact handleHealth_effect untouched
  · split
    · split
      · exact .answered _ (untouched.sendJson _ _)
      · exact handleInfer_effect untouched request
    · exact .answered _ (untouched.sendJson _ _)

theorem step_effect (proper : AllProper codec s) {a : Action} {s' : State}
    (taken : step codec options s a = some s') : Effect codec s s' := by
  cases a with
  | clock now =>
    obtain rfl := Option.some.inj taken
    exact .clock now
  | request request =>
    obtain rfl := Option.some.inj taken
    exact handle_effect request
  | probed i result =>
    simp only [step] at taken
    split at taken
    next e found =>
      split at taken
      next since probing =>
        obtain rfl := Option.some.inj taken
        have untouched : e.reply.Untouched := by
          have own := proper e (List.mem_of_getElem? found)
          rwa [Exchange.Proper, probing] at own
        cases result with
        | ok healthy => exact .probed _ _ found probing (untouched.sendJson _ _)
        | error cause => exact .probed _ _ found probing (untouched.sendError cause)
      next => cases taken
    next => cases taken
  | event i event =>
    simp only [step] at taken
    split at taken
    next e found =>
      obtain rfl := Option.some.inj taken
      exact .served event found
    next => cases taken

def holders (s : State) : List Nat := s.exchanges.filterMap Exchange.permit

structure Kept (codec : Codec) (s : State) : Prop where
  fair : Permits.Fair s.permits
  nobody : s.permits.sem.waiters = []
  distinct : (holders s).Nodup
  held : ∀ permit ∈ holders s, s.permits.released[permit]? = some false
  counted : s.permits.released.count false = (holders s).length
  proper : AllProper codec s

theorem init_kept {sem : Permits.Semaphore} (idle : sem.active = 0 ∧ sem.waiters = [])
    (now : Int) : Kept codec (init sem now) where
  fair := Permits.init_fair idle
  nobody := idle.2
  distinct := .nil
  held := fun _ member => nomatch member
  counted := rfl
  proper := fun _ member => nomatch member

theorem AllProper.opened (proper : AllProper codec s) {phase : Phase} {reply : Reply}
    (new : Exchange.Proper codec ⟨phase, reply, false⟩) :
    AllProper codec (s.opened phase reply) := by
  intro e member
  rcases List.mem_append.mp member with old | added
  · exact proper e old
  · obtain rfl := List.mem_singleton.mp added
    exact new

-- One that comes without a permit.
theorem Kept.opened (kept : Kept codec s) {phase : Phase} {reply : Reply}
    (new : Exchange.Proper codec ⟨phase, reply, false⟩)
    (none : Exchange.permit ⟨phase, reply, false⟩ = none) :
    Kept codec (s.opened phase reply) := by
  have same : holders (s.opened phase reply) = holders s := by
    simp [holders, State.opened, List.filterMap_append, none]
  exact ⟨kept.fair, kept.nobody, same ▸ kept.distinct, same ▸ kept.held, same ▸ kept.counted,
    kept.proper.opened new⟩

theorem Kept.admitted (kept : Kept codec s) {permits : Permits.State} {reply : Reply}
    (untouched : reply.Untouched) (taken : Permits.tryAcquire? s.permits = some permits) :
    Kept codec (State.opened { s with permits := permits }
      (.reading s.permits.released.length .fresh) reply) := by
  obtain ⟨room, same⟩ := Option.ite_none_left_eq_some.mp taken
  obtain rfl := Option.some.inj same
  have grown : holders (State.opened { s with permits := Permits.makeRelease { s.permits with
      sem := { s.permits.sem with active := s.permits.sem.active + 1 } } }
        (.reading s.permits.released.length .fresh) reply) =
      holders s ++ [s.permits.released.length] := by
    simp [holders, State.opened, List.filterMap_append, Exchange.permit]
  have earlier : ∀ permit ∈ holders s, permit < s.permits.released.length := fun permit member =>
    (List.getElem?_eq_some_iff.mp (kept.held permit member)).1
  constructor
  case fair => exact kept.fair.taken (by omega)
  case nobody => exact kept.nobody
  case distinct =>
    rw [grown, List.nodup_append]
    refine ⟨kept.distinct, List.nodup_singleton _, fun permit member other last => ?_⟩
    obtain rfl := List.mem_singleton.mp last
    exact Nat.ne_of_lt (earlier permit member)
  case held =>
    rw [grown]
    intro permit member
    rcases List.mem_append.mp member with old | new
    · have below := earlier permit old
      simpa [State.opened, Permits.makeRelease, List.getElem?_append_left below] using
        kept.held permit old
    · obtain rfl := List.mem_singleton.mp new
      simp [State.opened, Permits.makeRelease]
  case counted =>
    rw [grown, List.length_append, ← kept.counted]
    simp [State.opened, Permits.makeRelease]
  case proper =>
    have new : Exchange.Proper codec
        ⟨.reading s.permits.released.length .fresh, reply, false⟩ :=
      ⟨untouched, BodyReader.fresh_within, rfl⟩
    exact fun e member => kept.proper.opened new e member

-- A permit that is given back is counted no more; nobody waits for it.
theorem release_held {permits : Permits.State} (nobody : permits.sem.waiters = []) {permit : Nat}
    (held : permits.released[permit]? = some false) :
    (Permits.release permits permit).released = permits.released.set permit true ∧
      (Permits.release permits permit).sem.waiters = [] := by
  have released : Permits.release permits permit =
      Permits.handOver { permits with released := permits.released.set permit true } := by
    rw [Permits.release, held]
  rw [released]
  simp [Permits.handOver, nobody]

theorem Kept.kept_on (kept : Kept codec s) {i : Nat} {e e' : Exchange}
    (found : s.exchanges[i]? = some e) (proper : e'.Proper codec)
    (same : e'.permit = e.permit) : Kept codec (s.serve i e e') := by
  have permits : (s.serve i e e').permits = s.permits := by
    simp only [State.serve, same]
    cases e.permit <;> rfl
  have unmoved : holders (s.serve i e e') = holders s := Sessions.held_set_same _ found same
  exact ⟨permits ▸ kept.fair, permits ▸ kept.nobody, unmoved ▸ kept.distinct,
    unmoved ▸ permits ▸ kept.held, unmoved ▸ permits ▸ kept.counted,
    Sessions.forall_set kept.proper proper⟩

theorem Kept.given_back (kept : Kept codec s) {i : Nat} {e e' : Exchange}
    (found : s.exchanges[i]? = some e) (proper : e'.Proper codec) {permit : Nat}
    (before : e.permit = some permit) (after : e'.permit = none) :
    Kept codec (s.serve i e e') := by
  have permits : (s.serve i e e').permits = Permits.release s.permits permit := by
    simp [State.serve, before, after]
  have order : (holders s).Perm (permit :: holders (s.serve i e e')) :=
    Sessions.held_set_none _ found before after
  have distinct := order.nodup_iff.mp kept.distinct
  have held := kept.held permit (order.mem_iff.mpr List.mem_cons_self)
  obtain ⟨released, nobody⟩ := release_held kept.nobody held
  constructor
  case fair =>
    rw [permits, Permits.release, held]
    exact kept.fair.released held
  case nobody => rw [permits, nobody]
  case distinct => exact distinct.of_cons
  case held =>
    intro other member
    have own := kept.held other (order.mem_iff.mpr (List.mem_cons_of_mem _ member))
    have apart : permit ≠ other := fun same => (List.nodup_cons.mp distinct).1 (same ▸ member)
    rw [permits, released, List.getElem?_set_ne apart]
    exact own
  case counted =>
    have less := Permits.count_set held
    have length := order.length_eq
    have counted := kept.counted
    rw [permits, released]
    rw [List.length_cons] at length
    omega
  case proper => exact Sessions.forall_set kept.proper proper

theorem Kept.probed (kept : Kept codec s) {i : Nat} {e : Exchange} {since : Int}
    (cached : Option (Bool × Int)) {reply : Reply} (found : s.exchanges[i]? = some e)
    (probing : e.phase = .probing since) (answered : reply.Answered codec) :
    Kept codec
      { s with cachedHealth := cached, exchanges := s.exchanges.set i (e.finish reply) } := by
  have same : (e.finish reply).permit = e.permit := by
    simp [Exchange.permit, Exchange.finish, probing]
  have unmoved : holders
      { s with cachedHealth := cached, exchanges := s.exchanges.set i (e.finish reply) } =
        holders s := Sessions.held_set_same _ found same
  have proper : (e.finish reply).Proper codec := answered
  exact ⟨kept.fair, kept.nobody, unmoved ▸ kept.distinct, unmoved ▸ kept.held,
    unmoved ▸ kept.counted, Sessions.forall_set kept.proper proper⟩

theorem Effect.kept {s' : State} (effect : Effect codec s s')
    (kept : Kept codec s) : Kept codec s' := by
  cases effect with
  | clock now => exact ⟨kept.fair, kept.nobody, kept.distinct, kept.held, kept.counted, kept.proper⟩
  | answered reply answered => exact kept.opened answered rfl
  | probing reply untouched => exact kept.opened untouched rfl
  | admitted permits reply untouched taken => exact kept.admitted untouched taken
  | probed cached reply found probing answered => exact kept.probed cached found probing answered
  | @served i e event found =>
    have own := kept.proper e (List.mem_of_getElem? found)
    have proper := @on_proper codec e own event
    rcases @on_permit codec e event with same | none
    · exact kept.kept_on found proper same
    · cases before : e.permit with
      | none => exact kept.kept_on found proper (none.trans before.symm)
      | some permit => exact kept.given_back found proper before none

theorem Effect.ceiling {s' : State} (effect : Effect codec s s') :
    s'.permits.sem.permits = s.permits.sem.permits := by
  cases effect with
  | admitted permits reply untouched taken =>
    obtain ⟨-, same⟩ := Option.ite_none_left_eq_some.mp taken
    obtain rfl := Option.some.inj same
    rfl
  | served event found =>
    simp only [State.serve]
    split
    · exact (Permits.release_effect _).permits
    · rfl
  | _ => rfl

theorem runs_kept {s' : State} (kept : Kept codec s) (run : Runs codec options s s') :
    Kept codec s' :=
  run.invariant kept fun _ _ _ kept _ taken => (step_effect kept.proper taken).kept kept

theorem runs_ceiling {s' : State} (kept : Kept codec s)
    (run : Runs codec options s s') :
    s'.permits.sem.permits = s.permits.sem.permits := by
  have both : Kept codec s' ∧ s'.permits.sem.permits = s.permits.sem.permits := by
    refine run.invariant (P := fun s' =>
      Kept codec s' ∧ s'.permits.sem.permits = s.permits.sem.permits) ⟨kept, rfl⟩ ?_
    rintro _ _ _ ⟨kept, same⟩ _ taken
    have effect := step_effect kept.proper taken
    exact ⟨effect.kept kept, effect.ceiling.trans same⟩
  exact both.2

-- What is kept of the body while it is read.
def Exchange.bodyBytes (e : Exchange) : Nat :=
  match e.phase with
  | .reading _ reader => reader.chunks.flatten.length
  | _ => 0

theorem bodyBytes_le {e : Exchange} (proper : e.Proper codec) :
    e.bodyBytes ≤ maxBodyBytes := by
  unfold Exchange.bodyBytes
  split
  next permit reader reading =>
    rw [Exchange.Proper, reading] at proper
    exact proper.2.1.kept
  next => exact Nat.zero_le _

theorem bodyBytes_free {e : Exchange} (free : e.permit = none) : e.bodyBytes = 0 := by
  unfold Exchange.bodyBytes
  split
  next reading => simp [Exchange.permit, reading] at free
  next => rfl

def Asks (options : Options) (request : Request) : Prop :=
  (pathOf request = "/v1/chat/completions" ∨ pathOf request = "/infer") ∧
    request.method = "POST" ∧ authorized options request = true

theorem handle_asked {request : Request} (asks : Asks options request) :
    s.handle codec options request =
      s.handleInfer codec options
        (Reply.fresh.setHeader "x-request-id" (request.xRequestId.getD request.randomUUID))
          request := by
  obtain ⟨path, post, -⟩ := asks
  have other : pathOf request ≠ "/health" := by
    rcases path with same | same <;> rw [same] <;> decide
  simp only [State.handle, if_neg other, if_pos path, post, ne_eq, not_true_eq_false, if_false]

theorem handleInfer_room {request : Request} (asks : Asks options request) (reply : Reply)
    (room : s.permits.sem.active < s.permits.sem.permits) :
    (s.handleInfer codec options reply request).exchanges =
      s.exchanges ++ [⟨.reading s.permits.released.length .fresh, reply, false⟩] := by
  have free : ¬ s.permits.sem.active ≥ s.permits.sem.permits := by omega
  rw [State.handleInfer, if_pos asks.2.2, Permits.tryAcquire?, if_neg free]
  rfl

theorem handleInfer_full {request : Request} (asks : Asks options request) {reply : Reply}
    (untouched : reply.Untouched) (full : s.permits.sem.permits ≤ s.permits.sem.active) :
    ∃ refusal, (s.handleInfer codec options reply request).exchanges =
        s.exchanges ++ [⟨.finished, refusal, false⟩] ∧ refusal.status = some 503 := by
  have sends : ((reply.setHeader "retry-after" "1").headersSent ||
      (reply.setHeader "retry-after" "1").ended) = false := by
    simp [Reply.headersSent, Reply.setHeader, untouched.1, untouched.2.2]
  rw [State.handleInfer, if_pos asks.2.2, Permits.tryAcquire?, if_pos full]
  refine ⟨_, rfl, ?_⟩
  rw [Reply.sendJson, Reply.sendPayload, if_neg (by simp [sends])]
  rfl

/-- Over every run: the permits in flight are those of the exchanges that hold one, each its own,
and no more than there are; the bodies that are kept stay within a limit; no response is answered
twice or left half answered; and a completion is refused for want of capacity exactly when every
permit is held. -/
theorem serving_safe (permits : Number) (sem : Permits.Semaphore)
    (created : Permits.create permits = .ok sem) (now : Int) (s : State)
    (reached : Runs codec options (init sem now) s) :
    (s.permits.sem.inFlight = (holders s).length ∧ (holders s).Nodup ∧
      (holders s).length ≤ sem.permits) ∧
    (s.exchanges.map Exchange.bodyBytes).sum ≤ sem.permits * maxBodyBytes ∧
    (∀ e ∈ s.exchanges, e.Proper codec) ∧
    ∀ request, Asks options request →
      ((holders s).length < sem.permits →
        ∃ reply, (s.handle codec options request).exchanges =
          s.exchanges ++ [⟨.reading s.permits.released.length .fresh, reply, false⟩]) ∧
      ((holders s).length = sem.permits →
        ∃ reply, (s.handle codec options request).exchanges =
          s.exchanges ++ [⟨.finished, reply, false⟩] ∧ reply.status = some 503) := by
  have start : Kept codec (init sem now) := init_kept (Permits.create_idle created) now
  have kept := runs_kept start reached
  have ceiling : s.permits.sem.permits = sem.permits := runs_ceiling start reached
  have active : s.permits.sem.active = (holders s).length := by
    rw [← kept.fair.counted, kept.counted]
  have within : (holders s).length ≤ sem.permits := by
    have within := kept.fair.within
    omega
  refine ⟨⟨active, kept.distinct, within⟩, ?_, kept.proper, fun request asks => ⟨?_, ?_⟩⟩
  next =>
    refine Nat.le_trans (Sessions.sum_le_held Exchange.permit
      (fun e member => bodyBytes_le (kept.proper e member)) fun e _ free => bodyBytes_free free) ?_
    exact Nat.mul_le_mul_right _ within
  next =>
    intro room
    exact ⟨_, (congrArg State.exchanges (handle_asked asks)).trans
      (handleInfer_room asks _ (by omega))⟩
  next =>
    intro full
    rw [handle_asked asks]
    exact handleInfer_full asks Reply.fresh_untouched (by omega)

def demoOptions : Options :=
  ⟨units "node-a", units "0.1.0", units "ollama", [units "llama3.1:8b"], some "secret".toList⟩

def demoAsk : Request :=
  ⟨"POST", "/v1/chat/completions?x=1", some "Bearer secret".toList, none, "3b1f"⟩

def single : Permits.Semaphore := ⟨1, Nat.le_refl 1, 0, []⟩

def emptyText : Value → String := fun _ => "\x7b\x7d"

def noParse : Codec := ⟨fun _ => none, emptyText, MeshErrorBody.message, fun _ => []⟩

-- One request whose body is on its way.
def crowding : List Action := [.request demoAsk, .event 0 (.body (.data [123]))]

def crowded : State :=
  (Transition.replay (step noParse demoOptions) (init single 0) crowding).getD
    (init single 0)

theorem crowded_reached : Runs noParse demoOptions (init single 0) crowded :=
  Transition.run_of_replay crowding (Transition.allows_of_forall _ fun _ _ _ => trivial) rfl

theorem serving_safe_crowded :
    crowded.permits.sem.inFlight = 1 ∧
      ∃ reply, (crowded.handle noParse demoOptions demoAsk).exchanges =
        crowded.exchanges ++ [⟨.finished, reply, false⟩] ∧ reply.status = some 503 := by
  have safe := serving_safe (.finite 1) single rfl 0 crowded crowded_reached
  have asks : Asks demoOptions demoAsk := ⟨.inl (by decide), rfl, by decide⟩
  have one : (holders crowded).length = 1 := by rfl
  exact ⟨safe.1.1.trans (congrArg _ one), (safe.2.2.2 demoAsk asks).2 one⟩

end X402Mesh.NodeDaemon.Server
