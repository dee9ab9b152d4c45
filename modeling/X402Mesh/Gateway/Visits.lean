import X402Mesh.Gateway.Delivery
import X402Mesh.Gateway.NoteAges
import X402Mesh.Lib.Sessions
import X402Mesh.Lib.Simulation
import X402Mesh.Settlement.Provenance

set_option autoImplicit false

-- Requests of all gateways are served at once, between the turns of the settlement services. What
-- the nodes answer to a request, and when its client leaves, is drawn as it arrives, and is played
-- event by event.

namespace X402Mesh.Settlement

variable {ι : Type}

-- What a service does that is not for one request.
def Action.upkeep : Action ι → Bool
  | .recordRouting .. | .settleInbound .. => false
  | _ => true

def Action.kills [DecidableEq ι] (i : ι) : Action ι → Bool
  | .restart j | .boot j .. => j = i
  | _ => false

theorem Service.recordRouting_found {svc : Service} {requestId nodeId operatorAddress : String}
    {now : Nat} {id : String} {note : RoutingNote}
    (found : (svc.recordRouting requestId nodeId operatorAddress now).routing.get? id = some note) :
    id = requestId ∧ note = ⟨nodeId, operatorAddress, now⟩ ∨
      id ≠ requestId ∧ svc.routing.get? id = some note := by
  simp only [Service.recordRouting, OrderedMap.get?_set] at found
  split at found
  next same =>
    cases found
    exact .inl ⟨same, rfl⟩
  next other => exact .inr ⟨other, svc.routing.get?_dropWhile_some _ id note found⟩

theorem Service.settleInbound_found {cfg : Deps} {svc : Service} {inbound : InboundSettlement}
    {now : Service.Readings} {id : String} {note : RoutingNote}
    (found : (Service.settleInbound cfg svc inbound now).routing.get? id = some note) :
    svc.routing.get? id = some note := by
  have same : (Service.settleInbound cfg svc inbound now).routing.get? id =
      (svc.routing.erase inbound.requestId).get? id :=
    congrArg (OrderedMap.lookup id) (Service.settleInbound_routing cfg svc inbound now)
  rw [same, OrderedMap.get?_erase] at found
  split at found
  next => cases found
  next => exact found

namespace World

variable [DecidableEq ι] {cfg : Deps} {w w' : World ι}

theorem turn_routing (w : World ι) (i j : ι) (svc : Service)
    (same : svc.routing = (w.service j).routing) :
    ((w.turn j svc).service i).routing = (w.service i).routing := by
  rw [turn_service]
  split
  next own =>
    subst own
    exact same
  next => rfl

theorem setWrites_routing (w : World ι) (i j : ι) (key : String) (works : List (Work StoreOp)) :
    ((w.setWrites j key works).service i).routing = (w.service i).routing := by
  rw [setWrites_service]
  split
  next own =>
    subst own
    rfl
  next => rfl

theorem restart_routing (w : World ι) (i j : ι) :
    ((w.restart j).service i).routing = (w.service i).routing ∨
      ((w.restart j).service i).routing = .empty := by
  rw [restart_service]
  split
  next => exact .inr rfl
  next => exact .inl rfl

-- No note is written in between, and a restart forgets them all.
theorem upkeep_routing {a : Action ι} (other : a.upkeep = true)
    (taken : World.step cfg w a = some w') (i : ι) :
    (w'.service i).routing = (w.service i).routing ∨ (w'.service i).routing = .empty := by
  cases a with
  | recordRouting | settleInbound => cases other
  | deadline j operatorAddress now =>
    rw [deadline_inv taken]
    exact .inl (turn_routing w i j _ (Service.flushAccrual_notes cfg _ _ _).routing)
  | flushPayouts j now =>
    cases taken
    exact .inl (turn_routing w i j _ (Service.flushPayouts_notes cfg _ _).routing)
  | payout j index event attemptAt settledAt =>
    obtain ⟨svc, run, progress, resumed, -, -, rfl⟩ := payout_inv taken
    exact .inl (turn_routing (w.recordOutcome run.job event progress) i j svc
      (Service.resumePayout_notes cfg _ _ index event attemptAt settledAt resumed).routing)
  | callWrite j key =>
    obtain ⟨works, -, rfl⟩ := callWrite_inv taken
    exact .inl (setWrites_routing w i j key works)
  | applyWrite j key =>
    obtain ⟨op, works, rows, -, -, rfl⟩ := applyWrite_inv taken
    exact .inl (setWrites_routing (w.withRows rows) i j key works)
  | resolveWrite j key =>
    obtain ⟨op, works, -, rfl⟩ := resolveWrite_inv taken
    exact .inl (setWrites_routing { w with trace := w.trace ++ completed op } i j key works)
  | rejectWrite j key =>
    obtain ⟨works, -, rfl⟩ := rejectWrite_inv taken
    exact .inl (setWrites_routing w i j key works)
  | readOpen j addresses =>
    rw [readOpen_inv taken]
    exact .inl rfl
  | readBatches j batchIds =>
    rw [readBatches_inv taken]
    exact .inl rfl
  | hydrateLedger j history =>
    cases taken
    exact .inl (turn_routing w i j _ (Service.hydrateLedger_routing cfg _ history))
  | recoverAccruals j ok now =>
    cases taken
    exact .inl (turn_routing w i j _ (Service.recoverAccruals_routing cfg _ _ now))
  | restart j =>
    cases taken
    exact restart_routing w i j
  | boot j addresses batchIds history ok now =>
    obtain ⟨-, -, rfl⟩ := boot_inv taken
    rw [turn_routing (w.restart j) i j]
    · exact restart_routing w i j
    · rw [Service.recoverAccruals_routing, Service.hydrateLedger_routing, restart_service,
        if_pos rfl]

end World

end X402Mesh.Settlement

namespace X402Mesh.Gateway

open Registry Settlement Relay

-- `settled` keeps what the settlement service was told, if anything.
inductive Stage
  | handling
  | answered
  | settled (inbound : Option InboundSettlement)
  deriving DecidableEq

/-- One paid request: the first `turn` events of its `trace` have happened. -/
structure Visit (ι Json : Type) where
  requestId : String
  gateway : ι
  streaming : Bool
  outcome : Except Thrown (Router.RouteResult Json)
  trace : Trace
  turn : Nat
  res : Response
  stage : Stage
  alive : Bool

-- One more event happens.
def Visit.next {ι Json : Type} (v : Visit ι Json) (e : RelayEvent) : Visit ι Json :=
  { v with turn := v.turn + 1, res := respond v.res e }

-- The payment is settled, and the settlement service may have been told.
def Visit.paid {ι Json : Type} (v : Visit ι Json) (inbound : Option InboundSettlement) :
    Visit ι Json :=
  { v with stage := .settled inbound }

structure Floor (ι Json : Type) where
  visits : List (Visit ι Json)
  world : World ι

inductive Move (ι : Type)
  | arrive (i : ι) (requestId : String) (buffered : Bool)
      (request : Except Thrown ChatCompletionRequest) (gone : Nat → Bool)
      (select : String → List String → Except Thrown NodeCall)
  | play (n now : Nat)
  | conclude (n : Nat)
  | settle (n : Nat) (result : SettleResult) (readings : Service.Readings)
  | upkeep (a : Action ι)

namespace Floor

variable {ι Json : Type}

def start : Floor ι Json := ⟨[], .start .empty⟩

def move (s : Floor ι Json) (n : Nat) (v : Visit ι Json) : Floor ι Json :=
  { s with visits := s.visits.set n v }

def withWorld (s : Floor ι Json) (world : World ι) : Floor ι Json := { s with world := world }

variable (text : JsonText Json) (config : ChatConfig) (render : MeshErrorBody → String)
variable (cfg : Settlement.Deps)

-- Every request has an id that no other has had.
def arrive (s : Floor ι Json) (i : ι) (requestId : String) (buffered : Bool)
    (request : Except Thrown ChatCompletionRequest) (gone : Nat → Bool)
    (select : String → List String → Except Thrown NodeCall) : Option (Floor ι Json) :=
  if requestId ∈ s.visits.map (·.requestId) then none
  else
    let (outcome, trace) := script text config requestId request gone select
    let res := (accept requestId buffered .init).res
    let v : Visit ι Json :=
      ⟨requestId, i, streams request, outcome, trace, 0, res, .handling, true⟩
    some { s with visits := s.visits ++ [v] }

section step

variable [DecidableEq ι]

def play (s : Floor ι Json) (n now : Nat) (v : Visit ι Json) : Option (Floor ι Json) :=
  match v.trace[v.turn]? with
  | none => none
  | some e =>
    let s := s.move n (v.next e)
    match e with
    | .selected call =>
      (World.step cfg s.world
        (.recordRouting v.gateway v.requestId call.nodeId call.operatorAddress now)).map s.withWorld
    | _ => some s

def conclude (s : Floor ι Json) (n : Nat) (v : Visit ι Json) : Option (Floor ι Json) :=
  if v.turn = v.trace.length then
    let res := Gateway.conclude text render v.streaming v.outcome v.res
    some (s.move n { v with res := res, stage := .answered })
  else none

-- The facilitator is asked to settle a response that has ended below 400.
def settle (s : Floor ι Json) (n : Nat) (result : SettleResult) (readings : Service.Readings)
    (v : Visit ι Json) : Option (Floor ι Json) :=
  match v.res.finished with
  | none => none
  | some status =>
    if status < 400 then
      let inbound := onAfterSettle v.res.headers result
      let s := s.move n (v.paid inbound)
      match inbound with
      | none => some s
      | some inbound =>
        (World.step cfg s.world (.settleInbound v.gateway inbound readings)).map s.withWorld
    else none

-- A gateway that goes down takes its requests with it.
def upkeep (s : Floor ι Json) (a : Action ι) : Option (Floor ι Json) :=
  if a.upkeep then
    (World.step cfg s.world a).map fun world =>
      ⟨s.visits.map fun v => { v with alive := v.alive && !a.kills v.gateway }, world⟩
  else none

def at? (s : Floor ι Json) (n : Nat) (stage : Stage) : Option (Visit ι Json) :=
  s.visits[n]?.filter fun v => v.alive && v.stage = stage

def step (s : Floor ι Json) : Move ι → Option (Floor ι Json)
  | .arrive i requestId buffered request gone select =>
    s.arrive text config i requestId buffered request gone select
  | .play n now => (s.at? n .handling).bind (s.play cfg n now)
  | .conclude n => (s.at? n .handling).bind (s.conclude text render n)
  | .settle n result readings => (s.at? n .answered).bind (s.settle cfg n result readings)
  | .upkeep a => s.upkeep cfg a

end step

variable {text config render cfg}

theorem at_some {s : Floor ι Json} {n : Nat} {stage : Stage} {v : Visit ι Json}
    (found : s.at? n stage = some v) : s.visits[n]? = some v ∧ v.stage = stage := by
  obtain ⟨present, passes⟩ := Option.filter_eq_some_iff.mp found
  simp only [Bool.and_eq_true, decide_eq_true_eq] at passes
  exact ⟨present, passes.2⟩

variable (text config render cfg)

-- The response is what the events so far, or the whole script and its end, have made of it.
def Standing (v : Visit ι Json) : Prop :=
  ∃ (request : Except Thrown ChatCompletionRequest) (buffered : Bool) (gone : Nat → Bool)
    (select : String → List String → Except Thrown NodeCall),
    (v.outcome, v.trace) = script text config v.requestId request gone select ∧
      v.streaming = streams request ∧
      if v.stage = .handling then
        v.res = (v.trace.take v.turn).foldl respond (accept v.requestId buffered .init).res
      else
        v.turn = v.trace.length ∧
          v.res = ended text config render v.requestId request gone select buffered

/-- The visit ended below 400 with what `call` answered, the facilitator confirmed its payment as
`inbound`, and the record is that payment split for the operator of `call`. -/
structure Earned (v : Visit ι Json) (call : NodeCall) (inbound : InboundSettlement)
    (r : SettlementRecord) : Prop where
  given : GivenBy text render v.streaming v.outcome v.trace call v.res
  served : ∃ status, v.res.finished = some status ∧ status < 400
  confirmed : v.stage = .settled (some inbound) ∧
    ∃ result, onAfterSettle v.res.headers result = some inbound
  own : inbound.requestId = v.requestId
  split : ∃ noted createdAt,
    Service.openRecord cfg inbound ⟨call.nodeId, call.operatorAddress, noted⟩ createdAt = .ok r

def EarnedIn (visits : List (Visit ι Json)) (r : SettlementRecord) : Prop :=
  ∃ v ∈ visits, ∃ call inbound, Earned text render cfg v call inbound r

-- Every routing note is of a request of that gateway, and names the node selected last.
def Noted (s : Floor ι Json) : Prop :=
  ∀ i id note, (s.world.service i).routing.get? id = some note →
    ∃ v ∈ s.visits, v.requestId = id ∧ v.gateway = i ∧
      ∃ call, (nodes (v.trace.take v.turn)).getLast? = some call ∧
        note.nodeId = call.nodeId ∧ note.operatorAddress = call.operatorAddress

structure Kept (s : Floor ι Json) : Prop where
  distinct : (s.visits.map (·.requestId)).Nodup
  standing : ∀ v ∈ s.visits, Standing text config render v
  noted : Noted s
  source : s.world.From (EarnedIn text render cfg s.visits)

theorem kept_start : Kept text config render cfg (start : Floor ι Json) where
  distinct := List.nodup_nil
  standing := by simp [start]
  noted i id note found := by cases found
  source := World.from_start

section move

variable {text config render cfg} {s : Floor ι Json} {n : Nat} {v v' : Visit ι Json}
variable (found : s.visits[n]? = some v)

include found

theorem requestIds_move (same : v'.requestId = v.requestId) :
    (s.move n v').visits.map (·.requestId) = s.visits.map (·.requestId) := by
  obtain ⟨front, back, split, replaced⟩ := Sessions.set_split found
  rw [move, replaced, split]
  simp [same]

-- Another visit stays where it is.
theorem mem_move {other : Visit ι Json} (member : other ∈ s.visits) (apart : other ≠ v) :
    other ∈ (s.move n v').visits := by
  obtain ⟨front, back, split, replaced⟩ := Sessions.set_split found
  rw [split] at member
  rw [move, replaced]
  simp only [List.mem_append, List.mem_cons] at member ⊢
  rcases member with before | same | behind
  · exact .inl before
  · exact absurd same apart
  · exact .inr (.inr behind)

theorem self_mem_move : v' ∈ (s.move n v').visits := by
  obtain ⟨front, back, -, replaced⟩ := Sessions.set_split found
  rw [move, replaced]
  simp

theorem earned_move (unsettled : ∀ inbound, v.stage ≠ .settled inbound) {r : SettlementRecord}
    (earned : EarnedIn text render cfg s.visits r) :
    EarnedIn text render cfg (s.move n v').visits r := by
  obtain ⟨other, member, call, inbound, own⟩ := earned
  refine ⟨other, mem_move found member ?_, call, inbound, own⟩
  rintro rfl
  exact unsettled _ own.confirmed.1

theorem noted_move (same : v'.requestId = v.requestId) (gateway : v'.gateway = v.gateway)
    (last : (nodes (v'.trace.take v'.turn)).getLast? = (nodes (v.trace.take v.turn)).getLast?)
    (noted : Noted s) : Noted (s.move n v') := by
  intro i id note held
  obtain ⟨other, member, own, there, call, selected, names⟩ := noted i id note held
  by_cases moved : other = v
  · subst moved
    exact ⟨v', self_mem_move found, same.trans own, gateway.trans there, call,
      last.trans selected, names⟩
  · exact ⟨other, mem_move found member moved, own, there, call, selected, names⟩

theorem Kept.move (kept : Kept text config render cfg s) (same : v'.requestId = v.requestId)
    (gateway : v'.gateway = v.gateway) (unsettled : ∀ inbound, v.stage ≠ .settled inbound)
    (last : (nodes (v'.trace.take v'.turn)).getLast? = (nodes (v.trace.take v.turn)).getLast?)
    (standing : Standing text config render v') :
    Kept text config render cfg (s.move n v') where
  distinct := by
    rw [requestIds_move found same]
    exact kept.distinct
  standing := Sessions.forall_set kept.standing standing
  noted := noted_move found same gateway last kept.noted
  source := kept.source.mono fun _ earned => earned_move found unsettled earned

end move

section kept

variable {text config render cfg} {s s' : Floor ι Json}

theorem Kept.arrive (kept : Kept text config render cfg s) {i : ι} {requestId : String}
    {buffered : Bool} {request : Except Thrown ChatCompletionRequest} {gone : Nat → Bool}
    {select : String → List String → Except Thrown NodeCall}
    (taken : s.arrive text config i requestId buffered request gone select = some s') :
    Kept text config render cfg s' := by
  simp only [Floor.arrive, Option.ite_none_left_eq_some, Option.some.injEq] at taken
  obtain ⟨fresh, rfl⟩ := taken
  constructor
  case distinct =>
    rw [List.map_append, List.nodup_append]
    refine ⟨kept.distinct, by simp, fun id member other single => ?_⟩
    obtain rfl := List.mem_singleton.mp single
    exact fun same => fresh (same ▸ member)
  case standing =>
    intro v member
    rcases List.mem_append.mp member with old | new
    · exact kept.standing v old
    · obtain rfl := List.mem_singleton.mp new
      exact ⟨request, buffered, gone, select, rfl, rfl, rfl⟩
  case noted =>
    intro i id note held
    obtain ⟨v, member, rest⟩ := kept.noted i id note held
    exact ⟨v, List.mem_append_left _ member, rest⟩
  case source =>
    refine kept.source.mono fun r earned => ?_
    obtain ⟨v, member, rest⟩ := earned
    exact ⟨v, List.mem_append_left _ member, rest⟩

-- The first `turn + 1` events.
theorem take_next {v : Visit ι Json} {e : RelayEvent} (next : v.trace[v.turn]? = some e) :
    v.trace.take (v.turn + 1) = v.trace.take v.turn ++ [e] := by
  rw [List.take_add_one, next]
  rfl

theorem Standing.played {v : Visit ι Json} {e : RelayEvent}
    (standing : Standing text config render v) (handling : v.stage = .handling)
    (next : v.trace[v.turn]? = some e) :
    Standing text config render (v.next e) := by
  obtain ⟨request, buffered, gone, select, scripted, streaming, res⟩ := standing
  refine ⟨request, buffered, gone, select, scripted, streaming, ?_⟩
  rw [if_pos handling] at res
  rw [if_pos (show (v.next e).stage = .handling from handling)]
  simp only [Visit.next]
  rw [take_next next, List.foldl_append, ← res]
  rfl

-- A note that is found after a selection is the one just written, or one of another request.
theorem noted_selected [DecidableEq ι] {n now : Nat} {v : Visit ι Json} {call : NodeCall}
    (present : s.visits[n]? = some v)
    (last : (nodes (v.trace.take (v.turn + 1))).getLast? = some call) (noted : Noted s) :
    Noted ((s.move n (v.next (.selected call))).withWorld
      (s.world.turn v.gateway ((s.world.service v.gateway).recordRouting v.requestId call.nodeId
        call.operatorAddress now))) := by
  intro j id note held
  have other (service : (s.world.service j).routing.get? id = some note)
      (apart : v.requestId = id → v.gateway ≠ j) :
      ∃ u ∈ (s.move n (v.next (.selected call))).visits, u.requestId = id ∧ u.gateway = j ∧
        ∃ call, (nodes (u.trace.take u.turn)).getLast? = some call ∧
          note.nodeId = call.nodeId ∧ note.operatorAddress = call.operatorAddress := by
    obtain ⟨u, member, own, there, rest⟩ := noted j id note service
    refine ⟨u, mem_move present member ?_, own, there, rest⟩
    rintro rfl
    exact apart own there
  simp only [withWorld] at held
  rw [World.turn_service] at held
  split at held
  next here =>
    rcases Service.recordRouting_found held with ⟨rfl, rfl⟩ | ⟨different, service⟩
    · exact ⟨_, self_mem_move present, rfl, here.symm, call, last, rfl, rfl⟩
    · exact other (here ▸ service) fun same => absurd same.symm different
  next elsewhere => exact other held fun _ same => elsewhere same.symm

theorem Kept.play [DecidableEq ι] (kept : Kept text config render cfg s) {n now : Nat}
    {v : Visit ι Json} (found : s.at? n .handling = some v)
    (taken : s.play cfg n now v = some s') : Kept text config render cfg s' := by
  obtain ⟨present, handling⟩ := at_some found
  have standing := kept.standing v (List.mem_of_getElem? present)
  have unsettled : ∀ inbound, v.stage ≠ .settled inbound := by
    intro inbound settled
    cases handling.symm.trans settled
  unfold Floor.play at taken
  cases next : v.trace[v.turn]? with
  | none => simp [next] at taken
  | some e =>
    have played := standing.played handling next
    have grown : nodes (v.trace.take (v.turn + 1)) = nodes (v.trace.take v.turn) ++ nodes [e] := by
      rw [take_next next]
      exact List.filterMap_append
    cases e with
    | selected call =>
      simp only [next] at taken
      obtain ⟨world, stepped, rfl⟩ := Option.map_eq_some_iff.mp taken
      constructor
      case distinct =>
        have ids : (s.move n (v.next (.selected call))).visits.map (·.requestId) =
            s.visits.map (·.requestId) := requestIds_move present rfl
        exact (congrArg List.Nodup ids).mpr kept.distinct
      case standing => exact Sessions.forall_set kept.standing played
      case source =>
        have moved : s.world.From
            (EarnedIn text render cfg (s.move n (v.next (.selected call))).visits) :=
          kept.source.mono fun _ earned => earned_move present unsettled earned
        exact moved.step cfg (by exact trivial) stepped
      case noted =>
        cases stepped
        apply noted_selected present _ kept.noted
        rw [grown]
        exact List.getLast?_concat
    | _ =>
      simp only [next, Option.some.injEq] at taken
      subst taken
      refine kept.move present rfl rfl unsettled ?_ played
      simp only [Visit.next]
      rw [grown]
      exact congrArg List.getLast? (List.append_nil _)

theorem Kept.conclude (kept : Kept text config render cfg s) {n : Nat} {v : Visit ι Json}
    (found : s.at? n .handling = some v) (taken : s.conclude text render n v = some s') :
    Kept text config render cfg s' := by
  obtain ⟨present, handling⟩ := at_some found
  simp only [Floor.conclude, Option.ite_none_right_eq_some, Option.some.injEq] at taken
  obtain ⟨whole, rfl⟩ := taken
  obtain ⟨request, buffered, gone, select, scripted, streaming, res⟩ :=
    kept.standing v (List.mem_of_getElem? present)
  refine kept.move present rfl rfl ?_ rfl ⟨request, buffered, gone, select, scripted, streaming, ?_⟩
  · intro inbound settled
    cases handling.symm.trans settled
  · rw [if_pos handling, whole, List.take_length] at res
    rw [if_neg (by simp)]
    refine ⟨whole, ?_⟩
    simp only [ended, ← scripted, ← streaming, res]

theorem onAfterSettle_requestId {headers : OrderedMap String String} {result : SettleResult}
    {inbound : InboundSettlement} (confirmed : onAfterSettle headers result = some inbound) :
    headers.get? requestIdHeader = some inbound.requestId := by
  simp only [onAfterSettle, Option.bind_eq_bind, Option.bind_eq_some_iff, Option.pure_def,
    Option.some.injEq] at confirmed
  obtain ⟨id, named, -, -, transaction, -, amount, -, inboundAtomic, -, rfl⟩ := confirmed
  exact (Option.filter_eq_some_iff.mp named).1

theorem takenOn_note {svc : Service} {inbound : InboundSettlement} {now : Service.Readings}
    {record : SettlementRecord} (taken : Service.takenOn cfg svc inbound now = some record) :
    ∃ note, svc.routing.get? inbound.requestId = some note ∧
      Service.openRecord cfg inbound note now.createdAt = .ok record := by
  unfold Service.takenOn at taken
  split at taken
  next => cases taken
  next note found =>
    split at taken
    next => cases taken
    next =>
      refine ⟨note, found, ?_⟩
      cases opened : Service.openRecord cfg inbound note now.createdAt with
      | error e => simp [opened, Except.toOption] at taken
      | ok own => simpa [opened, Except.toOption] using taken

theorem Kept.earned (kept : Kept text config render cfg s) {v : Visit ι Json}
    (member : v ∈ s.visits) (answered : v.stage = .answered) {status : Nat}
    (finished : v.res.finished = some status) (served : status < 400) {result : SettleResult}
    {inbound : InboundSettlement} (confirmed : onAfterSettle v.res.headers result = some inbound)
    {readings : Service.Readings} {record : SettlementRecord}
    (taken : Service.takenOn cfg (s.world.service v.gateway) inbound readings = some record) :
    ∃ call, Earned text render cfg (v.paid (some inbound)) call inbound record := by
  obtain ⟨request, buffered, gone, select, scripted, streaming, res⟩ := kept.standing v member
  rw [if_neg (by simp [answered])] at res
  obtain ⟨whole, res⟩ := res
  have own : inbound.requestId = v.requestId := by
    have named := onAfterSettle_requestId confirmed
    rw [res, ended_requestId] at named
    exact (Option.some.inj named).symm
  obtain ⟨note, noted, opened⟩ := takenOn_note taken
  -- The note is this visit's, since no other has its id.
  obtain ⟨other, there, same, -, call, selected, node, operator⟩ :=
    kept.noted v.gateway inbound.requestId note noted
  obtain rfl : other = v :=
    List.inj_on_of_nodup_map kept.distinct there member (same.trans own)
  rw [whole, List.take_length] at selected
  rw [res] at finished
  obtain ⟨chosen, given⟩ := ended_given text config render other.requestId request gone select
    buffered finished served
  rw [← scripted, ← streaming, ← res] at given
  obtain rfl : chosen = call := Option.some.inj (given.last.symm.trans selected)
  refine ⟨chosen, { given with }, ⟨status, ?_, served⟩, ⟨rfl, result, confirmed⟩, own,
    note.noted, readings.createdAt, ?_⟩
  · rw [← res] at finished
    exact finished
  · rw [← node, ← operator]
    exact opened

theorem Kept.settle [DecidableEq ι] (kept : Kept text config render cfg s) {n : Nat}
    {result : SettleResult} {readings : Service.Readings} {v : Visit ι Json}
    (found : s.at? n .answered = some v) (taken : s.settle cfg n result readings v = some s') :
    Kept text config render cfg s' := by
  obtain ⟨present, answered⟩ := at_some found
  have member := List.mem_of_getElem? present
  have unsettled : ∀ inbound, v.stage ≠ .settled inbound := by
    intro inbound settled
    cases answered.symm.trans settled
  have standing (inbound : Option InboundSettlement) :
      Standing text config render (v.paid inbound) := by
    obtain ⟨request, buffered, gone, select, scripted, streaming, res⟩ := kept.standing v member
    rw [if_neg (by simp [answered])] at res
    exact ⟨request, buffered, gone, select, scripted, streaming,
      by rwa [if_neg (by simp [Visit.paid])]⟩
  have moved (inbound : Option InboundSettlement) :
      Kept text config render cfg (s.move n (v.paid inbound)) :=
    kept.move present rfl rfl unsettled rfl (standing inbound)
  unfold Floor.settle at taken
  split at taken
  next => cases taken
  next status finished =>
    simp only [Option.ite_none_right_eq_some] at taken
    obtain ⟨served, taken⟩ := taken
    cases confirmed : onAfterSettle v.res.headers result with
    | none =>
      simp only [confirmed, Option.some.injEq] at taken
      subst taken
      exact moved none
    | some inbound =>
      simp only [confirmed] at taken
      obtain ⟨world, stepped, rfl⟩ := Option.map_eq_some_iff.mp taken
      refine { moved (some inbound) with noted := fun i id note held => ?_, source := ?_ }
      · have before : (s.world.service i).routing.get? id = some note := by
          cases stepped
          simp only [withWorld] at held
          rw [World.turn_service] at held
          split at held
          next here => exact here ▸ Service.settleInbound_found held
          next => exact held
        exact (moved (some inbound)).noted i id note before
      · have takes : World.TakesOn cfg
            (EarnedIn text render cfg (s.move n (v.paid (some inbound))).visits) s.world
            (.settleInbound v.gateway inbound readings) := by
          intro record taken
          obtain ⟨call, earned⟩ := kept.earned member answered finished served confirmed taken
          exact ⟨_, self_mem_move present, call, inbound, earned⟩
        exact (moved (some inbound)).source.step cfg takes stepped

theorem Kept.upkeep [DecidableEq ι] (kept : Kept text config render cfg s) {a : Action ι}
    (taken : s.upkeep cfg a = some s') : Kept text config render cfg s' := by
  simp only [Floor.upkeep, Option.ite_none_right_eq_some, Option.map_eq_some_iff] at taken
  obtain ⟨other, world, stepped, rfl⟩ := taken
  constructor
  case distinct =>
    rw [List.map_map]
    exact kept.distinct
  case standing =>
    intro v member
    obtain ⟨before, old, rfl⟩ := List.mem_map.mp member
    exact kept.standing before old
  case noted =>
    intro i id note held
    have before : (s.world.service i).routing.get? id = some note := by
      rcases World.upkeep_routing other stepped i with same | forgotten
      · rw [← same]
        exact held
      · rw [show (world.service i).routing.get? id = none by rw [forgotten]; rfl] at held
        cases held
    obtain ⟨v, member, rest⟩ := kept.noted i id note before
    exact ⟨_, List.mem_map_of_mem member, rest⟩
  case source =>
    have takes : World.TakesOn cfg (EarnedIn text render cfg s.visits) s.world a := by
      cases a with
      | settleInbound => cases other
      | _ => trivial
    refine (kept.source.step cfg takes stepped).mono fun r earned => ?_
    obtain ⟨v, member, call, inbound, own⟩ := earned
    exact ⟨_, List.mem_map_of_mem member, call, inbound, { own with given := { own.given with } }⟩

theorem Kept.step [DecidableEq ι] (kept : Kept text config render cfg s) {m : Move ι}
    (taken : step text config render cfg s m = some s') : Kept text config render cfg s' := by
  cases m with
  | arrive => exact kept.arrive taken
  | play =>
    obtain ⟨v, found, taken⟩ := Option.bind_eq_some_iff.mp taken
    exact kept.play found taken
  | conclude =>
    obtain ⟨v, found, taken⟩ := Option.bind_eq_some_iff.mp taken
    exact kept.conclude found taken
  | settle =>
    obtain ⟨v, found, taken⟩ := Option.bind_eq_some_iff.mp taken
    exact kept.settle found taken
  | upkeep => exact kept.upkeep taken

end kept

section alone

variable [DecidableEq ι]

omit [DecidableEq ι] in
theorem played_outbox (requestId : String) (trace : Trace) (exchange : Exchange) :
    (trace.foldl (Gateway.play config requestId) exchange).settlement.outbox =
      exchange.settlement.outbox := by
  induction trace generalizing exchange with
  | nil => rfl
  | cons e rest ih =>
    rw [List.foldl_cons, ih]
    cases e with
    | wrote | closed =>
      simp only [Gateway.play, createResponseSink]
      split <;> rfl
    | _ => rfl

theorem turn_put (w : World ι) (i : ι) (svc : Service) (idle : svc.outbox = []) :
    w.turn i svc = w.put i svc := by
  have same : ({ svc with outbox := [] } : Service) = svc := by
    cases svc
    cases idle
    rfl
  simp [World.turn, World.put, same, idle]

theorem step_play {s : Floor ι Json} {n : Nat} {v : Visit ι Json} {e : RelayEvent}
    (found : s.at? n .handling = some v) (next : v.trace[v.turn]? = some e)
    (idle : (s.world.service v.gateway).outbox = []) :
    step text config render cfg s (.play n config.now) =
      some ⟨s.visits.set n (v.next e), s.world.put v.gateway (Gateway.play config v.requestId
        ⟨v.res, s.world.service v.gateway⟩ e).settlement⟩ := by
  simp only [step, found, Option.bind_some, Floor.play, next]
  cases e with
  | selected call =>
    simp only [World.step, Option.map_some, Gateway.play, onNodeSelected]
    rw [← turn_put _ _ _ (show ((s.world.service v.gateway).recordRouting v.requestId call.nodeId
      call.operatorAddress config.now).outbox = [] from idle)]
    rfl
  | wrote | closed =>
    simp only [Gateway.play, createResponseSink]
    split <;> simp [move]
  | _ => simp [Gateway.play, createResponseSink, move]

-- The events that are left, with nothing between them.
theorem replay_play {s : Floor ι Json} {n : Nat} {v : Visit ι Json} {left : Trace}
    (found : s.at? n .handling = some v) (rest : v.trace.drop v.turn = left)
    (idle : (s.world.service v.gateway).outbox = []) :
    let after := left.foldl (Gateway.play config v.requestId) ⟨v.res, s.world.service v.gateway⟩
    Transition.replay (step text config render cfg) s (left.map fun _ => .play n config.now) =
      some ⟨s.visits.set n { v with turn := v.turn + left.length, res := after.res },
        s.world.put v.gateway after.settlement⟩ := by
  induction left generalizing s v with
  | nil =>
    obtain ⟨below, same⟩ := List.getElem?_eq_some_iff.mp (at_some found).1
    simp only [List.map_nil, List.foldl_nil, List.length_nil, Nat.add_zero, World.put_self,
      Transition.replay]
    rw [show ({ v with turn := v.turn, res := v.res } : Visit ι Json) = s.visits[n] from same.symm,
      List.set_getElem_self]
  | cons e left ih =>
    have next : v.trace[v.turn]? = some e := by
      rw [← List.head?_drop, rest]
      rfl
    have later : (v.next e).trace.drop (v.next e).turn = left := by
      simp only [Visit.next]
      rw [← List.tail_drop, rest]
      rfl
    have passes : (v.alive && decide (v.stage = .handling)) = true :=
      (Option.filter_eq_some_iff.mp found).2
    have below : n < s.visits.length := (List.getElem?_eq_some_iff.mp (at_some found).1).1
    let exchange := Gateway.play config v.requestId ⟨v.res, s.world.service v.gateway⟩ e
    let s' : Floor ι Json := ⟨s.visits.set n (v.next e), s.world.put v.gateway exchange.settlement⟩
    have found' : s'.at? n .handling = some (v.next e) := by
      rw [at?, Option.filter_eq_some_iff]
      exact ⟨List.getElem?_set_self below, passes⟩
    have service : s'.world.service (v.next e).gateway = exchange.settlement :=
      World.put_service_self ..
    have quiet : (s'.world.service (v.next e).gateway).outbox = [] := by
      rw [service]
      exact (played_outbox config v.requestId [e] _).trans idle
    have moved : (⟨(v.next e).res, s'.world.service (v.next e).gateway⟩ : Exchange) = exchange := by
      have same : (v.next e).res = exchange.res :=
        (play_res config v.requestId ⟨v.res, s.world.service v.gateway⟩ e).symm
      rw [service, same]
    have run := ih found' later quiet
    rw [moved] at run
    simp only [List.map_cons, Transition.replay, List.foldl_cons]
    rw [step_play text config render cfg found next idle]
    refine run.trans ?_
    simp only [s', List.set_set, World.put_put, Visit.next, List.length_cons]
    rw [show v.turn + 1 + left.length = v.turn + (left.length + 1) by omega]

/-- With its client there and nothing in between, a request does what the handler and the payment
middleware do. -/
theorem visit_alone (i : ι) (requestId : String) (buffered : Bool)
    (request : Except Thrown ChatCompletionRequest) (gone : Nat → Bool)
    (select : String → List String → Except Thrown NodeCall) (result : SettleResult)
    (readings : Service.Readings) (w : World ι) (stays : ∀ n, gone n = false)
    (idle : (w.service i).outbox = []) :
    let served := serve text config select ⟨cfg, render, result, readings⟩ requestId request
      (accept requestId buffered (w.service i))
    ∃ s, Transition.replay (step text config render cfg) ⟨[], w⟩
        (.arrive i requestId buffered request gone select ::
          ((script text config requestId request gone select).2.map (fun _ => .play 0 config.now) ++
            .conclude 0 :: if served.settled then [.settle 0 result readings] else [])) = some s ∧
      s.visits.map (·.res) = [served.res] ∧ s.world = w.turn i served.settlement := by
  dsimp only
  rw [serve_played text config requestId select gone stays]
  obtain ⟨outcome, trace, scripted⟩ : ∃ outcome trace,
      script text config requestId request gone select = (outcome, trace) := ⟨_, _, rfl⟩
  let v : Visit ι Json := ⟨requestId, i, streams request, outcome, trace, 0,
    (accept requestId buffered .init).res, .handling, true⟩
  have arrived : step text config render cfg ⟨[], w⟩
      (.arrive i requestId buffered request gone select) = some ⟨[v], w⟩ := by
    simp only [step, Floor.arrive, scripted]
    rfl
  obtain ⟨after, same⟩ : ∃ after, trace.foldl (Gateway.play config requestId)
      (accept requestId buffered (w.service i)) = after := ⟨_, rfl⟩
  have played : Transition.replay (step text config render cfg) ⟨[v], w⟩
        (trace.map fun _ => .play 0 config.now) =
      some ⟨[{ v with turn := 0 + trace.length, res := after.res }],
        w.put i after.settlement⟩ := by
    rw [← same]
    exact replay_play text config render cfg (s := ⟨[v], w⟩) (n := 0) (v := v) rfl rfl idle
  have quiet : after.settlement.outbox = [] := by
    rw [← same]
    exact (played_outbox config requestId trace _).trans idle
  simp only [Transition.replay, arrived, Option.bind_some, scripted, same]
  rw [Transition.replay_append, played, Option.bind_some]
  generalize ending : Gateway.conclude text render (streams request) outcome after.res = res
  let answered : Visit ι Json :=
    ⟨requestId, i, streams request, outcome, trace, 0 + trace.length, res, .answered, true⟩
  have concluded : step text config render cfg
      ⟨[{ v with turn := 0 + trace.length, res := after.res }], w.put i after.settlement⟩
      (.conclude 0) = some ⟨[answered], w.put i after.settlement⟩ := by
    change Floor.conclude text render _ 0
      { v with turn := 0 + trace.length, res := after.res } = _
    rw [Floor.conclude, if_pos (Nat.zero_add _)]
    simp only [answered, ← ending]
    rfl
  have settles : step text config render cfg ⟨[answered], w.put i after.settlement⟩
      (.settle 0 result readings) =
        Floor.settle cfg ⟨[answered], w.put i after.settlement⟩ 0 result readings answered := rfl
  simp only [Transition.replay, concluded, Option.bind_some]
  have ends := (turn_put w i after.settlement quiet).symm
  unfold paymentMiddleware
  cases finished : res.finished with
  | none => exact ⟨_, rfl, rfl, ends⟩
  | some status =>
    by_cases served : status < 400
    · cases confirmed : onAfterSettle res.headers result with
      | none =>
        simp only [finished, served, confirmed, if_true, Transition.replay, settles, Floor.settle,
          answered, Option.bind_some]
        exact ⟨_, rfl, rfl, ends⟩
      | some inbound =>
        simp only [finished, served, confirmed, if_true, Transition.replay, settles, Floor.settle,
          answered, World.step, Option.map_some, Option.bind_some]
        refine ⟨_, rfl, rfl, ?_⟩
        simp only [withWorld, move, World.put_service_self, World.put_turn]
    · simp only [served, if_false, Bool.false_eq_true]
      exact ⟨_, rfl, rfl, ends⟩

end alone

theorem kept_of_run [DecidableEq ι] {s : Floor ι Json}
    (run : Transition.Run (step text config render cfg) (fun _ _ => True) start s) :
    Kept text config render cfg s :=
  run.invariant (kept_start text config render cfg) fun _ _ _ kept _ taken => kept.step taken

/-- Each call of `pay`, and each payment on the chain, is for records that visits of the receiver's
nodes have earned, and the amount called for is the sum of their payouts. -/
theorem operators_paid_for_service [DecidableEq ι] {s : Floor ι Json}
    (run : Transition.Run (step text config render cfg) (fun _ _ => True) start s) :
    (∀ request, .pay request ∈ s.world.trace →
      request.amountAtomic = Service.owed request.records ∧
        ∀ r ∈ request.records, r.operatorAddress = request.receiver ∧
          EarnedIn text render cfg s.visits r) ∧
      ∀ payment ∈ s.world.landed, ∃ records : List SettlementRecord,
        payment.requestIds = records.map (·.requestId) ∧
          ∀ r ∈ records, r.operatorAddress = payment.receiver ∧
            EarnedIn text render cfg s.visits r := by
  have source := (kept_of_run text config render cfg run).source
  constructor
  · intro request called
    have due := source.called request called
    exact ⟨due.amount, fun r member => (due.own r member).symm⟩
  · intro payment landed
    obtain ⟨records, ids, own⟩ := source.landed payment landed
    exact ⟨records, ids, fun r member => (own r member).symm⟩

-- The first node of a request fails, and no node is left for the other request.
def failover : List (Move Unit) :=
  [.arrive () "r1" true (.ok ⟨"m", some true⟩) (fun _ => false) selectDemo,
    .arrive () "r2" true (.ok ⟨"m", none⟩) (fun _ => false)
      fun _ _ => .error (.mesh ⟨.noCapacity, "no eligible node", []⟩)] ++
  List.replicate 5 (.play 0 3) ++ [.conclude 1] ++ List.replicate 7 (.play 0 4) ++
  [.conclude 0, .settle 0 demoServing.result demoServing.readings,
    .upkeep (.flushPayouts () fun _ => 9), .upkeep (.payout () 0 (.paid "PAYOUT-TX") 10 10)]

theorem operators_paid_for_service_failover :
    ∃ s : Floor Unit String, s.world.landed.map (fun payment =>
        (payment.receiver, payment.requestIds)) = [("OPERATOR-B", ["r1"])] ∧
      ∀ payment ∈ s.world.landed, ∃ records : List SettlementRecord,
        payment.requestIds = records.map (·.requestId) ∧
          ∀ r ∈ records, r.operatorAddress = payment.receiver ∧
            EarnedIn demoText MeshErrorBody.code World.demoDeps s.visits r := by
  have shown : (Transition.replay (step demoText ⟨120000, 0⟩ MeshErrorBody.code World.demoDeps)
      start failover).map (fun s => s.world.landed.map fun payment =>
        (payment.receiver, payment.requestIds)) = some [("OPERATOR-B", ["r1"])] := by
    decide +kernel
  obtain ⟨s, replayed, landed⟩ := Option.map_eq_some_iff.mp shown
  have run := Transition.run_of_replay failover
    (Transition.allows_of_forall failover fun _ _ _ => trivial) replayed
  exact ⟨s, landed, (operators_paid_for_service demoText ⟨120000, 0⟩ MeshErrorBody.code
    World.demoDeps run).2⟩

-- Of the note, only the node and the operator count.
theorem openRecord_at (inbound : InboundSettlement) (nodeId operatorAddress : String)
    (noted noted' createdAt createdAt' : Nat) :
    Service.openRecord cfg inbound ⟨nodeId, operatorAddress, noted'⟩ createdAt' =
      (Service.openRecord cfg inbound ⟨nodeId, operatorAddress, noted⟩ createdAt).map
        fun r => { r with createdAt := createdAt' } := by
  unfold Service.openRecord
  cases Pricing.computeSplit inbound.inboundAtomic cfg.marginBps with
  | error e => rfl
  | ok split =>
    simp only [bind, Except.bind]
    cases Pricing.assertSplitInvariant split with
    | error e => rfl
    | ok _ =>
      cases Money.atomicToWire split.inbound with
      | error e => rfl
      | ok inboundAtomic =>
        cases Money.atomicToWire split.payout with
        | error e => rfl
        | ok payoutAtomic => cases Money.atomicToWire split.margin <;> rfl

-- But for the time it was opened at, a visit earns one record.
theorem earned_once {visits : List (Visit ι Json)} (distinct : (visits.map (·.requestId)).Nodup)
    {r r' : SettlementRecord} (earned : EarnedIn text render cfg visits r)
    (earned' : EarnedIn text render cfg visits r') (same : r.requestId = r'.requestId) :
    r' = { r with createdAt := r'.createdAt } := by
  obtain ⟨v, member, call, inbound, own⟩ := earned
  obtain ⟨v', member', call', inbound', own'⟩ := earned'
  obtain ⟨noted, createdAt, opened⟩ := own.split
  obtain ⟨noted', createdAt', opened'⟩ := own'.split
  have id := (Service.openRecord_ok cfg _ _ _ _ opened).1
  have id' := (Service.openRecord_ok cfg _ _ _ _ opened').1
  obtain rfl : v = v' := by
    apply List.inj_on_of_nodup_map distinct member member'
    rw [← own.own, ← own'.own, ← id, ← id', same]
  obtain rfl : inbound = inbound' := by
    simpa using own.confirmed.1.symm.trans own'.confirmed.1
  obtain rfl : call = call' := Option.some.inj (own.given.last.symm.trans own'.given.last)
  have again := openRecord_at cfg inbound call.nodeId call.operatorAddress noted noted' createdAt
    createdAt'
  rw [opened, opened'] at again
  cases again
  rfl

/-- However often a request is paid for, it is to the same operator and for the same share. -/
theorem one_operator_per_request [DecidableEq ι] {s : Floor ι Json}
    (run : Transition.Run (step text config render cfg) (fun _ _ => True) start s)
    (first second : PayoutRequest) (called : .pay first ∈ s.world.trace)
    (called' : .pay second ∈ s.world.trace) (r r' : SettlementRecord) (member : r ∈ first.records)
    (member' : r' ∈ second.records) (same : r.requestId = r'.requestId) :
    first.receiver = second.receiver ∧ r' = { r with createdAt := r'.createdAt } := by
  have kept := kept_of_run text config render cfg run
  obtain ⟨earned, receiver⟩ := (kept.source.called first called).own r member
  obtain ⟨earned', receiver'⟩ := (kept.source.called second called').own r' member'
  have once := earned_once text render cfg kept.distinct earned earned' same
  refine ⟨?_, once⟩
  rw [← receiver, ← receiver', once]

-- The attempt that failed has paid after all, and the next one finds no trace of it.
def retried : List (Move Unit) :=
  failover.dropLast ++ [.upkeep (.payout () 0 (.threw "timeout" true) 10 10),
    .upkeep (.payout () 0 (.lookup .notFound) 11 11), .upkeep (.payout () 0 .wake 12 12)]

def paidTo (s : Floor Unit String) : List (String × List String) :=
  s.world.trace.filterMap fun
    | .pay request => some (request.receiver, request.records.map (·.requestId))
    | .putBatch .. => none

theorem one_operator_per_request_retried :
    ∃ s : Floor Unit String, paidTo s = [("OPERATOR-B", ["r1"]), ("OPERATOR-B", ["r1"])] ∧
      ∀ first second : PayoutRequest, .pay first ∈ s.world.trace → .pay second ∈ s.world.trace →
        ∀ r ∈ first.records, ∀ r' ∈ second.records, r.requestId = r'.requestId →
          first.receiver = second.receiver ∧ r' = { r with createdAt := r'.createdAt } := by
  have shown : (Transition.replay (step demoText ⟨120000, 0⟩ MeshErrorBody.code World.demoDeps)
      start retried).map paidTo = some [("OPERATOR-B", ["r1"]), ("OPERATOR-B", ["r1"])] := by
    decide +kernel
  obtain ⟨s, replayed, twice⟩ := Option.map_eq_some_iff.mp shown
  have run := Transition.run_of_replay retried
    (Transition.allows_of_forall retried fun _ _ _ => trivial) replayed
  exact ⟨s, twice, fun first second called called' r member r' member' same =>
    one_operator_per_request demoText ⟨120000, 0⟩ MeshErrorBody.code World.demoDeps run first second
      called called' r r' member member' same⟩

end Floor

end X402Mesh.Gateway
