import X402Mesh.NodeDaemon.Serving

set_option autoImplicit false

namespace X402Mesh.NodeDaemon.Server

open Js ChatSchemas

variable {codec : Codec} {options : Options}
variable {s : State}

def own (i : Nat) : Action → Option Event
  | .event j event => if j = i then some event else none
  | _ => none

theorem handle_exchanges (request : Request) :
    ∃ e, (s.handle codec options request).exchanges = s.exchanges ++ [e] := by
  unfold State.handle
  simp only
  split
  · split
    · exact ⟨_, rfl⟩
    · unfold State.handleHealth
      split
      · split <;> exact ⟨_, rfl⟩
      · exact ⟨_, rfl⟩
  · split
    · split
      · exact ⟨_, rfl⟩
      · unfold State.handleInfer
        split
        · split <;> exact ⟨_, rfl⟩
        · exact ⟨_, rfl⟩
    · exact ⟨_, rfl⟩

def Exchange.Probing (e : Exchange) : Prop := ∃ since, e.phase = .probing since

theorem on_not_probing {e : Exchange} (event : Event) (other : ¬ e.Probing) :
    ¬ (e.on codec event).Probing := by
  rintro ⟨since, probing⟩
  obtain ⟨phase, reply, aborted⟩ := e
  cases phase with
  | probing since => exact other ⟨since, rfl⟩
  | reading permit reader =>
    cases event with
    | body event =>
      simp only [Exchange.on, Exchange.onBody] at probing
      cases settled : (reader.on codec.parse event).settled with
      | none =>
        rw [settled] at probing
        cases probing
      | some raw =>
        simp only [settled, Exchange.begin] at probing
        cases asked : raw.bind (Exchange.parseRequest codec) with
        | error error =>
          rw [asked] at probing
          cases probing
        | ok request =>
          simp only [asked] at probing
          split at probing <;> cases probing
    | _ => cases probing
  | inferring permit request =>
    cases event with
    | completed result => cases result <;> cases probing
    | _ => cases probing
  | streaming permit request =>
    cases event with
    | chunk chunk =>
      simp only [Exchange.on] at probing
      split at probing <;> cases probing
    | _ => cases probing
  | finished => cases event <;> cases probing

theorem step_own {a : Action} {s s' : State} {i : Nat} {e : Exchange}
    (taken : step codec options s a = some s') (found : s.exchanges[i]? = some e)
    (other : ¬ e.Probing) :
    s'.exchanges[i]? = some (Sessions.after (Exchange.on codec) e (own i a)) := by
  have below := (List.getElem?_eq_some_iff.mp found).1
  cases a with
  | clock now =>
    obtain rfl := Option.some.inj taken
    exact found
  | request request =>
    obtain rfl := Option.some.inj taken
    obtain ⟨new, grown⟩ := @handle_exchanges codec options s request
    rw [grown, List.getElem?_append_left below]
    exact found
  | probed j result =>
    simp only [step] at taken
    split at taken
    next e' found' =>
      split at taken
      next since probing =>
        obtain rfl := Option.some.inj taken
        have apart : j ≠ i := by
          rintro rfl
          obtain rfl := Option.some.inj (found.symm.trans found')
          exact other ⟨since, probing⟩
        cases result with
        | ok healthy => exact (List.getElem?_set_ne apart).trans found
        | error cause => exact (List.getElem?_set_ne apart).trans found
      next => cases taken
    next => cases taken
  | event j event =>
    simp only [step] at taken
    split at taken
    next e' found' =>
      obtain rfl := Option.some.inj taken
      by_cases same : j = i
      · subst same
        obtain rfl := Option.some.inj (found.symm.trans found')
        have mine : own j (.event j event) = some event := if_pos rfl
        rw [mine]
        exact List.getElem?_set_self below
      · have mine : own i (.event j event) = none := if_neg same
        rw [mine]
        exact (List.getElem?_set_ne same).trans found
    next => cases taken

theorem replay_own {labels : List Action} {s s' : State} {i : Nat} {e : Exchange}
    (replayed : Transition.replay (step codec options) s labels = some s')
    (found : s.exchanges[i]? = some e) (other : ¬ e.Probing) :
    s'.exchanges[i]? =
      some ((labels.filterMap (own i)).foldl (Exchange.on codec) e) :=
  Sessions.replay_own (P := fun e => ¬ e.Probing) (Exchange.on codec) own
    (fun _ event other => on_not_probing event other)
    (fun _ _ _ _ _ taken found other => step_own taken found other) labels replayed found other

def Event.isClosed : Event → Bool
  | .closed => true
  | _ => false

def Exchange.hungUp (e : Exchange) (aborted : Bool) : Exchange := { e with aborted := aborted }

-- Whether the client hung up makes no difference to what is done.
theorem on_hungUp (e : Exchange) (aborted : Bool) {event : Event} (other : event.isClosed = false) :
    (e.hungUp aborted).on codec event = (e.on codec event).hungUp aborted := by
  obtain ⟨phase, reply, before⟩ := e
  cases event with
  | closed => cases other
  | body event =>
    cases phase with
    | reading permit reader =>
      simp only [Exchange.on, Exchange.onBody, Exchange.hungUp]
      cases (reader.on codec.parse event).settled with
      | none => rfl
      | some raw =>
        simp only [Exchange.begin]
        cases raw.bind (Exchange.parseRequest codec) with
        | error error => rfl
        | ok request =>
          simp only
          split <;> rfl
    | _ => rfl
  | completed result => cases phase <;> cases result <;> rfl
  | chunk chunk =>
    cases phase with
    | streaming permit request =>
      cases ended : reply.ended <;> simp [Exchange.on, Exchange.hungUp, Exchange.finish, ended]
    | _ => rfl
  | streamEnded failure => cases phase <;> rfl

theorem on_closed (e : Exchange) : ∃ aborted,
    e.on codec .closed = e.hungUp aborted := by
  obtain ⟨phase, reply, before⟩ := e
  cases phase with
  | finished => exact ⟨before, rfl⟩
  | _ => exact ⟨true, rfl⟩

theorem foldl_hungUp {events : List Event} (others : ∀ event ∈ events, event.isClosed = false)
    (e : Exchange) (aborted : Bool) :
    events.foldl (Exchange.on codec) (e.hungUp aborted) =
      (events.foldl (Exchange.on codec) e).hungUp aborted := by
  induction events generalizing e with
  | nil => rfl
  | cons event rest ih =>
    rw [List.forall_mem_cons] at others
    rw [List.foldl_cons, List.foldl_cons, on_hungUp e aborted others.1, ih others.2]

theorem foldl_closed (events : List Event) (e : Exchange) : ∃ aborted,
    events.foldl (Exchange.on codec) e =
      ((events.filter fun event => !event.isClosed).foldl (Exchange.on codec) e).hungUp
        aborted := by
  induction events generalizing e with
  | nil => exact ⟨e.aborted, rfl⟩
  | cons event rest ih =>
    cases closed : event.isClosed with
    | false =>
      obtain ⟨aborted, same⟩ := ih (e.on codec event)
      refine ⟨aborted, ?_⟩
      rw [List.foldl_cons, same, List.filter_cons_of_pos (by simp [closed]), List.foldl_cons]
    | true =>
      have shape : event = .closed := by cases event <;> simp_all [Event.isClosed]
      obtain ⟨gone, hung⟩ := @on_closed codec e
      obtain ⟨aborted, same⟩ := ih (e.hungUp gone)
      have others : ∀ event ∈ rest.filter fun event => !event.isClosed,
          event.isClosed = false := fun event member => by
        simpa using List.of_mem_filter member
      refine ⟨aborted, ?_⟩
      rw [List.foldl_cons, shape, hung, same, foldl_hungUp others,
        List.filter_cons_of_neg (by simp [Event.isClosed])]
      rfl

-- As long as the reader has settled nothing the exchange goes on reading.
theorem foldl_body {events : List BodyEvent} {reader : BodyReader} (permit : Nat) (reply : Reply)
    (aborted : Bool) (unsettled : (events.foldl (BodyReader.on codec.parse) reader).settled = none) :
    (events.map .body).foldl (Exchange.on codec) ⟨.reading permit reader, reply, aborted⟩ =
      ⟨.reading permit (events.foldl (BodyReader.on codec.parse) reader), reply, aborted⟩ := by
  induction events generalizing reader with
  | nil => rfl
  | cons event rest ih =>
    have going : (reader.on codec.parse event).settled = none := by
      cases settled : (reader.on codec.parse event).settled with
      | none => rfl
      | some result =>
        rw [List.foldl_cons, BodyReader.foldl_settled settled] at unsettled
        cases unsettled
    rw [List.map_cons, List.foldl_cons, List.foldl_cons]
    have stays : (⟨.reading permit reader, reply, aborted⟩ : Exchange).on codec
        (.body event) = ⟨.reading permit (reader.on codec.parse event), reply, aborted⟩ := by
      simp only [Exchange.on, Exchange.onBody, going]
    rw [stays, ih unsettled]

theorem foldl_chunks {reply : Reply} (going : reply.ended = false) (permit : Nat) (request : Value)
    (aborted : Bool) (chunks : List Value) :
    (chunks.map .chunk).foldl (Exchange.on codec)
        ⟨.streaming permit request, reply, aborted⟩ =
      ⟨.streaming permit request,
        { reply with body := reply.body ++ chunks.map fun chunk => sseData (codec.stringify chunk) },
        aborted⟩ := by
  induction chunks generalizing reply with
  | nil => simp
  | cons chunk rest ih =>
    have written : (⟨.streaming permit request, reply, aborted⟩ : Exchange).on codec
        (.chunk chunk) =
          ⟨.streaming permit request, reply.writeSseData (codec.stringify chunk), aborted⟩ := by
      simp only [Exchange.on, going, Bool.false_eq_true, if_false]
    have later := @ih (reply.writeSseData (codec.stringify chunk)) going
    rw [List.map_cons, List.foldl_cons, written, later]
    simp [Reply.writeSseData, Reply.write]

def Entrusted (s : State) (i permit : Nat) : Prop :=
  s.permits.released[permit]? = some true ∨
    ∃ e, s.exchanges[i]? = some e ∧ e.permit = some permit

theorem release_keeps {permits : Permits.State} (nobody : permits.sem.waiters = []) (other : Nat)
    {permit : Nat} (released : permits.released[permit]? = some true) :
    (Permits.release permits other).released[permit]? = some true := by
  by_cases held : permits.released[other]? = some false
  · have apart : other ≠ permit := by
      rintro rfl
      cases held.symm.trans released
    rw [(release_held nobody held).1, List.getElem?_set_ne apart]
    exact released
  · have nothing : Permits.release permits other = permits := by
      unfold Permits.release
      split
      next first => exact absurd first held
      next => rfl
    rw [nothing]
    exact released

theorem serve_released (kept : Kept codec s) {i : Nat} (e e' : Exchange) {permit : Nat}
    (released : s.permits.released[permit]? = some true) :
    (s.serve i e e').permits.released[permit]? = some true := by
  simp only [State.serve]
  split
  next => exact release_keeps kept.nobody _ released
  next => exact released

-- A permit that its exchange no longer has was released in the same step.
theorem serve_gives_back (kept : Kept codec s) {i : Nat} {e e' : Exchange} {permit : Nat}
    (found : s.exchanges[i]? = some e) (before : e.permit = some permit) (after : e'.permit = none) :
    (s.serve i e e').permits.released[permit]? = some true := by
  have member : permit ∈ holders s := List.mem_filterMap.mpr ⟨e, List.mem_of_getElem? found, before⟩
  have held := kept.held permit member
  simp only [State.serve, before, after]
  rw [(release_held kept.nobody held).1]
  exact List.getElem?_set_self (List.getElem?_eq_some_iff.mp held).1

theorem Effect.entrusted {s' : State} (effect : Effect codec s s') (kept : Kept codec s)
    {i permit : Nat} (entrusted : Entrusted s i permit) : Entrusted s' i permit := by
  have grown (phase : Phase) (reply : Reply) {e : Exchange} (found : s.exchanges[i]? = some e) :
      (s.exchanges ++ [⟨phase, reply, false⟩])[i]? = some e := by
    rw [List.getElem?_append_left (List.getElem?_eq_some_iff.mp found).1, found]
  rcases entrusted with released | ⟨e, found, holds⟩
  · refine .inl ?_
    cases effect with
    | admitted permits reply untouched taken =>
      obtain ⟨-, same⟩ := Option.ite_none_left_eq_some.mp taken
      obtain rfl := Option.some.inj same
      have below := (List.getElem?_eq_some_iff.mp released).1
      simpa [State.opened, Permits.makeRelease, List.getElem?_append_left below] using released
    | served event found => exact serve_released kept _ _ released
    | _ => exact released
  · cases effect with
    | clock now => exact .inr ⟨e, found, holds⟩
    | answered reply answered => exact .inr ⟨e, grown _ _ found, holds⟩
    | probing reply untouched => exact .inr ⟨e, grown _ _ found, holds⟩
    | admitted permits reply untouched taken => exact .inr ⟨e, grown _ _ found, holds⟩
    | @probed j e' since cached reply found' probing answered =>
      have apart : j ≠ i := by
        rintro rfl
        obtain rfl := Option.some.inj (found.symm.trans found')
        simp [Exchange.permit, probing] at holds
      exact .inr ⟨e, (List.getElem?_set_ne apart).trans found, holds⟩
    | @served j e' event found' =>
      by_cases same : j = i
      · subst same
        obtain rfl := Option.some.inj (found.symm.trans found')
        rcases @on_permit codec e event with kept_on | gone
        · have below := (List.getElem?_eq_some_iff.mp found).1
          exact .inr ⟨_, List.getElem?_set_self below, kept_on.trans holds⟩
        · exact .inl (serve_gives_back kept found holds gone)
      · exact .inr ⟨e, (List.getElem?_set_ne same).trans found, holds⟩

theorem runs_entrusted {s' : State} (kept : Kept codec s) (run : Runs codec options s s')
    {i permit : Nat} (entrusted : Entrusted s i permit) : Entrusted s' i permit := by
  have both : Kept codec s' ∧ Entrusted s' i permit := by
    refine run.invariant (P := fun s' => Kept codec s' ∧ Entrusted s' i permit)
      ⟨kept, entrusted⟩ ?_
    rintro _ _ _ ⟨kept, entrusted⟩ _ taken
    have effect := step_effect kept.proper taken
    exact ⟨effect.kept kept, effect.entrusted kept entrusted⟩
  exact both.2

/-- Whatever else the server is doing and whenever the client hangs up, an exchange whose body asks
for a stream writes the frames of the stream that its provider gives it, and gives its permit
back. -/
theorem stream_served (permits : Number) (sem : Permits.Semaphore)
    (created : Permits.create permits = .ok sem) (now : Int) (s s' : State)
    (reached : Runs codec options (init sem now) s) (labels : List Action)
    (replayed : Transition.replay (step codec options) s labels = some s') (i : Nat)
    (permit : Nat) (reply : Reply) (aborted : Bool) (untouched : reply.Untouched)
    (admitted : s.exchanges[i]? = some ⟨.reading permit .fresh, reply, aborted⟩)
    (pieces : List (List UInt8)) (chunks : List Value) (failure : Option Thrown)
    (events : ((labels.filterMap (own i)).filter fun event => !event.isClosed) =
      pieces.map (fun bytes => .body (.data bytes)) ++ .body .ended ::
        (chunks.map .chunk ++ [.streamEnded failure]))
    (raw request : Value) (judged : verdict codec.parse pieces.flatten .ended = some (.ok raw))
    (accepted : chatCompletionRequestSchema raw = some request)
    (streaming : Exchange.streams request = true) :
    (∃ e, s'.exchanges[i]? = some e ∧ e.phase = .finished ∧ e.reply.status = some 200 ∧
      e.reply.ended = true ∧
      e.reply.body = framesOf codec ⟨chunks.map codec.stringify, failure⟩) ∧
    s'.permits.released[permit]? = some true ∧ permit ∉ holders s' ∧
      s'.permits.sem.inFlight = (holders s').length := by
  have found := replay_own replayed admitted (by rintro ⟨since, probing⟩; cases probing)
  obtain ⟨hung, same⟩ := @foldl_closed codec
    (labels.filterMap (own i)) ⟨.reading permit .fresh, reply, aborted⟩
  rw [events, List.foldl_append, List.foldl_cons, List.foldl_append] at same
  have settles := (body_read codec.parse pieces .ended [] (.ok raw) judged).1
  have unsettled : ((pieces.map BodyEvent.data).foldl (BodyReader.on codec.parse) .fresh).settled =
      none := by
    rcases @BodyReader.foldl_data codec.parse _ BodyReader.fresh_within rfl pieces with
      ⟨kept, -⟩ | ⟨-, past⟩
    · rw [kept]
      rfl
    · have past : maxBodyBytes < pieces.flatten.length := by simpa [BodyReader.fresh] using past
      rw [verdict.eq_def, if_pos past] at judged
      cases judged
  have body := @foldl_body codec _ _ permit reply aborted unsettled
  rw [List.map_map] at body
  have settled : (((pieces.map BodyEvent.data).foldl (BodyReader.on codec.parse) .fresh).on codec.parse
      .ended).settled = some (.ok raw) := by
    rw [← settles, BodyReader.readJsonBody_append]
    rfl
  have asked : (Except.ok raw : Except MeshError Value).bind (Exchange.parseRequest codec) =
      .ok request := by
    simp [Except.bind, Exchange.parseRequest, accepted]
  have begins : (⟨.reading permit
      ((pieces.map BodyEvent.data).foldl (BodyReader.on codec.parse) .fresh),
      reply, aborted⟩ : Exchange).on codec (.body .ended) =
        ⟨.streaming permit request, reply.startStream, aborted⟩ := by
    simp only [Exchange.on, Exchange.onBody, settled, Exchange.begin, asked, streaming, if_true]
  have written := @foldl_chunks codec reply.startStream untouched.2.2 permit request
    aborted chunks
  obtain ⟨ended, status, frames⟩ := @endStream_frames codec
    { reply.startStream with
      body := reply.startStream.body ++ chunks.map fun chunk => sseData (codec.stringify chunk) }
    (chunks.map codec.stringify) untouched.2.2
    (by simp [Reply.startStream, Reply.writeHead, untouched.2.1]) failure
  simp only [Function.comp_def] at body
  rw [body, begins, written] at same
  rw [same] at found
  have kept : Kept codec s := runs_kept (init_kept (Permits.create_idle created) now) reached
  have run : Runs codec options s s' :=
    Transition.run_of_replay labels (Transition.allows_of_forall _ fun _ _ _ => trivial) replayed
  have kept' := runs_kept kept run
  have released : s'.permits.released[permit]? = some true := by
    rcases runs_entrusted kept run (.inr ⟨_, admitted, rfl⟩) with released | ⟨e, found', holds⟩
    · exact released
    · obtain rfl := Option.some.inj (found.symm.trans found')
      cases holds
  refine ⟨⟨_, found, rfl, status, ended, frames⟩, released, ?_, ?_⟩
  · intro member
    cases (kept'.held permit member).symm.trans released
  · rw [Permits.Semaphore.inFlight, ← kept'.fair.counted, kept'.counted]

def demoParse (text : List Char) : Option Value := if text = demoText then some demoRequest else none

def demoCodec : Codec := ⟨demoParse, emptyText, MeshErrorBody.message, fun _ => []⟩

def asking : List Action := [.request demoAsk]

def admitted : State := (init single 0).handle demoCodec demoOptions demoAsk

theorem admitted_reached : Runs demoCodec demoOptions (init single 0) admitted :=
  Transition.run_of_replay asking (Transition.allows_of_forall _ fun _ _ _ => trivial) rfl

-- Another request comes while the body is read, and the client hangs up before the last chunk.
def streamed : List Action :=
  [.event 0 (.body (.data (Utf8.encode demoText))), .request demoAsk, .event 0 (.body .ended),
    .event 0 (.chunk .null), .event 0 .closed, .event 0 (.streamEnded none)]

def served : State :=
  (Transition.replay (step demoCodec demoOptions) admitted streamed).getD admitted

theorem served_replayed :
    Transition.replay (step demoCodec demoOptions) admitted streamed = some served := rfl

theorem stream_served_closed :
    (∃ e, served.exchanges[0]? = some e ∧ e.phase = .finished ∧ e.reply.status = some 200 ∧
      e.reply.ended = true ∧ e.reply.body = framesOf demoCodec ⟨[emptyText .null], none⟩) ∧
    admitted.permits.sem.inFlight = 1 ∧ served.permits.released = [true] ∧
      served.permits.sem.inFlight = 0 := by
  have solid : Text.trim demoText ≠ [] := by decide
  have judged : verdict demoParse [Utf8.encode demoText].flatten .ended =
      some (.ok demoRequest) := by
    rw [List.flatten_singleton, verdict.eq_def, if_neg (by decide)]
    simp [parseBody, toText_encode, solid, demoParse]
  have untouched := Reply.fresh_untouched.setHeader "x-request-id" "3b1f"
  obtain ⟨answered, released, -, inFlight⟩ := stream_served (.finite 1) single rfl 0 admitted served
    admitted_reached streamed served_replayed 0 0 _ false untouched rfl [Utf8.encode demoText]
    [.null] none rfl demoRequest demoRequest judged rfl rfl
  have one : served.permits.released.length = 1 := by rfl
  obtain ⟨given, shape⟩ := List.length_eq_one_iff.mp one
  rw [shape] at released
  obtain rfl : given = true := by simpa using released
  have nobody : holders served = [] := by rfl
  exact ⟨answered, rfl, shape, by rw [inFlight, nobody]; rfl⟩

end X402Mesh.NodeDaemon.Server
