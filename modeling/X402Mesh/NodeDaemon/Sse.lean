import X402Mesh.Lib.LineBreaks
import X402Mesh.Lib.Utf8Decoder
import X402Mesh.Shared.Text

set_option autoImplicit false

-- A text is a list of UTF-16 units, so that a chunk may end inside a surrogate pair.

namespace X402Mesh.NodeDaemon.Sse

open LineBreaks

abbrev Units := List UInt16

def units (text : String) : Units := (Utf8.units text.toList).map Nat.toUInt16

def cr : UInt16 := 13

def lf : UInt16 := 10

def colon : UInt16 := 58

def blank : UInt16 := 32

theorem cr_ne_lf : cr ≠ lf := by decide

-- No surrogate is white space.
def isWhitespace (unit : UInt16) : Bool := Text.isWhitespace (Char.ofNat unit.toNat)

def trim (text : Units) : Units :=
  ((text.dropWhile isWhitespace).reverse.dropWhile isWhitespace).reverse

structure SseEvent where
  data : Units
  event : Option Units
  id : Option Units
  deriving DecidableEq

structure Fields where
  dataLines : List Units
  eventName : Option Units
  id : Option Units

def Fields.none : Fields := ⟨[], .none, .none⟩

def Fields.add (fields : Fields) (line : Units) : Fields :=
  if line = [] ∨ line.head? = some colon then fields
  else
    let field := line.takeWhile (· ≠ colon)
    let behind := (line.dropWhile (· ≠ colon)).drop 1
    let value := if behind.head? = some blank then behind.tail else behind
    if field = units "data" then { fields with dataLines := fields.dataLines ++ [value] }
    else if field = units "event" then { fields with eventName := some value }
    else if field = units "id" then { fields with id := some value }
    else fields

inductive Frame
  | nothing
  | done
  | event (event : SseEvent)
  deriving DecidableEq

def frameOf (ls : List Units) : Frame :=
  let fields := ls.foldl Fields.add .none
  if fields.dataLines = [] then .nothing
  else
    let data := [lf].intercalate fields.dataLines
    if data = units "[DONE]" then .done else .event ⟨data, fields.eventName, fields.id⟩

def emit (frame : Units) : Frame := frameOf (lines lf frame)

structure SseParser where
  buffer : Units
  pendingCr : Bool
  finished : Bool
  deriving DecidableEq

namespace SseParser

def fresh : SseParser := ⟨[], false, false⟩

def append (p : SseParser) (chunk : Units) : SseParser :=
  let buffer := if p.pendingCr then p.buffer ++ [lf] else p.buffer
  let text := if p.pendingCr && chunk.head? = some lf then chunk.tail else chunk
  let pendingCr := text.getLast? = some cr
  { p with
    buffer := buffer ++ unify cr lf (if pendingCr then text.dropLast else text)
    pendingCr := pendingCr }

-- The events of the complete frames, whether the last of them ended it all, and what is left.
def drain (buffer : Units) : List SseEvent × Bool × Units :=
  match found : cut lf buffer with
  | none => ([], false, buffer)
  | some (frame, rest) =>
    have shorter : rest.length < buffer.length := by
      rw [(cut_shape lf found).1]
      simp
      omega
    match emit frame with
    | .done => ([], true, rest)
    | .nothing => drain rest
    | .event e => (e :: (drain rest).1, (drain rest).2)
termination_by buffer.length

def push (p : SseParser) (chunk : Units) : List SseEvent × SseParser :=
  if p.finished || chunk.isEmpty then ([], p)
  else
    let appended := p.append chunk
    let drained := drain appended.buffer
    (drained.1, { appended with buffer := drained.2.2, finished := drained.2.1 })

def flush (p : SseParser) : List SseEvent × SseParser :=
  if p.finished then ([], p)
  else
    let rest := if p.pendingCr then p.buffer ++ [lf] else p.buffer
    let cleared : SseParser := { p with buffer := [], pendingCr := false }
    if (trim rest).length = 0 then ([], cleared)
    else
      match emit rest with
      | .done => ([], { cleared with finished := true })
      | .nothing => ([], cleared)
      | .event e => ([e], cleared)

def pushAll (p : SseParser) : List Units → List SseEvent × SseParser
  | [] => ([], p)
  | chunk :: rest =>
    let pushed := p.push chunk
    let later := pushAll pushed.2 rest
    (pushed.1 ++ later.1, later.2)

def parseAll (chunks : List Units) : List SseEvent × SseParser :=
  let pushed := fresh.pushAll chunks
  let flushed := pushed.2.flush
  (pushed.1 ++ flushed.1, flushed.2)

end SseParser

-- The events in front of the sentinel, and whether there is one.
def dispatch : List Frame → List SseEvent × Bool
  | [] => ([], false)
  | .nothing :: rest => dispatch rest
  | .done :: _ => ([], true)
  | .event e :: rest => (e :: (dispatch rest).1, (dispatch rest).2)

/-- The events of a text: every line break is made a line feed, blank lines part the frames, and
the sentinel ends it. -/
def eventsOf (text : Units) : List SseEvent × Bool :=
  dispatch ((groups lf (unify cr lf text)).map frameOf)

def followed (first second : List SseEvent × Bool) : List SseEvent × Bool :=
  if first.2 then first else (first.1 ++ second.1, second.2)

theorem followed_assoc (a b c : List SseEvent × Bool) :
    followed (followed a b) c = followed a (followed b c) := by
  obtain ⟨events, done⟩ := a
  obtain ⟨more, ended⟩ := b
  cases done <;> cases ended <;> simp [followed]

theorem dispatch_append (a b : List Frame) :
    dispatch (a ++ b) = followed (dispatch a) (dispatch b) := by
  induction a with
  | nil => rfl
  | cons frame rest ih =>
    cases frame with
    | nothing => exact ih
    | done => rfl
    | event e =>
      simp only [List.cons_append, dispatch, ih]
      obtain ⟨events, done⟩ := dispatch rest
      cases done <;> rfl

theorem dispatch_nothing (count : Nat) : dispatch (List.replicate count .nothing) = ([], false) := by
  induction count with
  | zero => rfl
  | succ n ih => exact ih

theorem followed_nothing (a : List SseEvent × Bool) : followed a ([], false) = a := by
  obtain ⟨events, done⟩ := a
  cases done <;> simp [followed]

theorem nothing_followed (a : List SseEvent × Bool) : followed ([], false) a = a := rfl

theorem add_blank (fields : Fields) : fields.add [] = fields := by
  rw [Fields.add, if_pos (.inl rfl)]

theorem foldl_solid (ls : List Units) (fields : Fields) :
    (ls.filter (· ≠ [])).foldl Fields.add fields = ls.foldl Fields.add fields := by
  induction ls generalizing fields with
  | nil => rfl
  | cons l rest ih =>
    by_cases empty : l = []
    next =>
      rw [List.filter_cons_of_neg (by simp [empty]), List.foldl_cons, empty, add_blank]
      exact ih fields
    next =>
      rw [List.filter_cons_of_pos (by simp [empty])]
      exact ih (fields.add l)

theorem frameOf_solid (ls : List Units) : frameOf (ls.filter (· ≠ [])) = frameOf ls := by
  rw [frameOf, foldl_solid]
  rfl

def meaning (text : Units) : List SseEvent × Bool := dispatch ((groups lf text).map frameOf)

theorem meaning_whole (text : Units) (whole : cut lf text = none) :
    meaning text = dispatch [emit text] := by
  obtain ⟨before, after, split⟩ := groups_whole lf text whole
  have silent : frameOf [] = .nothing := rfl
  rw [meaning, split, List.map_append, List.map_cons, List.map_replicate, List.map_replicate,
    frameOf_solid, silent, dispatch_append, dispatch_nothing, nothing_followed,
    ← List.singleton_append, dispatch_append, dispatch_nothing, followed_nothing]
  rfl

theorem meaning_cut {text front back : Units} (parts : cut lf text = some (front, back)) :
    meaning text = followed (dispatch [emit front]) (meaning back) := by
  rw [meaning, groups_cut lf parts, List.map_append, dispatch_append, ← meaning, ← meaning,
    meaning_whole front (cut_shape lf parts).2]

theorem meaning_cutAll (text : Units) :
    meaning text = followed (dispatch ((cutAll lf text).1.map emit))
      (dispatch [emit (cutAll lf text).2]) := by
  fun_induction cutAll lf text with
  | case1 text whole => exact meaning_whole text whole
  | case2 text front back parts shorter ih =>
    rw [meaning_cut parts, ih, ← followed_assoc, ← dispatch_append]
    rfl

theorem meaning_concat_lf (text : Units) : meaning (text ++ [lf]) = meaning text := by
  have silent : frameOf [] = .nothing := rfl
  rw [meaning, groups_concat_lf, List.map_append, dispatch_append]
  exact followed_nothing _

theorem emit_concat_lf (text : Units) : emit (text ++ [lf]) = emit text := by
  rw [emit, lines_concat_lf, frameOf, List.foldl_append, List.foldl_cons, List.foldl_nil, add_blank]
  rfl

namespace SseParser

theorem drain_eq (buffer : Units) :
    (drain buffer).1 = (dispatch ((cutAll lf buffer).1.map emit)).1 ∧
    (drain buffer).2.1 = (dispatch ((cutAll lf buffer).1.map emit)).2 ∧
    ((drain buffer).2.1 = false → (drain buffer).2.2 = (cutAll lf buffer).2) := by
  fun_induction drain buffer with
  | case1 buffer whole => simp [cutAll_none lf whole, dispatch]
  | case2 buffer frame rest parts shorter sentinel =>
    simp [cutAll_some lf parts, sentinel, dispatch]
  | case3 buffer frame rest parts shorter silent ih =>
    simpa [cutAll_some lf parts, silent, dispatch] using ih
  | case4 buffer frame rest parts shorter e given ih =>
    simpa [cutAll_some lf parts, given, dispatch] using ih

structure Reads (text : Units) (events : List SseEvent) (p : SseParser) : Prop where
  told : dispatch ((cutAll lf (settled cr lf text)).1.map emit) = (events, p.finished)
  buffer : p.finished = false → p.buffer = (cutAll lf (settled cr lf text)).2
  pending : p.finished = false → p.pendingCr = held cr text

theorem reads_fresh : Reads [] [] fresh := by
  have empty : cutAll lf (settled cr lf ([] : Units)) = ([], []) := cutAll_none lf rfl
  refine ⟨?_, fun _ => ?_, fun _ => rfl⟩
  · rw [empty]; rfl
  · rw [empty]; rfl

theorem append_reads {text : Units} {p : SseParser} (pending : p.pendingCr = held cr text) (c : UInt16)
    (rest : Units) : ∃ more, settled cr lf (text ++ c :: rest) = settled cr lf text ++ more ∧
      (p.append (c :: rest)).buffer = p.buffer ++ more ∧
      (p.append (c :: rest)).pendingCr = held cr (text ++ c :: rest) := by
  have grown := settled_append cr_ne_lf text c rest
  refine ⟨_, grown, ?_⟩
  rw [held_append]
  simp only [append, pending]
  cases ends : held cr text with
  | false =>
    simp [settled, withoutHeld, held]
  | true =>
    by_cases pair : c = lf
    next =>
      subst pair
      cases rest <;> simp [settled, withoutHeld, held, cr_ne_lf.symm]
    next => simp [settled, withoutHeld, held, pair]

-- The frames that more text completes come after those that are complete already.
theorem Reads.told_more {text : Units} {events : List SseEvent} {p : SseParser} (reads : Reads text events p)
    (more : Units) : dispatch ((cutAll lf (settled cr lf text ++ more)).1.map emit) =
      followed (events, p.finished)
        (dispatch ((cutAll lf ((cutAll lf (settled cr lf text)).2 ++ more)).1.map emit)) := by
  rw [cutAll_append, List.map_append, dispatch_append, reads.told]

theorem push_reads {text : Units} {events : List SseEvent} {p : SseParser}
    (reads : Reads text events p) (chunk : Units) :
    Reads (text ++ chunk) (events ++ (p.push chunk).1) (p.push chunk).2 := by
  cases chunk with
  | nil => simpa [push] using reads
  | cons c rest =>
    cases ended : p.finished with
    | true =>
      have same : p.push (c :: rest) = ([], p) := by simp [push, ended]
      have grown := settled_append cr_ne_lf text c rest
      rw [same, List.append_nil]
      refine ⟨?_, fun still => ?_, fun still => ?_⟩
      · rw [grown, reads.told_more, ended]
        rfl
      · rw [ended] at still; cases still
      · rw [ended] at still; cases still
    | false =>
      obtain ⟨more, grown, buffer, pending⟩ := append_reads (reads.pending ended) c rest
      have told := reads.told_more more
      have drained := drain_eq (p.append (c :: rest)).buffer
      rw [buffer, reads.buffer ended] at drained
      have pushed : p.push (c :: rest) = ((drain (p.append (c :: rest)).buffer).1,
          { p.append (c :: rest) with
            buffer := (drain (p.append (c :: rest)).buffer).2.2
            finished := (drain (p.append (c :: rest)).buffer).2.1 }) := by
        simp [push, ended]
      rw [pushed, buffer, reads.buffer ended]
      refine ⟨?_, ?_, fun _ => pending⟩
      · rw [grown, told, ended, drained.1, drained.2.1]
        rfl
      · intro still
        rw [grown, cutAll_append]
        exact drained.2.2 still

theorem pushAll_reads {text : Units} {events : List SseEvent} {p : SseParser}
    (reads : Reads text events p) (chunks : List Units) :
    Reads (text ++ chunks.flatten) (events ++ (p.pushAll chunks).1) (p.pushAll chunks).2 := by
  induction chunks generalizing text events p with
  | nil => simpa [pushAll] using reads
  | cons chunk rest ih =>
    have later := ih (push_reads reads chunk)
    simpa [pushAll, List.append_assoc] using later

theorem trim_empty {text : Units} (empty : (trim text).length = 0) :
    ∀ unit ∈ text, isWhitespace unit = true := by
  have none : (text.dropWhile isWhitespace).reverse.dropWhile isWhitespace = [] := by
    simpa [trim] using empty
  intro unit member
  by_contra solid
  have kept : unit ∈ (text.dropWhile isWhitespace).reverse := by
    rw [List.mem_reverse]
    rw [← List.takeWhile_append_dropWhile (p := isWhitespace) (l := text), List.mem_append] at member
    exact member.resolve_left fun front => solid (List.mem_takeWhile_imp front)
  exact solid (List.dropWhile_eq_nil_iff.mp none unit kept)

theorem add_whitespace (fields : Fields) (l : Units) (empty : ∀ unit ∈ l, isWhitespace unit = true) :
    (fields.add l).dataLines = fields.dataLines := by
  have other : l.takeWhile (· ≠ colon) ≠ units "data" := by
    intro same
    have letter : (100 : UInt16) ∈ l.takeWhile (· ≠ colon) := by rw [same]; decide
    have white := empty _ ((List.takeWhile_sublist _).subset letter)
    revert white
    decide
  simp only [Fields.add, if_neg other]
  split_ifs <;> rfl

theorem emit_whitespace (text : Units) (empty : (trim text).length = 0) : emit text = .nothing := by
  have white := trim_empty empty
  have kept (ls : List Units) (fields : Fields)
      (inside : ∀ l ∈ ls, ∀ unit ∈ l, isWhitespace unit = true) :
      (ls.foldl Fields.add fields).dataLines = fields.dataLines := by
    induction ls generalizing fields with
    | nil => rfl
    | cons l rest ih =>
      rw [List.foldl_cons, ih _ fun m member => inside m (List.mem_cons_of_mem _ member)]
      exact add_whitespace fields l (inside l List.mem_cons_self)
  have fields := kept (lines lf text) .none fun l member unit inside =>
    white unit (mem_of_mem_lines lf member unit inside)
  rw [emit, frameOf, fields]
  rfl

-- A withheld carriage return and a frame of white space make no difference to the last frame.
theorem flush_open (p : SseParser) (ended : p.finished = false) : p.flush =
    match emit p.buffer with
    | .done => ([], ⟨[], false, true⟩)
    | .nothing => ([], ⟨[], false, false⟩)
    | .event e => ([e], ⟨[], false, false⟩) := by
  have same : emit (if p.pendingCr then p.buffer ++ [lf] else p.buffer) = emit p.buffer := by
    split
    next => exact emit_concat_lf _
    next => rfl
  rw [flush, ended, ← same]
  generalize (if p.pendingCr then p.buffer ++ [lf] else p.buffer) = rest
  simp only [Bool.false_eq_true, if_false]
  split
  next empty => rw [emit_whitespace rest empty]
  next => rfl

theorem flush_reads {text : Units} {events : List SseEvent} {p : SseParser}
    (reads : Reads text events p) : (events ++ p.flush.1, p.flush.2.finished) = eventsOf text := by
  have spec : eventsOf text = followed (events, p.finished)
      (dispatch [emit (cutAll lf (settled cr lf text)).2]) := by
    have whole : eventsOf text = meaning (settled cr lf text) := by
      rw [eventsOf, unify_settled cr_ne_lf text, ← meaning]
      split
      next => exact meaning_concat_lf _
      next => rw [List.append_nil]
    rw [whole, meaning_cutAll, reads.told]
  rw [spec]
  cases ended : p.finished with
  | true => simp [flush, followed, ended]
  | false =>
    rw [flush_open p ended, ← reads.buffer ended]
    cases emit p.buffer <;> simp [dispatch, followed]

-- Whatever was flushed, nothing is left for a second time.
theorem flush_flush (p : SseParser) : p.flush.2.flush = ([], p.flush.2) := by
  cases ended : p.finished with
  | true =>
    have same : p.flush = ([], p) := by rw [flush, if_pos ended]
    rw [same, same]
  | false =>
    rw [flush_open p ended]
    cases emit p.buffer <;> rfl

theorem pushAll_fresh (chunks : List Units) :
    Reads chunks.flatten (fresh.pushAll chunks).1 (fresh.pushAll chunks).2 := by
  simpa using pushAll_reads reads_fresh chunks

end SseParser

theorem chunks_do_not_matter (chunks : List Units) :
    let whole := SseParser.parseAll [chunks.flatten]
    (SseParser.parseAll chunks).1 = whole.1 ∧
    (SseParser.parseAll chunks).2.finished = whole.2.finished ∧
    (SseParser.parseAll chunks).1 = (eventsOf chunks.flatten).1 ∧
    (SseParser.parseAll chunks).2.finished = (eventsOf chunks.flatten).2 ∧
    ((SseParser.fresh.pushAll chunks).2.finished =
      (SseParser.fresh.push chunks.flatten).2.finished) ∧
    ∀ p : SseParser, p.flush.2.flush = ([], p.flush.2) := by
  have parts := SseParser.flush_reads (SseParser.pushAll_fresh chunks)
  have once := SseParser.flush_reads (SseParser.pushAll_fresh [chunks.flatten])
  rw [show [chunks.flatten].flatten = chunks.flatten from List.append_nil _] at once
  have told := (SseParser.pushAll_fresh chunks).told
  have toldOnce := (SseParser.pushAll_fresh [chunks.flatten]).told
  rw [show [chunks.flatten].flatten = chunks.flatten from List.append_nil _, told] at toldOnce
  have events := congrArg Prod.fst (parts.trans once.symm)
  have finished := congrArg Prod.snd (parts.trans once.symm)
  exact ⟨events, finished, congrArg Prod.fst parts, congrArg Prod.snd parts,
    congrArg Prod.snd toldOnce, SseParser.flush_flush⟩

end X402Mesh.NodeDaemon.Sse
