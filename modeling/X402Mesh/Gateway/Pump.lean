import X402Mesh.Gateway.Router
import X402Mesh.Lib.EventStream

set_option autoImplicit false

namespace X402Mesh.Gateway.Pump

open EventStream Router Utf8

inductive Write
  | copied (value : List UInt8)
  | done
  deriving DecidableEq

def frameLine : List Char := "data: [DONE]".toList

def doneBytes : List UInt8 := Decoder.ascii doneFrame.toList

def Write.bytes : Write → List UInt8
  | .copied value => value
  | .done => doneBytes

def close (tail : List Nat) : List Write := if doneMark <:+: tail then [] else [.done]

-- What the sink is given from here on, in order, when the loop ends without an error.
def copyBytes (broke : Option Thrown) :
    List (List UInt8) → Nat → Decoder → List Nat → Except Thrown (List Write)
  | [], _, _, tail =>
    match broke with
    | some error => .error error
    | none => .ok (close tail)
  | value :: rest, forwarded, decoder, tail =>
    if forwarded + value.length > maxStreamBodyBytes then .ok (close tail)
    else
      (copyBytes broke rest (forwarded + value.length) (decoder.decode value).1
        (tailOf (tail ++ units (decoder.decode value).2))).map (.copied value :: ·)

def pumpBytes (broke : Option Thrown) (chunks : List (List UInt8)) : Except Thrown (List Write) :=
  copyBytes broke chunks 0 .init []

def onWire (written : List Write) : List UInt8 := written.flatMap Write.bytes

def decoded : Decoder → List (List UInt8) → List Chunk
  | _, [] => []
  | d, value :: rest =>
    ⟨value.length, String.ofList (d.decode value).2⟩ :: decoded (d.decode value).1 rest

section

variable {S : Type} (sink : StreamSink S)

def Write.apply (w : Write) (d : Decoder) (t : TrackedSink S) : TrackedSink S :=
  match w with
  | .copied value => t.write sink (String.ofList (d.decode value).2)
  | .done => t.write sink doneFrame

def applyAll : List Write → Decoder → TrackedSink S → TrackedSink S
  | [], _, t => t
  | w :: rest, d, t => applyAll rest (d.decode w.bytes).1 (w.apply sink d t)

theorem copyBytes_router (broke : Option Thrown) (chunks : List (List UInt8)) (forwarded : Nat)
    (d : Decoder) (tail : List Nat) (t : TrackedSink S) :
    match copyBytes broke chunks forwarded d tail with
    | .error error => (copyChunks sink broke (decoded d chunks) forwarded tail t).1 = .error error
    | .ok out =>
      copyChunks sink broke (decoded d chunks) forwarded tail t = (.ok (), applyAll sink out d t) := by
  have closing (d : Decoder) (tail : List Nat) (t : TrackedSink S) :
      closeFrames sink t tail = applyAll sink (close tail) d t := by
    unfold close closeFrames
    split <;> rfl
  induction chunks generalizing forwarded d tail t with
  | nil =>
    cases broke with
    | some error => rfl
    | none => exact congrArg _ (closing d tail t)
  | cons value rest ih =>
    by_cases past : forwarded + value.length > maxStreamBodyBytes
    · simp only [copyBytes, decoded, copyChunks, if_pos past]
      exact congrArg _ (closing d tail t)
    · have later := ih (forwarded + value.length) (d.decode value).1
        (tailOf (tail ++ units (d.decode value).2))
        (t.write sink (String.ofList (d.decode value).2))
      simp only [copyBytes, decoded, copyChunks, if_neg past, String.toList_ofList]
      cases outcome : copyBytes broke rest (forwarded + value.length) (d.decode value).1
          (tailOf (tail ++ units (d.decode value).2)) with
      | error error =>
        rw [outcome] at later
        exact later
      | ok out =>
        rw [outcome] at later
        exact later

theorem pumpBytes_router (broke : Option Thrown) (chunks : List (List UInt8)) (rest : String)
    (contentType : Option String) (nodeId : String) (t : TrackedSink S) (out : List Write)
    (pumped : pumpBytes broke chunks = .ok out) :
    pumpStream sink contentType (some ⟨decoded .init chunks, broke, rest⟩) nodeId t =
      (.ok (), (applyAll sink out .init
        (t.start sink (contentType.getD "text/event-stream"))).finish sink) := by
  have copied := copyBytes_router sink broke chunks 0 .init []
    (t.start sink (contentType.getD "text/event-stream"))
  rw [show copyBytes broke chunks 0 .init [] = .ok out from pumped] at copied
  simp only [pumpStream, copied]

end

def forwardedOf : Nat → List (List UInt8) → List (List UInt8)
  | _, [] => []
  | forwarded, value :: rest =>
    if forwarded + value.length > maxStreamBodyBytes then []
    else value :: forwardedOf (forwarded + value.length) rest

def forwarded (chunks : List (List UInt8)) : List UInt8 := (forwardedOf 0 chunks).flatten

-- What the loop looks at once all is read.
def marked (bytes : List UInt8) : Prop := doneMark <:+: tailOf (units (text bytes))

instance (bytes : List UInt8) : Decidable (marked bytes) :=
  inferInstanceAs (Decidable (doneMark <:+: tailOf (units (text bytes))))

-- The decoder and the tail are those of all that has been forwarded.
theorem copyBytes_ok (broke : Option Thrown) (chunks : List (List UInt8)) (count : Nat)
    (past : List UInt8) (out : List Write)
    (copied : copyBytes broke chunks count (Decoder.init.decode past).1 (tailOf (units (text past))) =
      .ok out) :
    out = (forwardedOf count chunks).map .copied ++
      close (tailOf (units (text (past ++ (forwardedOf count chunks).flatten)))) := by
  induction chunks generalizing count past out with
  | nil =>
    cases broke with
    | some error => cases copied
    | none =>
      simp only [copyBytes, Except.ok.injEq] at copied
      simpa [forwardedOf] using copied.symm
  | cons value rest ih =>
    simp only [copyBytes] at copied
    simp only [forwardedOf]
    split at copied
    next beyond =>
      rw [if_pos beyond]
      simpa using (Except.ok.inj copied).symm
    next under =>
      rw [if_neg under]
      have decoder : ((Decoder.init.decode past).1.decode value).1 =
          (Decoder.init.decode (past ++ value)).1 := by rw [Decoder.decode_append]
      have tail : tailOf (tailOf (units (text past)) ++
          units ((Decoder.init.decode past).1.decode value).2) =
            tailOf (units (text (past ++ value))) := by
        rw [tailOf_append, ← units_append, text_append]
      rw [decoder, tail] at copied
      cases outcome : copyBytes broke rest (count + value.length)
          (Decoder.init.decode (past ++ value)).1 (tailOf (units (text (past ++ value)))) with
      | error error =>
        rw [outcome] at copied
        cases copied
      | ok more =>
        rw [outcome] at copied
        obtain rfl := Except.ok.inj copied
        rw [ih _ (past ++ value) more outcome]
        simp

theorem pumpBytes_ok (broke : Option Thrown) (chunks : List (List UInt8)) (out : List Write)
    (pumped : pumpBytes broke chunks = .ok out) :
    out = (forwardedOf 0 chunks).map .copied ++
      if marked (forwarded chunks) then [] else [.done] :=
  copyBytes_ok broke chunks 0 [] out pumped

theorem onWire_eq (broke : Option Thrown) (chunks : List (List UInt8)) (out : List Write)
    (pumped : pumpBytes broke chunks = .ok out) :
    onWire out = forwarded chunks ++ if marked (forwarded chunks) then [] else doneBytes := by
  rw [pumpBytes_ok broke chunks out pumped, onWire, List.flatMap_append]
  congr 1
  · rw [List.flatMap_map]
    exact List.flatMap_id
  · split <;> simp [Write.bytes]

theorem done_mem (broke : Option Thrown) (chunks : List (List UInt8)) (out : List Write)
    (pumped : pumpBytes broke chunks = .ok out) :
    .done ∈ out ↔ ¬ marked (forwarded chunks) := by
  rw [pumpBytes_ok broke chunks out pumped]
  split <;> simp [*]

theorem forwardedOf_front (count : Nat) (chunks : List (List UInt8)) :
    (forwardedOf count chunks).flatten <+: chunks.flatten := by
  induction chunks generalizing count with
  | nil => exact List.prefix_rfl
  | cons value rest ih =>
    simp only [forwardedOf]
    split
    next => exact List.nil_prefix
    next =>
      rw [List.flatten_cons, List.flatten_cons]
      exact (List.prefix_append_right_inj value).mpr (ih _)

theorem forwardedOf_all (count : Nat) (chunks : List (List UInt8))
    (fits : count + chunks.flatten.length ≤ maxStreamBodyBytes) :
    (forwardedOf count chunks).flatten = chunks.flatten := by
  induction chunks generalizing count with
  | nil => rfl
  | cons value rest ih =>
    rw [List.flatten_cons, List.length_append] at fits
    rw [forwardedOf, if_neg (by omega), List.flatten_cons, List.flatten_cons, ih _ (by omega)]

theorem forwardedOf_length (count : Nat) (chunks : List (List UInt8))
    (within : count ≤ maxStreamBodyBytes) :
    count + (forwardedOf count chunks).flatten.length ≤ maxStreamBodyBytes := by
  induction chunks generalizing count with
  | nil => simpa [forwardedOf] using within
  | cons value rest ih =>
    simp only [forwardedOf]
    split
    next => simpa using within
    next under =>
      have later := ih (count + value.length) (by omega)
      rw [List.flatten_cons, List.length_append]
      omega

theorem forwarded_all {chunks : List (List UInt8)}
    (fits : chunks.flatten.length ≤ maxStreamBodyBytes) : forwarded chunks = chunks.flatten :=
  forwardedOf_all 0 chunks (by omega)

theorem forwarded_take (chunks : List (List UInt8)) :
    forwarded chunks <+: chunks.flatten.take maxStreamBodyBytes := by
  have length := forwardedOf_length 0 chunks (Nat.zero_le _)
  rw [Nat.zero_add] at length
  exact List.prefix_take_iff.mpr ⟨forwardedOf_front 0 chunks, length⟩

def eventsOf (bytes : List UInt8) : List Event := events (text bytes)

def doneData : List Char := "[DONE]".toList

def endsDone (es : List Event) : Bool := es.getLast?.map (·.data) = some doneData

-- The events in front of a closing one.
def kept (es : List Event) : List Event := if endsDone es then es.dropLast else es

/-- The client reads the node's events and one closing event, which is the node's own where its
stream ends with one; and the same bytes in other chunks are closed the same way. -/
structure Terminated (broke : Option Thrown) (chunks : List (List UInt8)) (out : List Write) :
    Prop where
  closes : ∃ last : Event, last.data = doneData ∧
    eventsOf (onWire out) = kept (eventsOf chunks.flatten) ++ [last]
  steady : ∀ others out', others.flatten = chunks.flatten → pumpBytes broke others = .ok out' →
    (.done ∈ out' ↔ .done ∈ out)

-- The reader behind the bytes, and the line that it has not seen the end of.
def unfinished (bytes : List UInt8) : Reader := Reader.init.readAll (text bytes)

def openLine (bytes : List UInt8) : List Char :=
  (unfinished bytes).line ++ (Decoder.init.decode bytes).1.broken

-- A line that stays no data line with more text behind it.
def swallows (line : List Char) : Prop := line ≠ [] ∧ ¬ "data:".toList <+: line

structure Closing (bytes : List UInt8) : Prop where
  left : marked bytes → endsDone (eventsOf bytes) = true
  added : ¬ marked bytes →
    ((unfinished bytes).data = [] ∧ openLine bytes = [] ∧ endsDone (eventsOf bytes) = false) ∨
    (swallows (openLine bytes) ∧
      (((unfinished bytes).data = [] ∧ endsDone (eventsOf bytes) = true) ∨
        ((unfinished bytes).data = [doneData] ∧ endsDone (eventsOf bytes) = false)))

structure WellEnded (chunks : List (List UInt8)) : Prop where
  capped : chunks.flatten.length ≤ maxStreamBodyBytes ∨
    ¬ doneMark <:+: units (text (chunks.flatten.take maxStreamBodyBytes))
  dropped : kept (eventsOf (forwarded chunks)) = kept (eventsOf chunks.flatten)
  closing : Closing (forwarded chunks)

theorem units_infix {a b : List Char} (inside : a <:+: b) : units a <:+: units b := by
  obtain ⟨front, back, rfl⟩ := inside
  rw [units_append, units_append]
  exact List.infix_append _ _ _

theorem marker_of_endsDone (bytes : List UInt8) (ends : endsDone (eventsOf bytes) = true) :
    doneMark <:+: units (text bytes) := by
  simp only [endsDone, decide_eq_true_eq, Option.map_eq_some_iff] at ends
  obtain ⟨e, last, data⟩ := ends
  have free : '\n' ∉ e.data := by
    rw [data]
    decide
  have inside := events_infix (List.mem_of_getLast? last) free
  rw [data] at inside
  exact units_infix inside

theorem marker_of_marked {bytes : List UInt8} (mark : marked bytes) :
    doneMark <:+: units (text bytes) :=
  mark.trans (List.drop_suffix _ _).isInfix

-- A marker in the text is in the last characters at the byte that completes it.
theorem marked_take (bytes : List UInt8) (inside : doneMark <:+: units (text bytes)) :
    ∃ k ≤ bytes.length, marked (bytes.take k) := by
  induction bytes using List.reverseRecOn with
  | nil => exact absurd inside (by decide)
  | append_singleton bytes b ih =>
    by_cases earlier : doneMark <:+: units (text bytes)
    · obtain ⟨k, bound, mark⟩ := ih earlier
      refine ⟨k, by simp; omega, ?_⟩
      rwa [List.take_append_of_le_length bound]
    · refine ⟨(bytes ++ [b]).length, Nat.le_refl _, ?_⟩
      rw [List.take_length]
      obtain ⟨front, back, whole⟩ := inside
      have new : text (bytes ++ [b]) = text bytes ++ ((Decoder.init.decode bytes).1.step b).2 := by
        rw [text_append, Decoder.decode, Decoder.decode, List.append_nil]
      have few : (units ((Decoder.init.decode bytes).1.step b).2).length ≤ 4 := by
        have chars := (Decoder.init.decode bytes).1.length_step b
        have twice := length_units ((Decoder.init.decode bytes).1.step b).2
        omega
      have short : back.length < 4 := by
        by_contra long
        have split : front ++ doneMark ++ back = units (text bytes) ++
            units ((Decoder.init.decode bytes).1.step b).2 := by rw [whole, new, units_append]
        have lengths := congrArg List.length split
        have before : front ++ doneMark <+: units (text bytes) := by
          apply List.prefix_of_prefix_length_le (List.prefix_append _ back)
          · rw [split]
            exact List.prefix_append _ _
          · simp only [List.length_append] at lengths ⊢
            omega
        exact earlier ((List.suffix_append front doneMark).isInfix.trans before.isInfix)
      rw [marked, ← whole, tailOf]
      have size : doneMark.length = 6 := rfl
      have cut : (front ++ doneMark ++ back).length - 64 ≤ front.length := by
        simp only [List.length_append, size]
        omega
      rw [List.append_assoc, List.drop_append_of_le_length (by rwa [← List.append_assoc]),
        ← List.append_assoc]
      exact List.infix_append _ _ _

theorem dataOf_nil : dataOf frameLine = [doneData] := by
  decide

theorem dataOf_data {line : List Char} (field : "data:".toList <+: line) :
    ∃ value, dataOf (line ++ frameLine) = [value] ∧ value ≠ doneData := by
  obtain ⟨rest, rfl⟩ := field
  have name : (fieldOf ("data:".toList ++ rest ++ frameLine)).1 = "data".toList := rfl
  refine ⟨_, if_pos name, ?_⟩
  intro same
  have length := congrArg List.length same
  have size : frameLine.length = 12 := rfl
  have short : doneData.length = 6 := rfl
  have value : (("data:".toList ++ rest ++ frameLine).dropWhile (· ≠ ':')).drop 1 =
      rest ++ frameLine := rfl
  simp only [fieldOf, value] at length
  split at length
  next => simp [size, short] at length
  next => simp [size, short] at length

theorem dataOf_swallowed {line : List Char} (swallowed : swallows line) :
    dataOf (line ++ frameLine) = [] := by
  apply if_neg
  intro name
  have front : (line ++ frameLine).takeWhile (· ≠ ':') = "data".toList := name
  by_cases colon : ':' ∈ line
  · obtain ⟨a, b, rfl, free⟩ := List.eq_append_cons_of_mem colon
    have plain : ∀ c ∈ a, decide (c ≠ ':') = true := fun c member =>
      decide_eq_true fun same => free (same ▸ member)
    rw [List.append_assoc, List.takeWhile_append_of_pos plain, List.cons_append,
      List.takeWhile_cons_of_neg (by simp), List.append_nil] at front
    apply swallowed.2
    rw [front]
    exact ⟨b, rfl⟩
  · have plain : ∀ c ∈ line, decide (c ≠ ':') = true := fun c member =>
      decide_eq_true fun same => colon (same ▸ member)
    have rest : frameLine.takeWhile (· ≠ ':') = "data".toList := by decide
    rw [List.takeWhile_append_of_pos plain, rest] at front
    exact swallowed.1 (by simpa using front)

theorem closing_iff (bytes : List UInt8) (lines : List (List Char))
    (whole : lines = (unfinished bytes).data ++ dataOf (openLine bytes ++ frameLine)) (last : Bool) :
    ((lines = [doneData] ∧ last = false) ∨ (lines = [] ∧ last = true)) ↔
      (((unfinished bytes).data = [] ∧ openLine bytes = [] ∧ last = false) ∨
        (swallows (openLine bytes) ∧
          (((unfinished bytes).data = [] ∧ last = true) ∨
            ((unfinished bytes).data = [doneData] ∧ last = false)))) := by
  by_cases empty : openLine bytes = []
  · have silent : ¬ swallows [] := fun swallowed => swallowed.1 rfl
    rw [empty, List.nil_append, dataOf_nil] at whole
    have single : lines = [doneData] ↔ (unfinished bytes).data = [] := by
      rw [whole]
      simp
    have some : lines ≠ [] := by simp [whole]
    simp only [single, some, silent, empty, false_and, or_false, true_and]
  by_cases field : "data:".toList <+: openLine bytes
  · have silent : ¬ swallows (openLine bytes) := fun swallowed => swallowed.2 field
    obtain ⟨value, added, other⟩ := dataOf_data field
    rw [added] at whole
    have never : lines ≠ [doneData] := by
      intro single
      rw [single] at whole
      have last := congrArg List.getLast? whole
      simp at last
      exact other last.symm
    have some : lines ≠ [] := by simp [whole]
    simp [never, some, empty, silent]
  · have swallowed : swallows (openLine bytes) := ⟨empty, field⟩
    rw [dataOf_swallowed swallowed, List.append_nil] at whole
    simp only [whole, empty, swallowed, false_and, and_false, false_or, true_and]
    exact Or.comm

theorem text_closed (bytes : List UInt8) :
    text (bytes ++ doneBytes) =
      text bytes ++ ((Decoder.init.decode bytes).1.broken ++ frameLine ++ ['\n', '\n']) := by
  have plain : ∀ c ∈ doneFrame.toList, c.toNat < 128 := Joined.forall_of_all (by decide)
  rw [text_append, List.append_assoc]
  exact congrArg _ (Decoder.decode_ascii _ 'd' _ plain)

theorem eventsOf_closed (bytes : List UInt8) :
    ∃ name id, eventsOf (bytes ++ doneBytes) =
      let lines := (unfinished bytes).data ++ dataOf (openLine bytes ++ frameLine)
      if lines = [] then eventsOf bytes
      else eventsOf bytes ++ [⟨['\n'].intercalate lines, name, id⟩] := by
  have plain : ∀ c ∈ (Decoder.init.decode bytes).1.broken ++ frameLine, c ≠ '\n' ∧ c ≠ '\r' := by
    unfold Decoder.broken
    split <;> exact Joined.forall_of_all (by decide)
  have start : (Decoder.init.decode bytes).1.broken ++ frameLine ≠ [] :=
    List.append_ne_nil_of_right_ne_nil _ (by decide)
  obtain ⟨c, cs, shape⟩ := List.exists_cons_of_ne_nil start
  rw [shape] at plain
  obtain ⟨name, id, read⟩ := (unfinished bytes).readAll_frame c cs plain
  refine ⟨name, id, ?_⟩
  rw [← shape, ← List.append_assoc (unfinished bytes).line] at read
  rw [eventsOf, events, text_closed, Reader.readAll_append]
  exact read

theorem intercalate_done {lines : List (List Char)} (some : lines ≠ []) :
    ['\n'].intercalate lines = doneData ↔ lines = [doneData] := by
  constructor
  · intro same
    exact Joined.intercalate_free (by decide) some same
  · intro single
    rw [single, List.intercalate_singleton]

theorem kept_append (es : List Event) (last : Event) (done : last.data = doneData) :
    kept (es ++ [last]) = es := by
  simp [kept, endsDone, done]

theorem kept_of_endsDone {es : List Event} (ends : endsDone es = true) :
    ∃ last : Event, last.data = doneData ∧ es = kept es ++ [last] := by
  have read := ends
  simp only [endsDone, decide_eq_true_eq, Option.map_eq_some_iff] at read
  obtain ⟨last, found, done⟩ := read
  refine ⟨last, done, ?_⟩
  rw [kept, if_pos ends]
  exact (List.dropLast_append_getLast? last found).symm

theorem kept_of_open {es : List Event} (ends : endsDone es = false) : kept es = es := by
  rw [kept, ends]
  rfl

-- Without a marker up to the cap, every way to cut a long stream has the frame added.
theorem unmarked {chunks : List (List UInt8)}
    (free : ¬ doneMark <:+: units (text (chunks.flatten.take maxStreamBodyBytes))) :
    ¬ doneMark <:+: units (text (forwarded chunks)) := by
  intro inside
  obtain ⟨more, whole⟩ := text_prefix (forwarded_take chunks)
  apply free
  rw [← whole, units_append]
  exact inside.trans (List.prefix_append _ _).isInfix

theorem pumpBytes_long (broke : Option Thrown) (chunks : List (List UInt8))
    (long : maxStreamBodyBytes < chunks.flatten.length) :
    ∃ out, pumpBytes broke chunks = .ok out := by
  have copies (chunks : List (List UInt8)) (count : Nat) (d : Decoder) (tail : List Nat)
      (within : count ≤ maxStreamBodyBytes)
      (long : maxStreamBodyBytes < count + chunks.flatten.length) :
      ∃ out, copyBytes broke chunks count d tail = .ok out := by
    induction chunks generalizing count d tail with
    | nil =>
      rw [List.flatten_nil, List.length_nil] at long
      omega
    | cons value rest ih =>
      rw [List.flatten_cons, List.length_append] at long
      simp only [copyBytes]
      split
      next => exact ⟨_, rfl⟩
      next under =>
        obtain ⟨out, copied⟩ := ih (count + value.length) (d.decode value).1
          (tailOf (tail ++ units (d.decode value).2)) (by omega) (by omega)
        exact ⟨.copied value :: out, by rw [copied]; rfl⟩
  exact copies chunks 0 .init [] (Nat.zero_le _) (by omega)

theorem steady_capped {broke : Option Thrown} {chunks : List (List UInt8)} {out : List Write}
    (steady : ∀ others out', others.flatten = chunks.flatten → pumpBytes broke others = .ok out' →
      (.done ∈ out' ↔ .done ∈ out)) :
    chunks.flatten.length ≤ maxStreamBodyBytes ∨
      ¬ doneMark <:+: units (text (chunks.flatten.take maxStreamBodyBytes)) := by
  generalize chunks.flatten = bytes at steady
  by_contra neither
  rw [not_or, not_not, not_le] at neither
  obtain ⟨long, inside⟩ := neither
  obtain ⟨k, bound, mark⟩ := marked_take _ inside
  rw [List.length_take] at bound
  rw [List.take_take, Nat.min_eq_left (by omega)] at mark
  -- One cut leaves the marker at the end of what is forwarded, the other forwards nothing.
  have short : ¬ 0 + (bytes.take k).length > maxStreamBodyBytes := by
    rw [List.length_take]
    omega
  have beyond : 0 + (bytes.take k).length + (bytes.drop k).length > maxStreamBodyBytes := by
    rw [List.length_take, List.length_drop]
    omega
  have front : forwarded [bytes.take k, bytes.drop k] = bytes.take k := by
    rw [forwarded, forwardedOf, if_neg short, forwardedOf, if_pos beyond]
    simp
  have nothing : forwarded [bytes] = [] := by
    rw [forwarded, forwardedOf, if_pos (by omega)]
    rfl
  obtain ⟨left, pumpedLeft⟩ := pumpBytes_long broke [bytes.take k, bytes.drop k] (by simpa using long)
  obtain ⟨whole, pumpedWhole⟩ := pumpBytes_long broke [bytes] (by simpa using long)
  have same := (steady _ left (by simp) pumpedLeft).trans
    (steady _ whole (by simp) pumpedWhole).symm
  rw [done_mem broke _ _ pumpedLeft, done_mem broke _ _ pumpedWhole, front, nothing] at same
  exact same.mpr (by decide) mark

theorem closed_unmarked {broke : Option Thrown} {chunks : List (List UInt8)} {out : List Write}
    (pumped : pumpBytes broke chunks = .ok out) (mark : ¬ marked (forwarded chunks)) :
    ∃ name id, eventsOf (onWire out) =
      let bytes := forwarded chunks
      let lines := (unfinished bytes).data ++ dataOf (openLine bytes ++ frameLine)
      if lines = [] then eventsOf bytes
      else eventsOf bytes ++ [⟨['\n'].intercalate lines, name, id⟩] := by
  rw [onWire_eq broke chunks out pumped, if_neg mark]
  exact eventsOf_closed (forwarded chunks)

theorem WellEnded.of_terminated {broke : Option Thrown} {chunks : List (List UInt8)}
    {out : List Write} (pumped : pumpBytes broke chunks = .ok out)
    (terminated : Terminated broke chunks out) : WellEnded chunks := by
  have capped := steady_capped terminated.steady
  -- What is forwarded of a stream past the cap has no event that closes it.
  have whole : forwarded chunks = chunks.flatten ∨
      ¬ marked (forwarded chunks) ∧ endsDone (eventsOf (forwarded chunks)) = false := by
    obtain fits | free := capped
    · exact .inl (forwarded_all fits)
    · right
      have none := unmarked free
      refine ⟨fun mark => none (marker_of_marked mark), ?_⟩
      rw [Bool.eq_false_iff]
      exact fun ends => none (marker_of_endsDone _ ends)
  obtain ⟨last, done, closes⟩ := terminated.closes
  by_cases mark : marked (forwarded chunks)
  · obtain all | ⟨free, -⟩ := whole
    · rw [onWire_eq broke chunks out pumped, if_pos mark, List.append_nil, all] at closes
      refine ⟨capped, by rw [all], ⟨fun _ => ?_, fun other => absurd mark other⟩⟩
      rw [all, closes]
      simp [endsDone, done]
    · exact absurd mark free
  · obtain ⟨name, id, added⟩ := closed_unmarked pumped mark
    simp only [closes] at added
    generalize lines : (unfinished (forwarded chunks)).data ++
      dataOf (openLine (forwarded chunks) ++ frameLine) = parts at added
    have dropped : kept (eventsOf (forwarded chunks)) = kept (eventsOf chunks.flatten) ∧
        ((parts = [doneData] ∧ endsDone (eventsOf (forwarded chunks)) = false) ∨
          (parts = [] ∧ endsDone (eventsOf (forwarded chunks)) = true)) := by
      split at added
      next empty =>
        have ends : endsDone (eventsOf (forwarded chunks)) = true := by
          rw [← added]
          simp [endsDone, done]
        refine ⟨?_, .inr ⟨empty, ends⟩⟩
        rw [← added, kept_append _ _ done]
      next some =>
        obtain ⟨front, single⟩ := List.append_inj' added rfl
        have data := congrArg Event.data (List.singleton_inj.mp single)
        rw [done] at data
        have one := (intercalate_done some).mp data.symm
        have ends : endsDone (eventsOf (forwarded chunks)) = false := by
          obtain all | ⟨-, ends⟩ := whole
          · rw [Bool.eq_false_iff]
            intro ends
            obtain ⟨own, -, same⟩ := kept_of_endsDone ends
            rw [all] at front same
            have lengths := congrArg List.length same
            rw [List.length_append, front] at lengths
            simp at lengths
          · exact ends
        refine ⟨?_, .inl ⟨one, ends⟩⟩
        rw [kept_of_open ends, front]
    refine ⟨capped, dropped.1, ⟨fun other => absurd other mark, fun _ => ?_⟩⟩
    exact (closing_iff _ parts lines.symm _).mp dropped.2

theorem Terminated.of_wellEnded {broke : Option Thrown} {chunks : List (List UInt8)}
    {out : List Write} (pumped : pumpBytes broke chunks = .ok out)
    (ended : WellEnded chunks) : Terminated broke chunks out := by
  constructor
  · by_cases mark : marked (forwarded chunks)
    · have all : forwarded chunks = chunks.flatten := by
        obtain fits | free := ended.capped
        · exact forwarded_all fits
        · exact absurd (marker_of_marked mark) (unmarked free)
      obtain ⟨last, done, same⟩ := kept_of_endsDone (ended.closing.left mark)
      refine ⟨last, done, ?_⟩
      rw [onWire_eq broke chunks out pumped, if_pos mark, List.append_nil, same, ended.dropped]
    · obtain ⟨name, id, added⟩ := closed_unmarked pumped mark
      simp only at added
      generalize lines : (unfinished (forwarded chunks)).data ++
        dataOf (openLine (forwarded chunks) ++ frameLine) = parts at added
      obtain ⟨one, ends⟩ | ⟨empty, ends⟩ :=
        (closing_iff _ parts lines.symm _).mpr (ended.closing.added mark)
      · rw [if_neg (by simp [one])] at added
        refine ⟨⟨['\n'].intercalate parts, name, id⟩, (intercalate_done (by simp [one])).mpr one, ?_⟩
        rw [added, ← ended.dropped, kept_of_open ends]
      · rw [if_pos empty] at added
        obtain ⟨last, done, same⟩ := kept_of_endsDone ends
        refine ⟨last, done, ?_⟩
        rw [added, ← ended.dropped]
        exact same
  · intro others out' same pumped'
    rw [done_mem broke _ _ pumped', done_mem broke _ _ pumped]
    obtain fits | free := ended.capped
    · rw [forwarded_all fits, forwarded_all (by rwa [same]), same]
    · have here : ¬ marked (forwarded chunks) := fun mark => unmarked free (marker_of_marked mark)
      have there : ¬ marked (forwarded others) := fun mark =>
        unmarked (by rwa [same]) (marker_of_marked mark)
      simp [here, there]

theorem terminated_iff (broke : Option Thrown) (chunks : List (List UInt8)) (out : List Write)
    (pumped : pumpBytes broke chunks = .ok out) :
    Terminated broke chunks out ↔ WellEnded chunks :=
  ⟨.of_terminated pumped, .of_wellEnded pumped⟩

def helloBytes : List UInt8 := Decoder.ascii "data: \x7b\"text\":\"hi\"\x7d\n\n".toList

theorem terminated_iff_hello :
    Terminated none [helloBytes] [.copied helloBytes, .done] ↔ WellEnded [helloBytes] :=
  terminated_iff none [helloBytes] [.copied helloBytes, .done] (by rfl)

-- A completion about the marker itself, from a node that ends without closing its stream.
def quotedBytes : List UInt8 := Decoder.ascii "data: \x7b\"text\":\"[DONE]\"\x7d\n\n".toList

theorem quoted_unterminated :
    pumpBytes none [quotedBytes] = .ok [.copied quotedBytes] ∧
      ¬ Terminated none [quotedBytes] [.copied quotedBytes] := by
  have pumped : pumpBytes none [quotedBytes] = .ok [.copied quotedBytes] := by rfl
  refine ⟨pumped, fun terminated => ?_⟩
  have ended := WellEnded.of_terminated pumped terminated
  have all : forwarded [quotedBytes] = quotedBytes := by rfl
  have mark : marked quotedBytes := by decide
  have ends : endsDone (eventsOf quotedBytes) = false := by decide
  have left := ended.closing.left
  rw [all, ends] at left
  cases left mark

end X402Mesh.Gateway.Pump
