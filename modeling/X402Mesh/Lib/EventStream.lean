import X402Mesh.Lib.Joined

set_option autoImplicit false

namespace EventStream

structure Event where
  data : List Char
  name : Option (List Char)
  id : Option (List Char)
  deriving DecidableEq, Repr

structure Reader where
  line : List Char
  afterCr : Bool
  data : List (List Char)
  name : Option (List Char)
  id : Option (List Char)
  events : List Event
  deriving DecidableEq, Repr

-- A line up to its first colon, and what stands behind that and a blank.
def fieldOf (line : List Char) : List Char × List Char :=
  let value := (line.dropWhile (· ≠ ':')).drop 1
  (line.takeWhile (· ≠ ':'), if [' '].isPrefixOf value then value.drop 1 else value)

def dataOf (line : List Char) : List (List Char) :=
  if (fieldOf line).1 = "data".toList then [(fieldOf line).2] else []

namespace Reader

def init : Reader := ⟨[], false, [], none, none, []⟩

def absorb (r : Reader) : Reader :=
  let field := fieldOf r.line
  { r with
    line := []
    data := r.data ++ dataOf r.line
    name := if field.1 = "event".toList then some field.2 else r.name
    id := if field.1 = "id".toList then some field.2 else r.id }

def dispatch (r : Reader) : Reader :=
  { r with
    data := []
    name := none
    id := none
    events :=
      if r.data = [] then r.events
      else r.events ++ [⟨['\n'].intercalate r.data, r.name, r.id⟩] }

def endLine (r : Reader) : Reader := if r.line = [] then r.dispatch else r.absorb

def read (r : Reader) (c : Char) : Reader :=
  if c = '\n' ∧ r.afterCr then { r with afterCr := false }
  else if c = '\n' ∨ c = '\r' then { r.endLine with afterCr := c = '\r' }
  else { r with line := r.line ++ [c], afterCr := false }

def readAll (r : Reader) (text : List Char) : Reader := text.foldl read r

theorem readAll_append (r : Reader) (a b : List Char) :
    r.readAll (a ++ b) = (r.readAll a).readAll b := List.foldl_append

theorem readAll_plain (r : Reader) (c : Char) (cs : List Char)
    (plain : ∀ e ∈ c :: cs, e ≠ '\n' ∧ e ≠ '\r') :
    r.readAll (c :: cs) = { r with line := r.line ++ c :: cs, afterCr := false } := by
  induction cs generalizing r c with
  | nil =>
    have here := plain c List.mem_cons_self
    simp [readAll, read, here.1, here.2]
  | cons e rest ih =>
    have here := plain c List.mem_cons_self
    have first : r.read c = { r with line := r.line ++ [c], afterCr := false } := by
      simp [read, here.1, here.2]
    have later := ih (r.read c) e fun f member => plain f (List.mem_cons_of_mem _ member)
    rw [readAll, List.foldl_cons, ← readAll, later, first]
    simp

-- A line, and the empty line that completes the event.
theorem readAll_frame (r : Reader) (c : Char) (cs : List Char)
    (plain : ∀ e ∈ c :: cs, e ≠ '\n' ∧ e ≠ '\r') :
    ∃ name id, (r.readAll (c :: cs ++ ['\n', '\n'])).events =
      if r.data ++ dataOf (r.line ++ c :: cs) = [] then r.events
      else r.events ++
        [⟨['\n'].intercalate (r.data ++ dataOf (r.line ++ c :: cs)), name, id⟩] := by
  have line : r.line ++ c :: cs ≠ [] := by simp
  let whole : Reader := { r with line := r.line ++ c :: cs, afterCr := false }
  refine ⟨whole.absorb.name, whole.absorb.id, ?_⟩
  rw [readAll_append, readAll_plain r c cs plain]
  simp only [readAll, List.foldl_cons, List.foldl_nil, read, endLine, line, and_false,
    Bool.false_eq_true, true_or, if_true, if_false, absorb]
  rfl

end Reader

def events (text : List Char) : List Event := (Reader.init.readAll text).events

theorem dataOf_suffix {line value : List Char} (field : value ∈ dataOf line) : value <:+ line := by
  have behind : (line.dropWhile (· ≠ ':')).drop 1 <:+ line :=
    (List.drop_suffix _ _).trans (List.dropWhile_suffix _)
  simp only [dataOf] at field
  split at field
  next =>
    obtain rfl := List.mem_singleton.mp field
    simp only [fieldOf]
    split
    next => exact (List.drop_suffix _ _).trans behind
    next => exact behind
  next => cases field

structure Sound (text : List Char) (r : Reader) : Prop where
  line : r.line <:+ text
  start : r.afterCr = true → r.line = []
  data : ∀ value ∈ r.data, value <:+: text
  events : ∀ e ∈ r.events, '\n' ∉ e.data → e.data <:+: text

theorem Sound.read {text : List Char} {r : Reader} (sound : Sound text r) (c : Char) :
    Sound (text ++ [c]) (r.read c) := by
  have longer {cs : List Char} (inside : cs <:+: text) : cs <:+: text ++ [c] :=
    inside.trans (List.prefix_append _ _).isInfix
  have ended : Sound (text ++ [c]) r.endLine ∧ r.endLine.line = [] := by
    unfold Reader.endLine
    split
    next empty =>
      refine ⟨?_, empty⟩
      constructor
      · simp [Reader.dispatch, empty]
      · exact fun _ => empty
      · simp [Reader.dispatch]
      · intro e member free
        simp only [Reader.dispatch] at member
        split at member
        next => exact longer (sound.events e member free)
        next some =>
          rw [List.mem_append, List.mem_singleton] at member
          obtain before | rfl := member
          · exact longer (sound.events e before free)
          · have single := Joined.intercalate_free free some rfl
            exact longer (sound.data _ (by rw [single]; simp))
    next =>
      refine ⟨?_, rfl⟩
      constructor
      · exact List.nil_suffix
      · exact fun _ => rfl
      · intro value member
        rw [Reader.absorb, List.mem_append] at member
        obtain before | here := member
        · exact longer (sound.data value before)
        · exact longer ((dataOf_suffix here).trans sound.line).isInfix
      · exact fun e member free => longer (sound.events e member free)
  unfold Reader.read
  split
  next both =>
    have empty := sound.start both.2
    refine ⟨?_, fun _ => empty, fun value member => longer (sound.data value member),
      fun e member free => longer (sound.events e member free)⟩
    rw [empty]
    exact List.nil_suffix
  split
  next => exact ⟨ended.1.line, fun _ => ended.2, ended.1.data, ended.1.events⟩
  next =>
    refine ⟨?_, fun after => ?_, fun value member => longer (sound.data value member),
      fun e member free => longer (sound.events e member free)⟩
    · obtain ⟨front, whole⟩ := sound.line
      refine ⟨front, ?_⟩
      rw [← List.append_assoc, whole]
    · cases after

theorem sound_readAll {text : List Char} {r : Reader} (sound : Sound text r) (more : List Char) :
    Sound (text ++ more) (r.readAll more) := by
  induction more generalizing text r with
  | nil => simpa [Reader.readAll] using sound
  | cons c rest ih =>
    have next := ih (sound.read c)
    rwa [List.append_assoc] at next

theorem events_infix {text : List Char} {e : Event} (member : e ∈ events text)
    (free : '\n' ∉ e.data) : e.data <:+: text := by
  have start : Sound [] Reader.init := by
    constructor <;> simp [Reader.init]
  exact (sound_readAll start text).events e member free

end EventStream
