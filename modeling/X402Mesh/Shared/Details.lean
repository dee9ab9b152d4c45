import Mathlib.Data.List.Infix
import X402Mesh.Lib.JsNumber
import X402Mesh.Lib.JsValue

set_option autoImplicit false

-- The details go out redacted and cut to size. An assignment to `out["__proto__"]` makes no
-- property of `out`, so an entry of that name is lost.

namespace X402Mesh.Details

open Js Value

def secretWords : List Units :=
  ["key", "secret", "token", "password", "passphrase", "mnemonic", "auth", "credential"].map units

-- The `i` flag reaches only the letters of ASCII.
def lowerCase (unit : UInt16) : UInt16 := if 65 ≤ unit ∧ unit ≤ 90 then unit + 32 else unit

def secretKeyPattern (key : Units) : Bool :=
  secretWords.any fun word => (key.map lowerCase).tails.any (word.isPrefixOf ·)

def maxDetailString : Nat := 512

def maxDetailItems : Nat := 32

def maxDepth : Nat := 4

def ellipsis : Units := units "…"

def numberText : Number → Units
  | .nan => units "NaN"
  | .infinite false => units "Infinity"
  | .infinite true => units "-Infinity"
  | .finite _ => []

-- `value.toString(10)`
def bigintText (n : Int) : Units :=
  (if n < 0 then units "-" else []) ++ (Nat.toDigits 10 n.natAbs).map fun c => c.toNat.toUInt16

def errorText (name : Units) : Units := units "[" ++ name ++ units "]"

def redacted : Value := .string (units "[redacted]")

def proto : Units := units "__proto__"

-- `if (sanitized !== undefined) out[k] = sanitized`
def entry (key : Units) : Value → Option (Units × Value)
  | .undefined => none
  | sanitized => if key = proto then none else some (key, sanitized)

mutual

def sanitizeDetailValue (value : Value) (depth : Nat) : Value :=
  if depth > maxDepth then .string (units "[truncated]")
  else
    match value with
    | .null => .null
    | .string text =>
      if text.length > maxDetailString then .string (text.take maxDetailString ++ ellipsis)
      else .string text
    | .number (.finite x) => .number (.finite x)
    | .number x => .string (numberText x)
    | .boolean b => .boolean b
    | .bigint n => .string (bigintText n)
    | .undefined => .undefined
    | .array items => .array (sanitizeItems items 0 depth)
    | .error name => .string (errorText name)
    | .object members => .object (sanitizeEntries members 0 depth)
    | .symbol | .function => .undefined

-- `value.slice(0, MAX_DETAIL_ITEMS).map(..)`
def sanitizeItems (items : List Value) (count depth : Nat) : List Value :=
  match items with
  | [] => []
  | v :: rest =>
    if count ≥ maxDetailItems then []
    else sanitizeDetailValue v (depth + 1) :: sanitizeItems rest (count + 1) depth

def sanitizeEntries (entries : List (Units × Value)) (count depth : Nat) : List (Units × Value) :=
  match entries with
  | [] => []
  | (k, v) :: rest =>
    if count ≥ maxDetailItems then []
    else if secretKeyPattern k then
      (entry k redacted).toList ++ sanitizeEntries rest (count + 1) depth
    else
      (entry k (sanitizeDetailValue v (depth + 1))).toList ++ sanitizeEntries rest (count + 1) depth

end

structure MeshError where
  code : String
  message : String
  details : Option (List (Units × Value))

structure MeshErrorBody where
  code : String
  message : String
  details : Option (List (Units × Value))

def toJSON (error : MeshError) : MeshErrorBody :=
  match error.details with
  | none => ⟨error.code, error.message, none⟩
  | some details =>
    match sanitizeDetailValue (.object details) 0 with
    | .object sanitized =>
      if sanitized.length > 0 then ⟨error.code, error.message, some sanitized⟩
      else ⟨error.code, error.message, none⟩
    | _ => ⟨error.code, error.message, none⟩

theorem sanitizeItems_eq (items : List Value) (count depth : Nat) :
    sanitizeItems items count depth =
      (items.take (maxDetailItems - count)).map fun v => sanitizeDetailValue v (depth + 1) := by
  induction items generalizing count with
  | nil => simp [sanitizeItems]
  | cons v rest ih =>
    rw [sanitizeItems]
    split
    next full =>
      have none_left : maxDetailItems - count = 0 := by omega
      simp [none_left]
    next room =>
      have one_less : maxDetailItems - count = maxDetailItems - (count + 1) + 1 := by omega
      rw [one_less, List.take_succ_cons, List.map_cons, ih]

-- What becomes of one entry of an object.
def sanitizeEntry (depth : Nat) (member : Units × Value) : Option (Units × Value) :=
  entry member.1
    (if secretKeyPattern member.1 then redacted else sanitizeDetailValue member.2 (depth + 1))

theorem sanitizeEntries_eq (entries : List (Units × Value)) (count depth : Nat) :
    sanitizeEntries entries count depth =
      (entries.take (maxDetailItems - count)).filterMap (sanitizeEntry depth) := by
  induction entries generalizing count with
  | nil => simp [sanitizeEntries]
  | cons member rest ih =>
    obtain ⟨k, v⟩ := member
    rw [sanitizeEntries]
    split
    next full =>
      have none_left : maxDetailItems - count = 0 := by omega
      simp [none_left]
    next room =>
      have one_less : maxDetailItems - count = maxDetailItems - (count + 1) + 1 := by omega
      have first : (if secretKeyPattern k then
            (entry k redacted).toList ++ sanitizeEntries rest (count + 1) depth
          else (entry k (sanitizeDetailValue v (depth + 1))).toList ++
            sanitizeEntries rest (count + 1) depth) =
          (sanitizeEntry depth (k, v)).toList ++ sanitizeEntries rest (count + 1) depth := by
        unfold sanitizeEntry
        split <;> rfl
      rw [first, ih, one_less, List.take_succ_cons]
      cases made : sanitizeEntry depth (k, v) <;> simp [made]

theorem sanitize_deep (v : Value) {depth : Nat} (deep : depth > maxDepth) :
    sanitizeDetailValue v depth = .string (units "[truncated]") := by
  rw [sanitizeDetailValue.eq_def, if_pos deep]

theorem sanitize_deep_leaf (v : Value) {depth : Nat} (deep : depth > maxDepth) :
    ¬ (sanitizeDetailValue v depth).IsContainer := by
  rw [sanitize_deep v deep]
  exact id

theorem sanitize_array (items : List Value) {depth : Nat} (shallow : ¬ depth > maxDepth) :
    sanitizeDetailValue (.array items) depth =
      .array ((items.take maxDetailItems).map fun v => sanitizeDetailValue v (depth + 1)) := by
  rw [sanitizeDetailValue, if_neg shallow, sanitizeItems_eq]
  rfl

theorem sanitize_object (members : List (Units × Value)) {depth : Nat}
    (shallow : ¬ depth > maxDepth) :
    sanitizeDetailValue (.object members) depth =
      .object ((members.take maxDetailItems).filterMap (sanitizeEntry depth)) := by
  rw [sanitizeDetailValue, if_neg shallow, sanitizeEntries_eq]
  rfl

theorem sanitize_leaf {v : Value} (leaf : ¬ v.IsContainer) (depth : Nat) :
    ¬ (sanitizeDetailValue v depth).IsContainer := by
  rw [sanitizeDetailValue.eq_def]
  repeat' split
  all_goals first | exact id | exact absurd trivial leaf

mutual

-- The value without what stands under its secret keys.
def blank : Value → Value
  | .array items => .array (blankItems items)
  | .object members => .object (blankMembers members)
  | v => v

def blankItems : List Value → List Value
  | [] => []
  | v :: rest => blank v :: blankItems rest

def blankMembers : List (Units × Value) → List (Units × Value)
  | [] => []
  | (k, v) :: rest =>
    (k, if secretKeyPattern k then .undefined else blank v) :: blankMembers rest

end

def Alike (details other : List (Units × Value)) : Prop := blankMembers details = blankMembers other

theorem blankItems_eq (items : List Value) : blankItems items = items.map blank := by
  induction items with
  | nil => rfl
  | cons v rest ih => simp [blankItems, ih]

def blankMember (member : Units × Value) : Units × Value :=
  (member.1, if secretKeyPattern member.1 then .undefined else blank member.2)

theorem blankMembers_eq (members : List (Units × Value)) :
    blankMembers members = members.map blankMember := by
  induction members with
  | nil => rfl
  | cons member rest ih => simp [blankMembers, blankMember, ih]

theorem sanitizeEntry_blank (depth : Nat) (member : Units × Value)
    (inner : sanitizeDetailValue (blank member.2) (depth + 1) =
      sanitizeDetailValue member.2 (depth + 1)) :
    sanitizeEntry depth (blankMember member) = sanitizeEntry depth member := by
  unfold sanitizeEntry blankMember
  by_cases secret : secretKeyPattern member.1 = true
  next => simp [secret]
  next => simp [secret, inner]

theorem sanitize_blank (v : Value) (depth : Nat) :
    sanitizeDetailValue (blank v) depth = sanitizeDetailValue v depth := by
  by_cases deep : depth > maxDepth
  next => rw [sanitize_deep _ deep, sanitize_deep _ deep]
  induction v using Value.induct generalizing depth with
  | leaf v leaf => cases v <;> first | rfl | exact absurd trivial leaf
  | array items ih =>
    rw [blank, blankItems_eq, sanitize_array _ deep, sanitize_array _ deep, ← List.map_take,
      List.map_map]
    congr 1
    apply List.map_congr_left
    intro v member
    by_cases last : depth + 1 > maxDepth
    next => simp [sanitize_deep _ last]
    next => exact ih v (List.mem_of_mem_take member) _ last
  | object members ih =>
    rw [blank, blankMembers_eq, sanitize_object _ deep, sanitize_object _ deep, ← List.map_take,
      List.filterMap_map]
    congr 1
    apply List.filterMap_congr
    intro m member
    apply sanitizeEntry_blank
    by_cases last : depth + 1 > maxDepth
    next => simp [sanitize_deep _ last]
    next => exact ih m (List.mem_of_mem_take member) _ last

theorem occurs_leaf {n : Nat} {w v : Value} (leaf : ¬ v.IsContainer) (occurs : Occurs n w v) :
    n = 0 ∧ w = v := by
  cases occurs with
  | here => exact ⟨rfl, rfl⟩
  | item => exact absurd trivial leaf
  | member => exact absurd trivial leaf

theorem entry_value {key : Units} {v : Value} {made : Units × Value}
    (taken : entry key v = some made) : made = (key, v) ∧ key ≠ proto ∧ v ≠ .undefined := by
  unfold entry at taken
  split at taken
  next => simp at taken
  next other =>
    split at taken
    next => simp at taken
    next named => exact ⟨(Option.some.inj taken).symm, named, other⟩

-- An entry that comes out is a redacted one or the sanitized value of the one that went in.
theorem sanitizeEntry_value {depth : Nat} {member made : Units × Value}
    (taken : sanitizeEntry depth member = some made) :
    made.2 = redacted ∨ secretKeyPattern member.1 = false ∧ member.1 ≠ proto ∧
      made.2 = sanitizeDetailValue member.2 (depth + 1) := by
  obtain ⟨rfl, named, -⟩ := entry_value taken
  by_cases secret : secretKeyPattern member.1 = true
  next => exact .inl (by simp [secret])
  next => exact .inr ⟨by simpa using secret, named, by simp [secret]⟩

/-- `w` stands at depth `n` of `v` where the walk gets to: among the first entries, and under no
key that is redacted or lost. -/
inductive Reached : Nat → Value → Value → Prop
  | here (v : Value) : Reached 0 v v
  | item {n : Nat} {w v : Value} {items : List Value} :
      v ∈ items.take maxDetailItems → Reached n w v → Reached (n + 1) w (.array items)
  | member {n : Nat} {w : Value} {members : List (Units × Value)} (m : Units × Value) :
      m ∈ members.take maxDetailItems → secretKeyPattern m.1 = false → m.1 ≠ proto →
        Reached n w m.2 → Reached (n + 1) w (.object members)

theorem occurs_deep {v w : Value} {depth n : Nat} (deep : depth > maxDepth)
    (occurs : Occurs n w (sanitizeDetailValue v depth)) :
    ∃ u, Reached n u v ∧ w = sanitizeDetailValue u (depth + n) := by
  obtain ⟨rfl, rfl⟩ := occurs_leaf (sanitize_deep_leaf v deep) occurs
  exact ⟨v, .here v, rfl⟩

/-- Whatever stands in the output is a mark of redaction or comes from a value that the walk got to
at the same depth. -/
theorem occurs_source {v w : Value} {depth n : Nat}
    (occurs : Occurs n w (sanitizeDetailValue v depth)) :
    w = redacted ∨ ∃ u, Reached n u v ∧ w = sanitizeDetailValue u (depth + n) := by
  induction v using Value.induct generalizing depth n with
  | leaf v leaf =>
    obtain ⟨rfl, rfl⟩ := occurs_leaf (sanitize_leaf leaf depth) occurs
    exact .inr ⟨v, .here v, rfl⟩
  | array items ih =>
    by_cases deep : depth > maxDepth
    next => exact .inr (occurs_deep deep occurs)
    rw [sanitize_array _ deep] at occurs
    cases occurs with
    | here => exact .inr ⟨_, .here _, (sanitize_array _ deep).symm⟩
    | @item n _ _ _ member inner =>
      obtain ⟨v, listed, rfl⟩ := List.mem_map.mp member
      rcases ih v (List.mem_of_mem_take listed) inner with hidden | ⟨u, reached, shown⟩
      · exact .inl hidden
      · have deeper : depth + 1 + n = depth + (n + 1) := by omega
        exact .inr ⟨u, .item listed reached, deeper ▸ shown⟩
  | object members ih =>
    by_cases deep : depth > maxDepth
    next => exact .inr (occurs_deep deep occurs)
    rw [sanitize_object _ deep] at occurs
    cases occurs with
    | here => exact .inr ⟨_, .here _, (sanitize_object _ deep).symm⟩
    | @member n _ _ _ _ member inner =>
      obtain ⟨m, listed, taken⟩ := List.mem_filterMap.mp member
      rcases sanitizeEntry_value taken with hidden | ⟨plain, named, shown⟩
      · obtain rfl : _ = redacted := hidden
        obtain ⟨-, rfl⟩ := occurs_leaf id inner
        exact .inl rfl
      · obtain rfl : _ = sanitizeDetailValue m.2 (depth + 1) := shown
        rcases ih m (List.mem_of_mem_take listed) inner with hidden | ⟨u, reached, shown⟩
        · exact .inl hidden
        · have deeper : depth + 1 + n = depth + (n + 1) := by omega
          exact .inr ⟨u, .member m listed plain named reached, deeper ▸ shown⟩

theorem sanitize_container {u : Value} {depth : Nat}
    (container : (sanitizeDetailValue u depth).IsContainer) :
    depth ≤ maxDepth ∧ (sanitizeDetailValue u depth).size ≤ maxDetailItems := by
  by_cases deep : depth > maxDepth
  next => exact absurd container (sanitize_deep_leaf u deep)
  refine ⟨by omega, ?_⟩
  cases u using Value.induct with
  | leaf u leaf => exact absurd container (sanitize_leaf leaf depth)
  | array items =>
    rw [sanitize_array _ deep, size, List.length_map]
    exact List.length_take_le ..
  | object members =>
    rw [sanitize_object _ deep, size]
    exact (List.length_filterMap_le ..).trans (List.length_take_le ..)

/-- A container in the output stands no deeper than the limit and keeps to the number of entries. -/
theorem occurs_bounded {v w : Value} {depth n : Nat}
    (occurs : Occurs n w (sanitizeDetailValue v depth)) (container : w.IsContainer) :
    depth + n ≤ maxDepth ∧ w.size ≤ maxDetailItems := by
  rcases occurs_source occurs with rfl | ⟨u, -, rfl⟩
  · exact absurd container id
  · exact sanitize_container container

/-- At most 512 characters, or 512 of them with the mark of a cut behind. -/
def Cut (text : Units) : Prop :=
  text.length ≤ maxDetailString ∨
    ∃ front, front.length = maxDetailString ∧ text = front ++ ellipsis

-- What is written out as a string of any length.
def written : Value → Option Units
  | .bigint n => some (bigintText n)
  | .error name => some (errorText name)
  | _ => none

def ShortAt (depth : Nat) (v : Value) : Prop :=
  ∀ n w text, Reached n w v → depth + n ≤ maxDepth → written w = some text →
    text.length ≤ maxDetailString

theorem sanitize_leaf_cut {v : Value} {depth : Nat} {text : Units} (leaf : ¬ v.IsContainer)
    (shallow : ¬ depth > maxDepth)
    (short : ∀ text, written v = some text → text.length ≤ maxDetailString)
    (made : sanitizeDetailValue v depth = .string text) : Cut text := by
  rw [sanitizeDetailValue.eq_def, if_neg shallow] at made
  cases v with
  | string source =>
    simp only at made
    split at made
    next long =>
      obtain rfl := Value.string.inj made
      exact .inr ⟨source.take maxDetailString, by simp; omega, rfl⟩
    next fits =>
      obtain rfl := Value.string.inj made
      exact .inl (by omega)
  | number x =>
    cases x with
    | finite x => simp at made
    | nan =>
      obtain rfl := Value.string.inj made
      exact .inl (by decide)
    | infinite negative =>
      obtain rfl := Value.string.inj made
      exact .inl (by cases negative <;> decide)
  | bigint n =>
    obtain rfl := Value.string.inj made
    exact .inl (short _ rfl)
  | error name =>
    obtain rfl := Value.string.inj made
    exact .inl (short _ rfl)
  | array | object => exact absurd trivial leaf
  | _ => simp at made

theorem sanitize_cut {u : Value} {depth : Nat} {text : Units}
    (short : depth ≤ maxDepth → ∀ text, written u = some text → text.length ≤ maxDetailString)
    (made : sanitizeDetailValue u depth = .string text) : Cut text := by
  by_cases deep : depth > maxDepth
  next =>
    rw [sanitize_deep u deep] at made
    obtain rfl := Value.string.inj made
    exact .inl (by decide)
  cases u using Value.induct with
  | leaf u leaf => exact sanitize_leaf_cut leaf deep (short (by omega)) made
  | array items => simp [sanitize_array items deep] at made
  | object members => simp [sanitize_object members deep] at made

theorem occurs_cut {v : Value} {depth n : Nat} {text : Units} (short : ShortAt depth v)
    (occurs : Occurs n (.string text) (sanitizeDetailValue v depth)) : Cut text := by
  rcases occurs_source occurs with hidden | ⟨u, reached, shown⟩
  · obtain rfl := Value.string.inj hidden
    exact .inl (by decide)
  · exact sanitize_cut (fun within text found => short n u text reached within found) shown.symm

theorem sanitize_written {w : Value} {text : Units} (found : written w = some text) {depth : Nat}
    (shallow : ¬ depth > maxDepth) : sanitizeDetailValue w depth = .string text := by
  rw [sanitizeDetailValue.eq_def, if_neg shallow]
  unfold written at found
  split at found
  next => simpa using found
  next => simpa using found
  next => simp at found

theorem sanitizeEntry_plain {depth : Nat} {m : Units × Value} (plain : secretKeyPattern m.1 = false)
    (named : m.1 ≠ proto) (defined : sanitizeDetailValue m.2 (depth + 1) ≠ .undefined) :
    sanitizeEntry depth m = some (m.1, sanitizeDetailValue m.2 (depth + 1)) := by
  unfold sanitizeEntry entry
  rw [plain]
  split
  next none_left => exact absurd none_left defined
  next => exact if_neg named

-- What the walk reaches and writes out is in the output as it stands.
theorem reached_occurs {n depth : Nat} {w v : Value} {text : Units} (reached : Reached n w v)
    (found : written w = some text) (within : depth + n ≤ maxDepth) :
    Occurs n (.string text) (sanitizeDetailValue v depth) := by
  induction reached generalizing depth with
  | here v =>
    rw [sanitize_written found (by omega)]
    exact .here _
  | item listed _ ih =>
    rw [sanitize_array _ (by omega)]
    exact .item (List.mem_map_of_mem listed) (ih found (by omega))
  | @member n w members m listed plain named _ ih =>
    rw [sanitize_object _ (by omega)]
    have inner : Occurs n (.string text) (sanitizeDetailValue m.2 (depth + 1)) :=
      ih found (by omega)
    have defined : sanitizeDetailValue m.2 (depth + 1) ≠ .undefined := by
      intro lost
      rw [lost] at inner
      cases inner
    have kept := sanitizeEntry_plain plain named defined
    exact .member (List.mem_filterMap.mpr ⟨m, listed, kept⟩) inner

theorem digit_unmarked {c : Char} (digit : c.isDigit = true) : c.toNat.toUInt16 ≠ 8230 := by
  simp only [Char.isDigit, Bool.and_eq_true, decide_eq_true_eq] at digit
  have range : 48 ≤ c.toNat ∧ c.toNat ≤ 57 :=
    ⟨UInt32.le_iff_toNat_le.mp digit.1, UInt32.le_iff_toNat_le.mp digit.2⟩
  intro same
  have values : c.toNat % 2 ^ 16 = 8230 := congrArg UInt16.toNat same
  omega

theorem bigintText_unmarked (n : Int) : ∀ unit ∈ bigintText n, unit ≠ 8230 := by
  intro unit member
  rcases List.mem_append.mp member with sign | digits
  next =>
    have minus : units "-" = [45] := by decide
    split at sign
    next =>
      rw [minus, List.mem_singleton] at sign
      simp [sign]
    next => simp at sign
  next =>
    obtain ⟨c, listed, rfl⟩ := List.mem_map.mp digits
    exact digit_unmarked (JsNumber.digits_isDigit _ c listed)

-- The text of a bigint and that of an error end in a character of their own.
theorem written_uncut {w : Value} {text : Units} (found : written w = some text)
    (long : maxDetailString < text.length) : ¬ Cut text := by
  have last : text.getLast? ≠ some 8230 := by
    unfold written at found
    split at found
    next n =>
      obtain rfl := Option.some.inj found
      exact fun ends => bigintText_unmarked n _ (List.mem_of_getLast? ends) rfl
    next name =>
      obtain rfl := Option.some.inj found
      have bracket : units "]" = [93] := by decide
      simp [errorText, bracket]
    next => simp at found
  rintro (short | ⟨front, -, rfl⟩)
  next => omega
  next =>
    have mark : ellipsis = [8230] := by decide
    simp [mark] at last

/-- Everything that is asked of the bodies of two errors, and of the details in the first. -/
structure Guarded (error other : MeshError) : Prop where
  same_body : toJSON error = toJSON other
  nests : ∀ out, (toJSON error).details = some out → ∀ n w, Occurs n w (.object out) →
    w.IsContainer → n ≤ maxDepth
  narrow : ∀ out, (toJSON error).details = some out → ∀ n w, Occurs n w (.object out) →
    w.size ≤ maxDetailItems
  cut : ∀ out, (toJSON error).details = some out → ∀ n text, Occurs n (.string text) (.object out) →
    Cut text

theorem sanitize_alike {details other : List (Units × Value)} (alike : Alike details other) :
    sanitizeDetailValue (.object details) 0 = sanitizeDetailValue (.object other) 0 := by
  have same : blank (.object details) = blank (.object other) := congrArg Value.object alike
  calc sanitizeDetailValue (.object details) 0
      = sanitizeDetailValue (blank (.object details)) 0 := (sanitize_blank _ 0).symm
    _ = sanitizeDetailValue (blank (.object other)) 0 := by rw [same]
    _ = sanitizeDetailValue (.object other) 0 := sanitize_blank _ 0

theorem toJSON_details {error : MeshError} {out : List (Units × Value)}
    (shown : (toJSON error).details = some out) : ∃ details, error.details = some details ∧
      sanitizeDetailValue (.object details) 0 = .object out := by
  unfold toJSON at shown
  split at shown
  next => simp at shown
  next details given =>
    split at shown
    next sanitized made =>
      split at shown
      next => exact ⟨details, given, Option.some.inj shown ▸ made⟩
      next => simp at shown
    next => simp at shown

-- Details in which a string is left are shown.
theorem toJSON_shows {code message : String} {details : List (Units × Value)} {n : Nat}
    {text : Units} (occurs : Occurs n (.string text) (sanitizeDetailValue (.object details) 0)) :
    ∃ out, (toJSON ⟨code, message, some details⟩).details = some out ∧
      sanitizeDetailValue (.object details) 0 = .object out := by
  have made := sanitize_object details (show ¬ 0 > maxDepth by decide)
  rw [made] at occurs
  refine ⟨_, ?_, made⟩
  have some_left : ((details.take maxDetailItems).filterMap (sanitizeEntry 0)).length > 0 := by
    cases occurs with
    | member member _ => exact List.length_pos_of_mem member
  simp only [toJSON, made, if_pos some_left]

theorem size_leaf {v : Value} (leaf : ¬ v.IsContainer) : v.size = 0 := by
  cases v <;> first | rfl | exact absurd trivial leaf

theorem guarded_short {code message : String} {details : List (Units × Value)} {other : MeshError}
    (guarded : Guarded ⟨code, message, some details⟩ other) : ShortAt 0 (.object details) := by
  intro n w text reached within found
  by_contra long
  have occurs := reached_occurs reached found within
  obtain ⟨out, shown, made⟩ := toJSON_shows occurs
  rw [made] at occurs
  exact written_uncut found (by omega) (guarded.cut out shown n text occurs)

theorem toJSON_guarded_iff (code message : String) (details other : List (Units × Value))
    (alike : Alike details other) :
    Guarded ⟨code, message, some details⟩ ⟨code, message, some other⟩ ↔
      ShortAt 0 (.object details) := by
  constructor
  next => exact guarded_short
  next =>
    intro short
    constructor
    case same_body => simp [toJSON, sanitize_alike alike]
    case nests =>
      intro out shown n w occurs container
      obtain ⟨details, given, made⟩ := toJSON_details shown
      rw [← made] at occurs
      simpa using (occurs_bounded occurs container).1
    case narrow =>
      intro out shown n w occurs
      obtain ⟨details, given, made⟩ := toJSON_details shown
      by_cases container : w.IsContainer
      next =>
        rw [← made] at occurs
        exact (occurs_bounded occurs container).2
      next => simp [size_leaf container]
    case cut =>
      intro out shown n text occurs
      obtain ⟨details, given, made⟩ := toJSON_details shown
      obtain rfl := Option.some.inj given
      rw [← made] at occurs
      exact occurs_cut short occurs

def tokenDetails (token : String) : List (Units × Value) :=
  [(units "nodeId", .string (units "n1")),
    (units "request", .object [(units "accessToken", .string (units token))])]

theorem toJSON_guarded_token :
    Guarded ⟨"auth_error", "rejected", some (tokenDetails "a")⟩
        ⟨"auth_error", "rejected", some (tokenDetails "b")⟩ ↔
      ShortAt 0 (.object (tokenDetails "a")) :=
  toJSON_guarded_iff "auth_error" "rejected" (tokenDetails "a") (tokenDetails "b") rfl

theorem bigintText_power (k : Nat) (positive : 0 < k) :
    k < (bigintText ((10 ^ k : Nat) : Int)).length := by
  have digits : k < (Nat.toDigits 10 (10 ^ k)).length := by
    rw [← Nat.not_le, Nat.length_toDigits_le_iff (by decide) positive]
    exact Nat.lt_irrefl _
  rw [bigintText, List.length_append, List.length_map, Int.natAbs_natCast]
  omega

def powerDetails (k : Nat) : List (Units × Value) :=
  [(units "amount", .bigint ((10 ^ k : Nat) : Int))]

theorem powerDetails_unguarded {code message : String} {other : MeshError} {k : Nat}
    (long : maxDetailString < k) : ¬ Guarded ⟨code, message, some (powerDetails k)⟩ other := by
  intro guarded
  have plain : secretKeyPattern (units "amount") = false := by decide
  have named : units "amount" ≠ proto := by decide
  have reached : Reached 1 (.bigint ((10 ^ k : Nat) : Int)) (.object (powerDetails k)) :=
    .member (units "amount", _) (by simp [powerDetails, maxDetailItems]) plain named (.here _)
  have short := guarded_short guarded 1 _ _ reached (by decide) rfl
  have digits := bigintText_power k (by omega)
  omega

theorem bigint_uncut :
    Alike (powerDetails 600) (powerDetails 600) ∧
      ¬ Guarded ⟨"payment_error", "amount", some (powerDetails 600)⟩
        ⟨"payment_error", "amount", some (powerDetails 600)⟩ :=
  ⟨rfl, powerDetails_unguarded (by decide)⟩

end X402Mesh.Details
