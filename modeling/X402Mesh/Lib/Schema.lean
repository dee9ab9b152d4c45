import Mathlib.Data.List.Forall2
import Mathlib.Data.List.Nodup
import X402Mesh.Lib.JsValue

set_option autoImplicit false

namespace Js

-- What `JSON.parse` can answer; a number that is too large for a double comes out infinite.
inductive Value.IsJson : Value → Prop
  | null : IsJson .null
  | boolean (b : Bool) : IsJson (.boolean b)
  | number (x : ℚ) : IsJson (.number (.finite x))
  | huge (negative : Bool) : IsJson (.number (.infinite negative))
  | string (text : Units) : IsJson (.string text)
  | array {items : List Value} : (∀ v ∈ items, IsJson v) → IsJson (.array items)
  | object {members : List (Units × Value)} : (∀ m ∈ members, IsJson m.2) →
      IsJson (.object members)

def Value.isUndefined : Value → Bool
  | .undefined => true
  | _ => false

theorem Value.IsJson.defined {v : Value} (json : v.IsJson) : v.isUndefined = false := by
  cases json <;> rfl

abbrev Schema := Value → Option Value

namespace Schema

def string (ok : Units → Bool) : Schema
  | .string text => if ok text then some (.string text) else none
  | _ => none

-- A number in a range of the reals: whatever bound it has, an infinity is outside.
def number (ok : ℚ → Bool) : Schema
  | .number (.finite x) => if ok x then some (.number (.finite x)) else none
  | _ => none

def boolean : Schema
  | .boolean b => some (.boolean b)
  | _ => none

def optional (schema : Schema) : Schema
  | .undefined => some .undefined
  | v => schema v

def nullable (schema : Schema) : Schema
  | .null => some .null
  | v => schema v

def array (within : Nat → Bool) (schema : Schema) : Schema
  | .array items => if within items.length then (items.mapM schema).map .array else none
  | _ => none

-- What each of the named members comes out as.
def shape : List (Units × Schema) → Value → Option (List (Units × Value))
  | [], _ => some []
  | (name, schema) :: rest, v => do
    let w ← schema (v.field name)
    let more ← shape rest v
    return (name, w) :: more

-- One that comes out undefined is left out, unless it was there.
def shown (members parsed : List (Units × Value)) : List (Units × Value) :=
  parsed.filter fun p => !p.2.isUndefined || members.any fun m => m.1 = p.1

def object (fields : List (Units × Schema)) : Schema
  | .object members => (shape fields (.object members)).map fun parsed =>
      .object (shown members parsed)
  | _ => none

def Stable (schema : Schema) : Prop := ∀ v w, schema v = some w → schema w = some w

theorem string_stable (ok : Units → Bool) : Stable (string ok) := by
  intro v w accepted
  cases v <;> simp only [string, reduceCtorEq] at accepted
  obtain ⟨good, same⟩ := Option.ite_none_right_eq_some.mp accepted
  cases same
  simp [string, good]

theorem string_defined {ok : Units → Bool} {v w : Value} (accepted : string ok v = some w) :
    w.isUndefined = false := by
  cases v <;> simp only [string, reduceCtorEq] at accepted
  obtain ⟨-, same⟩ := Option.ite_none_right_eq_some.mp accepted
  cases same
  rfl

theorem array_defined {within : Nat → Bool} {schema : Schema} {v w : Value}
    (accepted : array within schema v = some w) : w.isUndefined = false := by
  cases v <;> simp only [array, reduceCtorEq] at accepted
  obtain ⟨-, mapped⟩ := Option.ite_none_right_eq_some.mp accepted
  obtain ⟨parsed, -, rfl⟩ := Option.map_eq_some_iff.mp mapped
  rfl

theorem number_stable (ok : ℚ → Bool) : Stable (number ok) := by
  intro v w accepted
  unfold number at accepted
  split at accepted
  next x =>
    obtain ⟨good, same⟩ := Option.ite_none_right_eq_some.mp accepted
    cases same
    simp [number, good]
  next => cases accepted

theorem boolean_stable : Stable boolean := by
  intro v w accepted
  cases v <;> cases accepted
  rfl

theorem optional_stable {schema : Schema} (stable : Stable schema) : Stable (optional schema) := by
  intro v w accepted
  unfold optional at accepted
  split at accepted
  next =>
    cases accepted
    rfl
  next =>
    have again := stable _ _ accepted
    unfold optional
    split
    · rfl
    · exact again

theorem mapM_length {α β : Type} {f : α → Option β} {xs : List α} {ys : List β}
    (mapped : xs.mapM f = some ys) : ys.length = xs.length := by
  induction xs generalizing ys with
  | nil =>
    cases mapped
    rfl
  | cons x rest ih =>
    simp only [List.mapM_cons, Option.bind_eq_bind, Option.bind_eq_some_iff, Option.pure_def,
      Option.some.injEq] at mapped
    obtain ⟨y, -, more, later, rfl⟩ := mapped
    simp [ih later]

theorem mapM_again {α : Type} {f : α → Option α} (stable : ∀ x y, f x = some y → f y = some y)
    {xs ys : List α} (mapped : xs.mapM f = some ys) : ys.mapM f = some ys := by
  induction xs generalizing ys with
  | nil =>
    cases mapped
    rfl
  | cons x rest ih =>
    simp only [List.mapM_cons, Option.bind_eq_bind, Option.bind_eq_some_iff, Option.pure_def,
      Option.some.injEq] at mapped
    obtain ⟨y, first, more, later, rfl⟩ := mapped
    simp [List.mapM_cons, stable x y first, ih later]

theorem array_stable {schema : Schema} (within : Nat → Bool) (stable : Stable schema) :
    Stable (array within schema) := by
  intro v w accepted
  cases v <;> simp only [array, reduceCtorEq] at accepted
  obtain ⟨fits, mapped⟩ := Option.ite_none_right_eq_some.mp accepted
  obtain ⟨items, parsed, rfl⟩ := Option.map_eq_some_iff.mp mapped
  simp [array, mapM_length parsed, fits, mapM_again stable parsed]

theorem shape_eq_some {fields : List (Units × Schema)} {v : Value}
    {parsed : List (Units × Value)} : shape fields v = some parsed ↔
      List.Forall₂ (fun f p => p.1 = f.1 ∧ f.2 (v.field f.1) = some p.2) fields parsed := by
  induction fields generalizing parsed with
  | nil => cases parsed <;> simp [shape]
  | cons f rest ih =>
    obtain ⟨name, schema⟩ := f
    simp only [shape, Option.bind_eq_bind, Option.bind_eq_some_iff, Option.pure_def,
      Option.some.injEq]
    constructor
    · rintro ⟨w, accepted, more, later, rfl⟩
      exact .cons ⟨rfl, accepted⟩ (ih.mp later)
    · intro all
      cases all with
      | @cons _ p _ more first later =>
        obtain ⟨rfl, accepted⟩ := first
        exact ⟨p.2, accepted, more, ih.mpr later, rfl⟩

theorem shape_member {fields : List (Units × Schema)} {v : Value} {parsed : List (Units × Value)}
    (shaped : shape fields v = some parsed) {f : Units × Schema} (member : f ∈ fields) :
    ∃ p ∈ parsed, p.1 = f.1 ∧ f.2 (v.field f.1) = some p.2 := by
  obtain ⟨i, below, rfl⟩ := List.mem_iff_getElem.mp member
  obtain ⟨length, each⟩ := List.forall₂_iff_get.mp (shape_eq_some.mp shaped)
  exact ⟨_, List.get_mem parsed ⟨i, length ▸ below⟩, each i below (length ▸ below)⟩

theorem names_of_shape {fields : List (Units × Schema)} {v : Value}
    {parsed : List (Units × Value)} (shaped : shape fields v = some parsed) :
    parsed.map (·.1) = fields.map (·.1) := by
  have all := shape_eq_some.mp shaped
  clear shaped
  induction all with
  | nil => rfl
  | cons first _ ih => simp [first.1, ih]

theorem object_eq_some {fields : List (Units × Schema)} {v w : Value} :
    object fields v = some w ↔ ∃ members parsed, v = .object members ∧
      shape fields (.object members) = some parsed ∧ w = .object (shown members parsed) := by
  cases v <;> simp only [object, reduceCtorEq, false_and, exists_const, Option.map_eq_some_iff,
    Value.object.injEq, exists_and_left, exists_eq_left']
  constructor
  · rintro ⟨parsed, shaped, rfl⟩
    exact ⟨parsed, shaped, rfl⟩
  · rintro ⟨parsed, shaped, rfl⟩
    exact ⟨parsed, shaped, rfl⟩

theorem field_shown {members parsed : List (Units × Value)} (unique : (parsed.map (·.1)).Nodup)
    {p : Units × Value} (member : p ∈ parsed) :
    (Value.object (shown members parsed)).field p.1 = p.2 := by
  have own : ∀ q ∈ parsed, q.1 = p.1 → q = p := fun q inside same =>
    List.inj_on_of_nodup_map unique inside member same
  cases found : (shown members parsed).find? fun m => m.1 = p.1 with
  | some q =>
    have same : q = p := own q (List.mem_of_mem_filter (List.mem_of_find?_eq_some found))
      (by simpa using List.find?_some found)
    simp [Value.field, found, same]
  | none =>
    -- It is not shown, so it came out undefined.
    have hidden : p ∉ shown members parsed := fun inside => by
      simpa using List.find?_eq_none.mp found p inside
    have undefined : p.2.isUndefined = true := by
      by_contra defined
      exact hidden (List.mem_filter.mpr ⟨member, by simp [defined]⟩)
    cases value : p.2 <;> rw [value] at undefined <;> cases undefined
    simp [Value.field, found]

theorem field_accepted {fields : List (Units × Schema)} (unique : (fields.map (·.1)).Nodup)
    {members parsed : List (Units × Value)}
    (shaped : shape fields (.object members) = some parsed) {name : Units} {schema : Schema}
    (member : (name, schema) ∈ fields) :
    schema ((Value.object members).field name) =
      some ((Value.object (shown members parsed)).field name) := by
  obtain ⟨p, inside, rfl, accepted⟩ := shape_member shaped member
  rw [field_shown (names_of_shape shaped ▸ unique) inside]
  exact accepted

theorem object_stable {fields : List (Units × Schema)} (unique : (fields.map (·.1)).Nodup)
    (stable : ∀ f ∈ fields, Stable f.2) : Stable (object fields) := by
  intro v w accepted
  obtain ⟨members, parsed, rfl, shaped, rfl⟩ := object_eq_some.mp accepted
  have names := names_of_shape shaped
  have again : shape fields (.object (shown members parsed)) = some parsed := by
    rw [shape_eq_some] at shaped ⊢
    refine (List.forall₂_iff_get.mpr ?_)
    obtain ⟨length, each⟩ := List.forall₂_iff_get.mp shaped
    refine ⟨length, fun i below below' => ?_⟩
    obtain ⟨name, accepted⟩ := each i below below'
    refine ⟨name, ?_⟩
    rw [← name, field_shown (names ▸ unique) (List.get_mem ..)]
    exact stable _ (List.get_mem ..) _ _ accepted
  refine object_eq_some.mpr ⟨_, parsed, rfl, again, congrArg _ ?_⟩
  refine List.filter_congr fun p member => ?_
  cases undefined : p.2.isUndefined with
  | false => rfl
  | true =>
    rw [Bool.not_true, Bool.false_or, Bool.false_or, Bool.eq_iff_iff, List.any_eq_true,
      List.any_eq_true]
    constructor
    · rintro ⟨m, there, same⟩
      refine ⟨p, List.mem_filter.mpr ⟨member, ?_⟩, by simp⟩
      rw [Bool.or_eq_true, List.any_eq_true]
      exact .inr ⟨m, there, same⟩
    · rintro ⟨q, kept, same⟩
      obtain ⟨inside, visible⟩ := List.mem_filter.mp kept
      obtain rfl : q = p :=
        List.inj_on_of_nodup_map (names ▸ unique) inside member (of_decide_eq_true same)
      simpa [undefined] using visible

-- What a member of a JSON object reads as.
def Plain (v : Value) : Prop := v.IsJson ∨ v = .undefined

theorem Plain.json {v : Value} (plain : Plain v) (defined : v.isUndefined = false) : v.IsJson := by
  rcases plain with json | rfl
  · exact json
  · cases defined

/-- Nothing defined comes out undefined. -/
structure Keeps (schema : Schema) : Prop where
  plain : ∀ v w, Plain v → schema v = some w → Plain w
  defined : ∀ v w, schema v = some w → v.isUndefined = false → w.isUndefined = false

theorem Keeps.json {schema : Schema} (keeps : Keeps schema) {v w : Value} (json : v.IsJson)
    (accepted : schema v = some w) : w.IsJson :=
  (keeps.plain v w (.inl json) accepted).json (keeps.defined v w accepted json.defined)

-- A schema that answers what it is given.
theorem keeps_of_same {schema : Schema} (same : ∀ v w, schema v = some w → w = v) :
    Keeps schema where
  plain v w plain accepted := same v w accepted ▸ plain
  defined v w accepted defined := same v w accepted ▸ defined

theorem string_same (ok : Units → Bool) (v w : Value) (accepted : string ok v = some w) :
    w = v := by
  cases v <;> simp only [string, reduceCtorEq] at accepted
  obtain ⟨-, same⟩ := Option.ite_none_right_eq_some.mp accepted
  exact (Option.some.inj same).symm

theorem number_same (ok : ℚ → Bool) (v w : Value) (accepted : number ok v = some w) :
    w = v := by
  unfold number at accepted
  split at accepted
  next =>
    obtain ⟨-, same⟩ := Option.ite_none_right_eq_some.mp accepted
    exact (Option.some.inj same).symm
  next => cases accepted

theorem boolean_same (v w : Value) (accepted : boolean v = some w) : w = v := by
  cases v <;> cases accepted
  rfl

theorem string_keeps (ok : Units → Bool) : Keeps (string ok) := keeps_of_same (string_same ok)

theorem number_keeps (ok : ℚ → Bool) : Keeps (number ok) := keeps_of_same (number_same ok)

theorem boolean_keeps : Keeps boolean := keeps_of_same boolean_same

theorem optional_keeps {schema : Schema} (keeps : Keeps schema) : Keeps (optional schema) where
  plain v w plain accepted := by
    unfold optional at accepted
    split at accepted
    next =>
      cases accepted
      exact .inr rfl
    next => exact keeps.plain _ _ plain accepted
  defined v w accepted defined := by
    unfold optional at accepted
    split at accepted
    next => cases defined
    next => exact keeps.defined _ _ accepted defined

theorem nullable_keeps {schema : Schema} (keeps : Keeps schema) : Keeps (nullable schema) where
  plain v w plain accepted := by
    unfold nullable at accepted
    split at accepted
    next =>
      cases accepted
      exact .inl .null
    next => exact keeps.plain _ _ plain accepted
  defined v w accepted defined := by
    unfold nullable at accepted
    split at accepted
    next =>
      cases accepted
      rfl
    next => exact keeps.defined _ _ accepted defined

theorem mapM_json {schema : Schema} (keeps : Keeps schema) {items parsed : List Value}
    (json : ∀ v ∈ items, v.IsJson) (mapped : items.mapM schema = some parsed) :
    ∀ w ∈ parsed, w.IsJson := by
  induction items generalizing parsed with
  | nil =>
    cases mapped
    simp
  | cons v rest ih =>
    simp only [List.mapM_cons, Option.bind_eq_bind, Option.bind_eq_some_iff, Option.pure_def,
      Option.some.injEq] at mapped
    obtain ⟨w, first, more, later, rfl⟩ := mapped
    rw [List.forall_mem_cons] at json
    exact List.forall_mem_cons.mpr ⟨keeps.json json.1 first, ih json.2 later⟩

theorem array_keeps {schema : Schema} (within : Nat → Bool) (keeps : Keeps schema) :
    Keeps (array within schema) where
  plain v w plain accepted := by
    cases v <;> simp only [array, reduceCtorEq] at accepted
    obtain ⟨-, mapped⟩ := Option.ite_none_right_eq_some.mp accepted
    obtain ⟨parsed, found, rfl⟩ := Option.map_eq_some_iff.mp mapped
    rcases plain with json | absent
    · cases json with
      | array each => exact .inl (.array (mapM_json keeps each found))
    · cases absent
  defined v w accepted _ := array_defined accepted

theorem plain_field {members : List (Units × Value)} (json : ∀ m ∈ members, m.2.IsJson)
    (name : Units) : Plain ((Value.object members).field name) := by
  cases found : members.find? fun m => m.1 = name with
  | none => exact .inr (by simp [Value.field, found])
  | some m =>
    refine .inl ?_
    simpa [Value.field, found] using json m (List.mem_of_find?_eq_some found)

-- No member is there and undefined.
def Clean (members : List (Units × Value)) : Prop := ∀ m ∈ members, m.2.isUndefined = false

theorem clean_of_json {members : List (Units × Value)} (json : ∀ m ∈ members, m.2.IsJson) :
    Clean members := fun m member => (json m member).defined

theorem defined_field {members : List (Units × Value)} (clean : Clean members) {name : Units}
    (there : ∃ m ∈ members, m.1 = name) :
    ((Value.object members).field name).isUndefined = false := by
  obtain ⟨m, member, same⟩ := there
  cases found : members.find? fun m => m.1 = name with
  | none => simpa [same] using List.find?_eq_none.mp found m member
  | some own => simpa [Value.field, found] using clean own (List.mem_of_find?_eq_some found)

theorem shape_inv {fields : List (Units × Schema)} {v : Value} {parsed : List (Units × Value)}
    (shaped : shape fields v = some parsed) {p : Units × Value} (member : p ∈ parsed) :
    ∃ f ∈ fields, p.1 = f.1 ∧ f.2 (v.field f.1) = some p.2 := by
  obtain ⟨i, below, rfl⟩ := List.mem_iff_getElem.mp member
  obtain ⟨length, each⟩ := List.forall₂_iff_get.mp (shape_eq_some.mp shaped)
  exact ⟨_, List.get_mem fields ⟨i, length ▸ below⟩, each i (length ▸ below) below⟩

-- Of such an object what is defined is shown.
theorem shown_clean {fields : List (Units × Schema)} (keeps : ∀ f ∈ fields, Keeps f.2)
    {members parsed : List (Units × Value)} (clean : Clean members)
    (shaped : shape fields (.object members) = some parsed) :
    shown members parsed = parsed.filter fun p => !p.2.isUndefined := by
  refine List.filter_congr fun p member => ?_
  cases undefined : p.2.isUndefined with
  | false => rfl
  | true =>
    rw [Bool.not_true, Bool.false_or, Bool.eq_false_iff]
    intro there
    obtain ⟨m, inside, same⟩ := List.any_eq_true.mp there
    obtain ⟨f, own, name, accepted⟩ := shape_inv shaped member
    have defined := (keeps f own).defined _ _ accepted
      (defined_field clean ⟨m, inside, (of_decide_eq_true same).trans name⟩)
    simp [defined] at undefined

theorem shown_json {fields : List (Units × Schema)} (keeps : ∀ f ∈ fields, Keeps f.2)
    {members parsed : List (Units × Value)} (json : ∀ m ∈ members, m.2.IsJson)
    (shaped : shape fields (.object members) = some parsed) :
    ∀ p ∈ shown members parsed, p.2.IsJson := by
  intro p visible
  rw [shown_clean keeps (clean_of_json json) shaped] at visible
  obtain ⟨member, defined⟩ := List.mem_filter.mp visible
  obtain ⟨f, own, -, accepted⟩ := shape_inv shaped member
  exact ((keeps f own).plain _ _ (plain_field json f.1) accepted).json (by simpa using defined)

-- Objects whose members come out the same.
theorem object_agree {fields : List (Units × Schema)} (keeps : ∀ f ∈ fields, Keeps f.2)
    {members others : List (Units × Value)} (clean : Clean members) (clean' : Clean others)
    (agree : ∀ f ∈ fields,
      f.2 ((Value.object others).field f.1) = f.2 ((Value.object members).field f.1)) :
    object fields (.object others) = object fields (.object members) := by
  have same : shape fields (.object others) = shape fields (.object members) := by
    clear keeps
    induction fields with
    | nil => rfl
    | cons f rest ih =>
      rw [List.forall_mem_cons] at agree
      simp [shape, agree.1, ih agree.2]
  simp only [object, same]
  cases shaped : shape fields (.object members) with
  | none => rfl
  | some parsed =>
    rw [Option.map_some, Option.map_some, shown_clean keeps clean shaped,
      shown_clean keeps clean' (same.trans shaped)]

theorem field_of_mem {members : List (Units × Value)} (unique : (members.map (·.1)).Nodup)
    {m : Units × Value} (member : m ∈ members) : (Value.object members).field m.1 = m.2 := by
  cases found : members.find? fun other => other.1 = m.1 with
  | none => simpa using List.find?_eq_none.mp found m member
  | some other =>
    have same : other = m := List.inj_on_of_nodup_map unique (List.mem_of_find?_eq_some found)
      member (by simpa using List.find?_some found)
    simp [Value.field, found, same]

def Lists (related : Units × Schema → Value → Prop) (fields : List (Units × Schema))
    (members : List (Units × Value)) : Prop :=
  List.Forall₂ (fun f m => m.1 = f.1 ∧ m.2.isUndefined = false ∧ related f m.2) fields members

theorem Lists.names {related : Units × Schema → Value → Prop} {fields : List (Units × Schema)}
    {members : List (Units × Value)} (listed : Lists related fields members) :
    members.map (·.1) = fields.map (·.1) := by
  induction listed with
  | nil => rfl
  | cons first _ ih => simp [first.1, ih]

theorem Lists.clean {related : Units × Schema → Value → Prop} {fields : List (Units × Schema)}
    {members : List (Units × Value)} (listed : Lists related fields members) : Clean members := by
  induction listed with
  | nil => exact fun m member => nomatch member
  | cons first _ ih => exact List.forall_mem_cons.mpr ⟨first.2.1, ih⟩

theorem Lists.related {related : Units × Schema → Value → Prop} {fields : List (Units × Schema)}
    {members : List (Units × Value)} (unique : (fields.map (·.1)).Nodup)
    (listed : Lists related fields members) {f : Units × Schema} (member : f ∈ fields) :
    related f ((Value.object members).field f.1) := by
  obtain ⟨i, below, rfl⟩ := List.mem_iff_getElem.mp member
  obtain ⟨length, each⟩ := List.forall₂_iff_get.mp listed
  obtain ⟨name, -, held⟩ := each i below (length ▸ below)
  have own := field_of_mem (listed.names ▸ unique) (List.get_mem members ⟨i, length ▸ below⟩)
  rw [name] at own
  exact own ▸ held

-- Members that each come out as before are as good as before.
theorem object_refilled {fields : List (Units × Schema)} (unique : (fields.map (·.1)).Nodup)
    (keeps : ∀ f ∈ fields, Keeps f.2) {v w : Value} (json : v.IsJson)
    (accepted : object fields v = some w) {others : List (Units × Value)}
    (listed : Lists (fun f u => ∀ x, f.2 (v.field f.1) = some x → f.2 u = some x) fields others) :
    object fields (.object others) = some w := by
  obtain ⟨members, parsed, rfl, shaped, -⟩ := object_eq_some.mp accepted
  have clean : Clean members := by
    cases json with
    | object each => exact clean_of_json each
  refine (object_agree keeps clean listed.clean fun f member => ?_).trans accepted
  obtain ⟨p, -, -, came⟩ := shape_member shaped member
  rw [came, listed.related unique member _ came]

-- Members that are each accepted as they are.
theorem object_accepts {fields : List (Units × Schema)} (unique : (fields.map (·.1)).Nodup)
    {members : List (Units × Value)}
    (listed : Lists (fun f u => f.2 u = some u) fields members) :
    object fields (.object members) = some (.object members) := by
  have names := listed.names
  refine object_eq_some.mpr ⟨members, members, rfl, shape_eq_some.mpr ?_, congrArg _ ?_⟩
  · refine List.forall₂_iff_get.mpr ⟨(List.forall₂_iff_get.mp listed).1, fun i below below' => ?_⟩
    obtain ⟨name, -, held⟩ := (List.forall₂_iff_get.mp listed).2 i below below'
    refine ⟨name, ?_⟩
    rw [← name, field_of_mem (names ▸ unique) (List.get_mem ..)]
    exact held
  · refine (List.filter_eq_self.mpr fun m member => ?_).symm
    simp [listed.clean m member]

theorem mapM_mapIdx {schema : Schema} {f : Nat → Value → Value} {items parsed : List Value}
    (mapped : items.mapM schema = some parsed)
    (agree : ∀ i, ∀ v ∈ items, ∀ w, schema v = some w → schema (f i v) = some w) :
    (items.mapIdx f).mapM schema = some parsed := by
  induction items generalizing f parsed with
  | nil => exact mapped
  | cons v rest ih =>
    simp only [List.mapM_cons, Option.bind_eq_bind, Option.bind_eq_some_iff, Option.pure_def,
      Option.some.injEq] at mapped
    obtain ⟨w, first, more, later, rfl⟩ := mapped
    have tail := ih (f := fun i => f (i + 1)) later fun i u member =>
      agree (i + 1) u (List.mem_cons_of_mem v member)
    simp [List.mapIdx_cons, List.mapM_cons, agree 0 v List.mem_cons_self w first, tail]

theorem mapM_accepts {schema : Schema} {items : List Value}
    (each : ∀ v ∈ items, schema v = some v) : items.mapM schema = some items := by
  induction items with
  | nil => rfl
  | cons v rest ih =>
    rw [List.forall_mem_cons] at each
    simp [List.mapM_cons, each.1, ih each.2]

-- Of an object that lists its members in order, less those that are undefined.
theorem map_field_shown {members parsed : List (Units × Value)}
    (unique : (parsed.map (·.1)).Nodup)
    (same : shown members parsed = parsed.filter fun p => !p.2.isUndefined) :
    ((parsed.map (·.1)).filter fun name =>
        !((Value.object (shown members parsed)).field name).isUndefined).map
      (fun name => (name, (Value.object (shown members parsed)).field name)) =
        shown members parsed := by
  have own (p : Units × Value) (member : p ∈ parsed) :=
    @field_shown members _ unique _ member
  rw [List.filter_map, List.map_map]
  have filtered : parsed.filter ((fun name =>
      !((Value.object (shown members parsed)).field name).isUndefined) ∘ (·.1)) =
        shown members parsed := by
    rw [same]
    refine List.filter_congr fun p member => ?_
    simp only [Function.comp]
    rw [← same, own p member]
  rw [filtered]
  conv_rhs => rw [← List.map_id (shown members parsed)]
  refine List.map_congr_left fun p visible => ?_
  simp only [Function.comp, id]
  rw [own p (List.mem_of_mem_filter visible)]

theorem object_keeps {fields : List (Units × Schema)} (keeps : ∀ f ∈ fields, Keeps f.2) :
    Keeps (object fields) where
  plain v w plain accepted := by
    obtain ⟨members, parsed, rfl, shaped, rfl⟩ := object_eq_some.mp accepted
    rcases plain with json | absent
    · cases json with
      | object each => exact .inl (.object (shown_json keeps each shaped))
    · cases absent
  defined v w accepted _ := by
    obtain ⟨members, parsed, -, -, rfl⟩ := object_eq_some.mp accepted
    rfl

end Schema

end Js
