import X402Mesh.Lib.JsNumber

set_option autoImplicit false

namespace JsonText

/-- A JavaScript string by its code points; a surrogate is one that has no partner. -/
inductive CodePoint
  | scalar (c : Char)
  | surrogate (index : Fin 2048)
  deriving DecidableEq, Repr

abbrev JsString := List CodePoint

def js (s : String) : JsString := s.toList.map .scalar

theorem js_injective {a b : String} (same : js a = js b) : a = b := by
  apply String.toList_injective
  exact (List.map_inj_right fun _ _ => CodePoint.scalar.inj).mp same

def hexDigit (d : Nat) : Char := Char.ofNat (if d < 10 then d + 48 else d + 87)

def hexValue (c : Char) : Nat := if c.isDigit then c.toNat - 48 else c.toNat - 87

def hex4 (n : Nat) : List Char :=
  [hexDigit (n / 4096 % 16), hexDigit (n / 256 % 16), hexDigit (n / 16 % 16), hexDigit (n % 16)]

def unhex4 (a b c d : Char) : Nat :=
  hexValue a * 4096 + hexValue b * 256 + hexValue c * 16 + hexValue d

def escapeChar (c : Char) : List Char :=
  if c = '\x08' then ['\\', 'b']
  else if c = '\t' then ['\\', 't']
  else if c = '\n' then ['\\', 'n']
  else if c = '\x0c' then ['\\', 'f']
  else if c = '\r' then ['\\', 'r']
  else if c = '"' then ['\\', '"']
  else if c = '\\' then ['\\', '\\']
  else if c.toNat < 32 then '\\' :: 'u' :: hex4 c.toNat
  else [c]

-- What `JSON.stringify` writes for a code point inside a string.
def escape : CodePoint → List Char
  | .scalar c => escapeChar c
  | .surrogate index => '\\' :: 'u' :: hex4 (0xD800 + index)

def quote (s : JsString) : List Char := '"' :: (s.flatMap escape ++ ['"'])

-- The code point that an escape at the front of a text stands for, and the rest of the text.
def unescape : List Char → Option (CodePoint × List Char)
  | '\\' :: 'u' :: a :: b :: c :: d :: rest =>
    let value := unhex4 a b c d
    if inside : 0xD800 ≤ value ∧ value - 0xD800 < 2048 then
      some (.surrogate ⟨value - 0xD800, inside.2⟩, rest)
    else some (.scalar (Char.ofNat value), rest)
  | '\\' :: 'b' :: rest => some (.scalar '\x08', rest)
  | '\\' :: 't' :: rest => some (.scalar '\t', rest)
  | '\\' :: 'n' :: rest => some (.scalar '\n', rest)
  | '\\' :: 'f' :: rest => some (.scalar '\x0c', rest)
  | '\\' :: 'r' :: rest => some (.scalar '\r', rest)
  | '\\' :: c :: rest => some (.scalar c, rest)
  | c :: rest => some (.scalar c, rest)
  | [] => none

theorem hexValue_hexDigit : ∀ d < 16, hexValue (hexDigit d) = d := by
  decide

theorem unhex4_hex4 {n : Nat} (small : n < 65536) :
    unhex4 (hexDigit (n / 4096 % 16)) (hexDigit (n / 256 % 16)) (hexDigit (n / 16 % 16))
      (hexDigit (n % 16)) = n := by
  simp only [unhex4, hexValue_hexDigit _ (Nat.mod_lt _ (by omega : 0 < 16))]
  omega

theorem unescape_hex4 {n : Nat} (small : n < 65536) (rest : List Char) :
    unescape ('\\' :: 'u' :: (hex4 n ++ rest)) =
      if inside : 0xD800 ≤ n ∧ n - 0xD800 < 2048 then
        some (.surrogate ⟨n - 0xD800, inside.2⟩, rest)
      else some (.scalar (Char.ofNat n), rest) := by
  simp only [hex4, List.cons_append, List.nil_append, unescape, unhex4_hex4 small]

theorem unescape_escape (u : CodePoint) (rest : List Char) :
    unescape (escape u ++ rest) = some (u, rest) := by
  cases u with
  | surrogate index =>
    have inside : 0xD800 ≤ 0xD800 + index.val ∧ 0xD800 + index.val - 0xD800 < 2048 := by omega
    rw [escape, List.cons_append, List.cons_append, unescape_hex4 (by omega), dif_pos inside]
    simp
  | scalar c =>
    rw [escape]
    unfold escapeChar
    split
    next same => subst same; rfl
    split
    next same => subst same; rfl
    split
    next same => subst same; rfl
    split
    next same => subst same; rfl
    split
    next same => subst same; rfl
    split
    next same => subst same; rfl
    split
    next same => subst same; rfl
    split
    next control =>
      have outside : ¬ (0xD800 ≤ c.toNat ∧ c.toNat - 0xD800 < 2048) := by omega
      rw [List.cons_append, List.cons_append, unescape_hex4 (by omega), dif_neg outside,
        Char.ofNat_toNat]
    next =>
      next other _ =>
        unfold unescape
        simp_all

-- No escape starts with the closing quote.
theorem escape_head (u : CodePoint) (rest : List Char) :
    ∃ c tail, escape u ++ rest = c :: tail ∧ c ≠ '"' := by
  cases u with
  | surrogate index => exact ⟨'\\', _, rfl, by decide⟩
  | scalar c =>
    by_cases quoted : c = '"'
    · subst quoted
      exact ⟨'\\', _, rfl, by decide⟩
    · rw [escape]
      unfold escapeChar
      repeat' split
      all_goals first | exact ⟨'\\', _, rfl, by decide⟩ | exact ⟨c, rest, rfl, quoted⟩

theorem body_cut (s t : JsString) (a b : List Char)
    (same : s.flatMap escape ++ '"' :: a = t.flatMap escape ++ '"' :: b) : s = t ∧ a = b := by
  induction s generalizing t with
  | nil =>
    cases t with
    | nil => exact ⟨rfl, (List.cons.inj same).2⟩
    | cons v rest =>
      rw [List.flatMap_cons, List.append_assoc] at same
      obtain ⟨c, tail, shown, other⟩ := escape_head v (rest.flatMap escape ++ '"' :: b)
      rw [shown] at same
      exact absurd (List.cons.inj same).1.symm other
  | cons u front ih =>
    rw [List.flatMap_cons, List.append_assoc] at same
    cases t with
    | nil =>
      obtain ⟨c, tail, shown, other⟩ := escape_head u (front.flatMap escape ++ '"' :: a)
      rw [shown] at same
      exact absurd (List.cons.inj same).1 other
    | cons v rest =>
      rw [List.flatMap_cons, List.append_assoc] at same
      have read := congrArg unescape same
      rw [unescape_escape, unescape_escape] at read
      obtain ⟨first, later⟩ := Prod.mk.inj (Option.some.inj read)
      obtain ⟨strings, ends⟩ := ih rest later
      exact ⟨by rw [first, strings], ends⟩

theorem quote_cut {s t : JsString} {a b : List Char} (same : quote s ++ a = quote t ++ b) :
    s = t ∧ a = b := by
  simp only [quote, List.cons_append, List.append_assoc, List.nil_append, List.cons.injEq,
    true_and] at same
  exact body_cut s t a b same

-- A text that does not go on with a number.
def Stops (rest : List Char) : Prop := ∀ c tail, rest = c :: tail → JsNumber.isNumeric c = false

theorem takeWhile_stops {cs rest : List Char} (numeric : ∀ c ∈ cs, JsNumber.isNumeric c = true)
    (stops : Stops rest) : (cs ++ rest).takeWhile JsNumber.isNumeric = cs := by
  rw [List.takeWhile_append_of_pos numeric]
  cases rest with
  | nil => simp
  | cons c tail => simp [stops c tail rfl]

theorem number_cut {x y : JsNumber.Whole} {a b : List Char} (left : Stops a) (right : Stops b)
    (same : JsNumber.text x ++ a = JsNumber.text y ++ b) : x = y ∧ a = b := by
  have front : JsNumber.text x = JsNumber.text y := by
    rw [← takeWhile_stops (JsNumber.text_numeric x) left, same,
      takeWhile_stops (JsNumber.text_numeric y) right]
  refine ⟨JsNumber.text_injective front, ?_⟩
  rw [front] at same
  exact List.append_cancel_left same

inductive Json
  | null
  | bool (b : Bool)
  | number (n : JsNumber.Whole)
  | string (s : JsString)
  | array (items : List Json)
  | object (members : List (JsString × Json))

-- `texts.join(",")`.
def join : List (List Char) → List Char
  | [] => []
  | [last] => last
  | first :: rest => first ++ ',' :: join rest

mutual

def Json.text : Json → List Char
  | .null => ['n', 'u', 'l', 'l']
  | .bool true => ['t', 'r', 'u', 'e']
  | .bool false => ['f', 'a', 'l', 's', 'e']
  | .number n => JsNumber.text n
  | .string s => quote s
  | .array items => '[' :: (join (itemTexts items) ++ [']'])
  | .object members => '{' :: (join (memberTexts members) ++ ['}'])

def itemTexts : List Json → List (List Char)
  | [] => []
  | v :: rest => v.text :: itemTexts rest

def memberTexts : List (JsString × Json) → List (List Char)
  | [] => []
  | member :: rest => memberText member :: memberTexts rest

def memberText : JsString × Json → List Char
  | (key, v) => quote key ++ ':' :: v.text

end

inductive Shape
  | null | yes | no | number | string | array | object
  deriving DecidableEq

def Json.shape : Json → Shape
  | .null => .null
  | .bool true => .yes
  | .bool false => .no
  | .number _ => .number
  | .string _ => .string
  | .array _ => .array
  | .object _ => .object

def shapeOf (c : Char) : Shape :=
  if c = 'n' then .null
  else if c = 't' then .yes
  else if c = 'f' then .no
  else if c = '"' then .string
  else if c = '[' then .array
  else if c = '{' then .object
  else .number

theorem shape_numeric {c : Char} (numeric : JsNumber.isNumeric c = true) : shapeOf c = .number := by
  unfold shapeOf
  repeat' split
  all_goals first | rfl | (subst_vars; exact absurd numeric (by decide))

theorem text_head (v : Json) (rest : List Char) :
    ∃ c tail, v.text ++ rest = c :: tail ∧ shapeOf c = v.shape ∧ c ≠ ']' := by
  cases v with
  | null => exact ⟨'n', _, rfl, rfl, by decide⟩
  | bool b => cases b <;> exact ⟨_, _, rfl, rfl, by decide⟩
  | number n =>
    cases shown : JsNumber.text n with
    | nil => exact absurd shown (JsNumber.text_ne_nil n)
    | cons c tail =>
      have numeric := JsNumber.text_numeric n c (by rw [shown]; exact List.mem_cons_self)
      refine ⟨c, tail ++ rest, by rw [Json.text, shown]; rfl, shape_numeric numeric, ?_⟩
      rintro rfl
      exact absurd numeric (by decide)
  | string s => exact ⟨'"', _, rfl, rfl, by decide⟩
  | array items => exact ⟨'[', _, rfl, rfl, by decide⟩
  | object members => exact ⟨'{', _, rfl, rfl, by decide⟩

theorem shape_eq {v w : Json} {a b : List Char} (same : v.text ++ a = w.text ++ b) :
    v.shape = w.shape := by
  obtain ⟨c, tail, left, first, -⟩ := text_head v a
  obtain ⟨d, tail', right, second, -⟩ := text_head w b
  rw [left, right] at same
  rw [← first, ← second, (List.cons.inj same).1]

-- What comes after the first of some joined texts.
def follow (texts : List (List Char)) (close : Char) (rest : List Char) : List Char :=
  match texts with
  | [] => close :: rest
  | first :: later => ',' :: (join (first :: later) ++ close :: rest)

theorem join_cons (first : List Char) (texts : List (List Char)) (close : Char)
    (rest : List Char) :
    join (first :: texts) ++ close :: rest = first ++ follow texts close rest := by
  cases texts with
  | nil => rfl
  | cons second later => simp [join, follow]

theorem stops_follow {close : Char} (closing : JsNumber.isNumeric close = false)
    (texts : List (List Char)) (rest : List Char) : Stops (follow texts close rest) := by
  intro c tail shown
  cases texts with
  | nil => rw [← (List.cons.inj shown).1, closing]
  | cons first later =>
    rw [← (List.cons.inj shown).1]
    rfl

mutual

/-- The induction is on the first value; a number ends where the other one ends, since what follows
neither of them can continue it. -/
theorem text_cut : ∀ (v w : Json) (a b : List Char), Stops a → Stops b →
    v.text ++ a = w.text ++ b → v = w ∧ a = b
  | .null, w, a, b, _, _, same => by
    have shape := shape_eq same
    cases w <;> simp only [Json.shape, reduceCtorEq] at shape
    case null => exact ⟨rfl, List.append_cancel_left same⟩
    case bool c => cases c <;> cases shape
  | .bool d, w, a, b, _, _, same => by
    have shape := shape_eq same
    cases d <;> cases w <;> simp only [Json.shape, reduceCtorEq] at shape
    case false.bool c =>
      cases c
      case false => exact ⟨rfl, List.append_cancel_left same⟩
      case true => cases shape
    case true.bool c =>
      cases c
      case false => cases shape
      case true => exact ⟨rfl, List.append_cancel_left same⟩
  | .number n, w, a, b, left, right, same => by
    have shape := shape_eq same
    cases w <;> simp only [Json.shape, reduceCtorEq] at shape
    case bool c => cases c <;> cases shape
    case number m =>
      obtain ⟨rfl, rests⟩ := number_cut left right same
      exact ⟨rfl, rests⟩
  | .string s, w, a, b, _, _, same => by
    have shape := shape_eq same
    cases w <;> simp only [Json.shape, reduceCtorEq] at shape
    case bool c => cases c <;> cases shape
    case string t =>
      obtain ⟨rfl, rests⟩ := quote_cut same
      exact ⟨rfl, rests⟩
  | .array vs, w, a, b, _, _, same => by
    have shape := shape_eq same
    cases w <;> simp only [Json.shape, reduceCtorEq] at shape
    case bool c => cases c <;> cases shape
    case array ws =>
      simp only [Json.text, List.cons_append, List.append_assoc, List.nil_append, List.cons.injEq,
        true_and] at same
      obtain ⟨rfl, rests⟩ := items_cut vs ws a b same
      exact ⟨rfl, rests⟩
  | .object ms, w, a, b, _, _, same => by
    have shape := shape_eq same
    cases w <;> simp only [Json.shape, reduceCtorEq] at shape
    case bool c => cases c <;> cases shape
    case object ns =>
      simp only [Json.text, List.cons_append, List.append_assoc, List.nil_append, List.cons.injEq,
        true_and] at same
      obtain ⟨rfl, rests⟩ := members_cut ms ns a b same
      exact ⟨rfl, rests⟩

theorem items_cut : ∀ (vs ws : List Json) (a b : List Char),
    join (itemTexts vs) ++ ']' :: a = join (itemTexts ws) ++ ']' :: b → vs = ws ∧ a = b
  | [], [], a, b, same => ⟨rfl, (List.cons.inj same).2⟩
  | [], w :: ws, a, b, same => by
    rw [itemTexts, itemTexts, join_cons] at same
    obtain ⟨c, tail, shown, -, other⟩ := text_head w (follow (itemTexts ws) ']' b)
    rw [shown] at same
    exact absurd (List.cons.inj same).1.symm other
  | v :: vs, [], a, b, same => by
    rw [itemTexts, itemTexts, join_cons] at same
    obtain ⟨c, tail, shown, -, other⟩ := text_head v (follow (itemTexts vs) ']' a)
    rw [shown] at same
    exact absurd (List.cons.inj same).1 other
  | v :: vs, w :: ws, a, b, same => by
    rw [itemTexts, itemTexts, join_cons, join_cons] at same
    obtain ⟨rfl, rests⟩ := text_cut v w _ _ (stops_follow rfl _ _) (stops_follow rfl _ _) same
    cases vs with
    | nil =>
      cases ws with
      | nil => exact ⟨rfl, (List.cons.inj rests).2⟩
      | cons w' ws' => exact absurd (List.cons.inj rests).1 (by decide)
    | cons v' vs' =>
      cases ws with
      | nil => exact absurd (List.cons.inj rests).1 (by decide)
      | cons w' ws' =>
        obtain ⟨tails, ends⟩ := items_cut (v' :: vs') (w' :: ws') a b (List.cons.inj rests).2
        exact ⟨by rw [tails], ends⟩

theorem members_cut : ∀ (ms ns : List (JsString × Json)) (a b : List Char),
    join (memberTexts ms) ++ '}' :: a = join (memberTexts ns) ++ '}' :: b → ms = ns ∧ a = b
  | [], [], a, b, same => ⟨rfl, (List.cons.inj same).2⟩
  | [], (key, w) :: ns, a, b, same => by
    rw [memberTexts, memberTexts, join_cons] at same
    have first : '}' = '"' := (List.cons.inj same).1
    exact absurd first (by decide)
  | (key, v) :: ms, [], a, b, same => by
    rw [memberTexts, memberTexts, join_cons] at same
    have first : '"' = '}' := (List.cons.inj same).1
    exact absurd first (by decide)
  | m :: ms, n :: ns, a, b, same => by
    rw [memberTexts, memberTexts, join_cons, join_cons] at same
    obtain ⟨rfl, rests⟩ := member_cut m n _ _ (stops_follow rfl _ _) (stops_follow rfl _ _) same
    cases ms with
    | nil =>
      cases ns with
      | nil => exact ⟨rfl, (List.cons.inj rests).2⟩
      | cons n' ns' => exact absurd (List.cons.inj rests).1 (by decide)
    | cons m' ms' =>
      cases ns with
      | nil => exact absurd (List.cons.inj rests).1 (by decide)
      | cons n' ns' =>
        obtain ⟨tails, ends⟩ := members_cut (m' :: ms') (n' :: ns') a b (List.cons.inj rests).2
        exact ⟨by rw [tails], ends⟩

theorem member_cut : ∀ (m n : JsString × Json) (a b : List Char), Stops a → Stops b →
    memberText m ++ a = memberText n ++ b → m = n ∧ a = b
  | (key, v), (other, w), a, b, left, right, same => by
    simp only [memberText, List.append_assoc, List.cons_append] at same
    obtain ⟨rfl, values⟩ := quote_cut same
    obtain ⟨rfl, rests⟩ := text_cut v w a b left right (List.cons.inj values).2
    exact ⟨rfl, rests⟩

end

theorem text_injective {v w : Json} (same : v.text = w.text) : v = w := by
  have ends : Stops [] := fun _ _ absurd => nomatch absurd
  exact (text_cut v w [] [] ends ends (by rw [same])).1

def Printable (cs : List Char) : Prop := ∀ c ∈ cs, 32 ≤ c.toNat

theorem printable_append {a b : List Char} :
    Printable (a ++ b) ↔ Printable a ∧ Printable b := List.forall_mem_append

theorem printable_cons {c : Char} {cs : List Char} :
    Printable (c :: cs) ↔ 32 ≤ c.toNat ∧ Printable cs := List.forall_mem_cons

theorem printable_nil : Printable [] := fun _ member => nomatch member

theorem printable_of_all {cs : List Char} (all : cs.all (fun c => decide (32 ≤ c.toNat)) = true) :
    Printable cs := by
  simpa [Printable] using all

theorem hexDigit_printable : ∀ d < 16, 32 ≤ (hexDigit d).toNat := by
  decide

theorem hex4_printable (n : Nat) : Printable (hex4 n) := by
  have digit := fun k : Nat => hexDigit_printable (k % 16) (Nat.mod_lt _ (by omega))
  simp only [hex4, printable_cons]
  exact ⟨digit _, digit _, digit _, digit _, printable_nil⟩

theorem unicode_printable (n : Nat) : Printable ('\\' :: 'u' :: hex4 n) :=
  printable_cons.mpr ⟨by decide, printable_cons.mpr ⟨by decide, hex4_printable n⟩⟩

theorem escape_printable (u : CodePoint) : Printable (escape u) := by
  cases u with
  | surrogate index => exact unicode_printable _
  | scalar c =>
    rw [escape]
    unfold escapeChar
    iterate 7
      split
      next => exact printable_of_all (by decide)
    split
    next => exact unicode_printable _
    next plain => exact printable_cons.mpr ⟨by omega, printable_nil⟩

theorem quote_printable (s : JsString) : Printable (quote s) := by
  refine printable_cons.mpr ⟨by decide, printable_append.mpr ⟨?_, ?_⟩⟩
  next =>
    intro c member
    obtain ⟨u, -, inside⟩ := List.mem_flatMap.mp member
    exact escape_printable u c inside
  next => exact printable_of_all (by decide)

theorem join_printable {texts : List (List Char)} (each : ∀ text ∈ texts, Printable text) :
    Printable (join texts) := by
  induction texts with
  | nil => exact printable_nil
  | cons first rest ih =>
    have here := each first List.mem_cons_self
    have later := ih fun text member => each text (List.mem_cons_of_mem _ member)
    cases rest with
    | nil => exact here
    | cons second more =>
      exact printable_append.mpr ⟨here, printable_cons.mpr ⟨by decide, later⟩⟩

theorem number_printable (n : JsNumber.Whole) : Printable (JsNumber.text n) := by
  intro c member
  have numeric := JsNumber.text_numeric n c member
  simp only [JsNumber.isNumeric, Char.isDigit, Bool.or_eq_true, Bool.and_eq_true,
    decide_eq_true_eq, List.mem_cons, List.not_mem_nil, or_false] at numeric
  rcases numeric with digit | rfl | rfl | rfl
  next =>
    have low : 48 ≤ c.toNat := UInt32.le_iff_toNat_le.mp digit.1
    omega
  next => decide
  next => decide
  next => decide

mutual

theorem text_printable : ∀ v : Json, Printable v.text
  | .null => printable_of_all (by decide)
  | .bool true => printable_of_all (by decide)
  | .bool false => printable_of_all (by decide)
  | .number n => number_printable n
  | .string s => quote_printable s
  | .array items =>
    printable_cons.mpr ⟨by decide, printable_append.mpr
      ⟨join_printable (items_printable items), printable_of_all (by decide)⟩⟩
  | .object members =>
    printable_cons.mpr ⟨by decide, printable_append.mpr
      ⟨join_printable (members_printable members), printable_of_all (by decide)⟩⟩

theorem items_printable : ∀ items : List Json, ∀ text ∈ itemTexts items, Printable text
  | [] => fun _ member => nomatch member
  | v :: rest => List.forall_mem_cons.mpr ⟨text_printable v, items_printable rest⟩

theorem members_printable : ∀ members : List (JsString × Json),
    ∀ text ∈ memberTexts members, Printable text
  | [] => fun _ member => nomatch member
  | (key, v) :: rest => List.forall_mem_cons.mpr
      ⟨printable_append.mpr ⟨quote_printable key, printable_cons.mpr ⟨by decide, text_printable v⟩⟩,
        members_printable rest⟩

end

end JsonText
