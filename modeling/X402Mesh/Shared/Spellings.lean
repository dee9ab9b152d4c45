import Mathlib.Data.List.TakeWhile
import Mathlib.Tactic.IntervalCases
import Mathlib.Tactic.Ring
import X402Mesh.Lib.Joined
import X402Mesh.Shared.NetGuard

set_option autoImplicit false

namespace X402Mesh.NetGuard

open Joined

structure Group where
  digits : List Char
  hex : ∀ c ∈ digits, (hexDigit? c).isSome = true
  size : 1 ≤ digits.length ∧ digits.length ≤ 4

def Group.value (g : Group) : Nat := hexValue g.digits

structure Quad where
  octets : List Nat
  four : octets.length = 4
  bound : ∀ o ∈ octets, o < 256

namespace Quad

def text (q : Quad) : List Char := ['.'].intercalate (q.octets.map (Nat.toDigits 10))

def value (q : Quad) : Nat := q.octets.foldl (fun n o => n * 256 + o) 0

end Quad

/-- An address as a text: eight groups, of which a dotted quad may stand for the last two, and
`::` for at least one group of zeros. All groups are in `before` where there is no `::`. -/
structure Form where
  before : List Group
  after : Option (List Group)
  quad : Option Quad
  zone : Option (List Char)
  fits : match after with
    | none => before.length + 2 * quad.toList.length = 8
    | some after => before.length + after.length + 2 * quad.toList.length ≤ 7

namespace Form

variable (form : Form)

-- The text, with the digits of each group as `spell` has them.
def spelled (spell : Group → List Char) : List Char :=
  let last := form.quad.toList.map Quad.text
  match form.after with
  | none => [':'].intercalate (form.before.map spell ++ last)
  | some after =>
    [':'].intercalate (form.before.map spell) ++
      ':' :: ':' :: [':'].intercalate (after.map spell ++ last)

def text : String :=
  String.ofList (form.spelled Group.digits ++ form.zone.toList.flatMap fun zone => '%' :: zone)

def groups : List Nat :=
  let last := form.quad.toList.flatMap fun q => [q.value / 65536, q.value % 65536]
  match form.after with
  | none => form.before.map Group.value ++ last
  | some after =>
    let zeros := 8 - (form.before.length + after.length + last.length)
    form.before.map Group.value ++ (List.replicate zeros 0 ++ (after.map Group.value ++ last))

def value : Nat := form.groups.foldl (fun n g => n * 65536 + g) 0

end Form

def inPrefix (value base length : Nat) : Bool :=
  value / 2 ^ (128 - length) = base / 2 ^ (128 - length)

-- An IPv4-compatible or IPv4-mapped address, of an IPv4 address that is blocked.
def embedsBlocked (value : Nat) : Bool :=
  (value / 2 ^ 32 = 0 || value / 2 ^ 32 = 0xffff) && isBlockedValue (value % 2 ^ 32)

def notPublic (value : Nat) : Bool :=
  value = 0 || value = 1 || inPrefix value (0xfc00 * 2 ^ 112) 7 ||
    inPrefix value (0xfe80 * 2 ^ 112) 10 || inPrefix value (0xff00 * 2 ^ 112) 8 ||
    embedsBlocked value

namespace Form

variable (form : Form)

-- "::", "::1", and a dotted quad right behind "::" or "::ffff:".
def recognised : Bool :=
  form.before.isEmpty &&
    match form.after with
    | some [] => true
    | some [g] =>
      if form.quad.isSome then g.digits.map Char.toLower = "ffff".toList else g.digits = ['1']
    | _ => false

-- The first group is short, and with zeros behind it would be in a blocked range.
def misread : Bool :=
  match form.before with
  | [] => false
  | g :: _ => g.digits.length < 4 && isBlockedGroup (hexValue (padEnd g.digits 4 '0'))

structure Judged : Prop where
  recognised : embedsBlocked form.value = true → form.recognised = true
  read : form.misread = false

end Form

theorem positional_lt (base : Nat) (digits : List Nat) (n : Nat) (bound : ∀ d ∈ digits, d < base) :
    digits.foldl (fun n d => n * base + d) n < (n + 1) * base ^ digits.length := by
  induction digits generalizing n with
  | nil => simp
  | cons d rest ih =>
    have small := bound d (by simp)
    have later := ih (n * base + d) fun d member => bound d (by simp [member])
    rw [List.foldl_cons, List.length_cons, pow_succ']
    calc rest.foldl (fun n d => n * base + d) (n * base + d)
        < (n * base + d + 1) * base ^ rest.length := later
      _ ≤ ((n + 1) * base) * base ^ rest.length := by
        apply Nat.mul_le_mul_right
        rw [Nat.add_mul]
        omega
      _ = (n + 1) * (base * base ^ rest.length) := by ring

theorem positional_eq (base : Nat) (digits : List Nat) (n : Nat) :
    digits.foldl (fun n d => n * base + d) n =
      n * base ^ digits.length + digits.foldl (fun n d => n * base + d) 0 := by
  induction digits generalizing n with
  | nil => simp
  | cons d rest ih =>
    rw [List.foldl_cons, List.foldl_cons, ih, ih (0 * base + d), List.length_cons, pow_succ']
    ring

def digitOf (c : Char) : Nat := (hexDigit? c).getD 0

theorem hexValue_positional (cs : List Char) :
    hexValue cs = (cs.map digitOf).foldl (fun n d => n * 16 + d) 0 := by
  rw [List.foldl_map]
  rfl

theorem hexValue_append (a b : List Char) :
    hexValue (a ++ b) = hexValue a * 16 ^ b.length + hexValue b := by
  simp only [hexValue_positional, List.map_append, List.foldl_append]
  rw [positional_eq, List.length_map]

def hexDigits : List Char := "0123456789abcdefABCDEF".toList

theorem mem_hexDigits (c : Char) (digit : (hexDigit? c).isSome = true) : c ∈ hexDigits := by
  have named (n : Nat) (same : c.toNat = n) : c = Char.ofNat n := by rw [← same, Char.ofNat_toNat]
  have ranges : (48 ≤ c.toNat ∧ c.toNat ≤ 57) ∨ (97 ≤ c.toNat ∧ c.toNat ≤ 102) ∨
      (65 ≤ c.toNat ∧ c.toNat ≤ 70) := by
    unfold hexDigit? at digit
    split at digit
    next range => exact .inl range
    split at digit
    next range => exact .inr (.inl range)
    split at digit
    next range => exact .inr (.inr range)
    next => cases digit
  obtain ⟨low, high⟩ | ⟨low, high⟩ | ⟨low, high⟩ := ranges
  all_goals
    generalize code : c.toNat = n at low high
    interval_cases n <;> rw [named _ code] <;> decide

theorem hexDigits_plain : ∀ c ∈ hexDigits, c ≠ ':' ∧ c ≠ '.' ∧ c ≠ '%' ∧
    c.toLower ≠ ':' ∧ c.toLower ≠ '.' ∧ c.toLower ≠ '%' ∧
    hexDigit? c.toLower = hexDigit? c ∧ (c.toLower = '1' → c = '1') :=
  Joined.forall_of_all (by decide)

theorem digitOf_lt : ∀ c ∈ hexDigits, digitOf c < 16 :=
  Joined.forall_of_all (by decide)

theorem octet_digits : ∀ o < 256, isOctet (Nat.toDigits 10 o) = true ∧
    (Nat.toDigits 10 o).all (fun c => c ≠ '.' && c ≠ ':' && c ≠ '%' && c.toLower = c) = true := by
  decide +kernel

namespace Group

variable (g : Group)

def lower : List Char := g.digits.map Char.toLower

theorem plain {c : Char} (member : c ∈ g.digits) : c ≠ ':' ∧ c ≠ '.' ∧ c ≠ '%' ∧
    c.toLower ≠ ':' ∧ c.toLower ≠ '.' ∧ c.toLower ≠ '%' ∧
    hexDigit? c.toLower = hexDigit? c ∧ (c.toLower = '1' → c = '1') :=
  hexDigits_plain c (mem_hexDigits c (g.hex c member))

theorem lower_plain {c : Char} (member : c ∈ g.lower) :
    c ≠ ':' ∧ c ≠ '.' ∧ c ≠ '%' ∧ (hexDigit? c).isSome = true := by
  obtain ⟨d, inside, rfl⟩ := List.mem_map.mp member
  have facts := g.plain inside
  exact ⟨facts.2.2.2.1, facts.2.2.2.2.1, facts.2.2.2.2.2.1, by
    rw [facts.2.2.2.2.2.2.1]
    exact g.hex d inside⟩

theorem lower_ne_nil : g.lower ≠ [] := by
  intro empty
  have size := g.size.1
  rw [← List.length_map (f := Char.toLower), ← lower, empty] at size
  simp at size

theorem lower_one : g.lower = ['1'] ↔ g.digits = ['1'] := by
  constructor
  · intro one
    obtain ⟨c, single⟩ : ∃ c, g.digits = [c] := by
      apply List.length_eq_one_iff.mp
      rw [← List.length_map (f := Char.toLower), ← lower, one]
      rfl
    have last : c.toLower = '1' := by simpa [lower, single] using one
    rw [single, (g.plain (by rw [single]; simp)).2.2.2.2.2.2.2 last]
  · intro one
    rw [lower, one]
    rfl

theorem hexValue_lower : hexValue g.lower = g.value := by
  have same : ∀ c ∈ g.digits, digitOf c.toLower = digitOf c := fun c member => by
    rw [digitOf, (g.plain member).2.2.2.2.2.2.1]
    rfl
  rw [value, hexValue_positional, hexValue_positional, lower, List.map_map,
    List.map_congr_left (f := digitOf ∘ Char.toLower) same]

theorem value_lt : g.value < 16 ^ g.digits.length := by
  have bound : ∀ d ∈ g.digits.map digitOf, d < 16 := by
    intro d member
    obtain ⟨c, inside, rfl⟩ := List.mem_map.mp member
    exact digitOf_lt c (mem_hexDigits c (g.hex c inside))
  have whole := positional_lt 16 _ 0 bound
  rwa [List.length_map, ← hexValue_positional, Nat.zero_add, Nat.one_mul] at whole

theorem hexValue_zeros : ∀ n ≤ 4, hexValue (List.replicate n '0') = 0 := by
  decide

-- A short group, with zeros behind it.
theorem hexValue_padEnd : hexValue (padEnd g.digits 4 '0') = g.value * 16 ^ (4 - g.digits.length) := by
  rw [padEnd, hexValue_append, hexValue_zeros _ (by omega), List.length_replicate, Nat.add_zero]
  rfl

end Group

namespace Quad

variable (q : Quad)

theorem piece {cs : List Char} (member : cs ∈ q.octets.map (Nat.toDigits 10)) :
    isOctet cs = true ∧ ∀ c ∈ cs, c ≠ '.' ∧ c ≠ ':' ∧ c ≠ '%' ∧ c.toLower = c := by
  obtain ⟨o, inside, rfl⟩ := List.mem_map.mp member
  have facts := octet_digits o (q.bound o inside)
  refine ⟨facts.1, fun c digit => ?_⟩
  have plain := List.all_eq_true.mp facts.2 c digit
  simpa [and_assoc] using plain

theorem pieces_ne_nil : q.octets.map (Nat.toDigits 10) ≠ [] := by
  intro empty
  have four := q.four
  rw [List.map_eq_nil_iff.mp empty] at four
  cases four

theorem splitOn_text : q.text.splitOn '.' = q.octets.map (Nat.toDigits 10) :=
  List.splitOn_intercalate '.' (fun _ member inside => ((q.piece member).2 '.' inside).1 rfl)
    q.pieces_ne_nil

theorem isQuad_text : isQuad q.text = true := by
  have octets : (q.octets.map (Nat.toDigits 10)).all isOctet = true :=
    List.all_eq_true.mpr fun _ member => (q.piece member).1
  rw [isQuad, q.splitOn_text, octets]
  simp [q.four]

theorem text_plain {c : Char} (member : c ∈ q.text) : c ≠ ':' ∧ c ≠ '%' ∧ c.toLower = c := by
  obtain rfl | ⟨cs, among, inside⟩ := mem_intercalate member
  · decide
  · exact ((q.piece among).2 c inside).2

theorem map_toLower_text : q.text.map Char.toLower = q.text := by
  have same : ∀ c ∈ q.text, c.toLower = id c := fun c member => (q.text_plain member).2.2
  rw [List.map_congr_left same, List.map_id]

theorem ipv4ToInt_text : ipv4ToInt q.text = some q.value := by
  have read (octets : List Nat) (n : Nat) (bound : ∀ o ∈ octets, o < 256) :
      (octets.map (Nat.toDigits 10)).foldlM (fun value part =>
        if isOctet part then
          let octet := Nat.ofDigitChars 10 part 0
          if octet > 255 then none else some (value * 256 + octet)
        else none) n = some (octets.foldl (fun n o => n * 256 + o) n) := by
    induction octets generalizing n with
    | nil => rfl
    | cons o rest ih =>
      have small : ¬ o > 255 := by
        have := bound o (by simp)
        omega
      rw [List.map_cons, List.foldlM_cons, if_pos (octet_digits o (bound o (by simp))).1]
      simp only [Nat.ofDigitChars_ten_toDigits, small, if_false]
      exact ih _ fun o member => bound o (by simp [member])
  rw [ipv4ToInt, q.splitOn_text]
  simp only [List.length_map, q.four, ne_eq, not_true_eq_false, if_false]
  exact read q.octets 0 q.bound

theorem value_lt : q.value < 2 ^ 32 := by
  have whole := positional_lt 256 q.octets 0 q.bound
  rw [q.four] at whole
  simpa [value] using whole

end Quad

theorem isQuad_plain {cs : List Char} (quad : isQuad cs = true) : '.' ∈ cs ∧ ':' ∉ cs := by
  simp only [isQuad, Bool.and_eq_true, decide_eq_true_eq, List.all_eq_true] at quad
  constructor
  · by_contra absent
    rw [List.splitOn_eq_singleton absent] at quad
    simp at quad
  · intro inside
    have whole : ['.'].intercalate (cs.splitOn '.') = cs := List.intercalate_splitOn '.'
    rw [← whole] at inside
    obtain same | ⟨part, among, member⟩ := mem_intercalate inside
    · cases same
    · have octet := quad.2 part among
      simp only [isOctet, Bool.and_eq_true, List.all_eq_true] at octet
      exact absurd (octet.1 ':' member) (by decide)

theorem embedded_single {rest : List Char} (single : ':' ∉ rest) :
    embedded (':' :: ':' :: rest) = if isQuad rest then some rest else none := by
  have short : (':' :: ':' :: rest).dropPrefix? "::ffff:".toList = none := by
    rw [Option.eq_none_iff_forall_ne_some]
    intro more found
    have whole := (dropPrefix?_eq_some _ _ _).mp found
    apply single
    have tail : rest = 'f' :: 'f' :: 'f' :: 'f' :: ':' :: more := by simpa using whole
    rw [tail]
    simp
  have dropped : (':' :: ':' :: rest).dropPrefix? "::".toList = some rest :=
    (dropPrefix?_eq_some _ _ _).mpr rfl
  rw [embedded, short, dropped]
  cases quad : isQuad rest <;> simp [Option.filter, quad]

theorem embedded_several {first more : List Char} (single : ':' ∉ first) :
    embedded (':' :: ':' :: (first ++ ':' :: more)) =
      if first = "ffff".toList ∧ isQuad more = true then some more else none := by
  have dropped : (':' :: ':' :: (first ++ ':' :: more)).dropPrefix? "::".toList =
      some (first ++ ':' :: more) :=
    (dropPrefix?_eq_some _ _ _).mpr rfl
  have colon : isQuad (first ++ ':' :: more) = false := by
    rw [Bool.eq_false_iff]
    intro quad
    exact (isQuad_plain quad).2 (by simp)
  have front : (':' :: ':' :: (first ++ ':' :: more)).dropPrefix? "::ffff:".toList =
      if first = "ffff".toList then some more else none := by
    apply Option.ext
    intro left
    rw [dropPrefix?_eq_some]
    constructor
    · intro whole
      have tail : first ++ ':' :: more = "ffff".toList ++ ':' :: left := by simpa using whole
      obtain ⟨same, rest⟩ := append_cons_inj single (by decide) tail
      rw [if_pos same, rest]
    · intro found
      split at found
      next same =>
        obtain rfl := Option.some.inj found
        rw [same]
        rfl
      next => cases found
  have second : (some (first ++ ':' :: more)).filter isQuad = none := by
    rw [Option.filter, colon]
    rfl
  rw [embedded, front, dropped, second, Option.or_none]
  split
  next same => cases quad : isQuad more <;> simp [Option.filter, same, quad]
  next other => rw [if_neg fun both => other both.1, Option.filter]

theorem parseHex_padEnd (g : Group) :
    parseHex ((padEnd g.lower 4 '0').take 4) = some (hexValue (padEnd g.digits 4 '0')) := by
  have same : g.lower.length = g.digits.length := List.length_map _
  have length : (padEnd g.lower 4 '0').length = 4 := by
    have size := g.size
    rw [padEnd, List.length_append, List.length_replicate]
    omega
  have hex : ∀ c ∈ padEnd g.lower 4 '0', (hexDigit? c).isSome = true := by
    intro c member
    rw [padEnd, List.mem_append, List.mem_replicate] at member
    obtain written | filled := member
    · exact (g.lower_plain written).2.2.2
    · rw [filled.2]
      decide
  have all : (padEnd g.lower 4 '0').takeWhile (fun c => (hexDigit? c).isSome) =
      padEnd g.lower 4 '0' := List.takeWhile_eq_self_iff.mpr hex
  have filled : (padEnd g.lower 4 '0').isEmpty = false := by simp [padEnd, g.lower_ne_nil]
  have value : hexValue (padEnd g.lower 4 '0') = hexValue (padEnd g.digits 4 '0') := by
    rw [padEnd, hexValue_append, g.hexValue_lower, same, padEnd, hexValue_append]
    rfl
  simp only [List.take_of_length_le length.le, parseHex, all, filled, value]
  rfl

theorem not_isQuad_lower (g : Group) : isQuad g.lower = false := by
  rw [Bool.eq_false_iff]
  intro quad
  exact (g.lower_plain (isQuad_plain quad).1).2.1 rfl

theorem not_isQuad_several (first next : List Char) (more : List (List Char)) :
    isQuad ([':'].intercalate (first :: next :: more)) = false := by
  rw [Bool.eq_false_iff]
  intro quad
  apply (isQuad_plain quad).2
  simp [List.intercalate_cons_cons]

namespace Form

variable (form : Form)

theorem map_toLower_spelled :
    (form.spelled Group.digits).map Char.toLower = form.spelled Group.lower := by
  have groups (gs : List Group) :
      (gs.map Group.digits).map (List.map Char.toLower) = gs.map Group.lower := by
    rw [List.map_map]
    rfl
  have last : (form.quad.toList.map Quad.text).map (List.map Char.toLower) =
      form.quad.toList.map Quad.text := by
    cases form.quad with
    | none => rfl
    | some q => simp [q.map_toLower_text]
  have colon : List.map Char.toLower [':'] = [':'] := rfl
  simp only [spelled]
  split
  next => rw [map_intercalate, List.map_append, groups, last, colon]
  next =>
    simp only [List.map_append, List.map_cons, map_intercalate, groups, last, List.map_nil]
    rfl

theorem mem_spelled {c : Char} (member : c ∈ form.spelled Group.lower) : c ≠ '%' := by
  have groups (gs : List Group) (quad : Option Quad)
      (inside : c ∈ [':'].intercalate (gs.map Group.lower ++ quad.toList.map Quad.text)) :
      c ≠ '%' := by
    obtain rfl | ⟨part, among, inside⟩ := mem_intercalate inside
    · decide
    · rw [List.mem_append, List.mem_map, List.mem_map] at among
      obtain ⟨g, -, rfl⟩ | ⟨q, -, rfl⟩ := among
      · exact (g.lower_plain inside).2.2.1
      · exact (q.text_plain inside).2.1
  simp only [spelled] at member
  split at member
  next => exact groups form.before form.quad member
  next after _ =>
    simp only [List.mem_append, List.mem_cons] at member
    obtain front | rfl | rfl | back := member
    · exact groups form.before none (by simpa using front)
    · decide
    · decide
    · exact groups after form.quad back

-- The zone is cut off, and the rest is in lower case.
theorem normalized :
    ((form.text.toList.map Char.toLower).splitOn '%').headD [] = form.spelled Group.lower := by
  have free : '%' ∉ form.spelled Group.lower := fun inside => form.mem_spelled inside rfl
  rw [text, String.toList_ofList, List.map_append, map_toLower_spelled]
  cases form.zone with
  | none =>
    rw [Option.toList_none, List.flatMap_nil, List.map_nil, List.append_nil,
      List.splitOn_eq_singleton free]
    rfl
  | some zone =>
    simp only [Option.toList_some, List.flatMap_singleton, List.map_cons]
    change ((_ ++ '%' :: _).splitOn '%').headD [] = _
    rw [List.splitOn_append_cons_self_of_not_mem free]
    rfl

-- What is judged of a text that does not start with "::".
theorem judged_group (g : Group) (rest : List Group) (first : form.before = g :: rest) :
    isBlockedIPv6 form.text.toList = isBlockedGroup (hexValue (padEnd g.digits 4 '0')) := by
  obtain ⟨c, digits, lower⟩ := List.exists_cons_of_ne_nil g.lower_ne_nil
  have hex : c ≠ ':' := (g.lower_plain (by rw [lower]; simp : c ∈ g.lower)).1
  have tail : ∃ more, form.spelled Group.lower = g.lower ++ more ∧
      (more = [] ∨ ∃ left, more = ':' :: left) := by
    have front (parts : List (List Char)) : ∃ more, [':'].intercalate (g.lower :: parts) =
        g.lower ++ more ∧ (more = [] ∨ ∃ left, more = ':' :: left) := by
      cases parts with
      | nil => exact ⟨[], by simp, .inl rfl⟩
      | cons part parts =>
        refine ⟨':' :: [':'].intercalate (part :: parts), ?_, .inr ⟨_, rfl⟩⟩
        rw [List.intercalate_cons_cons]
        simp
    simp only [spelled, first, List.map_cons, List.cons_append]
    split
    next => exact front _
    next after _ =>
      obtain ⟨more, whole, ends⟩ := front (rest.map Group.lower)
      rw [whole]
      refine ⟨more ++ ':' :: ':' :: [':'].intercalate
        (after.map Group.lower ++ form.quad.toList.map Quad.text), List.append_assoc _ _ _, ?_⟩
      obtain rfl | ⟨left, rfl⟩ := ends
      · exact .inr ⟨_, rfl⟩
      · exact .inr ⟨_, rfl⟩
  obtain ⟨more, whole, ends⟩ := tail
  have head : ((form.spelled Group.lower).splitOn ':').headD [] = g.lower := by
    have free : ':' ∉ g.lower := fun inside => (g.lower_plain inside).1 rfl
    rw [whole]
    obtain rfl | ⟨left, rfl⟩ := ends
    · rw [List.append_nil, List.splitOn_eq_singleton free]
      rfl
    · rw [List.splitOn_append_cons_self_of_not_mem free]
      rfl
  have start : form.spelled Group.lower = c :: (digits ++ more) := by rw [whole, lower]; rfl
  have plain : embedded (form.spelled Group.lower) = none := by
    have dropped (front : List Char) : (c :: (digits ++ more)).dropPrefix? (':' :: front) = none := by
      rw [Option.eq_none_iff_forall_ne_some]
      intro left found
      have same := (dropPrefix?_eq_some _ _ _).mp found
      rw [List.cons_append, List.cons.injEq] at same
      exact hex same.1
    rw [start]
    change (Option.filter isQuad ((c :: (digits ++ more)).dropPrefix? (':' :: _))).or
      (Option.filter isQuad ((c :: (digits ++ more)).dropPrefix? (':' :: _))) = none
    rw [dropped, dropped]
    rfl
  have other (front : List Char) : form.spelled Group.lower ≠ ':' :: front := by
    rw [start]
    intro same
    exact hex (List.cons.inj same).1
  simp only [isBlockedIPv6, normalized, plain, head]
  rw [if_neg, if_neg, parseHex_padEnd]
  · exact fun empty => g.lower_ne_nil (List.length_eq_zero_iff.mp empty)
  · exact not_or.mpr ⟨other _, other _⟩

-- What is judged of a text that starts with "::".
theorem judged_zeros (after : List Group) (first : form.before = [])
    (behind : form.after = some after) :
    isBlockedIPv6 form.text.toList =
      match embedded (':' :: ':' :: [':'].intercalate
        (after.map Group.lower ++ form.quad.toList.map Quad.text)) with
      | some quad => isBlockedIPv4 quad
      | none => [':'].intercalate (after.map Group.lower ++ form.quad.toList.map Quad.text) ∈
          [[], ['1']] := by
  have whole : form.spelled Group.lower = ':' :: ':' :: [':'].intercalate
      (after.map Group.lower ++ form.quad.toList.map Quad.text) := by
    simp [spelled, first, behind]
  generalize [':'].intercalate (after.map Group.lower ++ form.quad.toList.map Quad.text) = rest at *
  have head : ((':' :: ':' :: rest).splitOn ':').headD [] = [] := by
    have cut : ([] ++ ':' :: (':' :: rest)).splitOn ':' = [] :: (':' :: rest).splitOn ':' :=
      List.splitOn_append_cons_self_of_not_mem (List.not_mem_nil) _
    rw [List.nil_append] at cut
    rw [cut]
    rfl
  simp only [isBlockedIPv6, normalized, whole]
  cases embedded (':' :: ':' :: rest) with
  | some quad => rfl
  | none =>
    simp only [head, List.length_nil, if_true]
    by_cases one : ':' :: ':' :: rest = "::".toList ∨ ':' :: ':' :: rest = "::1".toList
    · rw [if_pos one]
      simpa using one
    · rw [if_neg one]
      simpa using one

end Form

-- A mask that leaves the last six bits out looks at the others alone.
theorem and_block (h l m : Nat) (low : l < 64) : (h * 64 + l) &&& (m * 64) = (h &&& m) * 64 := by
  have high : ((h * 64 + l) &&& (m * 64)) / 2 ^ 6 = h &&& m := by
    rw [Nat.and_div_two_pow]
    congr 1 <;> omega
  have rest : ((h * 64 + l) &&& (m * 64)) % 2 ^ 6 = 0 := by
    rw [Nat.and_mod_two_pow]
    have zero : m * 64 % 2 ^ 6 = 0 := by omega
    rw [zero, Nat.and_zero]
  omega

theorem isBlockedGroup_iff (g : Nat) (bound : g < 65536) :
    isBlockedGroup g = (g / 512 = 126 || (g / 64 = 1018 || g / 256 = 255) : Bool) := by
  have table : ∀ h < 1024, isBlockedGroup (h * 64) =
      (h / 8 = 126 || (h = 1018 || h / 4 = 255) : Bool) := by
    decide +kernel
  have high := table (g / 64) (by omega)
  have same (m : Nat) : g &&& (m * 64) = g / 64 * 64 &&& (m * 64) := by
    have whole := and_block (g / 64) (g % 64) m (by omega)
    have bare := and_block (g / 64) 0 m (by omega)
    rw [Nat.div_add_mod'] at whole
    rw [whole, ← bare, Nat.add_zero]
  have group : isBlockedGroup g = isBlockedGroup (g / 64 * 64) := by
    simp only [isBlockedGroup]
    rw [same 1016, same 1023, same 1020]
  rw [group, high, Nat.div_div_eq_div_mul, Nat.div_div_eq_div_mul]
theorem embedsBlocked_small (value : Nat) (small : value < 2) : embedsBlocked value = true := by
  have both : ∀ v < 2, embedsBlocked v = true := by decide
  exact both value small

theorem notPublic_eq (g r : Nat) (bound : g < 65536) (low : r < 65536 ^ 7) :
    notPublic (g * 65536 ^ 7 + r) =
      (isBlockedGroup g || embedsBlocked (g * 65536 ^ 7 + r)) := by
  have leading (base length : Nat) (short : length ≤ 16) :
      inPrefix (g * 65536 ^ 7 + r) (base * 2 ^ 112) length =
        decide (g / 2 ^ (16 - length) = base / 2 ^ (16 - length)) := by
    have cut (n rest : Nat) (small : rest < 65536 ^ 7) :
        (n * 65536 ^ 7 + rest) / 2 ^ (128 - length) = n / 2 ^ (16 - length) := by
      have whole : 128 - length = 112 + (16 - length) := by omega
      rw [whole, pow_add, ← Nat.div_div_eq_div_mul]
      congr 1
      omega
    rw [inPrefix, cut g r low]
    have base := cut base 0 (by norm_num)
    norm_num at base ⊢
    rw [base]
  have zero : (g * 65536 ^ 7 + r = 0 || g * 65536 ^ 7 + r = 1 : Bool) = true →
      embedsBlocked (g * 65536 ^ 7 + r) = true := by
    intro least
    apply embedsBlocked_small
    simp at least
    omega
  rw [notPublic, leading _ 7 (by omega), leading _ 10 (by omega), leading _ 8 (by omega),
    isBlockedGroup_iff g bound]
  cases embeds : embedsBlocked (g * 65536 ^ 7 + r) with
  | true => simp
  | false =>
    rw [embeds] at zero
    have least : (g * 65536 ^ 7 + r = 0 || g * 65536 ^ 7 + r = 1 : Bool) = false :=
      Bool.eq_false_iff.mpr fun both => Bool.false_ne_true (zero both)
    rw [least]
    simp only [Bool.or_false, Bool.false_or, Bool.or_assoc]
    norm_num

theorem embedsBlocked_group (g r : Nat) (low : r < 65536 ^ 7)
    (embeds : embedsBlocked (g * 65536 ^ 7 + r) = true) : g = 0 := by
  simp only [embedsBlocked, Bool.and_eq_true, Bool.or_eq_true, decide_eq_true_eq] at embeds
  have := embeds.1
  omega

theorem isBlockedGroup_small (g : Nat) (small : g < 16 ^ 3) : isBlockedGroup g = false := by
  rw [isBlockedGroup_iff g (by omega), Bool.or_eq_false_iff, Bool.or_eq_false_iff]
  simp only [decide_eq_false_iff_not]
  omega

theorem embedsBlocked_compatible (value : Nat) (bound : value < 2 ^ 32) :
    embedsBlocked value = isBlockedValue value := by
  rw [embedsBlocked, Nat.div_eq_of_lt bound, Nat.mod_eq_of_lt bound]
  rfl

theorem embedsBlocked_mapped (value : Nat) (bound : value < 2 ^ 32) :
    embedsBlocked (0xffff * 2 ^ 32 + value) = isBlockedValue value := by
  have high : (0xffff * 2 ^ 32 + value) / 2 ^ 32 = 0xffff := by omega
  have low : (0xffff * 2 ^ 32 + value) % 2 ^ 32 = value := by omega
  rw [embedsBlocked, high, low]
  rfl

theorem Group.value_bound (g : Group) : g.value < 65536 := by
  calc g.value < 16 ^ g.digits.length := g.value_lt
    _ ≤ 16 ^ 4 := Nat.pow_le_pow_right (by omega) g.size.2
    _ = 65536 := by norm_num

theorem Quad.halves (q : Quad) : ∀ n ∈ [q.value / 65536, q.value % 65536], n < 65536 := by
  have bound := q.value_lt
  simp
  omega

namespace Form

variable (form : Form)

-- The groups at the end, of which a quad makes two.
def last : List Nat := form.quad.toList.flatMap fun q => [q.value / 65536, q.value % 65536]

theorem length_last : form.last.length = 2 * form.quad.toList.length := by
  unfold last
  cases form.quad <;> rfl

theorem groups_lt : ∀ n ∈ form.groups, n < 65536 := by
  have written (gs : List Group) : ∀ n ∈ gs.map Group.value ++ form.last, n < 65536 := by
    intro n member
    rw [List.mem_append, List.mem_map, last, List.mem_flatMap] at member
    obtain ⟨g, -, rfl⟩ | ⟨q, -, half⟩ := member
    · exact g.value_bound
    · exact q.halves n half
  intro n member
  simp only [groups] at member
  split at member
  next => exact written form.before n member
  next after _ =>
    rw [List.mem_append, List.mem_append, List.mem_replicate] at member
    obtain front | ⟨-, rfl⟩ | back := member
    · exact written form.before n (List.mem_append_left _ front)
    · decide
    · exact written after n back

theorem length_groups : form.groups.length = 8 := by
  have fits := form.fits
  have quad := form.length_last
  simp only [groups]
  split
  next whole =>
    rw [whole] at fits
    simp only [List.length_append, List.length_map]
    exact (congrArg _ quad).trans fits
  next after cut =>
    rw [cut] at fits
    simp only [List.length_append, List.length_map, List.length_replicate]
    change form.before.length + (8 - (form.before.length + after.length + form.last.length) +
      (after.length + form.last.length)) = 8
    omega

-- The first group is the highest.
theorem value_eq (first : Nat) (rest : List Nat) (groups : form.groups = first :: rest) :
    ∃ low < 65536 ^ 7, form.value = first * 65536 ^ 7 + low := by
  have length := form.length_groups
  rw [groups, List.length_cons] at length
  have seven : rest.length = 7 := by omega
  have bound := positional_lt 65536 rest 0 fun n member =>
    form.groups_lt n (groups ▸ List.mem_cons_of_mem _ member)
  rw [seven] at bound
  refine ⟨_, by simpa using bound, ?_⟩
  rw [value, groups, List.foldl_cons, positional_eq, seven]
  ring

theorem groups_zeros (after : List Group) (first : form.before = [])
    (behind : form.after = some after) :
    form.groups = List.replicate (8 - (after.length + form.last.length)) 0 ++
      (after.map Group.value ++ form.last) := by
  simp only [groups, first, behind, List.length_nil, Nat.zero_add]
  rfl

-- Only "::" leaves out the first group.
theorem after_of_before (first : form.before = []) : ∃ after, form.after = some after := by
  have fits := form.fits
  cases behind : form.after with
  | some after => exact ⟨after, rfl⟩
  | none =>
    rw [behind, first] at fits
    cases quad : form.quad <;> simp [quad] at fits

theorem value_small (first : form.before = []) : form.value < 65536 ^ 7 := by
  obtain ⟨after, behind⟩ := form.after_of_before first
  have zeros := form.groups_zeros after first behind
  have fits := form.fits
  rw [behind, first] at fits
  have least : 8 - (after.length + form.last.length) = 7 - (after.length + form.last.length) + 1 := by
    have quad := form.length_last
    simp only [List.length_nil, Nat.zero_add] at fits
    omega
  rw [least, List.replicate_succ, List.cons_append] at zeros
  obtain ⟨low, bound, whole⟩ := form.value_eq _ _ zeros
  rw [whole]
  omega

theorem isBlockedIPv4_text (q : Quad) : isBlockedIPv4 q.text = isBlockedValue q.value := by
  rw [isBlockedIPv4, q.ipv4ToInt_text]

theorem judged_before_nil (first : form.before = []) :
    isBlockedIPv6 form.text.toList =
      (form.recognised && embedsBlocked form.value) := by
  obtain ⟨after, behind⟩ := form.after_of_before first
  rw [form.judged_zeros after first behind]
  have groups := form.groups_zeros after first behind
  have value : form.value = form.groups.foldl (fun n g => n * 65536 + g) 0 := rfl
  rw [groups] at value
  cases after with
  | nil =>
    have spelling : form.recognised = true := by simp [recognised, first, behind]
    rw [spelling, Bool.true_and]
    cases quad : form.quad with
    | none =>
      simp [last, quad, List.replicate] at value
      rw [value]
      decide
    | some q =>
      have same : form.value = q.value := by
        simp [last, quad, List.replicate] at value
        omega
      have rest : [':'].intercalate (([] : List Group).map Group.lower ++
          (some q).toList.map Quad.text) = q.text := by simp
      rw [rest, embedded_single fun inside => (q.text_plain inside).1 rfl, q.isQuad_text, same,
        embedsBlocked_compatible _ q.value_lt]
      exact isBlockedIPv4_text q
  | cons g more =>
    have free : ':' ∉ g.lower := fun inside => (g.lower_plain inside).1 rfl
    have long (back : List Char) : decide (g.lower ++ ':' :: back ∈ [[], ['1']]) = false := by
      obtain ⟨c, digits, lower⟩ := List.exists_cons_of_ne_nil g.lower_ne_nil
      simp [lower]
    cases more with
    | nil =>
      cases quad : form.quad with
      | none =>
        have spelling : form.recognised = decide (g.digits = ['1']) := by
          simp [recognised, first, behind, quad]
        have rest : [':'].intercalate ([g].map Group.lower ++
            (none : Option Quad).toList.map Quad.text) = g.lower := by simp
        rw [rest, embedded_single free, not_isQuad_lower, spelling]
        by_cases one : g.digits = ['1']
        · have unit : form.value = 1 := by
            simp [last, quad, List.replicate, Group.value, one] at value
            rw [value]
            decide
          rw [unit, g.lower_one.mpr one, one]
          decide
        · have other : g.lower ≠ ['1'] := fun same => one (g.lower_one.mp same)
          simp [one, other, g.lower_ne_nil]
      | some q =>
        have spelling : form.recognised = decide (g.lower = "ffff".toList) := by
          rw [recognised, first, behind, quad]
          rfl
        have rest : [':'].intercalate ([g].map Group.lower ++
            (some q).toList.map Quad.text) = g.lower ++ ':' :: q.text := by simp
        rw [rest, embedded_several free, q.isQuad_text, spelling]
        by_cases mapped : g.lower = "ffff".toList
        · have group : g.value = 0xffff := by
            rw [← g.hexValue_lower, mapped]
            decide
          have same : form.value = 0xffff * 2 ^ 32 + q.value := by
            have join (n : Nat) : (0xffff * 65536 + n / 65536) * 65536 + n % 65536 =
                0xffff * 2 ^ 32 + n := by omega
            simp [last, quad, List.replicate, group] at value
            exact value.trans (join q.value)
          have both : g.lower = "ffff".toList ∧ (true : Bool) = true := ⟨mapped, rfl⟩
          have embeds := embedsBlocked_mapped _ q.value_lt
          rw [← same] at embeds
          rw [if_pos both, decide_eq_true mapped, Bool.true_and, embeds]
          exact isBlockedIPv4_text q
        · rw [if_neg fun both => mapped both.1]
          simp only [long, mapped, decide_false, Bool.false_and]
    | cons h more =>
      have spelling : form.recognised = false := by simp [recognised, behind]
      have rest : [':'].intercalate ((g :: h :: more).map Group.lower ++
          form.quad.toList.map Quad.text) = g.lower ++ ':' :: [':'].intercalate (h.lower ::
            (more.map Group.lower ++ form.quad.toList.map Quad.text)) := by
        simp [List.intercalate_cons_cons]
      have back : isQuad ([':'].intercalate (h.lower ::
          (more.map Group.lower ++ form.quad.toList.map Quad.text))) = false := by
        cases more.map Group.lower ++ form.quad.toList.map Quad.text with
        | nil => simpa using not_isQuad_lower h
        | cons next parts => exact not_isQuad_several _ _ _
      rw [rest, embedded_several free, back, spelling]
      simp only [Bool.false_eq_true, and_false, if_false, long, Bool.false_and]

theorem notPublic_before_nil (first : form.before = []) :
    notPublic form.value = embedsBlocked form.value := by
  have whole := notPublic_eq 0 form.value (by decide) (form.value_small first)
  rw [Nat.zero_mul, Nat.zero_add] at whole
  rw [whole]
  rfl

theorem groups_before (g : Group) (rest : List Group) (first : form.before = g :: rest) :
    ∃ more, form.groups = g.value :: more := by
  simp only [groups, first, List.map_cons, List.cons_append]
  split <;> exact ⟨_, rfl⟩

theorem judged_iff :
    isBlockedIPv6 form.text.toList = notPublic form.value ↔ form.Judged := by
  cases first : form.before with
  | nil =>
    have read : form.misread = false := by rw [misread, first]
    rw [form.judged_before_nil first, form.notPublic_before_nil first]
    constructor
    · intro same
      refine ⟨fun embeds => ?_, read⟩
      rw [embeds, Bool.and_true] at same
      exact same
    · intro judged
      cases embeds : embedsBlocked form.value with
      | false => rw [Bool.and_false]
      | true => rw [judged.recognised embeds]; rfl
  | cons g rest =>
    obtain ⟨more, groups⟩ := form.groups_before g rest first
    obtain ⟨low, bound, value⟩ := form.value_eq _ _ groups
    have spelling : form.recognised = false := by rw [recognised, first]; rfl
    have short : form.misread = (decide (g.digits.length < 4) &&
        isBlockedGroup (hexValue (padEnd g.digits 4 '0'))) := by rw [misread, first]
    have padded := g.hexValue_padEnd
    -- Three digits are too few for any of the ranges.
    have few (size : g.digits.length < 4) : isBlockedGroup g.value = false := by
      apply isBlockedGroup_small
      calc g.value < 16 ^ g.digits.length := g.value_lt
        _ ≤ 16 ^ 3 := Nat.pow_le_pow_right (by omega) (by omega)
    -- An address that embeds one starts with a group of zeros, which no padding changes.
    have zero (embeds : embedsBlocked form.value = true) : isBlockedGroup g.value = false ∧
        isBlockedGroup (hexValue (padEnd g.digits 4 '0')) = false := by
      rw [value] at embeds
      have none := embedsBlocked_group _ _ bound embeds
      rw [padded, none, Nat.zero_mul]
      decide
    have meant := notPublic_eq _ _ g.value_bound bound
    rw [← value] at meant
    rw [form.judged_group g rest first, meant]
    constructor
    · intro same
      have embeds : embedsBlocked form.value = false := by
        rw [Bool.eq_false_iff]
        intro embeds
        rw [(zero embeds).1, (zero embeds).2, embeds] at same
        cases same
      refine ⟨fun embeds' => ?_, ?_⟩
      · rw [embeds] at embeds'
        cases embeds'
      · by_cases size : g.digits.length < 4
        · rw [few size, embeds] at same
          rw [short, same]
          simp
        · simp [short, size]
    · intro judged
      have embeds : embedsBlocked form.value = false := by
        rw [Bool.eq_false_iff]
        intro embeds
        rw [judged.recognised embeds] at spelling
        cases spelling
      rw [embeds, Bool.or_false]
      by_cases size : g.digits.length < 4
      · have read := judged.read
        rw [short, decide_eq_true size, Bool.true_and] at read
        rw [read, few size]
      · have four : g.digits.length = 4 := by
          have := g.size.2
          omega
        rw [padded, four, Nat.sub_self, pow_zero, Nat.mul_one]

end Form

section

variable (isIP : String → Nat)

theorem isBlockedAddress_six (form : Form) (six : isIP form.text = 6) :
    isBlockedAddress isIP form.text = isBlockedIPv6 form.text.toList := by
  rw [isBlockedAddress, six]
  rfl

/-- The address alone decides for exactly the spellings in which a blocked IPv4 address shows as a
dotted quad and no short first group reads as a blocked range. -/
theorem isBlockedAddress_iff (form : Form) (six : isIP form.text = 6) :
    isBlockedAddress isIP form.text = notPublic form.value ↔ form.Judged := by
  rw [isBlockedAddress_six isIP form six]
  exact form.judged_iff

end

-- What a URL parser makes of `::ffff:169.254.169.254`.
def mappedMetadata : Form where
  before := []
  after := some [⟨"ffff".toList, List.all_eq_true.mp (by decide), by decide⟩,
    ⟨"a9fe".toList, List.all_eq_true.mp (by decide), by decide⟩,
    ⟨"a9fe".toList, List.all_eq_true.mp (by decide), by decide⟩]
  quad := none
  zone := none
  fits := by decide

def dottedMetadata : Form where
  before := []
  after := some [⟨"ffff".toList, List.all_eq_true.mp (by decide), by decide⟩]
  quad := some ⟨[169, 254, 169, 254], by decide, by decide⟩
  zone := none
  fits := by decide

theorem isBlockedAddress_iff_metadata :
    isBlockedAddress (fun _ => 6) mappedMetadata.text = notPublic mappedMetadata.value ↔
      mappedMetadata.Judged :=
  isBlockedAddress_iff (fun _ => 6) mappedMetadata rfl

-- One address, and the guard lets it through in the form that a URL carries.
theorem metadata_spellings :
    mappedMetadata.text = "::ffff:a9fe:a9fe" ∧ dottedMetadata.text = "::ffff:169.254.169.254" ∧
      mappedMetadata.value = dottedMetadata.value ∧ notPublic mappedMetadata.value = true ∧
      ∀ isIP : String → Nat, isIP mappedMetadata.text = 6 → isIP dottedMetadata.text = 6 →
        isBlockedAddress isIP mappedMetadata.text = false ∧
          isBlockedAddress isIP dottedMetadata.text = true := by
  refine ⟨by decide, by decide, by decide, by decide, ?_⟩
  intro isIP mapped dotted
  rw [isBlockedAddress_six isIP _ mapped, isBlockedAddress_six isIP _ dotted]
  decide

end X402Mesh.NetGuard
