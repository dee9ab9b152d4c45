import Mathlib.Tactic.FieldSimp
import Mathlib.Tactic.Linarith
import Mathlib.Data.Rat.Cast.Order
import X402Mesh.Shared.Money

set_option autoImplicit false

namespace X402Mesh.Money

open Text

/-- The texts of amounts and the dollars they stand for: an optional dollar sign, one or more
digits, and optionally a dot with zero to six digits. -/
def Amount (cs : List Char) (value : ℚ) : Prop :=
  ∃ dollar whole point fraction, cs = dollar ++ (whole ++ (point ++ fraction)) ∧
    (dollar = [] ∨ dollar = ['$']) ∧ isDecimal whole = true ∧
    (point = ['.'] ∨ point = [] ∧ fraction = []) ∧
    (∀ c ∈ fraction, c.isDigit = true) ∧ fraction.length ≤ usdcDecimals ∧
    value = decimalValue whole + decimalValue fraction / 10 ^ fraction.length

theorem decimalValue_padded (fraction : List Char) (count : Nat) :
    decimalValue (fraction ++ List.replicate count '0') = 10 ^ count * decimalValue fraction := by
  simp [decimalValue, Nat.ofDigitChars_append]

theorem decimalValue_leading (count : Nat) (cs : List Char) :
    decimalValue (List.replicate count '0' ++ cs) = decimalValue cs := by
  simp [decimalValue, Nat.ofDigitChars_append]

-- The whole part ends where the dot stands or where the text ends.
theorem takeWhile_whole {whole rest : List Char} (digits : ∀ c ∈ whole, c.isDigit = true)
    (stops : rest = [] ∨ ∃ tail, rest = '.' :: tail) :
    (whole ++ rest).takeWhile Char.isDigit = whole ∧
      (whole ++ rest).dropWhile Char.isDigit = rest := by
  induction whole with
  | nil =>
    cases stops with
    | inl empty => simp [empty]
    | inr point =>
      obtain ⟨tail, rfl⟩ := point
      exact ⟨rfl, rfl⟩
  | cons c whole ih =>
    have head := digits c (by simp)
    have inner := ih fun d member => digits d (by simp [member])
    simp [head, inner]

theorem bare_of_digit {c : Char} (cs : List Char) (digit : c.isDigit = true) :
    bare (c :: cs) = c :: cs := by
  have other : c ≠ '$' := by
    rintro rfl
    cases digit
  simp [bare, other.symm]

theorem start_digit {whole : List Char} (digits : isDecimal whole = true) (rest : List Char) :
    ∃ c tail, whole ++ rest = c :: tail ∧ c.isDigit = true := by
  cases whole with
  | nil => cases digits
  | cons c whole => exact ⟨c, whole ++ rest, rfl, digits_of_isDecimal digits c (by simp)⟩

theorem bare_dollar {dollar rest : List Char} (sign : dollar = [] ∨ dollar = ['$'])
    (start : ∃ c tail, rest = c :: tail ∧ c.isDigit = true) : bare (dollar ++ rest) = rest := by
  obtain ⟨c, tail, rfl, digit⟩ := start
  cases sign with
  | inl none => rw [none, List.nil_append, bare_of_digit tail digit]
  | inr some => rw [some]; rfl

theorem dollar_bare (cs : List Char) :
    ∃ dollar, cs = dollar ++ bare cs ∧ (dollar = [] ∨ dollar = ['$']) := by
  rw [bare]
  split
  next sign =>
    obtain ⟨rest, rfl⟩ := List.isPrefixOf_iff_prefix.mp sign
    exact ⟨['$'], rfl, .inr rfl⟩
  next => exact ⟨[], rfl, .inl rfl⟩

theorem decimal?_written {whole point fraction : List Char} (digits : isDecimal whole = true)
    (dot : point = ['.'] ∨ point = [] ∧ fraction = []) (decimals : ∀ c ∈ fraction, c.isDigit = true)
    (short : fraction.length ≤ usdcDecimals) :
    decimal? (whole ++ (point ++ fraction)) = some (decimalValue whole * scale +
      10 ^ (usdcDecimals - fraction.length) * decimalValue fraction) := by
  have stops : point ++ fraction = [] ∨ ∃ tail, point ++ fraction = '.' :: tail := by
    cases dot with
    | inl dot => exact .inr ⟨fraction, by rw [dot]; rfl⟩
    | inr none => exact .inl (by rw [none.1, none.2]; rfl)
  have parts := takeWhile_whole (digits_of_isDecimal digits) stops
  have after : (point ++ fraction).drop 1 = fraction := by
    cases dot with
    | inl dot => rw [dot]; rfl
    | inr none => rw [none.1, none.2]; rfl
  have numeral : isNumeral (whole ++ (point ++ fraction)) = true := by
    have some : whole.isEmpty = false := by
      simp only [isDecimal, Bool.and_eq_true, Bool.not_eq_true'] at digits
      exact digits.1
    rw [isNumeral, parts.1, parts.2, some, after]
    cases dot with
    | inl dot => simpa [dot] using decimals
    | inr none => simp [none.1, none.2]
  rw [decimal?, parts.1, parts.2, numeral, after, if_pos (by simpa using short),
    decimalValue_padded]

theorem decimal?_shape {cs : List Char} {a : Int} (value : decimal? cs = some a) :
    ∃ whole point fraction, cs = whole ++ (point ++ fraction) ∧ isDecimal whole = true ∧
      (point = ['.'] ∨ point = [] ∧ fraction = []) ∧ (∀ c ∈ fraction, c.isDigit = true) ∧
      fraction.length ≤ usdcDecimals := by
  have whole := List.takeWhile_append_dropWhile (p := Char.isDigit) (l := cs)
  simp only [decimal?] at value
  split at value
  next accepted =>
    simp only [isNumeral, Bool.and_eq_true, Bool.or_eq_true, Bool.not_eq_true',
      decide_eq_true_eq] at accepted
    obtain ⟨⟨some, rest⟩, short⟩ := accepted
    have digits : isDecimal (cs.takeWhile Char.isDigit) = true := by
      simp only [isDecimal, some, Bool.not_false, Bool.true_and]
      exact List.all_takeWhile
    cases after : cs.dropWhile Char.isDigit with
    | nil =>
      refine ⟨cs.takeWhile Char.isDigit, [], [], ?_, digits, .inr ⟨rfl, rfl⟩, by simp, by simp⟩
      rw [after] at whole
      exact whole.symm
    | cons dot fraction =>
      rw [after] at whole rest short
      simp only [List.isEmpty_cons, Bool.false_eq_true, List.head?_cons, Option.some.injEq,
        List.drop_succ_cons, List.drop_zero, List.all_eq_true, false_or] at rest
      refine ⟨cs.takeWhile Char.isDigit, ['.'], fraction, ?_, digits, .inl rfl, rest.2,
        by simpa using short⟩
      rw [← rest.1]
      exact whole.symm
  next => cases value

theorem scaled_iff (whole fraction a : Int) {count : Nat} (short : count ≤ usdcDecimals) :
    whole * scale + 10 ^ (usdcDecimals - count) * fraction = a ↔
      (a : ℚ) / 10 ^ usdcDecimals = whole + fraction / 10 ^ count := by
  have join : (10 : ℚ) ^ usdcDecimals = 10 ^ (usdcDecimals - count) * 10 ^ count := by
    rw [← pow_add, Nat.sub_add_cancel short]
  have positive : (0 : ℚ) < 10 ^ count := by positivity
  have other : (0 : ℚ) < 10 ^ (usdcDecimals - count) := by positivity
  rw [← Int.cast_inj (α := ℚ)]
  push_cast [scale]
  rw [join, div_eq_iff (by positivity)]
  constructor
  next =>
    intro same
    rw [← same]
    field_simp
  next =>
    intro same
    rw [same]
    field_simp

theorem amount_iff (usdc : String) (a : Int) :
    usdcToAtomic usdc = .ok a ↔ Amount (trim usdc.toList) ((a : ℚ) / 10 ^ usdcDecimals) := by
  rw [usdcToAtomic_eq_ok]
  generalize trim usdc.toList = cs
  constructor
  next =>
    intro value
    obtain ⟨dollar, split, sign⟩ := dollar_bare cs
    obtain ⟨whole, point, fraction, shape, digits, dot, decimals, short⟩ := decimal?_shape value
    rw [shape, decimal?_written digits dot decimals short, Option.some.injEq] at value
    rw [shape] at split
    exact ⟨dollar, whole, point, fraction, split, sign, digits, dot, decimals, short,
      (scaled_iff _ _ a short).mp value⟩
  next =>
    intro amount
    obtain ⟨dollar, whole, point, fraction, rfl, sign, digits, dot, decimals, short, value⟩ := amount
    rw [bare_dollar sign (start_digit digits _), decimal?_written digits dot decimals short,
      (scaled_iff _ _ a short).mpr value]

theorem amount_scaled {cs : List Char} {value : ℚ} (amount : Amount cs value) :
    ∃ a : Int, (a : ℚ) / 10 ^ usdcDecimals = value := by
  obtain ⟨dollar, whole, point, fraction, shape, sign, digits, dot, decimals, short, rfl⟩ := amount
  exact ⟨_, (scaled_iff (decimalValue whole) (decimalValue fraction) _ short).mp rfl⟩

def printed (n : Nat) : List Char :=
  let fraction := Nat.toDigits 10 (n % 10 ^ usdcDecimals)
  Nat.toDigits 10 (n / 10 ^ usdcDecimals) ++
    (['.'] ++ (List.replicate (usdcDecimals - fraction.length) '0' ++ fraction))

theorem atomicToUsdc_toList (a : Int) :
    (atomicToUsdc a).toList = (if a < 0 then ['-'] else []) ++ printed a.natAbs := by
  have shown (n : Nat) : (toString n).toList = Nat.toDigits 10 n := by
    rw [Nat.toString_eq_ofList_toDigits, String.toList_ofList]
  have point : ".".toList = ['.'] := rfl
  simp only [atomicToUsdc, String.toList_append, shown, point, String.toList_ofList, printed,
    List.append_assoc]
  split <;> rfl

theorem toDigits_digit {n : Nat} {c : Char} (member : c ∈ Nat.toDigits 10 n) : c.isDigit = true :=
  Nat.isDigit_of_mem_toDigits (by omega) (by omega) member

theorem decimalValue_toDigits (n : Nat) : decimalValue (Nat.toDigits 10 n) = n := by
  rw [decimalValue, Nat.ofDigitChars_ten_toDigits]

theorem printed_start (n : Nat) : ∃ c tail, printed n = c :: tail ∧ c.isDigit = true :=
  start_digit (isDecimal_toDigits _) _

theorem printed_solid (n : Nat) : ∀ c ∈ printed n, isWhitespace c = false := by
  intro c member
  simp only [printed, List.mem_append, List.mem_singleton, List.mem_replicate] at member
  rcases member with whole | rfl | ⟨_, rfl⟩ | fraction
  · exact isWhitespace_digit c (toDigits_digit whole)
  · rfl
  · rfl
  · exact isWhitespace_digit c (toDigits_digit fraction)

theorem decimal?_printed (n : Nat) : decimal? (printed n) = some (n : Int) := by
  generalize left : n % 10 ^ usdcDecimals = small
  have bound : small < 10 ^ usdcDecimals := by
    rw [← left]
    exact Nat.mod_lt n (by decide)
  have fits : (Nat.toDigits 10 small).length ≤ usdcDecimals :=
    (Nat.length_toDigits_le_iff (by omega) (by decide)).mpr bound
  have decimals : ∀ c ∈ List.replicate (usdcDecimals - (Nat.toDigits 10 small).length) '0' ++
      Nat.toDigits 10 small, c.isDigit = true := by
    intro c member
    rw [List.mem_append, List.mem_replicate] at member
    cases member with
    | inl zero => rw [zero.2]; rfl
    | inr digit => exact toDigits_digit digit
  have width : (List.replicate (usdcDecimals - (Nat.toDigits 10 small).length) '0' ++
      Nat.toDigits 10 small).length = usdcDecimals := by
    rw [List.length_append, List.length_replicate, Nat.sub_add_cancel fits]
  have whole := Nat.div_add_mod n (10 ^ usdcDecimals)
  rw [left] at whole
  simp only [printed, left]
  rw [decimal?_written (isDecimal_toDigits _) (.inl rfl) decimals width.le, width,
    decimalValue_leading, decimalValue_toDigits, decimalValue_toDigits, Nat.sub_self, pow_zero,
    one_mul, Option.some.injEq, scale]
  push_cast
  rw [mul_comm]
  exact_mod_cast whole

theorem trim_atomicToUsdc (a : Int) : trim (atomicToUsdc a).toList = (atomicToUsdc a).toList := by
  apply trim_solid
  intro c member
  rw [atomicToUsdc_toList, List.mem_append] at member
  cases member with
  | inl sign =>
    split at sign
    · rw [List.mem_singleton.mp sign]; rfl
    · cases sign
  | inr digit => exact printed_solid _ c digit

theorem usdcToAtomic_atomicToUsdc {a : Int} (charged : 0 ≤ a) :
    usdcToAtomic (atomicToUsdc a) = .ok a := by
  have start := bare_dollar (.inl rfl) (printed_start a.natAbs)
  rw [usdcToAtomic_eq_ok, trim_atomicToUsdc, atomicToUsdc_toList, if_neg (by omega), start,
    decimal?_printed, Int.natAbs_of_nonneg charged]

theorem printed_injective : Function.Injective printed := by
  intro n m same
  have values := decimal?_printed n
  rw [same, decimal?_printed, Option.some.injEq] at values
  exact_mod_cast values.symm

theorem atomicToUsdc_injective : Function.Injective atomicToUsdc := by
  intro a b same
  have chars := congrArg String.toList same
  rw [atomicToUsdc_toList, atomicToUsdc_toList] at chars
  have unsigned (n : Nat) (cs : List Char) : printed n ≠ '-' :: cs := by
    obtain ⟨c, tail, shape, digit⟩ := printed_start n
    intro minus
    rw [shape, List.cons.injEq] at minus
    rw [minus.1] at digit
    cases digit
  by_cases negative : a < 0 <;> by_cases other : b < 0 <;>
    simp only [negative, other, if_true, if_false, List.nil_append, List.cons_append,
      List.cons.injEq, true_and] at chars
  · have size := printed_injective chars
    omega
  · exact absurd chars.symm (unsigned _ _)
  · exact absurd chars (unsigned _ _)
  · have size := printed_injective chars
    omega

theorem wireToAtomic_atomicToWire {a : Int} (charged : 0 ≤ a) :
    ∃ wire, atomicToWire a = .ok wire ∧ wireToAtomic wire = .ok a := by
  refine ⟨toString a, by rw [atomicToWire, if_neg (by omega)], ?_⟩
  obtain ⟨n, rfl⟩ := Int.eq_ofNat_of_zero_le charged
  have shown : (toString (n : Int)).toList = Nat.toDigits 10 n := by
    have plain : toString (n : Int) = toString n := rfl
    rw [plain, Nat.toString_eq_ofList_toDigits, String.toList_ofList]
  simp only [wireToAtomic, shown, trim_digits _ (isDecimal_toDigits n), isDecimal_toDigits,
    Bool.not_true, Bool.false_eq_true, if_false, decimalValue_toDigits]

/-- The codec is exact: what it accepts, what it answers, and what survives a round trip. -/
theorem usdc_codec_exact :
    (∀ usdc, (∃ a, usdcToAtomic usdc = .ok a) ↔ ∃ value, Amount (trim usdc.toList) value) ∧
    (∀ usdc a value, usdcToAtomic usdc = .ok a → Amount (trim usdc.toList) value →
      (a : ℚ) = value * 10 ^ 6) ∧
    (∀ a : Int, 0 ≤ a → usdcToAtomic (atomicToUsdc a) = .ok a ∧
      ∃ wire, atomicToWire a = .ok wire ∧ wireToAtomic wire = .ok a) ∧
    (∀ usdc a, usdcToAtomic usdc = .ok a → ∃ value, Amount (trim usdc.toList) value ∧
      Amount (trim (atomicToUsdc a).toList) value) ∧
    Function.Injective atomicToUsdc := by
  refine ⟨?grammar, ?value, ?printing, ?again, atomicToUsdc_injective⟩
  case grammar =>
    intro usdc
    constructor
    next =>
      intro accepted
      obtain ⟨a, accepted⟩ := accepted
      exact ⟨_, (amount_iff usdc a).mp accepted⟩
    next =>
      intro written
      obtain ⟨value, amount⟩ := written
      obtain ⟨a, rfl⟩ := amount_scaled amount
      exact ⟨a, (amount_iff usdc a).mpr amount⟩
  case value =>
    intro usdc a value accepted amount
    obtain ⟨b, rfl⟩ := amount_scaled amount
    have other := (amount_iff usdc b).mpr amount
    rw [accepted, Except.ok.injEq] at other
    rw [other, usdcDecimals]
    field_simp
  case printing =>
    intro a charged
    exact ⟨usdcToAtomic_atomicToUsdc charged, wireToAtomic_atomicToWire charged⟩
  case again =>
    intro usdc a accepted
    have charged : 0 ≤ a := decimal?_nonneg ((usdcToAtomic_eq_ok usdc a).mp accepted)
    exact ⟨_, (amount_iff usdc a).mp accepted,
      (amount_iff _ a).mp (usdcToAtomic_atomicToUsdc charged)⟩

end X402Mesh.Money
