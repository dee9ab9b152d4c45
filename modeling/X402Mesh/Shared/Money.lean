import Mathlib.Data.Nat.Digits.Defs
import X402Mesh.Shared.Errors
import X402Mesh.Shared.Text

set_option autoImplicit false

namespace X402Mesh.Money

open Text

-- Amounts are JavaScript bigints in atomic units, here `Int`.

def usdcDecimals : Nat := 6

def scale : Int := 10 ^ usdcDecimals

def decimalValue (cs : List Char) : Int := (Nat.ofDigitChars 10 cs 0 : Nat)

def radixDigit (c : Char) : Option Nat :=
  if c.isDigit then some (c.toNat - 48)
  else if 'a' ≤ c ∧ c ≤ 'f' then some (c.toNat - 87)
  else if 'A' ≤ c ∧ c ≤ 'F' then some (c.toNat - 55)
  else none

def radixValue (base : Nat) (cs : List Char) : Option Nat :=
  if cs.isEmpty then none
  else cs.foldl (fun acc c => acc.bind fun n => (radixDigit c).bind fun d =>
    if d < base then some (n * base + d) else none) (some 0)

-- `BigInt(text)`: none is the SyntaxError.
def bigInt (text : String) : Option Int :=
  match trim text.toList with
  | [] => some 0
  | '0' :: 'x' :: cs | '0' :: 'X' :: cs => (radixValue 16 cs).map Int.ofNat
  | '0' :: 'o' :: cs | '0' :: 'O' :: cs => (radixValue 8 cs).map Int.ofNat
  | '0' :: 'b' :: cs | '0' :: 'B' :: cs => (radixValue 2 cs).map Int.ofNat
  | '+' :: cs => if isDecimal cs then some (decimalValue cs) else none
  | '-' :: cs => if isDecimal cs then some (-(decimalValue cs)) else none
  | cs => if isDecimal cs then some (decimalValue cs) else none

def atomicToWire (a : Int) : Except MeshError String :=
  if a < 0 then
    .error ⟨.pricing, "cannot serialize a negative atomic amount to the wire",
      [("amount", toString a)]⟩
  else .ok (toString a)

def usdcToAtomic (usdc : String) : Except MeshError Int :=
  let trimmed := trim usdc.toList
  let shown := String.ofList trimmed
  if trimmed = [] then .error ⟨.config, "USDC amount must not be empty", []⟩
  else if ['-'].isPrefixOf trimmed || ['$', '-'].isPrefixOf trimmed then
    .error ⟨.config, "USDC amount must not be negative: " ++ shown, [("value", shown)]⟩
  else
    let bare := if ['$'].isPrefixOf trimmed then trimmed.drop 1 else trimmed
    let whole := bare.takeWhile Char.isDigit
    let rest := bare.dropWhile Char.isDigit
    let fraction := rest.drop 1
    let matched := !whole.isEmpty && (rest.isEmpty || (rest.head? = some '.' && fraction.all Char.isDigit))
    if !matched then .error ⟨.config, "malformed USDC amount: " ++ shown, [("value", shown)]⟩
    else if fraction.length > usdcDecimals then
      .error ⟨.config, "USDC amount has " ++ toString fraction.length ++
          " decimal places, maximum is " ++ toString usdcDecimals ++ ": " ++ shown,
        [("value", shown), ("decimals", toString fraction.length),
          ("maxDecimals", toString usdcDecimals)]⟩
    else
      let padded := fraction ++ List.replicate (usdcDecimals - fraction.length) '0'
      .ok (decimalValue whole * scale + decimalValue padded)

def atomicToUsdc (a : Int) : String :=
  let magnitude := a.natAbs
  let fraction := Nat.toDigits 10 (magnitude % 10 ^ usdcDecimals)
  (if a < 0 then "-" else "") ++ toString (magnitude / 10 ^ usdcDecimals) ++ "." ++
    String.ofList (List.replicate (usdcDecimals - fraction.length) '0' ++ fraction)

def wireToAtomic (wire : String) : Except MeshError Int :=
  let trimmed := trim wire.toList
  if !isDecimal trimmed then
    .error ⟨.config, "malformed atomic amount: " ++ wire, [("value", wire)]⟩
  else .ok (decimalValue trimmed)

theorem isDecimal_toDigits (n : Nat) : isDecimal (Nat.toDigits 10 n) = true := by
  simp only [isDecimal, Bool.and_eq_true, Bool.not_eq_true', List.isEmpty_eq_false_iff,
    List.all_eq_true]
  exact ⟨Nat.toDigits_ne_nil,
    fun c member => Nat.isDigit_of_mem_toDigits (by omega) (by omega) member⟩

theorem bigInt_decimal (cs : List Char) (digits : isDecimal cs = true) :
    bigInt (String.ofList cs) = some (decimalValue cs) := by
  have plain := digits_of_isDecimal digits
  rw [bigInt, String.toList_ofList, trim_digits cs digits]
  -- No digit is a sign or a radix letter, so only the last arm is left.
  split <;> simp_all [isDecimal]

theorem bigInt_toString (n : Nat) : bigInt (toString n) = some (n : Int) := by
  have shown : toString n = String.ofList (Nat.toDigits 10 n) := rfl
  rw [shown, bigInt_decimal _ (isDecimal_toDigits n), decimalValue, Nat.ofDigitChars_ten_toDigits]

theorem bigInt_atomicToWire (a : Int) (wire : String) (sent : atomicToWire a = .ok wire) :
    bigInt wire = some a := by
  unfold atomicToWire at sent
  split at sent
  · cases sent
  · rename_i bound
    obtain ⟨n, rfl⟩ := Int.eq_ofNat_of_zero_le (not_lt.mp bound)
    obtain rfl : toString (n : Int) = wire := by simpa using sent
    exact bigInt_toString n

-- What is left of an amount once one leading dollar sign is taken off.
def bare (cs : List Char) : List Char := if ['$'].isPrefixOf cs then cs.drop 1 else cs

-- Digits, and possibly a dot and more digits.
def isNumeral (cs : List Char) : Bool :=
  let rest := cs.dropWhile Char.isDigit
  !(cs.takeWhile Char.isDigit).isEmpty &&
    (rest.isEmpty || (rest.head? = some '.' && (rest.drop 1).all Char.isDigit))

def decimal? (cs : List Char) : Option Int :=
  let whole := cs.takeWhile Char.isDigit
  let fraction := (cs.dropWhile Char.isDigit).drop 1
  if isNumeral cs && fraction.length ≤ usdcDecimals then
    some (decimalValue whole * scale +
      decimalValue (fraction ++ List.replicate (usdcDecimals - fraction.length) '0'))
  else none

-- A sign leaves no digit in front.
theorem decimal?_negative (cs : List Char)
    (negative : (['-'].isPrefixOf cs || ['$', '-'].isPrefixOf cs) = true) :
    decimal? (bare cs) = none := by
  have signed : ∃ rest, bare cs = '-' :: rest := by
    rw [Bool.or_eq_true, List.isPrefixOf_iff_prefix, List.isPrefixOf_iff_prefix] at negative
    cases negative with
    | inl minus =>
      obtain ⟨rest, rfl⟩ := minus
      exact ⟨rest, rfl⟩
    | inr dollar =>
      obtain ⟨rest, rfl⟩ := dollar
      exact ⟨rest, rfl⟩
  obtain ⟨rest, shape⟩ := signed
  rw [shape]
  rfl

theorem usdcToAtomic_toOption (usdc : String) :
    (usdcToAtomic usdc).toOption = decimal? (bare (trim usdc.toList)) := by
  generalize shown : trim usdc.toList = cs
  have stripped : (if ['$'].isPrefixOf cs then cs.drop 1 else cs) = bare cs := rfl
  simp only [usdcToAtomic, shown, stripped]
  split
  next empty => subst empty; rfl
  split
  next empty negative => rw [decimal?_negative cs negative]; rfl
  generalize bare cs = left
  have shape : (!(left.takeWhile Char.isDigit).isEmpty &&
      ((left.dropWhile Char.isDigit).isEmpty || ((left.dropWhile Char.isDigit).head? = some '.' &&
        ((left.dropWhile Char.isDigit).drop 1).all Char.isDigit))) = isNumeral left := rfl
  rw [shape, decimal?]
  cases numeral : isNumeral left with
  | false => rfl
  | true =>
    simp only [Bool.not_true, Bool.false_eq_true, if_false, Bool.true_and, decide_eq_true_eq]
    split
    next long => rw [if_neg (by omega)]; rfl
    next short => rw [if_pos (by omega)]; rfl

theorem decimal?_nonneg {cs : List Char} {a : Int} (value : decimal? cs = some a) : 0 ≤ a := by
  simp only [decimal?] at value
  split at value
  next =>
    obtain rfl := Option.some.inj value
    apply Int.add_nonneg
    · exact Int.mul_nonneg (Int.natCast_nonneg _) (by decide)
    · exact Int.natCast_nonneg _
  next => cases value

theorem usdcToAtomic_eq_ok (usdc : String) (a : Int) :
    usdcToAtomic usdc = .ok a ↔ decimal? (bare (trim usdc.toList)) = some a := by
  rw [← usdcToAtomic_toOption]
  cases usdcToAtomic usdc <;> simp [Except.toOption]

end X402Mesh.Money
