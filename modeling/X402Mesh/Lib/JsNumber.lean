import Mathlib.Algebra.Ring.Nat
import Mathlib.Data.Nat.Log

set_option autoImplicit false

-- A number is a double, so it is one of the naturals that rounding leaves alone. It is written with
-- the fewest digits that read back as the same double.

namespace JsNumber

-- The nearest double, to even on a tie.
def round (v : Nat) : Nat :=
  if v < 2 ^ 53 then v
  else
    let unit := 2 ^ (Nat.log 2 v - 52)
    let quotient := v / unit
    let remainder := v % unit
    if 2 * remainder > unit ∨ (2 * remainder = unit ∧ quotient % 2 = 1) then (quotient + 1) * unit
    else quotient * unit

-- A value of the type is a whole number that a double can hold.
def Whole : Type := { n : Nat // round n = n }

instance : DecidableEq Whole := inferInstanceAs (DecidableEq { n : Nat // round n = n })

def Whole.toNat (n : Whole) : Nat := n.val

def whole (n : Nat) (small : n < 2 ^ 53) : Whole := ⟨n, if_pos small⟩

-- Of the multiples of `10 ^ p` on either side, the nearer one that reads back as `x`.
def candidate (x p : Nat) : Option Nat :=
  let low := x / 10 ^ p
  let inOrder := if 2 * (x % 10 ^ p) ≤ 10 ^ p then [low, low + 1] else [low + 1, low]
  inOrder.find? fun c => round (c * 10 ^ p) = x

def digitCount (x : Nat) : Nat := (Nat.toDigits 10 x).length

-- The significant digits and the exponent of ten behind them.
def shortest (x : Nat) : Nat × Nat :=
  ((List.range (digitCount x + 1)).reverse.findSome? fun p =>
    (candidate x p).map fun c => (c, p)).getD (x, 0)

theorem round_shortest {x : Nat} (double : round x = x) :
    round ((shortest x).1 * 10 ^ (shortest x).2) = x := by
  unfold shortest
  cases found : (List.range (digitCount x + 1)).reverse.findSome? fun p =>
      (candidate x p).map fun c => (c, p) with
  | none => simpa using double
  | some best =>
    obtain ⟨p, -, taken⟩ := List.exists_of_findSome?_eq_some found
    obtain ⟨c, fits, rfl⟩ := Option.map_eq_some_iff.mp taken
    simpa using List.find?_some fits

def mantissa : List Char → List Char
  | [] => []
  | first :: [] => [first]
  | first :: rest => first :: '.' :: rest

-- `Number.prototype.toString`.
def text (x : Whole) : List Char :=
  if x.toNat = 0 then ['0']
  else
    let (c, p) := shortest x.toNat
    let digits := Nat.toDigits 10 c
    if digits.length + p ≤ 21 then digits ++ List.replicate p '0'
    else mantissa digits ++ 'e' :: '+' :: Nat.toDigits 10 (digits.length + p - 1)

def isNumeric (c : Char) : Bool := c.isDigit || c ∈ ['.', 'e', '+']

-- What a text of a number stands for, with every digit taken at its place.
def read (cs : List Char) : Nat :=
  if 'e' ∈ cs then
    let digits := (cs.takeWhile (· ≠ 'e')).filter Char.isDigit
    let exponent := Nat.ofDigitChars 10 ((cs.dropWhile (· ≠ 'e')).drop 2) 0
    Nat.ofDigitChars 10 digits 0 * 10 ^ (exponent + 1 - digits.length)
  else Nat.ofDigitChars 10 cs 0

theorem digits_isDigit (n : Nat) : ∀ c ∈ Nat.toDigits 10 n, c.isDigit = true :=
  fun _ member => Nat.isDigit_of_mem_toDigits (by omega) (by omega) member

theorem not_e_of_digit {c : Char} (digit : c.isDigit = true) : c ≠ 'e' := by
  rintro rfl
  cases digit

theorem e_notMem_digits {cs : List Char} (digits : ∀ c ∈ cs, c.isDigit = true) : 'e' ∉ cs :=
  fun member => not_e_of_digit (digits 'e' member) rfl

theorem filter_mantissa {cs : List Char} (digits : ∀ c ∈ cs, c.isDigit = true) :
    (mantissa cs).filter Char.isDigit = cs := by
  cases cs with
  | nil => rfl
  | cons first rest =>
    have kept : (first :: rest).filter Char.isDigit = first :: rest := List.filter_eq_self.mpr digits
    cases rest with
    | nil => exact kept
    | cons second tail =>
      have plain : ('.' : Char).isDigit = false := rfl
      rw [List.filter_cons_of_pos (digits first List.mem_cons_self)] at kept
      rw [mantissa, List.filter_cons_of_pos (digits first List.mem_cons_self),
        List.filter_cons_of_neg (by simp [plain]), kept]
      intro absurd
      cases absurd

theorem e_notMem_mantissa {cs : List Char} (digits : ∀ c ∈ cs, c.isDigit = true) :
    'e' ∉ mantissa cs := by
  have free := e_notMem_digits digits
  cases cs with
  | nil => exact free
  | cons first rest =>
    cases rest with
    | nil => exact free
    | cons second tail =>
      simp only [mantissa, List.mem_cons, not_or] at free ⊢
      exact ⟨free.1, by decide, free.2⟩

theorem read_text (x : Whole) : round (read (text x)) = x.toNat := by
  by_cases zero : x.toNat = 0
  · have shown : text x = ['0'] := if_pos zero
    rw [shown, zero]
    rfl
  · have double := round_shortest x.property
    unfold text
    rw [if_neg zero]
    change round ((shortest x.toNat).1 * 10 ^ (shortest x.toNat).2) = x.toNat at double
    generalize shortest x.toNat = best at double ⊢
    obtain ⟨c, p⟩ := best
    dsimp only at double ⊢
    have digits := digits_isDigit c
    split
    next =>
      have free : 'e' ∉ Nat.toDigits 10 c ++ List.replicate p '0' := by
        intro member
        rcases List.mem_append.mp member with front | back
        · exact e_notMem_digits digits front
        · cases (List.mem_replicate.mp back).2
      rw [read, if_neg free, Nat.ofDigitChars_append, Nat.ofDigitChars_replicate_zero,
        Nat.ofDigitChars_ten_toDigits, Nat.mul_comm, double]
    next =>
      have free := e_notMem_mantissa digits
      have front (cs rest : List Char) (free : 'e' ∉ cs) :
          (cs ++ 'e' :: rest).takeWhile (· ≠ 'e') = cs ∧
            (cs ++ 'e' :: rest).dropWhile (· ≠ 'e') = 'e' :: rest := by
        induction cs with
        | nil => simp
        | cons first tail ih =>
          simp only [List.mem_cons, not_or] at free
          simpa [List.takeWhile_cons, List.dropWhile_cons, Ne.symm free.1] using ih free.2
      have cut := front _ ('+' :: Nat.toDigits 10 ((Nat.toDigits 10 c).length + p - 1)) free
      have some_digit : 0 < (Nat.toDigits 10 c).length := Nat.length_toDigits_pos
      have places : (Nat.toDigits 10 c).length + p - 1 + 1 - (Nat.toDigits 10 c).length = p := by
        omega
      rw [read, if_pos (by simp), cut.1, cut.2, filter_mantissa digits]
      simp only [List.drop_succ_cons, List.drop_zero, Nat.ofDigitChars_ten_toDigits]
      rw [places, double]

theorem text_injective {x y : Whole} (same : text x = text y) : x = y := by
  apply Subtype.ext
  have value := read_text x
  rw [same, read_text y] at value
  exact value.symm

theorem text_numeric (x : Whole) : ∀ c ∈ text x, isNumeric c = true := by
  have plain {cs : List Char} (digits : ∀ c ∈ cs, c.isDigit = true) :
      ∀ c ∈ cs, isNumeric c = true := by
    intro c member
    simp [isNumeric, digits c member]
  have pointed {cs : List Char} (digits : ∀ c ∈ cs, c.isDigit = true) :
      ∀ c ∈ mantissa cs, isNumeric c = true := by
    cases cs with
    | nil => simp [mantissa]
    | cons first rest =>
      cases rest with
      | nil => exact plain digits
      | cons second tail =>
        intro c member
        rcases List.mem_cons.mp member with rfl | later
        · exact plain digits c List.mem_cons_self
        · rcases List.mem_cons.mp later with rfl | last
          · rfl
          · exact plain digits c (List.mem_cons_of_mem first last)
  unfold text
  split
  next => simp [isNumeric]
  next =>
    generalize shortest x.toNat = best
    obtain ⟨c, p⟩ := best
    dsimp only
    split
    next =>
      intro d member
      rcases List.mem_append.mp member with front | back
      · exact plain (digits_isDigit c) d front
      · rw [(List.mem_replicate.mp back).2]
        rfl
    next =>
      intro d member
      rcases List.mem_append.mp member with front | back
      · exact pointed (digits_isDigit c) d front
      · rcases List.mem_cons.mp back with rfl | back
        · rfl
        · rcases List.mem_cons.mp back with rfl | back
          · rfl
          · exact plain (digits_isDigit _) d back

theorem text_ne_nil (x : Whole) : text x ≠ [] := by
  unfold text
  split
  next => simp
  next =>
    generalize shortest x.toNat = best
    obtain ⟨c, p⟩ := best
    dsimp only
    split <;> simp [Nat.toDigits_ne_nil]

end JsNumber
