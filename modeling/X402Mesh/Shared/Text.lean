import Mathlib.Data.List.DropRight
import Mathlib.Data.Nat.Digits.Defs

set_option autoImplicit false

namespace X402Mesh.Text

def isWhitespace (c : Char) : Bool :=
  c.toNat ∈ [9, 10, 11, 12, 13, 32, 0xA0, 0x1680, 0x2028, 0x2029, 0x202F, 0x205F, 0x3000, 0xFEFF] ||
    (0x2000 ≤ c.toNat && c.toNat ≤ 0x200A)

def trim (cs : List Char) : List Char :=
  ((cs.dropWhile isWhitespace).reverse.dropWhile isWhitespace).reverse

-- The length JavaScript sees: a character beyond the basic plane counts twice.
def utf16Length (cs : List Char) : Nat := (cs.map fun c => if c.toNat < 0x10000 then 1 else 2).sum

-- `slice(0, n)`. The half that a cut leaves of a surrogate pair is no character: it is stored as
-- U+FFFD, which is how it is written out.
def takeUnits (n : Nat) : List Char → List Char
  | [] => []
  | c :: cs =>
    if n = 0 then []
    else if c.toNat < 0x10000 then c :: takeUnits (n - 1) cs
    else if n = 1 then [Char.ofNat 0xFFFD]
    else c :: takeUnits (n - 2) cs

theorem utf16Length_takeUnits (n : Nat) (cs : List Char) :
    utf16Length (takeUnits n cs) = min n (utf16Length cs) := by
  induction cs generalizing n with
  | nil => simp [takeUnits, utf16Length]
  | cons c cs ih =>
    simp only [utf16Length] at ih
    unfold takeUnits
    split
    next none => simp [none, utf16Length]
    next =>
      split
      next basic =>
        simp only [utf16Length, List.map_cons, List.sum_cons, if_pos basic, ih]
        omega
      next wide =>
        split
        next =>
          have replaced : (Char.ofNat 0xFFFD).toNat < 0x10000 := by decide
          simp only [utf16Length, List.map_cons, List.map_nil, List.sum_cons, List.sum_nil,
            if_pos replaced, if_neg wide]
          omega
        next =>
          simp only [utf16Length, List.map_cons, List.sum_cons, if_neg wide, ih]
          omega

def isDecimal (cs : List Char) : Bool := !cs.isEmpty && cs.all Char.isDigit

theorem trim_solid (cs : List Char) (solid : ∀ c ∈ cs, isWhitespace c = false) : trim cs = cs := by
  have kept (l : List Char) (inside : ∀ c ∈ l, c ∈ cs) : l.dropWhile isWhitespace = l := by
    cases l with
    | nil => rfl
    | cons c rest => simp [solid c (inside c (by simp))]
  rw [trim, kept cs (fun _ member => member), kept cs.reverse (by simp), List.reverse_reverse]

theorem isWhitespace_digit (c : Char) (digit : c.isDigit = true) : isWhitespace c = false := by
  simp only [Char.isDigit, Bool.and_eq_true, decide_eq_true_eq] at digit
  have low : 48 ≤ c.toNat := digit.1
  have high : c.toNat ≤ 57 := digit.2
  simp [isWhitespace]
  omega

theorem digits_of_isDecimal {cs : List Char} (digits : isDecimal cs = true) :
    ∀ c ∈ cs, c.isDigit = true := by
  simp only [isDecimal, Bool.and_eq_true, List.all_eq_true] at digits
  exact digits.2

theorem trim_digits (cs : List Char) (digits : isDecimal cs = true) : trim cs = cs :=
  trim_solid cs fun c member => isWhitespace_digit c (digits_of_isDecimal digits c member)

def trimEnd (cs : List Char) : List Char := (cs.reverse.dropWhile isWhitespace).reverse

theorem trim_cons (c : Char) (cs : List Char) (solid : isWhitespace c = false) :
    trim (c :: cs) = c :: trimEnd cs := by
  rw [trim, List.dropWhile_cons_of_neg (by simp [solid]), List.reverse_cons, List.dropWhile_append]
  split
  next blank => simp_all [trimEnd]
  next => simp [trimEnd]

theorem trimEnd_trimEnd (cs : List Char) : trimEnd (trimEnd cs) = trimEnd cs :=
  List.rdropWhile_idempotent isWhitespace cs

theorem trim_trim (cs : List Char) : trim (trim cs) = trim cs := by
  have kept : trim cs = trimEnd (cs.dropWhile isWhitespace) := rfl
  cases start : cs.dropWhile isWhitespace with
  | nil =>
    rw [kept, start]
    rfl
  | cons c rest =>
    have solid : isWhitespace c = false := by
      have head := List.head_dropWhile_not isWhitespace
        (by rw [start]; simp : cs.dropWhile isWhitespace ≠ [])
      simpa [start] using head
    have whole := trim_cons c rest solid
    rw [trim, List.dropWhile_cons_of_neg (by simp [solid]), ← trimEnd] at whole
    rw [kept, start, whole, trim_cons c _ solid, trimEnd_trimEnd]

theorem trimEnd_of_trim (cs : List Char) (same : trim cs = cs) : trimEnd cs = cs := by
  rw [← same, trim, ← trimEnd, trimEnd_trimEnd]

-- `Number.prototype.toString(36)` on a natural number.
def digit36 (d : Nat) : Char := Char.ofNat (if d < 10 then d + 48 else d + 87)

def toString36 (n : Nat) : String :=
  String.ofList (if n = 0 then ['0'] else (Nat.digits 36 n).reverse.map digit36)

theorem digit36_injective : ∀ a < 36, ∀ b < 36, digit36 a = digit36 b → a = b := by
  decide +kernel

theorem digit36_ne_dash : ∀ d < 36, digit36 d ≠ '-' := by
  decide

theorem map_digit36_injective (a b : List Nat) (boundA : ∀ d ∈ a, d < 36)
    (boundB : ∀ d ∈ b, d < 36) (same : a.map digit36 = b.map digit36) : a = b := by
  induction a generalizing b with
  | nil => simpa using same.symm
  | cons d rest ih =>
    cases b with
    | nil => simp at same
    | cons e tail =>
      simp only [List.map_cons, List.cons.injEq] at same
      have head := digit36_injective d (boundA d (by simp)) e (boundB e (by simp)) same.1
      have tails := ih tail (fun d h => boundA d (by simp [h])) (fun d h => boundB d (by simp [h]))
        same.2
      rw [head, tails]

theorem toString36_injective {a b : Nat} (same : toString36 a = toString36 b) : a = b := by
  have bound (n d : Nat) (member : d ∈ (Nat.digits 36 n).reverse) : d < 36 :=
    Nat.digits_lt_base (by omega) (List.mem_reverse.mp member)
  -- A lone '0' can only be the digit zero, and the leading digit of a positive number is not.
  have positive (n : Nat) (nonzero : n ≠ 0) : (Nat.digits 36 n).reverse.map digit36 ≠ ['0'] := by
    intro single
    have lone := map_digit36_injective _ [0] (bound n) (by simp) single
    have digits : Nat.digits 36 n = [0] := by simpa using congrArg List.reverse lone
    have value := Nat.ofDigits_digits 36 n
    rw [digits] at value
    exact nonzero (by simpa using value.symm)
  have chars := String.ofList_injective same
  by_cases za : a = 0 <;> by_cases zb : b = 0
  · rw [za, zb]
  · rw [if_pos za, if_neg zb] at chars
    exact absurd chars.symm (positive b zb)
  · rw [if_neg za, if_pos zb] at chars
    exact absurd chars (positive a za)
  · rw [if_neg za, if_neg zb] at chars
    have digits := map_digit36_injective _ _ (bound a) (bound b) chars
    exact Nat.digits.injective 36 (List.reverse_inj.mp digits)

theorem dash_notMem_toString36 (n : Nat) : '-' ∉ (toString36 n).toList := by
  intro found
  by_cases zero : n = 0
  · simp [toString36, zero] at found
  · simp only [toString36, zero, if_false, String.toList_ofList, List.mem_map] at found
    obtain ⟨d, member, dash⟩ := found
    exact digit36_ne_dash d (Nat.digits_lt_base (by omega) (List.mem_reverse.mp member)) dash

-- What stands before the first dash, and what stands after it.
theorem dash_cut (a b : Nat) (x y : String)
    (same : toString36 a ++ "-" ++ x = toString36 b ++ "-" ++ y) : a = b ∧ x = y := by
  have chars := congrArg String.toList same
  simp only [String.toList_append, List.append_assoc] at chars
  have cut (xs ys : List Char) (free : '-' ∉ xs) :
      (xs ++ ("-".toList ++ ys)).takeWhile (· ≠ '-') = xs ∧
        (xs ++ ("-".toList ++ ys)).dropWhile (· ≠ '-') = '-' :: ys := by
    induction xs with
    | nil => simp
    | cons x rest ih =>
      simp only [List.mem_cons, not_or] at free
      have other : x ≠ '-' := Ne.symm free.1
      simpa [List.takeWhile_cons, List.dropWhile_cons, other] using ih free.2
  have left := cut _ x.toList (dash_notMem_toString36 a)
  have right := cut _ y.toList (dash_notMem_toString36 b)
  rw [chars] at left
  have front := left.1.symm.trans right.1
  have back := left.2.symm.trans right.2
  simp only [List.cons.injEq, true_and] at back
  exact ⟨toString36_injective (String.toList_injective front), String.toList_injective back⟩

theorem dash_suffix_injective (a b c d : Nat)
    (same : toString36 a ++ "-" ++ toString36 b = toString36 c ++ "-" ++ toString36 d) :
    a = c ∧ b = d := by
  obtain ⟨front, back⟩ := dash_cut a c _ _ same
  exact ⟨front, toString36_injective back⟩

end X402Mesh.Text
