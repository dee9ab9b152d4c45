import Mathlib.Data.List.Basic

set_option autoImplicit false

namespace Base32

/-- The low `count` bits of a word, the highest of them first. -/
def bits {w : Nat} (word : BitVec w) : Nat → List Bool
  | 0 => []
  | count + 1 => word.getLsbD count :: bits word count

@[simp] theorem length_bits {w : Nat} (word : BitVec w) (count : Nat) :
    (bits word count).length = count := by
  induction count with
  | zero => rfl
  | succ count ih => simp [bits, ih]

theorem bits_add {w : Nat} (word : BitVec w) (high low : Nat) :
    bits word (high + low) = bits (word >>> low) high ++ bits word low := by
  induction high with
  | zero => simp [bits]
  | succ high ih =>
    have split : high + 1 + low = high + low + 1 := by omega
    simp [split, bits, ih, Nat.add_comm low high]

theorem bits_congr {v w : Nat} {a : BitVec v} {b : BitVec w} {count : Nat}
    (same : ∀ i < count, a.getLsbD i = b.getLsbD i) : bits a count = bits b count := by
  induction count with
  | zero => rfl
  | succ count ih =>
    have lower := ih fun i below => same i (by omega)
    simp [bits, same count (by omega), lower]

theorem bits_inj {w : Nat} {a b : BitVec w} (same : bits a w = bits b w) : a = b := by
  have agree : ∀ count, bits a count = bits b count → ∀ i < count, a.getLsbD i = b.getLsbD i := by
    intro count
    induction count with
    | zero => simp
    | succ count ih =>
      intro equal i below
      simp only [bits, List.cons.injEq] at equal
      by_cases top : i = count
      next => exact top ▸ equal.1
      next => exact ih equal.2 i (by omega)
  exact BitVec.eq_of_getLsbD_eq fun i below => agree w same i below

def five (a b c d e : Bool) : Fin 32 :=
  ⟨16 * a.toNat + 8 * b.toNat + 4 * c.toNat + 2 * d.toNat + e.toNat, by
    have bound := fun x : Bool => x.toNat_le
    have := bound a; have := bound b; have := bound c; have := bound d; have := bound e
    omega⟩

def groups : List Bool → List (Fin 32)
  | a :: b :: c :: d :: e :: rest => five a b c d e :: groups rest
  | [a, b, c, d] => [five a b c d false]
  | [a, b, c] => [five a b c false false]
  | [a, b] => [five a b false false false]
  | [a] => [five a false false false false]
  | [] => []

def bitsOfFive (n : Fin 32) : List Bool := [4, 3, 2, 1, 0].map n.val.testBit

theorem bitsOfFive_five : ∀ a b c d e, bitsOfFive (five a b c d e) = [a, b, c, d, e] := by
  decide

theorem five_inj {a b c d e a' b' c' d' e' : Bool} (same : five a b c d e = five a' b' c' d' e') :
    [a, b, c, d, e] = [a', b', c', d', e'] := by
  rw [← bitsOfFive_five, ← bitsOfFive_five, same]

theorem length_groups (bs : List Bool) : (groups bs).length = (bs.length + 4) / 5 := by
  fun_induction groups bs with
  | case1 a b c d e rest ih => simp [ih]; omega
  | _ => simp

theorem groups_inj {bs cs : List Bool} (size : bs.length = cs.length)
    (same : groups bs = groups cs) : bs = cs := by
  fun_induction groups bs generalizing cs with
  | case1 a b c d e rest ih =>
    match cs with
    | a' :: b' :: c' :: d' :: e' :: rest' =>
      simp only [groups, List.cons.injEq] at same
      have first := five_inj same.1
      have later := ih (by simpa using size) same.2
      simp_all
    | [] | [_] | [_, _] | [_, _, _] | [_, _, _, _] => simp at size
  | case2 a b c d =>
    match cs with
    | [a', b', c', d'] =>
      have only := five_inj (List.cons.inj same).1
      simp_all
    | [] | [_] | [_, _] | [_, _, _] | _ :: _ :: _ :: _ :: _ :: _ => simp at size
  | case3 a b c =>
    match cs with
    | [a', b', c'] =>
      have only := five_inj (List.cons.inj same).1
      simp_all
    | [] | [_] | [_, _] | _ :: _ :: _ :: _ :: _ => simp at size
  | case4 a b =>
    match cs with
    | [a', b'] =>
      have only := five_inj (List.cons.inj same).1
      simp_all
    | [] | [_] | _ :: _ :: _ :: _ => simp at size
  | case5 a =>
    match cs with
    | [a'] =>
      have only := five_inj (List.cons.inj same).1
      simp_all
    | [] | _ :: _ :: _ => simp at size
  | case6 => simpa using size.symm

section

variable {L : Type} (letter : Fin 32 → L)

def bitString (bytes : List UInt8) : List Bool := bytes.flatMap fun byte => bits byte.toBitVec 8

def encode (bytes : List UInt8) : List L := (groups (bitString bytes)).map letter

theorem length_bitString (bytes : List UInt8) : (bitString bytes).length = 8 * bytes.length := by
  induction bytes with
  | nil => rfl
  | cons byte rest ih =>
    simp only [bitString, List.flatMap_cons, List.length_append, length_bits, List.length_cons]
    simp only [bitString] at ih
    omega

theorem bitString_inj {xs ys : List UInt8} (same : bitString xs = bitString ys) : xs = ys := by
  induction xs generalizing ys with
  | nil =>
    have size := congrArg List.length same
    simp only [length_bitString, List.length_nil] at size
    exact (List.length_eq_zero_iff.mp (by omega)).symm
  | cons x xs ih =>
    cases ys with
    | nil =>
      have size := congrArg List.length same
      simp [length_bitString] at size
    | cons y ys =>
      simp only [bitString, List.flatMap_cons] at same
      obtain ⟨first, later⟩ := List.append_inj same (by simp)
      have byte : x = y := UInt8.toBitVec_inj.mp (bits_inj first)
      rw [byte, ih later]

theorem length_encode (bytes : List UInt8) :
    (encode letter bytes).length = (8 * bytes.length + 4) / 5 := by
  rw [encode, List.length_map, length_groups, length_bitString]

variable {letter}

theorem encode_injective (distinct : Function.Injective letter) :
    Function.Injective (encode letter) := by
  intro xs ys same
  have sizes := congrArg List.length same
  rw [length_encode, length_encode] at sizes
  have equal : xs.length = ys.length := by omega
  have grouped := (List.map_inj_right fun _ _ => (distinct ·)).mp same
  exact bitString_inj (groups_inj (by simp [length_bitString, equal]) grouped)

end

end Base32
