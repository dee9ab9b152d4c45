import Mathlib.Data.Rat.Defs
import X402Mesh.Lib.Utf8Decoder

set_option autoImplicit false

-- An object lists its own enumerable properties in the order of `Object.entries`.

namespace Js

-- A string by its UTF-16 code units.
abbrev Units := List UInt16

def units (text : String) : Units := (Utf8.units text.toList).map Nat.toUInt16

inductive Number
  | finite (value : ℚ)
  | nan
  | infinite (negative : Bool)
  deriving DecidableEq

inductive Value
  | undefined
  | null
  | boolean (b : Bool)
  | number (x : Number)
  | bigint (n : Int)
  | string (text : Units)
  | symbol
  | function
  | error (name : Units)
  | array (items : List Value)
  | object (members : List (Units × Value))

namespace Value

-- `value[name]` for a name that no prototype has.
def field (name : Units) : Value → Value
  | .object members => ((members.find? fun m => m.1 = name).map (·.2)).getD .undefined
  | _ => .undefined

def IsContainer : Value → Prop
  | .array _ | .object _ => True
  | _ => False

def size : Value → Nat
  | .array items => items.length
  | .object members => members.length
  | _ => 0

inductive Occurs : Nat → Value → Value → Prop
  | here (v : Value) : Occurs 0 v v
  | item {n : Nat} {w v : Value} {items : List Value} :
      v ∈ items → Occurs n w v → Occurs (n + 1) w (.array items)
  | member {n : Nat} {w v : Value} {name : Units} {members : List (Units × Value)} :
      (name, v) ∈ members → Occurs n w v → Occurs (n + 1) w (.object members)

/-- Induction over a tree whose hypotheses speak of the elements of a list. -/
theorem induct {P : Value → Prop} (leaf : ∀ v, ¬ v.IsContainer → P v)
    (array : ∀ items, (∀ v ∈ items, P v) → P (.array items))
    (object : ∀ members, (∀ m ∈ members, P m.2) → P (.object members)) (v : Value) : P v := by
  refine @Value.rec P (fun items => ∀ v ∈ items, P v) (fun members => ∀ m ∈ members, P m.2)
    (fun m => P m.2) ?_ ?_ ?_ ?_ ?_ ?_ ?_ ?_ ?_ array object ?_ ?_ ?_ ?_ ?_ v
  case refine_10 => simp
  case refine_11 => exact fun _ _ first later => List.forall_mem_cons.mpr ⟨first, later⟩
  case refine_12 => simp
  case refine_13 => exact fun _ _ first later => List.forall_mem_cons.mpr ⟨first, later⟩
  case refine_14 => exact fun _ _ held => held
  -- What is left are the constructors that hold no value.
  all_goals
    intros
    exact leaf _ id

end Value

end Js
