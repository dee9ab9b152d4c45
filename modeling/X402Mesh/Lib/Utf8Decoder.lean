import Mathlib.Data.List.Basic

set_option autoImplicit false

namespace Utf8

def replacement : Char := '\uFFFD'

def byteOrderMark : Char := '\uFEFF'

-- `left` more bytes belong to the sequence, and the next is between `lower` and `upper`.
structure Decoder where
  left : Nat
  point : Nat
  lower : Nat
  upper : Nat
  bomSeen : Bool
  above : 0x80 ≤ lower
  deriving DecidableEq, Repr

namespace Decoder

def init : Decoder := ⟨0, 0, 0x80, 0xBF, false, by decide⟩

def idle (d : Decoder) : Decoder := ⟨0, 0, 0x80, 0xBF, d.bomSeen, by decide⟩

-- A byte that begins a character.
def lead (d : Decoder) (b : Nat) : Decoder × List Char :=
  if b ≤ 0x7F then (d.idle, [Char.ofNat b])
  else if 0xC2 ≤ b ∧ b ≤ 0xDF then ({ d.idle with left := 1, point := b % 32 }, [])
  else if 0xE0 ≤ b ∧ b ≤ 0xEF then
    ({ d.idle with
        left := 2
        point := b % 16
        lower := if b = 0xE0 then 0xA0 else 0x80
        upper := if b = 0xED then 0x9F else 0xBF
        above := by split <;> decide }, [])
  else if 0xF0 ≤ b ∧ b ≤ 0xF4 then
    ({ d.idle with
        left := 3
        point := b % 8
        lower := if b = 0xF0 then 0x90 else 0x80
        upper := if b = 0xF4 then 0x8F else 0xBF
        above := by split <;> decide }, [])
  else (d.idle, [replacement])

def next (d : Decoder) (b : Nat) : Decoder × List Char :=
  if d.left = 0 then d.lead b
  else if b < d.lower ∨ d.upper < b then
    -- The sequence is broken off, and the byte is read again.
    ((d.lead b).1, replacement :: (d.lead b).2)
  else if d.left = 1 then (d.idle, [Char.ofNat (d.point * 64 + b % 64)])
  else ({ d.idle with left := d.left - 1, point := d.point * 64 + b % 64 }, [])

def stripBom (d : Decoder) : List Char → Decoder × List Char
  | [] => (d, [])
  | c :: rest =>
    if d.bomSeen then (d, c :: rest)
    else ({ d with bomSeen := true }, if c = byteOrderMark then rest else c :: rest)

def step (d : Decoder) (b : UInt8) : Decoder × List Char :=
  (d.next b.toNat).1.stripBom (d.next b.toNat).2

def decode (d : Decoder) : List UInt8 → Decoder × List Char
  | [] => (d, [])
  | b :: rest => (((d.step b).1.decode rest).1, (d.step b).2 ++ ((d.step b).1.decode rest).2)

theorem decode_append (d : Decoder) (a b : List UInt8) :
    d.decode (a ++ b) =
      (((d.decode a).1.decode b).1, (d.decode a).2 ++ ((d.decode a).1.decode b).2) := by
  induction a generalizing d with
  | nil => rfl
  | cons first rest ih => simp [decode, ih]

theorem length_stripBom (d : Decoder) (cs : List Char) : (d.stripBom cs).2.length ≤ cs.length := by
  cases cs with
  | nil => exact Nat.le_refl 0
  | cons c rest =>
    simp only [stripBom]
    split
    next => exact Nat.le_refl _
    next =>
      split
      next => exact Nat.le_succ _
      next => exact Nat.le_refl _

theorem length_lead (d : Decoder) (b : Nat) : (d.lead b).2.length ≤ 1 := by
  unfold lead
  repeat' split
  all_goals simp

theorem length_step (d : Decoder) (b : UInt8) : (d.step b).2.length ≤ 2 := by
  have one := d.length_lead b.toNat
  calc (d.step b).2.length ≤ (d.next b.toNat).2.length := length_stripBom _ _
    _ ≤ 2 := by
      unfold next
      split
      next => omega
      split
      next => rw [List.length_cons]; omega
      split
      next => exact Nat.le_succ 1
      next => exact Nat.zero_le 2

def ascii (cs : List Char) : List UInt8 := cs.map fun c => c.toNat.toUInt8

-- What a sequence that is broken off leaves in front of the text that breaks it off.
def broken (d : Decoder) : List Char := if d.left = 0 then [] else [replacement]

theorem lead_ascii (d : Decoder) (c : Char) (plain : c.toNat < 128) :
    d.lead c.toNat = (d.idle, [c]) := by
  rw [lead, if_pos (by omega), Char.ofNat_toNat]

theorem step_ascii (d : Decoder) (c : Char) (plain : c.toNat < 128) :
    (d.step c.toNat.toUInt8).2 = d.broken ++ [c] ∧
      (d.step c.toNat.toUInt8).1.left = 0 ∧ (d.step c.toNat.toUInt8).1.bomSeen = true := by
  have byte : c.toNat.toUInt8.toNat = c.toNat := by
    rw [Nat.toUInt8, UInt8.toNat_ofNat']
    omega
  have other : c ≠ byteOrderMark := by
    intro same
    rw [same] at plain
    exact absurd plain (by decide)
  have above := d.above
  have mark : replacement ≠ byteOrderMark := by decide
  rw [step, byte]
  by_cases closed : d.left = 0
  · rw [next, if_pos closed, lead_ascii d c plain, broken, if_pos closed]
    simp only [stripBom, other, if_false]
    split
    next seen => exact ⟨rfl, rfl, seen⟩
    next => exact ⟨rfl, rfl, rfl⟩
  · rw [next, if_neg closed, if_pos (.inl (by omega)), lead_ascii d c plain, broken, if_neg closed]
    simp only [stripBom, mark, if_false]
    split
    next seen => exact ⟨rfl, rfl, seen⟩
    next => exact ⟨rfl, rfl, rfl⟩

theorem decode_ascii (d : Decoder) (c : Char) (cs : List Char)
    (plain : ∀ e ∈ c :: cs, e.toNat < 128) :
    (d.decode (ascii (c :: cs))).2 = d.broken ++ c :: cs := by
  have first := d.step_ascii c (plain c List.mem_cons_self)
  -- From the second byte on nothing is left of a sequence.
  have later (cs : List Char) (d : Decoder) (closed : d.left = 0)
      (plain : ∀ e ∈ cs, e.toNat < 128) : (d.decode (ascii cs)).2 = cs := by
    induction cs generalizing d with
    | nil => rfl
    | cons e rest ih =>
      have here := d.step_ascii e (plain e List.mem_cons_self)
      have tail := ih (d.step e.toNat.toUInt8).1 here.2.1 fun f member =>
        plain f (List.mem_cons_of_mem _ member)
      rw [ascii, List.map_cons, decode, here.1, broken, if_pos closed]
      exact congrArg (e :: ·) tail
  have rest := later cs (d.step c.toNat.toUInt8).1 first.2.1 fun e member =>
    plain e (List.mem_cons_of_mem _ member)
  rw [ascii, List.map_cons, decode, first.1, List.append_assoc]
  exact congrArg (d.broken ++ c :: ·) rest

end Decoder

def text (bytes : List UInt8) : List Char := (Decoder.init.decode bytes).2

theorem text_append (a b : List UInt8) :
    text (a ++ b) = text a ++ ((Decoder.init.decode a).1.decode b).2 := by
  rw [text, Decoder.decode_append]
  rfl

theorem text_prefix {a b : List UInt8} (front : a <+: b) : text a <+: text b := by
  obtain ⟨rest, rfl⟩ := front
  exact ⟨_, (text_append a rest).symm⟩

-- The UTF-16 units that a JavaScript string of the text has.
def units (cs : List Char) : List Nat :=
  cs.flatMap fun c =>
    if c.toNat < 0x10000 then [c.toNat]
    else [0xD800 + (c.toNat - 0x10000) / 1024, 0xDC00 + (c.toNat - 0x10000) % 1024]

theorem units_append (a b : List Char) : units (a ++ b) = units a ++ units b := List.flatMap_append

theorem length_units (cs : List Char) : (units cs).length ≤ 2 * cs.length := by
  induction cs with
  | nil => exact Nat.le_refl 0
  | cons c rest ih =>
    rw [units, List.flatMap_cons, List.length_append, ← units, List.length_cons]
    split
    next => simp; omega
    next => simp; omega

-- The last call flushes a character that was never completed.
def complete (bytes : List UInt8) : List Char := text bytes ++ (Decoder.init.decode bytes).1.broken

theorem complete_append (a b : List UInt8) :
    complete (a ++ b) = text a ++ (((Decoder.init.decode a).1.decode b).2 ++
      ((Decoder.init.decode a).1.decode b).1.broken) := by
  rw [complete, text_append, Decoder.decode_append, List.append_assoc]

namespace Decoder

theorem length_units_stripBom (d : Decoder) (cs : List Char) :
    (units (d.stripBom cs).2).length ≤ (units cs).length ∧
      (d.stripBom cs).1.broken = d.broken := by
  cases cs with
  | nil => exact ⟨Nat.le_refl _, rfl⟩
  | cons c rest =>
    simp only [stripBom]
    split
    next => exact ⟨Nat.le_refl _, rfl⟩
    next =>
      refine ⟨?_, rfl⟩
      split
      next => simp [units]
      next => exact Nat.le_refl _

theorem length_units_lead (d : Decoder) (b : Nat) :
    (units (d.lead b).2).length + (d.lead b).1.broken.length ≤ 1 := by
  unfold lead
  split
  next plain =>
    have same : ∀ n < 128, (Char.ofNat n).toNat = n := by decide
    have low : (Char.ofNat b).toNat < 0x10000 := by
      rw [same b (by omega)]
      omega
    simp [units, low, broken, idle]
  repeat' split
  all_goals simp [units, broken, idle, replacement]

-- A unit of the text is paid for by a byte, or by the one that a broken character keeps back.
theorem length_units_step (d : Decoder) (b : UInt8) :
    (units (d.step b).2).length + (d.step b).1.broken.length ≤ d.broken.length + 1 := by
  have stripped := length_units_stripBom (d.next b.toNat).1 (d.next b.toNat).2
  have lead := d.length_units_lead b.toNat
  rw [step, stripped.2]
  refine Nat.le_trans (Nat.add_le_add_right stripped.1 _) ?_
  by_cases closed : d.left = 0
  · rw [next, if_pos closed]
    omega
  have held : d.broken.length = 1 := by rw [broken, if_neg closed]; rfl
  rw [next, if_neg closed, held]
  split
  next =>
    have mark : (units [replacement]).length = 1 := by decide
    rw [← List.singleton_append, units_append, List.length_append, mark]
    simp only
    omega
  split
  next =>
    have pair := length_units [Char.ofNat (d.point * 64 + b.toNat % 64)]
    simpa [broken, idle] using pair
  next =>
    simp only [broken]
    split <;> simp [units]

theorem length_units_decode (d : Decoder) (bytes : List UInt8) :
    (units (d.decode bytes).2).length + (d.decode bytes).1.broken.length ≤
      d.broken.length + bytes.length := by
  induction bytes generalizing d with
  | nil => simp [decode, units]
  | cons b rest ih =>
    have here := d.length_units_step b
    have later := ih (d.step b).1
    simp only [decode, units_append, List.length_append, List.length_cons]
    omega

end Decoder

theorem length_le_units (cs : List Char) : cs.length ≤ (units cs).length := by
  induction cs with
  | nil => exact Nat.le_refl 0
  | cons c rest ih =>
    rw [units, List.flatMap_cons, List.length_append, ← units, List.length_cons]
    split
    next => simp; omega
    next => simp; omega

theorem units_broken (d : Decoder) : (units d.broken).length = d.broken.length := by
  rw [Decoder.broken]
  split <;> rfl

theorem length_units_complete (bytes : List UInt8) :
    (units (complete bytes)).length ≤ bytes.length := by
  have whole := Decoder.init.length_units_decode bytes
  have none : Decoder.init.broken.length = 0 := rfl
  rw [complete, units_append, List.length_append, units_broken, text]
  omega

def encode (cs : List Char) : List UInt8 := cs.flatMap String.utf8EncodeChar

namespace Decoder

structure Between (d : Decoder) : Prop where
  closed : d.left = 0
  seen : d.bomSeen = true

theorem toNat_byte {n : Nat} (small : n < 256) : (UInt8.ofNat n).toNat = n := by
  rw [UInt8.toNat_ofNat']
  omega

theorem lead_bomSeen (d : Decoder) (b : Nat) : (d.lead b).1.bomSeen = d.bomSeen := by
  unfold lead
  repeat' split
  all_goals rfl

theorem next_bomSeen (d : Decoder) (b : Nat) : (d.next b).1.bomSeen = d.bomSeen := by
  unfold next
  split
  next => exact d.lead_bomSeen b
  split
  next => exact d.lead_bomSeen b
  split <;> rfl

theorem stripBom_seen {d : Decoder} (seen : d.bomSeen = true) (cs : List Char) :
    d.stripBom cs = (d, cs) := by
  cases cs with
  | nil => rfl
  | cons c rest => simp [stripBom, seen]

theorem decode_seen {d : Decoder} (seen : d.bomSeen = true) {b : Nat} (byte : b < 256)
    (rest : List UInt8) : d.decode (UInt8.ofNat b :: rest) =
      (((d.next b).1.decode rest).1, (d.next b).2 ++ ((d.next b).1.decode rest).2) := by
  rw [decode, step, toNat_byte byte, stripBom_seen ((d.next_bomSeen b).trans seen)]

-- The byte that begins a sequence, one in the middle of it and the last one.
theorem decode_lead {d d' : Decoder} (between : d.Between) {b : Nat} (byte : b < 256)
    (opens : d.lead b = (d', [])) (rest : List UInt8) :
    d.decode (UInt8.ofNat b :: rest) = d'.decode rest := by
  have next : d.next b = (d', []) := by rw [next, if_pos between.closed, opens]
  rw [decode_seen between.seen byte, next]
  rfl

theorem decode_more {more point lower upper : Nat} {above : 0x80 ≤ lower} {b : Nat}
    (byte : b < 256) (range : lower ≤ b ∧ b ≤ upper) (rest : List UInt8) :
    (⟨more + 2, point, lower, upper, true, above⟩ : Decoder).decode (UInt8.ofNat b :: rest) =
      (⟨more + 1, point * 64 + b % 64, 0x80, 0xBF, true, by decide⟩ : Decoder).decode rest := by
  rw [decode_seen rfl byte, next, if_neg (by simp), if_neg (by simp only; omega), if_neg (by simp)]
  rfl

theorem decode_last {point lower upper : Nat} {above : 0x80 ≤ lower} {b : Nat} (byte : b < 256)
    (range : lower ≤ b ∧ b ≤ upper) :
    (⟨1, point, lower, upper, true, above⟩ : Decoder).decode [UInt8.ofNat b] =
      (⟨0, 0, 0x80, 0xBF, true, by decide⟩, [Char.ofNat (point * 64 + b % 64)]) := by
  rw [decode_seen rfl byte, next, if_neg (by simp), if_neg (by simp only; omega), if_pos rfl]
  rfl

theorem scalar_range (c : Char) :
    c.toNat < 0xD800 ∨ 0xDFFF < c.toNat ∧ c.toNat < 0x110000 := c.valid

theorem decode_char {d : Decoder} (between : d.Between) (c : Char) :
    d.decode (String.utf8EncodeChar c) = (⟨0, 0, 0x80, 0xBF, true, by decide⟩, [c]) := by
  have range := scalar_range c
  have value : c.val.toNat = c.toNat := rfl
  have whole : Char.ofNat c.toNat = c := Char.ofNat_toNat c
  have seen := between.seen
  unfold String.utf8EncodeChar
  simp only [value]
  split
  next small =>
    have plain : d.next c.toNat = (⟨0, 0, 0x80, 0xBF, true, by decide⟩, [c]) := by
      rw [next, if_pos between.closed, lead, if_pos small, whole]
      simp [idle, seen]
    rw [decode_seen seen (by omega), plain]
    rfl
  split
  next more two =>
    have opens : d.lead (c.toNat / 64 % 32 + 192) =
        (⟨1, (c.toNat / 64 % 32 + 192) % 32, 0x80, 0xBF, true, by decide⟩, []) := by
      rw [lead, if_neg (by omega), if_pos (by omega)]
      simp [idle, seen]
    have point : (c.toNat / 64 % 32 + 192) % 32 * 64 + (c.toNat % 64 + 128) % 64 = c.toNat := by
      omega
    rw [decode_lead between (by omega) opens, decode_last (by omega) (by omega), point, whole]
  split
  next more three =>
    have opens : d.lead (c.toNat / 4096 % 16 + 224) =
        (⟨2, (c.toNat / 4096 % 16 + 224) % 16,
          if c.toNat / 4096 % 16 + 224 = 0xE0 then 0xA0 else 0x80,
          if c.toNat / 4096 % 16 + 224 = 0xED then 0x9F else 0xBF, true,
          by split <;> decide⟩, []) := by
      rw [lead, if_neg (by omega), if_neg (by omega), if_pos (by omega)]
      simp only [idle, seen]
    have second : (if c.toNat / 4096 % 16 + 224 = 0xE0 then 0xA0 else 0x80) ≤
          c.toNat / 64 % 64 + 128 ∧
        c.toNat / 64 % 64 + 128 ≤ (if c.toNat / 4096 % 16 + 224 = 0xED then 0x9F else 0xBF) := by
      constructor <;> split <;> omega
    have point : ((c.toNat / 4096 % 16 + 224) % 16 * 64 + (c.toNat / 64 % 64 + 128) % 64) * 64 +
        (c.toNat % 64 + 128) % 64 = c.toNat := by
      omega
    rw [decode_lead between (by omega) opens, decode_more (by omega) second,
      decode_last (by omega) (by omega), point, whole]
  next more =>
    have opens : d.lead (c.toNat / 262144 % 8 + 240) =
        (⟨3, (c.toNat / 262144 % 8 + 240) % 8,
          if c.toNat / 262144 % 8 + 240 = 0xF0 then 0x90 else 0x80,
          if c.toNat / 262144 % 8 + 240 = 0xF4 then 0x8F else 0xBF, true,
          by split <;> decide⟩, []) := by
      rw [lead, if_neg (by omega), if_neg (by omega), if_neg (by omega), if_pos (by omega)]
      simp only [idle, seen]
    have second : (if c.toNat / 262144 % 8 + 240 = 0xF0 then 0x90 else 0x80) ≤
          c.toNat / 4096 % 64 + 128 ∧
        c.toNat / 4096 % 64 + 128 ≤ (if c.toNat / 262144 % 8 + 240 = 0xF4 then 0x8F else 0xBF) := by
      constructor <;> split <;> omega
    have point : (((c.toNat / 262144 % 8 + 240) % 8 * 64 + (c.toNat / 4096 % 64 + 128) % 64) * 64 +
        (c.toNat / 64 % 64 + 128) % 64) * 64 + (c.toNat % 64 + 128) % 64 = c.toNat := by
      omega
    rw [decode_lead between (by omega) opens, decode_more (by omega) second,
      decode_more (by omega) (by omega), decode_last (by omega) (by omega), point, whole]

theorem decode_encode_between {d : Decoder} (between : d.Between) (cs : List Char) :
    (d.decode (encode cs)).2 = cs := by
  induction cs generalizing d with
  | nil => rfl
  | cons c rest ih =>
    have later := ih (d := ⟨0, 0, 0x80, 0xBF, true, by decide⟩) ⟨rfl, rfl⟩
    rw [encode, List.flatMap_cons, decode_append, decode_char between]
    exact congrArg (c :: ·) later

theorem between_encode {d : Decoder} (between : d.Between) (cs : List Char) :
    (d.decode (encode cs)).1.Between := by
  induction cs generalizing d with
  | nil => exact between
  | cons c rest ih =>
    rw [encode, List.flatMap_cons, decode_append, decode_char between]
    exact ih ⟨rfl, rfl⟩

end Decoder

-- A text that begins with a plain character has nothing in front that is left out.
theorem text_encode (c : Char) (cs : List Char) (plain : c.toNat < 128) :
    text (encode (c :: cs)) = c :: cs := by
  have first : String.utf8EncodeChar c = [c.toNat.toUInt8] := by
    have small : c.val.toNat ≤ 0x7f := by
      have value : c.val.toNat = c.toNat := rfl
      omega
    rw [String.utf8EncodeChar, if_pos small]
    rfl
  have step := Decoder.init.step_ascii c plain
  have between : (Decoder.init.step c.toNat.toUInt8).1.Between := ⟨step.2.1, step.2.2⟩
  have later := Decoder.decode_encode_between between cs
  rw [text, encode, List.flatMap_cons, first, List.singleton_append, Decoder.decode, step.1]
  exact congrArg (c :: ·) later

end Utf8
