import X402Mesh.Lib.Base32
import X402Mesh.Shared.Errors

set_option autoImplicit false

-- The accumulator of the encoder is a 32-bit integer that is shifted and never cleared.

namespace X402Mesh.NodeDaemon.Keys

open Base32

def ed25519PublicKeyBytes : Nat := 32

def algorandChecksumBytes : Nat := 4

def algorandAddressLength : Nat := 58

def base32Alphabet : List Char := "ABCDEFGHIJKLMNOPQRSTUVWXYZ234567".toList

theorem length_base32Alphabet : base32Alphabet.length = 32 := rfl

def letter (i : Fin 32) : Char := base32Alphabet.get (i.cast length_base32Alphabet.symm)

-- `x << count` and `x >>> count`, which use the low five bits of the count.
def shiftLeft (x : BitVec 32) (count : Nat) : BitVec 32 := x <<< (count % 32)

def shiftRight (x : BitVec 32) (count : Nat) : BitVec 32 := x >>> (count % 32)

-- `x & 0b11111`
def lowFive (x : BitVec 32) : Fin 32 :=
  ⟨(x &&& 31#32).toNat, Nat.lt_of_le_of_lt (by simpa using Nat.and_le_right) (by decide : 31 < 32)⟩

/-- The inner loop: letters are taken off while there are five bits to take. -/
def drain (buffer : BitVec 32) : Nat → List Char → Nat × List Char
  | bits + 5, out => drain buffer bits (out ++ [letter (lowFive (shiftRight buffer bits))])
  | bits, out => (bits, out)

def encodeFrom : List UInt8 → BitVec 32 → Nat → List Char → List Char
  | byte :: rest, buffer, bits, out =>
    let buffer := shiftLeft buffer 8 ||| byte.toBitVec.setWidth 32
    let drained := drain buffer (bits + 8) out
    encodeFrom rest buffer drained.1 drained.2
  | [], buffer, bits, out =>
    if bits > 0 then out ++ [letter (lowFive (shiftLeft buffer (5 - bits)))] else out

def base32Encode (bytes : List UInt8) : String := String.ofList (encodeFrom bytes 0 0 [])

def algorandAddressFromPublicKey (sha512_256 : List UInt8 → List UInt8) (publicKey : List UInt8) :
    Except MeshError String :=
  if publicKey.length ≠ ed25519PublicKeyBytes then
    .error ⟨.validation, "public key must be 32 bytes",
      [("actualBytes", toString publicKey.length)]⟩
  else
    let digest := sha512_256 publicKey
    let checksum := digest.drop (digest.length - algorandChecksumBytes)
    let address := base32Encode (publicKey ++ checksum)
    if address.length ≠ algorandAddressLength then
      .error ⟨.validation, "derived an Algorand address of the wrong length",
        [("length", toString address.length), ("expected", toString algorandAddressLength)]⟩
    else .ok address

theorem lowFive_eq (x : BitVec 32) :
    lowFive x = five (x.getLsbD 4) (x.getLsbD 3) (x.getLsbD 2) (x.getLsbD 1) (x.getLsbD 0) := by
  have masked : (x &&& 31#32).toNat = x.toNat % 2 ^ 5 := Nat.and_two_pow_sub_one_eq_mod x.toNat 5
  apply Fin.ext
  simp only [lowFive, five, masked, ← BitVec.testBit_toNat, Nat.toNat_testBit]
  omega

theorem groups_lowFive (x : BitVec 32) (rest : List Bool) :
    groups (bits x 5 ++ rest) = lowFive x :: groups rest := by
  rw [lowFive_eq]
  rfl

-- Five bits come off the front; what is below them stays.
theorem groups_front (buffer : BitVec 32) {count : Nat} (small : count < 32) (more : List Bool) :
    groups (bits buffer (count + 5) ++ more) =
      lowFive (shiftRight buffer count) :: groups (bits buffer count ++ more) := by
  rw [Nat.add_comm, bits_add, List.append_assoc, groups_lowFive, shiftRight, Nat.mod_eq_of_lt small]

theorem drain_letters (buffer : BitVec 32) {count : Nat} (small : count < 32) (out : List Char)
    (more : List Bool) :
    (drain buffer count out).1 < 5 ∧
      (drain buffer count out).2 ++
          (groups (bits buffer (drain buffer count out).1 ++ more)).map letter =
        out ++ (groups (bits buffer count ++ more)).map letter := by
  fun_induction drain buffer count out with
  | case1 count out ih =>
    have shorter : count < 32 := by omega
    have later := ih shorter
    rw [groups_front buffer shorter]
    simpa using later
  | case2 count out few =>
    refine ⟨?_, rfl⟩
    by_contra enough
    exact few (count - 5) (by omega)

-- A byte shifted in stands behind what was there, as long as no bit of that is lost.
theorem bits_shift (buffer : BitVec 32) (byte : UInt8) {count : Nat} (room : count + 8 ≤ 32) :
    bits (shiftLeft buffer 8 ||| byte.toBitVec.setWidth 32) (count + 8) =
      bits buffer count ++ bits byte.toBitVec 8 := by
  have shift : shiftLeft buffer 8 = buffer <<< 8 := rfl
  rw [bits_add, shift]
  congr 1
  next =>
    apply bits_congr
    intro i below
    have beyond : 8 + i - 8 = i := by omega
    have inside : 8 + i < 32 := by omega
    have above : ¬ 8 + i < 8 := by omega
    simp [beyond, inside, above, -BitVec.getLsbD_eq_getElem]
  next =>
    apply bits_congr
    intro i below
    have inside : i < 32 := by omega
    simp [below, inside]

theorem encodeFrom_eq (bytes : List UInt8) (buffer : BitVec 32) {count : Nat} (few : count < 5)
    (out : List Char) : encodeFrom bytes buffer count out =
      out ++ (groups (bits buffer count ++ bitString bytes)).map letter := by
  induction bytes generalizing buffer count out with
  | nil =>
    rw [bitString, List.flatMap_nil, List.append_nil, encodeFrom]
    rcases count with _ | _ | _ | _ | _ | count
    next => simp [bits, groups]
    next => simp [bits, groups, lowFive_eq, shiftLeft]
    next => simp [bits, groups, lowFive_eq, shiftLeft]
    next => simp [bits, groups, lowFive_eq, shiftLeft]
    next => simp [bits, groups, lowFive_eq, shiftLeft]
    next => omega
  | cons byte rest ih =>
    have shifted := bits_shift buffer byte (show count + 8 ≤ 32 by omega)
    have drained := drain_letters (shiftLeft buffer 8 ||| byte.toBitVec.setWidth 32)
      (show count + 8 < 32 by omega) out (bitString rest)
    rw [encodeFrom, ih _ drained.1, drained.2, shifted, List.append_assoc]
    rfl

theorem base32Encode_eq (bytes : List UInt8) :
    base32Encode bytes = String.ofList (encode letter bytes) := by
  rw [base32Encode, encodeFrom_eq bytes 0 (by omega) []]
  rfl

theorem idxOf_letter : ∀ i : Fin 32, base32Alphabet.idxOf (letter i) = i.val := by
  decide

theorem letter_injective : Function.Injective letter := by
  intro i j same
  apply Fin.ext
  rw [← idxOf_letter i, ← idxOf_letter j, same]

theorem length_base32Encode (bytes : List UInt8) :
    (base32Encode bytes).length = (8 * bytes.length + 4) / 5 := by
  rw [base32Encode_eq, String.length_ofList, length_encode]

theorem base32Encode_injective : Function.Injective base32Encode := by
  intro xs ys same
  rw [base32Encode_eq, base32Encode_eq] at same
  exact encode_injective letter_injective (String.ofList_injective same)

section

variable {sha512_256 : List UInt8 → List UInt8}

theorem algorandAddress_eq (digest : ∀ bytes, (sha512_256 bytes).length = 32)
    {publicKey : List UInt8} (size : publicKey.length = ed25519PublicKeyBytes) :
    algorandAddressFromPublicKey sha512_256 publicKey =
      .ok (base32Encode (publicKey ++ (sha512_256 publicKey).drop 28)) := by
  have size' : publicKey.length = 32 := size
  have length : (base32Encode (publicKey ++ (sha512_256 publicKey).drop 28)).length =
      algorandAddressLength := by
    rw [length_base32Encode, List.length_append, List.length_drop, digest, size']
    rfl
  have cut : (sha512_256 publicKey).length - algorandChecksumBytes = 28 := by rw [digest]; rfl
  simp only [algorandAddressFromPublicKey, cut, length, size, ne_eq, not_true_eq_false, if_false]

theorem algorandAddress_injective (digest : ∀ bytes, (sha512_256 bytes).length = 32)
    {key other : List UInt8} (size : key.length = ed25519PublicKeyBytes)
    (size' : other.length = ed25519PublicKeyBytes)
    (same : algorandAddressFromPublicKey sha512_256 key =
      algorandAddressFromPublicKey sha512_256 other) : key = other := by
  rw [algorandAddress_eq digest size, algorandAddress_eq digest size'] at same
  have bytes := base32Encode_injective (Except.ok.inj same)
  exact (List.append_inj bytes (size.trans size'.symm)).1

end

theorem base32Encode_rfc4648 (sha512_256 : List UInt8 → List UInt8)
    (digest : ∀ bytes, (sha512_256 bytes).length = 32) :
    (∀ bytes, base32Encode bytes = String.ofList (encode letter bytes) ∧
      (base32Encode bytes).length = (8 * bytes.length + 4) / 5) ∧
    Function.Injective base32Encode ∧
    (∀ publicKey : List UInt8, publicKey.length = ed25519PublicKeyBytes →
      ∃ address, algorandAddressFromPublicKey sha512_256 publicKey = .ok address ∧
        address.length = 58) ∧
    ∀ key other : List UInt8, key.length = ed25519PublicKeyBytes →
      other.length = ed25519PublicKeyBytes → key ≠ other →
      algorandAddressFromPublicKey sha512_256 key ≠
        algorandAddressFromPublicKey sha512_256 other := by
  refine ⟨fun bytes => ⟨base32Encode_eq bytes, length_base32Encode bytes⟩,
    base32Encode_injective, ?_, ?_⟩
  next =>
    intro publicKey size
    have size' : publicKey.length = 32 := size
    refine ⟨_, algorandAddress_eq digest size, ?_⟩
    rw [length_base32Encode, List.length_append, List.length_drop, digest, size']
  next =>
    intro key other size size' differ same
    exact differ (algorandAddress_injective digest size size' same)

-- The digest of the key of 32 zeros.
def zeroKeyDigest : List UInt8 :=
  [175, 19, 192, 72, 153, 18, 36, 165, 228, 198, 100, 68, 107, 104, 138, 175, 72, 251, 84, 86, 219,
    54, 41, 96, 27, 0, 236, 22, 12, 116, 229, 84]

def zeroKey : List UInt8 := List.replicate 32 0

def demoDigest (bytes : List UInt8) : List UInt8 :=
  if bytes = zeroKey then zeroKeyDigest else List.replicate 32 0

theorem length_demoDigest (bytes : List UInt8) : (demoDigest bytes).length = 32 := by
  unfold demoDigest
  split <;> rfl

theorem zeroKey_address :
    ∃ address, algorandAddressFromPublicKey demoDigest zeroKey = .ok address ∧
      address.length = 58 :=
  (base32Encode_rfc4648 demoDigest length_demoDigest).2.2.1 zeroKey rfl

example : algorandAddressFromPublicKey demoDigest zeroKey =
    .ok "AAAAAAAAAAAAAAAAAAAAAAAAAAAAAAAAAAAAAAAAAAAAAAAAAAAAY5HFKQ" := by
  rw [algorandAddress_eq length_demoDigest rfl]
  exact congrArg Except.ok (by decide)

end X402Mesh.NodeDaemon.Keys
