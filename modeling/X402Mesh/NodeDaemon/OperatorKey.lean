import X402Mesh.NodeDaemon.Keys
import X402Mesh.Registry.Seals

set_option autoImplicit false

namespace X402Mesh.NodeDaemon

open Registry Keys

-- `Buffer.from(value, "base64")` and `toString("base64")`.
def fromBase64 (cs : List Char) : List UInt8 := (Base64.decode cs).map UInt8.ofNat

def toBase64 (bytes : List UInt8) : String :=
  String.ofList (Base64.encode (bytes.map UInt8.toNat))

/-- What `node:crypto` does: the public key of a seed it can use, the signature that a seed makes,
and a digest. -/
structure NodeCrypto where
  publicKeyOf : List UInt8 → Option (List UInt8)
  sign : List UInt8 → ByteArray → List UInt8
  sha512_256 : List UInt8 → List UInt8

structure OperatorKey where
  address : String
  publicKey : List UInt8
  publicKeyB64 : String
  sign : ByteArray → List UInt8

def OperatorKey.signB64 (key : OperatorKey) (message : ByteArray) : String :=
  toBase64 (key.sign message)

def algorandSecretKeyBytes : Nat := 64

def ed25519SeedBytes : Nat := 32

def decodeBase64Exact (value : String) (byteLength : Nat) (label : String) :
    Except MeshError (List UInt8) :=
  let cs := value.toList
  let expected := ("expectedBytes", toString byteLength)
  if cs.isEmpty || cs.length % 4 ≠ 0 then
    .error ⟨.config, label ++ " must be canonical base64", [expected]⟩
  else if !Base64.pattern cs then
    .error ⟨.config, label ++ " must be canonical base64", [expected]⟩
  else
    let decoded := Base64.decode cs
    if decoded.length ≠ byteLength || Base64.encode decoded ≠ cs then
      .error ⟨.config, label ++ " must decode to exactly " ++ toString byteLength ++ " bytes",
        [expected, ("actualBytes", toString decoded.length)]⟩
    else .ok (fromBase64 cs)

def loadOperatorKey (node : NodeCrypto) (privateKeyB64 : String) :
    Except MeshError OperatorKey := do
  let secret ← decodeBase64Exact privateKeyB64 algorandSecretKeyBytes "AVM_PRIVATE_KEY"
  let seed := secret.take ed25519SeedBytes
  let declaredPublicKey := secret.drop ed25519SeedBytes
  match node.publicKeyOf seed with
  | none => throw ⟨.config, "AVM_PRIVATE_KEY is not a usable Ed25519 seed", []⟩
  | some derivedPublicKey =>
    if derivedPublicKey ≠ declaredPublicKey then
      throw ⟨.config,
        "AVM_PRIVATE_KEY is inconsistent: its public-key half does not match its seed", []⟩
    else
      let address ← algorandAddressFromPublicKey node.sha512_256 derivedPublicKey
      return ⟨address, derivedPublicKey, toBase64 derivedPublicKey, node.sign seed⟩

theorem bytes_small (bytes : List UInt8) : ∀ b ∈ bytes.map UInt8.toNat, b < 256 := by
  intro b member
  obtain ⟨byte, -, rfl⟩ := List.mem_map.mp member
  exact byte.toNat_lt

theorem decode_toBase64 (bytes : List UInt8) :
    Base64.decode (toBase64 bytes).toList = bytes.map UInt8.toNat := by
  rw [toBase64, String.toList_ofList, Base64.decode_encode (bytes_small bytes)]

theorem ofLength_toBase64 {bytes : List UInt8} {length : Nat} (size : bytes.length = length)
    (positive : 0 < length) : Base64.ofLength length (toBase64 bytes) = true := by
  have named : bytes.map UInt8.toNat ≠ [] := by
    intro empty
    rw [List.map_eq_nil_iff.mp empty] at size
    simp at size
    omega
  have canonical := Base64.ofLength_encode (bytes_small bytes) named
  rwa [List.length_map, size] at canonical

structure OperatorKey.Loaded (node : NodeCrypto) (key : OperatorKey) : Prop where
  seeded : ∃ seed, node.publicKeyOf seed = some key.publicKey ∧ key.sign = node.sign seed
  addressed : algorandAddressFromPublicKey node.sha512_256 key.publicKey = .ok key.address
  written : key.publicKeyB64 = toBase64 key.publicKey

theorem loadOperatorKey_loaded {node : NodeCrypto} {privateKeyB64 : String} {key : OperatorKey}
    (loads : loadOperatorKey node privateKeyB64 = .ok key) : key.Loaded node := by
  simp only [loadOperatorKey, bind, Except.bind] at loads
  split at loads
  next => cases loads
  next secret decoded =>
    split at loads
    next => cases loads
    next derived usable =>
      split at loads
      next => cases loads
      next consistent =>
        cases address : algorandAddressFromPublicKey node.sha512_256 derived with
        | error =>
          rw [address] at loads
          cases loads
        | ok =>
          rw [address] at loads
          obtain rfl := Except.ok.inj loads
          exact ⟨⟨_, usable, rfl⟩, address, rfl⟩

theorem loadOperatorKey_ok {node : NodeCrypto} {privateKeyB64 address : String}
    {seed publicKey : List UInt8}
    (decoded : decodeBase64Exact privateKeyB64 algorandSecretKeyBytes "AVM_PRIVATE_KEY" =
      .ok (seed ++ publicKey)) (size : seed.length = ed25519SeedBytes)
    (usable : node.publicKeyOf seed = some publicKey)
    (derived : algorandAddressFromPublicKey node.sha512_256 publicKey = .ok address) :
    loadOperatorKey node privateKeyB64 =
      .ok ⟨address, publicKey, toBase64 publicKey, node.sign seed⟩ := by
  have front : (seed ++ publicKey).take ed25519SeedBytes = seed := List.take_left' size
  have back : (seed ++ publicKey).drop ed25519SeedBytes = publicKey := List.drop_left' size
  simp only [loadOperatorKey, decoded, bind, Except.bind, front, back, usable, derived, ne_eq,
    not_true, if_false]
  rfl

-- The address of a key of the right size is one that the schema takes.
theorem algorandAddress_derived {sha512_256 : List UInt8 → List UInt8} {publicKey : List UInt8}
    {address : String}
    (derived : algorandAddressFromPublicKey sha512_256 publicKey = .ok address) :
    algorandAddress address = true := by
  unfold algorandAddressFromPublicKey at derived
  split at derived
  next => cases derived
  next =>
    dsimp only at derived
    split at derived
    next => cases derived
    next size =>
      obtain rfl := Except.ok.inj derived
      have letters : ∀ i : Fin 32, (letter i).isUpper || ('2' ≤ letter i && letter i ≤ '7') := by
        decide
      rw [ne_eq, not_not] at size
      simp only [algorandAddress, Bool.and_eq_true, decide_eq_true_eq, List.all_eq_true]
      refine ⟨size, ?_⟩
      rw [base32Encode_eq, String.toList_ofList]
      intro c member
      obtain ⟨i, -, rfl⟩ := List.mem_map.mp member
      exact letters i

end X402Mesh.NodeDaemon
