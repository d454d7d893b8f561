import NeuralMesh.Base.Calls
import NeuralMesh.Base.Hex

/-!
# Signing keys

`crypto/src/keys.rs` and the signatures of `crypto/src/pq_keys.rs`. The schemes of the crates
`ed25519-dalek` and `pqcrypto-dilithium` are parameters.
-/

namespace NeuralMesh.Crypto

/-- `try_into` an array. -/
def tryInto (n : Nat) (bytes : Bytes) : Option (Vector UInt8 n) :=
  if h : bytes.length = n then some ⟨bytes.toArray, by rw [List.size_toArray, h]⟩ else none

theorem tryInto_eq_some {n : Nat} {bytes : Bytes} {array : Vector UInt8 n} :
    tryInto n bytes = some array ↔ bytes = array.toList := by
  rw [tryInto]
  split
  · rename_i h
    rw [Option.some_inj]
    constructor
    · rintro rfl
      rfl
    · rintro rfl
      rfl
  · rename_i h
    refine iff_of_false nofun ?_
    rintro rfl
    exact h array.length_toList

theorem tryInto_toList {n : Nat} (array : Vector UInt8 n) : tryInto n array.toList = some array :=
  tryInto_eq_some.mpr rfl

/-- `ed25519-dalek`: `SigningKey`s are seeds and `VerifyingKey`s points. -/
structure Ed25519 where
  verifyingKey : Vector UInt8 32 → Vector UInt8 32
  sign : Vector UInt8 32 → Bytes → Vector UInt8 64
  /-- `VerifyingKey::from_bytes` succeeds. -/
  isPoint : Vector UInt8 32 → Bool
  verify : Vector UInt8 32 → Bytes → Vector UInt8 64 → Bool

/-- What is signed with a seed verifies under its key. -/
def Ed25519.Correct (ed : Ed25519) : Prop :=
  ∀ seed message, ed.isPoint (ed.verifyingKey seed) ∧
    ed.verify (ed.verifyingKey seed) message (ed.sign seed message)

/-- `pqcrypto_dilithium::dilithium3`, where a signed message is a signature and the message. -/
structure Dilithium3 where
  publicKeyBytes : Nat
  signatureBytes : Nat
  sign : Bytes → Bytes → Bytes
  /-- `open` of a signed message under a public key. -/
  openSigned : Bytes → Bytes → Option Bytes

/-! ### Ed25519 -/

structure NmKeypair where
  seed : Vector UInt8 32

structure NmPublicKey where
  inner : Vector UInt8 32

section

variable (ed : Ed25519)

def NmKeypair.sign (keypair : NmKeypair) (message : Bytes) : Bytes :=
  (ed.sign keypair.seed message).toList

def NmKeypair.publicKeyHex (keypair : NmKeypair) : String :=
  Hex.encode (ed.verifyingKey keypair.seed).toList

namespace NmPublicKey

def fromBytes (bytes : Vector UInt8 32) : Except String NmPublicKey := do
  ensure (ed.isPoint bytes) "Invalid Ed25519 public key"
  return ⟨bytes⟩

def fromHex (hexStr : String) : Except String NmPublicKey := do
  let bytes ← (Hex.decode hexStr).mapError fun _ => "Invalid hex public key"
  let arr ← orFail (tryInto 32 bytes) "Public key must be 32 bytes"
  fromBytes ed arr

def verify (key : NmPublicKey) (message signatureBytes : Bytes) : Except String Unit := do
  let sig ← orFail (tryInto 64 signatureBytes) "Signature must be 64 bytes"
  ensure (ed.verify key.inner message sig) "Signature verification failed"

variable {ed}

/-- Only 64 bytes are accepted. -/
theorem verify_eq_ok {key : NmPublicKey} {message signatureBytes : Bytes} :
    key.verify ed message signatureBytes = .ok () ↔
      ∃ sig : Vector UInt8 64, signatureBytes = sig.toList ∧ ed.verify key.inner message sig := by
  simp only [verify, bind_eq_ok, orFail_eq_ok, ensure_eq_ok, tryInto_eq_some]

theorem length_of_verify {key : NmPublicKey} {message signatureBytes : Bytes}
    (hverify : key.verify ed message signatureBytes = .ok ()) : signatureBytes.length = 64 := by
  obtain ⟨sig, rfl, -⟩ := verify_eq_ok.mp hverify
  exact sig.length_toList

theorem fromHex_publicKeyHex (hcorrect : ed.Correct) (keypair : NmKeypair) :
    fromHex ed (keypair.publicKeyHex ed) = .ok ⟨ed.verifyingKey keypair.seed⟩ := by
  simp only [fromHex, fromBytes, bind_eq_ok, mapError_eq_ok, orFail_eq_ok, ensure_eq_ok,
    pure_eq_ok]
  exact ⟨_, Hex.decode_encode _, _, tryInto_toList _, (), (hcorrect keypair.seed []).1, rfl⟩

theorem verify_sign (hcorrect : ed.Correct) (keypair : NmKeypair) (message : Bytes) :
    verify ed ⟨ed.verifyingKey keypair.seed⟩ message (keypair.sign ed message) = .ok () :=
  verify_eq_ok.mpr ⟨ed.sign keypair.seed message, rfl, (hcorrect keypair.seed message).2⟩

end NmPublicKey

end

/-! ### Dilithium3 -/

structure PqKeypair where
  pubKey : Bytes
  secKey : Bytes

structure PqPublicKey where
  inner : Bytes

section

variable (dil : Dilithium3)

/-- The signature in front of the message. -/
def PqKeypair.sign (keypair : PqKeypair) (message : Bytes) : Bytes :=
  let signed := dil.sign message keypair.secKey
  signed.take (signed.length - message.length)

def PqKeypair.publicKeyHex (keypair : PqKeypair) : String := Hex.encode keypair.pubKey

/-- The two keys belong together: what is signed with one opens under the other. -/
structure PqKeypair.Matching (keypair : PqKeypair) : Prop where
  length_pubKey : keypair.pubKey.length = dil.publicKeyBytes
  opens : ∀ message, ∃ signature : Bytes, signature.length = dil.signatureBytes ∧
    dil.sign message keypair.secKey = signature ++ message ∧
    (dil.openSigned keypair.pubKey (signature ++ message)).isSome

namespace PqPublicKey

def fromBytes (bytes : Bytes) : Except String PqPublicKey := do
  ensure (bytes.length = dil.publicKeyBytes) "Invalid Dilithium3 public key"
  return ⟨bytes⟩

def fromHex (hexStr : String) : Except String PqPublicKey := do
  let bytes ← (Hex.decode hexStr).mapError fun _ => "Invalid hex public key"
  fromBytes dil bytes

def verify (key : PqPublicKey) (message signature : Bytes) : Except String Unit := do
  ensure (signature.length = dil.signatureBytes)
    ("Dilithium3 signature must be " ++ toString dil.signatureBytes ++ " bytes, got " ++
      toString signature.length)
  ensure (dil.openSigned key.inner (signature ++ message)).isSome
    "Dilithium3 signature verification failed"

variable {dil}

theorem verify_eq_ok {key : PqPublicKey} {message signature : Bytes} :
    key.verify dil message signature = .ok () ↔
      signature.length = dil.signatureBytes ∧
        (dil.openSigned key.inner (signature ++ message)).isSome := by
  simp only [verify, bind_eq_ok, ensure_eq_ok, exists_const]

theorem fromHex_publicKeyHex {keypair : PqKeypair} (hmatching : keypair.Matching dil) :
    fromHex dil keypair.publicKeyHex = .ok ⟨keypair.pubKey⟩ := by
  simp only [fromHex, fromBytes, bind_eq_ok, mapError_eq_ok, ensure_eq_ok, pure_eq_ok]
  exact ⟨_, Hex.decode_encode _, (), hmatching.length_pubKey, rfl⟩

theorem verify_sign {keypair : PqKeypair} (hmatching : keypair.Matching dil) (message : Bytes) :
    verify dil ⟨keypair.pubKey⟩ message (keypair.sign dil message) = .ok () := by
  obtain ⟨signature, hlength, hsigned, hopens⟩ := hmatching.opens message
  have hsign : keypair.sign dil message = signature := by
    rw [PqKeypair.sign, hsigned, List.length_append, Nat.add_sub_cancel, List.take_left]
  rw [hsign]
  exact verify_eq_ok.mpr ⟨hlength, hopens⟩

end PqPublicKey

end

end NeuralMesh.Crypto
