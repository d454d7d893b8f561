import NeuralMesh.Crypto.Keys

/-!
# Attestations

`crypto/src/attestation.rs` and `crypto/src/hybrid_attestation.rs`. The digests and the JSON that
`serde_json` writes of a claim are parameters, and the clock is an argument.
-/

namespace NeuralMesh.Crypto

/-- `MacChipInfo` of `nm-common`. -/
structure MacChipInfo where
  chipModel : String
  unifiedMemoryGb : UInt32
  gpuCores : UInt32
  cpuCores : UInt32
  metalVersion : String
  serialNumber : String
  platformUuid : String
  macosVersion : String
  deriving DecidableEq

structure AttestationClaim where
  providerPubkey : String
  jobId : String
  chip : MacChipInfo
  timestamp : UInt64
  deriving DecidableEq

structure HybridClaim where
  ed25519Pubkey : String
  dilithium3Pubkey : String
  jobId : String
  chip : MacChipInfo
  gpuVendor : String
  gpuModel : String
  nonce : UInt64
  timestamp : UInt64
  version : UInt8
  deriving DecidableEq

/-- What the crate takes from others. -/
structure Primitives where
  ed : Ed25519
  dil : Dilithium3
  sha256 : Bytes → Vector UInt8 32
  blake3 : Bytes → Vector UInt8 32
  attestationJson : AttestationClaim → String
  hybridJson : HybridClaim → String

/-- `saturating_sub` -/
def saturatingSub (a b : UInt64) : UInt64 := if b ≤ a then a - b else 0

theorem toNat_saturatingSub (a b : UInt64) : (saturatingSub a b).toNat = a.toNat - b.toNat := by
  rw [saturatingSub]
  split
  · rename_i hle
    exact UInt64.toNat_sub_of_le a b hle
  · rename_i hlt
    rw [UInt64.le_iff_toNat_le] at hlt
    rw [Nat.sub_eq_zero_of_le (Nat.le_of_not_le hlt)]
    rfl

/-- The last check of both kinds of attestation. -/
def ensureFresh (now timestamp : UInt64) : Except String Unit :=
  let age := saturatingSub now timestamp
  ensure (age ≤ 300) ("Attestation is stale (" ++ toString age ++ " seconds old)")

theorem ensureFresh_eq_ok {now timestamp : UInt64} :
    ensureFresh now timestamp = .ok () ↔ now.toNat ≤ timestamp.toNat + 300 := by
  rw [ensureFresh, ensure_eq_ok, UInt64.le_iff_toNat_le, toNat_saturatingSub]
  exact Nat.sub_le_iff_le_add'

/-! ### Attestations with one signature -/

structure Attestation where
  claim : AttestationClaim
  signature : String

section

variable (p : Primitives)

def AttestationClaim.signingBytes (claim : AttestationClaim) : Bytes :=
  (p.sha256 (utf8 (p.attestationJson claim))).toList

namespace Attestation

def create (keypair : NmKeypair) (jobId : String) (chip : MacChipInfo) (unixNow : UInt64) :
    Attestation :=
  let claim := ⟨keypair.publicKeyHex p.ed, jobId, chip, unixNow⟩
  ⟨claim, Hex.encode (keypair.sign p.ed (claim.signingBytes p))⟩

/-- `verify` up to the freshness check. -/
def verifySignature (a : Attestation) : Except String Unit := do
  let pubkey ← NmPublicKey.fromHex p.ed a.claim.providerPubkey
  let sigBytes ← (Hex.decode a.signature).mapError fun e => "Invalid signature hex: " ++ e.display
  pubkey.verify p.ed (a.claim.signingBytes p) sigBytes

def verify (a : Attestation) (unixNow : UInt64) : Except String Unit := do
  a.verifySignature p
  ensureFresh unixNow a.claim.timestamp

theorem verifySignature_create (hcorrect : p.ed.Correct) (keypair : NmKeypair) (jobId : String)
    (chip : MacChipInfo) (unixNow : UInt64) :
    (create p keypair jobId chip unixNow).verifySignature p = .ok () := by
  simp only [verifySignature, bind_eq_ok, mapError_eq_ok]
  exact ⟨_, NmPublicKey.fromHex_publicKeyHex hcorrect keypair, _, Hex.decode_encode _,
    NmPublicKey.verify_sign hcorrect keypair _⟩

end Attestation

/-! ### Attestations with two signatures -/

def HybridClaim.signingBytes (claim : HybridClaim) : Vector UInt8 32 :=
  p.blake3 (utf8 (p.hybridJson claim))

/-- `HybridClaim::on_chain_commitment` -/
def onChainCommitment (signingBytes : Vector UInt8 32) (edSig dil3Sig : Bytes) : Vector UInt8 32 :=
  p.blake3 (signingBytes.toList ++ edSig ++ dil3Sig)

end

structure HybridAttestation where
  claim : HybridClaim
  ed25519Sig : String
  dilithium3Sig : String
  onChainCommitment : String

namespace HybridAttestation

variable (p : Primitives)

def create (edKeypair : NmKeypair) (pqKeypair : PqKeypair) (jobId : String) (chip : MacChipInfo)
    (gpuVendor gpuModel : String) (nonce unixNow : UInt64) : HybridAttestation :=
  let claim := ⟨edKeypair.publicKeyHex p.ed, pqKeypair.publicKeyHex, jobId, chip, gpuVendor,
    gpuModel, nonce, unixNow, 1⟩
  let signingBytes := claim.signingBytes p
  let edSig := edKeypair.sign p.ed signingBytes.toList
  let dil3Sig := pqKeypair.sign p.dil signingBytes.toList
  ⟨claim, Hex.encode edSig, Hex.encode dil3Sig,
    Hex.encode (Crypto.onChainCommitment p signingBytes edSig dil3Sig).toList⟩

/-- `verify` up to the freshness check. -/
def verifySignatures (a : HybridAttestation) : Except String Unit := do
  let signingBytes := a.claim.signingBytes p
  let edPubkey ← NmPublicKey.fromHex p.ed a.claim.ed25519Pubkey
  let edSigBytes ← (Hex.decode a.ed25519Sig).mapError fun e =>
    "Invalid Ed25519 sig hex: " ++ e.display
  (edPubkey.verify p.ed signingBytes.toList edSigBytes).mapError fun e =>
    "Ed25519 verification failed: " ++ e
  let pqPubkey ← PqPublicKey.fromHex p.dil a.claim.dilithium3Pubkey
  let dil3SigBytes ← (Hex.decode a.dilithium3Sig).mapError fun e =>
    "Invalid Dilithium3 sig hex: " ++ e.display
  (pqPubkey.verify p.dil signingBytes.toList dil3SigBytes).mapError fun e =>
    "Dilithium3 verification failed: " ++ e
  let recomputed := Crypto.onChainCommitment p signingBytes edSigBytes dil3SigBytes
  let stored ← (Hex.decode a.onChainCommitment).mapError fun e =>
    "Invalid commitment hex: " ++ e.display
  ensure (recomputed.toList = stored) "On-chain commitment mismatch"

def verify (a : HybridAttestation) (unixNow : UInt64) : Except String Unit := do
  a.verifySignatures p
  ensureFresh unixNow a.claim.timestamp

/-- The commitment that is put on chain. -/
def commitmentBytes (a : HybridAttestation) : Except String (Vector UInt8 32) := do
  let bytes ← (Hex.decode a.onChainCommitment).mapError Hex.FromHexError.display
  orFail (tryInto 32 bytes) "Commitment is not 32 bytes"

end HybridAttestation

end NeuralMesh.Crypto
