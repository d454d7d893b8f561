import NeuralMesh.Evm.Message

/-!
# The attestation verifier

`contracts/evm/src/QuantumVerifier.sol`. A function is a computation in `Except` that answers whether
it recorded an attestation (the `AttestationRecorded` event); the other events are left out.
-/

namespace NeuralMesh.Evm

/-- What an oracle says of a provider besides the commitment. -/
structure Metadata where
  gpuVendor : String
  gpuModel : String
  dil3PubkeyHash : Key
  ed25519Pubkey : List UInt8
  deriving DecidableEq, Repr

structure AttestationRecord extends Metadata where
  commitment : Key
  timestamp : UInt64
  revoked : Bool
  deriving DecidableEq, Repr

/-- What an unwritten key of the mapping reads as. -/
def AttestationRecord.zero : AttestationRecord := ⟨⟨"", "", 0, []⟩, 0, 0, false⟩

inductive VerifierRevert where
  /-- `require` with its reason -/
  | reason (text : String)
  /-- Checked arithmetic -/
  | panic
  deriving DecidableEq, Repr

structure QuantumVerifier where
  owner : Address
  oracles : Address → Bool
  oracleCount : UInt8
  threshold : UInt8
  attestations : Address → AttestationRecord
  oracleApproved : Key → Address → Bool
  approvalCount : Key → UInt8

namespace QuantumVerifier

abbrev Result := Except VerifierRevert (Bool × QuantumVerifier)

/-- `n++` on a `uint8` -/
def checkedSucc8 (n : UInt8) : Except VerifierRevert UInt8 := do
  ensure (n.toNat + 1 < 2 ^ 8) .panic
  return n + 1

/-- `n--` on a `uint8` -/
def checkedPred8 (n : UInt8) : Except VerifierRevert UInt8 := do
  ensure (n ≠ 0) .panic
  return n - 1

def isRegistered (s : QuantumVerifier) (provider : Address) : Bool :=
  (s.attestations provider).commitment ≠ 0 ∧ (s.attestations provider).revoked = false

theorem isRegistered_iff {s : QuantumVerifier} {provider : Address} : s.isRegistered provider ↔
    (s.attestations provider).commitment ≠ 0 ∧ (s.attestations provider).revoked = false :=
  decide_eq_true_iff

def getCommitment (s : QuantumVerifier) (provider : Address) : Key :=
  (s.attestations provider).commitment

/-- `_addOracle` -/
def insertOracle (oracle : Address) (s : QuantumVerifier) :
    Except VerifierRevert QuantumVerifier := do
  ensure (s.oracles oracle = false) (.reason "QV: already oracle")
  let oracleCount ← checkedSucc8 s.oracleCount
  return { s with oracles := Function.update s.oracles oracle true, oracleCount }

/-- The constructor. -/
def deploy (sender : Address) (oracles : List Address) (threshold : UInt8) :
    Except VerifierRevert QuantumVerifier := do
  ensure (threshold.toNat ≤ oracles.length ∧ 0 < threshold) (.reason "QV: bad threshold")
  oracles.foldlM (fun s oracle => s.insertOracle oracle) {
    owner := sender
    oracles := fun _ => false
    oracleCount := 0
    threshold
    attestations := fun _ => .zero
    oracleApproved := fun _ _ => false
    approvalCount := fun _ => 0 }

section Functions

variable (keccak256 : BitVec 416 → Key) (msg : Message)

/-- `keccak256(abi.encodePacked(provider, commitment))` -/
def approvalKey (provider : Address) (commitment : Key) : Key := keccak256 (provider ++ commitment)

/-- `onlyOwner` -/
def onlyOwner (s : QuantumVerifier) : Except VerifierRevert Unit :=
  ensure (msg.sender = s.owner) (.reason "QV: not owner")

def addOracle (oracle : Address) (s : QuantumVerifier) : Result := do
  s.onlyOwner msg
  return (false, ← s.insertOracle oracle)

def removeOracle (oracle : Address) (s : QuantumVerifier) : Result := do
  s.onlyOwner msg
  ensure (s.oracles oracle) (.reason "QV: not an oracle")
  let oracleCount ← checkedPred8 s.oracleCount
  ensure (s.threshold ≤ oracleCount) (.reason "QV: would break threshold")
  return (false, { s with oracles := Function.update s.oracles oracle false, oracleCount })

def setThreshold (threshold : UInt8) (s : QuantumVerifier) : Result := do
  s.onlyOwner msg
  ensure (0 < threshold ∧ threshold ≤ s.oracleCount) (.reason "QV: bad threshold")
  return (false, { s with threshold })

/-- The record a call of `approveAttestation` writes. -/
def recordOf (commitment : Key) (metadata : Metadata) : AttestationRecord where
  toMetadata := metadata
  commitment
  timestamp := msg.timestamp64
  revoked := false

def approveAttestation (provider : Address) (commitment : Key) (metadata : Metadata)
    (s : QuantumVerifier) : Result := do
  ensure (s.oracles msg.sender) (.reason "QV: not oracle")
  ensure (metadata.ed25519Pubkey.length = 32) (.reason "QV: ed25519 key must be 32 bytes")
  ensure ((s.attestations provider).revoked = false) (.reason "QV: provider revoked")
  let key := approvalKey keccak256 provider commitment
  ensure (s.oracleApproved key msg.sender = false) (.reason "QV: already approved")
  let count ← checkedSucc8 (s.approvalCount key)
  let approved := { s with
    oracleApproved := Function.update s.oracleApproved key
      (Function.update (s.oracleApproved key) msg.sender true)
    approvalCount := Function.update s.approvalCount key count }
  if s.threshold ≤ count then
    return (true, { approved with
      attestations := Function.update s.attestations provider (recordOf msg commitment metadata) })
  else return (false, approved)

def revokeAttestation (provider : Address) (s : QuantumVerifier) : Result := do
  s.onlyOwner msg
  ensure ((s.attestations provider).commitment ≠ 0) (.reason "QV: not registered")
  return (false, { s with
    attestations := Function.update s.attestations provider
      { s.attestations provider with revoked := true } })

end Functions

inductive Method where
  | addOracle (oracle : Address)
  | removeOracle (oracle : Address)
  | setThreshold (threshold : UInt8)
  | approveAttestation (provider : Address) (commitment : Key) (metadata : Metadata)
  | revokeAttestation (provider : Address)

structure Call where
  msg : Message
  method : Method

def Call.exec (keccak256 : BitVec 416 → Key) (c : Call) : QuantumVerifier → Result :=
  match c.method with
  | .addOracle oracle => QuantumVerifier.addOracle c.msg oracle
  | .removeOracle oracle => QuantumVerifier.removeOracle c.msg oracle
  | .setThreshold threshold => QuantumVerifier.setThreshold c.msg threshold
  | .approveAttestation provider commitment metadata =>
      QuantumVerifier.approveAttestation keccak256 c.msg provider commitment metadata
  | .revokeAttestation provider => QuantumVerifier.revokeAttestation c.msg provider

/-- Runs of the contract; nothing else changes its storage. -/
abbrev Runs (keccak256 : BitVec 416 → Key) :
    QuantumVerifier → List (Taken Call QuantumVerifier Bool) → QuantumVerifier → Prop :=
  CallRun (Call.exec keccak256) fun _ _ => False

end QuantumVerifier

end NeuralMesh.Evm
