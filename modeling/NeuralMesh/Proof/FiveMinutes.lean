import Mathlib.Algebra.Order.Group.Abs
import Mathlib.Algebra.Order.Group.Int
import NeuralMesh.Crypto.Attestation

/-!
# Five minutes of an attestation

The age of a claim is subtracted with saturation, so a claim of the future is not old.
-/

namespace NeuralMesh.Crypto

/-- The clock is at most five minutes away from the claim. -/
def InWindow (timestamp now : UInt64) : Prop :=
  |(now.toNat : ℤ) - timestamp.toNat| ≤ 300

/-- Two clocks are at most ten minutes apart. -/
def AtMostTenMinutes (now later : UInt64) : Prop := |(later.toNat : ℤ) - now.toNat| ≤ 600

/-- A claim of this time whose signatures check is accepted up to five minutes after it, which is in
the window just when the claim is not from the future. -/
structure FreshUnlessAhead (accepts : UInt64 → Prop) (signed : Prop) (timestamp : UInt64) :
    Prop where
  at_clock : ∀ now, (accepts now → InWindow timestamp now) ↔
    (signed → timestamp.toNat ≤ now.toNat + 300)
  at_every_clock : (∀ now, accepts now → InWindow timestamp now) ↔
    (signed → timestamp.toNat ≤ 300)
  replayed : (∀ now later, accepts now → accepts later → AtMostTenMinutes now later) ↔
    (signed → timestamp.toNat ≤ 300)

theorem inWindow_iff {timestamp now : UInt64} :
    InWindow timestamp now ↔
      now.toNat ≤ timestamp.toNat + 300 ∧ timestamp.toNat ≤ now.toNat + 300 := by
  rw [InWindow, abs_le]
  omega

/-- Acceptance by the saturated age. -/
theorem freshUnlessAhead {accepts : UInt64 → Prop} {signed : Prop} {timestamp : UInt64}
    (haccepts : ∀ now, accepts now ↔ signed ∧ now.toNat ≤ timestamp.toNat + 300) :
    FreshUnlessAhead accepts signed timestamp := by
  have hclock : ∀ now, (accepts now → InWindow timestamp now) ↔
      (signed → now.toNat ≤ timestamp.toNat + 300 → timestamp.toNat ≤ now.toNat + 300) := by
    intro now
    rw [haccepts, inWindow_iff]
    exact ⟨fun h hsigned hage => (h ⟨hsigned, hage⟩).2, fun h hboth => ⟨hboth.2, h hboth.1 hboth.2⟩⟩
  have hzero : (0 : UInt64).toNat = 0 := rfl
  refine ⟨fun now => ?_, ?_, ?_⟩
  · rw [hclock]
    refine forall_congr' fun hsigned => ?_
    omega
  · constructor
    · intro hall hsigned
      have hat := (hclock 0).mp (hall 0) hsigned
      omega
    · intro h now
      rw [hclock]
      intro hsigned hage
      have hsmall := h hsigned
      omega
  · constructor
    · intro hall hsigned
      by_contra hlarge
      -- the last clock reading at which the claim is accepted
      have hbound := timestamp.toNat_lt
      have hlast : (UInt64.ofNat (min (timestamp.toNat + 300) (2 ^ 64 - 1))).toNat =
          min (timestamp.toNat + 300) (2 ^ 64 - 1) :=
        UInt64.toNat_ofNat_of_lt' (by rw [UInt64.size]; omega)
      have hapart := hall 0 _ ((haccepts 0).mpr ⟨hsigned, by omega⟩)
        ((haccepts _).mpr ⟨hsigned, by rw [hlast]; omega⟩)
      rw [AtMostTenMinutes, hlast, abs_le] at hapart
      omega
    · intro h now later hnow hlater
      rw [haccepts] at hnow hlater
      have hsmall := h hnow.1
      rw [AtMostTenMinutes, abs_le]
      omega

section

variable {p : Primitives} {now : UInt64}

theorem Attestation.verify_eq_ok {a : Attestation} :
    a.verify p now = .ok () ↔
      a.verifySignature p = .ok () ∧ now.toNat ≤ a.claim.timestamp.toNat + 300 := by
  rw [Attestation.verify, bind_eq_ok, ← ensureFresh_eq_ok]
  exact ⟨fun ⟨_, hboth⟩ => hboth, fun hboth => ⟨(), hboth⟩⟩

theorem HybridAttestation.verify_eq_ok {a : HybridAttestation} :
    a.verify p now = .ok () ↔
      a.verifySignatures p = .ok () ∧ now.toNat ≤ a.claim.timestamp.toNat + 300 := by
  rw [HybridAttestation.verify, bind_eq_ok, ← ensureFresh_eq_ok]
  exact ⟨fun ⟨_, hboth⟩ => hboth, fun hboth => ⟨(), hboth⟩⟩

end

/-- Both kinds of attestation are fresh in their window unless the claim is dated ahead. -/
theorem verify_freshUnlessAhead (p : Primitives) :
    (∀ a : Attestation, FreshUnlessAhead (fun now => a.verify p now = .ok ())
      (a.verifySignature p = .ok ()) a.claim.timestamp) ∧
    (∀ a : HybridAttestation, FreshUnlessAhead (fun now => a.verify p now = .ok ())
      (a.verifySignatures p = .ok ()) a.claim.timestamp) :=
  ⟨fun _ => freshUnlessAhead fun _ => Attestation.verify_eq_ok,
    fun _ => freshUnlessAhead fun _ => HybridAttestation.verify_eq_ok⟩

/-! ### A claim of the future -/

section Texts

def jsonText (text : String) : String := "\"" ++ text ++ "\""

def jsonObject (members : List (String × String)) : String :=
  "\x7b" ++ ",".intercalate (members.map fun (name, value) => jsonText name ++ ":" ++ value) ++ "\x7d"

def MacChipInfo.json (chip : MacChipInfo) : String :=
  jsonObject [("chip_model", jsonText chip.chipModel),
    ("unified_memory_gb", toString chip.unifiedMemoryGb), ("gpu_cores", toString chip.gpuCores),
    ("cpu_cores", toString chip.cpuCores), ("metal_version", jsonText chip.metalVersion),
    ("serial_number", jsonText chip.serialNumber), ("platform_uuid", jsonText chip.platformUuid),
    ("macos_version", jsonText chip.macosVersion)]

/-- What `serde_json` writes when no text needs an escape. -/
def AttestationClaim.json (claim : AttestationClaim) : String :=
  jsonObject [("provider_pubkey", jsonText claim.providerPubkey), ("job_id", jsonText claim.jobId),
    ("chip", claim.chip.json), ("timestamp", toString claim.timestamp)]

def HybridClaim.json (claim : HybridClaim) : String :=
  jsonObject [("ed25519_pubkey", jsonText claim.ed25519Pubkey),
    ("dilithium3_pubkey", jsonText claim.dilithium3Pubkey), ("job_id", jsonText claim.jobId),
    ("chip", claim.chip.json), ("gpu_vendor", jsonText claim.gpuVendor),
    ("gpu_model", jsonText claim.gpuModel), ("nonce", toString claim.nonce),
    ("timestamp", toString claim.timestamp), ("version", toString claim.version)]

end Texts

/-- The bytes of a digest or key. -/
def ofHex (n : Nat) (text : String) : Vector UInt8 n :=
  ((Hex.decode text).toOption.bind (tryInto n)).getD (Vector.replicate n 0)

def sampleKeypair : NmKeypair :=
  ⟨ofHex 32 "9d61b19deffd5a60ba844af492ec2cc44449c5697b326919703bac031cae7f60"⟩

def sampleKey : Vector UInt8 32 :=
  ofHex 32 "d75a980182b10ab7d54bfed3c964073a0ee172f3daa62325af021a68f707511a"

/-- Ed25519 for the sample key pair and one message. -/
def sampleEd (message : Bytes) (signature : Vector UInt8 64) : Ed25519 where
  verifyingKey _ := sampleKey
  sign _ m := if m = message then signature else Vector.replicate 64 0
  isPoint key := key = sampleKey
  verify key m sig :=
    key = sampleKey ∧ sig = if m = message then signature else Vector.replicate 64 0

theorem sampleEd_correct (message : Bytes) (signature : Vector UInt8 64) :
    (sampleEd message signature).Correct := by
  intro seed m
  simp only [sampleEd, decide_true, and_self]

def sampleChip : MacChipInfo :=
  ⟨"M4 Pro", 48, 20, 14, "3.2", "C02ABC123DEF", "5A6B7C8D-0000-1111-2222-333344445555", "14.5"⟩

/-- A claim of January 2027. -/
def futureClaim : AttestationClaim :=
  ⟨"d75a980182b10ab7d54bfed3c964073a0ee172f3daa62325af021a68f707511a", "job-1", sampleChip,
    1800000000⟩

def futureDigest : Vector UInt8 32 :=
  ofHex 32 "fbb1b8deeb7f0436d774e8ee185a81720f0a96ed2c26fadc208a9b39cd69851f"

def futurePrimitives : Primitives where
  ed := sampleEd futureDigest.toList (ofHex 64
    ("4fdfbc99650bada076c56d105df01ab110b71f4d85d0c1b7e0a3e21592edf660" ++
      "f0a5062d5d633685ff8ea9ec177b86da09bb03c9c4cbda5b9b6ea652fd862d02"))
  dil := ⟨1952, 3293, fun _ _ => [], fun _ _ => none⟩
  sha256 content :=
    if content = utf8 futureClaim.json then futureDigest else Vector.replicate 32 0
  blake3 _ := Vector.replicate 32 0
  attestationJson := AttestationClaim.json
  hybridJson := HybridClaim.json

/-- In November 2023 an attestation of January 2027 is accepted, and ten minutes and one second
later again. -/
theorem future_claim_replayed :
    let a := Attestation.create futurePrimitives sampleKeypair "job-1" sampleChip 1800000000
    a.verify futurePrimitives 1700000000 = .ok () ∧ a.verify futurePrimitives 1700000601 = .ok () ∧
      ¬InWindow a.claim.timestamp 1700000000 ∧ ¬AtMostTenMinutes 1700000000 1700000601 := by
  intro a
  have hsigned : a.verifySignature futurePrimitives = .ok () :=
    Attestation.verifySignature_create _ (sampleEd_correct _ _) sampleKeypair "job-1" sampleChip
      1800000000
  have htimestamp : a.claim.timestamp = 1800000000 := rfl
  refine ⟨?_, ?_, ?_, ?_⟩
  · rw [Attestation.verify_eq_ok, htimestamp]
    exact ⟨hsigned, by decide⟩
  · rw [Attestation.verify_eq_ok, htimestamp]
    exact ⟨hsigned, by decide⟩
  · rw [inWindow_iff, htimestamp]
    decide
  · rw [AtMostTenMinutes]
    decide

end NeuralMesh.Crypto
