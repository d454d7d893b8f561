import Mathlib.Data.Set.Function
import NeuralMesh.Proof.FiveMinutes

/-!
# What the commitment binds

Three parts are hashed without their lengths. The first is a digest, and both signatures have the
length their scheme checks, so the parts are where they have to be.
-/

namespace NeuralMesh.Crypto

/-- What the commitment is the digest of. -/
def committed (p : Primitives) (claim : HybridClaim) (edSig dil3Sig : Bytes) : Bytes :=
  (claim.signingBytes p).toList ++ edSig ++ dil3Sig

/-- The three parts can be told apart. -/
theorem committed_inj {p : Primitives} {claim claim' : HybridClaim}
    {edSig edSig' dil3Sig dil3Sig' : Bytes} (hed : edSig.length = edSig'.length)
    (h : committed p claim edSig dil3Sig = committed p claim' edSig' dil3Sig') :
    claim.signingBytes p = claim'.signingBytes p ∧ edSig = edSig' ∧ dil3Sig = dil3Sig' := by
  rw [committed, committed, List.append_assoc, List.append_assoc] at h
  obtain ⟨hdigest, hsigs⟩ := List.append_inj h (by rw [Vector.length_toList, Vector.length_toList])
  exact ⟨Vector.toList_inj.mp hdigest, List.append_inj hsigs hed⟩

namespace HybridAttestation

/-- What `verify` finds in an attestation before it looks at the clock. -/
structure Signed (p : Primitives) (a : HybridAttestation) (edSig dil3Sig : Bytes) : Prop where
  edKey : ∃ key, NmPublicKey.fromHex p.ed a.claim.ed25519Pubkey = .ok key ∧
    key.verify p.ed (a.claim.signingBytes p).toList edSig = .ok ()
  pqKey : ∃ key, PqPublicKey.fromHex p.dil a.claim.dilithium3Pubkey = .ok key ∧
    key.verify p.dil (a.claim.signingBytes p).toList dil3Sig = .ok ()
  ed25519Sig : Hex.decode a.ed25519Sig = .ok edSig
  dilithium3Sig : Hex.decode a.dilithium3Sig = .ok dil3Sig
  commitment : Hex.decode a.onChainCommitment =
    .ok (p.blake3 (committed p a.claim edSig dil3Sig)).toList

variable {p : Primitives} {a b : HybridAttestation} {edSig dil3Sig edSig' dil3Sig' : Bytes}

theorem verifySignatures_eq_ok :
    a.verifySignatures p = .ok () ↔ ∃ edSig dil3Sig, a.Signed p edSig dil3Sig := by
  simp only [verifySignatures, bind_eq_ok, mapError_eq_ok, ensure_eq_ok]
  constructor
  · rintro ⟨edKey, hedKey, edSig, hedSig, ⟨⟩, hed, pqKey, hpqKey, dil3Sig, hdil3Sig, ⟨⟩, hpq, stored,
      hstored, hsame⟩
    refine ⟨edSig, dil3Sig, ⟨edKey, hedKey, hed⟩, ⟨pqKey, hpqKey, hpq⟩, hedSig, hdil3Sig, ?_⟩
    rw [hstored, ← hsame]
    rfl
  · rintro ⟨edSig, dil3Sig, ⟨edKey, hedKey, hed⟩, ⟨pqKey, hpqKey, hpq⟩, hedSig, hdil3Sig, hstored⟩
    exact ⟨edKey, hedKey, edSig, hedSig, (), hed, pqKey, hpqKey, dil3Sig, hdil3Sig, (), hpq, _,
      hstored, rfl⟩

theorem Signed.length_edSig (h : a.Signed p edSig dil3Sig) : edSig.length = 64 := by
  obtain ⟨key, -, hverify⟩ := h.edKey
  exact NmPublicKey.length_of_verify hverify

theorem Signed.commitmentBytes (h : a.Signed p edSig dil3Sig) :
    a.commitmentBytes = .ok (p.blake3 (committed p a.claim edSig dil3Sig)) := by
  simp only [HybridAttestation.commitmentBytes, bind_eq_ok, mapError_eq_ok, orFail_eq_ok]
  exact ⟨_, h.commitment, tryInto_toList _⟩

/-- What BLAKE3 is used on for an attestation with these signatures. -/
def hashed (p : Primitives) (a : HybridAttestation) : Set Bytes :=
  {input | input = utf8 (p.hybridJson a.claim) ∨ ∃ edSig dil3Sig,
    Hex.decode a.ed25519Sig = .ok edSig ∧ Hex.decode a.dilithium3Sig = .ok dil3Sig ∧
      input = committed p a.claim edSig dil3Sig}

theorem Signed.committed_mem (h : a.Signed p edSig dil3Sig) :
    committed p a.claim edSig dil3Sig ∈ a.hashed p :=
  .inr ⟨edSig, dil3Sig, h.ed25519Sig, h.dilithium3Sig, rfl⟩

theorem json_mem (p : Primitives) (a : HybridAttestation) :
    utf8 (p.hybridJson a.claim) ∈ a.hashed p := .inl rfl

/-- Equal commitments are of equal claims and signatures. -/
theorem Signed.binds (ha : a.Signed p edSig dil3Sig) (hb : b.Signed p edSig' dil3Sig')
    (hblake3 : Set.InjOn p.blake3 (a.hashed p ∪ b.hashed p))
    (hjson : Set.InjOn p.hybridJson {a.claim, b.claim})
    (hsame : a.commitmentBytes = b.commitmentBytes) :
    a.claim = b.claim ∧ edSig = edSig' ∧ dil3Sig = dil3Sig' := by
  rw [ha.commitmentBytes, hb.commitmentBytes] at hsame
  have hinputs := hblake3 (.inl ha.committed_mem) (.inr hb.committed_mem) (Except.ok.inj hsame)
  obtain ⟨hdigest, hsigs⟩ := committed_inj (by rw [ha.length_edSig, hb.length_edSig]) hinputs
  have htexts := hblake3 (.inl (json_mem p a)) (.inr (json_mem p b)) hdigest
  exact ⟨hjson (.inl rfl) (.inr rfl) (utf8_inj htexts), hsigs⟩

/-- What is created with key pairs that belong together is signed. -/
theorem signed_create (hed : p.ed.Correct) (edKeypair : NmKeypair) {pqKeypair : PqKeypair}
    (hpq : pqKeypair.Matching p.dil) (jobId : String) (chip : MacChipInfo)
    (gpuVendor gpuModel : String) (nonce unixNow : UInt64) :
    let a := create p edKeypair pqKeypair jobId chip gpuVendor gpuModel nonce unixNow
    a.Signed p (edKeypair.sign p.ed (a.claim.signingBytes p).toList)
      (pqKeypair.sign p.dil (a.claim.signingBytes p).toList) where
  edKey :=
    ⟨_, NmPublicKey.fromHex_publicKeyHex hed edKeypair, NmPublicKey.verify_sign hed edKeypair _⟩
  pqKey := ⟨_, PqPublicKey.fromHex_publicKeyHex hpq, PqPublicKey.verify_sign hpq _⟩
  ed25519Sig := Hex.decode_encode _
  dilithium3Sig := Hex.decode_encode _
  commitment := Hex.decode_encode _

end HybridAttestation

open HybridAttestation

/-- Where BLAKE3 has no collision, the commitment determines the claim and both signatures; and
what is created with correct schemes is accepted for five minutes. -/
theorem commitment_binds (p : Primitives) :
    (∀ (a b : HybridAttestation) (now later : UInt64),
      Set.InjOn p.blake3 (a.hashed p ∪ b.hashed p) → Set.InjOn p.hybridJson {a.claim, b.claim} →
      a.verify p now = .ok () → b.verify p later = .ok () →
      a.commitmentBytes = b.commitmentBytes →
      a.claim = b.claim ∧ ∃ edSig dil3Sig,
        Hex.decode a.ed25519Sig = .ok edSig ∧ Hex.decode b.ed25519Sig = .ok edSig ∧
        Hex.decode a.dilithium3Sig = .ok dil3Sig ∧ Hex.decode b.dilithium3Sig = .ok dil3Sig) ∧
    (p.ed.Correct → ∀ (edKeypair : NmKeypair) (pqKeypair : PqKeypair), pqKeypair.Matching p.dil →
      ∀ (jobId : String) (chip : MacChipInfo) (gpuVendor gpuModel : String)
        (nonce unixNow now : UInt64), now.toNat ≤ unixNow.toNat + 300 →
        (create p edKeypair pqKeypair jobId chip gpuVendor gpuModel nonce unixNow).verify p now =
          .ok ()) := by
  constructor
  · intro a b now later hblake3 hjson ha hb hsame
    obtain ⟨edSig, dil3Sig, hsigned⟩ := verifySignatures_eq_ok.mp (verify_eq_ok.mp ha).1
    obtain ⟨edSig', dil3Sig', hsigned'⟩ := verifySignatures_eq_ok.mp (verify_eq_ok.mp hb).1
    obtain ⟨hclaim, rfl, rfl⟩ := hsigned.binds hsigned' hblake3 hjson hsame
    exact ⟨hclaim, edSig, dil3Sig, hsigned.ed25519Sig, hsigned'.ed25519Sig,
      hsigned.dilithium3Sig, hsigned'.dilithium3Sig⟩
  · intro hed edKeypair pqKeypair hpq jobId chip gpuVendor gpuModel nonce unixNow now hfresh
    exact verify_eq_ok.mpr ⟨verifySignatures_eq_ok.mpr ⟨_, _,
      signed_create hed edKeypair hpq jobId chip gpuVendor gpuModel nonce unixNow⟩, hfresh⟩

/-! ### An attestation of a sample machine -/

/-- The Dilithium3 public key whose bytes are zero. -/
def zeroKey : Bytes := List.replicate 1952 0

/-- The secret key is not looked at. -/
def zeroKeypair : PqKeypair := ⟨zeroKey, List.replicate 4000 0⟩

def sampleClaim : HybridClaim :=
  ⟨sampleKeypair.publicKeyHex (sampleEd [] (Vector.replicate 64 0)), zeroKeypair.publicKeyHex,
    "job-1", sampleChip, "apple", "Apple M4 Pro", 7, 1700000000, 1⟩

def sampleDigest : Vector UInt8 32 :=
  ofHex 32 "d282997dac34459fcacca3d3ad69290af0670cf3c10b31fbfdb804f1dbb71fec"

def sampleEdSig : Vector UInt8 64 :=
  ofHex 64 ("7254f147c7a55b62953e62b8cca1990bd0406e05932041b6bfec8397d9759d00" ++
    "9f6d6dd84775d3e8fe461056d837c0b750eb9071648ac549833755d5cd7d0504")

/-- A signature under the zero key: its vector `z` is zero and it has no hints, so that the challenge
is all there is to it. -/
def sampleDil3Sig : Bytes :=
  (ofHex 32 "2381a74c36205759ee566b3f9a9c2282c40b340b37d91de80b00e8bade97adae").toList ++
    (List.replicate 640 [0, 0, 8, 0, 128]).flatten ++ List.replicate 61 0

def sampleCommitment : Vector UInt8 32 :=
  ofHex 32 "d743dc1eb43b1b17684be1bd2d792f7a3c960735fc7c8eeff5a746d96a6b8c93"

def signatureOf (message : Bytes) : Bytes :=
  if message = sampleDigest.toList then sampleDil3Sig else List.replicate 3293 0

/-- Dilithium3 for the zero key and one message. -/
def sampleDil : Dilithium3 where
  publicKeyBytes := 1952
  signatureBytes := 3293
  sign message _ := signatureOf message ++ message
  openSigned key signed :=
    if key = zeroKey ∧ signed.take 3293 = signatureOf (signed.drop 3293) then
      some (signed.drop 3293)
    else none

def samplePreimage : Bytes := sampleDigest.toList ++ sampleEdSig.toList ++ sampleDil3Sig

def samplePrimitives : Primitives where
  ed := sampleEd sampleDigest.toList sampleEdSig
  dil := sampleDil
  sha256 _ := Vector.replicate 32 0
  blake3 content :=
    if content = utf8 sampleClaim.json then sampleDigest
    else if content = samplePreimage then sampleCommitment
    else Vector.replicate 32 0
  attestationJson := AttestationClaim.json
  hybridJson := HybridClaim.json

def sampleAttestation : HybridAttestation :=
  create samplePrimitives sampleKeypair zeroKeypair "job-1" sampleChip "apple" "Apple M4 Pro" 7
    1700000000

theorem length_signatureOf (message : Bytes) : (signatureOf message).length = 3293 := by
  rw [signatureOf]
  split
  · simp only [sampleDil3Sig, List.length_append, Vector.length_toList, List.length_flatten,
      List.map_replicate, List.sum_replicate_nat, List.length_replicate, List.length_cons,
      List.length_nil]
  · exact List.length_replicate

theorem sampleDil_openSigned (message : Bytes) :
    sampleDil.openSigned zeroKey (signatureOf message ++ message) = some message := by
  have htake : (signatureOf message ++ message).take 3293 = signatureOf message :=
    List.take_left' (length_signatureOf message)
  have hdrop : (signatureOf message ++ message).drop 3293 = message :=
    List.drop_left' (length_signatureOf message)
  simp only [sampleDil, htake, hdrop, and_self, if_true]

theorem zeroKeypair_matching : zeroKeypair.Matching sampleDil where
  length_pubKey := List.length_replicate
  opens message := by
    refine ⟨signatureOf message, length_signatureOf message, rfl, ?_⟩
    rw [zeroKeypair, sampleDil_openSigned]
    rfl

/-- A JSON text starts with a brace, a preimage with its digest. -/
theorem samplePreimage_ne : samplePreimage ≠ utf8 sampleClaim.json := by
  intro h
  have hdigest : samplePreimage.head? = some 210 := by
    rw [samplePreimage, List.append_assoc, List.head?_append]
    have hhead : sampleDigest.toList.head? = some 210 := by decide +kernel
    rw [hhead]
    rfl
  have hbrace : (utf8 sampleClaim.json).head? = some 123 := by
    rw [HybridClaim.json, jsonObject, String.append_assoc, utf8, String.toList_append,
      List.flatMap_append, List.head?_append]
    have hhead : (utf8 "\x7b").head? = some 123 := by decide +kernel
    rw [utf8] at hhead
    rw [hhead]
    rfl
  rw [h, hbrace] at hdigest
  cases hdigest

/-- The public key does not depend on what was signed. -/
theorem publicKeyHex_sampleEd (digest : Bytes) (signature : Vector UInt8 64) :
    sampleKeypair.publicKeyHex (sampleEd digest signature) =
      sampleKeypair.publicKeyHex (sampleEd [] (Vector.replicate 64 0)) := rfl

theorem claim_sampleAttestation : sampleAttestation.claim = sampleClaim :=
  congrArg (fun publicKeyHex => HybridClaim.mk publicKeyHex zeroKeypair.publicKeyHex "job-1"
    sampleChip "apple" "Apple M4 Pro" 7 1700000000 1) (publicKeyHex_sampleEd _ _)

theorem sample_signingBytes : sampleClaim.signingBytes samplePrimitives = sampleDigest := by
  simp only [HybridClaim.signingBytes, samplePrimitives, if_true]

theorem sample_committed :
    committed samplePrimitives sampleClaim sampleEdSig.toList sampleDil3Sig = samplePreimage := by
  rw [committed, sample_signingBytes, samplePreimage]

theorem blake3_samplePreimage : samplePrimitives.blake3 samplePreimage = sampleCommitment := by
  simp only [samplePrimitives, if_neg samplePreimage_ne, if_true]

theorem sample_edSig :
    sampleKeypair.sign samplePrimitives.ed sampleDigest.toList = sampleEdSig.toList := by
  simp only [NmKeypair.sign, samplePrimitives, sampleEd, if_true]

theorem sample_dil3Sig :
    zeroKeypair.sign samplePrimitives.dil sampleDigest.toList = sampleDil3Sig := by
  have hsigned : sampleDil.sign sampleDigest.toList zeroKeypair.secKey =
      sampleDil3Sig ++ sampleDigest.toList := by
    simp only [sampleDil, signatureOf, if_true]
  rw [PqKeypair.sign, samplePrimitives, hsigned, List.length_append, Nat.add_sub_cancel,
    List.take_left]

theorem sample_signed :
    sampleAttestation.Signed samplePrimitives sampleEdSig.toList sampleDil3Sig := by
  have hsigned := signed_create (p := samplePrimitives) (sampleEd_correct _ _) sampleKeypair
    zeroKeypair_matching "job-1" sampleChip "apple" "Apple M4 Pro" 7 1700000000
  rw [← sampleAttestation] at hsigned
  dsimp only at hsigned
  rwa [claim_sampleAttestation, sample_signingBytes, sample_edSig, sample_dil3Sig] at hsigned

/-- The same attestation with its commitment in capital letters. -/
def capitalAttestation : HybridAttestation :=
  { sampleAttestation with
    onChainCommitment := "D743DC1EB43B1B17684BE1BD2D792F7A3C960735FC7C8EEFF5A746D96A6B8C93" }

theorem claim_capitalAttestation : capitalAttestation.claim = sampleAttestation.claim := rfl

theorem capital_signed :
    capitalAttestation.Signed samplePrimitives sampleEdSig.toList sampleDil3Sig := by
  have hdecoded : (Hex.decode
      "D743DC1EB43B1B17684BE1BD2D792F7A3C960735FC7C8EEFF5A746D96A6B8C93").toOption =
        some sampleCommitment.toList := by
    decide +kernel
  refine ⟨sample_signed.edKey, sample_signed.pqKey, sample_signed.ed25519Sig,
    sample_signed.dilithium3Sig, ?_⟩
  rw [claim_capitalAttestation, claim_sampleAttestation, sample_committed,
    blake3_samplePreimage, capitalAttestation]
  cases hresult : Hex.decode
      "D743DC1EB43B1B17684BE1BD2D792F7A3C960735FC7C8EEFF5A746D96A6B8C93" with
  | error e =>
      rw [hresult] at hdecoded
      cases hdecoded
  | ok bytes =>
      rw [hresult] at hdecoded
      rw [Option.some.inj hdecoded]

/-- The sample digests do not collide. -/
theorem sample_injOn :
    Set.InjOn samplePrimitives.blake3 (sampleAttestation.hashed samplePrimitives) := by
  have hcases : ∀ input ∈ sampleAttestation.hashed samplePrimitives,
      input = utf8 (samplePrimitives.hybridJson sampleClaim) ∧
          samplePrimitives.blake3 input = sampleDigest ∨
        input = samplePreimage ∧ samplePrimitives.blake3 input = sampleCommitment := by
    rintro input (hjson | ⟨edSig, dil3Sig, hed, hdil3, hpreimage⟩)
    · rw [claim_sampleAttestation] at hjson
      refine .inl ⟨hjson, ?_⟩
      have hdigest := sample_signingBytes
      rwa [HybridClaim.signingBytes, ← hjson] at hdigest
    · rw [sample_signed.ed25519Sig] at hed
      rw [sample_signed.dilithium3Sig] at hdil3
      rw [claim_sampleAttestation, ← Except.ok.inj hed, ← Except.ok.inj hdil3,
        sample_committed] at hpreimage
      refine .inr ⟨hpreimage, ?_⟩
      rw [hpreimage, blake3_samplePreimage]
  have hdistinct : sampleDigest ≠ sampleCommitment := by decide +kernel
  intro input hinput other hother hsame
  obtain ⟨heq, hdigest⟩ | ⟨heq, hdigest⟩ := hcases input hinput <;>
    obtain ⟨heq', hdigest'⟩ | ⟨heq', hdigest'⟩ := hcases other hother
  · rw [heq, heq']
  · rw [hdigest, hdigest'] at hsame
    exact absurd hsame hdistinct
  · rw [hdigest, hdigest'] at hsame
    exact absurd hsame.symm hdistinct
  · rw [heq, heq']

theorem commitment_binds_sample :
    sampleAttestation.verify samplePrimitives 1700000300 = .ok () ∧
      sampleAttestation.claim = capitalAttestation.claim ∧ ∃ edSig dil3Sig,
        Hex.decode sampleAttestation.ed25519Sig = .ok edSig ∧
        Hex.decode capitalAttestation.ed25519Sig = .ok edSig ∧
        Hex.decode sampleAttestation.dilithium3Sig = .ok dil3Sig ∧
        Hex.decode capitalAttestation.dilithium3Sig = .ok dil3Sig := by
  have hverify : sampleAttestation.verify samplePrimitives 1700000300 = .ok () :=
    (commitment_binds samplePrimitives).2 (sampleEd_correct _ _) sampleKeypair zeroKeypair
      zeroKeypair_matching "job-1" sampleChip "apple" "Apple M4 Pro" 7 1700000000 1700000300
      (by decide)
  have hcapital : capitalAttestation.verify samplePrimitives 1700000000 = .ok () := by
    refine verify_eq_ok.mpr ⟨verifySignatures_eq_ok.mpr ⟨_, _, capital_signed⟩, ?_⟩
    rw [claim_capitalAttestation, claim_sampleAttestation, sampleClaim]
    exact Nat.le_add_right _ _
  refine ⟨hverify, (commitment_binds samplePrimitives).1 _ _ 1700000300 1700000000 ?_ ?_ hverify
    hcapital ?_⟩
  · have hed : capitalAttestation.ed25519Sig = sampleAttestation.ed25519Sig := rfl
    have hdil3 : capitalAttestation.dilithium3Sig = sampleAttestation.dilithium3Sig := rfl
    have hhashed : capitalAttestation.hashed samplePrimitives =
        sampleAttestation.hashed samplePrimitives := by
      rw [hashed, hashed, claim_capitalAttestation, hed, hdil3]
    rw [hhashed, Set.union_self]
    exact sample_injOn
  · rw [claim_capitalAttestation, Set.pair_eq_singleton]
    exact Set.injOn_singleton _ _
  · rw [sample_signed.commitmentBytes, capital_signed.commitmentBytes, claim_capitalAttestation]

end NeuralMesh.Crypto
