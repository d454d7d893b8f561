import NeuralMesh.Evm.Escrow
import NeuralMesh.Evm.ProviderNft
import NeuralMesh.Proof.OracleVotes

/-!
# Provider tokens and the attestations behind them

The token contract looks at the verifier once, when it mints. `Effect` says what a call does to the
two of them; whose token stands for what, whether a slash goes through, and when a token outlives its
attestation follow from it.
-/

namespace NeuralMesh.Evm

open QuantumVerifier (afterRevocation afterApproval pairKey)

namespace ProviderNft

/-- The tokens after one of them changed hands. -/
def moved (dest : Address) (tokenId : Nat) (s : ProviderNft) : ProviderNft :=
  { s with
    ownerOf := Function.update s.ownerOf tokenId dest
    balanceOf :=
      if dest = 0 then
        if s.ownerOf tokenId = 0 then s.balanceOf
        else Function.update s.balanceOf (s.ownerOf tokenId) (s.balanceOf (s.ownerOf tokenId) - 1)
      else if s.ownerOf tokenId = 0 then
        Function.update s.balanceOf dest (s.balanceOf dest + 1)
      else
        Function.update
          (Function.update s.balanceOf (s.ownerOf tokenId) (s.balanceOf (s.ownerOf tokenId) - 1))
          dest
          (Function.update s.balanceOf (s.ownerOf tokenId) (s.balanceOf (s.ownerOf tokenId) - 1)
            dest + 1) }

variable {chain : Chain} {s t : ProviderNft} {dest previous : Address} {tokenId : Nat}

theorem update_eq_ok : s.update dest tokenId = .ok (previous, t) ↔
    (s.ownerOf tokenId = 0 ∨ dest = 0) ∧ previous = s.ownerOf tokenId ∧ t = s.moved dest tokenId := by
  simp only [update, bind_eq_ok, ensure_eq_ok, pure_eq_ok, exists_const, Prod.mk.injEq]
  refine and_congr_right fun _ => and_congr_right fun _ => ?_
  unfold moved
  split
  · rfl
  · split
    · rfl
    · rfl

theorem safeMint_eq_ok : s.safeMint chain dest tokenId = .ok t ↔
    dest ≠ 0 ∧ s.ownerOf tokenId = 0 ∧ chain.acceptsToken dest ∧ t = s.moved dest tokenId := by
  simp only [safeMint, bind_eq_ok, ensure_eq_ok, pure_eq_ok, exists_const, Prod.exists, update_eq_ok]
  constructor
  · intro h
    obtain ⟨hdest, _, _, ⟨_, rfl, rfl⟩, hnew, haccepts, rfl⟩ := h
    exact ⟨hdest, hnew, haccepts, rfl⟩
  · intro h
    obtain ⟨hdest, hnew, haccepts, rfl⟩ := h
    exact ⟨hdest, _, _, ⟨.inl hnew, rfl, rfl⟩, hnew, haccepts, rfl⟩

theorem burn_eq_ok : s.burn tokenId = .ok t ↔ s.ownerOf tokenId ≠ 0 ∧ t = s.moved 0 tokenId := by
  simp only [burn, bind_eq_ok, ensure_eq_ok, pure_eq_ok, exists_const, Prod.exists, update_eq_ok]
  constructor
  · intro h
    obtain ⟨_, _, ⟨_, rfl, rfl⟩, howned, rfl⟩ := h
    exact ⟨howned, rfl⟩
  · intro h
    obtain ⟨howned, rfl⟩ := h
    exact ⟨_, _, ⟨.inr trivial, rfl, rfl⟩, howned, rfl⟩

/-- A token is bound to the account it was minted to. -/
theorem transferFrom_refused (t : ProviderNft) : s.transferFrom dest tokenId ≠ .ok t := by
  intro htransfer
  simp only [transferFrom, bind_eq_ok, ensure_eq_ok, pure_eq_ok, exists_const, Prod.exists,
    update_eq_ok] at htransfer
  obtain ⟨hdest, _, _, ⟨hfree, rfl, _⟩, howned, _⟩ := htransfer
  exact hfree.elim howned hdest

theorem takeTokenId_eq_ok : s.takeTokenId = .ok (tokenId, t) ↔
    s.nextTokenId < uint256Max ∧ tokenId = s.nextTokenId ∧
      t = { s with nextTokenId := s.nextTokenId + 1 } := by
  simp only [takeTokenId, bind_eq_ok, ensure_eq_ok, pure_eq_ok, exists_const, Prod.mk.injEq]

end ProviderNft

namespace Deployment

/-- The storage after a mint. -/
def afterMint (msg : Message) (mint : Mint) (s : Deployment) : Deployment :=
  let tokenId := s.nft.nextTokenId
  let nft := ProviderNft.moved mint.provider tokenId { s.nft with nextTokenId := tokenId + 1 }
  { s with
    nft := { nft with
      tokenUri := Function.update nft.tokenUri tokenId mint.metadataUri
      providerTokenId := Function.update nft.providerTokenId mint.provider tokenId
      tokenProvider := Function.update nft.tokenProvider tokenId mint.provider
      providerMeta := Function.update nft.providerMeta tokenId (ProviderNft.metaOf msg mint) } }

/-- The storage after a slash. -/
def afterSlash (provider : Address) (s : Deployment) : Deployment :=
  let tokenId := s.nft.providerTokenId provider
  { verifier := afterRevocation provider s.verifier
    nft := ProviderNft.moved 0 tokenId { s.nft with
      providerTokenId := Function.update s.nft.providerTokenId provider 0
      tokenProvider := Function.update s.nft.tokenProvider tokenId 0 } }

variable {chain : Chain} {msg : Message} {s t : Deployment} {provider : Address} {o : Option Nat}

theorem mintProvider_ok {mint : Mint} (hexec : mintProvider chain msg mint s = .ok (o, t)) :
    s.nft.providerTokenId mint.provider = 0 ∧ s.verifier.isRegistered mint.provider ∧
      s.verifier.getCommitment mint.provider = mint.attestationCommitment ∧ mint.provider ≠ 0 ∧
      s.nft.ownerOf s.nft.nextTokenId = 0 ∧ t = afterMint msg mint s := by
  simp only [mintProvider, bind_eq_ok, ensure_eq_ok, pure_eq_ok, exists_const, Prod.exists,
    ProviderNft.takeTokenId_eq_ok, ProviderNft.safeMint_eq_ok, Prod.mk.injEq] at hexec
  obtain ⟨_, hnew, hregistered, hcommitment, _, _, ⟨_, rfl, rfl⟩, _, ⟨hdest, hfree, _, rfl⟩, _, rfl⟩ :=
    hexec
  exact ⟨hnew, hregistered, hcommitment, hdest, hfree, rfl⟩

theorem slashProvider_eq_ok : slashProvider chain msg provider s = .ok (o, t) ↔
    s.nft.hasRole .slasher msg.sender ∧ s.nft.providerTokenId provider ≠ 0 ∧
      s.nft.ownerOf (s.nft.providerTokenId provider) ≠ 0 ∧ (chain.nft : Address) = s.verifier.owner ∧
      (s.verifier.attestations provider).commitment ≠ 0 ∧ o = none ∧ t = afterSlash provider s := by
  simp only [slashProvider, bind_eq_ok, ensure_eq_ok, mapError_eq_ok, pure_eq_ok, exists_const,
    Prod.exists, ProviderNft.burn_eq_ok, QuantumVerifier.revokeAttestation_eq_ok, Prod.mk.injEq]
  constructor
  · intro h
    obtain ⟨hrole, htoken, _, ⟨howned, rfl⟩, _, _, ⟨howner, hcommitment, _, rfl⟩, ho, ht⟩ := h
    exact ⟨hrole, htoken, howned, howner, hcommitment, ho, ht⟩
  · intro h
    obtain ⟨hrole, htoken, howned, howner, hcommitment, ho, ht⟩ := h
    exact ⟨hrole, htoken, _, ⟨howned, rfl⟩, _, _, ⟨howner, hcommitment, rfl, rfl⟩, ho, ht⟩

/-- What a successful call does. -/
inductive Effect (chain : Chain) (c : Call) (s t : Deployment) : Prop
  | verifier {method : QuantumVerifier.Method} {recorded : Bool} {verifier : QuantumVerifier}
      (hcall : c.method = .verifier method)
      (heffect : QuantumVerifier.Effect chain.keccak256 ⟨c.msg, method⟩ recorded s.verifier verifier)
      (hafter : t = { s with verifier })
  | mint {mint : Mint} (hcall : c.method = .mintProvider mint)
      (hnew : s.nft.providerTokenId mint.provider = 0)
      (hregistered : s.verifier.isRegistered mint.provider)
      (hcommitment : s.verifier.getCommitment mint.provider = mint.attestationCommitment)
      (hdest : mint.provider ≠ 0) (hafter : t = afterMint c.msg mint s)
  | slash {provider : Address} (hcall : c.method = .slashProvider provider)
      (htoken : s.nft.providerTokenId provider ≠ 0) (hafter : t = afterSlash provider s)

/-- Every successful call has an effect of this kind. -/
theorem exec_effect {c : Call} (hexec : c.exec chain s = .ok (o, t)) : Effect chain c s t := by
  obtain ⟨msg, method⟩ := c
  cases method with
  | verifier method =>
      simp only [Call.exec, bind_eq_ok, mapError_eq_ok, pure_eq_ok, Prod.exists, Prod.mk.injEq]
        at hexec
      obtain ⟨recorded, verifier, hverifier, _, rfl⟩ := hexec
      exact .verifier rfl (QuantumVerifier.exec_effect hverifier) rfl
  | mintProvider mint =>
      obtain ⟨hnew, hregistered, hcommitment, hdest, _, hafter⟩ := mintProvider_ok hexec
      exact .mint rfl hnew hregistered hcommitment hdest hafter
  | slashProvider provider =>
      obtain ⟨_, htoken, _, _, _, _, hafter⟩ := slashProvider_eq_ok.mp hexec
      exact .slash rfl htoken hafter
  | transferFrom dest tokenId =>
      simp only [Call.exec, bind_eq_ok] at hexec
      obtain ⟨nft, htransfer, _⟩ := hexec
      exact absurd htransfer (ProviderNft.transferFrom_refused nft)

/-! ### Whose token is whose -/

/-- The tokens of the contract: a provider owns its token, and nobody those not minted yet. -/
structure Bound (s : ProviderNft) : Prop where
  next : 0 < s.nextTokenId
  owner : ∀ provider, s.providerTokenId provider ≠ 0 →
    s.ownerOf (s.providerTokenId provider) = provider ∧ provider ≠ 0
  unminted : ∀ tokenId, s.nextTokenId ≤ tokenId → s.ownerOf tokenId = 0

theorem Bound.lt_next (hbound : Bound s.nft) (htoken : s.nft.providerTokenId provider ≠ 0) :
    s.nft.providerTokenId provider < s.nft.nextTokenId := by
  refine Nat.lt_of_not_le fun hle => ?_
  obtain ⟨howner, hne⟩ := hbound.owner provider htoken
  exact hne (howner.symm.trans (hbound.unminted _ hle))

/-- No two providers have one token. -/
theorem Bound.token_ne {other : Address} (hbound : Bound s.nft) (hother : other ≠ provider)
    (htoken : s.nft.providerTokenId other ≠ 0) :
    s.nft.providerTokenId other ≠ s.nft.providerTokenId provider := by
  intro heq
  have htoken' : s.nft.providerTokenId provider ≠ 0 := heq ▸ htoken
  have howner := (hbound.owner other htoken).1
  rw [heq, (hbound.owner provider htoken').1] at howner
  exact hother howner.symm

theorem afterMint_tokenId {mint : Mint} (p : Address) :
    (afterMint msg mint s).nft.providerTokenId p =
      if p = mint.provider then s.nft.nextTokenId else s.nft.providerTokenId p :=
  Function.update_apply _ _ _ _

theorem afterMint_ownerOf {mint : Mint} (tokenId : Nat) :
    (afterMint msg mint s).nft.ownerOf tokenId =
      if tokenId = s.nft.nextTokenId then mint.provider else s.nft.ownerOf tokenId :=
  Function.update_apply _ _ _ _

theorem afterSlash_tokenId (p : Address) :
    (afterSlash provider s).nft.providerTokenId p =
      if p = provider then 0 else s.nft.providerTokenId p :=
  Function.update_apply _ _ _ _

theorem afterSlash_ownerOf (tokenId : Nat) :
    (afterSlash provider s).nft.ownerOf tokenId =
      if tokenId = s.nft.providerTokenId provider then 0 else s.nft.ownerOf tokenId :=
  Function.update_apply _ _ _ _

theorem Bound.mint {mint : Mint} (hbound : Bound s.nft) (hdest : mint.provider ≠ 0) :
    Bound (afterMint msg mint s).nft where
  next := Nat.succ_pos _
  owner := by
    intro p htoken
    rw [afterMint_tokenId] at htoken ⊢
    rw [afterMint_ownerOf]
    by_cases hp : p = mint.provider
    · rw [if_pos hp, if_pos rfl]
      exact ⟨hp.symm, hp ▸ hdest⟩
    · rw [if_neg hp] at htoken ⊢
      rw [if_neg (Nat.ne_of_lt (hbound.lt_next htoken))]
      exact hbound.owner p htoken
  unminted := by
    intro tokenId hle
    have hlt : s.nft.nextTokenId < tokenId := hle
    rw [afterMint_ownerOf, if_neg (Nat.ne_of_gt hlt)]
    exact hbound.unminted tokenId (Nat.le_of_lt hlt)

theorem Bound.slash (hbound : Bound s.nft) : Bound (afterSlash provider s).nft where
  next := hbound.next
  owner := by
    intro p htoken
    rw [afterSlash_tokenId] at htoken ⊢
    by_cases hp : p = provider
    · rw [if_pos hp] at htoken
      exact absurd rfl htoken
    · rw [if_neg hp] at htoken ⊢
      rw [afterSlash_ownerOf, if_neg (hbound.token_ne hp htoken)]
      exact hbound.owner p htoken
  unminted := by
    intro tokenId hle
    rw [afterSlash_ownerOf]
    split
    · rfl
    · exact hbound.unminted tokenId hle

theorem Effect.bound {c : Call} (heffect : Effect chain c s t) (hbound : Bound s.nft) :
    Bound t.nft := by
  cases heffect with
  | verifier _ _ hafter =>
      rw [hafter]
      exact hbound
  | mint _ _ _ _ hdest hafter =>
      rw [hafter]
      exact hbound.mint hdest
  | slash _ _ hafter =>
      rw [hafter]
      exact hbound.slash

theorem Elsewhere.bound (helsewhere : Elsewhere s t) (hbound : Bound s.nft) : Bound t.nft := by
  cases helsewhere with
  | roles hasRole => exact ⟨hbound.next, hbound.owner, hbound.unminted⟩

theorem deploy_bound (admin minter : Address) : Bound (ProviderNft.deploy admin minter) where
  next := Nat.one_pos
  owner := fun _ htoken => absurd rfl htoken
  unminted := fun _ _ => rfl

/-! ### The owner of the verifier -/

theorem owner_of_effect {keccak256 : BitVec 416 → Key} {c : QuantumVerifier.Call} {recorded : Bool}
    {v w : QuantumVerifier} (heffect : QuantumVerifier.Effect keccak256 c recorded v w) :
    w.owner = v.owner := by
  cases heffect with
  | approve _ _ _ hafter =>
      rw [hafter, afterApproval]
      split
      · rfl
      · rfl
  | manage _ _ _ _ _ hafter => rw [hafter]
  | revoke _ _ _ _ hafter =>
      rw [hafter]
      rfl

theorem Effect.owner {c : Call} (heffect : Effect chain c s t) :
    t.verifier.owner = s.verifier.owner := by
  cases heffect with
  | verifier _ heffect hafter =>
      rw [hafter]
      exact owner_of_effect heffect
  | mint _ _ _ _ _ hafter =>
      rw [hafter]
      rfl
  | slash _ _ hafter =>
      rw [hafter]
      rfl

section Runs

variable {calls : List (Taken Call Deployment (Option Nat))} {v v' : QuantumVerifier}
  {earlier : List QuantumVerifier.Record} {deployer admin minter : Address}
  {oracles : List Address} {threshold : UInt8}

theorem owner_of_run {keccak256 : BitVec 416 → Key}
    (hrun : QuantumVerifier.Runs keccak256 v earlier v') : v'.owner = v.owner :=
  hrun.preserves (I := fun w => w.owner = v.owner) rfl
    (fun _ _ _ _ hsame hexec => (owner_of_effect (QuantumVerifier.exec_effect hexec)).trans hsame)
    fun _ _ _ hnothing => hnothing.elim

/-- Over any run of the two contracts the tokens are bound, and the verifier is owned by whoever
deployed it. -/
theorem run_bound (hdeploy : QuantumVerifier.deploy deployer oracles threshold = .ok v)
    (hearlier : QuantumVerifier.Runs chain.keccak256 v earlier v')
    (hrun : Runs chain ⟨v', ProviderNft.deploy admin minter⟩ calls s) :
    Bound s.nft ∧ s.verifier.owner = deployer := by
  refine hrun.preserves (I := fun u => Bound u.nft ∧ u.verifier.owner = deployer)
    ⟨deploy_bound admin minter, ?_⟩ ?_ ?_
  · exact (owner_of_run hearlier).trans (QuantumVerifier.deploy_eq_ok hdeploy).1
  · intro c t o u h hexec
    have heffect := exec_effect hexec
    exact ⟨heffect.bound h.1, heffect.owner.trans h.2⟩
  · intro t u h helsewhere
    refine ⟨helsewhere.bound h.1, ?_⟩
    cases helsewhere with
    | roles hasRole => exact h.2

/-- The provider has lost its token and its attestation. -/
structure Slashed (provider : Address) (tokenId : Nat) (t : Deployment) : Prop where
  tokenless : t.nft.isProvider provider = false
  burnt : t.nft.ownerOf tokenId = 0
  revoked : t.verifier.isRegistered provider = false

theorem isRegistered_afterRevocation (w : QuantumVerifier) :
    (afterRevocation provider w).isRegistered provider = false := by
  refine Bool.eq_false_iff.mpr fun hregistered => ?_
  have hlive := (QuantumVerifier.isRegistered_iff.mp hregistered).2
  rw [QuantumVerifier.attestations_afterRevocation, if_pos rfl] at hlive
  cases hlive

theorem slashed_afterSlash (provider : Address) (s : Deployment) :
    Slashed provider (s.nft.providerTokenId provider) (afterSlash provider s) where
  tokenless := by
    unfold ProviderNft.isProvider
    rw [afterSlash_tokenId, if_pos rfl]
    rfl
  burnt := by rw [afterSlash_ownerOf, if_pos rfl]
  revoked := isRegistered_afterRevocation s.verifier

/-- A slash goes through exactly when the verifier was deployed by the token contract itself and
holds a commitment of the provider. -/
theorem slash_works_iff (hdeploy : QuantumVerifier.deploy deployer oracles threshold = .ok v)
    (hearlier : QuantumVerifier.Runs chain.keccak256 v earlier v')
    (hrun : Runs chain ⟨v', ProviderNft.deploy admin minter⟩ calls s)
    (hprovider : s.nft.isProvider provider) (hrole : s.nft.hasRole .slasher msg.sender) :
    (∃ o t, slashProvider chain msg provider s = .ok (o, t) ∧
        Slashed provider (s.nft.providerTokenId provider) t) ↔
      deployer = chain.nft ∧ (s.verifier.attestations provider).commitment ≠ 0 := by
  obtain ⟨hbound, howner⟩ := run_bound hdeploy hearlier hrun
  have htoken : s.nft.providerTokenId provider ≠ 0 := of_decide_eq_true hprovider
  constructor
  · intro h
    obtain ⟨o, t, hexec, _⟩ := h
    obtain ⟨_, _, _, hself, hcommitment, _⟩ := slashProvider_eq_ok.mp hexec
    exact ⟨(hself.trans howner).symm, hcommitment⟩
  · intro h
    obtain ⟨hself, hcommitment⟩ := h
    obtain ⟨howned, hne⟩ := hbound.owner provider htoken
    refine ⟨none, afterSlash provider s, slashProvider_eq_ok.mpr ⟨hrole, htoken, ?_, ?_, hcommitment,
      rfl, rfl⟩, slashed_afterSlash provider s⟩
    · rw [howned]
      exact hne
    · rw [howner, hself]

/-! ### Tokens that outlive their attestation -/

/-- Every provider has an attestation, and it is the one it was minted for. -/
def Attested (s : Deployment) : Prop :=
  ∀ provider, s.nft.isProvider provider →
    s.verifier.isRegistered provider ∧ s.verifier.getCommitment provider =
      (s.nft.providerMeta (s.nft.providerTokenId provider)).attestationCommitment

/-- The call leaves the attestations of token holders alone: it revokes none of them, and records
none with another commitment. -/
def Keeps (chain : Chain) (taken : Taken Call Deployment (Option Nat)) : Prop :=
  match taken.call.method with
  | .verifier (.revokeAttestation provider) => taken.before.nft.isProvider provider = false
  | .verifier (.approveAttestation provider commitment _) =>
      taken.before.nft.isProvider provider →
        taken.before.verifier.threshold ≤ taken.before.verifier.approvalCount
          (pairKey chain.keccak256 (provider, commitment)) + 1 →
        commitment = (taken.before.nft.providerMeta
          (taken.before.nft.providerTokenId provider)).attestationCommitment
  | _ => True

theorem isProvider_iff {nft : ProviderNft} :
    nft.isProvider provider ↔ nft.providerTokenId provider ≠ 0 := decide_eq_true_iff

/-- A call that leaves every token holder attested was one of these. -/
theorem Effect.keeps {c : Call} (heffect : Effect chain c s t) (hattested : Attested t) :
    Keeps chain ⟨s, c, o, t⟩ := by
  cases heffect with
  | @verifier method recorded verifier hcall heffect hafter =>
      subst hafter
      cases heffect with
      | @approve provider commitment metadata hmethod haccepts hrecorded hafter =>
          simp only at hmethod
          subst hmethod
          rw [Keeps, hcall]
          intro hprovider henough
          have hcommitment := (hattested provider hprovider).2
          rw [hrecorded.trans (decide_eq_true henough)] at hafter
          rw [hafter, QuantumVerifier.getCommitment, QuantumVerifier.attestations_afterApproval,
            if_pos ⟨rfl, rfl⟩] at hcommitment
          exact hcommitment
      | manage hmanages _ _ _ _ _ =>
          rw [Keeps, hcall]
          cases method with
          | addOracle _ | removeOracle _ | setThreshold _ => trivial
          | approveAttestation _ _ _ | revokeAttestation _ => cases hmanages
      | @revoke provider hmethod howner hcommitment hrecorded hafter =>
          simp only at hmethod
          subst hmethod
          rw [Keeps, hcall]
          refine Bool.eq_false_iff.mpr fun hprovider => ?_
          have hregistered := (hattested provider hprovider).1
          rw [hafter, isRegistered_afterRevocation] at hregistered
          cases hregistered
  | mint hcall _ _ _ _ _ =>
      rw [Keeps, hcall]
      trivial
  | slash hcall _ _ =>
      rw [Keeps, hcall]
      trivial

/-- An attestation that is as it was. -/
theorem attested_of_same {v w : QuantumVerifier} {commitment : Key}
    (hsame : w.attestations provider = v.attestations provider)
    (hattested : v.isRegistered provider ∧ v.getCommitment provider = commitment) :
    w.isRegistered provider ∧ w.getCommitment provider = commitment := by
  unfold QuantumVerifier.isRegistered QuantumVerifier.getCommitment
  rw [hsame]
  exact hattested

theorem afterMint_meta {mint : Mint} (tokenId : Nat) :
    (afterMint msg mint s).nft.providerMeta tokenId =
      if tokenId = s.nft.nextTokenId then ProviderNft.metaOf msg mint
      else s.nft.providerMeta tokenId :=
  Function.update_apply _ _ _ _

theorem Attested.mint {mint : Mint} (hattested : Attested s) (hbound : Bound s.nft)
    (hregistered : s.verifier.isRegistered mint.provider)
    (hcommitment : s.verifier.getCommitment mint.provider = mint.attestationCommitment) :
    Attested (afterMint msg mint s) := by
  intro p hp
  rw [isProvider_iff, afterMint_tokenId] at hp
  rw [afterMint_tokenId, afterMint_meta]
  by_cases hself : p = mint.provider
  · subst hself
    rw [if_pos rfl, if_pos rfl]
    exact ⟨hregistered, hcommitment⟩
  · rw [if_neg hself] at hp ⊢
    rw [if_neg (Nat.ne_of_lt (hbound.lt_next hp))]
    exact hattested p (isProvider_iff.mpr hp)

theorem Attested.slash (hattested : Attested s) : Attested (afterSlash provider s) := by
  intro p hp
  rw [isProvider_iff, afterSlash_tokenId] at hp
  rw [afterSlash_tokenId]
  by_cases hself : p = provider
  · rw [if_pos hself] at hp
    exact absurd rfl hp
  · rw [if_neg hself] at hp ⊢
    refine attested_of_same ?_ (hattested p (isProvider_iff.mpr hp))
    show (afterRevocation provider s.verifier).attestations p = _
    rw [QuantumVerifier.attestations_afterRevocation, if_neg hself]

/-- Any other call keeps the token holders attested. -/
theorem Effect.attested {c : Call} (heffect : Effect chain c s t) (hbound : Bound s.nft)
    (hkeeps : Keeps chain ⟨s, c, o, t⟩) (hattested : Attested s) : Attested t := by
  cases heffect with
  | @verifier method recorded verifier hcall heffect hafter =>
      rw [Keeps, hcall] at hkeeps
      subst hafter
      intro p hp
      cases heffect with
      | @approve provider commitment metadata hmethod haccepts hrecorded hafter =>
          simp only at hmethod
          subst hmethod
          by_cases hwritten : recorded ∧ p = provider
          · obtain ⟨htrue, rfl⟩ := hwritten
            rw [htrue] at hrecorded
            have hsame := hkeeps hp (of_decide_eq_true hrecorded.symm)
            obtain ⟨hregistered, hcommitment⟩ := hattested p hp
            have hnew : verifier.attestations p =
                QuantumVerifier.recordOf c.msg commitment metadata := by
              rw [hafter, QuantumVerifier.attestations_afterApproval, if_pos ⟨htrue, rfl⟩]
            refine ⟨QuantumVerifier.isRegistered_iff.mpr ?_, ?_⟩
            · rw [hnew]
              refine ⟨?_, rfl⟩
              show commitment ≠ 0
              rw [hsame, ← hcommitment]
              exact (QuantumVerifier.isRegistered_iff.mp hregistered).1
            · rw [QuantumVerifier.getCommitment, hnew]
              exact hsame
          · refine attested_of_same ?_ (hattested p hp)
            rw [hafter, QuantumVerifier.attestations_afterApproval, if_neg hwritten]
      | manage _ _ _ _ _ hafter =>
          refine attested_of_same ?_ (hattested p hp)
          rw [hafter]
      | @revoke provider hmethod _ _ _ hafter =>
          simp only at hmethod
          subst hmethod
          have hne : p ≠ provider := by
            intro heq
            subst heq
            have hnone : s.nft.isProvider p = false := hkeeps
            exact absurd hp (by rw [hnone]; decide)
          refine attested_of_same ?_ (hattested p hp)
          rw [hafter, QuantumVerifier.attestations_afterRevocation, if_neg hne]
  | mint _ _ hregistered hcommitment _ hafter =>
      rw [hafter]
      exact hattested.mint hbound hregistered hcommitment
  | slash _ _ hafter =>
      rw [hafter]
      exact hattested.slash

theorem Elsewhere.attested (helsewhere : Elsewhere s t) (hattested : Attested s) : Attested t := by
  cases helsewhere with
  | roles hasRole => exact hattested

/-- The token holders are attested in every state of a run exactly when no step of it revokes one
of them or records another commitment of one. -/
theorem attested_iff (hrun : Runs chain ⟨v, ProviderNft.deploy admin minter⟩ calls t) :
    (Attested t ∧ ∀ taken ∈ calls, Attested taken.after) ↔
      ∀ taken ∈ calls, Keeps chain taken := by
  constructor
  · intro h taken hmem
    exact (exec_effect (hrun.exec_of_mem hmem)).keeps (h.2 taken hmem)
  · intro hkeeps
    refine (hrun.invariant (I := fun calls u => Bound u.nft ∧
      ((∀ taken ∈ calls, Keeps chain taken) →
        Attested u ∧ ∀ taken ∈ calls, Attested taken.after))
      ⟨deploy_bound admin minter, fun _ => ⟨?_, ?_⟩⟩ ?_ ?_).2 hkeeps
    · intro p hp
      cases hp
    · intro taken hmem
      cases hmem
    · intro calls c u o w ⟨hbound, ih⟩ hexec
      have heffect := exec_effect hexec
      refine ⟨heffect.bound hbound, fun hkeeps => ?_⟩
      have hattested := ih fun taken hmem => hkeeps taken (List.mem_append_left _ hmem)
      have hlast := heffect.attested hbound
        (hkeeps _ (List.mem_append_right _ (List.mem_singleton_self _))) hattested.1
      exact ⟨hlast, forall_mem_concat hattested.2 hlast⟩
    · intro calls u w ⟨hbound, ih⟩ helsewhere
      exact ⟨helsewhere.bound hbound, fun hkeeps =>
        ⟨helsewhere.attested (ih hkeeps).1, (ih hkeeps).2⟩⟩

/-- What the escrow contract relies on: while token holders are attested, it takes no other provider
for a job. -/
theorem createEscrow_attested {site : Site} {jobId : String} {amount price : Nat}
    {maxDurationSecs : UInt32} {escrow : Contracts} {r : List Payout × Contracts}
    (hattested : Attested t) (hnft : escrow.isProvider = t.nft.isProvider)
    (hcreate : createEscrow site msg jobId provider amount price maxDurationSecs escrow = .ok r) :
    t.verifier.isRegistered provider := by
  simp only [createEscrow, bind_eq_ok, ensure_eq_ok, exists_const] at hcreate
  obtain ⟨_, hprovider, _⟩ := hcreate
  rw [hnft] at hprovider
  exact (hattested provider hprovider).1

theorem lockEscrow_attested {site : Site} {jobId : String} {escrow : Contracts}
    {r : List Payout × Contracts} (hattested : Attested t)
    (hnft : escrow.isProvider = t.nft.isProvider)
    (hlock : lockEscrow site msg jobId escrow = .ok r) : t.verifier.isRegistered msg.sender := by
  simp only [lockEscrow, bind_eq_ok, ensure_eq_ok, exists_const] at hlock
  obtain ⟨_, _, _, hprovider, _⟩ := hlock
  rw [hnft] at hprovider
  exact (hattested msg.sender hprovider).1

end Runs

/-! ### A sample run -/

/-- The token contract is at `9`. -/
def sampleChain : Chain := ⟨⟨9, by decide⟩, QuantumVerifier.sampleKeccak, fun _ => true⟩

/-- Minter `8` mints provider `3` its token. -/
def sampleMint : Call :=
  ⟨⟨8, 1700000000⟩, .mintProvider ⟨3, "ipfs://Qm...", "apple", "M4 Pro", 64, 20, 0xa, 0xd113, 0x5e⟩⟩

/-- Owner `7` of the verifier revokes the provider's attestation. -/
def sampleRevocation : Call := ⟨⟨7, 1700000600⟩, .verifier (.revokeAttestation 3)⟩

/-- Admin `5` slashes the provider. -/
def sampleSlasher : Message := ⟨5, 1700000600⟩

/-- Account `7` deploys the verifier with oracle `1`, which attests provider `3`; then the token
contract is deployed, and the provider gets its token. -/
theorem sampleMinted_ok : ∃ v earlier v' calls s, QuantumVerifier.deploy 7 [1] 1 = .ok v ∧
    replay (QuantumVerifier.Call.exec QuantumVerifier.sampleKeccak)
      [QuantumVerifier.sampleApproval 1 0xa] v = .ok (earlier, v') ∧
    replay (Call.exec sampleChain) [sampleMint] ⟨v', ProviderNft.deploy 5 8⟩ = .ok (calls, s) ∧
    s.nft.isProvider 3 ∧ s.nft.hasRole .slasher sampleSlasher.sender ∧ s.verifier.owner = 7 :=
  ⟨_, _, _, _, _, rfl, rfl, rfl, rfl, rfl, rfl⟩

/-- The slash of a provider with a token is refused: the verifier's owner is not the token
contract. -/
theorem slash_refused : ∃ v earlier v' calls s, QuantumVerifier.deploy 7 [1] 1 = .ok v ∧
    QuantumVerifier.Runs sampleChain.keccak256 v earlier v' ∧
    Runs sampleChain ⟨v', ProviderNft.deploy 5 8⟩ calls s ∧ s.nft.isProvider 3 ∧
    s.nft.hasRole .slasher sampleSlasher.sender ∧
    ∀ o t, slashProvider sampleChain sampleSlasher 3 s ≠ .ok (o, t) := by
  obtain ⟨v, earlier, v', calls, s, hdeploy, hearlier, hreplay, hprovider, hrole, howner⟩ :=
    sampleMinted_ok
  refine ⟨v, earlier, v', calls, s, hdeploy, .of_replay hearlier, .of_replay hreplay, hprovider,
    hrole, fun o t hexec => ?_⟩
  obtain ⟨_, _, _, hself, _⟩ := slashProvider_eq_ok.mp hexec
  rw [howner] at hself
  exact absurd hself (by decide)

theorem slash_works_sample : ∃ v earlier v' calls s, QuantumVerifier.deploy 7 [1] 1 = .ok v ∧
    QuantumVerifier.Runs sampleChain.keccak256 v earlier v' ∧
    Runs sampleChain ⟨v', ProviderNft.deploy 5 8⟩ calls s ∧
    ((∃ o t, slashProvider sampleChain sampleSlasher 3 s = .ok (o, t) ∧
        Slashed 3 (s.nft.providerTokenId 3) t) ↔
      (7 : Address) = sampleChain.nft ∧ (s.verifier.attestations 3).commitment ≠ 0) := by
  obtain ⟨v, earlier, v', calls, s, hdeploy, hearlier, hreplay, hprovider, hrole, _⟩ :=
    sampleMinted_ok
  have hbefore : QuantumVerifier.Runs sampleChain.keccak256 v earlier v' := .of_replay hearlier
  have hrun : Runs sampleChain ⟨v', ProviderNft.deploy 5 8⟩ calls s := .of_replay hreplay
  exact ⟨v, earlier, v', calls, s, hdeploy, hbefore, hrun,
    slash_works_iff hdeploy hbefore hrun hprovider hrole⟩

/-- A provider that was minted a token and revoked. -/
theorem sampleRevoked_ok : ∃ v earlier v' calls t, QuantumVerifier.deploy 7 [1] 1 = .ok v ∧
    replay (QuantumVerifier.Call.exec QuantumVerifier.sampleKeccak)
      [QuantumVerifier.sampleApproval 1 0xa] v = .ok (earlier, v') ∧
    replay (Call.exec sampleChain) [sampleMint, sampleRevocation] ⟨v', ProviderNft.deploy 5 8⟩ =
      .ok (calls, t) ∧
    t.nft.isProvider 3 ∧ t.verifier.isRegistered 3 = false :=
  ⟨_, _, _, _, _, rfl, rfl, rfl, rfl, rfl⟩

/-- It still counts as a provider. -/
theorem revoked_provider : ∃ v earlier v' calls t, QuantumVerifier.deploy 7 [1] 1 = .ok v ∧
    QuantumVerifier.Runs sampleChain.keccak256 v earlier v' ∧
    Runs sampleChain ⟨v', ProviderNft.deploy 5 8⟩ calls t ∧
    t.nft.isProvider 3 ∧ t.verifier.isRegistered 3 = false ∧ ¬ Attested t := by
  obtain ⟨v, earlier, v', calls, t, hdeploy, hearlier, hreplay, hprovider, hregistered⟩ :=
    sampleRevoked_ok
  refine ⟨v, earlier, v', calls, t, hdeploy, .of_replay hearlier, .of_replay hreplay, hprovider,
    hregistered, fun hattested => ?_⟩
  have hstill := (hattested 3 hprovider).1
  rw [hregistered] at hstill
  cases hstill

theorem attested_iff_revoked : ∃ v calls t,
    Runs sampleChain ⟨v, ProviderNft.deploy 5 8⟩ calls t ∧
    ((Attested t ∧ ∀ taken ∈ calls, Attested taken.after) ↔
      ∀ taken ∈ calls, Keeps sampleChain taken) := by
  obtain ⟨_, _, v', calls, t, _, _, hreplay, _⟩ := sampleRevoked_ok
  have hrun : Runs sampleChain ⟨v', ProviderNft.deploy 5 8⟩ calls t := .of_replay hreplay
  exact ⟨v', calls, t, hrun, attested_iff hrun⟩

end Deployment

end NeuralMesh.Evm
