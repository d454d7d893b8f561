import NeuralMesh.Evm.QuantumVerifier

/-!
# The provider token

`contracts/evm/src/ProviderNFT.sol` over OpenZeppelin's `ERC721`, together with the verifier it
reads and calls. Token approvals are left out, since no transfer gets as far as looking at them, and
so are the events. A token id is a natural number.
-/

namespace NeuralMesh.Evm

structure ProviderMeta where
  gpuVendor : String
  gpuModel : String
  memoryGb : UInt16
  gpuCores : UInt32
  attestationCommitment : Key
  dil3PubkeyHash : Key
  serialNumberHash : Key
  registeredAt : UInt64
  deriving DecidableEq, Repr

/-- What an unwritten key of the mapping reads as. -/
def ProviderMeta.zero : ProviderMeta := ⟨"", "", 0, 0, 0, 0, 0, 0⟩

inductive NftRole where
  | admin | minter | slasher
  deriving DecidableEq, Repr

inductive NftRevert where
  | soulBound
  | alreadyRegistered
  | notRegistered
  | providerNotVerified
  /-- `require` with its reason -/
  | reason (text : String)
  /-- `onlyRole` -/
  | missingRole (role : NftRole)
  /-- `ERC721InvalidReceiver` -/
  | invalidReceiver
  /-- `ERC721InvalidSender` -/
  | invalidSender
  /-- `ERC721NonexistentToken` -/
  | nonexistentToken
  /-- A call of the verifier that reverts. -/
  | verifier (e : VerifierRevert)
  /-- Checked arithmetic -/
  | panic
  deriving DecidableEq, Repr

structure ProviderNft where
  hasRole : NftRole → Address → Bool
  /-- `_ownerOf`; the zero address owns what is not minted. -/
  ownerOf : Nat → Address
  balanceOf : Address → Nat
  tokenUri : Nat → String
  nextTokenId : Nat
  providerTokenId : Address → Nat
  tokenProvider : Nat → Address
  providerMeta : Nat → ProviderMeta

/-- The token contract and the verifier it was constructed with. -/
structure Deployment where
  verifier : QuantumVerifier
  nft : ProviderNft

/-- What the contracts run on. -/
structure Chain where
  /-- The address of the token contract. -/
  nft : ContractAddress
  keccak256 : BitVec 416 → Key
  /-- Whether an account takes a token it is sent: it has no code, or `onERC721Received` says so. -/
  acceptsToken : Address → Bool

/-- The arguments of `mintProvider`. -/
structure Mint where
  provider : Address
  metadataUri : String
  gpuVendor : String
  gpuModel : String
  memoryGb : UInt16
  gpuCores : UInt32
  attestationCommitment : Key
  dil3PubkeyHash : Key
  serialNumberHash : Key

namespace ProviderNft

/-- The constructor. -/
def deploy (admin minter : Address) : ProviderNft where
  hasRole
    | .admin, a | .slasher, a => a = admin
    | .minter, a => a = minter
  ownerOf := fun _ => 0
  balanceOf := fun _ => 0
  tokenUri := fun _ => ""
  nextTokenId := 1
  providerTokenId := fun _ => 0
  tokenProvider := fun _ => 0
  providerMeta := fun _ => .zero

def isProvider (s : ProviderNft) (wallet : Address) : Bool := s.providerTokenId wallet ≠ 0

/-- `_update`, which blocks every transfer; answers with the owner before. -/
def update (dest : Address) (tokenId : Nat) (s : ProviderNft) :
    Except NftRevert (Address × ProviderNft) := do
  let source := s.ownerOf tokenId
  ensure (source = 0 ∨ dest = 0) .soulBound
  let balanceOf := if source = 0 then s.balanceOf
    else Function.update s.balanceOf source (s.balanceOf source - 1)
  let balanceOf := if dest = 0 then balanceOf
    else Function.update balanceOf dest (balanceOf dest + 1)
  return (source, { s with ownerOf := Function.update s.ownerOf tokenId dest, balanceOf })

/-- `_safeMint` -/
def safeMint (chain : Chain) (dest : Address) (tokenId : Nat) (s : ProviderNft) :
    Except NftRevert ProviderNft := do
  ensure (dest ≠ 0) .invalidReceiver
  let (previous, s) ← s.update dest tokenId
  ensure (previous = 0) .invalidSender
  ensure (chain.acceptsToken dest) .invalidReceiver
  return s

/-- `_burn` -/
def burn (tokenId : Nat) (s : ProviderNft) : Except NftRevert ProviderNft := do
  let (previous, s) ← s.update 0 tokenId
  ensure (previous ≠ 0) .nonexistentToken
  return s

/-- `transferFrom`, up to the check of the sender's approval: no call gets as far. -/
def transferFrom (dest : Address) (tokenId : Nat) (s : ProviderNft) :
    Except NftRevert ProviderNft := do
  ensure (dest ≠ 0) .invalidReceiver
  let (previous, s) ← s.update dest tokenId
  ensure (previous ≠ 0) .nonexistentToken
  return s

/-- `_nextTokenId++` -/
def takeTokenId (s : ProviderNft) : Except NftRevert (Nat × ProviderNft) := do
  ensure (s.nextTokenId < uint256Max) .panic
  return (s.nextTokenId, { s with nextTokenId := s.nextTokenId + 1 })

/-- The record a mint writes. -/
def metaOf (msg : Message) (mint : Mint) : ProviderMeta where
  gpuVendor := mint.gpuVendor
  gpuModel := mint.gpuModel
  memoryGb := mint.memoryGb
  gpuCores := mint.gpuCores
  attestationCommitment := mint.attestationCommitment
  dil3PubkeyHash := mint.dil3PubkeyHash
  serialNumberHash := mint.serialNumberHash
  registeredAt := msg.timestamp64

end ProviderNft

namespace Deployment

/-- A function that returns a token id answers with it. -/
abbrev Result := Except NftRevert (Option Nat × Deployment)

section Functions

variable (chain : Chain) (msg : Message)

def mintProvider (mint : Mint) (s : Deployment) : Result := do
  ensure (s.nft.hasRole .minter msg.sender) (.missingRole .minter)
  ensure (s.nft.providerTokenId mint.provider = 0) .alreadyRegistered
  ensure (s.verifier.isRegistered mint.provider) .providerNotVerified
  ensure (s.verifier.getCommitment mint.provider = mint.attestationCommitment)
    (.reason "ProviderNFT: commitment mismatch")
  let (tokenId, nft) ← s.nft.takeTokenId
  let nft ← nft.safeMint chain mint.provider tokenId
  return (some tokenId, { s with
    nft := { nft with
      tokenUri := Function.update nft.tokenUri tokenId mint.metadataUri
      providerTokenId := Function.update nft.providerTokenId mint.provider tokenId
      tokenProvider := Function.update nft.tokenProvider tokenId mint.provider
      providerMeta := Function.update nft.providerMeta tokenId (ProviderNft.metaOf msg mint) } })

/-- The verifier sees the token contract as its caller. -/
def slashProvider (provider : Address) (s : Deployment) : Result := do
  ensure (s.nft.hasRole .slasher msg.sender) (.missingRole .slasher)
  let tokenId := s.nft.providerTokenId provider
  ensure (tokenId ≠ 0) .notRegistered
  let nft := { s.nft with
    providerTokenId := Function.update s.nft.providerTokenId provider 0
    tokenProvider := Function.update s.nft.tokenProvider tokenId 0 }
  let nft ← nft.burn tokenId
  let (_, verifier) ← (s.verifier.revokeAttestation { msg with sender := chain.nft } provider).mapError
    .verifier
  return (none, { verifier, nft })

end Functions

inductive Method where
  /-- Any function of the verifier. -/
  | verifier (method : QuantumVerifier.Method)
  | mintProvider (mint : Mint)
  | slashProvider (provider : Address)
  | transferFrom (dest : Address) (tokenId : Nat)

structure Call where
  msg : Message
  method : Method

def Call.exec (chain : Chain) (c : Call) (s : Deployment) : Result :=
  match c.method with
  | .verifier method => do
      let (_, verifier) ← (QuantumVerifier.Call.exec chain.keccak256 ⟨c.msg, method⟩
        s.verifier).mapError .verifier
      return (none, { s with verifier })
  | .mintProvider mint => Deployment.mintProvider chain c.msg mint s
  | .slashProvider provider => Deployment.slashProvider chain c.msg provider s
  | .transferFrom dest tokenId => do
      let nft ← s.nft.transferFrom dest tokenId
      return (none, { s with nft })

/-- What happens elsewhere: the roles of the token contract change. -/
inductive Elsewhere : Deployment → Deployment → Prop
  | roles (s : Deployment) (hasRole : NftRole → Address → Bool) :
      Elsewhere s { s with nft := { s.nft with hasRole } }

/-- Runs of the two contracts. -/
abbrev Runs (chain : Chain) :
    Deployment → List (Taken Call Deployment (Option Nat)) → Deployment → Prop :=
  CallRun (Call.exec chain) Elsewhere

end Deployment

end NeuralMesh.Evm
