import NeuralMesh.Evm.ProviderNft

/-!
# Minting and the recipient's hook

`_safeMint` assigns the token and then calls `onERC721Received` of a recipient with code, which may
call the contracts in turn; `mintProvider` writes its mappings when the hook has returned. A call
that is rolled back leaves no trace, and is no part of a run.
-/

namespace NeuralMesh.Evm

/-- `_mint` -/
def ProviderNft.mintTo (dest : Address) (tokenId : Nat) (s : ProviderNft) :
    Except NftRevert ProviderNft := do
  ensure (dest ≠ 0) .invalidReceiver
  let (previous, s) ← s.update dest tokenId
  ensure (previous = 0) .invalidSender
  return s

namespace Deployment

/-- `mintProvider` up to the call of the hook. -/
def beginMint (msg : Message) (mint : Mint) (s : Deployment) :
    Except NftRevert (Nat × Deployment) := do
  ensure (s.nft.hasRole .minter msg.sender) (.missingRole .minter)
  ensure (s.nft.providerTokenId mint.provider = 0) .alreadyRegistered
  ensure (s.verifier.isRegistered mint.provider) .providerNotVerified
  ensure (s.verifier.getCommitment mint.provider = mint.attestationCommitment)
    (.reason "ProviderNFT: commitment mismatch")
  let (tokenId, nft) ← s.nft.takeTokenId
  let nft ← nft.mintTo mint.provider tokenId
  return (tokenId, { s with nft })

/-- A mint whose recipient has been called. -/
structure Waiting where
  msg : Message
  mint : Mint
  tokenId : Nat

/-- `mintProvider` from where the hook has returned. -/
def endMint (w : Waiting) (s : Deployment) : Deployment :=
  { s with
    nft := { s.nft with
      tokenUri := Function.update s.nft.tokenUri w.tokenId w.mint.metadataUri
      providerTokenId := Function.update s.nft.providerTokenId w.mint.provider w.tokenId
      tokenProvider := Function.update s.nft.tokenProvider w.tokenId w.mint.provider
      providerMeta := Function.update s.nft.providerMeta w.tokenId
        (ProviderNft.metaOf w.msg w.mint) } }

/-- The contracts within a transaction; the innermost of the waiting mints comes first. -/
structure Underway where
  now : Deployment
  waiting : List Waiting

inductive Step where
  /-- A call, by anybody, at any depth; a mint runs up to the hook. -/
  | call (c : Call)
  /-- The innermost hook returns and takes the token. An account without code does so at once. -/
  | received

inductive Refusal where
  | reverts (e : NftRevert)
  | nobodyWaits
  deriving DecidableEq, Repr

def Step.exec (chain : Chain) (step : Step) (s : Underway) :
    Except Refusal (Option Nat × Underway) :=
  match step with
  | .call ⟨msg, .mintProvider mint⟩ => do
      let (tokenId, now) ← (s.now.beginMint msg mint).mapError .reverts
      return (none, ⟨now, ⟨msg, mint, tokenId⟩ :: s.waiting⟩)
  | .call c => do
      let (o, now) ← (c.exec chain s.now).mapError .reverts
      return (o, { s with now })
  | .received =>
      match s.waiting with
      | [] => .error .nobodyWaits
      | w :: rest => return (some w.tokenId, ⟨s.now.endMint w, rest⟩)

/-- Runs of the two contracts, with calls from within the hooks. -/
abbrev HookRuns (chain : Chain) :
    Underway → List (Taken Step Underway (Option Nat)) → Underway → Prop :=
  CallRun (Step.exec chain) fun s t => Elsewhere s.now t.now ∧ t.waiting = s.waiting

end Deployment

end NeuralMesh.Evm
