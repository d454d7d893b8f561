import NeuralMesh.Evm.Escrow
import NeuralMesh.Evm.NmcToken
import NeuralMesh.Evm.ProviderNft
import NeuralMesh.Evm.Registry

/-!
# All contracts of a deployment

`contracts/evm/script/Deploy.s.sol` deploys the verifier, the NMC token, the provider token, the
registry and the escrow. The registry and the escrow work on the one token, and the escrow asks the
provider token who is a provider; that they see the same is a field of `Network`.
-/

namespace NeuralMesh.Evm

/-- Where the contracts live. -/
structure Layout where
  escrow : Site
  registry : ContractAddress
  chain : Chain
  distinct : escrow.self ≠ registry

structure Network where
  nmc : NmcToken
  nfts : Deployment
  registry : Registry
  escrow : Contracts
  registry_nmc : registry.nmc = nmc.erc20
  escrow_nmc : escrow.nmc = nmc.erc20
  escrow_isProvider : escrow.isProvider = nfts.nft.isProvider

namespace Network

/-- The balances and allowances after a call of the token. -/
def setNmc (nmc : NmcToken) (s : Network) : Network where
  nmc
  nfts := s.nfts
  registry := { s.registry with nmc := nmc.erc20 }
  escrow := { s.escrow with nmc := nmc.erc20 }
  registry_nmc := rfl
  escrow_nmc := rfl
  escrow_isProvider := s.escrow_isProvider

def setNfts (nfts : Deployment) (s : Network) : Network where
  nmc := s.nmc
  nfts
  registry := s.registry
  escrow := { s.escrow with isProvider := nfts.nft.isProvider }
  registry_nmc := s.registry_nmc
  escrow_nmc := s.escrow_nmc
  escrow_isProvider := rfl

/-- The storage of the registry, and what it did to the token. -/
def setRegistry (registry : Registry) (s : Network) : Network where
  nmc := { s.nmc with erc20 := registry.nmc }
  nfts := s.nfts
  registry
  escrow := { s.escrow with nmc := registry.nmc }
  registry_nmc := rfl
  escrow_nmc := rfl
  escrow_isProvider := s.escrow_isProvider

/-- The storage of the escrow, and what it did to the token. -/
def setEscrow (escrow : Contracts) (s : Network) : Network where
  nmc := { s.nmc with erc20 := escrow.nmc }
  nfts := s.nfts
  registry := { s.registry with nmc := escrow.nmc }
  escrow := { escrow with isProvider := s.nfts.nft.isProvider }
  registry_nmc := rfl
  escrow_nmc := rfl
  escrow_isProvider := rfl

inductive Call where
  | nmc (c : NmcToken.Call)
  | nfts (c : Deployment.Call)
  | registry (c : Registry.Call)
  | escrow (c : Evm.Call)

inductive Output where
  | nmc
  | nfts (tokenId : Option Nat)
  | registry (payouts : List Payout)
  | escrow (payouts : List Payout)

inductive Revert where
  | nmc (e : NmcRevert)
  | nfts (e : NftRevert)
  | registry (e : RegistryRevert)
  | escrow (e : Evm.Revert)

abbrev Result := Except Revert (Output × Network)

def Call.exec (layout : Layout) (c : Call) (s : Network) : Result :=
  match c with
  | .nmc c => do
      let (_, after) ← (c.exec s.nmc).mapError .nmc
      return (.nmc, s.setNmc after)
  | .nfts c => do
      let (tokenId, after) ← (c.exec layout.chain s.nfts).mapError .nfts
      return (.nfts tokenId, s.setNfts after)
  | .registry c => do
      let (payouts, after) ← (c.exec layout.registry s.registry).mapError .registry
      return (.registry payouts, s.setRegistry after)
  | .escrow c => do
      let (payouts, after) ← (c.exec layout.escrow s.escrow).mapError .escrow
      return (.escrow payouts, s.setEscrow after)

/-- What happens elsewhere: roles change. -/
inductive Elsewhere : Network → Network → Prop
  | nmc (s : Network) (hasRole : NmcRole → Address → Bool) :
      Elsewhere s (s.setNmc { s.nmc with hasRole })
  | nfts (s : Network) (hasRole : NftRole → Address → Bool) :
      Elsewhere s (s.setNfts { s.nfts with nft := { s.nfts.nft with hasRole } })
  | registry (s : Network) (hasRole : RegistryRole → Address → Bool) :
      Elsewhere s (s.setRegistry { s.registry with hasRole })
  | escrow (s : Network) (hasRole : Role → Address → Bool) :
      Elsewhere s (s.setEscrow { s.escrow with hasRole })

/-- Runs of the deployment. -/
abbrev Runs (layout : Layout) : Network → List (Taken Call Network Output) → Network → Prop :=
  CallRun (Call.exec layout) Elsewhere

/-- `run` of the script, with the addresses it takes from its environment. -/
def deploy (deployer bridge oracle feeCollector : Address) (qvOracles : List Address) :
    Except Revert Network := do
  let verifier ← (QuantumVerifier.deploy deployer qvOracles 2).mapError fun e =>
    .nfts (.verifier e)
  let nmc := NmcToken.deploy deployer bridge
  let nft := ProviderNft.deploy deployer oracle
  let escrow ← (Evm.deploy nmc.erc20 nft.isProvider feeCollector 800 deployer oracle).mapError .escrow
  return {
    nmc
    nfts := { verifier, nft }
    registry := Registry.deploy nmc.erc20 feeCollector deployer oracle
    escrow := { escrow with nmc := nmc.erc20, isProvider := nft.isProvider }
    registry_nmc := rfl
    escrow_nmc := rfl
    escrow_isProvider := rfl }

end Network

end NeuralMesh.Evm
