import NeuralMesh.Proof.EvmDeals
import NeuralMesh.Proof.SolanaDeals

/-!
# The two chains settle alike

One history of deals, carried out by the escrow contract and by the Solana programme. The contract
counts in 10⁻¹⁸ NMC and the programme in 10⁻⁹ NMC, so a fee is rounded at different places.
-/

namespace NeuralMesh

open Deals

/-- The units of the contract in one of the programme. -/
def weiPerUnit : Nat := 10 ^ 9

variable {κ π : Type} [DecidableEq κ] [DecidableEq π]

/-- The consumer and the provider of the sample runs. -/
inductive Party where
  | consumer | provider
  deriving DecidableEq

def Party.account : Party → Evm.Address
  | consumer => 2
  | provider => 3

def Party.tokenAccount : Party → Solana.Pubkey
  | consumer => 12
  | provider => 13

theorem account_injective : Party.account.Injective := by
  intro p q hsame
  cases p with
  | consumer | provider =>
      cases q with
      | consumer | provider => first | rfl | exact absurd hsame (by decide)

theorem tokenAccount_injective : Party.tokenAccount.Injective := by
  intro p q hsame
  cases p with
  | consumer | provider =>
      cases q with
      | consumer | provider => first | rfl | exact absurd hsame (by decide)

def sampleKey : Unit → Evm.Key := fun _ => Evm.sampleSite.keccak256 "job-test-123"

def sampleAddress : Unit → Solana.Pubkey := fun _ => Solana.sampleEscrow

theorem sampleKey_injective : sampleKey.Injective := fun _ _ _ => rfl

theorem sampleAddress_injective : sampleAddress.Injective := fun _ _ _ => rfl

/-- Forty units of the programme, offered and withdrawn. -/
def withdrawal : List (Act Unit Party) :=
  [.offer () ⟨.consumer, .provider, 40⟩, .withdraw () ⟨.consumer, .provider, 40⟩]

def largeToken : Evm.Erc20 where
  balanceOf a := if a = 2 then 40 * weiPerUnit else 0
  allowance owner spender := if owner = 2 ∧ spender = 1 then 40 * weiPerUnit else 0

theorem largeToken_sealed : largeToken.Sealed Evm.sampleSite.self := fun _ => rfl

def largeDeployed : Evm.Contracts := { Evm.sampleDeployed with nmc := largeToken }

def largeCreate : Evm.Call :=
  ⟨Evm.sampleMessage 2, .createEscrow "job-test-123" 3 (40 * weiPerUnit) 10 3600⟩

theorem sampleAttempts_paysParties {taken : Solana.Attempted}
    (hmem : taken ∈ Solana.sampleAttempts 2 12) : Solana.PaysParties taken := by
  rcases Solana.mem_sampleAttempts hmem with ⟨hcancel, hrelease⟩ | ⟨hcall, hbefore⟩
  · exact ⟨fun _ a cost _ _ hcall => absurd hcall (hrelease a cost),
      fun _ a _ _ hcall => absurd hcall (hcancel a)⟩
  · refine ⟨fun _ a cost _ _ hrelease => ?_, fun _ a esc _ hcancel hesc => ?_⟩
    · rw [hcall] at hrelease
      cases hrelease
    · rw [hcall] at hcancel
      cases hcancel
      have hread : Solana.sampleOpened.read Solana.sampleEscrow = some (.data (.escrow esc)) :=
        hbefore ▸ hesc
      rw [Solana.sampleOpened_escrow, Option.some.injEq, Solana.Account.data.injEq,
        Solana.Record.escrow.injEq] at hread
      rw [← hread]
      rfl

end NeuralMesh
