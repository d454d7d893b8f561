import NeuralMesh.Evm.Erc20

/-!
# What a contract sees of a call, and what it sends

Every contract function is told who calls it and when; some send NMC on.
-/

namespace NeuralMesh.Evm

/-- `bytes32` -/
abbrev Key := BitVec 256

/-- Where a contract lives: no contract is at the zero address. -/
abbrev ContractAddress := { a : Address // a ≠ 0 }

/-- `msg.sender` and `block.timestamp`. -/
structure Message where
  sender : Address
  timestamp : Nat

/-- `uint64(block.timestamp)` -/
def Message.timestamp64 (msg : Message) : UInt64 := .ofNat msg.timestamp

/-- NMC the contract sent. -/
structure Payout where
  dest : Address
  amount : Nat
  deriving DecidableEq

def totalAmount (payouts : List Payout) : Nat := (payouts.map Payout.amount).sum

@[simp] theorem totalAmount_nil : totalAmount [] = 0 := rfl

@[simp] theorem totalAmount_cons (p : Payout) (ps : List Payout) :
    totalAmount (p :: ps) = p.amount + totalAmount ps := rfl

/-- A payment into the contract arrives. -/
theorem transferFrom_ok {self source : Address} {value : Nat} {t t' : Erc20}
    (htransfer : t.transferFrom self source self value = .ok t') (hsealed : t.Sealed self) :
    t'.Sealed self ∧ t.balanceOf self + value ≤ t'.balanceOf self := by
  obtain ⟨u, hspend, hmove⟩ := bind_eq_ok.mp htransfer
  obtain ⟨hbalance, hsealed', hzero⟩ := Erc20.spendAllowance_sealed hspend hsealed
  refine ⟨hsealed'.of_allowance (Erc20.allowance_move hmove), ?_⟩
  rw [← hbalance]
  by_cases hself : self = source
  · subst hself
    rw [Erc20.balanceOf_move_self hmove, hzero rfl, Nat.add_zero]
  · rw [← Erc20.le_balanceOf_move_of_ne hmove hself, if_pos rfl]

/-- A payment into the contract pays nobody else. -/
theorem balanceOf_transferFrom_le {self source p : Address} {value : Nat} {t t' : Erc20}
    (htransfer : t.transferFrom self source self value = .ok t') (hp : p ≠ self) :
    t'.balanceOf p ≤ t.balanceOf p := by
  obtain ⟨u, hspend, hmove⟩ := bind_eq_ok.mp htransfer
  rw [← Erc20.balanceOf_spendAllowance hspend]
  by_cases hsource : p = source
  · subst hsource
    rw [Erc20.balanceOf_move hmove hp]
    exact Nat.sub_le _ _
  · rw [← Erc20.le_balanceOf_move_of_ne hmove hsource, if_neg hp, Nat.add_zero]

/-- A payment out of the contract takes at most its amount. -/
theorem move_ok {self dest : Address} {value : Nat} {t t' : Erc20}
    (hmove : t.move self dest value = .ok t') (hsealed : t.Sealed self) :
    t'.Sealed self ∧ t.balanceOf self ≤ t'.balanceOf self + value := by
  refine ⟨hsealed.of_allowance (Erc20.allowance_move hmove), ?_⟩
  by_cases hself : self = dest
  · subst hself
    rw [Erc20.balanceOf_move_self hmove]
    exact Nat.le_add_right _ _
  · rw [Erc20.balanceOf_move hmove hself, Nat.sub_add_cancel (Erc20.le_balanceOf_move hmove)]

end NeuralMesh.Evm
