import NeuralMesh.Base.Calls
import Mathlib.Algebra.Order.Group.Nat

/-!
# An ERC-20 token

OpenZeppelin's `ERC20` and `ERC20Burnable`, as far as balances and allowances go: an operation moves
exactly its amount or is refused. The total supply fits a `uint256`, so a credit cannot overflow.
-/

namespace NeuralMesh.Evm

abbrev Address := BitVec 160

/-- `type(uint256).max` -/
def uint256Max : Nat := 2 ^ 256 - 1

structure Erc20 where
  balanceOf : Address → Nat
  allowance : Address → Address → Nat

inductive TokenError where
  | invalidSender | invalidReceiver | invalidApprover | invalidSpender
  | insufficientBalance | insufficientAllowance
  deriving DecidableEq, Repr

namespace Erc20

abbrev Result := Except TokenError Erc20

def setBalance (t : Erc20) (a : Address) (n : Nat) : Erc20 :=
  { t with balanceOf := Function.update t.balanceOf a n }

/-- `_transfer` -/
def move (source dest : Address) (value : Nat) (t : Erc20) : Result := do
  ensure (source ≠ 0) .invalidSender
  ensure (dest ≠ 0) .invalidReceiver
  ensure (value ≤ t.balanceOf source) .insufficientBalance
  let debited := t.setBalance source (t.balanceOf source - value)
  return debited.setBalance dest (debited.balanceOf dest + value)

/-- `_approve` -/
def approve (owner spender : Address) (value : Nat) (t : Erc20) : Result := do
  ensure (owner ≠ 0) .invalidApprover
  ensure (spender ≠ 0) .invalidSpender
  return { t with
    allowance := Function.update t.allowance owner
      (Function.update (t.allowance owner) spender value) }

/-- `_spendAllowance`; the maximal allowance is unlimited. -/
def spendAllowance (owner spender : Address) (value : Nat) (t : Erc20) : Result :=
  if t.allowance owner spender < uint256Max then do
    ensure (value ≤ t.allowance owner spender) .insufficientAllowance
    t.approve owner spender (t.allowance owner spender - value)
  else .ok t

def transferFrom (spender source dest : Address) (value : Nat) (t : Erc20) : Result := do
  let t ← t.spendAllowance source spender value
  t.move source dest value

/-- `_mint` -/
def mint (dest : Address) (value : Nat) (t : Erc20) : Result := do
  ensure (dest ≠ 0) .invalidReceiver
  return t.setBalance dest (t.balanceOf dest + value)

/-- `_burn` -/
def burn (source : Address) (value : Nat) (t : Erc20) : Result := do
  ensure (source ≠ 0) .invalidSender
  ensure (value ≤ t.balanceOf source) .insufficientBalance
  return t.setBalance source (t.balanceOf source - value)

def burnFrom (spender source : Address) (value : Nat) (t : Erc20) : Result := do
  let t ← t.spendAllowance source spender value
  t.burn source value

/-! ### What an operation does to one balance -/

variable {t t' : Erc20} {source dest owner spender a : Address} {value : Nat}

theorem balanceOf_setBalance (n : Nat) :
    (t.setBalance owner n).balanceOf a = if a = owner then n else t.balanceOf a := by
  simp [setBalance, Function.update_apply]

theorem move_eq_ok : t.move source dest value = .ok t' ↔
    source ≠ 0 ∧ dest ≠ 0 ∧ value ≤ t.balanceOf source ∧
      t' = (t.setBalance source (t.balanceOf source - value)).setBalance dest
        ((t.setBalance source (t.balanceOf source - value)).balanceOf dest + value) := by
  simp only [move, bind_eq_ok, ensure_eq_ok, pure_eq_ok, exists_const]

/-- A transfer takes from its source. -/
theorem balanceOf_move (hmove : t.move source dest value = .ok t') (hne : source ≠ dest) :
    t'.balanceOf source = t.balanceOf source - value := by
  obtain ⟨_, _, _, rfl⟩ := move_eq_ok.mp hmove
  rw [balanceOf_setBalance, if_neg hne, balanceOf_setBalance, if_pos rfl]

theorem le_balanceOf_move (hmove : t.move source dest value = .ok t') :
    value ≤ t.balanceOf source := (move_eq_ok.mp hmove).2.2.1

theorem balanceOf_move_self (hmove : t.move source source value = .ok t') :
    t'.balanceOf source = t.balanceOf source := by
  obtain ⟨_, _, hle, rfl⟩ := move_eq_ok.mp hmove
  rw [balanceOf_setBalance, if_pos rfl, balanceOf_setBalance, if_pos rfl]
  omega

/-- No account but the source of a transfer loses by it. -/
theorem le_balanceOf_move_of_ne (hmove : t.move source dest value = .ok t') (hne : a ≠ source) :
    t.balanceOf a + (if a = dest then value else 0) = t'.balanceOf a := by
  obtain ⟨_, _, _, rfl⟩ := move_eq_ok.mp hmove
  rw [balanceOf_setBalance]
  split
  · rename_i heq
    subst heq
    rw [balanceOf_setBalance, if_neg hne]
  · rw [balanceOf_setBalance, if_neg hne, Nat.add_zero]

theorem allowance_move (hmove : t.move source dest value = .ok t') : t'.allowance = t.allowance := by
  obtain ⟨_, _, _, rfl⟩ := move_eq_ok.mp hmove
  rfl

theorem balanceOf_burn (hburn : t.burn source value = .ok t') :
    t'.allowance = t.allowance ∧
      t'.balanceOf a = if a = source then t.balanceOf source - value else t.balanceOf a := by
  simp only [burn, bind_eq_ok, ensure_eq_ok, pure_eq_ok, exists_const] at hburn
  obtain ⟨_, _, rfl⟩ := hburn
  exact ⟨rfl, balanceOf_setBalance _⟩

theorem balanceOf_spendAllowance (hspend : t.spendAllowance owner spender value = .ok t') :
    t'.balanceOf = t.balanceOf := by
  unfold spendAllowance at hspend
  split at hspend
  · simp only [approve, bind_eq_ok, ensure_eq_ok, pure_eq_ok, exists_const] at hspend
    obtain ⟨_, _, _, rfl⟩ := hspend
    rfl
  · cases hspend
    rfl

/-! ### Operations of other accounts -/

/-- The account has approved nobody. -/
def Sealed (a : Address) (t : Erc20) : Prop := ∀ spender, t.allowance a spender = 0

theorem Sealed.of_allowance (hsealed : Sealed a t) (hsame : t'.allowance = t.allowance) :
    Sealed a t' := fun spender => (congrFun (congrFun hsame a) spender).trans (hsealed spender)

theorem approve_sealed (happrove : t.approve owner spender value = .ok t') (hsealed : Sealed a t)
    (hvalue : a = owner → value = 0) : t'.balanceOf = t.balanceOf ∧ Sealed a t' := by
  simp only [approve, bind_eq_ok, ensure_eq_ok, pure_eq_ok, exists_const] at happrove
  obtain ⟨_, _, rfl⟩ := happrove
  refine ⟨rfl, fun spender' => ?_⟩
  by_cases howner : a = owner
  · subst howner
    by_cases hspender : spender' = spender
    · subst hspender
      simp [hvalue rfl]
    · simp [hspender, hsealed spender']
  · simp [howner, hsealed spender']

/-- A sealed account lets others spend nothing. -/
theorem spendAllowance_sealed (hspend : t.spendAllowance owner spender value = .ok t')
    (hsealed : Sealed a t) :
    t'.balanceOf = t.balanceOf ∧ Sealed a t' ∧ (a = owner → value = 0) := by
  unfold spendAllowance at hspend
  split at hspend
  · simp only [bind_eq_ok, ensure_eq_ok, exists_const] at hspend
    obtain ⟨hle, happrove⟩ := hspend
    have hzero : a = owner → t.allowance owner spender = 0 := by
      rintro rfl
      exact hsealed spender
    obtain ⟨hbalance, hsealed'⟩ := approve_sealed happrove hsealed fun howner => by
      rw [hzero howner, Nat.zero_sub]
    exact ⟨hbalance, hsealed', fun howner => Nat.le_zero.mp (hzero howner ▸ hle)⟩
  · rename_i hmax
    cases hspend
    refine ⟨rfl, hsealed, ?_⟩
    rintro rfl
    rw [hsealed spender] at hmax
    exact absurd (by decide) hmax

end Erc20

/-- What an account can do with the token. -/
inductive TokenCall where
  | transfer (dest : Address) (value : Nat)
  | approve (spender : Address) (value : Nat)
  | transferFrom (source dest : Address) (value : Nat)
  | burn (value : Nat)
  | burnFrom (source : Address) (value : Nat)
  /-- Minting, by whoever may. -/
  | mint (dest : Address) (value : Nat)

def TokenCall.exec (sender : Address) : TokenCall → Erc20 → Erc20.Result
  | transfer dest value, t => t.move sender dest value
  | approve spender value, t => t.approve sender spender value
  | transferFrom source dest value, t => t.transferFrom sender source dest value
  | burn value, t => t.burn sender value
  | burnFrom source value, t => t.burnFrom sender source value
  | mint dest value, t => t.mint dest value

/-- Others cannot take from a sealed account. -/
theorem TokenCall.sealed {a sender : Address} {c : TokenCall} {t t' : Erc20}
    (hexec : c.exec sender t = .ok t') (hsealed : t.Sealed a) (hother : a ≠ sender) :
    t'.Sealed a ∧ t.balanceOf a ≤ t'.balanceOf a := by
  cases c with
  | transfer dest value =>
      refine ⟨hsealed.of_allowance (Erc20.allowance_move hexec), ?_⟩
      rw [← Erc20.le_balanceOf_move_of_ne hexec hother]
      exact Nat.le_add_right _ _
  | approve spender value =>
      obtain ⟨hbalance, hsealed'⟩ := Erc20.approve_sealed hexec hsealed fun h => absurd h hother
      exact ⟨hsealed', (congrFun hbalance a).ge⟩
  | transferFrom source dest value =>
      obtain ⟨u, hspend, hmove⟩ := bind_eq_ok.mp hexec
      obtain ⟨hbalance, hsealed', hzero⟩ := Erc20.spendAllowance_sealed hspend hsealed
      refine ⟨hsealed'.of_allowance (Erc20.allowance_move hmove), ?_⟩
      rw [← hbalance]
      by_cases hsource : a = source
      · subst hsource
        by_cases hdest : a = dest
        · subst hdest
          exact (Erc20.balanceOf_move_self hmove).ge
        · rw [Erc20.balanceOf_move hmove hdest, hzero rfl, Nat.sub_zero]
      · rw [← Erc20.le_balanceOf_move_of_ne hmove hsource]
        exact Nat.le_add_right _ _
  | burn value =>
      obtain ⟨hallowance, hbalance⟩ := Erc20.balanceOf_burn (a := a) hexec
      exact ⟨hsealed.of_allowance hallowance, by rw [hbalance, if_neg hother]⟩
  | burnFrom source value =>
      obtain ⟨u, hspend, hburn⟩ := bind_eq_ok.mp hexec
      obtain ⟨hbalance, hsealed', hzero⟩ := Erc20.spendAllowance_sealed hspend hsealed
      obtain ⟨hallowance, hburned⟩ := Erc20.balanceOf_burn (a := a) hburn
      refine ⟨hsealed'.of_allowance hallowance, ?_⟩
      rw [hburned, ← hbalance]
      split
      · rename_i hsource
        rw [hzero hsource, hsource, Nat.sub_zero]
      · exact le_refl _
  | mint dest value =>
      simp only [exec, Erc20.mint, bind_eq_ok, ensure_eq_ok, pure_eq_ok, exists_const] at hexec
      obtain ⟨_, rfl⟩ := hexec
      refine ⟨hsealed, ?_⟩
      rw [Erc20.balanceOf_setBalance]
      split
      · rename_i hdest
        rw [hdest]
        exact Nat.le_add_right _ _
      · exact le_refl _

end NeuralMesh.Evm
