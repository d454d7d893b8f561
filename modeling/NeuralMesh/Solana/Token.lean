import NeuralMesh.Solana.Runtime
import Mathlib.Logic.Function.Basic

/-!
# The token programme

SPL Token's `transfer`, `mint_to` and `burn`, over the accounts of the chain. `δ` is the data of the
accounts that belong to another programme.
-/

namespace NeuralMesh.Solana

structure Mint where
  mintAuthority : Option Pubkey
  supply : UInt64
  deriving DecidableEq, Repr

structure TokenAccount where
  mint : Pubkey
  owner : Pubkey
  amount : UInt64
  delegate : Option Pubkey
  delegatedAmount : UInt64
  frozen : Bool
  deriving DecidableEq, Repr

inductive Account (δ : Type) where
  | mint (m : Mint)
  | token (t : TokenAccount)
  | data (d : δ)
  deriving DecidableEq, Repr

/-- The accounts of the chain by address. -/
structure Accounts (δ : Type) where
  read : Pubkey → Option (Account δ)

inductive TokenError where
  | invalidAccount | accountFrozen | insufficientFunds | mintMismatch | ownerMismatch
  | missingRequiredSignature | fixedSupply | overflow
  deriving DecidableEq, Repr

/-- `checked_add` -/
def checkedAdd (a b : UInt64) : Option UInt64 :=
  if a.toNat + b.toNat < 2 ^ 64 then some (a + b) else none

/-- `checked_sub` -/
def checkedSub (a b : UInt64) : Option UInt64 := if b ≤ a then some (a - b) else none

/-- `checked_mul` -/
def checkedMul (a b : UInt64) : Option UInt64 :=
  if a.toNat * b.toNat < 2 ^ 64 then some (a * b) else none

/-- What a signed authority's consent leaves of a source account: a delegate uses up its
allowance, and the owner needs none. -/
def TokenAccount.authorize (t : TokenAccount) (signers : List Pubkey) (authority : Pubkey)
    (amount : UInt64) : Except TokenError TokenAccount :=
  if t.delegate = some authority then do
    ensure (authority ∈ signers) .missingRequiredSignature
    let delegatedAmount ← orFail (checkedSub t.delegatedAmount amount) .insufficientFunds
    return { t with
      delegatedAmount
      delegate := if delegatedAmount = 0 then none else t.delegate }
  else do
    ensure (t.owner = authority) .ownerMismatch
    ensure (authority ∈ signers) .missingRequiredSignature
    return t

namespace Accounts

variable {δ : Type}

def write (s : Accounts δ) (key : Pubkey) (a : Account δ) : Accounts δ :=
  ⟨Function.update s.read key (some a)⟩

def token (s : Accounts δ) (key : Pubkey) : Except TokenError TokenAccount :=
  match s.read key with
  | some (.token t) => .ok t
  | _ => .error .invalidAccount

def mint (s : Accounts δ) (key : Pubkey) : Except TokenError Mint :=
  match s.read key with
  | some (.mint m) => .ok m
  | _ => .error .invalidAccount

def transfer (signers : List Pubkey) (source dest authority : Pubkey) (amount : UInt64)
    (s : Accounts δ) : Except TokenError (Accounts δ) := do
  let src ← s.token source
  let dst ← s.token dest
  ensure (¬ src.frozen ∧ ¬ dst.frozen) .accountFrozen
  ensure (amount ≤ src.amount) .insufficientFunds
  ensure (src.mint = dst.mint) .mintMismatch
  let authorized ← src.authorize signers authority amount
  -- A transfer to the account itself ends here, and no allowance is used up.
  if source = dest then
    return s
  else do
    let credited ← orFail (checkedAdd dst.amount amount) .overflow
    return (s.write source (.token { authorized with amount := src.amount - amount })).write dest
      (.token { dst with amount := credited })

def mintTo (signers : List Pubkey) (mint dest authority : Pubkey) (amount : UInt64)
    (s : Accounts δ) : Except TokenError (Accounts δ) := do
  let dst ← s.token dest
  ensure (¬ dst.frozen) .accountFrozen
  ensure (dst.mint = mint) .mintMismatch
  let m ← s.mint mint
  let mintAuthority ← orFail m.mintAuthority .fixedSupply
  ensure (mintAuthority = authority) .ownerMismatch
  ensure (authority ∈ signers) .missingRequiredSignature
  let credited ← orFail (checkedAdd dst.amount amount) .overflow
  let supply ← orFail (checkedAdd m.supply amount) .overflow
  return (s.write dest (.token { dst with amount := credited })).write mint
    (.mint { m with supply })

def burn (signers : List Pubkey) (mint source authority : Pubkey) (amount : UInt64)
    (s : Accounts δ) : Except TokenError (Accounts δ) := do
  let src ← s.token source
  let m ← s.mint mint
  ensure (¬ src.frozen) .accountFrozen
  ensure (amount ≤ src.amount) .insufficientFunds
  ensure (src.mint = mint) .mintMismatch
  let authorized ← src.authorize signers authority amount
  let supply ← orFail (checkedSub m.supply amount) .overflow
  return (s.write source (.token { authorized with amount := src.amount - amount })).write mint
    (.mint { m with supply })

/-! ### When a transfer goes through -/

variable {s s' : Accounts δ} {signers : List Pubkey} {source dest authority key key' : Pubkey}
  {amount : UInt64}

@[simp] theorem read_write (a : Account δ) :
    (s.write key a).read key' = if key' = key then some a else s.read key' := by
  simp [write, Function.update_apply]

/-- An account after a write. -/
theorem read_write_cases {a b : Account δ} (hread : (s.write key a).read key' = some b) :
    key' = key ∧ b = a ∨ key' ≠ key ∧ s.read key' = some b := by
  rw [read_write] at hread
  by_cases hkey : key' = key
  · rw [if_pos hkey] at hread
    exact .inl ⟨hkey, (Option.some.inj hread).symm⟩
  · rw [if_neg hkey] at hread
    exact .inr ⟨hkey, hread⟩

theorem token_eq_ok {t : TokenAccount} : s.token key = .ok t ↔ s.read key = some (.token t) := by
  unfold token
  split
  · rename_i found heq
    simp [heq]
  · rename_i hnone
    refine iff_of_false (fun h => ?_) (hnone t)
    cases h

theorem mint_eq_ok {m : Mint} : s.mint key = .ok m ↔ s.read key = some (.mint m) := by
  unfold mint
  split
  · rename_i found heq
    simp [heq]
  · rename_i hnone
    refine iff_of_false (fun h => ?_) (hnone m)
    cases h

end Accounts

section Checked

variable {a b c : UInt64}

private theorem ite_some_eq_some {p : Prop} [Decidable p] :
    (if p then some a else none) = some c ↔ p ∧ c = a := by
  by_cases hp : p
  · simp [hp, eq_comm]
  · simp [hp]

theorem checkedAdd_eq_some :
    checkedAdd a b = some c ↔ a.toNat + b.toNat < 2 ^ 64 ∧ c = a + b := ite_some_eq_some

theorem checkedSub_eq_some : checkedSub a b = some c ↔ b ≤ a ∧ c = a - b := ite_some_eq_some

theorem checkedMul_eq_some :
    checkedMul a b = some c ↔ a.toNat * b.toNat < 2 ^ 64 ∧ c = a * b := ite_some_eq_some

end Checked

/-- An authority may spend as the delegate, within the allowance, or as the owner. -/
def TokenAccount.MaySpend (t : TokenAccount) (authority : Pubkey) (amount : UInt64) : Prop :=
  if t.delegate = some authority then amount ≤ t.delegatedAmount else t.owner = authority

theorem TokenAccount.authorize_isOk {t : TokenAccount} {signers : List Pubkey} {authority : Pubkey}
    {amount : UInt64} (hsigned : authority ∈ signers) :
    (∃ u, t.authorize signers authority amount = .ok u) ↔ t.MaySpend authority amount := by
  unfold authorize MaySpend
  split
  · simp only [bind_eq_ok, ensure_eq_ok, orFail_eq_ok, checkedSub_eq_some, pure_eq_ok, exists_const,
      hsigned, true_and]
    simp
  · simp only [bind_eq_ok, ensure_eq_ok, pure_eq_ok, exists_const, hsigned, true_and,
      exists_and_left, exists_eq, and_true]

namespace Accounts

variable {δ : Type} {s s' t u : Accounts δ} {signers : List Pubkey}
  {source dest authority key : Pubkey} {amount : UInt64}

/-- The other programme's accounts are the same, with the same data. -/
def SameRecords (s t : Accounts δ) : Prop :=
  ∀ key d, t.read key = some (.data d) ↔ s.read key = some (.data d)

theorem SameRecords.refl (s : Accounts δ) : s.SameRecords s := fun _ _ => Iff.rfl

theorem SameRecords.trans (hfirst : s.SameRecords t) (hsecond : t.SameRecords u) :
    s.SameRecords u := fun key d => (hsecond key d).trans (hfirst key d)

/-- Writing an account of the token programme where no record is. -/
theorem sameRecords_write {a : Account δ} (hnew : ∀ d, a ≠ .data d)
    (hfree : ∀ d, s.read key ≠ some (.data d)) : s.SameRecords (s.write key a) := by
  intro key' d
  rw [read_write]
  split
  · rename_i hkey
    subst hkey
    exact iff_of_false (fun h => hnew d (Option.some.inj h)) (hfree d)
  · exact Iff.rfl

theorem transfer_sameRecords (htransfer : s.transfer signers source dest authority amount = .ok t) :
    s.SameRecords t := by
  unfold transfer at htransfer
  simp only [bind_eq_ok, token_eq_ok, ensure_eq_ok, exists_const] at htransfer
  obtain ⟨src, hsrc, dst, hdst, _, _, _, spent, _, hmoved⟩ := htransfer
  split at hmoved
  · cases hmoved
    exact .refl s
  · rename_i hself
    simp only [bind_eq_ok, orFail_eq_ok, pure_eq_ok] at hmoved
    obtain ⟨credited, _, rfl⟩ := hmoved
    refine (sameRecords_write (by simp) (by simp [hsrc])).trans (sameRecords_write (by simp) ?_)
    rw [read_write, if_neg fun h => hself h.symm, hdst]
    simp

theorem mintTo_sameRecords {mint : Pubkey}
    (hmint : s.mintTo signers mint dest authority amount = .ok t) : s.SameRecords t := by
  simp only [mintTo, bind_eq_ok, token_eq_ok, mint_eq_ok, ensure_eq_ok, orFail_eq_ok, pure_eq_ok,
    exists_const] at hmint
  obtain ⟨dst, hdst, _, _, m, hm, _, _, _, _, credited, _, supply, _, rfl⟩ := hmint
  refine (sameRecords_write (by simp) (by simp [hdst])).trans (sameRecords_write (by simp) ?_)
  rw [read_write]
  split
  · simp
  · simp [hm]

theorem burn_sameRecords {mint : Pubkey}
    (hburn : s.burn signers mint source authority amount = .ok t) : s.SameRecords t := by
  simp only [burn, bind_eq_ok, token_eq_ok, mint_eq_ok, ensure_eq_ok, orFail_eq_ok, pure_eq_ok,
    exists_const] at hburn
  obtain ⟨src, hsrc, m, hm, _, _, _, spent, _, supply, _, rfl⟩ := hburn
  refine (sameRecords_write (by simp) (by simp [hsrc])).trans (sameRecords_write (by simp) ?_)
  rw [read_write]
  split
  · simp
  · simp [hm]

/-- When an authority that signed can move `amount` from one account to another. -/
def Transferable (s : Accounts δ) (source dest authority : Pubkey) (amount : UInt64) : Prop :=
  ∃ src dst, s.read source = some (.token src) ∧ s.read dest = some (.token dst) ∧
    (¬ src.frozen ∧ ¬ dst.frozen) ∧ amount ≤ src.amount ∧ src.mint = dst.mint ∧
    src.MaySpend authority amount ∧ (source = dest ∨ dst.amount.toNat + amount.toNat < 2 ^ 64)

theorem transfer_isOk (hsigned : authority ∈ signers) :
    (∃ s', s.transfer signers source dest authority amount = .ok s') ↔
      s.Transferable source dest authority amount := by
  unfold transfer Transferable
  simp only [bind_eq_ok, token_eq_ok, ensure_eq_ok, exists_const]
  by_cases hself : source = dest
  · simp only [if_pos hself, pure_eq_ok]
    constructor
    · rintro ⟨_, src, hsrc, dst, hdst, hthawed, hfunds, hmint, spent, hspent, _⟩
      exact ⟨src, dst, hsrc, hdst, hthawed, hfunds, hmint,
        (TokenAccount.authorize_isOk hsigned).mp ⟨spent, hspent⟩, .inl hself⟩
    · rintro ⟨src, dst, hsrc, hdst, hthawed, hfunds, hmint, hspend, _⟩
      obtain ⟨spent, hspent⟩ := (TokenAccount.authorize_isOk hsigned).mpr hspend
      exact ⟨s, src, hsrc, dst, hdst, hthawed, hfunds, hmint, spent, hspent, rfl⟩
  · simp only [if_neg hself, bind_eq_ok, orFail_eq_ok, pure_eq_ok]
    constructor
    · rintro ⟨_, src, hsrc, dst, hdst, hthawed, hfunds, hmint, spent, hspent, credited, hcredited, _⟩
      exact ⟨src, dst, hsrc, hdst, hthawed, hfunds, hmint,
        (TokenAccount.authorize_isOk hsigned).mp ⟨spent, hspent⟩,
        .inr (checkedAdd_eq_some.mp hcredited).1⟩
    · rintro ⟨src, dst, hsrc, hdst, hthawed, hfunds, hmint, hspend, hroom⟩
      obtain ⟨spent, hspent⟩ := (TokenAccount.authorize_isOk hsigned).mpr hspend
      exact ⟨_, src, hsrc, dst, hdst, hthawed, hfunds, hmint, spent, hspent, _,
        checkedAdd_eq_some.mpr ⟨hroom.resolve_left hself, rfl⟩, rfl⟩

end Accounts

end NeuralMesh.Solana
