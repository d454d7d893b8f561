import NeuralMesh.Base.Reserve
import NeuralMesh.Proof.SolanaBridge
import NeuralMesh.Proof.SolanaVault

/-!
# The supply on Solana

The mint of the configuration obeys an address of the programme, so that only `bridge_mint` issues
coins. Between the instructions anybody uses the token programme, which is `TokenUse`; what is burnt
there is in no book, and the books bound the supply from above.
-/

namespace NeuralMesh.Solana

/-- Somebody who has no signature of the programme uses the token programme, or creates an account
that is not at one of its addresses. -/
inductive TokenUse (runtime : Runtime) (s : State) : State → Prop
  | transfer {signers : List Pubkey} {source dest authority : Pubkey} {amount : UInt64} {t : State}
      (hsigners : ∀ key ∈ signers, ¬ Derived runtime key)
      (htransfer : s.transfer signers source dest authority amount = .ok t) : TokenUse runtime s t
  | mintTo {signers : List Pubkey} {mint dest authority : Pubkey} {amount : UInt64} {t : State}
      (hsigners : ∀ key ∈ signers, ¬ Derived runtime key)
      (hmint : s.mintTo signers mint dest authority amount = .ok t) : TokenUse runtime s t
  | burn {signers : List Pubkey} {mint source authority : Pubkey} {amount : UInt64} {t : State}
      (hsigners : ∀ key ∈ signers, ¬ Derived runtime key)
      (hburn : s.burn signers mint source authority amount = .ok t) : TokenUse runtime s t
  | createAccount {key : Pubkey} {v : TokenAccount} (hkey : ¬ Derived runtime key)
      (hvacant : s.read key = none) (hempty : v.amount = 0) :
      TokenUse runtime s (s.write key (.token v))
  | createMint {key : Pubkey} {m : Mint} (hkey : ¬ Derived runtime key)
      (hvacant : s.read key = none) : TokenUse runtime s (s.write key (.mint m))
  /-- `freeze_account` and `thaw_account` -/
  | freeze {key : Pubkey} {v : TokenAccount} (frozen : Bool) (hread : s.read key = some (.token v)) :
      TokenUse runtime s (s.write key (.token { v with frozen }))
  /-- `approve`, `revoke` and `set_authority` of a token account -/
  | administer {key : Pubkey} {v : TokenAccount} (owner : Pubkey) (delegate : Option Pubkey)
      (delegatedAmount : UInt64) (howner : ¬ Derived runtime v.owner)
      (hread : s.read key = some (.token v)) :
      TokenUse runtime s (s.write key (.token { v with owner, delegate, delegatedAmount }))
  | closeAccount {key : Pubkey} {v : TokenAccount} (howner : ¬ Derived runtime v.owner)
      (hread : s.read key = some (.token v)) (hempty : v.amount = 0) :
      TokenUse runtime s ⟨Function.update s.read key none⟩
  /-- `set_authority` of a mint -/
  | setMintAuthority {key : Pubkey} {m : Mint} (mintAuthority : Option Pubkey)
      (hissuer : ∀ issuer ∈ m.mintAuthority, ¬ Derived runtime issuer)
      (hread : s.read key = some (.mint m)) :
      TokenUse runtime s (s.write key (.mint { m with mintAuthority }))

variable {runtime : Runtime} {s t u : State} {transfers : List Transfer} {calls : List Attempted}
  {mint mint' authority authority' key source dest config : Pubkey} {signers : List Pubkey}
  {supply supply' amount : UInt64} {cfg : ProgramConfig} {a : Account Record}

/-! ### The coins of a mint -/

/-- The coins of a mint in an account. -/
def coins (mint : Pubkey) : Option (Account Record) → Nat
  | some (.token v) => if v.mint = mint then v.amount.toNat else 0
  | _ => 0

/-- Only the authority may issue coins of the mint, and all coins there are do not add up to more than
the supply. -/
structure Issued (mint authority : Pubkey) (supply : UInt64) (s : State) : Prop where
  issuer : s.read mint = some (.mint ⟨some authority, supply⟩)
  backs : Backs supply.toNat fun key => coins mint (s.read key)

theorem transfer_mint (htransfer : s.transfer signers source dest authority amount = .ok t) :
    ∃ src dst, s.read source = some (.token src) ∧ s.read dest = some (.token dst) ∧
      src.mint = dst.mint := by
  unfold Accounts.transfer at htransfer
  simp only [bind_eq_ok, Accounts.token_eq_ok, ensure_eq_ok, exists_const] at htransfer
  obtain ⟨src, hsrc, dst, hdst, _, _, hmint, _⟩ := htransfer
  exact ⟨src, dst, hsrc, hdst, hmint⟩

theorem authorize_mint {v w : TokenAccount}
    (hauthorize : v.authorize signers authority amount = .ok w) :
    w.mint = v.mint ∧ authority ∈ signers := by
  unfold TokenAccount.authorize at hauthorize
  split at hauthorize
  · simp only [bind_eq_ok, ensure_eq_ok, orFail_eq_ok, pure_eq_ok, exists_const] at hauthorize
    obtain ⟨hsigned, _, _, rfl⟩ := hauthorize
    exact ⟨rfl, hsigned⟩
  · simp only [bind_eq_ok, ensure_eq_ok, pure_eq_ok, exists_const] at hauthorize
    obtain ⟨_, hsigned, rfl⟩ := hauthorize
    exact ⟨rfl, hsigned⟩

theorem toNat_sub_add {b c : UInt64} (hle : c ≤ b) : (b - c).toNat + c.toNat = b.toNat := by
  rw [UInt64.toNat_sub_of_le _ _ hle]
  exact Nat.sub_add_cancel (UInt64.le_iff_toNat_le.mp hle)

theorem toNat_add_of_lt {b c : UInt64} (hlt : b.toNat + c.toNat < 2 ^ 64) :
    (b + c).toNat = b.toNat + c.toNat := by
  rw [UInt64.toNat_add, Nat.mod_eq_of_lt hlt]

theorem le_add_of_lt {b c : UInt64} (hlt : b.toNat + c.toNat < 2 ^ 64) : b ≤ b + c := by
  rw [UInt64.le_iff_toNat_le, toNat_add_of_lt hlt]
  exact Nat.le_add_right _ _

namespace Issued

theorem ne_token (hissued : Issued mint authority supply s) {v : TokenAccount}
    (hread : s.read key = some (.token v)) : key ≠ mint := by
  rintro rfl
  cases hread.symm.trans hissued.issuer

theorem ne_vacant (hissued : Issued mint authority supply s) (hvacant : s.read key = none) :
    key ≠ mint := by
  rintro rfl
  cases hvacant.symm.trans hissued.issuer

/-- A change of one account that changes no coins of the mint. -/
theorem update (hissued : Issued mint authority supply s) (hkey : key ≠ mint)
    {b : Option (Account Record)} (hcoins : coins mint b = coins mint (s.read key)) :
    Issued mint authority supply ⟨Function.update s.read key b⟩ where
  issuer := (Function.update_of_ne hkey.symm b s.read).trans hissued.issuer
  backs := by
    have hsame : (fun k => coins mint (Function.update s.read key b k)) =
        fun k => coins mint (s.read k) := by
      funext k
      by_cases hk : k = key
      · rw [hk, Function.update_self, hcoins]
      · rw [Function.update_of_ne hk]
    rw [hsame]
    exact hissued.backs

theorem write (hissued : Issued mint authority supply s) (hkey : key ≠ mint)
    (hcoins : coins mint (some a) = coins mint (s.read key)) :
    Issued mint authority supply (s.write key a) := hissued.update hkey hcoins

theorem transfer (hissued : Issued mint authority supply s)
    (htransfer : s.transfer signers source dest authority' amount = .ok t) :
    Issued mint authority supply t := by
  obtain ⟨src, dst, spent, hsrc, hdst, hfunds, hspent, ⟨_, rfl⟩ | ⟨hself, hroom, rfl⟩⟩ :=
    transfer_eq_ok htransfer
  · exact hissued
  · obtain ⟨_, _, hsrc', hdst', hsame⟩ := transfer_mint htransfer
    cases hsrc.symm.trans hsrc'
    cases hdst.symm.trans hdst'
    have hspentMint : spent.mint = src.mint := (authorize_mint hspent).1
    constructor
    · rw [Accounts.read_write, if_neg (hissued.ne_token hdst).symm, Accounts.read_write,
        if_neg (hissued.ne_token hsrc).symm, hissued.issuer]
    · refine hissued.backs.move hself (if src.mint = mint then amount.toNat else 0) ?_ ?_ ?_
      · rw [Accounts.read_write, if_neg hself, Accounts.read_write, if_pos rfl, hsrc]
        simp only [coins, hspentMint]
        split
        · exact toNat_sub_add hfunds
        · rfl
      · rw [Accounts.read_write, if_pos rfl, hdst]
        simp only [coins, hsame]
        split
        · exact toNat_add_of_lt hroom
        · rfl
      · intro k hsource hdest
        rw [Accounts.read_write, if_neg hdest, Accounts.read_write, if_neg hsource]

/-- A balance and the supply change together. -/
theorem reissue (hissued : Issued mint authority supply s) {v w : TokenAccount}
    (hread : s.read key = some (.token v)) (hold : v.mint = mint) (hnew : w.mint = mint)
    (hbalance : supply.toNat + w.amount.toNat ≤ supply'.toNat + v.amount.toNat) :
    Issued mint authority supply'
      ((s.write key (.token w)).write mint (.mint ⟨some authority, supply'⟩)) where
  issuer := by rw [Accounts.read_write, if_pos rfl]
  backs := by
    refine hissued.backs.update key ?_ ?_
    · intro k hk
      rw [Accounts.read_write]
      split
      · rename_i hmint
        rw [hmint, hissued.issuer]
        rfl
      · rw [Accounts.read_write, if_neg hk]
    · rw [Accounts.read_write, if_neg (hissued.ne_token hread), Accounts.read_write, if_pos rfl,
        hread]
      simp only [coins, hold, hnew, if_true]
      exact hbalance

/-- What happens to the coins of another mint. -/
theorem reissue_other (hissued : Issued mint authority supply s) (hne : mint' ≠ mint)
    {v w : TokenAccount} {m m' : Mint} (hread : s.read key = some (.token v))
    (hold : v.mint = mint') (hnew : w.mint = mint') (hmint : s.read mint' = some (.mint m)) :
    Issued mint authority supply ((s.write key (.token w)).write mint' (.mint m')) := by
  have hmoved : Issued mint authority supply (s.write key (.token w)) := by
    refine hissued.write (hissued.ne_token hread) ?_
    rw [hread]
    simp only [coins, hold, hnew, if_neg hne]
  refine hmoved.write hne ?_
  rw [Accounts.read_write]
  split
  · simp only [coins, hnew, if_neg hne]
  · rw [hmint]
    rfl

/-- Coins of the mint are issued by its authority only. -/
theorem mintTo (hissued : Issued mint authority supply s)
    (hmint : s.mintTo signers mint' dest authority' amount = .ok t) :
    mint' ≠ mint ∧ Issued mint authority supply t ∨
      mint' = mint ∧ authority ∈ signers ∧ supply.toNat + amount.toNat < 2 ^ 64 ∧
        Issued mint authority (supply + amount) t := by
  simp only [Accounts.mintTo, bind_eq_ok, Accounts.token_eq_ok, Accounts.mint_eq_ok, ensure_eq_ok,
    orFail_eq_ok, checkedAdd_eq_some, pure_eq_ok, exists_const] at hmint
  obtain ⟨dst, hdst, _, hold, m, hm, issuer, hissuer, rfl, hsigned, _, ⟨hroom, rfl⟩, _,
    ⟨hfits, rfl⟩, rfl⟩ := hmint
  by_cases hkey : mint' = mint
  · subst hkey
    cases hm.symm.trans hissued.issuer
    cases hissuer
    have hsupply : (supply + amount).toNat = supply.toNat + amount.toNat := toNat_add_of_lt hfits
    have hbalance := toNat_add_of_lt hroom
    refine .inr ⟨rfl, hsigned, hfits, hissued.reissue hdst hold hold ?_⟩
    show supply.toNat + (dst.amount + amount).toNat ≤ (supply + amount).toNat + dst.amount.toNat
    omega
  · exact .inl ⟨hkey, hissued.reissue_other hkey hdst hold hold hm⟩

theorem burn (hissued : Issued mint authority supply s)
    (hburn : s.burn signers mint' source authority' amount = .ok t) :
    mint' ≠ mint ∧ Issued mint authority supply t ∨
      mint' = mint ∧ amount ≤ supply ∧ Issued mint authority (supply - amount) t := by
  simp only [Accounts.burn, bind_eq_ok, Accounts.token_eq_ok, Accounts.mint_eq_ok, ensure_eq_ok,
    orFail_eq_ok, checkedSub_eq_some, pure_eq_ok, exists_const] at hburn
  obtain ⟨src, hsrc, m, hm, _, hfunds, hold, spent, hspent, _, ⟨hcovered, rfl⟩, rfl⟩ := hburn
  have hnew : spent.mint = mint' := (authorize_mint hspent).1.trans hold
  by_cases hkey : mint' = mint
  · subst hkey
    cases hm.symm.trans hissued.issuer
    have hsupply : (supply - amount).toNat + amount.toNat = supply.toNat := toNat_sub_add hcovered
    have hbalance := toNat_sub_add hfunds
    refine .inr ⟨rfl, hcovered, hissued.reissue hsrc hold ?_ ?_⟩
    · exact hnew
    · show supply.toNat + (src.amount - amount).toNat ≤ (supply - amount).toNat + src.amount.toNat
      omega
  · refine .inl ⟨hkey, hissued.reissue_other hkey hsrc hold ?_ hm⟩
    exact hnew

end Issued

/-! ### What others do -/

/-- Such a step does not touch the supply but to burn. -/
theorem Issued.tokenUse (hissued : Issued mint authority supply s)
    (hauthority : Derived runtime authority) (huse : TokenUse runtime s t) :
    ∃ left, left ≤ supply ∧ Issued mint authority left t := by
  cases huse with
  | transfer _ htransfer => exact ⟨supply, UInt64.le_refl _, hissued.transfer htransfer⟩
  | mintTo hsigners hmint =>
      obtain ⟨_, hafter⟩ | ⟨_, hsigned, _⟩ := hissued.mintTo hmint
      · exact ⟨supply, UInt64.le_refl _, hafter⟩
      · exact absurd hauthority (hsigners _ hsigned)
  | burn _ hburn =>
      obtain ⟨_, hafter⟩ | ⟨_, hcovered, hafter⟩ := hissued.burn hburn
      · exact ⟨supply, UInt64.le_refl _, hafter⟩
      · exact ⟨_, UInt64.sub_le hcovered, hafter⟩
  | createAccount hkey hvacant hempty =>
      refine ⟨supply, UInt64.le_refl _, hissued.write (hissued.ne_vacant hvacant) ?_⟩
      rw [hvacant]
      simp [coins, hempty]
  | createMint hkey hvacant =>
      refine ⟨supply, UInt64.le_refl _, hissued.write (hissued.ne_vacant hvacant) ?_⟩
      rw [hvacant]
      rfl
  | freeze _ hread | administer _ _ _ _ hread =>
      refine ⟨supply, UInt64.le_refl _, hissued.write (hissued.ne_token hread) ?_⟩
      rw [hread]
      rfl
  | closeAccount _ hread hempty =>
      refine ⟨supply, UInt64.le_refl _, hissued.update (hissued.ne_token hread) ?_⟩
      rw [hread]
      simp [coins, hempty]
  | setMintAuthority _ hissuer hread =>
      refine ⟨supply, UInt64.le_refl _, hissued.write ?_ ?_⟩
      · rintro rfl
        cases hread.symm.trans hissued.issuer
        exact hissuer _ rfl hauthority
      · rw [hread]
        rfl

/-! ### The assumption on other programmes -/

namespace Elsewhere

theorem refl (runtime : Runtime) (s : State) : Elsewhere runtime s s where
  records := .refl s
  vacant _ _ _ := id
  vaults _ _ _ v _ _ _ hread := ⟨v.amount, v.frozen, UInt64.le_refl _, hread⟩

theorem trans (hfirst : Elsewhere runtime s t) (hsecond : Elsewhere runtime t u) :
    Elsewhere runtime s u where
  records := hfirst.records.trans hsecond.records
  vacant seeds key hderived := hsecond.vacant seeds key hderived ∘ hfirst.vacant seeds key hderived
  vaults vaultSeeds seeds key v hkey howner hdelegate hread := by
    obtain ⟨amount, frozen, hle, hread'⟩ :=
      hfirst.vaults vaultSeeds seeds key v hkey howner hdelegate hread
    obtain ⟨amount', frozen', hle', hread''⟩ :=
      hsecond.vaults vaultSeeds seeds key { v with amount, frozen } hkey howner hdelegate hread'
    exact ⟨amount', frozen', UInt64.le_trans hle hle', hread''⟩

/-- A change of one account that is no record; where the programme keeps coins, they only grow. -/
theorem update {b : Option (Account Record)} (hold : ∀ d, s.read key ≠ some (.data d))
    (hnew : ∀ d, b ≠ some (.data d)) (hvacant : Derived runtime key → s.read key = none → b = none)
    (hvault : ∀ v, s.read key = some (.token v) → Derived runtime v.owner → v.delegate = none →
      ∃ amount frozen, v.amount ≤ amount ∧ b = some (.token { v with amount, frozen })) :
    Elsewhere runtime s ⟨Function.update s.read key b⟩ where
  records k d := by
    by_cases hk : k = key
    · subst hk
      show Function.update s.read k b k = _ ↔ _
      rw [Function.update_self]
      exact iff_of_false (hnew d) (hold d)
    · show Function.update s.read key b k = _ ↔ _
      rw [Function.update_of_ne hk]
  vacant seeds k hderived hnone := by
    show Function.update s.read key b k = none
    by_cases hk : k = key
    · subst hk
      rw [Function.update_self]
      exact hvacant ⟨seeds, hderived⟩ hnone
    · rw [Function.update_of_ne hk, hnone]
  vaults _ seeds k v _ howner hdelegate hread := by
    show ∃ amount frozen, _ ∧ Function.update s.read key b k = _
    by_cases hk : k = key
    · subst hk
      rw [Function.update_self]
      exact hvault v hread ⟨seeds, howner⟩ hdelegate
    · rw [Function.update_of_ne hk]
      exact ⟨v.amount, v.frozen, UInt64.le_refl _, hread⟩

/-- Coins come into an account. -/
theorem credit {v : TokenAccount} (hread : s.read key = some (.token v)) {credited : UInt64}
    (hle : v.amount ≤ credited) :
    Elsewhere runtime s (s.write key (.token { v with amount := credited })) := by
  refine update ?_ ?_ ?_ ?_
  · simp [hread]
  · simp
  · simp [hread]
  · intro w hw _ _
    cases hread.symm.trans hw
    exact ⟨credited, v.frozen, hle, rfl⟩

/-- An account changes that has a delegate, or that no address of the programme owns. -/
theorem spend {v w : TokenAccount} (hread : s.read key = some (.token v))
    (howner : Derived runtime v.owner → v.delegate ≠ none) :
    Elsewhere runtime s (s.write key (.token w)) := by
  refine update ?_ ?_ ?_ ?_
  · simp [hread]
  · simp
  · simp [hread]
  · intro w hw hderived hdelegate
    cases hread.symm.trans hw
    exact absurd hdelegate (howner hderived)

theorem writeMint {m m' : Mint} (hread : s.read key = some (.mint m)) :
    Elsewhere runtime s (s.write key (.mint m')) := by
  refine update ?_ ?_ ?_ ?_
  · simp [hread]
  · simp
  · simp [hread]
  · simp [hread]

end Elsewhere

/-- Who spends from an account without a delegate owns it. -/
theorem undelegated_owner {v w : TokenAccount} (hsigners : ∀ key ∈ signers, ¬ Derived runtime key)
    (hspent : v.authorize signers authority amount = .ok w) :
    Derived runtime v.owner → v.delegate ≠ none := by
  intro howner hdelegate
  rw [owner_of_authorize hdelegate hspent] at howner
  exact hsigners authority (authorize_mint hspent).2 howner

/-- What is assumed of other programmes covers every use of the token programme. -/
theorem TokenUse.elsewhere (huse : TokenUse runtime s t) : Elsewhere runtime s t := by
  cases huse with
  | transfer hsigners htransfer =>
      obtain ⟨src, dst, spent, hsrc, hdst, _, hspent, ⟨_, rfl⟩ | ⟨hself, hroom, rfl⟩⟩ :=
        transfer_eq_ok htransfer
      · exact .refl runtime _
      · refine (Elsewhere.spend hsrc (undelegated_owner hsigners hspent)).trans (.credit ?_ ?_)
        · rw [Accounts.read_write, if_neg hself.symm, hdst]
        · exact le_add_of_lt hroom
  | mintTo hsigners hmint =>
      simp only [Accounts.mintTo, bind_eq_ok, Accounts.token_eq_ok, Accounts.mint_eq_ok,
        ensure_eq_ok, orFail_eq_ok, checkedAdd_eq_some, pure_eq_ok, exists_const] at hmint
      obtain ⟨dst, hdst, _, _, m, hm, _, _, _, _, _, ⟨hroom, rfl⟩, _, _, rfl⟩ := hmint
      refine (Elsewhere.credit hdst (le_add_of_lt hroom)).trans (.writeMint (m := m) ?_)
      rw [Accounts.read_write, if_neg, hm]
      rintro rfl
      cases hm.symm.trans hdst
  | burn hsigners hburn =>
      obtain ⟨src, spent, m, _, hsrc, hm, hspent, rfl⟩ := burn_eq_ok hburn
      refine (Elsewhere.spend hsrc (undelegated_owner hsigners hspent)).trans (.writeMint (m := m) ?_)
      rw [Accounts.read_write, if_neg, hm]
      rintro rfl
      cases hm.symm.trans hsrc
  | createAccount hkey hvacant _ | createMint hkey hvacant =>
      refine Elsewhere.update ?_ ?_ ?_ ?_
      · simp [hvacant]
      · simp
      · intro hderived
        exact absurd hderived hkey
      · simp [hvacant]
  | freeze frozen hread =>
      refine Elsewhere.update ?_ ?_ ?_ ?_
      · simp [hread]
      · simp
      · simp [hread]
      · intro v hv _ _
        cases hread.symm.trans hv
        exact ⟨_, frozen, UInt64.le_refl _, rfl⟩
  | administer _ _ _ howner hread => exact .spend hread fun hderived => absurd hderived howner
  | closeAccount howner hread _ =>
      refine Elsewhere.update ?_ ?_ ?_ ?_
      · simp [hread]
      · simp
      · exact fun _ _ => rfl
      · intro v hv hderived _
        cases hread.symm.trans hv
        exact absurd hderived howner
  | setMintAuthority _ _ hread => exact .writeMint hread

/-! ### The books -/

/-- The configuration, and the supply of its mint. -/
structure Books (config : Pubkey) (cfg : ProgramConfig) (supply : UInt64) (s : State) : Prop where
  record : s.read config = some (.data (.config cfg))
  issued : Issued cfg.nmcMint config supply s

/-- The counters grew by these amounts, and the supply by no more than their difference. -/
structure Accounted (cfg : ProgramConfig) (supply : UInt64) (minted burnt : Nat)
    (cfg' : ProgramConfig) (supply' : UInt64) : Prop where
  nmcMint : cfg'.nmcMint = cfg.nmcMint
  totalMinted : cfg'.totalMinted.toNat = cfg.totalMinted.toNat + minted
  totalBurned : cfg'.totalBurned.toNat = cfg.totalBurned.toNat + burnt
  left : supply'.toNat + burnt ≤ supply.toNat + minted

/-- What a call mints if it goes through. -/
def Call.minted (c : Call) : Nat :=
  match c.instruction with
  | .bridgeMint _ amount _ => amount.toNat
  | _ => 0

/-- What a call burns if it goes through. -/
def Call.burnt (c : Call) : Nat :=
  match c.instruction with
  | .bridgeBurn _ amount => amount.toNat
  | _ => 0

namespace Books

/-- The books after an instruction that mints and burns nothing. -/
def Kept (cfg : ProgramConfig) (supply : UInt64) (config : Pubkey) (t : State) : Prop :=
  ∃ cfg' supply', Books config cfg' supply' t ∧ Accounted cfg supply 0 0 cfg' supply'

theorem ne_vacant (hbooks : Books config cfg supply s) (hvacant : s.read key = none) :
    key ≠ config := by
  rintro rfl
  cases hvacant.symm.trans hbooks.record

theorem kept (hbooks : Books config cfg supply s) : Kept cfg supply config s :=
  ⟨cfg, supply, hbooks, ⟨rfl, rfl, rfl, Nat.le_refl _⟩⟩

theorem sendAll {tx : Tx} {legs : List Transfer} (hbooks : Books config cfg supply s)
    (hsend : sendAll runtime tx legs s = .ok t) : Books config cfg supply t where
  record := (sendAll_sameRecords hsend config _).mpr hbooks.record
  issued := by
    refine sendAll_rel (R := fun s t => Issued cfg.nmcMint config supply s →
      Issued cfg.nmcMint config supply t) ?_ ?_ ?_ hsend hbooks.issued
    · exact fun _ => id
    · exact fun hfirst hsecond => hsecond ∘ hfirst
    · exact fun htransfer hissued => hissued.transfer htransfer

/-- A record that is not the configuration, where one was or where nothing was. -/
theorem write_record (hbooks : Books config cfg supply s) (hkey : key ≠ config) {d : Record}
    (hread : s.read key = none ∨ ∃ old, s.read key = some (.data old)) :
    Books config cfg supply (s.write key (.data d)) where
  record := by rw [Accounts.read_write, if_neg hkey.symm, hbooks.record]
  issued := by
    refine hbooks.issued.write ?_ ?_
    · rintro rfl
      rw [hbooks.issued.issuer] at hread
      simp at hread
    · obtain hvacant | ⟨old, hold⟩ := hread
      · rw [hvacant]
        rfl
      · rw [hold]
        rfl

theorem write_escrow (hbooks : Books config cfg supply s) {old new : JobEscrow}
    (hread : s.read key = some (.data (.escrow old))) :
    Books config cfg supply (s.write key (.data (.escrow new))) := by
  refine hbooks.write_record ?_ (.inr ⟨_, hread⟩)
  rintro rfl
  cases hread.symm.trans hbooks.record

theorem write_config (hbooks : Books config cfg supply s) {new : ProgramConfig}
    (hmint : new.nmcMint = cfg.nmcMint) :
    Books config new supply (s.write config (.data (.config new))) where
  record := by rw [Accounts.read_write, if_pos rfl]
  issued := by
    rw [hmint]
    refine hbooks.issued.write ?_ ?_
    · intro hkey
      have hissuer := hbooks.issued.issuer
      rw [← hkey, hbooks.record] at hissuer
      cases hissuer
    · rw [hbooks.record]
      rfl

/-- A new account without coins. -/
theorem create (hbooks : Books config cfg supply s) {v : TokenAccount} (hvacant : s.read key = none)
    (hempty : v.amount = 0) : Books config cfg supply (s.write key (.token v)) where
  record := by rw [Accounts.read_write, if_neg (hbooks.ne_vacant hvacant).symm, hbooks.record]
  issued := by
    refine hbooks.issued.write (hbooks.issued.ne_vacant hvacant) ?_
    rw [hvacant]
    simp [coins, hempty]

/-- One instruction. -/
theorem exec {c : Call} (hsound : ConfigsSound runtime s) (hbooks : Books config cfg supply s)
    (hexec : c.exec runtime s = .ok (transfers, t)) :
    ∃ cfg' supply', Books config cfg' supply' t ∧
      Accounted cfg supply c.minted c.burnt cfg' supply' := by
  obtain ⟨tx, instruction⟩ := c
  cases instruction with
  | initializeConfig a platformFeeBps bridgeMintLimit =>
      obtain ⟨bump, _, _, hfind, hvacant, _⟩ := initializeConfig_eq_ok hexec
      have hderived := (hsound config cfg hbooks.record).found
      cases hfind.symm.trans hderived
      cases hvacant.symm.trans hbooks.record
  | bridgeMint a amount nonce =>
      obtain ⟨cfg', n, u, hcfg, hnonce, _, _, _, hmint, _, _, _, _, _, hminted, htotal, _, rfl⟩ :=
        bridgeMint_eq_ok hexec
      obtain ⟨rfl, rfl⟩ := hsound.unique hbooks.record hcfg
      have hsame := Accounts.mintTo_sameRecords hminted
      obtain ⟨hother, _⟩ | ⟨_, _, hfits, hafter⟩ := hbooks.issued.mintTo hminted
      · exact absurd hmint hother
      · have hissued : Books a.config cfg' (supply + amount) u :=
          ⟨(hsame _ _).mpr hbooks.record, hafter⟩
        have hcounted : Books a.config { cfg' with totalMinted := cfg'.totalMinted + amount }
            (supply + amount) (u.write a.config (.data (.config { cfg' with
              totalMinted := cfg'.totalMinted + amount }))) := hissued.write_config rfl
        have hkey : a.bridgeNonce ≠ a.config := by
          intro hkey
          rw [hkey] at hnonce
          cases hnonce.symm.trans hcfg
        refine ⟨_, _, hcounted.write_record hkey (.inr ⟨.bridgeNonce n, ?_⟩),
          ⟨rfl, toNat_add_of_lt htotal, rfl, (toNat_add_of_lt hfits).le⟩⟩
        rw [Accounts.read_write, if_neg hkey, (hsame _ _).mpr hnonce]
  | bridgeBurn a amount =>
      obtain ⟨cfg', u, hcfg, _, _, hmint, hburned, htotal, _, rfl⟩ := bridgeBurn_eq_ok hexec
      obtain ⟨rfl, rfl⟩ := hsound.unique hbooks.record hcfg
      obtain ⟨hother, _⟩ | ⟨_, hcovered, hafter⟩ := hbooks.issued.burn hburned
      · exact absurd hmint hother
      · have hissued : Books a.config cfg' (supply - amount) u :=
          ⟨(Accounts.burn_sameRecords hburned _ _).mpr hbooks.record, hafter⟩
        exact ⟨{ cfg' with totalBurned := cfg'.totalBurned + amount }, supply - amount,
          hissued.write_config rfl, ⟨rfl, rfl, toNat_add_of_lt htotal, (toNat_sub_add hcovered).le⟩⟩
  | createEscrow a jobId lockedNmc pricePerHour maxDurationSecs =>
      obtain ⟨_, _, _, _, u, _, _, _, hvacant, _, ⟨hne, hvaultVacant⟩, _, _, _, _, hsend, rfl⟩ :=
        createEscrow_eq_ok hexec
      have hopened : Books config cfg supply (a.opened s) := by
        refine (hbooks.write_record (hbooks.ne_vacant hvacant) (.inl hvacant)).create ?_ rfl
        rw [Accounts.read_write, if_neg hne, hvaultVacant]
      have hzeroed : (a.opened s).read a.escrow = some (.data (.escrow .zeroed)) := by
        simp [CreateEscrow.opened, hne.symm]
      have hsame := (sendAll_sameRecords hsend _ _).mpr hzeroed
      exact ((hopened.sendAll hsend).write_escrow hsame).kept
  | lockEscrow a =>
      obtain ⟨esc, hesc, _, _, _, _, _, rfl⟩ := lockEscrow_eq_ok hexec
      exact (hbooks.write_escrow hesc).kept
  | releaseEscrow a actualCost =>
      obtain ⟨_, esc, u, _, hesc, _, _, _, _, hsend, rfl⟩ := releaseEscrow_eq_ok hexec
      have hsame := (sendAll_sameRecords hsend _ _).mpr hesc
      exact ((hbooks.sendAll hsend).write_escrow hsame).kept
  | cancelEscrow a =>
      obtain ⟨_, esc, u, _, hesc, _, _, _, hsend, rfl⟩ := cancelEscrow_eq_ok hexec
      have hsame := (sendAll_sameRecords hsend _ _).mpr hesc
      exact ((hbooks.sendAll hsend).write_escrow hsame).kept
  | updateConfig a platformFeeBps bridgeMintLimit =>
      obtain ⟨cfg', hcfg, _, _, _, _, _, rfl⟩ := updateConfig_eq_ok hexec
      obtain ⟨rfl, rfl⟩ := hsound.unique hbooks.record hcfg
      exact ⟨_, supply, hbooks.write_config rfl, ⟨rfl, rfl, rfl, Nat.le_refl _⟩⟩

end Books

/-! ### Runs -/

/-- Runs in which others use the token programme between the attempted instructions. -/
abbrev TokenRuns (runtime : Runtime) : State → List Attempted → State → Prop :=
  CallRun (tryCall (Call.exec runtime)) (TokenUse runtime)

/-- An amount of an attempt, which is nothing when it was refused. -/
def ifDone (amountOf : Call → Nat) (taken : Attempted) : Nat :=
  match taken.output with
  | .ok _ => amountOf taken.call
  | .error _ => 0

theorem Accounted.trans {cfg' cfg'' : ProgramConfig} {supply'' : UInt64}
    {minted minted' burnt burnt' : Nat} (hfirst : Accounted cfg supply minted burnt cfg' supply')
    (hsecond : Accounted cfg' supply' minted' burnt' cfg'' supply'') :
    Accounted cfg supply (minted + minted') (burnt + burnt') cfg'' supply'' where
  nmcMint := hsecond.nmcMint.trans hfirst.nmcMint
  totalMinted := by rw [hsecond.totalMinted, hfirst.totalMinted, Nat.add_assoc]
  totalBurned := by rw [hsecond.totalBurned, hfirst.totalBurned, Nat.add_assoc]
  left := by
    have hleft := hfirst.left
    have hleft' := hsecond.left
    omega

theorem run_books (hsound : ConfigsSound runtime s) (hbooks : Books config cfg supply s)
    (hrun : TokenRuns runtime s calls t) :
    ConfigsSound runtime t ∧ ∃ cfg' supply', Books config cfg' supply' t ∧
      Accounted cfg supply (totalOf (ifDone Call.minted) calls) (totalOf (ifDone Call.burnt) calls)
        cfg' supply' := by
  refine hrun.invariant (I := fun calls t => ConfigsSound runtime t ∧
    ∃ cfg' supply', Books config cfg' supply' t ∧ Accounted cfg supply
      (totalOf (ifDone Call.minted) calls) (totalOf (ifDone Call.burnt) calls) cfg' supply') ?_ ?_ ?_
  · exact ⟨hsound, hbooks.kept⟩
  · intro calls c t r u hbefore hattempt
    obtain ⟨hsound, cfg', supply', hbooks, haccounted⟩ := hbefore
    refine ⟨hsound.tryCall hattempt, ?_⟩
    rw [totalOf_concat, totalOf_concat]
    obtain ⟨transfers, rfl, hexec⟩ | ⟨e, rfl, _, rfl⟩ := tryCall_cases hattempt
    · obtain ⟨cfg'', supply'', hafter, hcall⟩ := hbooks.exec hsound hexec
      exact ⟨cfg'', supply'', hafter, haccounted.trans hcall⟩
    · exact ⟨cfg', supply', hbooks, haccounted⟩
  · intro calls t u hbefore huse
    obtain ⟨hsound, cfg', supply', hbooks, haccounted⟩ := hbefore
    refine ⟨hsound.elsewhere huse.elsewhere, ?_⟩
    have hderived : Derived runtime config :=
      ⟨_, Runtime.createProgramAddress_of_find (hsound config cfg' hbooks.record).found⟩
    obtain ⟨left, hle, hissued⟩ := hbooks.issued.tokenUse hderived huse
    refine ⟨cfg', left, ⟨(huse.elsewhere.records _ _).mpr hbooks.record, hissued⟩,
      haccounted.nmcMint, haccounted.totalMinted, haccounted.totalBurned, ?_⟩
    have hleft := haccounted.left
    have hle' : left.toNat ≤ supply'.toNat := UInt64.le_iff_toNat_le.mp hle
    omega

theorem sampleBridge_configs : ConfigsSound walletRuntime sampleBridge := by
  intro key cfg hread
  obtain ⟨rfl, rfl⟩ := sampleBridge_bridge.configs.unique sampleBridge_bridge.config hread
  exact ⟨by decide, by decide +kernel⟩

theorem sampleBridge_books : Books sampleConfig sampleConfigRecord 100 sampleBridge where
  record := sampleBridge_bridge.config
  issued := by
    constructor
    · decide +kernel
    · refine (Backs.zero 0).update 12 (fun key hkey => ?_) (by decide +kernel)
      show coins 1 (sampleBridge.read key) = 0
      simp only [sampleBridge, if_neg hkey]
      split_ifs <;> rfl

/-- A mint of ten coins. -/
def sampleMinted : State := stateAfter (Call.exec walletRuntime) [sampleMint 10 7] sampleBridge

/-- Then the wallet 2 burns four of its coins without the bridge. -/
def sampleThinned : State := ((sampleMinted.burn [2] 1 12 2 4).toOption).getD sampleMinted

theorem sampleThinned_use : TokenUse walletRuntime sampleMinted sampleThinned := by
  have hsome : (sampleMinted.burn [2] 1 12 2 4).toOption.isSome := by decide +kernel
  cases hburn : sampleMinted.burn [2] 1 12 2 4 with
  | error e =>
      rw [hburn] at hsome
      cases hsome
  | ok t =>
      have hthinned : sampleThinned = t := by
        rw [sampleThinned, hburn]
        rfl
      rw [hthinned]
      refine .burn (fun key hkey hderived => ?_) hburn
      rw [List.mem_singleton.mp hkey] at hderived
      have hlarge := walletRuntime_derived hderived
      exact absurd hlarge (by decide)

/-- And five with it. -/
def sampleBurn : Call := ⟨⟨[2], 1700000003⟩, .bridgeBurn ⟨sampleConfig, 1, 12, 2⟩ 5⟩

end NeuralMesh.Solana
