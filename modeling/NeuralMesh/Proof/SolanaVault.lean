import NeuralMesh.Proof.SolanaEscrow
import NeuralMesh.Proof.TokenBalances

/-!
# The vaults of the escrows

A vault holds what its escrow owes: everything while the escrow is live, nothing once it has ended.
The one thing that can break this is a settlement that pays into a vault. An escrow records whatever
account it is given for the provider, and the configuration whatever it is given for the fees, so
either may be a vault.
-/

namespace NeuralMesh.Solana

variable {runtime : Runtime} {tx : Tx} {s t u : State} {transfers : List Transfer}
  {calls : List Attempted} {taken : Attempted} {key escrow : Pubkey} {esc : JobEscrow}

/-! ### Addresses of the programme -/

/-- An address that the programme can sign for. -/
def Derived (runtime : Runtime) (key : Pubkey) : Prop :=
  ∃ seeds, runtime.createProgramAddress seeds = .ok key

/-- Nothing of the programme exists yet. -/
structure Fresh (runtime : Runtime) (s : State) : Prop where
  undeployed : Undeployed s
  vacant : ∀ key, Derived runtime key → s.read key = none

def IsVault (s : State) (key : Pubkey) : Prop :=
  ∃ escrow esc, s.read escrow = some (.data (.escrow esc)) ∧ esc.vault = key

/-- An escrow has a vault of its own, and was opened from an account that is none. -/
structure HasVault (runtime : Runtime) (s : State) (escrow : Pubkey) (esc : JobEscrow) : Prop where
  escrowDerived : Derived runtime escrow
  vaultDerived : Derived runtime esc.vault
  token : ∃ v, s.read esc.vault = some (.token v) ∧ v.owner = escrow ∧ v.delegate = none
  consumer : ¬ Derived runtime esc.consumerTokenAccount
  terms : esc.state = .settled → esc.feeCollected ≤ esc.actualCost ∧ esc.actualCost ≤ esc.lockedNmc

structure VaultsSound (runtime : Runtime) (s : State) : Prop where
  configs : ConfigsSound runtime s
  derived : ∀ key a, Derived runtime key → s.read key = some a → (∃ d, a = .data d) ∨ IsVault s key
  escrows : ∀ escrow esc, s.read escrow = some (.data (.escrow esc)) →
    HasVault runtime s escrow esc

theorem IsVault.congr (hsame : s.SameRecords t) : IsVault t key ↔ IsVault s key := by
  constructor
  · rintro ⟨escrow, esc, hread, hvault⟩
    exact ⟨escrow, esc, (hsame _ _).mp hread, hvault⟩
  · rintro ⟨escrow, esc, hread, hvault⟩
    exact ⟨escrow, esc, (hsame _ _).mpr hread, hvault⟩

namespace VaultsSound

theorem of_fresh (hfresh : Fresh runtime s) : VaultsSound runtime s where
  configs := .of_undeployed hfresh.undeployed
  derived := by
    intro key a hderived hread
    cases (hfresh.vacant key hderived).symm.trans hread
  escrows := fun escrow _ hread => absurd hread (hfresh.undeployed escrow _)

/-- Vaults are those of different escrows. -/
theorem vault_inj (hsound : VaultsSound runtime s) {escrow' : Pubkey} {esc' : JobEscrow}
    (hread : s.read escrow = some (.data (.escrow esc)))
    (hread' : s.read escrow' = some (.data (.escrow esc'))) (hvault : esc'.vault = esc.vault) :
    escrow' = escrow ∧ esc' = esc := by
  obtain ⟨v, hv, howner, _⟩ := (hsound.escrows _ _ hread).token
  obtain ⟨v', hv', howner', _⟩ := (hsound.escrows _ _ hread').token
  rw [hvault] at hv'
  cases hv.symm.trans hv'
  have hsame := howner'.symm.trans howner
  subst hsame
  cases hread.symm.trans hread'
  exact ⟨rfl, rfl⟩

theorem vault_derived (hsound : VaultsSound runtime s) (hvault : IsVault s key) :
    Derived runtime key := by
  obtain ⟨escrow, esc, hread, rfl⟩ := hvault
  exact (hsound.escrows _ _ hread).vaultDerived

/-- A vault is spent from under the signature of its escrow only. -/
theorem owner_derived (hsound : VaultsSound runtime s) (hvault : IsVault s key) {v w : TokenAccount}
    {signers : List Pubkey} {authority : Pubkey} {amount : UInt64}
    (hread : s.read key = some (.token v))
    (hauthorize : v.authorize signers authority amount = .ok w) : Derived runtime authority := by
  obtain ⟨escrow, esc, hesc, rfl⟩ := hvault
  have hhas := hsound.escrows _ _ hesc
  obtain ⟨v', hv', howner, hdelegate⟩ := hhas.token
  cases hv'.symm.trans hread
  rw [← owner_of_authorize hdelegate hauthorize, howner]
  exact hhas.escrowDerived

theorem moved (hsound : VaultsSound runtime s) (hmoved : Moved s t) : VaultsSound runtime t := by
  have hsame : s.SameRecords t := fun key d => ⟨hmoved.data_before, hmoved.data⟩
  refine ⟨hsound.configs.of_sameRecords hsame, ?_, ?_⟩
  · intro key a hderived hread
    cases hbefore : s.read key with
    | none => cases (hmoved.vacant hbefore).symm.trans hread
    | some b =>
        rcases hsound.derived key b hderived hbefore with ⟨d, rfl⟩ | hvault
        · cases (hmoved.data hbefore).symm.trans hread
          exact .inl ⟨d, rfl⟩
        · exact .inr ((IsVault.congr hsame).mpr hvault)
  · intro escrow esc hread
    have hhas := hsound.escrows escrow esc (hmoved.data_before hread)
    obtain ⟨v, hv, howner, hdelegate⟩ := hhas.token
    obtain ⟨w, hw, howner', hdelegate'⟩ := hmoved.token hv
    exact ⟨hhas.escrowDerived, hhas.vaultDerived, ⟨w, hw, howner'.trans howner, hdelegate' hdelegate⟩,
      hhas.consumer, hhas.terms⟩

/-- Writing a record over a record or nothing, when every escrow afterwards has its vault. -/
theorem write (hsound : VaultsSound runtime s) {d : Record}
    (hconfigs : ConfigsSound runtime (s.write key (.data d)))
    (hold : ∀ v, s.read key ≠ some (.token v))
    (hvaults : ∀ key', IsVault s key' → IsVault (s.write key (.data d)) key')
    (hnew : ∀ esc, d = .escrow esc → HasVault runtime s key esc) :
    VaultsSound runtime (s.write key (.data d)) := by
  refine ⟨hconfigs, ?_, ?_⟩
  · intro key' a hderived hread
    rcases Accounts.read_write_cases hread with ⟨-, rfl⟩ | ⟨-, hbefore⟩
    · exact .inl ⟨d, rfl⟩
    · exact (hsound.derived key' a hderived hbefore).imp_right (hvaults key')
  · have hkept : ∀ escrow esc, HasVault runtime s escrow esc →
        HasVault runtime (s.write key (.data d)) escrow esc := by
      intro escrow esc ⟨hescrow, hvault, ⟨v, hv, howner⟩, hconsumer, hterms⟩
      refine ⟨hescrow, hvault, ⟨v, ?_, howner⟩, hconsumer, hterms⟩
      rw [Accounts.read_write, if_neg]
      · exact hv
      · rintro rfl
        exact hold v hv
    intro escrow esc hread
    rcases Accounts.read_write_cases hread with ⟨rfl, hsame⟩ | ⟨-, hbefore⟩
    · cases hsame
      exact hkept escrow esc (hnew esc rfl)
    · exact hkept escrow esc (hsound.escrows escrow esc hbefore)

theorem write_config (hsound : VaultsSound runtime s) {cfg : ProgramConfig}
    (hcfg : ConfigSound runtime key cfg)
    (hold : s.read key = none ∨ ∃ old, s.read key = some (.data (.config old))) :
    VaultsSound runtime (s.write key (.data (.config cfg))) := by
  have hfree : ∀ esc, s.read key ≠ some (.data (.escrow esc)) := by
    intro esc hread
    rcases hold with hnone | ⟨old, hold⟩
    · cases hnone.symm.trans hread
    · cases hold.symm.trans hread
  apply hsound.write (hsound.configs.write_config hcfg)
  · intro v hread
    rcases hold with hnone | ⟨old, hold⟩
    · cases hnone.symm.trans hread
    · cases hold.symm.trans hread
  · rintro key' ⟨escrow, esc, hread, hvault⟩
    refine ⟨escrow, esc, ?_, hvault⟩
    rw [Accounts.read_write, if_neg]
    · exact hread
    · rintro rfl
      exact hfree esc hread
  · exact nofun

theorem write_escrow (hsound : VaultsSound runtime s) (new : JobEscrow)
    (hread : s.read key = some (.data (.escrow esc))) (hvault : new.vault = esc.vault)
    (hconsumer : new.consumerTokenAccount = esc.consumerTokenAccount)
    (hterms : new.state = .settled →
      new.feeCollected ≤ new.actualCost ∧ new.actualCost ≤ new.lockedNmc) :
    VaultsSound runtime (s.write key (.data (.escrow new))) := by
  have hhas := hsound.escrows key esc hread
  apply hsound.write (hsound.configs.write_other (by simp))
  · simp [hread]
  · rintro key' ⟨escrow, esc', hread', rfl⟩
    by_cases hkey : escrow = key
    · subst hkey
      cases hread.symm.trans hread'
      exact ⟨escrow, new, (Accounts.read_write _).trans (if_pos rfl), hvault⟩
    · exact ⟨escrow, esc', (Accounts.read_write _).trans ((if_neg hkey).trans hread'), rfl⟩
  · intro esc' hesc'
    cases hesc'
    exact ⟨hhas.escrowDerived, hvault ▸ hhas.vaultDerived, hvault ▸ hhas.token, hconsumer ▸ hhas.consumer, hterms⟩

theorem write_nonce (hsound : VaultsSound runtime s) {n : BridgeNonce} (n' : BridgeNonce)
    (hread : s.read key = some (.data (.bridgeNonce n))) :
    VaultsSound runtime (s.write key (.data (.bridgeNonce n'))) := by
  apply hsound.write (hsound.configs.write_other (by simp))
  · simp [hread]
  · rintro key' ⟨escrow, esc, hread', hvault⟩
    refine ⟨escrow, esc, ?_, hvault⟩
    rw [Accounts.read_write, if_neg]
    · exact hread'
    · rintro rfl
      cases hread.symm.trans hread'
  · exact nofun

end VaultsSound

/-! ### Balances -/

/-- What the vault of an escrow is to hold. -/
def JobEscrow.owed (esc : JobEscrow) : Nat :=
  match esc.state with
  | .open | .locked => esc.lockedNmc.toNat
  | .settled | .cancelled => 0

def Conserved (s : State) : Prop :=
  ∀ escrow esc, s.read escrow = some (.data (.escrow esc)) →
    ∃ v, s.read esc.vault = some (.token v) ∧ v.amount.toNat = esc.owed

theorem VaultsSound.conserved_iff (hsound : VaultsSound runtime s) :
    Conserved s ↔
      ∀ escrow esc, s.read escrow = some (.data (.escrow esc)) → amountAt s esc.vault = esc.owed := by
  constructor
  · intro hconserved escrow esc hread
    obtain ⟨v, hv, hamount⟩ := hconserved escrow esc hread
    rw [amountAt_of_token hv, hamount]
  · intro hall escrow esc hread
    obtain ⟨v, hv, _⟩ := (hsound.escrows escrow esc hread).token
    exact ⟨v, hv, by rw [← amountAt_of_token hv, hall escrow esc hread]⟩

/-- Steps that leave the escrows and the vaults alone. -/
theorem Conserved.frame (hconserved : Conserved s) (hsound : VaultsSound runtime s)
    (hafter : VaultsSound runtime t)
    (hescrows : ∀ escrow esc, t.read escrow = some (.data (.escrow esc)) →
      s.read escrow = some (.data (.escrow esc)))
    (hamounts : ∀ key, IsVault s key → amountAt t key = amountAt s key) : Conserved t := by
  rw [hafter.conserved_iff]
  intro escrow esc hread
  have hbefore := hescrows escrow esc hread
  rw [hamounts esc.vault ⟨escrow, esc, hbefore, rfl⟩]
  exact hsound.conserved_iff.mp hconserved escrow esc hbefore

/-- Only the vault of the escrow written can be out of step with it. -/
theorem VaultsSound.conserved_write_iff {new : JobEscrow}
    (hafter : VaultsSound runtime (u.write key (.data (.escrow new))))
    (hold : ∀ v, u.read key ≠ some (.token v)) :
    Conserved (u.write key (.data (.escrow new))) ↔
      amountAt u new.vault = new.owed ∧
        ∀ escrow esc, escrow ≠ key → u.read escrow = some (.data (.escrow esc)) →
          amountAt u esc.vault = esc.owed := by
  have hamount : ∀ vault, amountAt (u.write key (.data (.escrow new))) vault = amountAt u vault :=
    fun _ => amountAt_write hold nofun
  rw [hafter.conserved_iff]
  constructor
  · intro hall
    constructor
    · rw [← hamount]
      exact hall key new ((Accounts.read_write _).trans (if_pos rfl))
    · intro escrow esc hne hread
      rw [← hamount]
      exact hall escrow esc ((Accounts.read_write _).trans ((if_neg hne).trans hread))
  · rintro ⟨hnew, hothers⟩ escrow esc hread
    rw [hamount]
    rw [Accounts.read_write] at hread
    split at hread
    · cases hread
      exact hnew
    · rename_i hne
      exact hothers escrow esc hne hread

/-! ### Payments of a settlement -/

theorem paidInto_split (key : Pubkey) (legs : List Transfer) :
    paidInto (· = key) legs + paidInto (· ≠ key) legs = (legs.map (·.amount.toNat)).sum := by
  induction legs with
  | nil => rfl
  | cons leg legs ih =>
      rw [paidInto_cons, paidInto_cons, List.map_cons, List.sum_cons, ← ih]
      by_cases hdest : leg.dest = key
      · rw [if_pos hdest, if_neg (not_not_intro hdest)]
        omega
      · rw [if_neg hdest, if_pos hdest]
        omega

/-- Leaving out empty payments changes no sum. -/
theorem sum_nonempty (legs : List Transfer) :
    ((legs.filter fun leg => 0 < leg.amount).map (·.amount.toNat)).sum =
      (legs.map (·.amount.toNat)).sum := by
  induction legs with
  | nil => rfl
  | cons leg legs ih =>
      rw [List.filter_cons, List.map_cons, List.sum_cons, ← ih]
      split
      · rw [List.map_cons, List.sum_cons]
      · rename_i hempty
        have hzero : ¬ 0 < leg.amount.toNat := fun h =>
          hempty (decide_eq_true (UInt64.lt_iff_toNat_lt.mpr h))
        omega

section Legs

variable {a : ReleaseEscrow} {actualCost : UInt64} {cfg : ProgramConfig}

/-- A settlement pays out exactly what was locked. -/
theorem sum_legs (hcap : cfg.platformFeeBps ≤ maxFeeBps)
    (hfits : actualCost.toNat * cfg.platformFeeBps.toNat < 2 ^ 64)
    (hcost : actualCost ≤ esc.lockedNmc) :
    ((a.legs actualCost cfg esc).map (·.amount.toNat)).sum = esc.lockedNmc.toNat := by
  have hfee := feeOf_le hcap hfits
  have hprovider := UInt64.toNat_sub_of_le _ _ hfee
  have hrefund := UInt64.toNat_sub_of_le _ _ hcost
  rw [UInt64.le_iff_toNat_le] at hfee hcost
  rw [ReleaseEscrow.legs, settlementLegs, sum_nonempty]
  simp only [JobEscrow.payment, List.map_cons, List.map_nil, List.sum_cons, List.sum_nil, hprovider,
    hrefund]
  omega

theorem legs_source : ∀ leg ∈ a.legs actualCost cfg esc, leg.source = a.vault := by
  intro leg hmem
  rcases mem_legs.mp hmem with ⟨_, rfl⟩ | ⟨_, rfl⟩ | ⟨_, rfl⟩ <;> rfl

theorem legs_pos : ∀ leg ∈ a.legs actualCost cfg esc, 0 < leg.amount := by
  intro leg hmem
  rcases mem_legs.mp hmem with ⟨hpos, rfl⟩ | ⟨hpos, rfl⟩ | ⟨hpos, rfl⟩ <;> exact hpos

end Legs

/-! ### Who calls, and how -/

/-- The caller signs with wallets, passes the accounts an escrow records, and mints into no vault. -/
structure Careful (runtime : Runtime) (c : Call) (s : State) : Prop where
  signers : ∀ key ∈ c.tx.signers, ¬ Derived runtime key
  released : ∀ a actualCost esc, c.instruction = .releaseEscrow a actualCost →
    s.read a.escrow = some (.data (.escrow esc)) →
    a.vault = esc.vault ∧ a.providerTokenAccount = esc.providerTokenAccount ∧
      a.consumerTokenAccount = esc.consumerTokenAccount
  cancelled : ∀ a esc, c.instruction = .cancelEscrow a →
    s.read a.escrow = some (.data (.escrow esc)) →
    a.vault = esc.vault ∧ a.consumerTokenAccount = esc.consumerTokenAccount
  minted : ∀ a amount nonce, c.instruction = .bridgeMint a amount nonce →
    ¬ IsVault s a.recipientTokenAccount

/-- Other programmes leave the balances of the vaults alone too. -/
structure Quiet (runtime : Runtime) (s t : State) : Prop extends Elsewhere runtime s t where
  balances : ∀ key v w, IsVault s key → s.read key = some (.token v) →
    t.read key = some (.token w) → w.amount = v.amount

/-- Unless it is refused, a settlement pays nothing into a vault: neither the provider's part nor
the fee. -/
def SparesVaults (runtime : Runtime) (c : Call) (s : State) : Prop :=
  ∀ a actualCost cfg esc, c.instruction = .releaseEscrow a actualCost →
    s.read a.config = some (.data (.config cfg)) →
    s.read a.escrow = some (.data (.escrow esc)) → esc.state = .locked →
    actualCost ≤ esc.lockedNmc → a.Accepted runtime c.tx actualCost cfg esc s →
    (0 < actualCost → ¬ IsVault s esc.providerTokenAccount) ∧
    (0 < feeOf actualCost cfg.platformFeeBps → ¬ IsVault s cfg.feeCollector)

/-! ### Opening an escrow -/

theorem transfer_of_sendAll {leg : Transfer} (hsend : sendAll runtime tx [leg] s = .ok t) :
    ∃ signers, s.transfer signers leg.source leg.dest leg.authority leg.amount = .ok t := by
  simp only [sendAll, send, bind_eq_ok, mapError_eq_ok] at hsend
  obtain ⟨_, ⟨derived, _, htransfer⟩, hdone⟩ := hsend
  cases hdone
  exact ⟨_, htransfer⟩

section Opened

variable {a : CreateEscrow}

theorem opened_vault :
    (a.opened s).read a.vault = some (.token ⟨a.nmcMint, a.escrow, 0, none, 0, false⟩) := by
  rw [CreateEscrow.opened, Accounts.read_write, if_pos rfl]

theorem opened_escrow (hne : a.vault ≠ a.escrow) :
    (a.opened s).read a.escrow = some (.data (.escrow .zeroed)) := by
  rw [CreateEscrow.opened, Accounts.read_write, if_neg hne.symm, Accounts.read_write, if_pos rfl]

theorem opened_other (hvault : key ≠ a.vault) (hescrow : key ≠ a.escrow) :
    (a.opened s).read key = s.read key := by
  rw [CreateEscrow.opened, Accounts.read_write, if_neg hvault, Accounts.read_write, if_neg hescrow]

theorem opened_old (hvacant : s.read a.escrow = none) (hvaultVacant : s.read a.vault = none)
    {b : Account Record} (hread : s.read key = some b) : key ≠ a.vault ∧ key ≠ a.escrow := by
  constructor
  · rintro rfl
    cases hvaultVacant.symm.trans hread
  · rintro rfl
    cases hvacant.symm.trans hread

/-- The consumer pays from an account of its own, so from no vault. -/
theorem deposit_source (hsound : VaultsSound runtime s) (hne : a.vault ≠ a.escrow)
    (hescrow : Derived runtime a.escrow) (hsigner : ¬ Derived runtime a.consumer) {amount : UInt64}
    (hsend : sendAll runtime tx [a.deposit amount] (a.opened s) = .ok u) :
    ¬ Derived runtime a.consumerTokenAccount := by
  intro hderived
  obtain ⟨signers, htransfer⟩ := transfer_of_sendAll hsend
  obtain ⟨src, _, spent, hsrc, _, _, hspent, _⟩ := transfer_eq_ok htransfer
  have hsrc' : (a.opened s).read a.consumerTokenAccount = some (.token src) := hsrc
  by_cases hvault : a.consumerTokenAccount = a.vault
  · rw [hvault, opened_vault] at hsrc'
    cases hsrc'
    have howner : a.escrow = a.consumer := owner_of_authorize rfl hspent
    exact hsigner (howner ▸ hescrow)
  · by_cases hrecord : a.consumerTokenAccount = a.escrow
    · rw [hrecord, opened_escrow hne] at hsrc'
      cases hsrc'
    · rw [opened_other hvault hrecord] at hsrc'
      rcases hsound.derived _ _ hderived hsrc' with ⟨d, hd⟩ | hisVault
      · cases hd
      · exact hsigner (hsound.owner_derived hisVault hsrc' hspent)

/-- A new escrow with its vault. -/
theorem VaultsSound.opened (hsound : VaultsSound runtime s) (esc : JobEscrow)
    (hvacant : s.read a.escrow = none)
    (hvaultVacant : s.read a.vault = none) (hne : a.vault ≠ a.escrow)
    (hescrow : Derived runtime a.escrow) (hvault : Derived runtime a.vault)
    (hmoved : Moved (a.opened s) u) (hstate : esc.state = .open) (hesc : esc.vault = a.vault)
    (hconsumer : ¬ Derived runtime esc.consumerTokenAccount)
    (hconfigs : ConfigsSound runtime (u.write a.escrow (.data (.escrow esc)))) :
    VaultsSound runtime (u.write a.escrow (.data (.escrow esc))) := by
  have hkept : ∀ escrow' esc', s.read escrow' = some (.data (.escrow esc')) →
      (u.write a.escrow (.data (.escrow esc))).read escrow' = some (.data (.escrow esc')) := by
    intro escrow' esc' hread
    obtain ⟨hneVault, hneEscrow⟩ := opened_old hvacant hvaultVacant hread
    rw [Accounts.read_write, if_neg hneEscrow]
    apply hmoved.data
    rw [opened_other hneVault hneEscrow, hread]
  have hnew : (u.write a.escrow (.data (.escrow esc))).read a.escrow = some (.data (.escrow esc)) :=
    (Accounts.read_write _).trans (if_pos rfl)
  refine ⟨hconfigs, ?_, ?_⟩
  · intro key b hderived hread
    by_cases hkey : key = a.vault
    · exact .inr ⟨a.escrow, esc, hnew, hesc.trans hkey.symm⟩
    · rcases Accounts.read_write_cases hread with ⟨-, rfl⟩ | ⟨hkey', hread⟩
      · exact .inl ⟨_, rfl⟩
      · have hopened := opened_other (s := s) hkey hkey'
        cases hbefore : s.read key with
        | none =>
            rw [hbefore] at hopened
            cases (hmoved.vacant hopened).symm.trans hread
        | some c =>
            rw [hbefore] at hopened
            rcases hsound.derived key c hderived hbefore with ⟨d, rfl⟩ | ⟨escrow', esc', hesc', hv⟩
            · cases (hmoved.data hopened).symm.trans hread
              exact .inl ⟨d, rfl⟩
            · exact .inr ⟨escrow', esc', hkept _ _ hesc', hv⟩
  · intro escrow' esc' hread
    rcases Accounts.read_write_cases hread with ⟨hkey, hsame⟩ | ⟨hkey, hread⟩
    · cases hsame
      obtain ⟨w, hw, howner, hdelegate⟩ := hmoved.token opened_vault
      refine ⟨hkey ▸ hescrow, hesc ▸ hvault, ⟨w, ?_, hkey ▸ howner, hdelegate rfl⟩, hconsumer, ?_⟩
      · rw [hesc, Accounts.read_write, if_neg hne, hw]
      · rw [hstate]
        exact nofun
    · have hopened := hmoved.data_before hread
      have hkey' : escrow' ≠ a.vault := by
        rintro rfl
        cases opened_vault.symm.trans hopened
      rw [opened_other hkey' hkey] at hopened
      obtain ⟨hderived, hvault', ⟨v, hv, howner, hdelegate⟩, hconsumer', hterms⟩ :=
        hsound.escrows escrow' esc' hopened
      obtain ⟨hneVault, hneEscrow⟩ := opened_old hvacant hvaultVacant hv
      obtain ⟨w, hw, howner', hdelegate'⟩ :=
        hmoved.token ((opened_other hneVault hneEscrow).trans hv)
      refine ⟨hderived, hvault', ⟨w, ?_, howner'.trans howner, hdelegate' hdelegate⟩, hconsumer',
        hterms⟩
      rw [Accounts.read_write, if_neg hneEscrow, hw]

/-- The vault of the new escrow holds the deposit, and the others are as they were. -/
theorem Conserved.opened (hconserved : Conserved s) (hsound : VaultsSound runtime s)
    (hvacant : s.read a.escrow = none) (hvaultVacant : s.read a.vault = none)
    (hne : a.vault ≠ a.escrow) (hconsumer : ¬ Derived runtime a.consumerTokenAccount)
    (hvault : Derived runtime a.vault)
    (hsend : sendAll runtime tx [a.deposit esc.lockedNmc] (a.opened s) = .ok u)
    (hstate : esc.state = .open) (hesc : esc.vault = a.vault)
    (hafter : VaultsSound runtime (u.write a.escrow (.data (.escrow esc)))) :
    Conserved (u.write a.escrow (.data (.escrow esc))) := by
  have hmoved := sendAll_moved hsend
  obtain ⟨signers, htransfer⟩ := transfer_of_sendAll hsend
  have hself : a.consumerTokenAccount ≠ a.vault := fun h => hconsumer (h ▸ hvault)
  rw [hafter.conserved_write_iff (by simp [hmoved.data (opened_escrow hne)])]
  constructor
  · have hpaid : amountAt u a.vault = amountAt (a.opened s) a.vault + esc.lockedNmc.toNat :=
      amountAt_dest htransfer hself
    rw [hesc, hpaid, amountAt_of_token opened_vault, JobEscrow.owed, hstate]
    exact Nat.zero_add _
  · intro escrow' esc' hne' hread
    have hopened := hmoved.data_before hread
    have hkey : escrow' ≠ a.vault := by
      rintro rfl
      cases opened_vault.symm.trans hopened
    rw [opened_other hkey hne'] at hopened
    have hhas := hsound.escrows escrow' esc' hopened
    obtain ⟨v, hv, _⟩ := hhas.token
    obtain ⟨hneVault, hneEscrow⟩ := opened_old hvacant hvaultVacant hv
    have hsource : esc'.vault ≠ a.consumerTokenAccount := fun h => hconsumer (h ▸ hhas.vaultDerived)
    have hsame : amountAt u esc'.vault = amountAt (a.opened s) esc'.vault :=
      amountAt_elsewhere htransfer hsource hneVault
    rw [hsame, amountAt_congr (opened_other hneVault hneEscrow)]
    exact hsound.conserved_iff.mp hconserved escrow' esc' hopened

end Opened

/-! ### One instruction -/

/-- The invariant after the instruction, and the balances with it. -/
def KeepsVaults (runtime : Runtime) (s t : State) : Prop :=
  VaultsSound runtime t ∧ (Conserved s → Conserved t)

theorem keepsVaults_create {a : CreateEscrow} {jobId : String} {lockedNmc pricePerHour : UInt64}
    {maxDurationSecs : UInt32} (hsound : VaultsSound runtime s)
    (hsigners : ∀ key ∈ tx.signers, ¬ Derived runtime key)
    (hexec : createEscrow runtime tx a jobId lockedNmc pricePerHour maxDurationSecs s =
      .ok (transfers, t)) (hconfigs : ConfigsSound runtime t) : KeepsVaults runtime s t := by
  obtain ⟨cfg, bump, vaultBump, id, u, _, hsigner, hfind, hvacant, hfindVault, ⟨hne, hvaultVacant⟩,
    _, _, _, rfl, hsend, rfl⟩ := createEscrow_eq_ok hexec
  have hescrow : Derived runtime a.escrow := ⟨_, Runtime.createProgramAddress_of_find hfind⟩
  have hvault : Derived runtime a.vault := ⟨_, Runtime.createProgramAddress_of_find hfindVault⟩
  have hconsumer := deposit_source hsound hne hescrow (hsigners _ hsigner) hsend
  have hafter := hsound.opened
    { JobEscrow.zeroed with
      id
      consumer := a.consumer
      provider := a.provider
      lockedNmc
      pricePerHour
      maxDurationSecs
      state := .open
      consumerTokenAccount := a.consumerTokenAccount
      providerTokenAccount := a.providerTokenAccount
      vault := a.vault
      createdAt := tx.unixTimestamp
      bump } hvacant hvaultVacant hne hescrow hvault (sendAll_moved hsend) rfl rfl hconsumer hconfigs
  exact ⟨hafter, fun hconserved => hconserved.opened hsound hvacant hvaultVacant hne hconsumer hvault
    hsend rfl rfl hafter⟩

theorem keepsVaults_lock {a : LockEscrow} (hsound : VaultsSound runtime s)
    (hexec : lockEscrow runtime tx a s = .ok (transfers, t)) : KeepsVaults runtime s t := by
  obtain ⟨esc, hesc, _, _, _, hopen, _, rfl⟩ := lockEscrow_eq_ok hexec
  have hafter := hsound.write_escrow { esc with
    state := .locked
    deadline := tx.unixTimestamp + .ofNat esc.maxDurationSecs.toNat } hesc rfl rfl nofun
  refine ⟨hafter, fun hconserved => ?_⟩
  have hall := hsound.conserved_iff.mp hconserved
  rw [hafter.conserved_write_iff (by simp [hesc])]
  constructor
  · have hamount := hall a.escrow esc hesc
    rw [JobEscrow.owed, hopen] at hamount
    exact hamount
  · exact fun escrow' esc' _ hread => hall escrow' esc' hread

/-- What the vaults hold once an escrow has paid out all that it is owed. -/
theorem amountAt_paidOut {legs : List Transfer} (hsound : VaultsSound runtime s)
    (hconserved : Conserved s) (hesc : s.read key = some (.data (.escrow esc)))
    (hsource : ∀ leg ∈ legs, leg.source = esc.vault)
    (htotal : (legs.map (·.amount.toNat)).sum = esc.owed)
    (hsend : sendAll runtime tx legs s = .ok u) :
    amountAt u esc.vault = paidInto (· = esc.vault) legs ∧
      ∀ escrow esc', escrow ≠ key → s.read escrow = some (.data (.escrow esc')) →
        amountAt u esc'.vault = esc'.owed + paidInto (· = esc'.vault) legs := by
  have hall := hsound.conserved_iff.mp hconserved
  constructor
  · have hlost := sendAll_amountAt_source hsource hsend
    have hamount := hall key esc hesc
    rw [← paidInto_split esc.vault] at htotal
    omega
  · intro escrow esc' hne hread
    rw [← hall escrow esc' hread]
    apply sendAll_amountAt_dest hsource _ hsend
    exact fun hsame => hne (hsound.vault_inj hesc hread hsame).1

theorem keepsVaults_cancel {a : CancelEscrow} (hsound : VaultsSound runtime s)
    (haccounts : ∀ esc, s.read a.escrow = some (.data (.escrow esc)) →
      a.vault = esc.vault ∧ a.consumerTokenAccount = esc.consumerTokenAccount)
    (hexec : cancelEscrow runtime tx a s = .ok (transfers, t)) : KeepsVaults runtime s t := by
  obtain ⟨cfg, esc, u, _, hesc, hlive, _, rfl, hsend, rfl⟩ := cancelEscrow_eq_ok hexec
  obtain ⟨hvault, hconsumer⟩ := haccounts esc hesc
  have hmoved := sendAll_moved hsend
  have hhas := hsound.escrows _ _ hesc
  have hesc' := hmoved.data hesc
  have hafter := (hsound.moved hmoved).write_escrow { esc with state := .cancelled } hesc'
    rfl rfl nofun
  refine ⟨hafter, fun hconserved => ?_⟩
  have htotal : ([esc.payment a.escrow a.vault a.consumerTokenAccount esc.lockedNmc].map
      (·.amount.toNat)).sum = esc.owed := by
    rw [JobEscrow.owed]
    rcases hlive with hstate | hstate <;> rw [hstate] <;> rfl
  obtain ⟨hown, hothers⟩ := amountAt_paidOut hsound hconserved hesc
    (List.forall_mem_singleton.mpr hvault) htotal hsend
  -- The consumer has its own account, so nothing comes back into a vault.
  have hnone : ∀ vault, Derived runtime vault → paidInto (· = vault)
      [esc.payment a.escrow a.vault a.consumerTokenAccount esc.lockedNmc] = 0 := by
    intro vault hderived
    rw [paidInto_cons, if_neg]
    · rfl
    · intro hsame
      have hself : a.consumerTokenAccount = vault := hsame
      exact hhas.consumer (by rwa [← hconsumer, hself])
  rw [hafter.conserved_write_iff (by simp [hesc'])]
  constructor
  · exact hown.trans (hnone _ hhas.vaultDerived)
  · intro escrow' esc'' hne hread
    have hbefore := hmoved.data_before hread
    rw [hothers escrow' esc'' hne hbefore,
      hnone _ (hsound.escrows escrow' esc'' hbefore).vaultDerived, Nat.add_zero]

theorem keepsVaults_config (key : Pubkey) (cfg : ProgramConfig) (hsound : VaultsSound runtime s)
    (hmoved : Moved s u) (hamounts : ∀ key, IsVault s key → amountAt u key = amountAt s key)
    (hcfg : ConfigSound runtime key cfg)
    (hold : u.read key = none ∨ ∃ old, u.read key = some (.data (.config old))) :
    KeepsVaults runtime s (u.write key (.data (.config cfg))) := by
  have hafter := (hsound.moved hmoved).write_config hcfg hold
  refine ⟨hafter, fun hconserved => hconserved.frame hsound hafter ?_ ?_⟩
  · intro escrow esc hread
    rw [Accounts.read_write] at hread
    split at hread
    · cases hread
    · exact hmoved.data_before hread
  · intro key' hvault
    rw [← hamounts key' hvault]
    apply amountAt_write
    · intro v hread
      rcases hold with hnone | ⟨old, hold⟩
      · cases hnone.symm.trans hread
      · cases hold.symm.trans hread
    · exact nofun

theorem keepsVaults_mint {a : BridgeMint} {amount nonce : UInt64} (hsound : VaultsSound runtime s)
    (hrecipient : ¬ IsVault s a.recipientTokenAccount)
    (hexec : bridgeMint runtime tx a amount nonce s = .ok (transfers, t)) :
    KeepsVaults runtime s t := by
  obtain ⟨cfg, nonceAcc, u, hcfg, hnonce, _, _, _, _, _, _, _, _, _, hminted, _, _, rfl⟩ :=
    bridgeMint_eq_ok hexec
  have hmoved := mintTo_moved hminted
  have hold := hsound.configs a.config cfg hcfg
  obtain ⟨hconfig, hkept⟩ := keepsVaults_config a.config
    { cfg with totalMinted := cfg.totalMinted + amount } hsound hmoved
    (fun key hvault => mintTo_amountAt hminted fun h => hrecipient (h ▸ hvault))
    ⟨hold.capped, hold.found⟩ (.inr ⟨cfg, hmoved.data hcfg⟩)
  have hread : (u.write a.config (.data (.config { cfg with
      totalMinted := cfg.totalMinted + amount }))).read a.bridgeNonce =
      some (.data (.bridgeNonce nonceAcc)) := by
    rw [Accounts.read_write, if_neg]
    · exact hmoved.data hnonce
    · intro h
      rw [h] at hnonce
      cases hcfg.symm.trans hnonce
  have hafter := hconfig.write_nonce { nonceAcc with nextNonce := nonce + 1 } hread
  refine ⟨hafter, fun hconserved => (hkept hconserved).frame hconfig hafter ?_ ?_⟩
  · intro escrow esc hesc
    rw [Accounts.read_write] at hesc
    split at hesc
    · cases hesc
    · exact hesc
  · exact fun key _ => amountAt_write (by rw [hread]; simp) nofun

theorem keepsVaults_burn {a : BridgeBurn} {amount : UInt64} (hsound : VaultsSound runtime s)
    (hsigners : ∀ key ∈ tx.signers, ¬ Derived runtime key)
    (hexec : bridgeBurn runtime tx a amount s = .ok (transfers, t)) : KeepsVaults runtime s t := by
  obtain ⟨cfg, u, hcfg, hsigner, _, _, hburned, _, _, rfl⟩ := bridgeBurn_eq_ok hexec
  have hmoved := burn_moved hburned
  have hold := hsound.configs a.config cfg hcfg
  apply keepsVaults_config _ _ hsound hmoved
  · intro key hvault
    apply burn_amountAt hburned
    -- A vault is burned from by no wallet.
    rintro rfl
    obtain ⟨src, _, _, _, hsrc, _, hspent, _⟩ := burn_eq_ok hburned
    exact hsigners _ hsigner (hsound.owner_derived hvault hsrc hspent)
  · exact ⟨hold.capped, hold.found⟩
  · exact .inr ⟨cfg, hmoved.data hcfg⟩

/-- Paying out all that an escrow is owed keeps the vaults in step exactly when none of it goes
back into one. -/
theorem paidOut_conserved_iff {legs : List Transfer} {new : JobEscrow}
    (hsound : VaultsSound runtime s) (hconserved : Conserved s)
    (hesc : s.read key = some (.data (.escrow esc)))
    (hsource : ∀ leg ∈ legs, leg.source = esc.vault) (hpos : ∀ leg ∈ legs, 0 < leg.amount)
    (htotal : (legs.map (·.amount.toNat)).sum = esc.owed)
    (hsend : sendAll runtime tx legs s = .ok u)
    (hafter : VaultsSound runtime (u.write key (.data (.escrow new))))
    (hvault : new.vault = esc.vault) (howed : new.owed = 0) :
    Conserved (u.write key (.data (.escrow new))) ↔ ∀ leg ∈ legs, ¬ IsVault s leg.dest := by
  have hmoved := sendAll_moved hsend
  obtain ⟨hown, hothers⟩ := amountAt_paidOut hsound hconserved hesc hsource htotal hsend
  rw [hafter.conserved_write_iff (by simp [hmoved.data hesc]), hvault, howed, hown,
    paidInto_eq_zero hpos]
  constructor
  · rintro ⟨hnone, hrest⟩ leg hmem ⟨escrow, esc', hread, hdest⟩
    by_cases hkey : escrow = key
    · rw [hkey] at hread
      cases hesc.symm.trans hread
      exact hnone leg hmem hdest.symm
    · have hamount := hrest escrow esc' hkey (hmoved.data hread)
      rw [hothers escrow esc' hkey hread] at hamount
      have hzero : paidInto (· = esc'.vault) legs = 0 := by omega
      exact (paidInto_eq_zero hpos).mp hzero leg hmem hdest.symm
  · intro hnone
    constructor
    · exact fun leg hmem hdest => hnone leg hmem ⟨key, esc, hesc, hdest.symm⟩
    · intro escrow esc' hkey hread
      have hbefore := hmoved.data_before hread
      have hzero : paidInto (· = esc'.vault) legs = 0 :=
        (paidInto_eq_zero hpos).mpr fun leg hmem hdest =>
          hnone leg hmem ⟨escrow, esc', hbefore, hdest.symm⟩
      rw [hothers escrow esc' hkey hbefore, hzero, Nat.add_zero]

/-- The refund goes to the consumer's own account, so the other two payments decide. -/
theorem legs_spare_iff {a : ReleaseEscrow} {actualCost : UInt64} {cfg : ProgramConfig}
    (hcap : cfg.platformFeeBps ≤ maxFeeBps)
    (hfits : actualCost.toNat * cfg.platformFeeBps.toNat < 2 ^ 64)
    (hconsumer : ¬ IsVault s a.consumerTokenAccount) :
    (∀ leg ∈ a.legs actualCost cfg esc, ¬ IsVault s leg.dest) ↔
      (0 < actualCost → ¬ IsVault s a.providerTokenAccount) ∧
      (0 < feeOf actualCost cfg.platformFeeBps → ¬ IsVault s a.feeCollector) := by
  have hpaid : 0 < actualCost - feeOf actualCost cfg.platformFeeBps ↔ 0 < actualCost := by
    rw [sub_pos_iff (feeOf_le hcap hfits)]
    exact ⟨fun h => UInt64.lt_of_le_of_lt UInt64.zero_le h, feeOf_lt hcap hfits⟩
  constructor
  · intro hnone
    constructor
    · exact fun hpos => hnone _ (mem_legs.mpr (.inl ⟨hpaid.mpr hpos, rfl⟩))
    · exact fun hpos => hnone _ (mem_legs.mpr (.inr (.inl ⟨hpos, rfl⟩)))
  · rintro ⟨hprovider, hcollector⟩ leg hmem
    rcases mem_legs.mp hmem with ⟨hpos, rfl⟩ | ⟨hpos, rfl⟩ | ⟨_, rfl⟩
    · exact hprovider (hpaid.mp hpos)
    · exact hcollector hpos
    · exact hconsumer

/-- A settlement keeps the vaults in step exactly when it pays into none of them. -/
theorem release_vaults {a : ReleaseEscrow} {actualCost : UInt64} (hsound : VaultsSound runtime s)
    (haccounts : ∀ esc, s.read a.escrow = some (.data (.escrow esc)) →
      a.vault = esc.vault ∧ a.providerTokenAccount = esc.providerTokenAccount ∧
        a.consumerTokenAccount = esc.consumerTokenAccount)
    (hexec : releaseEscrow runtime tx a actualCost s = .ok (transfers, t)) :
    VaultsSound runtime t ∧ (Conserved s →
      (Conserved t ↔ SparesVaults runtime ⟨tx, .releaseEscrow a actualCost⟩ s)) := by
  obtain ⟨cfg, esc, u, hcfg, hesc, hlocked, hcost, haccepted, rfl, hsend, rfl⟩ :=
    releaseEscrow_eq_ok hexec
  obtain ⟨hvault, hprovider, hconsumer⟩ := haccounts esc hesc
  have hcap := (hsound.configs a.config cfg hcfg).capped
  have hmoved := sendAll_moved hsend
  have hafter := (hsound.moved hmoved).write_escrow { esc with
    actualCost
    feeCollected := feeOf actualCost cfg.platformFeeBps
    state := .settled
    settledAt := tx.unixTimestamp } (hmoved.data hesc) rfl rfl fun _ =>
      ⟨feeOf_le hcap haccepted.fits, hcost⟩
  refine ⟨hafter, fun hconserved => ?_⟩
  have hsource : ∀ leg ∈ a.legs actualCost cfg esc, leg.source = esc.vault := by
    rw [← hvault]
    exact legs_source
  have htotal : ((a.legs actualCost cfg esc).map (·.amount.toNat)).sum = esc.owed := by
    rw [sum_legs hcap haccepted.fits hcost, JobEscrow.owed, hlocked]
  have hown : ¬ IsVault s a.consumerTokenAccount := by
    rw [hconsumer]
    exact fun hisVault => (hsound.escrows _ _ hesc).consumer (hsound.vault_derived hisVault)
  rw [paidOut_conserved_iff hsound hconserved hesc hsource legs_pos htotal hsend hafter rfl rfl,
    legs_spare_iff hcap haccepted.fits hown, hprovider, haccepted.collector]
  constructor
  · intro hspared a' cost' cfg' esc' hcall hcfg' hesc' _ _ _
    cases hcall
    cases hcfg.symm.trans hcfg'
    cases hesc.symm.trans hesc'
    exact hspared
  · exact fun hspares => hspares a actualCost cfg esc rfl hcfg hesc hlocked hcost haccepted

/-- Each instruction keeps the invariant, and the balances unless it pays into a vault. -/
theorem exec_vaults {c : Call} (hsound : VaultsSound runtime s) (hcareful : Careful runtime c s)
    (hexec : c.exec runtime s = .ok (transfers, t)) :
    VaultsSound runtime t ∧ (Conserved s → (Conserved t ↔ SparesVaults runtime c s)) := by
  have hconfigs := hsound.configs.exec hexec
  obtain ⟨tx, instruction⟩ := c
  have hother (hkeeps : KeepsVaults runtime s t)
      (hcall : ∀ a actualCost, instruction ≠ .releaseEscrow a actualCost) :
      VaultsSound runtime t ∧
        (Conserved s → (Conserved t ↔ SparesVaults runtime ⟨tx, instruction⟩ s)) :=
    ⟨hkeeps.1, fun hconserved => iff_of_true (hkeeps.2 hconserved)
      fun a actualCost _ _ hrelease => absurd hrelease (hcall a actualCost)⟩
  cases instruction with
  | initializeConfig a platformFeeBps bridgeMintLimit =>
      obtain ⟨bump, _, _, hfound, hvacant, hfee, _, rfl⟩ := initializeConfig_eq_ok hexec
      exact hother (keepsVaults_config _ _ hsound (.refl s) (fun _ _ => rfl) ⟨hfee, hfound⟩
        (.inl hvacant)) nofun
  | bridgeMint a amount nonce =>
      exact hother (keepsVaults_mint hsound (hcareful.minted a amount nonce rfl) hexec) nofun
  | bridgeBurn a amount => exact hother (keepsVaults_burn hsound hcareful.signers hexec) nofun
  | createEscrow a jobId lockedNmc pricePerHour maxDurationSecs =>
      exact hother (keepsVaults_create hsound hcareful.signers hexec hconfigs) nofun
  | lockEscrow a => exact hother (keepsVaults_lock hsound hexec) nofun
  | releaseEscrow a actualCost =>
      exact release_vaults hsound (fun esc => hcareful.released a actualCost esc rfl) hexec
  | cancelEscrow a =>
      exact hother (keepsVaults_cancel hsound (fun esc => hcareful.cancelled a esc rfl) hexec) nofun
  | updateConfig a platformFeeBps bridgeMintLimit =>
      obtain ⟨cfg, hcfg, _, _, _, hfee, _, rfl⟩ := updateConfig_eq_ok hexec
      have hold := hsound.configs a.config cfg hcfg
      refine hother (keepsVaults_config _ _ hsound (.refl s) (fun _ _ => rfl) ⟨?_, hold.found⟩
        (.inr ⟨cfg, hcfg⟩)) nofun
      cases platformFeeBps with
      | none => exact hold.capped
      | some fee => exact hfee fee rfl

/-! ### The states of an escrow -/

inductive EscrowState.Next : EscrowState → EscrowState → Prop
  | lock : Next .open .locked
  | settle : Next .locked .settled
  | withdraw : Next .open .cancelled
  | cancel : Next .locked .cancelled

/-- Every escrow stays, and its state with it or one move on; a new one is open. -/
structure Moves (s t : State) : Prop where
  old : ∀ escrow esc, s.read escrow = some (.data (.escrow esc)) →
    ∃ esc', t.read escrow = some (.data (.escrow esc')) ∧
      (esc'.state = esc.state ∨ EscrowState.Next esc.state esc'.state)
  new : ∀ escrow esc', t.read escrow = some (.data (.escrow esc')) →
    (∃ esc, s.read escrow = some (.data (.escrow esc))) ∨ esc'.state = .open

namespace Moves

theorem of_same (hsame : ∀ escrow esc, t.read escrow = some (.data (.escrow esc)) ↔
    s.read escrow = some (.data (.escrow esc))) : Moves s t where
  old := fun escrow esc hread => ⟨esc, (hsame escrow esc).mpr hread, .inl rfl⟩
  new := fun escrow esc hread => .inl ⟨esc, (hsame escrow esc).mp hread⟩

theorem refl (s : State) : Moves s s := of_same fun _ _ => Iff.rfl

theorem write {new : JobEscrow} (hothers : ∀ escrow esc, escrow ≠ key →
      (u.read escrow = some (.data (.escrow esc)) ↔ s.read escrow = some (.data (.escrow esc))))
    (hold : ∀ esc, s.read key = some (.data (.escrow esc)) →
      EscrowState.Next esc.state new.state)
    (hnew : (∃ esc, s.read key = some (.data (.escrow esc))) ∨ new.state = .open) :
    Moves s (u.write key (.data (.escrow new))) where
  old := by
    intro escrow esc hread
    by_cases hkey : escrow = key
    · subst hkey
      exact ⟨new, (Accounts.read_write _).trans (if_pos rfl), .inr (hold esc hread)⟩
    · refine ⟨esc, (Accounts.read_write _).trans ?_, .inl rfl⟩
      rw [if_neg hkey]
      exact (hothers escrow esc hkey).mpr hread
  new := by
    intro escrow esc' hread
    rcases Accounts.read_write_cases hread with ⟨rfl, hsame⟩ | ⟨hkey, hother⟩
    · cases hsame
      exact hnew
    · exact .inl ⟨esc', (hothers escrow esc' hkey).mp hother⟩

/-- The move of an escrow that is there. -/
theorem write_next {new : JobEscrow} (hsame : s.SameRecords u)
    (hread : s.read key = some (.data (.escrow esc))) (hnext : EscrowState.Next esc.state new.state) :
    Moves s (u.write key (.data (.escrow new))) := by
  apply write
  · exact fun escrow esc _ => hsame escrow _
  · intro esc' hread'
    cases hread.symm.trans hread'
    exact hnext
  · exact .inl ⟨esc, hread⟩

/-- Writing a record that is no escrow where none is. -/
theorem same_write (key : Pubkey) {d : Record} (hd : ∀ esc, d ≠ .escrow esc)
    (hfree : ∀ esc, s.read key ≠ some (.data (.escrow esc))) (escrow : Pubkey) (esc : JobEscrow) :
    (s.write key (.data d)).read escrow = some (.data (.escrow esc)) ↔
      s.read escrow = some (.data (.escrow esc)) := by
  rw [Accounts.read_write]
  split
  · rename_i hkey
    subst hkey
    refine iff_of_false (fun h => ?_) (hfree esc)
    exact hd esc (Account.data.inj (Option.some.inj h))
  · exact Iff.rfl

theorem exec {c : Call} (hexec : c.exec runtime s = .ok (transfers, t)) : Moves s t := by
  obtain ⟨tx, instruction⟩ := c
  cases instruction with
  | initializeConfig a platformFeeBps bridgeMintLimit =>
      obtain ⟨_, _, _, _, hvacant, _, _, rfl⟩ := initializeConfig_eq_ok hexec
      exact of_same (same_write _ (by simp) (by simp [hvacant]))
  | bridgeMint a amount nonce =>
      obtain ⟨cfg, nonceAcc, u, hcfg, hnonce, _, _, _, _, _, _, _, _, _, hminted, _, _, rfl⟩ :=
        bridgeMint_eq_ok hexec
      have hsame := Accounts.mintTo_sameRecords hminted
      have hconfig := same_write (s := u) a.config
        (d := .config { cfg with totalMinted := cfg.totalMinted + amount }) (by simp)
        (by simp [(hsame _ _).mpr hcfg])
      refine of_same fun escrow esc => ?_
      rw [same_write _ (by simp), hconfig, hsame]
      intro esc'
      rw [Ne, hconfig, hsame, hnonce]
      simp
  | bridgeBurn a amount =>
      obtain ⟨_, u, hcfg, _, _, _, hburned, _, _, rfl⟩ := bridgeBurn_eq_ok hexec
      have hsame := Accounts.burn_sameRecords hburned
      refine of_same fun escrow esc => ?_
      rw [same_write _ (by simp) (by simp [(hsame _ _).mpr hcfg]), hsame]
  | createEscrow a jobId lockedNmc pricePerHour maxDurationSecs =>
      obtain ⟨_, _, _, _, u, _, _, _, hvacant, _, ⟨hne, hvaultVacant⟩, _, _, _, _, hsend, rfl⟩ :=
        createEscrow_eq_ok hexec
      apply write
      · intro escrow esc hkey
        rw [sendAll_sameRecords hsend]
        by_cases hvault : escrow = a.vault
        · rw [hvault, opened_vault, hvaultVacant]
          simp
        · rw [opened_other hvault hkey]
      · simp [hvacant]
      · exact .inr rfl
  | lockEscrow a =>
      obtain ⟨esc, hesc, _, _, _, hopen, _, rfl⟩ := lockEscrow_eq_ok hexec
      exact write_next (.refl s) hesc (by rw [hopen]; exact .lock)
  | releaseEscrow a actualCost =>
      obtain ⟨_, esc, u, _, hesc, hlocked, _, _, _, hsend, rfl⟩ := releaseEscrow_eq_ok hexec
      exact write_next (sendAll_sameRecords hsend) hesc (by rw [hlocked]; exact .settle)
  | cancelEscrow a =>
      obtain ⟨_, esc, u, _, hesc, hlive, _, _, hsend, rfl⟩ := cancelEscrow_eq_ok hexec
      apply write_next (sendAll_sameRecords hsend) hesc
      rcases hlive with hstate | hstate
      · rw [hstate]
        exact .withdraw
      · rw [hstate]
        exact .cancel
  | updateConfig a platformFeeBps bridgeMintLimit =>
      obtain ⟨_, hcfg, _, _, _, _, _, rfl⟩ := updateConfig_eq_ok hexec
      exact of_same (same_write _ (by simp) (by simp [hcfg]))

end Moves

/-! ### A run -/

/-- What the escrows of a run are to keep to. -/
structure EscrowLaw (calls : List Attempted) (t : State) : Prop where
  conserved : Conserved t
  conservedAfter : ∀ taken ∈ calls, Conserved taken.after
  moves : ∀ taken ∈ calls, Moves taken.before taken.after
  terms : ∀ escrow esc, t.read escrow = some (.data (.escrow esc)) → esc.state = .settled →
    esc.feeCollected ≤ esc.actualCost ∧ esc.actualCost ≤ esc.lockedNmc
  failed : ∀ taken ∈ calls, ∀ e, taken.output = .error e → taken.after = taken.before

/-- Runs in which nobody else touches the balances of the vaults. -/
abbrev QuietRuns (runtime : Runtime) : State → List Attempted → State → Prop :=
  CallRun (tryCall (Call.exec runtime)) (Quiet runtime)

theorem Quiet.sound (hsound : VaultsSound runtime s) (hquiet : Quiet runtime s t) :
    VaultsSound runtime t := by
  have hsame := hquiet.records
  refine ⟨hsound.configs.of_sameRecords hsame, ?_, ?_⟩
  · intro key a ⟨seeds, hseeds⟩ hread
    cases hbefore : s.read key with
    | none => cases (hquiet.vacant seeds key hseeds hbefore).symm.trans hread
    | some b =>
        rcases hsound.derived key b ⟨seeds, hseeds⟩ hbefore with ⟨d, rfl⟩ | hvault
        · exact .inl ⟨d, Option.some.inj (hread.symm.trans ((hsame key d).mpr hbefore))⟩
        · exact .inr ((IsVault.congr hsame).mpr hvault)
  · intro escrow esc hread
    have hhas := hsound.escrows escrow esc ((hsame _ _).mp hread)
    obtain ⟨v, hv, howner, hdelegate⟩ := hhas.token
    obtain ⟨vaultSeeds, hvaultSeeds⟩ := hhas.vaultDerived
    obtain ⟨seeds, hseeds⟩ := hhas.escrowDerived
    obtain ⟨amount, frozen, _, hafter⟩ :=
      hquiet.vaults vaultSeeds seeds _ v hvaultSeeds (howner ▸ hseeds) hdelegate hv
    exact ⟨hhas.escrowDerived, hhas.vaultDerived, ⟨_, hafter, howner, hdelegate⟩, hhas.consumer,
      hhas.terms⟩

theorem Quiet.conserved (hsound : VaultsSound runtime s) (hquiet : Quiet runtime s t)
    (hconserved : Conserved s) : Conserved t := by
  have hafter := hquiet.sound hsound
  intro escrow esc hread
  have hbefore := (hquiet.records _ _).mp hread
  obtain ⟨v, hv, hamount⟩ := hconserved escrow esc hbefore
  obtain ⟨w, hw, _⟩ := (hafter.escrows escrow esc hread).token
  have hsame := hquiet.balances esc.vault v w ⟨escrow, esc, hbefore, rfl⟩ hv hw
  exact ⟨w, hw, by rw [hsame, hamount]⟩

/-- A settlement that is refused is not one that would pay into a vault. -/
theorem sparesVaults_of_refused {c : Call} {e : Failure} (hsound : VaultsSound runtime s)
    (hrefused : c.exec runtime s = .error e) : SparesVaults runtime c s := by
  intro a actualCost cfg esc hcall hcfg hesc hlocked hcost haccepted
  have hcap := (hsound.configs a.config cfg hcfg).capped
  obtain ⟨t, hrelease⟩ := releaseEscrow_of_accepted hcfg hesc hlocked hcost hcap haccepted
  rw [Call.exec, hcall] at hrefused
  cases hrefused.symm.trans hrelease

theorem exec_attempt {c : Call} {r : Except Failure (List Transfer)}
    (hsound : VaultsSound runtime s) (hcareful : Careful runtime c s)
    (hattempt : tryCall (Call.exec runtime) c s = .ok (r, t)) :
    VaultsSound runtime t ∧ (Conserved s → (Conserved t ↔ SparesVaults runtime c s)) := by
  rcases tryCall_cases hattempt with ⟨transfers, _, hexec⟩ | ⟨e, _, hrefused, rfl⟩
  · exact exec_vaults hsound hcareful hexec
  · exact ⟨hsound, fun hconserved =>
      iff_of_true hconserved (sparesVaults_of_refused hsound hrefused)⟩

/-- Balances in step after every instruction and instructions that spare the vaults go together. -/
theorem run_vaults (hfresh : Fresh runtime s) (hrun : QuietRuns runtime s calls t)
    (hcareful : ∀ taken ∈ calls, Careful runtime taken.call taken.before) :
    VaultsSound runtime t ∧
      ((∀ taken ∈ calls, SparesVaults runtime taken.call taken.before) →
        Conserved t ∧ ∀ taken ∈ calls, Conserved taken.after) ∧
      ((∀ taken ∈ calls, Conserved taken.after) →
        Conserved t ∧ ∀ taken ∈ calls, SparesVaults runtime taken.call taken.before) := by
  refine hrun.invariant (I := fun calls t =>
    (∀ taken ∈ calls, Careful runtime taken.call taken.before) → VaultsSound runtime t ∧
      ((∀ taken ∈ calls, SparesVaults runtime taken.call taken.before) →
        Conserved t ∧ ∀ taken ∈ calls, Conserved taken.after) ∧
      ((∀ taken ∈ calls, Conserved taken.after) →
        Conserved t ∧ ∀ taken ∈ calls, SparesVaults runtime taken.call taken.before))
    ?_ ?_ ?_ hcareful
  · have hstart : Conserved s := fun escrow _ hread => absurd hread (hfresh.undeployed escrow _)
    refine fun _ => ⟨.of_fresh hfresh, fun _ => ⟨hstart, ?_⟩, fun _ => ⟨hstart, ?_⟩⟩
    · exact List.forall_mem_nil _
    · exact List.forall_mem_nil _
  · intro calls c t r u ih hattempt hcareful
    rw [List.forall_mem_append, List.forall_mem_singleton] at hcareful
    obtain ⟨hsound, hforward, hback⟩ := ih hcareful.1
    obtain ⟨hafter, hstep⟩ := exec_attempt hsound hcareful.2 hattempt
    refine ⟨hafter, fun hspares => ?_, fun hall => ?_⟩
    · rw [List.forall_mem_append, List.forall_mem_singleton] at hspares
      obtain ⟨hconserved, hall⟩ := hforward hspares.1
      have hu := (hstep hconserved).mpr hspares.2
      exact ⟨hu, forall_mem_concat hall hu⟩
    · rw [List.forall_mem_append, List.forall_mem_singleton] at hall
      obtain ⟨hconserved, hspares⟩ := hback hall.1
      exact ⟨hall.2, forall_mem_concat hspares ((hstep hconserved).mp hall.2)⟩
  · intro calls t u ih hquiet hcareful
    obtain ⟨hsound, hforward, hback⟩ := ih hcareful
    refine ⟨hquiet.sound hsound, fun hspares => ?_, fun hall => ?_⟩
    · obtain ⟨hconserved, hall⟩ := hforward hspares
      exact ⟨hquiet.conserved hsound hconserved, hall⟩
    · obtain ⟨hconserved, hspares⟩ := hback hall
      exact ⟨hquiet.conserved hsound hconserved, hspares⟩

/-- In every run of careful callers in which nobody else sends anything to a vault, the escrows keep
the law exactly when no settlement pays the provider's part or the fee into a vault. -/
theorem escrowLaw_iff (hfresh : Fresh runtime s) (hrun : QuietRuns runtime s calls t)
    (hcareful : ∀ taken ∈ calls, Careful runtime taken.call taken.before) :
    EscrowLaw calls t ↔ ∀ taken ∈ calls, SparesVaults runtime taken.call taken.before := by
  obtain ⟨hsound, hforward, hback⟩ := run_vaults hfresh hrun hcareful
  constructor
  · exact fun hlaw => (hback hlaw.conservedAfter).2
  · intro hspares
    obtain ⟨hconserved, hall⟩ := hforward hspares
    refine ⟨hconserved, hall, ?_, fun escrow esc hread => (hsound.escrows escrow esc hread).terms, ?_⟩
    · intro taken hmem
      rcases tryCall_cases (hrun.exec_of_mem hmem) with ⟨_, _, hexec⟩ | ⟨_, _, _, hsame⟩
      · exact .exec hexec
      · rw [hsame]
        exact .refl _
    · intro taken hmem e hfailed
      rcases tryCall_cases (hrun.exec_of_mem hmem) with ⟨_, hok, _⟩ | ⟨_, _, _, hsame⟩
      · cases hok.symm.trans hfailed
      · exact hsame

/-! ### A sample run -/

/-- The addresses of the sample, with the wallets on the curve. -/
def walletRuntime : Runtime where
  digest := sampleRuntime.digest
  onCurve key := key.toNat < 100

theorem walletRuntime_derived (hderived : Derived walletRuntime key) : 100 ≤ key.toNat := by
  obtain ⟨seeds, hseeds⟩ := hderived
  simp only [Runtime.createProgramAddress, bind_eq_ok, ensure_eq_ok, pure_eq_ok, exists_const] at hseeds
  obtain ⟨_, _, hout, rfl⟩ := hseeds
  simpa [walletRuntime] using hout

theorem sampleStart_fresh : Fresh walletRuntime sampleStart where
  undeployed := sampleStart_undeployed
  vacant := by
    intro key hderived
    have hlarge := walletRuntime_derived hderived
    have hne : ∀ small : Pubkey, small.toNat < 100 → key ≠ small := by
      rintro small hsmall rfl
      omega
    show (if key = 1 then _ else _) = none
    rw [if_neg (hne 1 (by decide)), if_neg (hne 12 (by decide)), if_neg]
    rintro (hkey | hkey | hkey)
    · exact hne 13 (by decide) hkey
    · exact hne 14 (by decide) hkey
    · exact hne 15 (by decide) hkey

/-- The escrow of the sample, with this account for the provider. -/
def sampleCreateFor (providerTokenAccount : Pubkey) : Call :=
  ⟨⟨[2], 1700000001⟩, .createEscrow
    ⟨sampleConfig, sampleEscrow, 2, 3, 12, providerTokenAccount, sampleVault, 1⟩ "job-1" 40 10 3600⟩

def sampleLock : Call := ⟨⟨[3], 1700000002⟩, .lockEscrow ⟨sampleEscrow, 3⟩⟩

def sampleRelease (providerTokenAccount : Pubkey) : Call :=
  ⟨⟨[5], 1700000003⟩, .releaseEscrow
    ⟨sampleConfig, sampleEscrow, sampleVault, providerTokenAccount, 12, 15, 5⟩ 10⟩

/-- The programme is set up, and an escrow of 40 opened, locked and settled at 10. -/
def sampleSettlement (providerTokenAccount : Pubkey) : List Call :=
  [sampleInit, sampleCreateFor providerTokenAccount, sampleLock, sampleRelease providerTokenAccount]

def sampleSettled (providerTokenAccount : Pubkey) : State :=
  stateAfter (Call.exec walletRuntime) (sampleSettlement providerTokenAccount) sampleStart

/-- The chain when the escrow is locked. -/
def sampleLocked (providerTokenAccount : Pubkey) : State :=
  stateAfter (Call.exec walletRuntime)
    [sampleInit, sampleCreateFor providerTokenAccount, sampleLock] sampleStart

/-- The escrow then. -/
def sampleLockedJob (providerTokenAccount : Pubkey) : JobEscrow :=
  { sampleJob with state := .locked, deadline := 1700003602, providerTokenAccount }

theorem sampleLocked_escrow :
    (sampleLocked 13).read sampleEscrow = some (.data (.escrow (sampleLockedJob 13))) := by
  decide +kernel

theorem sampleLocked_escrow_self : (sampleLocked sampleVault).read sampleEscrow =
    some (.data (.escrow (sampleLockedJob sampleVault))) := by
  decide +kernel

theorem sampleSettlement_run (key : Pubkey) : QuietRuns walletRuntime sampleStart
    (attempts (Call.exec walletRuntime) (sampleSettlement key) sampleStart) (sampleSettled key) :=
  CallRun.attempts _ _ _ _

theorem sampleSettlement_careful
    (hesc : (sampleLocked key).read sampleEscrow = some (.data (.escrow (sampleLockedJob key)))) :
    ∀ taken ∈ attempts (Call.exec walletRuntime) (sampleSettlement key) sampleStart,
      Careful walletRuntime taken.call taken.before := by
  have hwallet : ∀ small : Pubkey, small.toNat < 100 → ¬ Derived walletRuntime small := by
    intro small hsmall hderived
    have hlarge := walletRuntime_derived hderived
    omega
  intro taken hmem
  simp only [sampleSettlement, attempts, List.mem_cons, List.not_mem_nil, or_false] at hmem
  rcases hmem with rfl | rfl | rfl | rfl
  · refine ⟨by simpa [sampleInit] using hwallet 5 (by decide), fun _ _ _ hcall => ?_,
      fun _ _ hcall => ?_, fun _ _ _ hcall => ?_⟩ <;> cases hcall
  · refine ⟨by simpa [sampleCreateFor] using hwallet 2 (by decide), fun _ _ _ hcall => ?_,
      fun _ _ hcall => ?_, fun _ _ _ hcall => ?_⟩ <;> cases hcall
  · refine ⟨by simpa [sampleLock] using hwallet 3 (by decide), fun _ _ _ hcall => ?_,
      fun _ _ hcall => ?_, fun _ _ _ hcall => ?_⟩ <;> cases hcall
  · refine ⟨by simpa [sampleRelease] using hwallet 5 (by decide), fun a cost esc hcall hread => ?_,
      fun _ _ hcall => ?_, fun _ _ _ hcall => ?_⟩ <;> cases hcall
    have hread' : (sampleLocked key).read sampleEscrow = some (.data (.escrow esc)) := hread
    rw [hesc, Option.some.injEq, Account.data.injEq, Record.escrow.injEq] at hread'
    subst hread'
    exact ⟨rfl, rfl, rfl⟩

/-- The settlement of an escrow that records the provider's own account. -/
theorem escrowLaw_settled :
    EscrowLaw (attempts (Call.exec walletRuntime) (sampleSettlement 13) sampleStart)
      (sampleSettled 13) := by
  apply (escrowLaw_iff sampleStart_fresh (sampleSettlement_run 13)
    (sampleSettlement_careful sampleLocked_escrow)).mpr
  have hcareful := sampleSettlement_careful sampleLocked_escrow
  intro taken hmem a cost cfg esc hcall hcfg hesc _ _ _
  simp only [sampleSettlement, attempts, List.mem_cons, List.not_mem_nil, or_false] at hmem hcareful
  rcases hmem with rfl | rfl | rfl | rfl
  · cases hcall
  · cases hcall
  · cases hcall
  · cases hcall
    have hsound : VaultsSound walletRuntime (sampleLocked 13) := by
      have hrun : QuietRuns walletRuntime sampleStart (attempts (Call.exec walletRuntime)
          [sampleInit, sampleCreateFor 13, sampleLock] sampleStart) (sampleLocked 13) :=
        CallRun.attempts _ _ _ _
      refine (run_vaults sampleStart_fresh hrun fun taken hmem => hcareful taken ?_).1
      simp only [attempts, List.mem_cons, List.not_mem_nil, or_false] at hmem
      rcases hmem with rfl | rfl | rfl
      · exact .inl rfl
      · exact .inr (.inl rfl)
      · exact .inr (.inr (.inl rfl))
    have hspared : ∀ small : Pubkey, small.toNat < 100 → ¬ IsVault (sampleLocked 13) small := by
      intro small hsmall hvault
      have hlarge := walletRuntime_derived (hsound.vault_derived hvault)
      omega
    have hread : (sampleLocked 13).read sampleEscrow = some (.data (.escrow esc)) := hesc
    rw [sampleLocked_escrow, Option.some.injEq, Account.data.injEq, Record.escrow.injEq] at hread
    have hconfig : (sampleLocked 13).read sampleConfig =
        some (.data (.config sampleConfigRecord)) := by decide +kernel
    cases hconfig.symm.trans hcfg
    subst hread
    exact ⟨fun _ => hspared 13 (by decide), fun _ => hspared 15 (by decide)⟩

/-- An escrow that records its own vault for the provider: 10 stay in the vault of an escrow that is
settled. -/
theorem escrowLaw_fails :
    ¬ ∀ runtime s calls t, Fresh runtime s → QuietRuns runtime s calls t →
      (∀ taken ∈ calls, Careful runtime taken.call taken.before) → EscrowLaw calls t := by
  intro hclaim
  have hlaw := hclaim _ _ _ _ sampleStart_fresh (sampleSettlement_run sampleVault)
    (sampleSettlement_careful sampleLocked_escrow_self)
  have hesc : (sampleSettled sampleVault).read sampleEscrow = some (.data (.escrow
      { sampleLockedJob sampleVault with
        actualCost := 10
        state := .settled
        settledAt := 1700000003 })) := by decide +kernel
  have hvault : (sampleSettled sampleVault).read sampleVault =
      some (.token ⟨1, sampleEscrow, 10, none, 0, false⟩) := by decide +kernel
  obtain ⟨v, hv, hamount⟩ := hlaw.conserved sampleEscrow _ hesc
  cases hvault.symm.trans hv
  revert hamount
  decide

end NeuralMesh.Solana
