import NeuralMesh.Solana.Program

/-!
# What the Solana instructions do

One lemma for each instruction: what a success says about the accounts and the signers, the
transfers made, and what is written. For `cancel_escrow` and `release_escrow` the conditions are also
enough.
-/

namespace NeuralMesh.Solana

variable {runtime : Runtime} {tx : Tx} {s t : State} {transfers : List Transfer}

/-! ### Payments -/

/-- What every transfer of tokens does, a list of payments does. -/
theorem sendAll_rel {R : State → State → Prop} (hrefl : ∀ s, R s s)
    (htrans : ∀ {s t u}, R s t → R t u → R s u)
    (htransfer : ∀ {s t : State} {signers source dest authority amount},
      s.transfer signers source dest authority amount = .ok t → R s t)
    {legs : List Transfer} (hsend : sendAll runtime tx legs s = .ok t) : R s t := by
  induction legs generalizing s with
  | nil =>
      cases hsend
      exact hrefl _
  | cons p legs ih =>
      simp only [sendAll, send, bind_eq_ok, mapError_eq_ok] at hsend
      obtain ⟨u, ⟨derived, _, hfirst⟩, hrest⟩ := hsend
      exact htrans (htransfer hfirst) (ih hrest)

theorem sendAll_sameRecords {legs : List Transfer} (hsend : sendAll runtime tx legs s = .ok t) :
    s.SameRecords t :=
  sendAll_rel Accounts.SameRecords.refl Accounts.SameRecords.trans Accounts.transfer_sameRecords
    hsend

/-- The escrow address signs for its payments, so the token programme has the last word. -/
theorem send_payment_isOk {esc : JobEscrow} {escrow vault dest : Pubkey} {amount : UInt64}
    (hderived : runtime.createProgramAddress esc.signerSeeds = .ok escrow) :
    (∃ t, send runtime tx (esc.payment escrow vault dest amount) s = .ok t) ↔
      s.Transferable vault dest escrow amount := by
  rw [← Accounts.transfer_isOk (List.mem_cons_self : escrow ∈ escrow :: tx.signers)]
  simp only [send, JobEscrow.payment, derivedSigners, bind_eq_ok, mapError_eq_ok, pure_eq_ok,
    hderived, Except.ok.injEq, exists_eq_left', exists_eq_left, List.cons_append, List.nil_append]

/-! ### The configuration and the bridge -/

theorem initializeConfig_eq_ok {a : Initialize} {platformFeeBps : UInt16} {bridgeMintLimit : UInt64}
    (hexec : initializeConfig runtime tx a platformFeeBps bridgeMintLimit s = .ok (transfers, t)) :
    ∃ bump, a.authority ∈ tx.signers ∧ (∃ m, s.read a.nmcMint = some (.mint m)) ∧
      runtime.findProgramAddress configSeeds = some (a.config, bump) ∧ s.read a.config = none ∧
      platformFeeBps ≤ maxFeeBps ∧ transfers = [] ∧
      t = s.write a.config (.data (.config {
        authority := a.authority
        nmcMint := a.nmcMint
        platformFeeBps
        feeCollector := a.feeCollector
        bridgeMintLimit
        totalMinted := 0
        totalBurned := 0
        bump })) := by
  simp only [initializeConfig, bind_eq_ok, load_mint, signer_eq_ok, initPda_eq_ok, ensure_eq_ok,
    pure_eq_ok, exists_const, Prod.mk.injEq] at hexec
  obtain ⟨hsigner, m, hm, bump, ⟨hfind, hvacant⟩, hfee, hnone, rfl⟩ := hexec
  exact ⟨bump, hsigner, ⟨m, hm⟩, hfind, hvacant, hfee, hnone, rfl⟩

theorem bridgeMint_eq_ok {a : BridgeMint} {amount nonce : UInt64}
    (hexec : bridgeMint runtime tx a amount nonce s = .ok (transfers, t)) :
    ∃ cfg nonceAcc u, s.read a.config = some (.data (.config cfg)) ∧
      s.read a.bridgeNonce = some (.data (.bridgeNonce nonceAcc)) ∧ a.authority ∈ tx.signers ∧
      runtime.createProgramAddress (configSeeds ++ [[cfg.bump]]) = .ok a.config ∧
      cfg.authority = a.authority ∧ a.nmcMint = cfg.nmcMint ∧
      runtime.createProgramAddress (bridgeNonceSeeds a.authority ++ [[nonceAcc.bump]]) =
        .ok a.bridgeNonce ∧
      nonceAcc.authority = a.authority ∧ amount ≤ cfg.bridgeMintLimit ∧
      nonce = nonceAcc.nextNonce ∧ nonce.toNat + 1 < 2 ^ 64 ∧
      s.mintTo (a.config :: tx.signers) a.nmcMint a.recipientTokenAccount a.config amount = .ok u ∧
      cfg.totalMinted.toNat + amount.toNat < 2 ^ 64 ∧ transfers = [] ∧
      t = (u.write a.config (.data (.config { cfg with
          totalMinted := cfg.totalMinted + amount }))).write a.bridgeNonce
        (.data (.bridgeNonce { nonceAcc with nextNonce := nonce + 1 })) := by
  simp only [bridgeMint, bind_eq_ok, load_config, load_mint, load_token, load_bridgeNonce,
    signer_eq_ok, pda_eq_ok, ensure_eq_ok, orFail_eq_ok, checkedAdd_eq_some, mapError_eq_ok,
    pure_eq_ok, exists_const, Prod.mk.injEq] at hexec
  obtain ⟨cfg, hcfg, _, _, _, _, nonceAcc, hnonceAcc, hsigner, hconfig, hauthority, hmint, hderived,
    howner, hlimit, hnonce, _, ⟨hnext, rfl⟩, config, hconfig', u, hminted, _, ⟨htotal, rfl⟩, hnone,
    rfl⟩ := hexec
  cases hconfig.symm.trans hconfig'
  exact ⟨cfg, nonceAcc, u, hcfg, hnonceAcc, hsigner, hconfig, hauthority, hmint, hderived, howner,
    hlimit, hnonce, hnext, hminted, htotal, hnone, rfl⟩

theorem bridgeBurn_eq_ok {a : BridgeBurn} {amount : UInt64}
    (hexec : bridgeBurn runtime tx a amount s = .ok (transfers, t)) :
    ∃ cfg u, s.read a.config = some (.data (.config cfg)) ∧ a.user ∈ tx.signers ∧
      runtime.createProgramAddress (configSeeds ++ [[cfg.bump]]) = .ok a.config ∧
      a.nmcMint = cfg.nmcMint ∧
      s.burn tx.signers a.nmcMint a.userTokenAccount a.user amount = .ok u ∧
      cfg.totalBurned.toNat + amount.toNat < 2 ^ 64 ∧ transfers = [] ∧
      t = u.write a.config (.data (.config { cfg with
        totalBurned := cfg.totalBurned + amount })) := by
  simp only [bridgeBurn, bind_eq_ok, load_config, load_mint, load_token, signer_eq_ok, pda_eq_ok,
    ensure_eq_ok, orFail_eq_ok, checkedAdd_eq_some, mapError_eq_ok, pure_eq_ok, exists_const,
    Prod.mk.injEq] at hexec
  obtain ⟨cfg, hcfg, _, _, _, _, hsigner, hconfig, hmint, _, _, u, hburned, _, ⟨htotal, rfl⟩, hnone,
    rfl⟩ := hexec
  exact ⟨cfg, u, hcfg, hsigner, hconfig, hmint, hburned, htotal, hnone, rfl⟩

theorem updateConfig_eq_ok {a : UpdateConfig} {platformFeeBps : Option UInt16}
    {bridgeMintLimit : Option UInt64}
    (hexec : updateConfig runtime tx a platformFeeBps bridgeMintLimit s = .ok (transfers, t)) :
    ∃ cfg, s.read a.config = some (.data (.config cfg)) ∧ a.authority ∈ tx.signers ∧
      runtime.createProgramAddress (configSeeds ++ [[cfg.bump]]) = .ok a.config ∧
      cfg.authority = a.authority ∧ (∀ fee ∈ platformFeeBps, fee ≤ maxFeeBps) ∧ transfers = [] ∧
      t = s.write a.config (.data (.config { cfg with
        platformFeeBps := platformFeeBps.getD cfg.platformFeeBps
        bridgeMintLimit := bridgeMintLimit.getD cfg.bridgeMintLimit })) := by
  simpa only [updateConfig, bind_eq_ok, load_config, signer_eq_ok, pda_eq_ok, ensure_eq_ok,
    pure_eq_ok, exists_const, Prod.mk.injEq] using hexec

/-! ### Opening and locking an escrow -/

/-- The transfer from the consumer to the vault. -/
def CreateEscrow.deposit (a : CreateEscrow) (lockedNmc : UInt64) : Transfer where
  source := a.consumerTokenAccount
  dest := a.vault
  authority := a.consumer
  amount := lockedNmc
  seeds := none

/-- The accounts that `init` puts at the two derived addresses. -/
def CreateEscrow.opened (a : CreateEscrow) (s : State) : State :=
  (s.write a.escrow (.data (.escrow .zeroed))).write a.vault (.token {
    mint := a.nmcMint
    owner := a.escrow
    amount := 0
    delegate := none
    delegatedAmount := 0
    frozen := false })

theorem createEscrow_eq_ok {a : CreateEscrow} {jobId : String} {lockedNmc pricePerHour : UInt64}
    {maxDurationSecs : UInt32}
    (hexec : createEscrow runtime tx a jobId lockedNmc pricePerHour maxDurationSecs s =
      .ok (transfers, t)) :
    ∃ cfg bump vaultBump id u, s.read a.config = some (.data (.config cfg)) ∧
      a.consumer ∈ tx.signers ∧
      runtime.findProgramAddress (escrowSeeds (utf8 jobId)) = some (a.escrow, bump) ∧
      s.read a.escrow = none ∧
      runtime.findProgramAddress (vaultSeeds (utf8 jobId)) = some (a.vault, vaultBump) ∧
      (a.vault ≠ a.escrow ∧ s.read a.vault = none) ∧
      runtime.createProgramAddress (configSeeds ++ [[cfg.bump]]) = .ok a.config ∧
      a.nmcMint = cfg.nmcMint ∧ JobId.ofBytes (utf8 jobId) = some id ∧
      transfers = [a.deposit lockedNmc] ∧ sendAll runtime tx transfers (a.opened s) = .ok u ∧
      t = u.write a.escrow (.data (.escrow {
        JobEscrow.zeroed with
        id
        consumer := a.consumer
        provider := a.provider
        lockedNmc
        pricePerHour
        maxDurationSecs
        state := .open
        consumerTokenAccount := a.consumerTokenAccount
        providerTokenAccount := a.providerTokenAccount
        vault := a.vault
        createdAt := tx.unixTimestamp
        bump })) := by
  simp only [createEscrow, bind_eq_ok, load_config, load_mint, load_token, signer_eq_ok,
    initPda_eq_ok, pda_eq_ok, ensure_eq_ok, orFail_eq_ok, pure_eq_ok, exists_const,
    Prod.mk.injEq] at hexec
  obtain ⟨cfg, hcfg, hsigner, _, _, _, _, bump, ⟨hescrow, hvacant⟩, vaultBump,
    ⟨hvault, hvaultVacant⟩, hconfig, _, _, hmint, id, hid, u, hsend, rfl, rfl⟩ := hexec
  rw [Accounts.read_write] at hvaultVacant
  split at hvaultVacant
  · cases hvaultVacant
  · rename_i hne
    refine ⟨cfg, bump, vaultBump, id, u, hcfg, hsigner, hescrow, hvacant, hvault,
      ⟨hne, hvaultVacant⟩, hconfig, hmint, hid, rfl, ?_, rfl⟩
    change sendAll runtime tx [a.deposit lockedNmc] (a.opened s) = .ok u
    rw [sendAll]
    exact bind_eq_ok.mpr ⟨u, hsend, rfl⟩

theorem lockEscrow_eq_ok {a : LockEscrow}
    (hexec : lockEscrow runtime tx a s = .ok (transfers, t)) :
    ∃ esc, s.read a.escrow = some (.data (.escrow esc)) ∧ a.provider ∈ tx.signers ∧
      runtime.createProgramAddress esc.signerSeeds = .ok a.escrow ∧ esc.provider = a.provider ∧
      esc.state = .open ∧ transfers = [] ∧
      t = s.write a.escrow (.data (.escrow { esc with
        state := .locked
        deadline := tx.unixTimestamp + .ofNat esc.maxDurationSecs.toNat })) := by
  simp only [lockEscrow, bind_eq_ok, load_escrow, signer_eq_ok, pda_eq_ok, ensure_eq_ok,
    pure_eq_ok, exists_const, Prod.mk.injEq] at hexec
  exact hexec

/-! ### When a cancellation succeeds -/

def JobEscrow.Live (esc : JobEscrow) : Prop := esc.state = .open ∨ esc.state = .locked

/-- Beyond the state of the escrow: what the programme and the token programme ask of the accounts
passed to `cancel_escrow`. Whose signature is there plays no part. -/
structure CancelEscrow.Accepted (runtime : Runtime) (tx : Tx) (a : CancelEscrow)
    (cfg : ProgramConfig) (esc : JobEscrow) (s : State) : Prop where
  signer : a.signer ∈ tx.signers
  config : runtime.createProgramAddress (configSeeds ++ [[cfg.bump]]) = .ok a.config
  escrow : runtime.createProgramAddress esc.signerSeeds = .ok a.escrow
  refund : s.Transferable a.vault a.consumerTokenAccount a.escrow esc.lockedNmc

section Cancel

variable {a : CancelEscrow} {cfg : ProgramConfig} {esc : JobEscrow}

theorem cancelEscrow_eq_ok (hcancel : cancelEscrow runtime tx a s = .ok (transfers, t)) :
    ∃ cfg esc u, s.read a.config = some (.data (.config cfg)) ∧
      s.read a.escrow = some (.data (.escrow esc)) ∧ esc.Live ∧ a.Accepted runtime tx cfg esc s ∧
      transfers = [esc.payment a.escrow a.vault a.consumerTokenAccount esc.lockedNmc] ∧
      sendAll runtime tx transfers s = .ok u ∧
      t = u.write a.escrow (.data (.escrow { esc with state := .cancelled })) := by
  simp only [cancelEscrow, bind_eq_ok, load_config, load_escrow, load_token, signer_eq_ok, pda_eq_ok,
    ensure_eq_ok, pure_eq_ok, exists_const, Prod.mk.injEq] at hcancel
  obtain ⟨cfg, hcfg, esc, hesc, _, _, _, _, hsigner, hconfig, hescrow, hlive, u, hsend, rfl,
    rfl⟩ := hcancel
  refine ⟨cfg, esc, u, hcfg, hesc, hlive,
    ⟨hsigner, hconfig, hescrow, (send_payment_isOk hescrow).mp ⟨u, hsend⟩⟩, rfl, ?_, rfl⟩
  rw [sendAll, hsend]
  rfl

theorem cancelEscrow_of_accepted (hcfg : s.read a.config = some (.data (.config cfg)))
    (hesc : s.read a.escrow = some (.data (.escrow esc))) (hlive : esc.Live)
    (haccepted : a.Accepted runtime tx cfg esc s) :
    ∃ t, cancelEscrow runtime tx a s =
      .ok ([esc.payment a.escrow a.vault a.consumerTokenAccount esc.lockedNmc], t) := by
  obtain ⟨u, hsend⟩ : ∃ u, send runtime tx
      (esc.payment a.escrow a.vault a.consumerTokenAccount esc.lockedNmc) s = .ok u :=
    (send_payment_isOk haccepted.escrow).mpr haccepted.refund
  obtain ⟨src, dst, hsrc, hdst, _⟩ := haccepted.refund
  simp only [cancelEscrow, bind_eq_ok, load_config, load_escrow, load_token, signer_eq_ok, pda_eq_ok,
    ensure_eq_ok, pure_eq_ok, exists_const, Prod.mk.injEq]
  exact ⟨_, cfg, hcfg, esc, hesc, src, hsrc, dst, hdst, haccepted.signer, haccepted.config,
    haccepted.escrow, hlive, u, hsend, rfl, rfl⟩

end Cancel

/-! ### When a settlement succeeds -/

/-- `fee` of `release_escrow` -/
def feeOf (actualCost : UInt64) (bps : UInt16) : UInt64 := actualCost * bps.toUInt64 / 10000

/-- The payments of a settlement at this cost. -/
def ReleaseEscrow.legs (a : ReleaseEscrow) (actualCost : UInt64) (cfg : ProgramConfig)
    (esc : JobEscrow) : List Transfer :=
  let fee := feeOf actualCost cfg.platformFeeBps
  settlementLegs a esc (actualCost - fee) fee (esc.lockedNmc - actualCost)

/-- Beyond the state of the escrow and the bound on the cost: what the programme and the token
programme ask of the accounts and the amounts passed to `release_escrow`. -/
structure ReleaseEscrow.Accepted (runtime : Runtime) (tx : Tx) (a : ReleaseEscrow)
    (actualCost : UInt64) (cfg : ProgramConfig) (esc : JobEscrow) (s : State) : Prop where
  signer : a.authority ∈ tx.signers
  authority : cfg.authority = a.authority
  config : runtime.createProgramAddress (configSeeds ++ [[cfg.bump]]) = .ok a.config
  escrow : runtime.createProgramAddress esc.signerSeeds = .ok a.escrow
  collector : a.feeCollector = cfg.feeCollector
  tokens : ∀ key ∈ [a.vault, a.providerTokenAccount, a.consumerTokenAccount, a.feeCollector],
    ∃ v, s.read key = some (.token v)
  fits : actualCost.toNat * cfg.platformFeeBps.toNat < 2 ^ 64
  payable : ∃ t, sendAll runtime tx (a.legs actualCost cfg esc) s = .ok t

section Release

variable {a : ReleaseEscrow} {actualCost : UInt64} {cfg : ProgramConfig} {esc : JobEscrow}
  {bps : UInt16}

theorem toNat_feeOf (hfits : actualCost.toNat * bps.toNat < 2 ^ 64) :
    (feeOf actualCost bps).toNat = actualCost.toNat * bps.toNat / 10000 := by
  rw [feeOf, UInt64.toNat_div, UInt64.toNat_mul, UInt16.toNat_toUInt64, Nat.mod_eq_of_lt hfits]
  rfl

/-- Under the cap the fee is less than the cost, unless there is none. -/
theorem feeOf_lt (hcap : bps ≤ maxFeeBps) (hfits : actualCost.toNat * bps.toNat < 2 ^ 64)
    (hpos : 0 < actualCost) : feeOf actualCost bps < actualCost := by
  rw [UInt64.lt_iff_toNat_lt, toNat_feeOf hfits]
  have hpos' : 0 < actualCost.toNat := UInt64.lt_iff_toNat_lt.mp hpos
  have hcap' : bps.toNat ≤ 1000 := UInt16.le_iff_toNat_le.mp hcap
  have hmul := Nat.mul_le_mul_left actualCost.toNat hcap'
  omega

theorem feeOf_le (hcap : bps ≤ maxFeeBps) (hfits : actualCost.toNat * bps.toNat < 2 ^ 64) :
    feeOf actualCost bps ≤ actualCost := by
  rw [UInt64.le_iff_toNat_le, toNat_feeOf hfits]
  have hcap' : bps.toNat ≤ 1000 := UInt16.le_iff_toNat_le.mp hcap
  have hmul := Nat.mul_le_mul_left actualCost.toNat hcap'
  omega

theorem releaseEscrow_eq_ok
    (hrelease : releaseEscrow runtime tx a actualCost s = .ok (transfers, t)) :
    ∃ cfg esc u, s.read a.config = some (.data (.config cfg)) ∧
      s.read a.escrow = some (.data (.escrow esc)) ∧ esc.state = .locked ∧
      actualCost ≤ esc.lockedNmc ∧ a.Accepted runtime tx actualCost cfg esc s ∧
      transfers = a.legs actualCost cfg esc ∧ sendAll runtime tx transfers s = .ok u ∧
      t = u.write a.escrow (.data (.escrow { esc with
        actualCost
        feeCollected := feeOf actualCost cfg.platformFeeBps
        state := .settled
        settledAt := tx.unixTimestamp })) := by
  simp only [releaseEscrow, bind_eq_ok, load_config, load_escrow, load_token, signer_eq_ok,
    pda_eq_ok, ensure_eq_ok, orFail_eq_ok, checkedMul_eq_some, checkedSub_eq_some, pure_eq_ok,
    exists_const, Prod.mk.injEq] at hrelease
  obtain ⟨cfg, hcfg, esc, hesc, v₁, hv₁, v₂, hv₂, v₃, hv₃, v₄, hv₄, hsigner, hconfig, hauthority,
    hescrow, hcollector, hlocked, hcost, _, ⟨hfits, rfl⟩, _, ⟨_, rfl⟩, _, ⟨_, rfl⟩, u, hsend, rfl,
    rfl⟩ := hrelease
  refine ⟨cfg, esc, u, hcfg, hesc, hlocked, hcost,
    ⟨hsigner, hauthority, hconfig, hescrow, hcollector, ?_, ?_, u, hsend⟩, rfl, hsend, rfl⟩
  · simp [hv₁, hv₂, hv₃, hv₄]
  · rwa [UInt16.toNat_toUInt64] at hfits

theorem releaseEscrow_of_accepted (hcfg : s.read a.config = some (.data (.config cfg)))
    (hesc : s.read a.escrow = some (.data (.escrow esc))) (hlocked : esc.state = .locked)
    (hcost : actualCost ≤ esc.lockedNmc) (hcap : cfg.platformFeeBps ≤ maxFeeBps)
    (haccepted : a.Accepted runtime tx actualCost cfg esc s) :
    ∃ t, releaseEscrow runtime tx a actualCost s = .ok (a.legs actualCost cfg esc, t) := by
  obtain ⟨hsigner, hauthority, hconfig, hescrow, hcollector, htokens, hfits, u, hsend⟩ := haccepted
  simp only [List.forall_mem_cons, List.not_mem_nil] at htokens
  obtain ⟨⟨v₁, hv₁⟩, ⟨v₂, hv₂⟩, ⟨v₃, hv₃⟩, ⟨v₄, hv₄⟩, _⟩ := htokens
  have hfee := feeOf_le hcap hfits
  rw [← UInt16.toNat_toUInt64] at hfits
  simp only [releaseEscrow, bind_eq_ok, load_config, load_escrow, load_token, signer_eq_ok,
    pda_eq_ok, ensure_eq_ok, orFail_eq_ok, checkedMul_eq_some, checkedSub_eq_some, pure_eq_ok,
    exists_const, Prod.mk.injEq]
  exact ⟨_, cfg, hcfg, esc, hesc, v₁, hv₁, v₂, hv₂, v₃, hv₃, v₄, hv₄, hsigner, hconfig, hauthority,
    hescrow, hcollector, hlocked, hcost, _, ⟨hfits, rfl⟩, _, ⟨hfee, rfl⟩, _, ⟨hcost, rfl⟩, u, hsend,
    rfl, rfl⟩

end Release

end NeuralMesh.Solana
