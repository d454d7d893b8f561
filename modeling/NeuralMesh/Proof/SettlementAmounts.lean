import NeuralMesh.Proof.SolanaVault

/-!
# The amounts of a settlement

`release_escrow` multiplies the cost by the basis points of the fee in 64 bits, and unwraps. The fee
is at most a tenth of the cost, but the product has to fit before it is divided: an escrow may hold
any 64-bit amount, and above some cost the product does not. The instruction then panics, and the
escrow stays locked.
-/

namespace NeuralMesh.Solana

/-! ### The arithmetic -/

/-- What a settlement pays. -/
structure Amounts where
  fee : UInt64
  providerAmount : UInt64
  consumerRefund : UInt64

/-- The amounts divide what is locked, and the fee is the share of the cost, rounded down. -/
structure Amounts.Divide (p : Amounts) (lockedNmc actualCost : UInt64) (bps : UInt16) : Prop where
  total : p.fee.toNat + p.providerAmount.toNat + p.consumerRefund.toNat = lockedNmc.toNat
  fee : p.fee.toNat = actualCost.toNat * bps.toNat / 10000

/-- The arithmetic of `release_escrow`. -/
def amountsOf (lockedNmc actualCost : UInt64) (bps : UInt16) : Except Failure Amounts := do
  let fee := (← orFail (checkedMul actualCost bps.toUInt64) .panic) / 10000
  let providerAmount ← orFail (checkedSub actualCost fee) .panic
  let consumerRefund ← orFail (checkedSub lockedNmc actualCost) .panic
  return ⟨fee, providerAmount, consumerRefund⟩

section Arithmetic

variable {lockedNmc actualCost : UInt64} {bps : UInt16}

/-- The fee takes no part of an amount that is not there. -/
theorem amountsOf_divide (hcap : bps ≤ maxFeeBps) (hcost : actualCost ≤ lockedNmc)
    (hfits : actualCost.toNat * bps.toNat < 2 ^ 64) :
    ∃ p, amountsOf lockedNmc actualCost bps = .ok p ∧ p.Divide lockedNmc actualCost bps := by
  have hfee : feeOf actualCost bps ≤ actualCost := feeOf_le hcap hfits
  refine ⟨⟨feeOf actualCost bps, actualCost - feeOf actualCost bps, lockedNmc - actualCost⟩, ?_, ?_⟩
  · simp only [amountsOf, bind_eq_ok, orFail_eq_ok, checkedMul_eq_some, checkedSub_eq_some, pure_eq_ok,
      UInt16.toNat_toUInt64]
    exact ⟨_, ⟨hfits, rfl⟩, _, ⟨hfee, rfl⟩, _, ⟨hcost, rfl⟩, rfl⟩
  · have hfee' : (feeOf actualCost bps).toNat ≤ actualCost.toNat := UInt64.le_iff_toNat_le.mp hfee
    have hcost' : actualCost.toNat ≤ lockedNmc.toNat := UInt64.le_iff_toNat_le.mp hcost
    constructor
    · show (feeOf actualCost bps).toNat + (actualCost - feeOf actualCost bps).toNat +
        (lockedNmc - actualCost).toNat = lockedNmc.toNat
      rw [UInt64.toNat_sub_of_le _ _ hfee, UInt64.toNat_sub_of_le _ _ hcost]
      omega
    · exact toNat_feeOf hfits

theorem amountsOf_overflow (hover : ¬ actualCost.toNat * bps.toNat < 2 ^ 64) :
    amountsOf lockedNmc actualCost bps = .error .panic := by
  have hmul : checkedMul actualCost bps.toUInt64 = none := by
    rw [checkedMul, UInt16.toNat_toUInt64, if_neg hover]
  rw [amountsOf, hmul]
  rfl

/-- Under the cap, no cost below this amount overflows. -/
theorem product_fits (hcap : bps ≤ maxFeeBps) (hsmall : actualCost ≤ 18446744073709551) :
    actualCost.toNat * bps.toNat < 2 ^ 64 := by
  have hcap' : bps.toNat ≤ 1000 := UInt16.le_iff_toNat_le.mp hcap
  have hsmall' : actualCost.toNat ≤ 18446744073709551 := UInt64.le_iff_toNat_le.mp hsmall
  calc actualCost.toNat * bps.toNat
    _ ≤ 18446744073709551 * 1000 := Nat.mul_le_mul hsmall' hcap'
    _ < 2 ^ 64 := by decide

end Arithmetic

/-! ### The instruction -/

variable {runtime : Runtime} {tx : Tx} {s t : State}

/-- What `release_escrow` asks for before it comes to the amounts. -/
structure ReleaseEscrow.Admitted (runtime : Runtime) (tx : Tx) (a : ReleaseEscrow)
    (actualCost : UInt64) (cfg : ProgramConfig) (esc : JobEscrow) (s : State) : Prop where
  config : s.read a.config = some (.data (.config cfg))
  escrow : s.read a.escrow = some (.data (.escrow esc))
  tokens : ∀ key ∈ [a.vault, a.providerTokenAccount, a.consumerTokenAccount, a.feeCollector],
    ∃ v, s.read key = some (.token v)
  signer : a.authority ∈ tx.signers
  configAddress : runtime.createProgramAddress (configSeeds ++ [[cfg.bump]]) = .ok a.config
  authority : cfg.authority = a.authority
  escrowAddress : runtime.createProgramAddress esc.signerSeeds = .ok a.escrow
  collector : a.feeCollector = cfg.feeCollector
  locked : esc.state = .locked
  cost : actualCost ≤ esc.lockedNmc

def Amounts.legs (p : Amounts) (a : ReleaseEscrow) (esc : JobEscrow) : List Transfer :=
  settlementLegs a esc p.providerAmount p.fee p.consumerRefund

/-- What is left of `release_escrow` when the amounts are there: the payments and the record. -/
def Amounts.settle (p : Amounts) (runtime : Runtime) (tx : Tx) (a : ReleaseEscrow)
    (actualCost : UInt64) (esc : JobEscrow) (s : State) : Result := do
  let s ← sendAll runtime tx (p.legs a esc) s
  return (p.legs a esc, s.write a.escrow (.data (.escrow { esc with
    actualCost
    feeCollected := p.fee
    state := .settled
    settledAt := tx.unixTimestamp })))

section Release

variable {a : ReleaseEscrow} {actualCost : UInt64} {cfg : ProgramConfig} {esc : JobEscrow}

/-- Past its constraints the instruction is the arithmetic and then the payments. -/
theorem releaseEscrow_of_admitted (hadmitted : a.Admitted runtime tx actualCost cfg esc s) :
    releaseEscrow runtime tx a actualCost s =
      amountsOf esc.lockedNmc actualCost cfg.platformFeeBps >>= fun p =>
        p.settle runtime tx a actualCost esc s := by
  obtain ⟨hconfig, hescrow, htokens, hsigner, hconfigAddress, hauthority, hescrowAddress, hcollector,
    hlocked, hcost⟩ := hadmitted
  simp only [List.forall_mem_cons, List.not_mem_nil] at htokens
  obtain ⟨⟨v₁, hv₁⟩, ⟨v₂, hv₂⟩, ⟨v₃, hv₃⟩, ⟨v₄, hv₄⟩, _⟩ := htokens
  have hconfigPda : pda a.config runtime configSeeds cfg.bump = .ok () :=
    pda_eq_ok.mpr hconfigAddress
  have hescrowPda : pda a.escrow runtime (escrowSeeds esc.id.bytes) esc.bump = .ok () :=
    pda_eq_ok.mpr hescrowAddress
  -- Each constraint is passed, so each step hands on to the next.
  simp only [releaseEscrow, load_config.mpr hconfig, load_escrow.mpr hescrow, load_token.mpr hv₁,
    load_token.mpr hv₂, load_token.mpr hv₃, load_token.mpr hv₄, signer, ensure, if_pos hsigner,
    hconfigPda, if_pos hauthority, hescrowPda, if_pos hcollector, if_pos hlocked, if_pos hcost,
    ok_bind, amountsOf, bind_assoc, pure_bind, Amounts.settle, Amounts.legs]

/-- Payments fail with an error of the token programme or of an address, and do not panic. -/
theorem sendAll_ne_panic (legs : List Transfer) (s : State) :
    sendAll runtime tx legs s ≠ .error .panic := by
  induction legs generalizing s with
  | nil => nofun
  | cons p legs ih =>
      intro hpanic
      rw [sendAll] at hpanic
      rcases bind_eq_error.mp hpanic with hfirst | ⟨u, _, hrest⟩
      · rw [send] at hfirst
        rcases bind_eq_error.mp hfirst with hderived | ⟨derived, _, htransfer⟩
        · unfold derivedSigners at hderived
          split at hderived
          · cases hderived
          · rcases bind_eq_error.mp hderived with haddress | ⟨_, _, hpure⟩
            · obtain ⟨_, _, hpubkey⟩ := mapError_eq_error.mp haddress
              cases hpubkey
            · cases hpure
        · obtain ⟨_, _, htoken⟩ := mapError_eq_error.mp htransfer
          cases htoken
      · exact ih u hrest

theorem Amounts.settle_ne_panic (p : Amounts) (s : State) :
    p.settle runtime tx a actualCost esc s ≠ .error .panic := by
  intro hpanic
  rcases bind_eq_error.mp hpanic with hsend | ⟨_, _, hpure⟩
  · exact sendAll_ne_panic _ _ hsend
  · cases hpure


end Release

/-! ### Runs -/

/-- An attempt that comes to the amounts gets them: it does not panic, and goes on with amounts that
divide what is locked. -/
def DividesLocked (runtime : Runtime) (taken : Attempted) : Prop :=
  ∀ a actualCost cfg esc, taken.call.instruction = .releaseEscrow a actualCost →
    a.Admitted runtime taken.call.tx actualCost cfg esc taken.before →
    taken.output ≠ .error .panic ∧
      ∃ p : Amounts, p.Divide esc.lockedNmc actualCost cfg.platformFeeBps ∧
        taken.call.exec runtime taken.before =
          p.settle runtime taken.call.tx a actualCost esc taken.before

/-- The product of the cost and the basis points fits, wherever the instruction comes to it. -/
def ProductFits (runtime : Runtime) (c : Call) (s : State) : Prop :=
  ∀ a actualCost cfg esc, c.instruction = .releaseEscrow a actualCost →
    a.Admitted runtime c.tx actualCost cfg esc s →
    actualCost.toNat * cfg.platformFeeBps.toNat < 2 ^ 64

variable {calls : List Attempted} {taken : Attempted}

theorem output_eq_error {e : Failure} (hattempt : tryCall (Call.exec runtime) taken.call taken.before =
    .ok (taken.output, taken.after)) :
    taken.output = .error e ↔ taken.call.exec runtime taken.before = .error e := by
  rcases tryCall_cases hattempt with ⟨o, hout, hexec⟩ | ⟨e', hout, hexec, _⟩
  · rw [hout, hexec]
    exact iff_of_false nofun nofun
  · rw [hout, hexec, Except.error.injEq, Except.error.injEq]

theorem dividesLocked_iff (hsound : ConfigsSound runtime taken.before)
    (hattempt : tryCall (Call.exec runtime) taken.call taken.before =
      .ok (taken.output, taken.after)) :
    DividesLocked runtime taken ↔ ProductFits runtime taken.call taken.before := by
  constructor
  · intro hdivides a actualCost cfg esc hcall hadmitted
    by_contra hover
    refine (hdivides a actualCost cfg esc hcall hadmitted).1 ((output_eq_error hattempt).mpr ?_)
    rw [Call.exec, hcall]
    show releaseEscrow runtime taken.call.tx a actualCost taken.before = .error .panic
    rw [releaseEscrow_of_admitted hadmitted, amountsOf_overflow hover]
    rfl
  · intro hfits a actualCost cfg esc hcall hadmitted
    obtain ⟨p, hamounts, hdivide⟩ := amountsOf_divide
      (hsound a.config cfg hadmitted.config).capped hadmitted.cost
      (hfits a actualCost cfg esc hcall hadmitted)
    have hexec : taken.call.exec runtime taken.before =
        p.settle runtime taken.call.tx a actualCost esc taken.before := by
      rw [Call.exec, hcall]
      show releaseEscrow runtime taken.call.tx a actualCost taken.before = _
      rw [releaseEscrow_of_admitted hadmitted, hamounts, ok_bind]
    refine ⟨fun hpanic => ?_, p, hdivide, hexec⟩
    exact p.settle_ne_panic _ (hexec ▸ (output_eq_error hattempt).mp hpanic)

/-- In every run of the programme from before its deployment, the settlements get amounts that
divide what is locked exactly when the product of each cost with the basis points fits. -/
theorem settlements_divide_iff (hstart : Undeployed s) (hrun : Runs runtime s calls t) :
    (∀ taken ∈ calls, DividesLocked runtime taken) ↔
      ∀ taken ∈ calls, ProductFits runtime taken.call taken.before :=
  forall₂_congr fun _ hmem =>
    dividesLocked_iff (run_configsSound hstart hrun hmem) (hrun.exec_of_mem hmem)

/-- A settlement at 10 of an escrow of 40. -/
theorem settlements_divide_sample :
    (∃ taken ∈ attempts (Call.exec walletRuntime) (sampleSettlement 13) sampleStart,
      taken.output = .ok [
        sampleJob.payment sampleEscrow sampleVault 13 10,
        sampleJob.payment sampleEscrow sampleVault 12 30]) ∧
    ∀ taken ∈ attempts (Call.exec walletRuntime) (sampleSettlement 13) sampleStart,
      DividesLocked walletRuntime taken := by
  have hrun : Runs walletRuntime sampleStart
      (attempts (Call.exec walletRuntime) (sampleSettlement 13) sampleStart) (sampleSettled 13) :=
    CallRun.attempts _ _ _ _
  refine ⟨⟨_, List.mem_cons_of_mem _ (List.mem_cons_of_mem _ (List.mem_cons_of_mem _
    List.mem_cons_self)), by decide +kernel⟩,
    (settlements_divide_iff sampleStart_undeployed hrun).mpr fun taken hmem => ?_⟩
  have hsound := run_configsSound sampleStart_undeployed hrun hmem
  simp only [sampleSettlement, attempts, List.mem_cons, List.not_mem_nil, or_false] at hmem
  rcases hmem with rfl | rfl | rfl | rfl
  · intro a actualCost cfg esc hcall
    cases hcall
  · intro a actualCost cfg esc hcall
    cases hcall
  · intro a actualCost cfg esc hcall
    cases hcall
  · intro a actualCost cfg esc hcall hadmitted
    cases hcall
    exact product_fits (hsound _ cfg hadmitted.config).capped (by decide)

/-! ### A large escrow -/

/-- The sample chain with a larger supply, all of it the consumer's. -/
def richStart : State where
  read key :=
    if key = 1 then some (.mint ⟨some 5, 100000000000000000⟩)
    else if key = 12 then some (.token ⟨1, 2, 100000000000000000, none, 0, false⟩)
    else sampleStart.read key

theorem richStart_undeployed : Undeployed richStart := by
  intro key d hread
  simp only [richStart] at hread
  split at hread
  · cases hread
  · split at hread
    · cases hread
    · exact sampleStart_undeployed key d hread

def richCreate : Call :=
  ⟨⟨[2], 1700000001⟩, .createEscrow ⟨sampleConfig, sampleEscrow, 2, 3, 12, 13, sampleVault, 1⟩ "job-1"
    100000000000000000 10 3600⟩

def richRelease : Call :=
  ⟨⟨[5], 1700000003⟩, .releaseEscrow
    ⟨sampleConfig, sampleEscrow, sampleVault, 13, 12, 15, 5⟩ 100000000000000000⟩

/-- The chain when the escrow of the whole supply is locked. -/
def richLocked : State :=
  stateAfter (Call.exec walletRuntime) [sampleInit, richCreate, sampleLock] richStart

/-- It is released at its full price, at a fee of three in a hundred. -/
def richReleased : Attempted :=
  let outcome := perform (Call.exec walletRuntime) richRelease richLocked
  ⟨richLocked, richRelease, outcome.1, outcome.2⟩

theorem richReleased_mem : richReleased ∈
    attempts (Call.exec walletRuntime) [sampleInit, richCreate, sampleLock, richRelease] richStart :=
  List.mem_cons_of_mem _ (List.mem_cons_of_mem _ (List.mem_cons_of_mem _ List.mem_cons_self))

theorem richRelease_admitted : ReleaseEscrow.Admitted walletRuntime richRelease.tx
    ⟨sampleConfig, sampleEscrow, sampleVault, 13, 12, 15, 5⟩ 100000000000000000 sampleConfigRecord
    { sampleLockedJob 13 with lockedNmc := 100000000000000000 } richLocked where
  config := by decide +kernel
  escrow := by decide +kernel
  tokens := by
    have hvault : richLocked.read sampleVault =
        some (.token ⟨1, sampleEscrow, 100000000000000000, none, 0, false⟩) := by decide +kernel
    have hprovider : richLocked.read 13 = some (.token ⟨1, 3, 0, none, 0, false⟩) := by
      decide +kernel
    have hconsumer : richLocked.read 12 = some (.token ⟨1, 2, 0, none, 0, false⟩) := by
      decide +kernel
    have hcollector : richLocked.read 15 = some (.token ⟨1, 5, 0, none, 0, false⟩) := by
      decide +kernel
    simp only [List.forall_mem_cons]
    exact ⟨⟨_, hvault⟩, ⟨_, hprovider⟩, ⟨_, hconsumer⟩, ⟨_, hcollector⟩, nofun⟩
  signer := by decide
  configAddress := by decide +kernel
  authority := rfl
  escrowAddress := by decide +kernel
  collector := rfl
  locked := rfl
  cost := by decide

/-- The cost times 300 basis points does not fit into 64 bits, and the settlement panics. -/
theorem settlements_divide_fails :
    ¬ ∀ runtime s calls t, Undeployed s → Runs runtime s calls t →
      ∀ taken ∈ calls, DividesLocked runtime taken := by
  intro hclaim
  have hdivides := hclaim walletRuntime richStart _ _ richStart_undeployed
    (CallRun.attempts _ _ [sampleInit, richCreate, sampleLock, richRelease] _) _ richReleased_mem
  have hpanic : richReleased.output = .error .panic := by decide +kernel
  exact (hdivides _ _ _ _ rfl richRelease_admitted).1 hpanic

end NeuralMesh.Solana
