import NeuralMesh.Proof.SolanaSteps

/-!
# Escrows of the Solana programme

Who can cancel an escrow, and where the money of an escrow goes. Neither is decided by the recorded
terms: `CancelEscrow` asks for some signer, and `ReleaseEscrow` and `CancelEscrow` take any token
accounts. What holds instead is an equivalence for every run: the law is kept exactly by the
instructions that are passed the right accounts or are refused.
-/

namespace NeuralMesh.Solana

variable {runtime : Runtime} {tx : Tx} {s t : State}

/-- An instruction of a run, with its outcome. -/
abbrev Attempted := Taken Call State (Except Failure (List Transfer))

/-- None of the programme's accounts exist yet. -/
def Undeployed (s : State) : Prop := ∀ key d, s.read key ≠ some (.data d)

/-! ### A sample run -/

def sampleRuntime : Runtime where
  digest bytes := .ofNat 256 (bytes.foldl (fun n b => 257 * n + b.toNat + 1) 0)
  onCurve _ := false

def sampleConfig : Pubkey := sampleRuntime.digest (utf8 "config" ++ [255])

def sampleEscrow : Pubkey := sampleRuntime.digest (utf8 "escrow" ++ utf8 "job-1" ++ [255])

def sampleVault : Pubkey := sampleRuntime.digest (utf8 "vault" ++ utf8 "job-1" ++ [255])

/-- The mint 1, and token accounts 12 of the consumer 2, 13 of the provider 3, 14 of a stranger 4
and 15 of the authority 5. -/
def sampleStart : State where
  read key :=
    if key = 1 then some (.mint ⟨some 5, 100⟩)
    else if key = 12 then some (.token ⟨1, 2, 100, none, 0, false⟩)
    else if key = 13 ∨ key = 14 ∨ key = 15 then some (.token ⟨1, key - 10, 0, none, 0, false⟩)
    else none

theorem sampleStart_undeployed : Undeployed sampleStart := by
  intro key d hread
  simp only [sampleStart] at hread
  split at hread
  · cases hread
  · split at hread
    · cases hread
    · split at hread
      · cases hread
      · cases hread

def sampleInit : Call :=
  ⟨⟨[5], 1700000000⟩, .initializeConfig ⟨sampleConfig, 5, 1, 15⟩ 300 1000⟩

def sampleCreate : Call :=
  ⟨⟨[2], 1700000001⟩,
    .createEscrow ⟨sampleConfig, sampleEscrow, 2, 3, 12, 13, sampleVault, 1⟩ "job-1" 40 10 3600⟩

/-- A cancellation that the wallet `signer` asks for, to the token account `dest`. -/
def sampleCancel (signer dest : Pubkey) : Call :=
  ⟨⟨[signer], 1700000002⟩, .cancelEscrow ⟨sampleConfig, sampleEscrow, sampleVault, dest, signer⟩⟩

def sampleConfigRecord : ProgramConfig where
  authority := 5
  nmcMint := 1
  platformFeeBps := 300
  feeCollector := 15
  bridgeMintLimit := 1000
  totalMinted := 0
  totalBurned := 0
  bump := 255

def sampleJob : JobEscrow where
  id := ⟨⟨#[106, 111, 98, 45, 49] ++ Array.replicate 59 0, rfl⟩, 5, by decide⟩
  consumer := 2
  provider := 3
  lockedNmc := 40
  pricePerHour := 10
  maxDurationSecs := 3600
  deadline := 0
  state := .open
  actualCost := 0
  consumerTokenAccount := 12
  providerTokenAccount := 13
  vault := sampleVault
  feeCollected := 0
  createdAt := 1700000001
  settledAt := 0
  bump := 255

/-- The chain when the programme is set up and the escrow is open. -/
def sampleOpened : State := stateAfter (Call.exec sampleRuntime) [sampleInit, sampleCreate] sampleStart

theorem sampleOpened_config :
    sampleOpened.read sampleConfig = some (.data (.config sampleConfigRecord)) := by
  decide +kernel

theorem sampleOpened_escrow :
    sampleOpened.read sampleEscrow = some (.data (.escrow sampleJob)) := by
  decide +kernel

/-- The run that sets the programme up, opens the escrow and cancels it. -/
def sampleAttempts (signer dest : Pubkey) : List Attempted :=
  attempts (Call.exec sampleRuntime) [sampleInit, sampleCreate, sampleCancel signer dest] sampleStart

theorem sampleAttempts_run (signer dest : Pubkey) :
    ∃ t, Runs sampleRuntime sampleStart (sampleAttempts signer dest) t :=
  ⟨_, CallRun.attempts _ _ _ _⟩

/-- The attempt to cancel in that run. -/
def sampleCancelled (signer dest : Pubkey) : Attempted :=
  let outcome := perform (Call.exec sampleRuntime) (sampleCancel signer dest) sampleOpened
  ⟨sampleOpened, sampleCancel signer dest, outcome.1, outcome.2⟩

theorem sampleCancelled_mem (signer dest : Pubkey) :
    sampleCancelled signer dest ∈ sampleAttempts signer dest :=
  List.mem_cons_of_mem _ (List.mem_cons_of_mem _ List.mem_cons_self)

/-- The cancellation comes last. -/
theorem mem_sampleAttempts {signer dest : Pubkey} {taken : Attempted}
    (hmem : taken ∈ sampleAttempts signer dest) :
    (∀ a, taken.call.instruction ≠ .cancelEscrow a) ∧
        (∀ a cost, taken.call.instruction ≠ .releaseEscrow a cost) ∨
      taken.call = sampleCancel signer dest ∧ taken.before = sampleOpened := by
  simp only [sampleAttempts, attempts, List.mem_cons, List.not_mem_nil, or_false] at hmem
  rcases hmem with rfl | rfl | rfl
  · exact .inl ⟨nofun, nofun⟩
  · exact .inl ⟨nofun, nofun⟩
  · exact .inr ⟨rfl, rfl⟩

/-! ### Who cancels -/

/-- An attempt to cancel a live escrow that succeeds is signed by the consumer of the escrow or by
the authority of the configuration. -/
def Consented (taken : Attempted) : Prop :=
  ∀ a esc transfers, taken.call.instruction = .cancelEscrow a →
    taken.before.read a.escrow = some (.data (.escrow esc)) → esc.Live →
    taken.output = .ok transfers →
    ∃ cfg, taken.before.read a.config = some (.data (.config cfg)) ∧
      (esc.consumer ∈ taken.call.tx.signers ∨ cfg.authority ∈ taken.call.tx.signers)

/-- A cancellation of a live escrow that neither of them signs is passed accounts that are refused. -/
def NeedsConsent (runtime : Runtime) (c : Call) (s : State) : Prop :=
  ∀ a cfg esc, c.instruction = .cancelEscrow a → s.read a.config = some (.data (.config cfg)) →
    s.read a.escrow = some (.data (.escrow esc)) → esc.Live →
    ¬ (esc.consumer ∈ c.tx.signers ∨ cfg.authority ∈ c.tx.signers) →
    ¬ a.Accepted runtime c.tx cfg esc s

variable {calls : List Attempted} {taken : Attempted}

/-- What an attempt that succeeds did. -/
theorem exec_of_output {transfers : List Transfer}
    (hattempt : tryCall (Call.exec runtime) taken.call taken.before =
      .ok (taken.output, taken.after)) (hout : taken.output = .ok transfers) :
    taken.call.exec runtime taken.before = .ok (transfers, taken.after) := by
  rw [hout] at hattempt
  exact tryCall_eq_ok.mp hattempt

theorem output_of_exec {transfers : List Transfer}
    (hattempt : tryCall (Call.exec runtime) taken.call taken.before =
      .ok (taken.output, taken.after))
    (hexec : taken.call.exec runtime taken.before = .ok (transfers, t)) :
    taken.output = .ok transfers := by
  rw [tryCall, perform, hexec] at hattempt
  exact (Prod.mk.inj (Except.ok.inj hattempt)).1.symm

theorem consented_iff (hattempt : tryCall (Call.exec runtime) taken.call taken.before =
    .ok (taken.output, taken.after)) :
    Consented taken ↔ NeedsConsent runtime taken.call taken.before := by
  constructor
  · intro hconsented a cfg esc hcall hcfg hesc hlive hunsigned haccepted
    obtain ⟨t, hcancel⟩ := cancelEscrow_of_accepted hcfg hesc hlive haccepted
    have hout := output_of_exec (t := t) hattempt (by rw [Call.exec, hcall]; exact hcancel)
    obtain ⟨cfg', hcfg', hsigned⟩ := hconsented a esc _ hcall hesc hlive hout
    rw [hcfg] at hcfg'
    cases hcfg'
    exact hunsigned hsigned
  · intro hneeds a esc transfers hcall hesc hlive hout
    have hexec := exec_of_output hattempt hout
    rw [Call.exec, hcall] at hexec
    obtain ⟨cfg, esc', _, hcfg, hesc', _, haccepted, _⟩ := cancelEscrow_eq_ok hexec
    rw [hesc] at hesc'
    cases hesc'
    refine ⟨cfg, hcfg, ?_⟩
    by_contra hunsigned
    exact hneeds a cfg esc hcall hcfg hesc hlive hunsigned haccepted

/-- In every run, cancellations have the consent of the consumer or the authority exactly when each
attempt without it is passed accounts that are refused. -/
theorem cancellations_consented_iff (hrun : Runs runtime s calls t) :
    (∀ taken ∈ calls, Consented taken) ↔
      ∀ taken ∈ calls, NeedsConsent runtime taken.call taken.before :=
  forall₂_congr fun _ hmem => consented_iff (hrun.exec_of_mem hmem)

/-- The consumer cancels an escrow. -/
theorem cancellations_consented_by_consumer :
    sampleCancelled 2 12 ∈ sampleAttempts 2 12 ∧ ∀ taken ∈ sampleAttempts 2 12, Consented taken := by
  obtain ⟨t, hrun⟩ := sampleAttempts_run 2 12
  refine ⟨sampleCancelled_mem 2 12, (cancellations_consented_iff hrun).mpr fun taken hmem => ?_⟩
  rcases mem_sampleAttempts hmem with ⟨hother, _⟩ | ⟨hcall, hbefore⟩
  · exact fun a _ _ hcancel => absurd hcancel (hother a)
  · rw [hcall, hbefore]
    intro a cfg esc hcancel _ hesc _ hunsigned
    cases hcancel
    have hread : sampleOpened.read sampleEscrow = some (.data (.escrow esc)) := hesc
    rw [sampleOpened_escrow, Option.some.injEq, Account.data.injEq, Record.escrow.injEq] at hread
    exact absurd (.inl (hread ▸ List.mem_cons_self)) hunsigned

/-- A stranger cancels it. -/
theorem cancellations_consented_fails :
    ¬ ∀ runtime s calls t, Undeployed s → Runs runtime s calls t →
      ∀ taken ∈ calls, Consented taken := by
  intro hclaim
  obtain ⟨t, hrun⟩ := sampleAttempts_run 4 14
  have hconsented := hclaim _ _ _ _ sampleStart_undeployed hrun _ (sampleCancelled_mem 4 14)
  have hout : (sampleCancelled 4 14).output =
      .ok [sampleJob.payment sampleEscrow sampleVault 14 40] := by decide +kernel
  obtain ⟨cfg, hcfg, hsigned⟩ := hconsented _ sampleJob _ rfl sampleOpened_escrow (.inl rfl) hout
  cases sampleOpened_config.symm.trans hcfg
  revert hsigned
  decide

/-! ### The configuration -/

/-- The fee is under the cap, and the account is at the one address for configurations. -/
structure ConfigSound (runtime : Runtime) (key : Pubkey) (cfg : ProgramConfig) : Prop where
  capped : cfg.platformFeeBps ≤ maxFeeBps
  found : runtime.findProgramAddress configSeeds = some (key, cfg.bump)

def ConfigsSound (runtime : Runtime) (s : State) : Prop :=
  ∀ key cfg, s.read key = some (.data (.config cfg)) → ConfigSound runtime key cfg

namespace ConfigsSound

theorem of_undeployed (hstart : Undeployed s) : ConfigsSound runtime s :=
  fun key _ hread => absurd hread (hstart key _)

theorem of_sameRecords (hsound : ConfigsSound runtime s) (hsame : s.SameRecords t) :
    ConfigsSound runtime t :=
  fun key cfg hread => hsound key cfg ((hsame key _).mp hread)

theorem write_config (hsound : ConfigsSound runtime s) {key : Pubkey} {cfg : ProgramConfig}
    (hcfg : ConfigSound runtime key cfg) :
    ConfigsSound runtime (s.write key (.data (.config cfg))) := by
  intro key' cfg' hread
  rcases Accounts.read_write_cases hread with ⟨rfl, hsame⟩ | ⟨-, hold⟩
  · cases hsame
    exact hcfg
  · exact hsound key' cfg' hold

theorem write_other (hsound : ConfigsSound runtime s) {key : Pubkey} {a : Account Record}
    (hother : ∀ cfg, a ≠ .data (.config cfg)) : ConfigsSound runtime (s.write key a) := by
  intro key' cfg' hread
  rcases Accounts.read_write_cases hread with ⟨-, hsame⟩ | ⟨-, hold⟩
  · exact absurd hsame.symm (hother cfg')
  · exact hsound key' cfg' hold

/-- Each instruction keeps every configuration sound. -/
theorem exec {c : Call} {transfers : List Transfer} (hsound : ConfigsSound runtime s)
    (hexec : c.exec runtime s = .ok (transfers, t)) : ConfigsSound runtime t := by
  obtain ⟨tx, instruction⟩ := c
  cases instruction with
  | initializeConfig a platformFeeBps bridgeMintLimit =>
      obtain ⟨bump, _, _, hfound, _, hfee, _, rfl⟩ := initializeConfig_eq_ok hexec
      exact hsound.write_config ⟨hfee, hfound⟩
  | bridgeMint a amount nonce =>
      obtain ⟨cfg, nonceAcc, u, hcfg, _, _, _, _, _, _, _, _, _, _, hminted, _, _, rfl⟩ :=
        bridgeMint_eq_ok hexec
      have hold := hsound a.config cfg hcfg
      have hafter := hsound.of_sameRecords (Accounts.mintTo_sameRecords hminted)
      refine write_other (hafter.write_config ?_) nofun
      exact ⟨hold.capped, hold.found⟩
  | bridgeBurn a amount =>
      obtain ⟨cfg, u, hcfg, _, _, _, hburned, _, _, rfl⟩ := bridgeBurn_eq_ok hexec
      have hold := hsound a.config cfg hcfg
      exact (hsound.of_sameRecords (Accounts.burn_sameRecords hburned)).write_config
        ⟨hold.capped, hold.found⟩
  | createEscrow a jobId lockedNmc pricePerHour maxDurationSecs =>
      obtain ⟨_, _, _, _, u, _, _, _, _, _, _, _, _, _, _, hsend, rfl⟩ := createEscrow_eq_ok hexec
      have hescrow : ConfigsSound runtime (s.write a.escrow (.data (.escrow .zeroed))) :=
        hsound.write_other nofun
      have hopened : ConfigsSound runtime (a.opened s) := write_other hescrow nofun
      exact (hopened.of_sameRecords (sendAll_sameRecords hsend)).write_other nofun
  | lockEscrow a =>
      obtain ⟨esc, _, _, _, _, _, _, rfl⟩ := lockEscrow_eq_ok hexec
      exact hsound.write_other nofun
  | releaseEscrow a actualCost =>
      obtain ⟨_, _, u, _, _, _, _, _, _, hsend, rfl⟩ := releaseEscrow_eq_ok hexec
      exact (hsound.of_sameRecords (sendAll_sameRecords hsend)).write_other nofun
  | cancelEscrow a =>
      obtain ⟨_, _, u, _, _, _, _, _, hsend, rfl⟩ := cancelEscrow_eq_ok hexec
      exact (hsound.of_sameRecords (sendAll_sameRecords hsend)).write_other nofun
  | updateConfig a platformFeeBps bridgeMintLimit =>
      obtain ⟨cfg, hcfg, _, _, _, hfee, _, rfl⟩ := updateConfig_eq_ok hexec
      have hold := hsound a.config cfg hcfg
      refine hsound.write_config ⟨?_, hold.found⟩
      cases platformFeeBps with
      | none => exact hold.capped
      | some fee => exact hfee fee rfl

theorem tryCall {c : Call} {r : Except Failure (List Transfer)} (hsound : ConfigsSound runtime s)
    (hattempt : tryCall (Call.exec runtime) c s = .ok (r, t)) : ConfigsSound runtime t := by
  rcases tryCall_cases hattempt with ⟨transfers, _, hexec⟩ | ⟨_, _, _, rfl⟩
  · exact hsound.exec hexec
  · exact hsound

theorem elsewhere (hsound : ConfigsSound runtime s) (hchange : Elsewhere runtime s t) :
    ConfigsSound runtime t := hsound.of_sameRecords hchange.records

end ConfigsSound

/-- At every instruction of a run the configurations are sound. -/
theorem run_configsSound (hstart : Undeployed s) (hrun : Runs runtime s calls t)
    (hmem : taken ∈ calls) : ConfigsSound runtime taken.before :=
  hrun.holds_before (.of_undeployed hstart) (fun _ _ _ _ hsound => hsound.tryCall)
    (fun _ _ hsound => hsound.elsewhere) hmem

/-- So there is at most one. -/
theorem ConfigsSound.unique (hsound : ConfigsSound runtime s) {key key' : Pubkey}
    {cfg cfg' : ProgramConfig} (hread : s.read key = some (.data (.config cfg)))
    (hread' : s.read key' = some (.data (.config cfg'))) : key' = key ∧ cfg' = cfg := by
  have hfound := (hsound key' cfg' hread').found.symm.trans (hsound key cfg hread).found
  obtain ⟨rfl, _⟩ := Prod.mk.inj (Option.some.inj hfound)
  rw [hread] at hread'
  cases hread'
  exact ⟨rfl, rfl⟩

/-! ### Where the money goes -/

/-- The accounts an escrow may pay: the two it records, and the fee collector of the
configuration. -/
def Recorded (s : State) (esc : JobEscrow) (dest : Pubkey) : Prop :=
  dest = esc.providerTokenAccount ∨ dest = esc.consumerTokenAccount ∨
    ∃ key cfg, s.read key = some (.data (.config cfg)) ∧ dest = cfg.feeCollector

/-- Each transfer that an escrow address signs is from the vault the escrow records to an account it
may pay. -/
def PaysRecorded (taken : Attempted) : Prop :=
  ∀ transfers esc, taken.output = .ok transfers → ∀ p ∈ transfers, p.seeds.isSome →
    taken.before.read p.authority = some (.data (.escrow esc)) →
    p.source = esc.vault ∧ Recorded taken.before esc p.dest

/-- Unless it is refused, the instruction is passed the vault the escrow records, and accounts the
escrow may pay wherever there is something to pay. -/
def PassesRecorded (runtime : Runtime) (c : Call) (s : State) : Prop :=
  match c.instruction with
  | .cancelEscrow a => ∀ cfg esc, s.read a.config = some (.data (.config cfg)) →
      s.read a.escrow = some (.data (.escrow esc)) → esc.Live → a.Accepted runtime c.tx cfg esc s →
      a.vault = esc.vault ∧ Recorded s esc a.consumerTokenAccount
  | .releaseEscrow a actualCost => ∀ cfg esc, s.read a.config = some (.data (.config cfg)) →
      s.read a.escrow = some (.data (.escrow esc)) → esc.state = .locked →
      actualCost ≤ esc.lockedNmc → a.Accepted runtime c.tx actualCost cfg esc s →
      (0 < esc.lockedNmc → a.vault = esc.vault) ∧
      (0 < actualCost → Recorded s esc a.providerTokenAccount) ∧
      (actualCost < esc.lockedNmc → Recorded s esc a.consumerTokenAccount)
  | _ => True

section Destinations

variable {actualCost : UInt64} {cfg : ProgramConfig} {esc : JobEscrow} {p : Transfer}

theorem sub_pos_iff {b c : UInt64} (hle : c ≤ b) : 0 < b - c ↔ c < b := by
  rw [UInt64.lt_iff_toNat_lt, UInt64.lt_iff_toNat_lt, UInt64.toNat_sub_of_le _ _ hle]
  exact Nat.sub_pos_iff_lt

/-- The payments of one escrow follow the law when each is from its vault to an account it may
pay. -/
theorem paysRecorded_iff {escrow : Pubkey} {transfers : List Transfer}
    (hout : taken.output = .ok transfers)
    (hesc : taken.before.read escrow = some (.data (.escrow esc)))
    (hsigned : ∀ p ∈ transfers, p.seeds.isSome ∧ p.authority = escrow) :
    PaysRecorded taken ↔
      ∀ p ∈ transfers, p.source = esc.vault ∧ Recorded taken.before esc p.dest := by
  constructor
  · intro hpays p hmem
    obtain ⟨hseeds, rfl⟩ := hsigned p hmem
    exact hpays transfers esc hout p hmem hseeds hesc
  · intro hall transfers' esc' hout' p hmem _ hread
    rw [hout] at hout'
    cases hout'
    rw [(hsigned p hmem).2, hesc] at hread
    cases hread
    exact hall p hmem

theorem mem_legs {a : ReleaseEscrow} : p ∈ a.legs actualCost cfg esc ↔
    (0 < actualCost - feeOf actualCost cfg.platformFeeBps ∧
      p = esc.payment a.escrow a.vault a.providerTokenAccount
        (actualCost - feeOf actualCost cfg.platformFeeBps)) ∨
    (0 < feeOf actualCost cfg.platformFeeBps ∧
      p = esc.payment a.escrow a.vault a.feeCollector (feeOf actualCost cfg.platformFeeBps)) ∨
    (0 < esc.lockedNmc - actualCost ∧
      p = esc.payment a.escrow a.vault a.consumerTokenAccount (esc.lockedNmc - actualCost)) := by
  simp only [ReleaseEscrow.legs, settlementLegs, List.mem_filter, List.mem_cons, List.not_mem_nil,
    or_false, decide_eq_true_eq]
  constructor
  · rintro ⟨rfl | rfl | rfl, hpos⟩
    · exact .inl ⟨hpos, rfl⟩
    · exact .inr (.inl ⟨hpos, rfl⟩)
    · exact .inr (.inr ⟨hpos, rfl⟩)
  · rintro (⟨hpos, rfl⟩ | ⟨hpos, rfl⟩ | ⟨hpos, rfl⟩)
    · exact ⟨.inl rfl, hpos⟩
    · exact ⟨.inr (.inl rfl), hpos⟩
    · exact ⟨.inr (.inr rfl), hpos⟩

/-- The payments of a settlement follow the law exactly when the accounts with something to pay are
recorded ones. -/
theorem legs_recorded_iff {a : ReleaseEscrow} (hcap : cfg.platformFeeBps ≤ maxFeeBps)
    (hcfg : s.read a.config = some (.data (.config cfg))) (hcost : actualCost ≤ esc.lockedNmc)
    (haccepted : a.Accepted runtime tx actualCost cfg esc s) :
    (∀ p ∈ a.legs actualCost cfg esc, p.source = esc.vault ∧ Recorded s esc p.dest) ↔
      (0 < esc.lockedNmc → a.vault = esc.vault) ∧
      (0 < actualCost → Recorded s esc a.providerTokenAccount) ∧
      (actualCost < esc.lockedNmc → Recorded s esc a.consumerTokenAccount) := by
  have hprovider : 0 < actualCost - feeOf actualCost cfg.platformFeeBps ↔ 0 < actualCost := by
    rw [sub_pos_iff (feeOf_le hcap haccepted.fits)]
    exact ⟨fun h => UInt64.lt_of_le_of_lt UInt64.zero_le h, feeOf_lt hcap haccepted.fits⟩
  have hrefund := sub_pos_iff hcost
  constructor
  · intro hall
    have hpaid : 0 < actualCost →
        a.vault = esc.vault ∧ Recorded s esc a.providerTokenAccount := fun hpos =>
      hall _ (mem_legs.mpr (.inl ⟨hprovider.mpr hpos, rfl⟩))
    have hrefunded : actualCost < esc.lockedNmc →
        a.vault = esc.vault ∧ Recorded s esc a.consumerTokenAccount := fun hlt =>
      hall _ (mem_legs.mpr (.inr (.inr ⟨hrefund.mpr hlt, rfl⟩)))
    refine ⟨fun hpos => ?_, fun hpos => (hpaid hpos).2, fun hlt => (hrefunded hlt).2⟩
    -- Something is locked, so either the provider or the consumer is paid.
    rcases UInt64.lt_or_eq_of_le hcost with hlt | heq
    · exact (hrefunded hlt).1
    · exact (hpaid (heq ▸ hpos)).1
  · rintro ⟨hvault, hpayee, hrefundee⟩ p hmem
    rcases mem_legs.mp hmem with ⟨hpos, rfl⟩ | ⟨hpos, rfl⟩ | ⟨hpos, rfl⟩
    · have hcostPos := hprovider.mp hpos
      exact ⟨hvault (UInt64.lt_of_lt_of_le hcostPos hcost), hpayee hcostPos⟩
    · have hcostPos := UInt64.lt_of_lt_of_le hpos (feeOf_le hcap haccepted.fits)
      exact ⟨hvault (UInt64.lt_of_lt_of_le hcostPos hcost),
        .inr (.inr ⟨a.config, cfg, hcfg, haccepted.collector⟩)⟩
    · have hlt := hrefund.mp hpos
      exact ⟨hvault (UInt64.lt_of_le_of_lt UInt64.zero_le hlt), hrefundee hlt⟩

end Destinations

/-- Only `release_escrow` and `cancel_escrow` pay under the signature of the programme. -/
theorem seeds_eq_none {c : Call} {transfers : List Transfer}
    (hexec : c.exec runtime s = .ok (transfers, t))
    (hrelease : ∀ a cost, c.instruction ≠ .releaseEscrow a cost)
    (hcancel : ∀ a, c.instruction ≠ .cancelEscrow a) : ∀ p ∈ transfers, p.seeds = none := by
  obtain ⟨tx, instruction⟩ := c
  cases instruction with
  | initializeConfig a platformFeeBps bridgeMintLimit =>
      obtain ⟨_, _, _, _, _, _, rfl, _⟩ := initializeConfig_eq_ok hexec
      exact nofun
  | bridgeMint a amount nonce =>
      obtain ⟨_, _, _, _, _, _, _, _, _, _, _, _, _, _, _, _, rfl, _⟩ := bridgeMint_eq_ok hexec
      exact nofun
  | bridgeBurn a amount =>
      obtain ⟨_, _, _, _, _, _, _, _, rfl, _⟩ := bridgeBurn_eq_ok hexec
      exact nofun
  | createEscrow a jobId lockedNmc pricePerHour maxDurationSecs =>
      obtain ⟨_, _, _, _, _, _, _, _, _, _, _, _, _, _, rfl, _⟩ := createEscrow_eq_ok hexec
      intro p hmem
      rw [List.mem_singleton.mp hmem]
      rfl
  | lockEscrow a =>
      obtain ⟨_, _, _, _, _, _, rfl, _⟩ := lockEscrow_eq_ok hexec
      exact nofun
  | releaseEscrow a cost => exact absurd rfl (hrelease a cost)
  | cancelEscrow a => exact absurd rfl (hcancel a)
  | updateConfig a platformFeeBps bridgeMintLimit =>
      obtain ⟨_, _, _, _, _, _, rfl, _⟩ := updateConfig_eq_ok hexec
      exact nofun

theorem paysRecorded_of_seeds (hattempt : tryCall (Call.exec runtime) taken.call taken.before =
      .ok (taken.output, taken.after))
    (hrelease : ∀ a cost, taken.call.instruction ≠ .releaseEscrow a cost)
    (hcancel : ∀ a, taken.call.instruction ≠ .cancelEscrow a) : PaysRecorded taken := by
  intro transfers esc hout p hmem hseeds _
  rw [seeds_eq_none (exec_of_output hattempt hout) hrelease hcancel p hmem] at hseeds
  cases hseeds

theorem paysRecorded_cancel_iff {a : CancelEscrow}
    (hcall : taken.call.instruction = .cancelEscrow a)
    (hattempt : tryCall (Call.exec runtime) taken.call taken.before =
      .ok (taken.output, taken.after)) :
    PaysRecorded taken ↔ PassesRecorded runtime taken.call taken.before := by
  simp only [PassesRecorded, hcall]
  constructor
  · intro hpays cfg esc hcfg hesc hlive haccepted
    obtain ⟨t, hcancel⟩ := cancelEscrow_of_accepted hcfg hesc hlive haccepted
    have hout := output_of_exec (t := t) hattempt (by rw [Call.exec, hcall]; exact hcancel)
    exact (paysRecorded_iff hout hesc (by simp [JobEscrow.payment])).mp hpays _
      List.mem_cons_self
  · intro hpasses transfers esc hout
    have hexec := exec_of_output hattempt hout
    rw [Call.exec, hcall] at hexec
    obtain ⟨cfg, esc', _, hcfg, hesc, hlive, haccepted, rfl, _⟩ := cancelEscrow_eq_ok hexec
    refine (paysRecorded_iff hout hesc (by simp [JobEscrow.payment])).mpr ?_ _ esc hout
    intro p hmem
    rw [List.mem_singleton.mp hmem]
    exact hpasses cfg esc' hcfg hesc hlive haccepted

theorem paysRecorded_release_iff {a : ReleaseEscrow} {actualCost : UInt64}
    (hcall : taken.call.instruction = .releaseEscrow a actualCost)
    (hsound : ConfigsSound runtime taken.before)
    (hattempt : tryCall (Call.exec runtime) taken.call taken.before =
      .ok (taken.output, taken.after)) :
    PaysRecorded taken ↔ PassesRecorded runtime taken.call taken.before := by
  have hsigned : ∀ cfg esc, ∀ p ∈ a.legs actualCost cfg esc,
      p.seeds.isSome ∧ p.authority = a.escrow := by
    intro cfg esc p hmem
    rcases mem_legs.mp hmem with ⟨_, rfl⟩ | ⟨_, rfl⟩ | ⟨_, rfl⟩ <;> exact ⟨rfl, rfl⟩
  simp only [PassesRecorded, hcall]
  constructor
  · intro hpays cfg esc hcfg hesc hlocked hcost haccepted
    have hcap := (hsound a.config cfg hcfg).capped
    obtain ⟨t, hrelease⟩ := releaseEscrow_of_accepted hcfg hesc hlocked hcost hcap haccepted
    have hout := output_of_exec (t := t) hattempt (by rw [Call.exec, hcall]; exact hrelease)
    exact (legs_recorded_iff hcap hcfg hcost haccepted).mp
      ((paysRecorded_iff hout hesc (hsigned cfg esc)).mp hpays)
  · intro hpasses transfers esc hout
    have hexec := exec_of_output hattempt hout
    rw [Call.exec, hcall] at hexec
    obtain ⟨cfg, esc', _, hcfg, hesc, hlocked, hcost, haccepted, rfl, _⟩ :=
      releaseEscrow_eq_ok hexec
    refine (paysRecorded_iff hout hesc (hsigned cfg esc')).mpr ?_ _ esc hout
    exact (legs_recorded_iff (hsound a.config cfg hcfg).capped hcfg hcost haccepted).mpr
      (hpasses cfg esc' hcfg hesc hlocked hcost haccepted)

theorem paysRecorded_iff_passesRecorded (hsound : ConfigsSound runtime taken.before)
    (hattempt : tryCall (Call.exec runtime) taken.call taken.before =
      .ok (taken.output, taken.after)) :
    PaysRecorded taken ↔ PassesRecorded runtime taken.call taken.before := by
  cases hcall : taken.call.instruction with
  | releaseEscrow a actualCost => exact paysRecorded_release_iff hcall hsound hattempt
  | cancelEscrow a => exact paysRecorded_cancel_iff hcall hattempt
  | _ =>
      refine iff_of_true (paysRecorded_of_seeds hattempt (by simp [hcall]) (by simp [hcall])) ?_
      simp [PassesRecorded, hcall]

/-- In every run of the programme from before its deployment, the escrows pay from their recorded
vaults to the accounts they may pay exactly when each instruction that is not refused is passed
these accounts. -/
theorem escrows_payRecorded_iff (hstart : Undeployed s) (hrun : Runs runtime s calls t) :
    (∀ taken ∈ calls, PaysRecorded taken) ↔
      ∀ taken ∈ calls, PassesRecorded runtime taken.call taken.before :=
  forall₂_congr fun _ hmem =>
    paysRecorded_iff_passesRecorded (run_configsSound hstart hrun hmem) (hrun.exec_of_mem hmem)

/-- The consumer cancels an escrow, back to the account the escrow records. -/
theorem escrows_payRecorded_to_consumer :
    sampleCancelled 2 12 ∈ sampleAttempts 2 12 ∧
      ∀ taken ∈ sampleAttempts 2 12, PaysRecorded taken := by
  obtain ⟨t, hrun⟩ := sampleAttempts_run 2 12
  refine ⟨sampleCancelled_mem 2 12,
    (escrows_payRecorded_iff sampleStart_undeployed hrun).mpr fun taken hmem => ?_⟩
  rcases mem_sampleAttempts hmem with ⟨hcancel, hrelease⟩ | ⟨hcall, hbefore⟩
  · cases hinstruction : taken.call.instruction with
    | releaseEscrow a cost => exact absurd hinstruction (hrelease a cost)
    | cancelEscrow a => exact absurd hinstruction (hcancel a)
    | _ => simp [PassesRecorded, hinstruction]
  · rw [hcall, hbefore]
    intro cfg esc _ hesc _ _
    have hread : sampleOpened.read sampleEscrow = some (.data (.escrow esc)) := hesc
    rw [sampleOpened_escrow, Option.some.injEq, Account.data.injEq, Record.escrow.injEq] at hread
    subst hread
    exact ⟨rfl, .inr (.inl rfl)⟩

/-- A stranger cancels it and has the refund sent to its own account. -/
theorem escrows_payRecorded_fails :
    ¬ ∀ runtime s calls t, Undeployed s → Runs runtime s calls t →
      ∀ taken ∈ calls, PaysRecorded taken := by
  intro hclaim
  obtain ⟨t, hrun⟩ := sampleAttempts_run 4 14
  have hpays := hclaim _ _ _ _ sampleStart_undeployed hrun _ (sampleCancelled_mem 4 14)
  have hout : (sampleCancelled 4 14).output =
      .ok [sampleJob.payment sampleEscrow sampleVault 14 40] := by decide +kernel
  obtain ⟨_, hprovider | hconsumer | ⟨key, cfg, hcfg, hcollector⟩⟩ :=
    hpays _ sampleJob hout _ List.mem_cons_self rfl sampleOpened_escrow
  · revert hprovider
    decide
  · revert hconsumer
    decide
  · have hsound := run_configsSound sampleStart_undeployed hrun (sampleCancelled_mem 4 14)
    rw [(hsound.unique sampleOpened_config hcfg).2] at hcollector
    revert hcollector
    decide

end NeuralMesh.Solana
