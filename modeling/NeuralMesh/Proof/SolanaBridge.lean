import NeuralMesh.Proof.SolanaEscrow

/-!
# The bridge of the Solana programme

A mint shows the number that the nonce account of the authority holds and moves it on. The authority
of the configuration never changes, so one account counts all mints of a run.
-/

namespace NeuralMesh.Solana

variable {runtime : Runtime} {s t u : State} {transfers : List Transfer} {calls : List Attempted}
  {taken : Attempted} {config nonceKey key : Pubkey} {cfg : ProgramConfig} {n : BridgeNonce}

/-! ### The nonce account -/

/-- A nonce account stands at the address derived from the authority it names. -/
def NoncesSound (runtime : Runtime) (s : State) : Prop :=
  ∀ key n, s.read key = some (.data (.bridgeNonce n)) →
    runtime.findProgramAddress (bridgeNonceSeeds n.authority) = some (key, n.bump)

/-- The configuration and the nonce account of its authority. -/
structure Bridge (runtime : Runtime) (config nonceKey : Pubkey) (cfg : ProgramConfig)
    (n : BridgeNonce) (s : State) : Prop where
  configs : ConfigsSound runtime s
  nonces : NoncesSound runtime s
  config : s.read config = some (.data (.config cfg))
  nonce : s.read nonceKey = some (.data (.bridgeNonce n))
  authority : n.authority = cfg.authority

namespace Bridge

theorem of_sameRecords (hbridge : Bridge runtime config nonceKey cfg n s) (hsame : s.SameRecords t) :
    Bridge runtime config nonceKey cfg n t where
  configs := hbridge.configs.of_sameRecords hsame
  nonces key n hread := hbridge.nonces key n ((hsame key _).mp hread)
  config := (hsame _ _).mpr hbridge.config
  nonce := (hsame _ _).mpr hbridge.nonce
  authority := hbridge.authority

/-- Writing an account that is neither of the two kinds, where neither of the two is. -/
theorem write_other (hbridge : Bridge runtime config nonceKey cfg n s) {a : Account Record}
    (hconfig : ∀ cfg, a ≠ .data (.config cfg)) (hnonce : ∀ n, a ≠ .data (.bridgeNonce n))
    (hfree : ∀ cfg, s.read key ≠ some (.data (.config cfg)))
    (hfree' : ∀ n, s.read key ≠ some (.data (.bridgeNonce n))) :
    Bridge runtime config nonceKey cfg n (s.write key a) where
  configs := hbridge.configs.write_other hconfig
  nonces := by
    intro key' n' hread
    rcases Accounts.read_write_cases hread with ⟨-, hsame⟩ | ⟨-, hold⟩
    · exact absurd hsame.symm (hnonce n')
    · exact hbridge.nonces key' n' hold
  config := by
    rw [Accounts.read_write, if_neg]
    · exact hbridge.config
    · rintro rfl
      exact hfree _ hbridge.config
  nonce := by
    rw [Accounts.read_write, if_neg]
    · exact hbridge.nonce
    · rintro rfl
      exact hfree' _ hbridge.nonce
  authority := hbridge.authority

theorem write_vacant (hbridge : Bridge runtime config nonceKey cfg n s) {a : Account Record}
    (hconfig : ∀ cfg, a ≠ .data (.config cfg)) (hnonce : ∀ n, a ≠ .data (.bridgeNonce n))
    (hvacant : s.read key = none) : Bridge runtime config nonceKey cfg n (s.write key a) := by
  apply hbridge.write_other hconfig hnonce
  · simp [hvacant]
  · simp [hvacant]

theorem write_escrow (hbridge : Bridge runtime config nonceKey cfg n s) {esc new : JobEscrow}
    (hread : s.read key = some (.data (.escrow esc))) :
    Bridge runtime config nonceKey cfg n (s.write key (.data (.escrow new))) := by
  apply hbridge.write_other
  · simp
  · simp
  · simp [hread]
  · simp [hread]

/-- The configuration may change, its authority and its address may not. -/
theorem write_config (hbridge : Bridge runtime config nonceKey cfg n s) (new : ProgramConfig)
    (hsound : ConfigSound runtime config new) (hauthority : new.authority = cfg.authority) :
    Bridge runtime config nonceKey new n (s.write config (.data (.config new))) where
  configs := hbridge.configs.write_config hsound
  nonces := by
    intro key' n' hread
    rcases Accounts.read_write_cases hread with ⟨-, hsame⟩ | ⟨-, hold⟩
    · cases hsame
    · exact hbridge.nonces key' n' hold
  config := by rw [Accounts.read_write, if_pos rfl]
  nonce := by
    rw [Accounts.read_write, if_neg]
    · exact hbridge.nonce
    · rintro rfl
      cases hbridge.config.symm.trans hbridge.nonce
  authority := hbridge.authority.trans hauthority.symm

theorem write_nonce (hbridge : Bridge runtime config nonceKey cfg n s) (nextNonce : UInt64) :
    Bridge runtime config nonceKey cfg { n with nextNonce }
      (s.write nonceKey (.data (.bridgeNonce { n with nextNonce }))) where
  configs := hbridge.configs.write_other nofun
  nonces := by
    intro key' n' hread
    rcases Accounts.read_write_cases hread with ⟨rfl, hsame⟩ | ⟨-, hold⟩
    · cases hsame
      exact hbridge.nonces key' n hbridge.nonce
    · exact hbridge.nonces key' n' hold
  config := by
    rw [Accounts.read_write, if_neg]
    · exact hbridge.config
    · rintro rfl
      cases hbridge.config.symm.trans hbridge.nonce
  nonce := by rw [Accounts.read_write, if_pos rfl]
  authority := hbridge.authority

/-- No other account counts the mints of this authority. -/
theorem nonce_unique (hbridge : Bridge runtime config nonceKey cfg n s) {n' : BridgeNonce}
    (hread : s.read key = some (.data (.bridgeNonce n'))) (howner : n'.authority = cfg.authority) :
    key = nonceKey ∧ n' = n := by
  have hsame : n'.authority = n.authority := howner.trans hbridge.authority.symm
  have hfound := hbridge.nonces nonceKey n hbridge.nonce
  rw [← hsame, hbridge.nonces key n' hread] at hfound
  obtain ⟨rfl, _⟩ := Prod.mk.inj (Option.some.inj hfound)
  cases hread.symm.trans hbridge.nonce
  exact ⟨rfl, rfl⟩

end Bridge

/-! ### One instruction -/

/-- What a mint that goes through does to the bridge. -/
structure Mints (config nonceKey : Pubkey) (cfg : ProgramConfig) (n : BridgeNonce)
    (a : BridgeMint) (amount nonce : UInt64) : Prop where
  config : a.config = config
  nonceKey : a.bridgeNonce = nonceKey
  limit : amount ≤ cfg.bridgeMintLimit
  next : nonce = n.nextNonce
  nextFits : nonce.toNat + 1 < 2 ^ 64
  totalFits : cfg.totalMinted.toNat + amount.toNat < 2 ^ 64

theorem Bridge.exec_mint {tx : Tx} {a : BridgeMint} {amount nonce : UInt64}
    (hbridge : Bridge runtime config nonceKey cfg n s)
    (hexec : bridgeMint runtime tx a amount nonce s = .ok (transfers, t)) :
    Mints config nonceKey cfg n a amount nonce ∧
      Bridge runtime config nonceKey { cfg with totalMinted := cfg.totalMinted + amount }
        { n with nextNonce := nonce + 1 } t := by
  obtain ⟨cfg', n', u, hcfg, hnonce, _, _, hauthority, _, _, howner, hlimit, hnext, hfits, hminted,
    htotal, _, rfl⟩ := bridgeMint_eq_ok hexec
  obtain ⟨hconfig, rfl⟩ := hbridge.configs.unique hbridge.config hcfg
  obtain ⟨hkey, rfl⟩ := hbridge.nonce_unique hnonce (howner.trans hauthority.symm)
  have hsound := hbridge.configs config cfg' hbridge.config
  rw [hconfig, hkey]
  constructor
  · exact ⟨hconfig, hkey, hlimit, hnext, hfits, htotal⟩
  · have hafter := hbridge.of_sameRecords (Accounts.mintTo_sameRecords hminted)
    exact (hafter.write_config { cfg' with totalMinted := cfg'.totalMinted + amount }
      ⟨hsound.capped, hsound.found⟩ rfl).write_nonce _

/-- Another instruction leaves the counters alone. -/
theorem Bridge.exec_other {c : Call} (hbridge : Bridge runtime config nonceKey cfg n s)
    (hother : ∀ a amount nonce, c.instruction ≠ .bridgeMint a amount nonce)
    (hexec : c.exec runtime s = .ok (transfers, t)) :
    ∃ cfg', cfg'.totalMinted = cfg.totalMinted ∧ Bridge runtime config nonceKey cfg' n t := by
  have hsound := hbridge.configs config cfg hbridge.config
  obtain ⟨tx, instruction⟩ := c
  cases instruction with
  | initializeConfig a platformFeeBps bridgeMintLimit =>
      obtain ⟨bump, _, _, hfound, hvacant, _⟩ := initializeConfig_eq_ok hexec
      -- The one address is taken.
      have hkey := hfound.symm.trans hsound.found
      obtain ⟨rfl, _⟩ := Prod.mk.inj (Option.some.inj hkey)
      cases hvacant.symm.trans hbridge.config
  | bridgeMint a amount nonce => exact absurd rfl (hother a amount nonce)
  | bridgeBurn a amount =>
      obtain ⟨cfg', u, hcfg, _, _, _, hburned, _, _, rfl⟩ := bridgeBurn_eq_ok hexec
      obtain ⟨rfl, rfl⟩ := hbridge.configs.unique hbridge.config hcfg
      have hafter := hbridge.of_sameRecords (Accounts.burn_sameRecords hburned)
      refine ⟨{ cfg' with totalBurned := cfg'.totalBurned + amount }, rfl, ?_⟩
      exact hafter.write_config _ ⟨hsound.capped, hsound.found⟩ rfl
  | createEscrow a jobId lockedNmc pricePerHour maxDurationSecs =>
      obtain ⟨_, _, _, _, u, _, _, _, hvacant, _, ⟨hne, hvaultVacant⟩, _, _, _, _, hsend, rfl⟩ :=
        createEscrow_eq_ok hexec
      have hescrow : Bridge runtime config nonceKey cfg n
          (s.write a.escrow (.data (.escrow .zeroed))) :=
        hbridge.write_vacant (by simp) (by simp) hvacant
      have hopened : Bridge runtime config nonceKey cfg n (a.opened s) := by
        apply hescrow.write_vacant (by simp) (by simp)
        rw [Accounts.read_write, if_neg hne, hvaultVacant]
      have hzeroed : (a.opened s).read a.escrow = some (.data (.escrow .zeroed)) := by
        simp [CreateEscrow.opened, hne.symm]
      have hsame := sendAll_sameRecords hsend
      exact ⟨cfg, rfl, (hopened.of_sameRecords hsame).write_escrow ((hsame _ _).mpr hzeroed)⟩
  | lockEscrow a =>
      obtain ⟨esc, hesc, _, _, _, _, _, rfl⟩ := lockEscrow_eq_ok hexec
      exact ⟨cfg, rfl, hbridge.write_escrow hesc⟩
  | releaseEscrow a actualCost =>
      obtain ⟨_, esc, u, _, hesc, _, _, _, _, hsend, rfl⟩ := releaseEscrow_eq_ok hexec
      have hsame := sendAll_sameRecords hsend
      exact ⟨cfg, rfl, (hbridge.of_sameRecords hsame).write_escrow ((hsame _ _).mpr hesc)⟩
  | cancelEscrow a =>
      obtain ⟨_, esc, u, _, hesc, _, _, _, hsend, rfl⟩ := cancelEscrow_eq_ok hexec
      have hsame := sendAll_sameRecords hsend
      exact ⟨cfg, rfl, (hbridge.of_sameRecords hsame).write_escrow ((hsame _ _).mpr hesc)⟩
  | updateConfig a platformFeeBps bridgeMintLimit =>
      obtain ⟨cfg', hcfg, _, _, _, hfee, _, rfl⟩ := updateConfig_eq_ok hexec
      obtain ⟨rfl, rfl⟩ := hbridge.configs.unique hbridge.config hcfg
      refine ⟨_, ?_, hbridge.write_config _ ⟨?_, hsound.found⟩ rfl⟩
      · rfl
      cases platformFeeBps with
      | none => exact hsound.capped
      | some fee => exact hfee fee rfl

/-! ### The mints of a run -/

/-- A mint that went through. -/
structure Minted where
  accounts : BridgeMint
  amount : UInt64
  nonce : UInt64

def minted (taken : Attempted) : Option Minted :=
  match taken.call.instruction, taken.output with
  | .bridgeMint accounts amount nonce, .ok _ => some { accounts, amount, nonce }
  | _, _ => none

def mints (calls : List Attempted) : List Minted := calls.filterMap minted

theorem mints_concat (calls : List Attempted) (taken : Attempted) :
    mints (calls ++ [taken]) = mints calls ++ (minted taken).toList := by
  rw [mints, List.filterMap_append, mints]
  cases hminted : minted taken with
  | none => simp [hminted]
  | some m => simp [hminted]

/-- The bridge after these mints. -/
structure Counted (start : ProgramConfig) (first : BridgeNonce) (done : List Minted)
    (cfg : ProgramConfig) (n : BridgeNonce) : Prop where
  nonces : done.map (fun m => m.nonce.toNat) = List.range' first.nextNonce.toNat done.length
  next : n.nextNonce.toNat = first.nextNonce.toNat + done.length
  total : cfg.totalMinted.toNat = start.totalMinted.toNat +
    (done.map fun m => m.amount.toNat).sum

theorem Counted.mint {start : ProgramConfig} {first : BridgeNonce} {done : List Minted}
    (hcounted : Counted start first done cfg n) {m : Minted}
    (hmints : Mints config nonceKey cfg n m.accounts m.amount m.nonce) :
    Counted start first (done ++ [m]) { cfg with totalMinted := cfg.totalMinted + m.amount }
      { n with nextNonce := m.nonce + 1 } := by
  have hnonce : m.nonce.toNat = first.nextNonce.toNat + done.length := by
    rw [hmints.next, hcounted.next]
  have hnext : (m.nonce + 1).toNat = m.nonce.toNat + 1 := by
    rw [UInt64.toNat_add]
    exact Nat.mod_eq_of_lt hmints.nextFits
  have htotal : (cfg.totalMinted + m.amount).toNat = cfg.totalMinted.toNat + m.amount.toNat := by
    rw [UInt64.toNat_add, Nat.mod_eq_of_lt hmints.totalFits]
  constructor
  · rw [List.map_append, hcounted.nonces, List.length_append, List.length_singleton,
      List.range'_concat, List.map_singleton, hnonce, Nat.one_mul]
  · show (m.nonce + 1).toNat = _
    rw [hnext, hnonce, List.length_append, List.length_singleton]
    omega
  · show (cfg.totalMinted + m.amount).toNat = _
    rw [htotal, hcounted.total, List.map_append, List.sum_append, List.map_singleton,
      List.sum_singleton]
    omega

/-- A mint stays under the limit in force. -/
def WithinLimit (config : Pubkey) (taken : Attempted) : Prop :=
  ∀ m, minted taken = some m →
    ∃ cfg, taken.before.read config = some (.data (.config cfg)) ∧ m.amount ≤ cfg.bridgeMintLimit

/-- After any run the bridge has counted the mints of the run, and none of them was over the limit. -/
theorem run_counted (hstart : Bridge runtime config nonceKey cfg n s)
    (hrun : Runs runtime s calls t) :
    (∃ cfg' n', Bridge runtime config nonceKey cfg' n' t ∧ Counted cfg n (mints calls) cfg' n') ∧
      ∀ taken ∈ calls, WithinLimit config taken := by
  refine hrun.invariant (I := fun calls t => (∃ cfg' n', Bridge runtime config nonceKey cfg' n' t ∧
    Counted cfg n (mints calls) cfg' n') ∧ ∀ taken ∈ calls, WithinLimit config taken) ?_ ?_ ?_
  · refine ⟨⟨cfg, n, hstart, rfl, rfl, rfl⟩, ?_⟩
    intro taken hmem
    cases hmem
  · intro calls c t r u ⟨⟨cfg', n', hbridge, hcounted⟩, hlimits⟩ hattempt
    rcases tryCall_cases hattempt with ⟨transfers, rfl, hexec⟩ | ⟨e, rfl, _, rfl⟩
    · by_cases hmint : ∃ a amount nonce, c.instruction = .bridgeMint a amount nonce
      · obtain ⟨a, amount, nonce, hinstruction⟩ := hmint
        have hdone : minted ⟨t, c, .ok transfers, u⟩ = some ⟨a, amount, nonce⟩ := by
          simp [minted, hinstruction]
        rw [Call.exec, hinstruction] at hexec
        obtain ⟨hmints, hafter⟩ := hbridge.exec_mint hexec
        rw [mints_concat, hdone]
        refine ⟨⟨_, _, hafter, hcounted.mint (m := ⟨a, amount, nonce⟩) hmints⟩,
          forall_mem_concat hlimits ?_⟩
        intro m hm
        cases hdone.symm.trans hm
        exact ⟨cfg', hbridge.config, hmints.limit⟩
      · have hother : ∀ a amount nonce, c.instruction ≠ .bridgeMint a amount nonce :=
          fun a amount nonce h => hmint ⟨a, amount, nonce, h⟩
        have hnone : minted ⟨t, c, .ok transfers, u⟩ = none := by
          unfold minted
          split
          · rename_i hinstruction _
            exact absurd hinstruction (hother _ _ _)
          · rfl
        obtain ⟨cfg'', htotal, hafter⟩ := hbridge.exec_other hother hexec
        rw [mints_concat, hnone, Option.toList_none, List.append_nil]
        refine ⟨⟨cfg'', n', hafter, hcounted.nonces, hcounted.next, ?_⟩,
          forall_mem_concat hlimits ?_⟩
        · rw [htotal, hcounted.total]
        · intro m hm
          cases hnone.symm.trans hm
    · have hnone : minted ⟨u, c, .error e, u⟩ = none := by
        unfold minted
        split
        · rename_i houtput
          cases houtput
        · rfl
      rw [mints_concat, hnone, Option.toList_none, List.append_nil]
      refine ⟨⟨cfg', n', hbridge, hcounted⟩, forall_mem_concat hlimits ?_⟩
      intro m hm
      cases hnone.symm.trans hm
  · intro calls t u ⟨⟨cfg', n', hbridge, hcounted⟩, hlimits⟩ hchange
    exact ⟨⟨cfg', n', hbridge.of_sameRecords hchange.records, hcounted⟩, hlimits⟩

/-- From a state with a nonce account at `nextNonce`, the mints of any run that go through show the
numbers from there on in order, each is under the limit in force, and the configuration holds their
sum. A call that fails changes nothing. -/
theorem bridge_mints_in_order (hstart : Bridge runtime config nonceKey cfg n s)
    (hrun : Runs runtime s calls t) :
    (mints calls).map (fun m => m.nonce.toNat) =
        List.range' n.nextNonce.toNat (mints calls).length ∧
      (∀ taken ∈ calls, WithinLimit config taken) ∧
      (∃ cfg' n', t.read config = some (.data (.config cfg')) ∧
        t.read nonceKey = some (.data (.bridgeNonce n')) ∧
        n'.nextNonce.toNat = n.nextNonce.toNat + (mints calls).length ∧
        cfg'.totalMinted.toNat = cfg.totalMinted.toNat +
          ((mints calls).map fun m => m.amount.toNat).sum) ∧
      ∀ taken ∈ calls, ∀ e, taken.output = .error e → taken.after = taken.before := by
  obtain ⟨⟨cfg', n', hbridge, hcounted⟩, hlimits⟩ := run_counted hstart hrun
  refine ⟨hcounted.nonces, hlimits,
    ⟨cfg', n', hbridge.config, hbridge.nonce, hcounted.next, hcounted.total⟩, ?_⟩
  intro taken hmem e hfailed
  have hattempt := hrun.exec_of_mem hmem
  rw [hfailed] at hattempt
  rcases tryCall_cases hattempt with ⟨_, hok, _⟩ | ⟨_, _, _, hsame⟩
  · cases hok
  · exact hsame

/-! ### A sample bridge -/

def sampleNonceKey : Pubkey :=
  sampleRuntime.digest (utf8 "bridge_nonce" ++ Pubkey.bytes 5 ++ [255])

def sampleNonce : BridgeNonce where
  authority := 5
  nextNonce := 7
  bump := 255

/-- The mint 1 of the configuration, and the token account 12. -/
def sampleBridge : State where
  read key :=
    if key = sampleConfig then some (.data (.config sampleConfigRecord))
    else if key = sampleNonceKey then some (.data (.bridgeNonce sampleNonce))
    else if key = 1 then some (.mint ⟨some sampleConfig, 100⟩)
    else if key = 12 then some (.token ⟨1, 2, 100, none, 0, false⟩)
    else none

theorem sampleBridge_bridge :
    Bridge sampleRuntime sampleConfig sampleNonceKey sampleConfigRecord sampleNonce sampleBridge where
  configs := by
    intro key cfg hread
    simp only [sampleBridge] at hread
    split at hread
    · rename_i hkey
      cases hread
      rw [hkey]
      exact ⟨by decide, by decide +kernel⟩
    · split at hread
      · cases hread
      · split at hread
        · cases hread
        · split at hread
          · cases hread
          · cases hread
  nonces := by
    intro key n hread
    simp only [sampleBridge] at hread
    split at hread
    · cases hread
    · split at hread
      · rename_i hkey
        cases hread
        rw [hkey]
        decide +kernel
      · split at hread
        · cases hread
        · split at hread
          · cases hread
          · cases hread
  config := by decide +kernel
  nonce := by decide +kernel
  authority := rfl

def sampleMint (amount nonce : UInt64) : Call :=
  ⟨⟨[5], 1700000000⟩, .bridgeMint ⟨sampleConfig, 1, 12, sampleNonceKey, 5⟩ amount nonce⟩

/-- Two mints, between them the first once more and one over the limit. -/
def sampleMints : List Attempted :=
  attempts (Call.exec sampleRuntime)
    [sampleMint 10 7, sampleMint 10 7, sampleMint 2000 8, sampleMint 5 8] sampleBridge

theorem bridge_mints_in_order_sample :
    (mints sampleMints).map (fun m => m.nonce.toNat) = [7, 8] ∧
      (mints sampleMints).map (fun m => m.amount.toNat) = [10, 5] ∧
      (∀ taken ∈ sampleMints, WithinLimit sampleConfig taken) ∧
      ∃ cfg, (stateAfter (Call.exec sampleRuntime)
          [sampleMint 10 7, sampleMint 10 7, sampleMint 2000 8, sampleMint 5 8]
          sampleBridge).read sampleConfig = some (.data (.config cfg)) ∧
        cfg.totalMinted.toNat = 15 := by
  have hamounts : (mints sampleMints).map (fun m => m.amount.toNat) = [10, 5] := by decide +kernel
  obtain ⟨hnonces, hlimits, ⟨cfg, _, hcfg, _, _, htotal⟩, _⟩ :=
    bridge_mints_in_order sampleBridge_bridge (CallRun.attempts _ _ _ _)
  rw [← sampleMints] at hnonces hlimits htotal
  have hlength : (mints sampleMints).length = 2 := by
    rw [← List.length_map (fun m : Minted => m.amount.toNat), hamounts]
    rfl
  refine ⟨?_, hamounts, hlimits, cfg, hcfg, ?_⟩
  · rw [hnonces, hlength]
    rfl
  · rw [htotal, hamounts]
    rfl

end NeuralMesh.Solana
