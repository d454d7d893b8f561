import NeuralMesh.Proof.RegistryStake

/-!
# Who is active in the staking registry

The flag `active` is stored; the tier is derived from the stake. Every function that changes one of
them keeps them in step, and likewise the unbonding amount and the time it ends.
-/

namespace NeuralMesh.Evm.Registry

/-- The stored flag and the stake agree, and so do the amount and the time of the pending unstake. -/
structure Consistent (record : ProviderRecord) : Prop where
  active : record.active ↔ tier1MinStake ≤ record.stakedNmc
  pending : record.unbondingNmc = 0 ↔ record.unbondingEndsAt = 0

theorem one_le_tier {staked : Nat} : 1 ≤ tier staked ↔ tier1MinStake ≤ staked := by
  unfold tier tier1MinStake tier2MinStake tier3MinStake
  split
  · omega
  · split
    · omega
    · split
      · omega
      · omega

theorem Consistent.zero : Consistent .zero := by
  refine ⟨?_, iff_of_true rfl rfl⟩
  decide

theorem Consistent.queued {record : ProviderRecord} {msg : Message} {amount : Nat}
    (hactive : record.active) (hamount : amount ≠ 0)
    (hmin : record.stakedNmc - amount = 0 ∨ tier1MinStake ≤ record.stakedNmc - amount)
    (htime : msg.timestamp < 2 ^ 63) : Consistent (queuedRecord msg amount record) := by
  refine ⟨?_, iff_of_false hamount fun hzero => ?_⟩
  · have htier : tier1MinStake = 100 * 10 ^ 18 := rfl
    simp only [queuedRecord]
    split
    · rename_i hnone
      simp only [Bool.false_eq_true, false_iff]
      omega
    · rename_i hsome
      simp only [hactive, true_iff]
      omega
  · -- the end of the period does not wrap to 0
    have hends : (queuedRecord msg amount record).unbondingEndsAt.toNat =
        msg.timestamp + unbondingPeriod := unbondingEndsAt_queuedRecord record htime
    have hperiod : unbondingPeriod = 604800 := rfl
    rw [hzero, UInt64.toNat_zero] at hends
    omega

theorem Consistent.slashed {record : ProviderRecord} (hconsistent : Consistent record)
    (amount : Nat) : Consistent (slashedRecord amount record) := by
  refine ⟨?_, hconsistent.pending⟩
  have hbefore := hconsistent.active
  simp only [slashedRecord]
  split
  · rename_i hbelow
    simp only [Bool.false_eq_true, false_iff]
    omega
  · rename_i hkept
    rw [not_and] at hkept
    refine ⟨fun hactive => Nat.le_of_not_lt fun hlt => hkept hlt hactive, fun hle => ?_⟩
    exact hbefore.mpr (hle.trans (Nat.sub_le _ _))

section Runs

variable {self : ContractAddress} {s t : Registry} {payouts : List Payout}

theorem consistent_setRecord {provider p : Address} {record : ProviderRecord}
    (hconsistent : ∀ p, Consistent (s.providers p)) (hrecord : Consistent record) :
    Consistent ((s.setRecord provider record).providers p) := by
  simp only [setRecord]
  by_cases hp : p = provider
  · subst hp
    rwa [Function.update_self]
  · rw [Function.update_of_ne hp]
    exact hconsistent p

/-- A successful call keeps every record consistent. -/
theorem exec_consistent {c : Call} (htime : c.msg.timestamp < 2 ^ 63)
    (hconsistent : ∀ p, Consistent (s.providers p)) (hexec : c.exec self s = .ok (payouts, t))
    (p : Address) : Consistent (t.providers p) := by
  obtain ⟨msg, method⟩ := c
  have hsender := hconsistent msg.sender
  cases method with
  | registerAndStake amount providerIdPrefix =>
      obtain ⟨_, _, hmin, _, _, nmc, _, _, rfl⟩ := registerAndStake_eq_ok.mp hexec
      exact consistent_setRecord hconsistent ⟨iff_of_true rfl hmin, hsender.pending⟩
  | addStake amount =>
      obtain ⟨_, _, hactive, nmc, _, _, _, rfl⟩ := addStake_eq_ok.mp hexec
      have hmin := hsender.active.mp hactive
      exact consistent_setRecord hconsistent
        ⟨iff_of_true hactive (hmin.trans (Nat.le_add_right _ _)), hsender.pending⟩
  | queueUnstake amount =>
      obtain ⟨hactive, hamount, _, _, hmin, _, _, rfl⟩ := queueUnstake_eq_ok.mp hexec
      exact consistent_setRecord hconsistent (.queued hactive hamount hmin htime)
  | claimUnstake =>
      obtain ⟨_, _, nmc, _, _, rfl⟩ := claimUnstake_eq_ok.mp hexec
      exact consistent_setRecord hconsistent ⟨hsender.active, iff_of_true rfl rfl⟩
  | slash provider amount =>
      have hslashed := (hconsistent provider).slashed amount
      obtain ⟨_, _, _, hexec⟩ := slash_eq_ok.mp hexec
      split at hexec
      · obtain ⟨nmc, _, _, rfl⟩ := hexec
        exact consistent_setRecord hconsistent hslashed
      · obtain ⟨_, rfl⟩ := hexec
        exact consistent_setRecord hconsistent hslashed
  | setTreasury treasury =>
      obtain ⟨_, _, rfl⟩ := setTreasury_eq_ok.mp hexec
      exact hconsistent p
  | setPaused paused =>
      obtain ⟨_, _, rfl⟩ := setPaused_eq_ok.mp hexec
      exact hconsistent p

variable {nmc : Erc20} {treasury admin slasher : Address} {calls : List Record}

theorem run_consistent (hrun : Runs self (deploy nmc treasury admin slasher) calls t)
    (htime : ∀ taken ∈ calls, taken.call.msg.timestamp < 2 ^ 63) (p : Address) :
    Consistent (t.providers p) := by
  refine hrun.invariant
    (I := fun calls u => (∀ taken ∈ calls, taken.call.msg.timestamp < 2 ^ 63) →
      ∀ p, Consistent (u.providers p)) (fun _ _ => .zero) ?_ ?_ htime p
  · intro calls c u o v hbefore hexec htime
    rw [List.forall_mem_append, List.forall_mem_singleton] at htime
    exact exec_consistent htime.2 (hbefore htime.1) hexec
  · intro calls u v hbefore helsewhere htime
    rw [helsewhere.providers]
    exact hbefore htime

/-- A provider is active exactly when its stake makes it eligible, and has an amount unbonding
exactly when the end of its unbonding period is set. -/
theorem isActive_iff_tierOf (hrun : Runs self (deploy nmc treasury admin slasher) calls t)
    (htime : ∀ taken ∈ calls, taken.call.msg.timestamp < 2 ^ 63) (provider : Address) :
    (t.isActive provider ↔ 1 ≤ t.tierOf provider) ∧
      (1 ≤ t.tierOf provider ↔ tier1MinStake ≤ (t.providers provider).stakedNmc) ∧
      ((t.providers provider).unbondingNmc = 0 ↔ (t.providers provider).unbondingEndsAt = 0) := by
  have hconsistent := run_consistent hrun htime provider
  exact ⟨hconsistent.active.trans one_le_tier.symm, one_le_tier, hconsistent.pending⟩

/-- A slash across the threshold: 50 NMC are left, and the provider is not active any more. -/
theorem isActive_iff_tierOf_slashed : ∃ calls t, Runs sampleRegistry sampleStart calls t ∧
    (t.providers 3).stakedNmc = 50 * 10 ^ 18 ∧ (t.isActive 3 ↔ 1 ≤ t.tierOf 3) ∧
    (1 ≤ t.tierOf 3 ↔ tier1MinStake ≤ (t.providers 3).stakedNmc) ∧
    ((t.providers 3).unbondingNmc = 0 ↔ (t.providers 3).unbondingEndsAt = 0) := by
  obtain ⟨calls, t, hreplay⟩ := sampleSlashed_ok
  have hrun : Runs sampleRegistry sampleStart calls t := .of_replay hreplay
  have htime : ∀ taken ∈ calls, taken.call.msg.timestamp < 2 ^ 63 := by
    cases hreplay
    decide
  refine ⟨calls, t, hrun, ?_, isActive_iff_tierOf hrun htime 3⟩
  cases hreplay
  rfl

end Runs

end NeuralMesh.Evm.Registry
