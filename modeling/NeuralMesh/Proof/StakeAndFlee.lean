import NeuralMesh.Proof.RegistryStake

/-!
# What a slash can reach

A slash takes from the stake alone. A provider that queues an unstake right before it is slashed
moves that amount out of its reach.
-/

namespace NeuralMesh.Evm.Registry

/-- The NMC a call sends; a refused call sends nothing. -/
def sent : Result → Nat
  | .ok (payouts, _) => totalAmount payouts
  | .error _ => 0

/-- The caller may slash this provider, and the contract can do it. -/
def Slashable (msg : Message) (provider : Address) (s : Registry) : Prop :=
  s.hasRole .slash msg.sender ∧ s.treasury ≠ 0 ∧
    (s.providers provider).slashCount.toNat + 1 < 2 ^ 32

instance (msg : Message) (provider : Address) (s : Registry) :
    Decidable (Slashable msg provider s) :=
  inferInstanceAs (Decidable (_ ∧ _ ∧ _))

variable {self : ContractAddress} {msg : Message} {provider : Address} {amount : Nat}
  {s t : Registry} {payouts : List Payout}

theorem sent_slash_of_ok (hexec : slash self msg provider amount s = .ok (payouts, t)) :
    totalAmount payouts = min amount (s.providers provider).stakedNmc ∧
      (0 < totalAmount payouts → Slashable msg provider s) := by
  obtain ⟨hrole, _, hcount, hexec⟩ := slash_eq_ok.mp hexec
  rw [← slashAmount_eq]
  split at hexec
  · obtain ⟨nmc, hmove, rfl, rfl⟩ := hexec
    rw [totalAmount_cons, totalAmount_nil, Nat.add_zero]
    exact ⟨rfl, fun _ => ⟨hrole, (Erc20.move_eq_ok.mp hmove).2.1, hcount⟩⟩
  · rename_i hnone
    obtain ⟨rfl, rfl⟩ := hexec
    rw [totalAmount_nil]
    exact ⟨by omega, fun hpos => absurd hpos (Nat.lt_irrefl 0)⟩

/-- A slash that has something to take, and may, is not refused: the registry holds the stake. -/
theorem slash_accepted (hsound : Sound self s) (hslashable : Slashable msg provider s)
    (hpos : 0 < min amount (s.providers provider).stakedNmc) :
    ∃ payouts t, slash self msg provider amount s = .ok (payouts, t) := by
  obtain ⟨hrole, htreasury, hcount⟩ := hslashable
  have hstaked : (s.providers provider).stakedNmc ≠ 0 := by omega
  have htaken : 0 < slashAmount amount (s.providers provider) := by rwa [slashAmount_eq]
  have hheld : slashAmount amount (s.providers provider) ≤ s.nmc.balanceOf self := by
    calc slashAmount amount (s.providers provider)
        ≤ (s.providers provider).stakedNmc := slashAmount_le _ _
      _ ≤ (s.providers provider).held := Nat.le_add_right _ _
      _ ≤ s.nmc.balanceOf self := hsound.solvent.le provider
  obtain ⟨nmc, hmove⟩ : ∃ nmc, s.nmc.move self s.treasury
      (slashAmount amount (s.providers provider)) = .ok nmc :=
    ⟨_, Erc20.move_eq_ok.mpr ⟨self.2, htreasury, hheld, rfl⟩⟩
  simp only [slash_eq_ok, if_pos htaken]
  exact ⟨_, _, hrole, .inr hstaked, hcount, nmc, hmove, rfl, rfl⟩

/-- What a slash sends to the treasury. -/
theorem sent_slash (hsound : Sound self s) :
    sent (slash self msg provider amount s) =
      if Slashable msg provider s then min amount (s.providers provider).stakedNmc else 0 := by
  cases hexec : slash self msg provider amount s with
  | ok outcome =>
      obtain ⟨payouts, t⟩ := outcome
      obtain ⟨hsent, hslashable⟩ := sent_slash_of_ok hexec
      split
      · exact hsent
      · rename_i hnot
        exact Nat.eq_zero_of_not_pos fun hpos => hnot (hslashable hpos)
  | error e =>
      split
      · rename_i hslashable
        refine (Nat.eq_zero_of_not_pos fun hpos => ?_).symm
        obtain ⟨payouts, t, haccepted⟩ := slash_accepted hsound hslashable hpos
        rw [hexec] at haccepted
        cases haccepted
      · rfl

/-- A queued unstake takes its amount out of the stake, and leaves the rest to be slashed. -/
theorem queueUnstake_ok (hqueue : queueUnstake msg amount s = .ok (payouts, t)) :
    0 < amount ∧ amount ≤ (s.providers msg.sender).stakedNmc ∧
      (t.providers msg.sender).stakedNmc = (s.providers msg.sender).stakedNmc - amount ∧
      ∀ slasher, Slashable slasher msg.sender t ↔ Slashable slasher msg.sender s := by
  obtain ⟨_, hpos, hle, _, _, _, rfl, rfl⟩ := queueUnstake_eq_ok.mp hqueue
  refine ⟨Nat.pos_of_ne_zero hpos, hle, ?_, fun slasher => ?_⟩
  · simp only [setRecord, queuedRecord, Function.update_self]
  · simp only [Slashable, setRecord, queuedRecord, Function.update_self]

variable {nmc : Erc20} {treasury admin slasher : Address} {calls : List Record}

/-- A slash reaches all of a provider's NMC exactly when nothing of what it asks for is unbonding,
and an unstake queued right before it leaves its yield as it was exactly when what stays staked
covers it. -/
theorem slash_reach (hsealed : nmc.Sealed self)
    (hrun : Runs self (deploy nmc treasury admin slasher) calls s) (slashMsg : Message)
    (provider : Address) (amount : Nat) :
    (sent (slash self slashMsg provider amount s) =
        min amount ((s.providers provider).stakedNmc + (s.providers provider).unbondingNmc) ↔
      min amount ((s.providers provider).stakedNmc + (s.providers provider).unbondingNmc) = 0 ∨
        Slashable slashMsg provider s ∧
          (amount ≤ (s.providers provider).stakedNmc ∨ (s.providers provider).unbondingNmc = 0)) ∧
    ∀ queueMsg queued queuePayouts t, queueMsg.sender = provider →
      queueUnstake queueMsg queued s = .ok (queuePayouts, t) →
        (sent (slash self slashMsg provider amount s) ≤
            sent (slash self slashMsg provider amount t) ↔
          ¬ Slashable slashMsg provider s ∨
            amount + queued ≤ (s.providers provider).stakedNmc) := by
  have hsound := run_sound hsealed hrun
  refine ⟨?_, ?_⟩
  · rw [sent_slash hsound]
    split
    · rename_i hslashable
      simp only [hslashable, true_and]
      omega
    · rename_i hnot
      simp only [hnot, false_and, or_false]
      omega
  · rintro queueMsg queued queuePayouts t rfl hqueue
    obtain ⟨hpos, hle, hstaked, hslashable⟩ := queueUnstake_ok hqueue
    have hsound' : Sound self t :=
      (queueUnstake_effect hsound.approvals hqueue).sound hsound
    rw [sent_slash hsound, sent_slash hsound', hstaked]
    simp only [hslashable]
    split
    · rename_i hyes
      simp only [hyes, not_true_eq_false, false_or]
      omega
    · rename_i hnot
      simp only [hnot, not_false_eq_true, true_or, le_refl]

/-- The registry after the provider has staked 100 NMC. -/
def sampleStaked : Registry := stateAfter (Call.exec sampleRegistry) [sampleStake] sampleStart

theorem sampleStaked_run : ∃ calls, Runs sampleRegistry sampleStart calls sampleStaked := by
  obtain ⟨calls, hreplay⟩ : ∃ calls, replay (Call.exec sampleRegistry) [sampleStake] sampleStart =
      .ok (calls, sampleStaked) := ⟨_, rfl⟩
  exact ⟨calls, .of_replay hreplay⟩

/-- The provider's call, ten minutes later. -/
def sampleQueue : Message := ⟨3, 1700000600⟩

theorem sampleQueue_ok :
    ∃ t, queueUnstake sampleQueue (100 * 10 ^ 18) sampleStaked = .ok ([], t) :=
  ok_of_output (by decide +kernel)

/-- A slash of 100 NMC that takes all of them takes nothing behind the queued unstake, while all
of them are still in the contract. -/
theorem slash_after_queue : ∃ calls t, Runs sampleRegistry sampleStart calls sampleStaked ∧
    queueUnstake sampleQueue (100 * 10 ^ 18) sampleStaked = .ok ([], t) ∧
    sent (slash sampleRegistry sampleSlash.msg 3 (100 * 10 ^ 18) sampleStaked) = 100 * 10 ^ 18 ∧
    sent (slash sampleRegistry sampleSlash.msg 3 (100 * 10 ^ 18) t) = 0 ∧
    (t.providers 3).stakedNmc + (t.providers 3).unbondingNmc = 100 * 10 ^ 18 := by
  obtain ⟨calls, hrun⟩ := sampleStaked_run
  obtain ⟨t, hqueue⟩ := sampleQueue_ok
  have hafter : (queueUnstake sampleQueue (100 * 10 ^ 18) sampleStaked).toOption.map
      (fun r => (sent (slash sampleRegistry sampleSlash.msg 3 (100 * 10 ^ 18) r.2),
        (r.2.providers 3).stakedNmc + (r.2.providers 3).unbondingNmc)) =
      some (0, 100 * 10 ^ 18) := by decide +kernel
  rw [hqueue] at hafter
  obtain ⟨hsent, hheld⟩ := Prod.mk.inj (Option.some.inj hafter)
  exact ⟨calls, t, hrun, hqueue, by decide +kernel, hsent, hheld⟩

theorem slash_reach_queue : ∃ calls t, Runs sampleRegistry sampleStart calls sampleStaked ∧
    queueUnstake sampleQueue (100 * 10 ^ 18) sampleStaked = .ok ([], t) ∧
    (sent (slash sampleRegistry sampleSlash.msg 3 0 sampleStaked) ≤
        sent (slash sampleRegistry sampleSlash.msg 3 0 t) ↔
      ¬ Slashable sampleSlash.msg 3 sampleStaked ∨
        0 + 100 * 10 ^ 18 ≤ (sampleStaked.providers 3).stakedNmc) := by
  obtain ⟨calls, hrun⟩ := sampleStaked_run
  obtain ⟨t, hqueue⟩ := sampleQueue_ok
  exact ⟨calls, t, hrun, hqueue,
    (slash_reach sampleStakeToken_sealed hrun sampleSlash.msg 3 0).2 sampleQueue _ _ _ rfl hqueue⟩

end NeuralMesh.Evm.Registry
