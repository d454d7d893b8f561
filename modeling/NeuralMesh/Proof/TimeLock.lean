import NeuralMesh.Base.Pairing
import NeuralMesh.Proof.RegistryStake

/-!
# The time lock of the staking registry

A provider has one slot for an amount that is unbonding. It is filled by a queued unstake only while
it is empty and emptied by a claim only after the period, so every claim answers a queued unstake of
its own. The other functions leave the slot alone.
-/

namespace NeuralMesh.Evm.Registry

/-- A claim of the provider. -/
def Claims (provider : Address) (taken : Record) : Prop :=
  taken.call.msg.sender = provider ∧ taken.call.method = .claimUnstake

/-- The call queued what the claim pays, a full unbonding period before it. -/
def Unlocks (provider : Address) (queued taken : Record) : Prop :=
  queued.call.msg.sender = provider ∧
    queued.call.method = .queueUnstake (claimedBy provider taken) ∧
    queued.call.msg.timestamp + unbondingPeriod ≤ taken.call.msg.timestamp

/-- The contract sends NMC to the account by this call. -/
def Receives (p : Address) (taken : Record) : Prop := ∃ payout ∈ taken.output, payout.dest = p

/-- A slash, while the account is the treasury. -/
def SlashedFor (p : Address) (taken : Record) : Prop :=
  (∃ provider amount, taken.call.method = .slash provider amount) ∧ taken.before.treasury = p

/-- What a call does to the slot of a provider. -/
inductive SlotStep (provider : Address) (c : Call) (before after : ProviderRecord) :
    List Payout → Prop
  | queue {amount : Nat} (hsender : c.msg.sender = provider)
      (hcall : c.method = .queueUnstake amount) (hempty : before.unbondingNmc = 0)
      (hamount : after.unbondingNmc = amount)
      (hends : c.msg.timestamp < 2 ^ 63 →
        after.unbondingEndsAt.toNat = c.msg.timestamp + unbondingPeriod) :
      SlotStep provider c before after []
  | claim (hsender : c.msg.sender = provider) (hcall : c.method = .claimUnstake)
      (hpending : before.unbondingNmc ≠ 0)
      (hends : before.unbondingEndsAt.toNat ≤ c.msg.timestamp) (hempty : after.unbondingNmc = 0) :
      SlotStep provider c before after [⟨provider, before.unbondingNmc⟩]
  | other (hcall : ¬ (c.msg.sender = provider ∧ c.method = .claimUnstake))
      (hamount : after.unbondingNmc = before.unbondingNmc)
      (hends : after.unbondingEndsAt = before.unbondingEndsAt) (payouts : List Payout) :
      SlotStep provider c before after payouts

section Steps

variable {self : ContractAddress} {s t : Registry} {payouts : List Payout}

/-- A call that leaves the amount and the end of the period in the record it changes. -/
theorem slotStep_setRecord {c : Call} {about provider : Address} {record : ProviderRecord}
    (hcall : c.method ≠ .claimUnstake)
    (hamount : record.unbondingNmc = (s.providers about).unbondingNmc)
    (hends : record.unbondingEndsAt = (s.providers about).unbondingEndsAt) :
    SlotStep provider c (s.providers provider) ((s.setRecord about record).providers provider)
      payouts := by
  have hother : ¬ (c.msg.sender = provider ∧ c.method = .claimUnstake) := fun h => hcall h.2
  simp only [setRecord]
  by_cases hsame : provider = about
  · subst hsame
    rw [Function.update_self]
    exact .other hother hamount hends payouts
  · rw [Function.update_of_ne hsame]
    exact .other hother rfl rfl payouts

theorem exec_slotStep {c : Call} (hexec : c.exec self s = .ok (payouts, t)) (provider : Address) :
    SlotStep provider c (s.providers provider) (t.providers provider) payouts := by
  obtain ⟨msg, method⟩ := c
  cases method with
  | registerAndStake amount providerIdPrefix =>
      obtain ⟨_, _, _, _, _, nmc, _, _, rfl⟩ := registerAndStake_eq_ok.mp hexec
      exact slotStep_setRecord Method.noConfusion rfl rfl
  | addStake amount =>
      obtain ⟨_, _, _, nmc, _, _, _, rfl⟩ := addStake_eq_ok.mp hexec
      exact slotStep_setRecord Method.noConfusion rfl rfl
  | queueUnstake amount =>
      obtain ⟨_, _, _, hempty, _, _, rfl, rfl⟩ := queueUnstake_eq_ok.mp hexec
      simp only [setRecord]
      by_cases hsender : provider = msg.sender
      · subst hsender
        rw [Function.update_self]
        exact .queue rfl rfl hempty rfl (unbondingEndsAt_queuedRecord _)
      · rw [Function.update_of_ne hsender]
        exact .other (fun h => hsender h.1.symm) rfl rfl []
  | claimUnstake =>
      obtain ⟨hpending, hends, nmc, _, rfl, rfl⟩ := claimUnstake_eq_ok.mp hexec
      simp only [setRecord]
      by_cases hsender : provider = msg.sender
      · subst hsender
        rw [Function.update_self]
        exact .claim rfl rfl hpending hends rfl
      · rw [Function.update_of_ne hsender]
        exact .other (fun h => hsender h.1.symm) rfl rfl _
  | slash slashed amount =>
      obtain ⟨_, _, _, hexec⟩ := slash_eq_ok.mp hexec
      split at hexec
      · obtain ⟨nmc, _, _, rfl⟩ := hexec
        exact slotStep_setRecord Method.noConfusion rfl rfl
      · obtain ⟨_, rfl⟩ := hexec
        exact slotStep_setRecord Method.noConfusion rfl rfl
  | setTreasury treasury =>
      obtain ⟨_, _, rfl⟩ := setTreasury_eq_ok.mp hexec
      exact .other (fun h => Method.noConfusion h.2) rfl rfl payouts
  | setPaused paused =>
      obtain ⟨_, _, rfl⟩ := setPaused_eq_ok.mp hexec
      exact .other (fun h => Method.noConfusion h.2) rfl rfl payouts

/-- NMC goes out by a claim, or to the treasury by a slash. -/
theorem exec_receives {c : Call} (hexec : c.exec self s = .ok (payouts, t)) {p : Address}
    (hreceives : Receives p ⟨s, c, payouts, t⟩) :
    Claims p ⟨s, c, payouts, t⟩ ∨ SlashedFor p ⟨s, c, payouts, t⟩ := by
  obtain ⟨msg, method⟩ := c
  obtain ⟨payout, hmem, hdest⟩ := hreceives
  have hnone : payouts = [] → payout ∉ payouts := by
    rintro rfl
    exact List.not_mem_nil
  cases method with
  | registerAndStake amount providerIdPrefix =>
      obtain ⟨_, _, _, _, _, nmc, _, hpayouts, _⟩ := registerAndStake_eq_ok.mp hexec
      exact absurd hmem (hnone hpayouts)
  | addStake amount =>
      obtain ⟨_, _, _, nmc, _, _, hpayouts, _⟩ := addStake_eq_ok.mp hexec
      exact absurd hmem (hnone hpayouts)
  | queueUnstake amount =>
      obtain ⟨_, _, _, _, _, _, hpayouts, _⟩ := queueUnstake_eq_ok.mp hexec
      exact absurd hmem (hnone hpayouts)
  | claimUnstake =>
      obtain ⟨_, _, nmc, _, rfl, _⟩ := claimUnstake_eq_ok.mp hexec
      rw [List.mem_singleton.mp hmem] at hdest
      exact .inl ⟨hdest, rfl⟩
  | slash slashed amount =>
      obtain ⟨_, _, _, hexec⟩ := slash_eq_ok.mp hexec
      split at hexec
      · obtain ⟨nmc, _, rfl, _⟩ := hexec
        rw [List.mem_singleton.mp hmem] at hdest
        exact .inr ⟨⟨slashed, amount, rfl⟩, hdest⟩
      · exact absurd hmem (hnone hexec.1)
  | setTreasury treasury => exact absurd hmem (hnone (setTreasury_eq_ok.mp hexec).2.1)
  | setPaused paused => exact absurd hmem (hnone (setPaused_eq_ok.mp hexec).2.1)

/-- Nobody but the registry gets NMC by a call that sends it none. -/
theorem exec_balance_le {c : Call} (hexec : c.exec self s = .ok (payouts, t)) {p : Address}
    (hp : p ≠ self) (hreceives : ¬ Receives p ⟨s, c, payouts, t⟩) :
    t.nmc.balanceOf p ≤ s.nmc.balanceOf p := by
  have hpaid : ∀ {payout : Payout} {nmc : Erc20}, payout ∈ payouts →
      s.nmc.move self payout.dest payout.amount = .ok nmc →
      nmc.balanceOf p ≤ s.nmc.balanceOf p := by
    intro payout nmc hmem hmove
    have hdest : p ≠ payout.dest := fun h => hreceives ⟨payout, hmem, h.symm⟩
    rw [← Erc20.le_balanceOf_move_of_ne hmove hp, if_neg hdest, Nat.add_zero]
  obtain ⟨msg, method⟩ := c
  cases method with
  | registerAndStake amount providerIdPrefix =>
      obtain ⟨_, _, _, _, _, nmc, htransfer, _, rfl⟩ := registerAndStake_eq_ok.mp hexec
      exact balanceOf_transferFrom_le htransfer hp
  | addStake amount =>
      obtain ⟨_, _, _, nmc, htransfer, _, _, rfl⟩ := addStake_eq_ok.mp hexec
      exact balanceOf_transferFrom_le htransfer hp
  | queueUnstake amount =>
      obtain ⟨_, _, _, _, _, _, _, rfl⟩ := queueUnstake_eq_ok.mp hexec
      exact le_refl _
  | claimUnstake =>
      obtain ⟨_, _, nmc, hmove, rfl, rfl⟩ := claimUnstake_eq_ok.mp hexec
      exact hpaid (List.mem_singleton_self _) hmove
  | slash slashed amount =>
      obtain ⟨_, _, _, hexec⟩ := slash_eq_ok.mp hexec
      split at hexec
      · obtain ⟨nmc, hmove, rfl, rfl⟩ := hexec
        exact hpaid (List.mem_singleton_self _) hmove
      · obtain ⟨_, rfl⟩ := hexec
        exact le_refl _
  | setTreasury treasury =>
      obtain ⟨_, _, rfl⟩ := setTreasury_eq_ok.mp hexec
      exact le_refl _
  | setPaused paused =>
      obtain ⟨_, _, rfl⟩ := setPaused_eq_ok.mp hexec
      exact le_refl _

end Steps

section Runs

/-- The claims so far answer queued unstakes, and what is pending was queued by one that no claim
has answered. -/
structure Locked (provider : Address) (calls : List Record) (record : ProviderRecord)
    (partner : Nat → Nat) : Prop where
  pairing : Pairing (Claims provider) (Unlocks provider) calls partner
  pending : record.unbondingNmc ≠ 0 → ∃ j queued,
    Unanswered (Claims provider) calls partner j queued ∧ queued.call.msg.sender = provider ∧
      queued.call.method = .queueUnstake record.unbondingNmc ∧
      queued.call.msg.timestamp + unbondingPeriod = record.unbondingEndsAt.toNat

variable {self : ContractAddress} {nmc : Erc20} {treasury admin slasher : Address}
  {s t : Registry} {calls : List Record} {payouts : List Payout}

theorem Locked.step {provider : Address} {c : Call} {partner : Nat → Nat}
    (hlocked : Locked provider calls (s.providers provider) partner)
    (htime : c.msg.timestamp < 2 ^ 63)
    (hstep : SlotStep provider c (s.providers provider) (t.providers provider) payouts) :
    ∃ partner, Locked provider (calls ++ [⟨s, c, payouts, t⟩]) (t.providers provider) partner := by
  cases hstep with
  | queue hsender hcall _ hamount hends =>
      have hqueues : ¬ Claims provider ⟨s, c, [], t⟩ := by
        intro hclaims
        rw [Claims, hcall] at hclaims
        exact Method.noConfusion hclaims.2
      refine ⟨partner, hlocked.pairing.concat hqueues, fun _ => ?_⟩
      refine ⟨_, _, hlocked.pairing.last_unanswered hqueues, hsender, ?_, (hends htime).symm⟩
      rw [hamount]
      exact hcall
  | claim hsender hcall hpending hends hempty =>
      obtain ⟨j, queued, hunanswered, hsender', hqueued, htime'⟩ := hlocked.pending hpending
      refine ⟨_, hlocked.pairing.concat_answer hunanswered ⟨hsender', ?_, ?_⟩,
        fun hleft => absurd hempty hleft⟩
      · rw [hqueued, claimedBy]
        simp only [hcall, hsender, if_true, totalAmount_cons, totalAmount_nil, Nat.add_zero]
      · rw [htime']
        exact hends
  | other hcall hamount hends =>
      refine ⟨partner, hlocked.pairing.concat hcall, fun hpending => ?_⟩
      rw [hamount] at hpending ⊢
      rw [hends]
      obtain ⟨j, queued, hunanswered, hrest⟩ := hlocked.pending hpending
      exact ⟨j, queued, Pairing.concat_unanswered hunanswered hcall, hrest⟩

theorem run_locked (hrun : Runs self (deploy nmc treasury admin slasher) calls t)
    (htime : ∀ taken ∈ calls, taken.call.msg.timestamp < 2 ^ 63) (provider : Address) :
    ∃ partner, Locked provider calls (t.providers provider) partner := by
  refine hrun.invariant
    (I := fun calls u => (∀ taken ∈ calls, taken.call.msg.timestamp < 2 ^ 63) →
      ∃ partner, Locked provider calls (u.providers provider) partner) ?_ ?_ ?_ htime
  · exact fun _ => ⟨id, .nil, fun hpending => absurd rfl hpending⟩
  · intro calls c u o v hbefore hexec htime
    rw [List.forall_mem_append, List.forall_mem_singleton] at htime
    obtain ⟨partner, hlocked⟩ := hbefore htime.1
    exact hlocked.step htime.2 (exec_slotStep hexec provider)
  · intro calls u v hbefore helsewhere htime
    rw [helsewhere.providers]
    exact hbefore htime

/-- Every claim of a provider answers an unstake of the same amount that it queued seven days
before, and no two claims the same one. Nothing else sends a provider NMC, unless it is the
treasury. -/
theorem claim_answers_queue (hrun : Runs self (deploy nmc treasury admin slasher) calls t)
    (htime : ∀ taken ∈ calls, taken.call.msg.timestamp < 2 ^ 63) (provider : Address) :
    (∃ partner, Pairing (Claims provider) (Unlocks provider) calls partner) ∧
      ∀ taken ∈ calls,
        (Receives provider taken → Claims provider taken ∨ SlashedFor provider taken) ∧
        (provider ≠ self → ¬ Receives provider taken →
          taken.after.nmc.balanceOf provider ≤ taken.before.nmc.balanceOf provider) := by
  obtain ⟨partner, hlocked⟩ := run_locked hrun htime provider
  refine ⟨⟨partner, hlocked.pairing⟩, fun taken hmem => ?_⟩
  have hexec := hrun.exec_of_mem hmem
  exact ⟨exec_receives hexec, exec_balance_le hexec⟩

end Runs

/-- The provider queues all of its 100 NMC. -/
def sampleQueueCall : Call := ⟨⟨3, 1700000600⟩, .queueUnstake (100 * 10 ^ 18)⟩

/-- It claims them at the end of the seven days. -/
def sampleClaimCall : Call := ⟨⟨3, 1700605400⟩, .claimUnstake⟩

theorem sampleClaimed_ok : ∃ calls t,
    replay (Call.exec sampleRegistry) [sampleStake, sampleQueueCall, sampleClaimCall] sampleStart =
      .ok (calls, t) := ⟨_, _, rfl⟩

theorem claim_answers_queue_claimed : ∃ calls t, Runs sampleRegistry sampleStart calls t ∧
    calls.map (claimedBy 3) = [0, 0, 100 * 10 ^ 18] ∧
    (∃ partner, Pairing (Claims 3) (Unlocks 3) calls partner) ∧
    ∀ taken ∈ calls, (Receives 3 taken → Claims 3 taken ∨ SlashedFor 3 taken) ∧
      (3 ≠ sampleRegistry.val → ¬ Receives 3 taken →
        taken.after.nmc.balanceOf 3 ≤ taken.before.nmc.balanceOf 3) := by
  obtain ⟨calls, t, hreplay⟩ := sampleClaimed_ok
  have hrun : Runs sampleRegistry sampleStart calls t := .of_replay hreplay
  have htime : ∀ taken ∈ calls, taken.call.msg.timestamp < 2 ^ 63 := by
    cases hreplay
    decide
  refine ⟨calls, t, hrun, ?_, claim_answers_queue hrun htime 3⟩
  cases hreplay
  rfl

end NeuralMesh.Evm.Registry
