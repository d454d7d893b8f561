import NeuralMesh.Proof.RegistryStake

/-!
# Getting a stake back

A provider takes its NMC out of the registry by queueing all of its stake and claiming what is
unbonding. Only an active provider may queue, and a slash can leave a provider inactive with a part
of its stake.
-/

namespace NeuralMesh.Evm.Registry

/-- Transactions of the provider that pay nothing in, in order and from this time on. -/
structure OwnExit (provider : Address) (now : Nat) (cs : List Call) : Prop where
  own : ∀ c ∈ cs, c.msg.sender = provider ∧
    (c.method = .claimUnstake ∨ ∃ amount, c.method = .queueUnstake amount)
  chronological : (now :: cs.map fun c => c.msg.timestamp).Pairwise (· ≤ ·)

/-- The provider can take this amount out by itself. -/
def TakesOut (self : ContractAddress) (provider : Address) (now amount : Nat) (s : Registry) :
    Prop :=
  ∃ cs calls t, OwnExit provider now cs ∧ replay (Call.exec self) cs s = .ok (calls, t) ∧
    t.nmc.balanceOf provider = s.nmc.balanceOf provider + amount

/-- The provider can take out everything it has in the registry. -/
def CanExit (self : ContractAddress) (provider : Address) (now : Nat) (s : Registry) : Prop :=
  TakesOut self provider now
    ((s.providers provider).stakedNmc + (s.providers provider).unbondingNmc) s

/-- A slash of the provider by this call leaves it nothing or a full stake. -/
def LeavesWhole (provider : Address) (taken : Record) : Prop :=
  ∀ amount, taken.call.method = .slash provider amount →
    (taken.before.providers provider).stakedNmc ≤ amount ∨
      tier1MinStake + amount ≤ (taken.before.providers provider).stakedNmc

variable {self : ContractAddress} {provider : Address} {now amount : Nat} {s t : Registry}
  {payouts : List Payout}

/-! ### Who can have a stake -/

/-- What the registry holds was paid by an account that can be paid back. -/
def Funded (self : Address) (s : Registry) : Prop :=
  ∀ provider, (s.providers provider).held ≠ 0 → provider ≠ 0 ∧ provider ≠ self

theorem payer_of_transferFrom {nmc nmc' : Erc20} {self source : Address} {value : Nat}
    (htransfer : nmc.transferFrom self source self value = .ok nmc') (hsealed : nmc.Sealed self)
    (hvalue : value ≠ 0) : source ≠ 0 ∧ source ≠ self := by
  obtain ⟨u, hspend, hmove⟩ := bind_eq_ok.mp htransfer
  obtain ⟨_, _, hzero⟩ := Erc20.spendAllowance_sealed hspend hsealed
  exact ⟨(Erc20.move_eq_ok.mp hmove).1, fun h => hvalue (hzero h.symm)⟩

theorem funded_setRecord {record : ProviderRecord} (hfunded : Funded self s)
    (hrecord : record.held ≠ 0 → provider ≠ 0 ∧ provider ≠ self) :
    Funded self (s.setRecord provider record) := by
  intro p hheld
  simp only [setRecord] at hheld
  by_cases hp : p = provider
  · subst hp
    rw [Function.update_self] at hheld
    exact hrecord hheld
  · rw [Function.update_of_ne hp] at hheld
    exact hfunded p hheld

theorem exec_funded {c : Call} (hsealed : s.nmc.Sealed self) (hfunded : Funded self s)
    (hexec : c.exec self s = .ok (payouts, t)) : Funded self t := by
  obtain ⟨msg, method⟩ := c
  -- a call that takes from a record leaves it to whom it belonged
  have hless : ∀ {p : Address} {record : ProviderRecord},
      record.held ≤ (s.providers p).held → record.held ≠ 0 → p ≠ 0 ∧ p ≠ self :=
    fun hle hheld => hfunded _ fun hzero => hheld (Nat.le_zero.mp (hzero ▸ hle))
  cases method with
  | registerAndStake amount providerIdPrefix =>
      obtain ⟨_, hamount, _, _, _, nmc, htransfer, _, rfl⟩ := registerAndStake_eq_ok.mp hexec
      exact funded_setRecord hfunded fun _ => payer_of_transferFrom htransfer hsealed hamount
  | addStake amount =>
      obtain ⟨_, hamount, _, nmc, htransfer, _, _, rfl⟩ := addStake_eq_ok.mp hexec
      exact funded_setRecord hfunded fun _ => payer_of_transferFrom htransfer hsealed hamount
  | queueUnstake amount =>
      obtain ⟨_, _, hle, hnone, _, _, _, rfl⟩ := queueUnstake_eq_ok.mp hexec
      refine funded_setRecord hfunded (hless ?_)
      simp only [ProviderRecord.held, queuedRecord] at hle ⊢
      omega
  | claimUnstake =>
      obtain ⟨_, _, nmc, _, _, rfl⟩ := claimUnstake_eq_ok.mp hexec
      refine funded_setRecord hfunded (hless ?_)
      simp only [ProviderRecord.held, claimedRecord]
      omega
  | slash slashed amount =>
      have hheld : (slashedRecord amount (s.providers slashed)).held ≤
          (s.providers slashed).held := by
        simp only [ProviderRecord.held, slashedRecord]
        omega
      obtain ⟨_, _, _, hexec⟩ := slash_eq_ok.mp hexec
      split at hexec
      · obtain ⟨nmc, _, _, rfl⟩ := hexec
        exact funded_setRecord hfunded (hless hheld)
      · obtain ⟨_, rfl⟩ := hexec
        exact funded_setRecord hfunded (hless hheld)
  | setTreasury treasury =>
      obtain ⟨_, _, rfl⟩ := setTreasury_eq_ok.mp hexec
      exact hfunded
  | setPaused paused =>
      obtain ⟨_, _, rfl⟩ := setPaused_eq_ok.mp hexec
      exact hfunded

/-! ### The transactions of an exit -/

theorem takesOut_nothing (self : ContractAddress) (provider : Address) (now : Nat) (s : Registry) :
    TakesOut self provider now 0 s := by
  refine ⟨[], [], s, ⟨fun c hc => ?_, ?_⟩, rfl, rfl⟩
  · cases hc
  · exact List.pairwise_singleton _ _

/-- One transaction more before an exit. -/
theorem TakesOut.cons {c : Call} {gained : Nat} (hsender : c.msg.sender = provider)
    (hmethod : c.method = .claimUnstake ∨ ∃ amount, c.method = .queueUnstake amount)
    (hnow : now ≤ c.msg.timestamp) (hexec : c.exec self s = .ok (payouts, t))
    (hgained : t.nmc.balanceOf provider = s.nmc.balanceOf provider + gained)
    (hrest : TakesOut self provider c.msg.timestamp amount t) :
    TakesOut self provider now (gained + amount) s := by
  obtain ⟨cs, calls, u, hown, hreplay, hbalance⟩ := hrest
  refine ⟨c :: cs, ⟨s, c, payouts, t⟩ :: calls, u, ⟨?_, ?_⟩, ?_, ?_⟩
  · rw [List.forall_mem_cons]
    exact ⟨⟨hsender, hmethod⟩, hown.own⟩
  · rw [List.map_cons, List.pairwise_cons]
    refine ⟨fun time htime => ?_, hown.chronological⟩
    cases htime with
    | head => exact hnow
    | tail _ hlater => exact hnow.trans (List.rel_of_pairwise_cons hown.chronological hlater)
  · simp only [replay, bind_eq_ok, pure_eq_ok, Prod.exists]
    exact ⟨payouts, t, hexec, calls, u, hreplay, rfl⟩
  · rw [hbalance, hgained, Nat.add_assoc]

/-- What is unbonding can be claimed as soon as the period is over. -/
theorem takesOut_unbonding (hsound : Sound self s) (hfunded : Funded self s)
    (hpending : (s.providers provider).unbondingNmc ≠ 0)
    (hrest : ∀ t, Sound self t → Funded self t →
      t.providers provider = claimedRecord (s.providers provider) →
      TakesOut self provider (max now (s.providers provider).unbondingEndsAt.toNat) amount t) :
    TakesOut self provider now ((s.providers provider).unbondingNmc + amount) s := by
  have hheld : (s.providers provider).unbondingNmc ≤ (s.providers provider).held :=
    Nat.le_add_left _ _
  obtain ⟨hzero, hself⟩ := hfunded provider (by omega)
  have hbalance : (s.providers provider).unbondingNmc ≤ s.nmc.balanceOf self :=
    hheld.trans (hsound.solvent.le provider)
  obtain ⟨nmc, hmove⟩ : ∃ nmc, s.nmc.move self provider (s.providers provider).unbondingNmc =
      .ok nmc := ⟨_, Erc20.move_eq_ok.mpr ⟨self.2, hzero, hbalance, rfl⟩⟩
  let c : Call := ⟨⟨provider, max now (s.providers provider).unbondingEndsAt.toNat⟩, .claimUnstake⟩
  obtain ⟨t, hexec, hnmc, hprovider⟩ : ∃ t,
      c.exec self s = .ok ([⟨provider, (s.providers provider).unbondingNmc⟩], t) ∧ t.nmc = nmc ∧
        t.providers provider = claimedRecord (s.providers provider) := by
    refine ⟨_, claimUnstake_eq_ok.mpr ⟨hpending, le_max_right _ _, nmc, hmove, rfl, rfl⟩, rfl, ?_⟩
    exact Function.update_self _ _ _
  have hgained : t.nmc.balanceOf provider =
      s.nmc.balanceOf provider + (s.providers provider).unbondingNmc := by
    rw [hnmc, ← Erc20.le_balanceOf_move_of_ne hmove hself, if_pos rfl]
  refine .cons rfl (.inl rfl) (le_max_left _ _) hexec hgained ?_
  exact hrest t ((exec_effect hsound.approvals hexec).sound hsound)
    (exec_funded hsound.approvals hfunded hexec) hprovider

/-- An active provider with nothing pending queues its whole stake and claims it. -/
theorem takesOut_staked (hsound : Sound self s) (hfunded : Funded self s)
    (hactive : (s.providers provider).active) (hnone : (s.providers provider).unbondingNmc = 0)
    (hnow : now + unbondingPeriod ≤ uint256Max) :
    TakesOut self provider now (s.providers provider).stakedNmc s := by
  have hstaked : (s.providers provider).stakedNmc ≠ 0 := by
    have hmin := hsound.active provider hactive
    have htier : tier1MinStake = 100 * 10 ^ 18 := rfl
    omega
  let c : Call := ⟨⟨provider, now⟩, .queueUnstake (s.providers provider).stakedNmc⟩
  obtain ⟨t, hexec, hnmc, hprovider⟩ : ∃ t, c.exec self s = .ok ([], t) ∧ t.nmc = s.nmc ∧
      t.providers provider =
        queuedRecord c.msg (s.providers provider).stakedNmc (s.providers provider) := by
    refine ⟨_, queueUnstake_eq_ok.mpr ⟨hactive, hstaked, le_refl _, hnone, .inl (Nat.sub_self _),
      hnow, rfl, rfl⟩, rfl, ?_⟩
    exact Function.update_self _ _ _
  have hunbonding : (t.providers provider).unbondingNmc = (s.providers provider).stakedNmc := by
    rw [hprovider]
    rfl
  have hclaim : TakesOut self provider now ((t.providers provider).unbondingNmc + 0) t :=
    takesOut_unbonding ((exec_effect hsound.approvals hexec).sound hsound)
      (exec_funded hsound.approvals hfunded hexec) (hunbonding ▸ hstaked)
      fun u _ _ _ => takesOut_nothing self provider _ u
  rw [hunbonding, Nat.add_zero] at hclaim
  rw [← Nat.zero_add (s.providers provider).stakedNmc]
  refine .cons rfl (.inr ⟨_, rfl⟩) (le_refl _) hexec ?_ hclaim
  rw [hnmc, Nat.add_zero]

/-- An active provider, or one without a stake, can take everything out. -/
theorem canExit_of_active (hsound : Sound self s) (hfunded : Funded self s)
    (hfree : (s.providers provider).active ∨ (s.providers provider).stakedNmc = 0)
    (hnow : now + unbondingPeriod ≤ uint256Max) : CanExit self provider now s := by
  -- the stake of a provider with nothing pending
  have hstake : ∀ {now t}, Sound self t → Funded self t →
      (t.providers provider).active ∨ (t.providers provider).stakedNmc = 0 →
      (t.providers provider).unbondingNmc = 0 → now + unbondingPeriod ≤ uint256Max →
      TakesOut self provider now (t.providers provider).stakedNmc t := by
    intro now t hsound hfunded hfree hnone hnow
    cases hfree with
    | inl hactive => exact takesOut_staked hsound hfunded hactive hnone hnow
    | inr hempty =>
        rw [hempty]
        exact takesOut_nothing self provider now t
  unfold CanExit
  by_cases hnone : (s.providers provider).unbondingNmc = 0
  · rw [hnone, Nat.add_zero]
    exact hstake hsound hfunded hfree hnone hnow
  · rw [Nat.add_comm]
    refine takesOut_unbonding hsound hfunded hnone fun t hsound' hfunded' hprovider => ?_
    have hlater : max now (s.providers provider).unbondingEndsAt.toNat + unbondingPeriod ≤
        uint256Max := by
      have hends := (s.providers provider).unbondingEndsAt.toNat_lt
      have hperiod : unbondingPeriod = 604800 := rfl
      have hmax : uint256Max = 2 ^ 256 - 1 := rfl
      omega
    have hafter := hstake hsound' hfunded' (hprovider ▸ hfree) (by rw [hprovider]; rfl) hlater
    rwa [hprovider] at hafter

/-- An inactive provider gets out what is unbonding and no more. -/
theorem replay_inactive {cs : List Call} {calls : List Record} (hself : provider ≠ self)
    (hown : ∀ c ∈ cs, c.msg.sender = provider ∧
      (c.method = .claimUnstake ∨ ∃ amount, c.method = .queueUnstake amount))
    (hinactive : (s.providers provider).active = false)
    (hreplay : replay (Call.exec self) cs s = .ok (calls, t)) :
    t.nmc.balanceOf provider ≤ s.nmc.balanceOf provider + (s.providers provider).unbondingNmc := by
  induction cs generalizing s calls with
  | nil =>
      cases hreplay
      exact Nat.le_add_right _ _
  | cons c cs ih =>
      simp only [replay, bind_eq_ok, pure_eq_ok, Prod.exists, Prod.mk.injEq] at hreplay
      obtain ⟨o, u, hexec, rest, _, hrest, _, rfl⟩ := hreplay
      rw [List.forall_mem_cons] at hown
      obtain ⟨⟨hsender, hmethod⟩, hown⟩ := hown
      obtain ⟨msg, method⟩ := c
      subst hsender
      cases hmethod with
      | inl hclaim =>
          subst hclaim
          obtain ⟨_, _, nmc, hmove, _, rfl⟩ := claimUnstake_eq_ok.mp hexec
          have hafter := ih hown (by simpa [setRecord, claimedRecord] using hinactive) hrest
          have hgained := Erc20.le_balanceOf_move_of_ne hmove hself
          simp only [setRecord, Function.update_self, claimedRecord, if_true] at hafter hgained ⊢
          omega
      | inr hqueue =>
          obtain ⟨amount, rfl⟩ := hqueue
          obtain ⟨hactive, _⟩ := queueUnstake_eq_ok.mp hexec
          rw [hinactive] at hactive
          cases hactive

/-! ### Who can get out -/

/-- A provider that can queue what it has staked, if anything. -/
def Free (record : ProviderRecord) : Prop := record.active ∨ record.stakedNmc = 0

theorem free_setRecord {about : Address} {record : ProviderRecord}
    (hfree : Free (s.providers provider)) (hrecord : provider = about → Free record) :
    Free ((s.setRecord about record).providers provider) := by
  simp only [setRecord]
  by_cases hsame : provider = about
  · subst hsame
    rw [Function.update_self]
    exact hrecord rfl
  · rw [Function.update_of_ne hsame]
    exact hfree

/-- Only a slash that leaves a part of a stake leaves a provider with a stake it cannot queue. -/
theorem exec_free {c : Call} (hexec : c.exec self s = .ok (payouts, t))
    (hwhole : LeavesWhole provider ⟨s, c, payouts, t⟩) (hfree : Free (s.providers provider)) :
    Free (t.providers provider) := by
  obtain ⟨msg, method⟩ := c
  cases method with
  | registerAndStake amount providerIdPrefix =>
      obtain ⟨_, _, _, _, _, nmc, _, _, rfl⟩ := registerAndStake_eq_ok.mp hexec
      exact free_setRecord hfree fun _ => .inl rfl
  | addStake amount =>
      obtain ⟨_, _, hactive, nmc, _, _, _, rfl⟩ := addStake_eq_ok.mp hexec
      exact free_setRecord hfree fun _ => .inl hactive
  | queueUnstake amount =>
      obtain ⟨hactive, _, _, _, _, _, _, rfl⟩ := queueUnstake_eq_ok.mp hexec
      refine free_setRecord hfree fun _ => ?_
      simp only [Free, queuedRecord]
      split
      · rename_i hnone
        exact .inr hnone
      · exact .inl hactive
  | claimUnstake =>
      obtain ⟨_, _, nmc, _, _, rfl⟩ := claimUnstake_eq_ok.mp hexec
      refine free_setRecord hfree fun hsender => ?_
      subst hsender
      exact hfree
  | slash slashed amount =>
      have hslashed : provider = slashed → Free (slashedRecord amount (s.providers slashed)) := by
        rintro rfl
        simp only [Free, slashedRecord, slashAmount_eq]
        cases hwhole amount rfl with
        | inl hall => exact .inr (by dsimp only at hall; omega)
        | inr hleft =>
            dsimp only at hleft
            split
            · omega
            · have htier : tier1MinStake = 100 * 10 ^ 18 := rfl
              exact .inl (hfree.resolve_right (by omega))
      obtain ⟨_, _, _, hexec⟩ := slash_eq_ok.mp hexec
      split at hexec
      · obtain ⟨nmc, _, _, rfl⟩ := hexec
        exact free_setRecord hfree hslashed
      · obtain ⟨_, rfl⟩ := hexec
        exact free_setRecord hfree hslashed
  | setTreasury treasury =>
      obtain ⟨_, _, rfl⟩ := setTreasury_eq_ok.mp hexec
      exact hfree
  | setPaused paused =>
      obtain ⟨_, _, rfl⟩ := setPaused_eq_ok.mp hexec
      exact hfree

variable {nmc : Erc20} {treasury admin slasher : Address} {calls : List Record}

theorem run_funded (hsealed : nmc.Sealed self)
    (hrun : Runs self (deploy nmc treasury admin slasher) calls t) : Funded self t := by
  refine (hrun.preserves (I := fun u => Sound self u ∧ Funded self u)
    ⟨deploy_sound hsealed, fun _ hheld => absurd rfl hheld⟩ ?_ ?_).2
  · intro c u o v ⟨hsound, hfunded⟩ hexec
    exact ⟨(exec_effect hsound.approvals hexec).sound hsound,
      exec_funded hsound.approvals hfunded hexec⟩
  · intro u v ⟨hsound, hfunded⟩ helsewhere
    obtain ⟨hsound', hproviders⟩ := helsewhere.sound hsound
    refine ⟨hsound', ?_⟩
    unfold Funded
    rwa [hproviders]

theorem run_free (hrun : Runs self (deploy nmc treasury admin slasher) calls t)
    (hwhole : ∀ taken ∈ calls, LeavesWhole provider taken) : Free (t.providers provider) := by
  refine hrun.invariant (I := fun calls u => (∀ taken ∈ calls, LeavesWhole provider taken) →
    Free (u.providers provider)) (fun _ => .inr rfl) ?_ ?_ hwhole
  · intro calls c u o v hbefore hexec hwhole
    rw [List.forall_mem_append, List.forall_mem_singleton] at hwhole
    exact exec_free hexec hwhole.2 (hbefore hwhole.1)
  · intro calls u v hbefore helsewhere hwhole
    rw [helsewhere.providers]
    exact hbefore hwhole

/-- A provider can take everything out by itself exactly when it is active or has nothing staked,
and in a run in which every slash of it left it nothing or a full stake it always can. -/
theorem canExit_iff (hsealed : nmc.Sealed self)
    (hrun : Runs self (deploy nmc treasury admin slasher) calls s) (provider : Address) (now : Nat)
    (hnow : now + unbondingPeriod ≤ uint256Max) :
    (CanExit self provider now s ↔
        (s.providers provider).active ∨ (s.providers provider).stakedNmc = 0) ∧
      ((∀ taken ∈ calls, LeavesWhole provider taken) → CanExit self provider now s) := by
  have hsound := run_sound hsealed hrun
  have hfunded := run_funded hsealed hrun
  refine ⟨⟨fun hexit => ?_, fun hfree => canExit_of_active hsound hfunded hfree hnow⟩,
    fun hwhole => canExit_of_active hsound hfunded (run_free hrun hwhole) hnow⟩
  by_contra htrapped
  rw [not_or, Bool.not_eq_true] at htrapped
  obtain ⟨hinactive, hstaked⟩ := htrapped
  have hheld : (s.providers provider).held ≠ 0 := by
    unfold ProviderRecord.held
    omega
  obtain ⟨cs, taken, t, hown, hreplay, hbalance⟩ := hexit
  have hmost := replay_inactive (hfunded provider hheld).2 hown.own hinactive hreplay
  omega

/-- The provider after a stake of 100 NMC, which it can take out. -/
theorem canExit_staked : ∃ calls t, Runs sampleRegistry sampleStart calls t ∧
    (CanExit sampleRegistry 3 1700000600 t ↔
      (t.providers 3).active ∨ (t.providers 3).stakedNmc = 0) ∧
    CanExit sampleRegistry 3 1700000600 t := by
  obtain ⟨calls, t, hreplay⟩ : ∃ calls t, replay (Call.exec sampleRegistry) [sampleStake]
      sampleStart = .ok (calls, t) := ⟨_, _, rfl⟩
  have hrun : Runs sampleRegistry sampleStart calls t := .of_replay hreplay
  obtain ⟨hiff, hwhole⟩ := canExit_iff sampleStakeToken_sealed hrun 3 1700000600 (by decide)
  refine ⟨calls, t, hrun, hiff, hwhole ?_⟩
  cases hreplay
  intro taken hmem amount hslash
  rw [List.mem_singleton.mp hmem] at hslash
  cases hslash

/-- After half of that stake was slashed nothing the provider does, at whatever time, gets the other
half out. -/
theorem not_canExit_slashed : ∃ calls t, Runs sampleRegistry sampleStart calls t ∧
    (t.providers 3).stakedNmc = 50 * 10 ^ 18 ∧ (t.providers 3).unbondingNmc = 0 ∧
    ∀ now, ¬ CanExit sampleRegistry 3 now t := by
  obtain ⟨calls, t, hreplay⟩ := sampleSlashed_ok
  refine ⟨calls, t, .of_replay hreplay, ?_⟩
  obtain ⟨hstaked, hunbonding, hinactive⟩ : (t.providers 3).stakedNmc = 50 * 10 ^ 18 ∧
      (t.providers 3).unbondingNmc = 0 ∧ (t.providers 3).active = false := by
    cases hreplay
    exact ⟨rfl, rfl, rfl⟩
  refine ⟨hstaked, hunbonding, fun now hexit => ?_⟩
  obtain ⟨cs, taken, u, hown, hexit, hbalance⟩ := hexit
  have hmost := replay_inactive (by decide) hown.own hinactive hexit
  omega

end NeuralMesh.Evm.Registry
