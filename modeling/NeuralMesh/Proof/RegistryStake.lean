import NeuralMesh.Base.Reserve
import NeuralMesh.Evm.Registry

/-!
# The staking registry and the stakes it holds

`RecordStep` says what a successful call makes of the record it is about. Solvency, the account of
every provider's stake and what a slash can reach all follow from it.
-/

namespace NeuralMesh.Evm

/-- The provider's NMC the registry holds. -/
def ProviderRecord.held (record : ProviderRecord) : Nat := record.stakedNmc + record.unbondingNmc

namespace Registry

open Finset

/-- Whose record a call is about. -/
def Call.provider? (c : Call) : Option Address :=
  match c.method with
  | .registerAndStake _ _ | .addStake _ | .queueUnstake _ | .claimUnstake => some c.msg.sender
  | .slash provider _ => some provider
  | .setTreasury _ | .setPaused _ => none

/-- What a call makes of the record it is about, and what it sends. -/
inductive RecordStep (c : Call) (record : ProviderRecord) : ProviderRecord → List Payout → Prop
  | register {amount : Nat} {providerIdPrefix : BitVec 160}
      (hcall : c.method = .registerAndStake amount providerIdPrefix)
      (hinactive : record.active = false) (hunbonding : record.unbondingNmc = 0)
      (hmin : tier1MinStake ≤ amount) :
      RecordStep c record { record with stakedNmc := amount, active := true, providerIdPrefix } []
  | add {amount : Nat} (hcall : c.method = .addStake amount) :
      RecordStep c record { record with stakedNmc := record.stakedNmc + amount } []
  | queue {amount : Nat} (hcall : c.method = .queueUnstake amount)
      (hle : amount ≤ record.stakedNmc) (hunbonding : record.unbondingNmc = 0)
      (hmin : record.stakedNmc - amount = 0 ∨ tier1MinStake ≤ record.stakedNmc - amount)
      (unbondingEndsAt : UInt64) :
      RecordStep c record
        { record with
          stakedNmc := record.stakedNmc - amount
          unbondingNmc := amount
          unbondingEndsAt
          active := if record.stakedNmc - amount = 0 then false else record.active } []
  | claim (hcall : c.method = .claimUnstake) :
      RecordStep c record { record with unbondingNmc := 0, unbondingEndsAt := 0 }
        [⟨c.msg.sender, record.unbondingNmc⟩]
  | slash {provider : Address} {amount : Nat} (hcall : c.method = .slash provider amount)
      (slashCount : UInt32) {payouts : List Payout}
      (hpaid : totalAmount payouts = slashAmount amount record) :
      RecordStep c record
        { record with
          stakedNmc := record.stakedNmc - slashAmount amount record
          slashCount
          active :=
            if record.stakedNmc - slashAmount amount record < tier1MinStake ∧ record.active then
              false else record.active } payouts

/-- The effect of a successful call on the records and on the registry's NMC. -/
inductive Effect (self : ContractAddress) (c : Call) (payouts : List Payout) (s t : Registry) : Prop
  | record {provider : Address} {record : ProviderRecord} (hprovider : c.provider? = some provider)
      (hstep : RecordStep c (s.providers provider) record payouts)
      (hproviders : t.providers = Function.update s.providers provider record)
      (hsealed : t.nmc.Sealed self)
      (hbalance : s.nmc.balanceOf self + record.held ≤
        t.nmc.balanceOf self + (s.providers provider).held)
  | config (hprovider : c.provider? = none) (hproviders : t.providers = s.providers)
      (hnmc : t.nmc = s.nmc)

section Effects

variable {self : ContractAddress} {msg : Message} {s t : Registry} {payouts : List Payout}
  {amount : Nat}

theorem slashAmount_eq (amount : Nat) (record : ProviderRecord) :
    slashAmount amount record = min amount record.stakedNmc := by
  unfold slashAmount
  split
  · omega
  · omega

theorem slashAmount_le (amount : Nat) (record : ProviderRecord) :
    slashAmount amount record ≤ record.stakedNmc := by
  rw [slashAmount_eq]
  exact Nat.min_le_right _ _

theorem collect_eq_ok : s.collect self msg amount = .ok t ↔
    ∃ nmc, s.nmc.transferFrom self msg.sender self amount = .ok nmc ∧ t = { s with nmc } := by
  simp only [collect, bind_eq_ok, mapError_eq_ok, pure_eq_ok]

theorem pay_eq_ok {payout : Payout} : s.pay self payout = .ok t ↔
    ∃ nmc, s.nmc.move self payout.dest payout.amount = .ok nmc ∧ t = { s with nmc } := by
  simp only [pay, bind_eq_ok, mapError_eq_ok, pure_eq_ok]

theorem checkedAdd_eq_ok {a b n : Nat} :
    checkedAdd a b = .ok n ↔ a + b ≤ uint256Max ∧ n = a + b := by
  simp only [checkedAdd, bind_eq_ok, ensure_eq_ok, pure_eq_ok, exists_const]

theorem checkedSucc32_eq_ok {m n : UInt32} :
    checkedSucc32 m = .ok n ↔ m.toNat + 1 < 2 ^ 32 ∧ n = m + 1 := by
  simp only [checkedSucc32, bind_eq_ok, ensure_eq_ok, pure_eq_ok, exists_const]

/-! ### When a function succeeds, and what it leaves -/

theorem registerAndStake_eq_ok {providerIdPrefix : BitVec 160} :
    registerAndStake self msg amount providerIdPrefix s = .ok (payouts, t) ↔
      s.paused = false ∧ amount ≠ 0 ∧ tier1MinStake ≤ amount ∧
        (s.providers msg.sender).active = false ∧ (s.providers msg.sender).unbondingNmc = 0 ∧
        ∃ nmc, s.nmc.transferFrom self msg.sender self amount = .ok nmc ∧ payouts = [] ∧
          t = { s.setRecord msg.sender { s.providers msg.sender with
                  stakedNmc := amount, active := true, providerIdPrefix } with
                nmc, providerList := s.providerList ++ [msg.sender] } := by
  simp only [registerAndStake, bind_eq_ok, ensure_eq_ok, collect_eq_ok, pure_eq_ok, exists_const,
    Prod.mk.injEq, setRecord, and_assoc, existsAndEq, true_and]

theorem addStake_eq_ok : addStake self msg amount s = .ok (payouts, t) ↔
    s.paused = false ∧ amount ≠ 0 ∧ (s.providers msg.sender).active ∧
      ∃ nmc, s.nmc.transferFrom self msg.sender self amount = .ok nmc ∧
        (s.providers msg.sender).stakedNmc + amount ≤ uint256Max ∧ payouts = [] ∧
        t = { s.setRecord msg.sender { s.providers msg.sender with
                stakedNmc := (s.providers msg.sender).stakedNmc + amount } with nmc } := by
  simp only [addStake, bind_eq_ok, ensure_eq_ok, collect_eq_ok, checkedAdd_eq_ok, pure_eq_ok,
    exists_const, Prod.mk.injEq, setRecord, and_assoc, existsAndEq, true_and]

/-- The record after an unstake is queued. -/
def queuedRecord (msg : Message) (amount : Nat) (record : ProviderRecord) : ProviderRecord :=
  { record with
    stakedNmc := record.stakedNmc - amount
    unbondingNmc := amount
    unbondingEndsAt := .ofNat (msg.timestamp + unbondingPeriod)
    active := if record.stakedNmc - amount = 0 then false else record.active }

/-- The end of the period fits its 64 bits. -/
theorem unbondingEndsAt_queuedRecord (record : ProviderRecord)
    (htime : msg.timestamp < 2 ^ 63) :
    (queuedRecord msg amount record).unbondingEndsAt.toNat = msg.timestamp + unbondingPeriod := by
  refine UInt64.toNat_ofNat_of_lt' ?_
  have hperiod : unbondingPeriod = 604800 := rfl
  have hsize : UInt64.size = 2 ^ 64 := rfl
  omega

theorem queueUnstake_eq_ok : queueUnstake msg amount s = .ok (payouts, t) ↔
    (s.providers msg.sender).active ∧ amount ≠ 0 ∧ amount ≤ (s.providers msg.sender).stakedNmc ∧
      (s.providers msg.sender).unbondingNmc = 0 ∧
      ((s.providers msg.sender).stakedNmc - amount = 0 ∨
        tier1MinStake ≤ (s.providers msg.sender).stakedNmc - amount) ∧
      msg.timestamp + unbondingPeriod ≤ uint256Max ∧ payouts = [] ∧
      t = s.setRecord msg.sender (queuedRecord msg amount (s.providers msg.sender)) := by
  simp only [queueUnstake, bind_eq_ok, ensure_eq_ok, checkedAdd_eq_ok, pure_eq_ok, exists_const,
    Prod.mk.injEq, queuedRecord, and_assoc, existsAndEq, true_and]

/-- The record after a claim. -/
def claimedRecord (record : ProviderRecord) : ProviderRecord :=
  { record with unbondingNmc := 0, unbondingEndsAt := 0 }

theorem claimUnstake_eq_ok : claimUnstake self msg s = .ok (payouts, t) ↔
    (s.providers msg.sender).unbondingNmc ≠ 0 ∧
      (s.providers msg.sender).unbondingEndsAt.toNat ≤ msg.timestamp ∧
      ∃ nmc, s.nmc.move self msg.sender (s.providers msg.sender).unbondingNmc = .ok nmc ∧
        payouts = [⟨msg.sender, (s.providers msg.sender).unbondingNmc⟩] ∧
        t = { s.setRecord msg.sender (claimedRecord (s.providers msg.sender)) with nmc } := by
  simp only [claimUnstake, bind_eq_ok, ensure_eq_ok, pay_eq_ok, pure_eq_ok, exists_const,
    Prod.mk.injEq, setRecord, claimedRecord, and_assoc, existsAndEq, true_and]

/-- The record after a slash. -/
def slashedRecord (amount : Nat) (record : ProviderRecord) : ProviderRecord :=
  { record with
    stakedNmc := record.stakedNmc - slashAmount amount record
    slashCount := record.slashCount + 1
    active :=
      if record.stakedNmc - slashAmount amount record < tier1MinStake ∧ record.active then false
      else record.active }

theorem slash_eq_ok {provider : Address} : slash self msg provider amount s = .ok (payouts, t) ↔
    s.hasRole .slash msg.sender ∧
      ((s.providers provider).active ∨ (s.providers provider).stakedNmc ≠ 0) ∧
      (s.providers provider).slashCount.toNat + 1 < 2 ^ 32 ∧
      if 0 < slashAmount amount (s.providers provider) then
        ∃ nmc, s.nmc.move self s.treasury (slashAmount amount (s.providers provider)) = .ok nmc ∧
          payouts = [⟨s.treasury, slashAmount amount (s.providers provider)⟩] ∧
          t = { s.setRecord provider (slashedRecord amount (s.providers provider)) with nmc }
      else payouts = [] ∧ t = s.setRecord provider (slashedRecord amount (s.providers provider)) := by
  simp only [slash, bind_eq_ok, ensure_eq_ok, checkedSucc32_eq_ok, exists_const, slashedRecord,
    and_assoc, existsAndEq, true_and]
  split
  · simp only [bind_eq_ok, pay_eq_ok, pure_eq_ok, Prod.mk.injEq, setRecord, and_assoc, existsAndEq,
      true_and]
  · simp only [pure_eq_ok, Prod.mk.injEq]

theorem setTreasury_eq_ok {treasury : Address} : setTreasury msg treasury s = .ok (payouts, t) ↔
    s.hasRole .admin msg.sender ∧ payouts = [] ∧ t = { s with treasury } := by
  simp only [setTreasury, bind_eq_ok, ensure_eq_ok, pure_eq_ok, exists_const, Prod.mk.injEq]

theorem setPaused_eq_ok {paused : Bool} : setPaused msg paused s = .ok (payouts, t) ↔
    s.hasRole .pauser msg.sender ∧ payouts = [] ∧ t = { s with paused } := by
  simp only [setPaused, bind_eq_ok, ensure_eq_ok, pure_eq_ok, exists_const, Prod.mk.injEq]

/-! ### The effect of a function -/

theorem registerAndStake_effect {providerIdPrefix : BitVec 160} (hsealed : s.nmc.Sealed self)
    (hexec : registerAndStake self msg amount providerIdPrefix s = .ok (payouts, t)) :
    Effect self ⟨msg, .registerAndStake amount providerIdPrefix⟩ payouts s t := by
  obtain ⟨_, _, hmin, hinactive, hunbonding, nmc, htransfer, rfl, rfl⟩ :=
    registerAndStake_eq_ok.mp hexec
  obtain ⟨hsealed', hle⟩ := transferFrom_ok htransfer hsealed
  refine .record rfl (.register rfl hinactive hunbonding hmin) rfl hsealed' ?_
  -- a stake that was left before is not owed any more
  simp only [ProviderRecord.held, hunbonding]
  omega

theorem addStake_effect (hsealed : s.nmc.Sealed self)
    (hexec : addStake self msg amount s = .ok (payouts, t)) :
    Effect self ⟨msg, .addStake amount⟩ payouts s t := by
  obtain ⟨_, _, _, nmc, htransfer, _, rfl, rfl⟩ := addStake_eq_ok.mp hexec
  obtain ⟨hsealed', hle⟩ := transferFrom_ok htransfer hsealed
  refine .record rfl (.add rfl) rfl hsealed' ?_
  simp only [ProviderRecord.held]
  omega

theorem queueUnstake_effect (hsealed : s.nmc.Sealed self)
    (hexec : queueUnstake msg amount s = .ok (payouts, t)) :
    Effect self ⟨msg, .queueUnstake amount⟩ payouts s t := by
  obtain ⟨_, _, hle, hunbonding, hmin, _, rfl, rfl⟩ := queueUnstake_eq_ok.mp hexec
  refine .record rfl (.queue rfl hle hunbonding hmin _) rfl hsealed ?_
  simp only [ProviderRecord.held, setRecord, hunbonding]
  omega

theorem claimUnstake_effect (hsealed : s.nmc.Sealed self)
    (hexec : claimUnstake self msg s = .ok (payouts, t)) :
    Effect self ⟨msg, .claimUnstake⟩ payouts s t := by
  obtain ⟨_, _, nmc, hmove, rfl, rfl⟩ := claimUnstake_eq_ok.mp hexec
  obtain ⟨hsealed', hle⟩ := move_ok hmove hsealed
  refine .record rfl (.claim rfl) rfl hsealed' ?_
  simp only [ProviderRecord.held]
  omega

theorem slash_effect {provider : Address} (hsealed : s.nmc.Sealed self)
    (hexec : slash self msg provider amount s = .ok (payouts, t)) :
    Effect self ⟨msg, .slash provider amount⟩ payouts s t := by
  obtain ⟨_, _, _, hexec⟩ := slash_eq_ok.mp hexec
  have hle := slashAmount_le amount (s.providers provider)
  split at hexec
  · obtain ⟨nmc, hmove, rfl, rfl⟩ := hexec
    obtain ⟨hsealed', hle'⟩ := move_ok hmove hsealed
    refine .record rfl (.slash rfl _ ?_) rfl hsealed' ?_
    · rw [totalAmount_cons, totalAmount_nil, Nat.add_zero]
    · simp only [ProviderRecord.held]
      omega
  · rename_i hnone
    obtain ⟨rfl, rfl⟩ := hexec
    refine .record rfl (.slash rfl _ ?_) rfl hsealed ?_
    · rw [totalAmount_nil]
      omega
    · simp only [ProviderRecord.held, setRecord]
      omega

/-- Every successful call has an effect of this kind. -/
theorem exec_effect {c : Call} (hsealed : s.nmc.Sealed self)
    (hexec : c.exec self s = .ok (payouts, t)) : Effect self c payouts s t := by
  obtain ⟨msg, method⟩ := c
  cases method with
  | registerAndStake amount providerIdPrefix => exact registerAndStake_effect hsealed hexec
  | addStake amount => exact addStake_effect hsealed hexec
  | queueUnstake amount => exact queueUnstake_effect hsealed hexec
  | claimUnstake => exact claimUnstake_effect hsealed hexec
  | slash provider amount => exact slash_effect hsealed hexec
  | setTreasury treasury =>
      obtain ⟨_, rfl, rfl⟩ := setTreasury_eq_ok.mp hexec
      exact .config rfl rfl rfl
  | setPaused paused =>
      obtain ⟨_, rfl, rfl⟩ := setPaused_eq_ok.mp hexec
      exact .config rfl rfl rfl

end Effects

/-! ### A sample run -/

/-- Provider `3` owns 1000 NMC and has approved the registry `1`. -/
def sampleStakeToken : Erc20 where
  balanceOf a := if a = 3 then 1000 * 10 ^ 18 else 0
  allowance owner spender := if owner = 3 ∧ spender = 1 then uint256Max else 0

def sampleRegistry : ContractAddress := ⟨1, by decide⟩

/-- The registry with treasury `4`, admin `5` and slasher `6`. -/
def sampleStart : Registry := deploy sampleStakeToken 4 5 6

theorem sampleStakeToken_sealed : sampleStakeToken.Sealed sampleRegistry := fun _ => rfl

/-- The provider stakes 100 NMC. -/
def sampleStake : Call := ⟨⟨3, 1700000000⟩, .registerAndStake (100 * 10 ^ 18) 0x3⟩

/-- Half of the stake is slashed. -/
def sampleSlash : Call := ⟨⟨6, 1700000600⟩, .slash 3 (50 * 10 ^ 18)⟩

theorem sampleSlashed_ok : ∃ calls t,
    replay (Call.exec sampleRegistry) [sampleStake, sampleSlash] sampleStart = .ok (calls, t) :=
  ⟨_, _, rfl⟩

/-! ### Solvency -/

/-- What holds of the contract at any time. -/
structure Sound (registry : Address) (s : Registry) : Prop where
  /-- It has approved nobody. -/
  approvals : s.nmc.Sealed registry
  /-- It holds every stake and whatever is unbonding. -/
  solvent : Backs (s.nmc.balanceOf registry) fun provider => (s.providers provider).held
  /-- An active provider has a full stake. -/
  active : ∀ provider, (s.providers provider).active →
    tier1MinStake ≤ (s.providers provider).stakedNmc

section Runs

variable {self : ContractAddress} {s t : Registry} {payouts : List Payout}

theorem RecordStep.active {c : Call} {record record' : ProviderRecord}
    (hstep : RecordStep c record record' payouts)
    (hbefore : record.active → tier1MinStake ≤ record.stakedNmc) (hactive : record'.active) :
    tier1MinStake ≤ record'.stakedNmc := by
  cases hstep with
  | register _ _ _ hmin => exact hmin
  | add _ => exact (hbefore hactive).trans (Nat.le_add_right _ _)
  | queue _ _ _ hmin _ =>
      dsimp only at hactive ⊢
      split at hactive
      · cases hactive
      · omega
  | claim _ => exact hbefore hactive
  | slash _ _ _ =>
      dsimp only at hactive ⊢
      split at hactive
      · cases hactive
      · rename_i hkept
        exact Nat.le_of_not_lt fun hlt => hkept ⟨hlt, hactive⟩

theorem Effect.sound {c : Call} (heffect : Effect self c payouts s t) (hsound : Sound self s) :
    Sound self t := by
  cases heffect with
  | @record provider record _ hstep hproviders hsealed hbalance =>
      refine ⟨hsealed, ?_, fun p => ?_⟩
      · refine hsound.solvent.update provider (fun p hp => ?_) ?_
        · rw [hproviders, Function.update_of_ne hp]
        · rwa [hproviders, Function.update_self]
      · rw [hproviders]
        by_cases hp : p = provider
        · subst hp
          rw [Function.update_self]
          exact hstep.active (hsound.active p)
        · rw [Function.update_of_ne hp]
          exact hsound.active p
  | config _ hproviders hnmc =>
      refine ⟨?_, ?_, ?_⟩
      · rw [hnmc]
        exact hsound.approvals
      · rw [hnmc, hproviders]
        exact hsound.solvent
      · rw [hproviders]
        exact hsound.active

theorem Elsewhere.providers (helsewhere : Elsewhere self s t) : t.providers = s.providers := by
  cases helsewhere with
  | token _ _ => rfl
  | roles _ => rfl

theorem Elsewhere.sound (helsewhere : Elsewhere self s t) (hsound : Sound self s) :
    Sound self t ∧ t.providers = s.providers := by
  cases helsewhere with
  | token hother hexec =>
      obtain ⟨hsealed, hle⟩ := TokenCall.sealed hexec hsound.approvals hother.symm
      exact ⟨⟨hsealed, hsound.solvent.mono hle, hsound.active⟩, rfl⟩
  | roles hasRole => exact ⟨⟨hsound.approvals, hsound.solvent, hsound.active⟩, rfl⟩

variable {nmc : Erc20} {treasury admin slasher : Address}

theorem deploy_sound (hsealed : nmc.Sealed self) :
    Sound self (deploy nmc treasury admin slasher) := by
  refine ⟨hsealed, .zero _, fun provider hactive => ?_⟩
  cases hactive

variable {calls : List (Taken Call Registry (List Payout))}

/-- Whatever was called by whom, and whatever happened to the token elsewhere. -/
theorem run_sound (hsealed : nmc.Sealed self)
    (hrun : Runs self (deploy nmc treasury admin slasher) calls t) : Sound self t :=
  hrun.preserves (deploy_sound hsealed)
    (fun _ _ _ _ hsound hexec => (exec_effect hsound.approvals hexec).sound hsound)
    fun _ _ hsound helsewhere => (helsewhere.sound hsound).1

/-- The registry holds at least the stakes and the unbonding amounts of its providers. -/
theorem registry_solvent (hsealed : nmc.Sealed self)
    (hrun : Runs self (deploy nmc treasury admin slasher) calls t) (providers : Finset Address) :
    ∑ provider ∈ providers,
      ((t.providers provider).stakedNmc + (t.providers provider).unbondingNmc) ≤
        t.nmc.balanceOf self :=
  (run_sound hsealed hrun).solvent providers

/-- The registry after a stake and a slash. -/
theorem registry_solvent_slashed : ∃ calls t, Runs sampleRegistry sampleStart calls t ∧
    ∑ provider ∈ {3},
      ((t.providers provider).stakedNmc + (t.providers provider).unbondingNmc) ≤
        t.nmc.balanceOf sampleRegistry := by
  obtain ⟨calls, t, hreplay⟩ := sampleSlashed_ok
  have hrun : Runs sampleRegistry sampleStart calls t := .of_replay hreplay
  exact ⟨calls, t, hrun, registry_solvent sampleStakeToken_sealed hrun {3}⟩

/-- An active provider is of tier 1 at least. -/
theorem isActive_tierOf (hsealed : nmc.Sealed self)
    (hrun : Runs self (deploy nmc treasury admin slasher) calls t) {provider : Address}
    (hactive : t.isActive provider) : 1 ≤ t.tierOf provider := by
  have hstake := (run_sound hsealed hrun).active provider hactive
  unfold tierOf tier
  split
  · decide
  · split
    · decide
    · exact le_refl _

end Runs

/-! ### The account of a provider -/

/-- A successful call of the contract. -/
abbrev Record := Taken Call Registry (List Payout)

/-- What the provider paid in by this call. -/
def paidInBy (provider : Address) (taken : Record) : Nat :=
  match taken.call.method with
  | .registerAndStake amount _ | .addStake amount =>
      if taken.call.msg.sender = provider then amount else 0
  | _ => 0

/-- What a claim of the provider was paid. -/
def claimedBy (provider : Address) (taken : Record) : Nat :=
  match taken.call.method with
  | .claimUnstake => if taken.call.msg.sender = provider then totalAmount taken.output else 0
  | _ => 0

/-- What was slashed from the provider. -/
def slashedFrom (provider : Address) (taken : Record) : Nat :=
  match taken.call.method with
  | .slash slashed _ => if slashed = provider then totalAmount taken.output else 0
  | _ => 0

/-- The provider registers by this call. -/
def Registers (provider : Address) (taken : Record) : Prop :=
  taken.call.msg.sender = provider ∧
    ∃ amount providerIdPrefix, taken.call.method = .registerAndStake amount providerIdPrefix

/-- A stake that a registration finds and writes over. -/
def overwrittenBy (provider : Address) (taken : Record) : Nat :=
  match taken.call.method with
  | .registerAndStake _ _ =>
      if taken.call.msg.sender = provider then (taken.before.providers provider).stakedNmc else 0
  | _ => 0

theorem overwrittenBy_eq_zero {provider : Address} {taken : Record} :
    overwrittenBy provider taken = 0 ↔
      (Registers provider taken → (taken.before.providers provider).stakedNmc = 0) := by
  unfold overwrittenBy
  split
  · rename_i hmethod
    split
    · rename_i hsender
      exact ⟨fun hzero _ => hzero, fun h => h ⟨hsender, _, _, hmethod⟩⟩
    · rename_i hsender
      exact iff_of_true rfl fun h => absurd h.1 hsender
  · rename_i hmethod
    refine iff_of_true rfl fun h => ?_
    obtain ⟨_, amount, providerIdPrefix, hregister⟩ := h
    exact absurd hregister (hmethod amount providerIdPrefix)

section Account

variable {self : ContractAddress} {s t : Registry} {payouts : List Payout}

/-- One call keeps the account of the provider it is about, but for a stake it writes over. -/
theorem RecordStep.account {c : Call} {provider : Address} {record : ProviderRecord}
    (hprovider : c.provider? = some provider)
    (hstep : RecordStep c (s.providers provider) record payouts) :
    paidInBy provider ⟨s, c, payouts, t⟩ + (s.providers provider).held =
      record.held + claimedBy provider ⟨s, c, payouts, t⟩ + slashedFrom provider ⟨s, c, payouts, t⟩ +
        overwrittenBy provider ⟨s, c, payouts, t⟩ := by
  cases hstep with
  | @register amount providerIdPrefix hcall hinactive hunbonding hmin =>
      have hsender : c.msg.sender = provider := by simpa [Call.provider?, hcall] using hprovider
      simp only [paidInBy, claimedBy, slashedFrom, overwrittenBy, ProviderRecord.held, hcall, hsender,
        if_true, hunbonding]
      omega
  | add hcall =>
      have hsender : c.msg.sender = provider := by simpa [Call.provider?, hcall] using hprovider
      simp only [paidInBy, claimedBy, slashedFrom, overwrittenBy, ProviderRecord.held, hcall, hsender,
        if_true]
      omega
  | queue hcall hle hunbonding hmin unbondingEndsAt =>
      simp only [paidInBy, claimedBy, slashedFrom, overwrittenBy, ProviderRecord.held, hcall,
        hunbonding]
      omega
  | claim hcall =>
      have hsender : c.msg.sender = provider := by simpa [Call.provider?, hcall] using hprovider
      simp only [paidInBy, claimedBy, slashedFrom, overwrittenBy, ProviderRecord.held, hcall, hsender,
        if_true, totalAmount_cons, totalAmount_nil]
      omega
  | @slash slashed amount hcall slashCount _ hpaid =>
      have hslashed : slashed = provider := by simpa [Call.provider?, hcall] using hprovider
      have hle := slashAmount_le amount (s.providers provider)
      simp only [paidInBy, claimedBy, slashedFrom, overwrittenBy, ProviderRecord.held, hcall,
        hslashed, if_true, hpaid]
      omega

/-- A call about another provider is in nobody else's account. -/
theorem account_other (taken : Record) {provider : Address}
    (hother : taken.call.provider? ≠ some provider) :
    paidInBy provider taken = 0 ∧ claimedBy provider taken = 0 ∧
      slashedFrom provider taken = 0 ∧ overwrittenBy provider taken = 0 := by
  obtain ⟨_, ⟨msg, method⟩, _, _⟩ := taken
  cases method with
  | registerAndStake _ _ | addStake _ | claimUnstake =>
      have hsender : msg.sender ≠ provider := fun h => hother (congrArg some h)
      simp [paidInBy, claimedBy, slashedFrom, overwrittenBy, hsender]
  | slash slashed _ =>
      have hslashed : slashed ≠ provider := fun h => hother (congrArg some h)
      simp [paidInBy, claimedBy, slashedFrom, overwrittenBy, hslashed]
  | queueUnstake _ | setTreasury _ | setPaused _ => exact ⟨rfl, rfl, rfl, rfl⟩

theorem Effect.account {c : Call} (heffect : Effect self c payouts s t) (provider : Address) :
    paidInBy provider ⟨s, c, payouts, t⟩ + (s.providers provider).held =
      (t.providers provider).held + claimedBy provider ⟨s, c, payouts, t⟩ +
        slashedFrom provider ⟨s, c, payouts, t⟩ + overwrittenBy provider ⟨s, c, payouts, t⟩ := by
  cases heffect with
  | @record about record hprovider hstep hproviders _ _ =>
      rw [hproviders]
      by_cases hsame : provider = about
      · subst hsame
        rw [Function.update_self]
        exact hstep.account hprovider
      · rw [Function.update_of_ne hsame]
        have hother : c.provider? ≠ some provider := by
          rw [hprovider]
          exact fun h => hsame (Option.some.inj h).symm
        obtain ⟨hin, hclaimed, hslashed, hover⟩ :=
          account_other ⟨s, c, payouts, t⟩ hother
        omega
  | config hprovider hproviders _ =>
      have hother : c.provider? ≠ some provider := by
        rw [hprovider]
        exact fun h => by cases h
      obtain ⟨hin, hclaimed, hslashed, hover⟩ :=
        account_other ⟨s, c, payouts, t⟩ hother
      rw [hproviders]
      omega

variable {nmc : Erc20} {treasury admin slasher : Address} {calls : List Record}

/-- Everything a provider paid in is held, was claimed, was slashed or was written over. -/
theorem run_account (hsealed : nmc.Sealed self)
    (hrun : Runs self (deploy nmc treasury admin slasher) calls t) (provider : Address) :
    totalOf (paidInBy provider) calls =
      (t.providers provider).held + totalOf (claimedBy provider) calls +
        totalOf (slashedFrom provider) calls + totalOf (overwrittenBy provider) calls := by
  refine (hrun.invariant (I := fun calls u => Sound self u ∧
    totalOf (paidInBy provider) calls = (u.providers provider).held +
      totalOf (claimedBy provider) calls + totalOf (slashedFrom provider) calls +
        totalOf (overwrittenBy provider) calls) ⟨deploy_sound hsealed, rfl⟩ ?_ ?_).2
  · intro calls c u o v ⟨hsound, haccount⟩ hexec
    have heffect := exec_effect hsound.approvals hexec
    refine ⟨heffect.sound hsound, ?_⟩
    have hstep := heffect.account provider
    simp only [totalOf_concat]
    omega
  · intro calls u v ⟨hsound, haccount⟩ helsewhere
    obtain ⟨hsound', hproviders⟩ := helsewhere.sound hsound
    refine ⟨hsound', ?_⟩
    rw [hproviders]
    exact haccount

/-- Nothing a provider paid in is lost exactly when no registration of it found a stake. -/
theorem stake_accounted (hsealed : nmc.Sealed self)
    (hrun : Runs self (deploy nmc treasury admin slasher) calls t) (provider : Address) :
    totalOf (paidInBy provider) calls =
        (t.providers provider).stakedNmc + (t.providers provider).unbondingNmc +
          totalOf (claimedBy provider) calls + totalOf (slashedFrom provider) calls ↔
      ∀ taken ∈ calls, Registers provider taken →
        (taken.before.providers provider).stakedNmc = 0 := by
  have haccount := run_account hsealed hrun provider
  have hheld : (t.providers provider).held =
      (t.providers provider).stakedNmc + (t.providers provider).unbondingNmc := rfl
  have hlost : totalOf (overwrittenBy provider) calls = 0 ↔ ∀ taken ∈ calls,
      Registers provider taken → (taken.before.providers provider).stakedNmc = 0 := by
    rw [totalOf_eq_zero]
    exact forall₂_congr fun _ _ => overwrittenBy_eq_zero
  rw [← hlost]
  omega

end Account

/-- A provider that was slashed and registered again: 50 NMC of its first stake are on no account. -/
theorem stake_overwritten : ∃ calls t, Runs sampleRegistry sampleStart calls t ∧
    calls.map Taken.call = [sampleStake, sampleSlash, sampleStake] ∧
    totalOf (paidInBy 3) calls = 200 * 10 ^ 18 ∧
    (t.providers 3).stakedNmc + (t.providers 3).unbondingNmc + totalOf (claimedBy 3) calls +
      totalOf (slashedFrom 3) calls = 150 * 10 ^ 18 := by
  obtain ⟨calls, t, hreplay⟩ : ∃ calls t, replay (Call.exec sampleRegistry)
      [sampleStake, sampleSlash, sampleStake] sampleStart = .ok (calls, t) := ⟨_, _, rfl⟩
  refine ⟨calls, t, .of_replay hreplay, ?_⟩
  cases hreplay
  exact ⟨rfl, rfl, rfl⟩

/-- A provider that was slashed once. -/
theorem stake_accounted_slashed : ∃ calls t, Runs sampleRegistry sampleStart calls t ∧
    (totalOf (paidInBy 3) calls =
        (t.providers 3).stakedNmc + (t.providers 3).unbondingNmc + totalOf (claimedBy 3) calls +
          totalOf (slashedFrom 3) calls ↔
      ∀ taken ∈ calls, Registers 3 taken → (taken.before.providers 3).stakedNmc = 0) := by
  obtain ⟨calls, t, hreplay⟩ := sampleSlashed_ok
  have hrun : Runs sampleRegistry sampleStart calls t := .of_replay hreplay
  exact ⟨calls, t, hrun, stake_accounted sampleStakeToken_sealed hrun 3⟩

end Registry

end NeuralMesh.Evm
