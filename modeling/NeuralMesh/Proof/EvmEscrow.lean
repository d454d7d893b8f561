import NeuralMesh.Base.Reserve
import NeuralMesh.Evm.Escrow

/-!
# The escrow contract pays each job once

`JobStep` says what a successful call can do to the job it is about and what it sends for it. The
solvency of the contract and the history of a job's payouts both follow from it.
-/

namespace NeuralMesh.Evm

open Finset

/-- The contract still holds the job's NMC. -/
def Job.isLive (job : Job) : Bool :=
  match job.state with
  | .open | .locked => true
  | .settled | .cancelled => false

/-- What the contract owes on a job. -/
def Job.owed (job : Job) : Nat := if job.isLive then job.lockedNmc else 0

/-- What a call makes of the job it is about, and what it sends. -/
inductive JobStep (c : Call) (s : Contracts) (job : Job) : Job → List Payout → Prop
  | create (hnew : job.createdAt = 0) (provider : Address) (amount pricePerHourNmc : Nat)
      (maxDurationSecs : UInt32) :
      JobStep c s job
        ⟨c.msg.sender, provider, amount, pricePerHourNmc, maxDurationSecs, 0, .open, 0, 0,
          c.msg.timestamp64, 0⟩ []
  | lock (hcreated : job.createdAt ≠ 0) (hopen : job.state = .open) (deadline : UInt64) :
      JobStep c s job { job with state := .locked, deadline } []
  | release (hcreated : job.createdAt ≠ 0) (hlocked : job.state = .locked) {actualCost : Nat}
      (hcall : ∃ jobId, c.method = .releaseEscrow jobId actualCost)
      (hle : actualCost ≤ job.lockedNmc) {fee : Nat}
      (hfee : fee = actualCost * s.platformFeeBps.toNat / 10000) (hfeele : fee ≤ actualCost) :
      JobStep c s job
        { job with
          state := .settled, actualCost, feeCollected := fee, settledAt := c.msg.timestamp64 }
        (settlementLegs job s.feeCollector (actualCost - fee) fee (job.lockedNmc - actualCost))
  | cancel (hcreated : job.createdAt ≠ 0) (hlive : job.isLive) :
      JobStep c s job { job with state := .cancelled } [⟨job.consumer, job.lockedNmc⟩]

/-- Skipping the legs without an amount does not change what is sent. -/
theorem totalAmount_filter_pos (ps : List Payout) :
    totalAmount (ps.filter fun p => 0 < p.amount) = totalAmount ps := by
  induction ps with
  | nil => rfl
  | cons p ps ih =>
      rw [List.filter_cons]
      split
      · rw [totalAmount_cons, totalAmount_cons, ih]
      · rename_i hzero
        rw [ih, totalAmount_cons]
        have : p.amount = 0 := by simpa using hzero
        omega

theorem totalAmount_settlementLegs {job : Job} {collector : Address} {actualCost fee : Nat}
    (hle : actualCost ≤ job.lockedNmc) (hfee : fee ≤ actualCost) :
    totalAmount (settlementLegs job collector (actualCost - fee) fee (job.lockedNmc - actualCost)) =
      job.lockedNmc := by
  rw [settlementLegs, totalAmount_filter_pos, totalAmount_cons, totalAmount_cons, totalAmount_cons,
    totalAmount_nil]
  dsimp only
  omega

/-! ### The token -/

/-- Sending moves NMC and nothing else, and takes from the sender at most what it sends. -/
theorem sendAll_ok {self : Address} {payouts : List Payout} {s t : Contracts}
    (hsend : Contracts.sendAll self payouts s = .ok t) (hsealed : s.nmc.Sealed self) :
    (∃ nmc, t = { s with nmc }) ∧ t.nmc.Sealed self ∧
      s.nmc.balanceOf self ≤ t.nmc.balanceOf self + totalAmount payouts := by
  induction payouts generalizing s with
  | nil =>
      cases hsend
      exact ⟨⟨_, rfl⟩, hsealed, Nat.le_add_right _ _⟩
  | cons p ps ih =>
      simp only [Contracts.sendAll, bind_eq_ok, mapError_eq_ok] at hsend
      obtain ⟨nmc, hmove, hrest⟩ := hsend
      obtain ⟨hsealed₁, hpaid⟩ := move_ok hmove hsealed
      obtain ⟨⟨nmc', rfl⟩, hsealed', hle⟩ := ih hrest hsealed₁
      refine ⟨⟨nmc', rfl⟩, hsealed', ?_⟩
      rw [totalAmount_cons]
      dsimp only at hle ⊢
      omega

/-! ### What a call does -/

/-- The effect of a successful call, as far as the jobs, the fee and the contract's NMC go. -/
inductive Effect (site : Site) (c : Call) (payouts : List Payout) (s t : Contracts) : Prop
  | job {key : Key} {job : Job} (hkey : c.key? site = some key)
      (hstep : JobStep c s (s.jobs key) job payouts)
      (hjobs : t.jobs = Function.update s.jobs key job)
      (hfee : t.platformFeeBps = s.platformFeeBps) (hsealed : t.nmc.Sealed site.self)
      (hbalance : s.nmc.balanceOf site.self + job.owed ≤
        t.nmc.balanceOf site.self + (s.jobs key).owed)
  | config (hkey : c.key? site = none) (hpayouts : payouts = []) (hjobs : t.jobs = s.jobs)
      (hfee : t.platformFeeBps = s.platformFeeBps ∨ t.platformFeeBps ≤ maxFeeBps)
      (hnmc : t.nmc = s.nmc)

section Effects

variable {site : Site} {msg : Message} {s t : Contracts} {payouts : List Payout}

theorem checkedMul_eq_ok {a b n : Nat} : checkedMul a b = .ok n ↔ a * b ≤ uint256Max ∧ n = a * b := by
  simp only [checkedMul, bind_eq_ok, ensure_eq_ok, pure_eq_ok, exists_const]

theorem checkedSub_eq_ok {a b n : Nat} : checkedSub a b = .ok n ↔ b ≤ a ∧ n = a - b := by
  simp only [checkedSub, bind_eq_ok, ensure_eq_ok, pure_eq_ok, exists_const]

theorem createEscrow_effect {jobId : String} {provider : Address} {amount price : Nat}
    {maxDurationSecs : UInt32} (hsealed : s.nmc.Sealed site.self)
    (hexec : createEscrow site msg jobId provider amount price maxDurationSecs s =
      .ok (payouts, t)) :
    Effect site ⟨msg, .createEscrow jobId provider amount price maxDurationSecs⟩ payouts s t := by
  simp only [createEscrow, bind_eq_ok, ensure_eq_ok, mapError_eq_ok, pure_eq_ok, exists_const,
    Prod.mk.injEq] at hexec
  obtain ⟨hnew, _, nmc, htransfer, rfl, rfl⟩ := hexec
  obtain ⟨hsealed', hle⟩ := transferFrom_ok htransfer hsealed
  exact .job rfl (.create hnew provider amount price maxDurationSecs) rfl rfl hsealed'
    (hle.trans (Nat.le_add_right _ _))

theorem lockEscrow_effect {jobId : String} (hsealed : s.nmc.Sealed site.self)
    (hexec : lockEscrow site msg jobId s = .ok (payouts, t)) :
    Effect site ⟨msg, .lockEscrow jobId⟩ payouts s t := by
  simp only [lockEscrow, bind_eq_ok, ensure_eq_ok, pure_eq_ok, exists_const,
    Prod.mk.injEq] at hexec
  obtain ⟨hcreated, hopen, _, _, deadline, _, rfl, rfl⟩ := hexec
  refine .job rfl (.lock hcreated hopen deadline) rfl rfl hsealed (Nat.le_of_eq ?_)
  simp [Contracts.setJob, Job.owed, Job.isLive, hopen]

/-- What the contract sends on a job is what it owed. -/
theorem owed_of_sendAll {key : Key} {job : Job} (hclosed : job.isLive = false)
    (hlive : (s.jobs key).isLive) (hamount : totalAmount payouts = (s.jobs key).lockedNmc)
    (hsend : Contracts.sendAll site.self payouts (s.setJob key job) = .ok t)
    (hsealed : s.nmc.Sealed site.self) :
    t.jobs = Function.update s.jobs key job ∧ t.platformFeeBps = s.platformFeeBps ∧
      t.nmc.Sealed site.self ∧ s.nmc.balanceOf site.self + job.owed ≤
        t.nmc.balanceOf site.self + (s.jobs key).owed := by
  obtain ⟨⟨nmc, rfl⟩, hsealed', hle⟩ := sendAll_ok hsend hsealed
  refine ⟨rfl, rfl, hsealed', ?_⟩
  rw [Job.owed, hclosed, Job.owed, hlive, if_pos rfl, ← hamount]
  exact hle

theorem releaseEscrow_effect {jobId : String} {actualCost : Nat} (hsealed : s.nmc.Sealed site.self)
    (hexec : releaseEscrow site msg jobId actualCost s = .ok (payouts, t)) :
    Effect site ⟨msg, .releaseEscrow jobId actualCost⟩ payouts s t := by
  simp only [releaseEscrow, bind_eq_ok, ensure_eq_ok, pure_eq_ok, checkedMul_eq_ok,
    checkedSub_eq_ok, exists_const, Prod.mk.injEq] at hexec
  obtain ⟨_, hcreated, hlocked, hle, _, ⟨_, rfl⟩, _, ⟨hfee, rfl⟩, _, ⟨_, rfl⟩, u, hsend, rfl, rfl⟩ :=
    hexec
  have hlive : (s.jobs (site.keccak256 jobId)).isLive := by rw [Job.isLive, hlocked]
  obtain ⟨hjobs, hbps, hsealed', hbalance⟩ :=
    owed_of_sendAll (by rfl) hlive (totalAmount_settlementLegs hle hfee) hsend hsealed
  exact .job rfl (.release hcreated hlocked ⟨jobId, rfl⟩ hle rfl hfee) hjobs hbps hsealed' hbalance

theorem cancelGuard_live {job : Job} {u : Unit} (hguard : cancelGuard msg job s = .ok u) :
    job.isLive := by
  unfold cancelGuard at hguard
  split at hguard
  · rename_i hstate
    rw [Job.isLive, hstate]
  · rename_i hstate
    rw [Job.isLive, hstate]
  · cases hguard
  · cases hguard

theorem cancelEscrow_effect {jobId : String} (hsealed : s.nmc.Sealed site.self)
    (hexec : cancelEscrow site msg jobId s = .ok (payouts, t)) :
    Effect site ⟨msg, .cancelEscrow jobId⟩ payouts s t := by
  simp only [cancelEscrow, bind_eq_ok, ensure_eq_ok, pure_eq_ok, exists_const,
    Prod.mk.injEq] at hexec
  obtain ⟨hcreated, _, hguard, u, hsend, rfl, rfl⟩ := hexec
  have hlive := cancelGuard_live hguard
  obtain ⟨hjobs, hbps, hsealed', hbalance⟩ :=
    owed_of_sendAll (by rfl) hlive (by rw [totalAmount_cons, totalAmount_nil, Nat.add_zero]) hsend
      hsealed
  exact .job rfl (.cancel hcreated hlive) hjobs hbps hsealed' hbalance

/-- Every successful call has an effect of this kind. -/
theorem exec_effect {c : Call} (hsealed : s.nmc.Sealed site.self)
    (hexec : c.exec site s = .ok (payouts, t)) : Effect site c payouts s t := by
  obtain ⟨msg, method⟩ := c
  cases method with
  | createEscrow jobId provider amount price maxDurationSecs => exact createEscrow_effect hsealed hexec
  | lockEscrow jobId => exact lockEscrow_effect hsealed hexec
  | releaseEscrow jobId actualCost => exact releaseEscrow_effect hsealed hexec
  | cancelEscrow jobId => exact cancelEscrow_effect hsealed hexec
  | setFee feeBps =>
      simp only [Call.exec, setFee, bind_eq_ok, ensure_eq_ok, pure_eq_ok, exists_const,
        Prod.mk.injEq] at hexec
      obtain ⟨_, hle, rfl, rfl⟩ := hexec
      exact .config rfl rfl rfl (.inr hle) rfl
  | setFeeCollector collector =>
      simp only [Call.exec, setFeeCollector, bind_eq_ok, ensure_eq_ok, pure_eq_ok, exists_const,
        Prod.mk.injEq] at hexec
      obtain ⟨_, rfl, rfl⟩ := hexec
      exact .config rfl rfl rfl (.inl rfl) rfl

end Effects

/-! ### A sample run -/

/-- Consumer `2` has approved the contract `1` for 100 units. -/
def sampleToken : Erc20 where
  balanceOf a := if a = 2 then 100 else 0
  allowance owner spender := if owner = 2 ∧ spender = 1 then 100 else 0

/-- The hash of the job id `job-test-123`. -/
def sampleSite : Site where
  self := 1
  keccak256 _ := 0x4d4da96155a10ca05d8b5ecc0a18e3830336059a49dd6bb76e9e1345de27c195

def sampleMessage (sender : Address) : Message := ⟨sender, 1700000000⟩

theorem sampleToken_sealed : sampleToken.Sealed 1 := fun _ => rfl

/-- The contract with a fee of 8 %, collector `4`, admin `5` and oracle `6`; `3` is a provider. -/
def sampleDeployed : Contracts where
  nmc := sampleToken
  isProvider a := a = 3
  hasRole
    | .admin, a => a = 5
    | .oracle, a => a = 6
  feeCollector := 4
  platformFeeBps := 800
  jobs _ := .zero

def sampleCreate : Call := ⟨sampleMessage 2, .createEscrow "job-test-123" 3 100 10 3600⟩

def sampleCancel : Call := ⟨sampleMessage 2, .cancelEscrow "job-test-123"⟩

theorem sampleCreate_ok : ∃ t, sampleCreate.exec sampleSite sampleDeployed = .ok ([], t) := ⟨_, rfl⟩

theorem sampleCancel_ok {t : Contracts}
    (hcreate : sampleCreate.exec sampleSite sampleDeployed = .ok ([], t)) :
    ∃ u, sampleCancel.exec sampleSite t = .ok ([⟨2, 100⟩], u) := by
  cases hcreate
  exact ⟨_, rfl⟩

/-! ### Solvency -/

/-- The contract holds what it owes, on any set of jobs. -/
def Solvent (self : Address) (s : Contracts) : Prop :=
  ∀ keys : Finset Key, ∑ key ∈ keys, (s.jobs key).owed ≤ s.nmc.balanceOf self

theorem Solvent.update {self : Address} {s t : Contracts} (hsolvent : Solvent self s) {key : Key}
    {job : Job} (hjobs : t.jobs = Function.update s.jobs key job)
    (hbalance : s.nmc.balanceOf self + job.owed ≤ t.nmc.balanceOf self + (s.jobs key).owed) :
    Solvent self t := by
  have hbacks : Backs (s.nmc.balanceOf self) fun key => (s.jobs key).owed := hsolvent
  refine hbacks.update key (fun k hk => ?_) ?_
  · rw [hjobs, Function.update_of_ne hk]
  · rwa [hjobs, Function.update_self]

/-- What holds of the contract at any time: it has approved nobody, and its fee is at most a
tenth. -/
structure Sound (site : Site) (s : Contracts) : Prop where
  approvals : s.nmc.Sealed site.self
  fee : s.platformFeeBps ≤ maxFeeBps

section Runs

variable {site : Site} {s t : Contracts} {payouts : List Payout}

theorem Effect.sound {c : Call} (heffect : Effect site c payouts s t) (hsound : Sound site s) :
    Sound site t := by
  cases heffect with
  | job _ _ _ hfee hsealed _ => exact ⟨hsealed, hfee ▸ hsound.fee⟩
  | config _ _ _ hfee hnmc =>
      refine ⟨hnmc ▸ hsound.approvals, ?_⟩
      rcases hfee with hsame | hle
      · exact hsame ▸ hsound.fee
      · exact hle

theorem Elsewhere.sound (helsewhere : Elsewhere site.self s t) (hsound : Sound site s) :
    Sound site t ∧ t.jobs = s.jobs ∧ s.nmc.balanceOf site.self ≤ t.nmc.balanceOf site.self := by
  cases helsewhere with
  | token hother hexec =>
      obtain ⟨hsealed, hle⟩ := TokenCall.sealed hexec hsound.approvals hother.symm
      exact ⟨⟨hsealed, hsound.fee⟩, rfl, hle⟩
  | providers isProvider => exact ⟨⟨hsound.approvals, hsound.fee⟩, rfl, le_refl _⟩
  | roles hasRole => exact ⟨⟨hsound.approvals, hsound.fee⟩, rfl, le_refl _⟩

theorem Effect.solvent {c : Call} (heffect : Effect site c payouts s t)
    (hsolvent : Solvent site.self s) : Solvent site.self t := by
  cases heffect with
  | job _ _ hjobs _ _ hbalance => exact hsolvent.update hjobs hbalance
  | config _ _ hjobs _ hnmc =>
      intro keys
      rw [hjobs, hnmc]
      exact hsolvent keys

/-- A fresh deployment owes nothing. -/
theorem deploy_sound {nmc : Erc20} {isProvider : Address → Bool} {feeCollector admin oracle : Address}
    {platformFeeBps : UInt16} (hsealed : nmc.Sealed site.self)
    (hdeploy : deploy nmc isProvider feeCollector platformFeeBps admin oracle = .ok s) :
    Sound site s ∧ s.jobs = fun _ => .zero := by
  simp only [deploy, bind_eq_ok, ensure_eq_ok, pure_eq_ok, exists_const] at hdeploy
  obtain ⟨hfee, rfl⟩ := hdeploy
  exact ⟨⟨hsealed, hfee⟩, rfl⟩

variable {nmc : Erc20} {isProvider : Address → Bool} {feeCollector admin oracle : Address}
  {platformFeeBps : UInt16} {calls : List (Taken Call Contracts (List Payout))}

theorem run_solvent (hsealed : nmc.Sealed site.self)
    (hdeploy : deploy nmc isProvider feeCollector platformFeeBps admin oracle = .ok s)
    (hrun : Runs site s calls t) : Solvent site.self t := by
  obtain ⟨hsound, hjobs⟩ := deploy_sound hsealed hdeploy
  have hsolvent : Sound site t ∧ Solvent site.self t := by
    refine hrun.preserves (I := fun u => Sound site u ∧ Solvent site.self u) ⟨hsound, ?_⟩ ?_ ?_
    · intro keys
      rw [hjobs]
      exact (sum_eq_zero fun _ _ => rfl).le.trans (Nat.zero_le _)
    · rintro c u o v ⟨hsound, hsolvent⟩ hexec
      have heffect := exec_effect hsound.approvals hexec
      exact ⟨heffect.sound hsound, heffect.solvent hsolvent⟩
    · rintro u v ⟨hsound, hsolvent⟩ helsewhere
      obtain ⟨hsound', hjobs, hle⟩ := helsewhere.sound hsound
      refine ⟨hsound', fun keys => ?_⟩
      rw [hjobs]
      exact (hsolvent keys).trans hle
  exact hsolvent.2

/-- Whatever is called by whom, and whatever happens to the token elsewhere, the contract holds at
least what is locked in its open and locked jobs. -/
theorem escrow_solvent (hsealed : nmc.Sealed site.self)
    (hdeploy : deploy nmc isProvider feeCollector platformFeeBps admin oracle = .ok s)
    (hrun : Runs site s calls t) (keys : Finset Key) :
    ∑ key ∈ keys with (t.jobs key).isLive, (t.jobs key).lockedNmc ≤ t.nmc.balanceOf site.self := by
  rw [sum_filter]
  exact run_solvent hsealed hdeploy hrun keys

/-- The contract after one job was created. -/
theorem escrow_solvent_created :
    ∃ t, Runs sampleSite sampleDeployed [⟨sampleDeployed, sampleCreate, [], t⟩] t ∧
      ∑ key ∈ {sampleSite.keccak256 "job-test-123"} with (t.jobs key).isLive,
        (t.jobs key).lockedNmc ≤ t.nmc.balanceOf 1 := by
  obtain ⟨t, hcreate⟩ := sampleCreate_ok
  have hstart : Runs sampleSite sampleDeployed [] sampleDeployed := .nil sampleDeployed
  have hrun := hstart.call hcreate
  exact ⟨t, hrun, escrow_solvent sampleToken_sealed
    (rfl : deploy sampleToken (fun a => a = 3) 4 800 5 6 = .ok sampleDeployed) hrun _⟩

/-! ### The payouts of a job -/

/-- What the contract has sent on account of a job. -/
def paidOn (site : Site) (key : Key) (calls : List (Taken Call Contracts (List Payout))) :
    List Payout :=
  (calls.filter fun taken => taken.call.key? site = some key).flatMap Taken.output

theorem paidOn_append (key : Key) (taken : Taken Call Contracts (List Payout)) :
    paidOn site key (calls ++ [taken]) =
      paidOn site key calls ++ if taken.call.key? site = some key then taken.output else [] := by
  unfold paidOn
  rw [List.filter_append, List.flatMap_append]
  congr 1
  by_cases hkey : taken.call.key? site = some key
  · simp [hkey]
  · simp [hkey]

/-- The settlement a job's record speaks of: a release paid it out at the fee and to the collector
of its time. -/
structure SettledBy (site : Site) (key : Key) (job : Job) (payouts : List Payout)
    (taken : Taken Call Contracts (List Payout)) : Prop where
  about : taken.call.key? site = some key
  call : ∃ jobId, taken.call.method = .releaseEscrow jobId job.actualCost
  cost_le : job.actualCost ≤ job.lockedNmc
  fee : job.feeCollected = job.actualCost * taken.before.platformFeeBps.toNat / 10000
  fee_le : 10 * job.feeCollected ≤ job.actualCost
  legs : payouts = settlementLegs job taken.before.feeCollector (job.actualCost - job.feeCollected)
    job.feeCollected (job.lockedNmc - job.actualCost)

/-- The payouts of a job fit its record. -/
structure History (site : Site) (key : Key) (job : Job)
    (calls : List (Taken Call Contracts (List Payout))) : Prop where
  unwritten : job.createdAt = 0 → job.isLive
  live : job.isLive → paidOn site key calls = []
  settled : job.state = .settled →
    ∃ taken ∈ calls, SettledBy site key job (paidOn site key calls) taken
  cancelled : job.state = .cancelled → paidOn site key calls = [⟨job.consumer, job.lockedNmc⟩]

theorem fee_le_tenth {bps : UInt16} (hbps : bps ≤ maxFeeBps) (cost : Nat) :
    10 * (cost * bps.toNat / 10000) ≤ cost := by
  have hle : bps.toNat ≤ 1000 := UInt16.le_iff_toNat_le.mp hbps
  have hmul : cost * bps.toNat ≤ cost * 1000 := Nat.mul_le_mul_left cost hle
  omega

/-- One step of a job extends its history. -/
theorem History.step {key : Key} {job job' : Job} {c : Call} {u : Contracts}
    (hhistory : History site key job calls) (hfee : s.platformFeeBps ≤ maxFeeBps)
    (hkey : c.key? site = some key) (hstep : JobStep c s job job' payouts) :
    History site key job' (calls ++ [⟨s, c, payouts, u⟩]) := by
  have hpaid : job.isLive → paidOn site key (calls ++ [⟨s, c, payouts, u⟩]) = payouts := by
    intro hlive
    rw [paidOn_append, hhistory.live hlive, if_pos hkey, List.nil_append]
  cases hstep with
  | create hnew provider amount price maxDurationSecs =>
      exact
        { unwritten := fun _ => rfl
          live := fun _ => hpaid (hhistory.unwritten hnew)
          settled := fun hstate => by cases hstate
          cancelled := fun hstate => by cases hstate }
  | lock hcreated hopen deadline =>
      exact
        { unwritten := fun _ => rfl
          live := fun _ => hpaid (by rw [Job.isLive, hopen])
          settled := fun hstate => by cases hstate
          cancelled := fun hstate => by cases hstate }
  | release hcreated hlocked hcall hle hfeeq hfeele =>
      exact
        { unwritten := fun hzero => absurd hzero hcreated
          live := fun hlive => by cases hlive
          settled := fun _ => by
            refine ⟨_, List.mem_append_right _ (List.mem_singleton.mpr rfl), hkey, hcall, hle,
              hfeeq, ?_, ?_⟩
            · exact hfeeq ▸ fee_le_tenth hfee _
            · exact hpaid (by rw [Job.isLive, hlocked])
          cancelled := fun hstate => by cases hstate }
  | cancel hcreated hlive =>
      exact
        { unwritten := fun hzero => absurd hzero hcreated
          live := fun hlive => by cases hlive
          settled := fun hstate => by cases hstate
          cancelled := fun _ => hpaid hlive }

/-- A call about something else leaves the history of a job alone. -/
theorem History.other {key : Key} {job : Job} {taken : Taken Call Contracts (List Payout)}
    (hhistory : History site key job calls) (hkey : taken.call.key? site ≠ some key) :
    History site key job (calls ++ [taken]) := by
  have hsame : paidOn site key (calls ++ [taken]) = paidOn site key calls := by
    rw [paidOn_append, if_neg hkey, List.append_nil]
  refine ⟨hhistory.unwritten, ?_, ?_, ?_⟩
  · rw [hsame]
    exact hhistory.live
  · intro hstate
    obtain ⟨taken, hmem, hsettled⟩ := hhistory.settled hstate
    exact ⟨taken, List.mem_append_left _ hmem, hsame ▸ hsettled⟩
  · rw [hsame]
    exact hhistory.cancelled

theorem run_history (hsealed : nmc.Sealed site.self)
    (hdeploy : deploy nmc isProvider feeCollector platformFeeBps admin oracle = .ok s)
    (hrun : Runs site s calls t) : Sound site t ∧ ∀ key, History site key (t.jobs key) calls := by
  obtain ⟨hsound, hjobs⟩ := deploy_sound hsealed hdeploy
  refine hrun.invariant
    (I := fun calls u => Sound site u ∧ ∀ key, History site key (u.jobs key) calls)
    ⟨hsound, fun key => ?_⟩ ?_ ?_
  · rw [hjobs]
    refine ⟨fun _ => rfl, fun _ => rfl, fun hstate => ?_, fun hstate => ?_⟩
    · cases hstate
    · cases hstate
  · rintro calls c u o v ⟨hsound, hhistory⟩ hexec
    have heffect := exec_effect hsound.approvals hexec
    refine ⟨heffect.sound hsound, fun key => ?_⟩
    cases heffect with
    | @job key' _ hkey hstep hjobs _ _ _ =>
        rw [hjobs, Function.update_apply]
        split
        · rename_i heq
          subst heq
          exact (hhistory key).step hsound.fee hkey hstep
        · rename_i hne
          refine (hhistory key).other fun hkey' => hne ?_
          exact (Option.some.inj (hkey.symm.trans hkey')).symm
    | config hkey _ hjobs _ _ =>
        rw [hjobs]
        refine (hhistory key).other fun hkey' => ?_
        cases hkey.symm.trans hkey'
  · rintro calls u v ⟨hsound, hhistory⟩ helsewhere
    obtain ⟨hsound', hjobs, _⟩ := helsewhere.sound hsound
    refine ⟨hsound', fun key => ?_⟩
    rw [hjobs]
    exact hhistory key

/-- A closed job stays as it is, and nothing is sent for it any more. -/
theorem closed_stays (hsound : Sound site s) {key : Key} (hcreated : (s.jobs key).createdAt ≠ 0)
    (hclosed : (s.jobs key).isLive = false) (hrun : Runs site s calls t) :
    t.jobs key = s.jobs key ∧ paidOn site key calls = [] := by
  have hall : Sound site t ∧ t.jobs key = s.jobs key ∧ paidOn site key calls = [] := by
    refine hrun.invariant (I := fun calls u => Sound site u ∧ u.jobs key = s.jobs key ∧
      paidOn site key calls = []) ⟨hsound, rfl, rfl⟩ ?_ ?_
    · rintro calls c u o v ⟨hsound, hsame, hnone⟩ hexec
      have heffect := exec_effect hsound.approvals hexec
      refine ⟨heffect.sound hsound, ?_⟩
      rw [paidOn_append, hnone, List.nil_append]
      cases heffect with
      | @job key' _ hkey hstep hjobs _ _ _ =>
          rw [hjobs, Function.update_apply, hkey]
          by_cases heq : key = key'
          · subst heq
            -- no step starts from a closed job
            rw [hsame] at hstep
            cases hstep with
            | create hnew _ _ _ _ => exact absurd hnew hcreated
            | lock _ hopen _ =>
                rw [Job.isLive, hopen] at hclosed
                cases hclosed
            | release _ hlocked _ _ _ _ =>
                rw [Job.isLive, hlocked] at hclosed
                cases hclosed
            | cancel _ hlive =>
                rw [hlive] at hclosed
                cases hclosed
          · rw [if_neg heq]
            exact ⟨hsame, if_neg fun hkey' => heq (Option.some.inj hkey').symm⟩
      | config hkey _ hjobs _ _ =>
          rw [hjobs, hkey]
          exact ⟨hsame, if_neg fun hkey' => by cases hkey'⟩
    · rintro calls u v ⟨hsound, hsame, hnone⟩ helsewhere
      obtain ⟨hsound', hjobs, _⟩ := helsewhere.sound hsound
      exact ⟨hsound', by rw [hjobs, hsame], hnone⟩
  exact hall.2

/-- A job is paid out once, and exactly what it locked. -/
structure PaidOnce (site : Site) (key : Key) (calls : List (Taken Call Contracts (List Payout)))
    (s : Contracts) : Prop where
  live : (s.jobs key).isLive → totalAmount (paidOn site key calls) = 0
  closed : (s.jobs key).isLive = false →
    totalAmount (paidOn site key calls) = (s.jobs key).lockedNmc
  settled : (s.jobs key).state = .settled →
    ∃ taken ∈ calls, SettledBy site key (s.jobs key) (paidOn site key calls) taken
  cancelled : (s.jobs key).state = .cancelled →
    paidOn site key calls = [⟨(s.jobs key).consumer, (s.jobs key).lockedNmc⟩]
  final : (s.jobs key).isLive = false → ∀ calls' t, Runs site s calls' t →
    t.jobs key = s.jobs key ∧ paidOn site key calls' = []

/-- What a job's payouts add up to once it is closed. -/
theorem History.total {key : Key} {job : Job} (hhistory : History site key job calls)
    (hclosed : job.isLive = false) : totalAmount (paidOn site key calls) = job.lockedNmc := by
  cases hstate : job.state with
  | «open» => simp [Job.isLive, hstate] at hclosed
  | locked => simp [Job.isLive, hstate] at hclosed
  | settled =>
      obtain ⟨taken, _, hsettled⟩ := hhistory.settled hstate
      rw [hsettled.legs]
      refine totalAmount_settlementLegs hsettled.cost_le ?_
      have hfee := hsettled.fee_le
      omega
  | cancelled => rw [hhistory.cancelled hstate, totalAmount_cons, totalAmount_nil, Nat.add_zero]

end Runs

end NeuralMesh.Evm
