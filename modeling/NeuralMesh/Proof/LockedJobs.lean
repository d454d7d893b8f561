import NeuralMesh.Proof.EvmEscrow
import NeuralMesh.Proof.NmcSupply

/-!
# Jobs that are locked

Who can end a locked job before its deadline, and when an oracle can settle it. The consumer can
cancel at any time, although the deadline is there to protect the provider; and the one thing that
makes a settlement revert is a fee for the zero address.
-/

namespace NeuralMesh.Evm

variable {site : Site} {msg : Message} {s t u : Contracts} {payouts : List Payout} {jobId : String}
  {key : Key}

/-! ### What the functions check -/

theorem createEscrow_eq_ok {provider : Address} {amount price : Nat} {maxDurationSecs : UInt32}
    (hexec : createEscrow site msg jobId provider amount price maxDurationSecs s =
      .ok (payouts, t)) :
    (s.jobs (site.keccak256 jobId)).createdAt = 0 ∧ msg.sender ≠ 0 ∧
      t.jobs = Function.update s.jobs (site.keccak256 jobId)
        ⟨msg.sender, provider, amount, price, maxDurationSecs, 0, .open, 0, 0, msg.timestamp64, 0⟩ := by
  simp only [createEscrow, bind_eq_ok, ensure_eq_ok, mapError_eq_ok, pure_eq_ok, exists_const,
    Prod.mk.injEq] at hexec
  obtain ⟨hnew, _, nmc, htransfer, rfl, rfl⟩ := hexec
  obtain ⟨_, _, hmove⟩ := bind_eq_ok.mp htransfer
  exact ⟨hnew, (Erc20.move_eq_ok.mp hmove).1, rfl⟩

theorem lockEscrow_eq_ok (hexec : lockEscrow site msg jobId s = .ok (payouts, t)) :
    (s.jobs (site.keccak256 jobId)).createdAt ≠ 0 ∧ (s.jobs (site.keccak256 jobId)).state = .open ∧
      msg.sender = (s.jobs (site.keccak256 jobId)).provider ∧
      ∃ deadline, t.jobs = Function.update s.jobs (site.keccak256 jobId)
        { s.jobs (site.keccak256 jobId) with state := .locked, deadline } := by
  simp only [lockEscrow, bind_eq_ok, ensure_eq_ok, pure_eq_ok, exists_const,
    Prod.mk.injEq] at hexec
  obtain ⟨hcreated, hopen, hsender, _, deadline, _, rfl, rfl⟩ := hexec
  exact ⟨hcreated, hopen, hsender, deadline, rfl⟩

theorem sendAll_jobs {self : Address} {payouts : List Payout}
    (hsend : Contracts.sendAll self payouts s = .ok t) : t.jobs = s.jobs := by
  induction payouts generalizing s with
  | nil =>
      cases hsend
      rfl
  | cons p ps ih =>
      simp only [Contracts.sendAll, bind_eq_ok, mapError_eq_ok] at hsend
      obtain ⟨nmc, _, hrest⟩ := hsend
      exact (ih hrest).trans rfl

theorem releaseEscrow_eq_ok {actualCost : Nat}
    (hexec : releaseEscrow site msg jobId actualCost s = .ok (payouts, t)) :
    s.hasRole .oracle msg.sender ∧ ∃ job, (s.jobs (site.keccak256 jobId)).createdAt ≠ 0 ∧
      job.consumer = (s.jobs (site.keccak256 jobId)).consumer ∧ job.state = .settled ∧
      t.jobs = Function.update s.jobs (site.keccak256 jobId) job := by
  simp only [releaseEscrow, bind_eq_ok, ensure_eq_ok, pure_eq_ok, exists_const,
    Prod.mk.injEq] at hexec
  obtain ⟨hrole, hcreated, _, _, _, _, _, _, _, _, u, hsend, _, rfl⟩ := hexec
  refine ⟨hrole, _, hcreated, ?_, ?_, sendAll_jobs hsend⟩
  · rfl
  · rfl

theorem cancelEscrow_eq_ok (hexec : cancelEscrow site msg jobId s = .ok (payouts, t)) :
    (s.jobs (site.keccak256 jobId)).createdAt ≠ 0 ∧
      cancelGuard msg (s.jobs (site.keccak256 jobId)) s = .ok () ∧
      t.jobs = Function.update s.jobs (site.keccak256 jobId)
        { s.jobs (site.keccak256 jobId) with state := .cancelled } := by
  simp only [cancelEscrow, bind_eq_ok, ensure_eq_ok, pure_eq_ok, exists_const,
    Prod.mk.injEq] at hexec
  obtain ⟨hcreated, _, hguard, u, hsend, _, rfl⟩ := hexec
  exact ⟨hcreated, hguard, sendAll_jobs hsend⟩

/-! ### What is known of a job -/

/-- What a call leaves of the jobs: all as they were, or one of them written. -/
inductive Writes (site : Site) (c : Call) (s t : Contracts) : Prop
  | create (hconsumer : c.msg.sender ≠ 0) (key : Key) (job : Job) (hnew : (s.jobs key).createdAt = 0)
      (hjob : job.consumer = c.msg.sender ∧ job.state = .open)
      (hjobs : t.jobs = Function.update s.jobs key job)
  | lock (key : Key) (job : Job) (hcreated : (s.jobs key).createdAt ≠ 0)
      (hprovider : job.provider = c.msg.sender)
      (hjob : job.consumer = (s.jobs key).consumer ∧ job.createdAt = (s.jobs key).createdAt)
      (hjobs : t.jobs = Function.update s.jobs key job)
  | close (key : Key) (job : Job) (hcreated : (s.jobs key).createdAt ≠ 0)
      (hjob : job.consumer = (s.jobs key).consumer ∧ job.state ≠ .locked)
      (hjobs : t.jobs = Function.update s.jobs key job)
  | none (hjobs : t.jobs = s.jobs)

theorem exec_writes {c : Call} (hexec : c.exec site s = .ok (payouts, t)) : Writes site c s t := by
  obtain ⟨msg, method⟩ := c
  cases method with
  | createEscrow jobId provider amount price maxDurationSecs =>
      obtain ⟨hnew, hconsumer, hafter⟩ := createEscrow_eq_ok hexec
      exact .create hconsumer _ _ hnew ⟨rfl, rfl⟩ hafter
  | lockEscrow jobId =>
      obtain ⟨hcreated, _, hprovider, deadline, hafter⟩ := lockEscrow_eq_ok hexec
      refine .lock _ _ hcreated ?_ ?_ hafter
      · exact hprovider.symm
      · exact ⟨rfl, rfl⟩
  | releaseEscrow jobId actualCost =>
      obtain ⟨_, job, hcreated, hconsumer, hstate, hafter⟩ := releaseEscrow_eq_ok hexec
      exact .close _ _ hcreated ⟨hconsumer, by simp [hstate]⟩ hafter
  | cancelEscrow jobId =>
      obtain ⟨hcreated, _, hafter⟩ := cancelEscrow_eq_ok hexec
      refine .close _ _ hcreated ?_ hafter
      exact ⟨rfl, nofun⟩
  | setFee feeBps =>
      simp only [Call.exec, setFee, bind_eq_ok, ensure_eq_ok, pure_eq_ok, exists_const,
        Prod.mk.injEq] at hexec
      obtain ⟨_, _, _, rfl⟩ := hexec
      exact .none rfl
  | setFeeCollector collector =>
      simp only [Call.exec, setFeeCollector, bind_eq_ok, ensure_eq_ok, pure_eq_ok, exists_const,
        Prod.mk.injEq] at hexec
      obtain ⟨_, _, rfl⟩ := hexec
      exact .none rfl

/-- A job that exists has a consumer, and a locked one exists. -/
structure JobSound (job : Job) : Prop where
  consumer : job.createdAt ≠ 0 → job.consumer ≠ 0
  locked : job.state = .locked → job.createdAt ≠ 0

theorem forall_jobs_update {P : Job → Prop} {job : Job} (hjobs : ∀ key, P (s.jobs key))
    (hjob : P job) (hafter : t.jobs = Function.update s.jobs key job) (key' : Key) :
    P (t.jobs key') := by
  rw [hafter, Function.update_apply]
  split
  · exact hjob
  · exact hjobs key'

theorem Writes.jobSound {c : Call} (hwrites : Writes site c s t)
    (hjobs : ∀ key, JobSound (s.jobs key)) : ∀ key, JobSound (t.jobs key) := by
  cases hwrites with
  | create hconsumer key job _ hjob hafter =>
      apply forall_jobs_update hjobs _ hafter
      exact ⟨fun _ => hjob.1 ▸ hconsumer, by simp [hjob.2]⟩
  | lock key job hcreated _ hjob hafter =>
      apply forall_jobs_update hjobs _ hafter
      exact ⟨fun _ => hjob.1 ▸ (hjobs key).consumer hcreated, fun _ => hjob.2 ▸ hcreated⟩
  | close key job hcreated hjob hafter =>
      apply forall_jobs_update hjobs _ hafter
      exact ⟨fun _ => hjob.1 ▸ (hjobs key).consumer hcreated, fun h => absurd h hjob.2⟩
  | none hafter => rwa [hafter]

/-- The provider of a locked job locked it, and nobody calls from the zero address. -/
theorem Writes.provider {c : Call} (hwrites : Writes site c s t) (hsender : c.msg.sender ≠ 0)
    (hjobs : ∀ key, (s.jobs key).state = .locked → (s.jobs key).provider ≠ 0) :
    ∀ key, (t.jobs key).state = .locked → (t.jobs key).provider ≠ 0 := by
  cases hwrites with
  | create _ key job _ hjob hafter =>
      exact forall_jobs_update (P := fun job => job.state = .locked → job.provider ≠ 0) hjobs
        (by simp [hjob.2]) hafter
  | lock key job _ hprovider _ hafter =>
      exact forall_jobs_update (P := fun job => job.state = .locked → job.provider ≠ 0) hjobs
        (fun _ => hprovider ▸ hsender) hafter
  | close key job _ hjob hafter =>
      exact forall_jobs_update (P := fun job => job.state = .locked → job.provider ≠ 0) hjobs
        (fun h => absurd h hjob.2) hafter
  | none hafter => rwa [hafter]

/-! ### Before the deadline -/

variable {calls : List (Taken Call Contracts (List Payout))}
  {taken : Taken Call Contracts (List Payout)}

/-- A call while the job is locked and its deadline is not over, by someone who is no oracle. -/
structure InWindow (key : Key) (taken : Taken Call Contracts (List Payout)) : Prop where
  locked : (taken.before.jobs key).state = .locked
  early : taken.call.msg.timestamp ≤ (taken.before.jobs key).deadline.toNat
  outsider : ¬ taken.before.hasRole .oracle taken.call.msg.sender

/-- Such a call leaves the job alone and sends none of its NMC. -/
def Protected (site : Site) (key : Key) (taken : Taken Call Contracts (List Payout)) : Prop :=
  InWindow key taken → taken.after.jobs key = taken.before.jobs key ∧
    (taken.call.key? site = some key → taken.output = [])

/-- The consumer of the job cancels it then. -/
structure EarlyCancel (site : Site) (key : Key) (taken : Taken Call Contracts (List Payout)) :
    Prop where
  window : InWindow key taken
  call : ∃ jobId, taken.call.method = .cancelEscrow jobId ∧ site.keccak256 jobId = key
  consumer : taken.call.msg.sender = (taken.before.jobs key).consumer

/-- A call about another job. -/
theorem protected_of_ne {key' : Key} {job : Job} (hkey : taken.call.key? site = some key')
    (hjobs : taken.after.jobs = Function.update taken.before.jobs key' job) (hne : key ≠ key') :
    Protected site key taken := by
  intro _
  constructor
  · rw [hjobs, Function.update_of_ne hne]
  · intro hkey'
    exact absurd (Option.some.inj (hkey'.symm.trans hkey)) hne

/-- An early cancellation is the one way to lose the protection. -/
theorem protected_iff (hjobs : ∀ key, JobSound (taken.before.jobs key))
    (hexec : taken.call.exec site taken.before = .ok (taken.output, taken.after)) :
    Protected site key taken ↔ ¬ EarlyCancel site key taken := by
  obtain ⟨s, ⟨msg, method⟩, payouts, t⟩ := taken
  constructor
  · rintro hprotected ⟨hwindow, ⟨jobId, hcall, rfl⟩, _⟩
    obtain rfl : method = .cancelEscrow jobId := hcall
    obtain ⟨_, _, hafter⟩ := cancelEscrow_eq_ok hexec
    obtain ⟨hsame, _⟩ := hprotected hwindow
    have hstate : (t.jobs (site.keccak256 jobId)).state = .cancelled := by
      rw [hafter, Function.update_self]
    have hlocked : (t.jobs (site.keccak256 jobId)).state = .locked := by
      rw [show t.jobs _ = s.jobs _ from hsame]
      exact hwindow.locked
    rw [hlocked] at hstate
    cases hstate
  · intro hcancel hwindow
    have hlocked : (s.jobs key).state = .locked := hwindow.locked
    cases method with
    | createEscrow jobId provider amount price maxDurationSecs =>
        obtain ⟨hnew, _, hafter⟩ := createEscrow_eq_ok hexec
        refine protected_of_ne rfl hafter ?_ hwindow
        rintro rfl
        exact (hjobs _).locked hlocked hnew
    | lockEscrow jobId =>
        obtain ⟨_, hopen, _, deadline, hafter⟩ := lockEscrow_eq_ok hexec
        refine protected_of_ne rfl hafter ?_ hwindow
        rintro rfl
        rw [hlocked] at hopen
        cases hopen
    | releaseEscrow jobId actualCost =>
        exact absurd (releaseEscrow_eq_ok hexec).1 hwindow.outsider
    | cancelEscrow jobId =>
        obtain ⟨_, hguard, hafter⟩ := cancelEscrow_eq_ok hexec
        refine protected_of_ne rfl hafter ?_ hwindow
        rintro rfl
        rw [cancelGuard, hlocked] at hguard
        rcases ensure_eq_ok.mp hguard with hpassed | hconsumer | horacle
        · exact absurd hwindow.early (Nat.not_le.mpr hpassed)
        · exact hcancel ⟨hwindow, ⟨jobId, rfl, rfl⟩, hconsumer⟩
        · exact hwindow.outsider horacle
    | setFee feeBps =>
        simp only [Call.exec, setFee, bind_eq_ok, ensure_eq_ok, pure_eq_ok, exists_const,
          Prod.mk.injEq] at hexec
        obtain ⟨_, _, rfl, rfl⟩ := hexec
        exact ⟨rfl, fun _ => rfl⟩
    | setFeeCollector collector =>
        simp only [Call.exec, setFeeCollector, bind_eq_ok, ensure_eq_ok, pure_eq_ok, exists_const,
          Prod.mk.injEq] at hexec
        obtain ⟨_, rfl, rfl⟩ := hexec
        exact ⟨rfl, fun _ => rfl⟩

section Runs

variable {nmc : Erc20} {isProvider : Address → Bool} {feeCollector admin oracle : Address}
  {platformFeeBps : UInt16}

/-- The jobs a run starts with do not exist yet. -/
theorem jobSound_zero : JobSound .zero := ⟨fun h => absurd rfl h, nofun⟩

theorem deploy_jobSound
    (hdeploy : deploy nmc isProvider feeCollector platformFeeBps admin oracle = .ok s) (key : Key) :
    JobSound (s.jobs key) := by
  simp only [deploy, bind_eq_ok, ensure_eq_ok, pure_eq_ok, exists_const] at hdeploy
  obtain ⟨_, rfl⟩ := hdeploy
  exact jobSound_zero

theorem Elsewhere.jobs {self : Address} (helsewhere : Elsewhere self s t) : t.jobs = s.jobs := by
  cases helsewhere <;> rfl

theorem run_jobSound
    (hdeploy : deploy nmc isProvider feeCollector platformFeeBps admin oracle = .ok s)
    (hrun : Runs site s calls t) :
    (∀ key, JobSound (t.jobs key)) ∧ ∀ taken ∈ calls, ∀ key, JobSound (taken.before.jobs key) := by
  have hcall : ∀ (c : Call) (t : Contracts) (o : List Payout) (u : Contracts),
      (∀ key, JobSound (t.jobs key)) → c.exec site t = .ok (o, u) →
      ∀ key, JobSound (u.jobs key) := fun _ _ _ _ hjobs hexec => (exec_writes hexec).jobSound hjobs
  have henv : ∀ t u : Contracts, (∀ key, JobSound (t.jobs key)) → Elsewhere site.self t u →
      ∀ key, JobSound (u.jobs key) := by
    intro t u hjobs helsewhere
    rwa [helsewhere.jobs]
  have hstart := deploy_jobSound hdeploy
  exact ⟨hrun.preserves hstart hcall henv, fun taken => hrun.holds_before hstart hcall henv⟩

/-- In every run the calls of others leave a locked job alone until its deadline exactly when none of
them is a cancellation by its consumer. What happens elsewhere does the jobs and their NMC no harm. -/
theorem working_provider_protected_iff (hsealed : nmc.Sealed site.self)
    (hdeploy : deploy nmc isProvider feeCollector platformFeeBps admin oracle = .ok s)
    (hrun : Runs site s calls t) :
    ((∀ taken ∈ calls, ∀ key, Protected site key taken) ∧
        ∀ u, Elsewhere site.self t u →
          u.jobs = t.jobs ∧ t.nmc.balanceOf site.self ≤ u.nmc.balanceOf site.self) ↔
      ∀ taken ∈ calls, ∀ key, ¬ EarlyCancel site key taken := by
  have hsound := (run_history hsealed hdeploy hrun).1
  have hjobs := (run_jobSound hdeploy hrun).2
  rw [and_iff_left fun u helsewhere => (helsewhere.sound hsound).2]
  exact forall₂_congr fun taken hmem => forall_congr' fun key =>
    protected_iff (hjobs taken hmem) (hrun.exec_of_mem hmem)

end Runs

/-! ### A sample run -/

def sampleLock : Call := ⟨sampleMessage 3, .lockEscrow "job-test-123"⟩

/-- The job is created and locked. -/
theorem sampleLocked_run : ∃ calls t, Runs sampleSite sampleDeployed calls t ∧
    (∀ taken ∈ calls, taken.call = sampleCreate ∨ taken.call = sampleLock) ∧
    (t.jobs (sampleSite.keccak256 "job-test-123")).state = .locked ∧
    (t.jobs (sampleSite.keccak256 "job-test-123")).deadline = 1700003600 ∧
    t.hasRole .oracle 2 = false ∧
    ∃ u, sampleCancel.exec sampleSite t = .ok ([⟨2, 100⟩], u) := by
  have hreplay : ∃ calls t, replay (Call.exec sampleSite) [sampleCreate, sampleLock]
      sampleDeployed = .ok (calls, t) ∧ calls.map Taken.call = [sampleCreate, sampleLock] ∧
      (t.jobs (sampleSite.keccak256 "job-test-123")).state = .locked ∧
      (t.jobs (sampleSite.keccak256 "job-test-123")).deadline = 1700003600 ∧
      t.hasRole .oracle 2 = false ∧
      ∃ u, sampleCancel.exec sampleSite t = .ok ([⟨2, 100⟩], u) :=
    ⟨_, _, rfl, rfl, rfl, rfl, rfl, _, rfl⟩
  obtain ⟨calls, t, hrun, hcalls, hlocked⟩ := hreplay
  refine ⟨calls, t, .of_replay hrun, fun taken hmem => ?_, hlocked⟩
  have hcall := List.mem_map_of_mem (f := Taken.call) hmem
  rw [hcalls] at hcall
  simpa using hcall

/-- Nobody cancels the job. -/
theorem working_provider_protected_locked : ∃ calls t, Runs sampleSite sampleDeployed calls t ∧
    (t.jobs (sampleSite.keccak256 "job-test-123")).state = .locked ∧
    ∀ taken ∈ calls, ∀ key, Protected sampleSite key taken := by
  obtain ⟨calls, t, hrun, hcalls, hlocked, _⟩ := sampleLocked_run
  refine ⟨calls, t, hrun, hlocked, ((working_provider_protected_iff sampleToken_sealed
    (rfl : deploy sampleToken (fun a => a = 3) 4 800 5 6 = .ok sampleDeployed) hrun).mpr ?_).1⟩
  rintro taken hmem key ⟨_, ⟨jobId, hcancel, _⟩, _⟩
  rcases hcalls taken hmem with hcall | hcall
  · rw [hcall] at hcancel
    cases hcancel
  · rw [hcall] at hcancel
    cases hcancel

/-- The consumer cancels the job at once and has everything back. -/
theorem working_provider_protected_fails :
    ¬ ∀ (site : Site) nmc isProvider feeCollector platformFeeBps admin oracle s calls t,
      nmc.Sealed site.self →
      deploy nmc isProvider feeCollector platformFeeBps admin oracle = .ok s →
      Runs site s calls t → ∀ taken ∈ calls, ∀ key, Protected site key taken := by
  intro hclaim
  obtain ⟨calls, t, hrun, _, hlocked, hdeadline, hrole, u, hcancel⟩ := sampleLocked_run
  have hprotected := hclaim _ _ _ _ _ _ _ _ _ _ sampleToken_sealed
    (rfl : deploy sampleToken (fun a => a = 3) 4 800 5 6 = .ok sampleDeployed) (hrun.call hcancel)
    _ (List.mem_append_right _ List.mem_cons_self) (sampleSite.keccak256 "job-test-123")
  have hearly : (1700000000 : Nat) ≤
      (t.jobs (sampleSite.keccak256 "job-test-123")).deadline.toNat := by
    rw [hdeadline]
    decide
  have houtsider : ¬ t.hasRole .oracle 2 := by
    rw [hrole]
    decide
  obtain ⟨_, hkept⟩ := hprotected ⟨hlocked, hearly, houtsider⟩
  cases hkept rfl

/-! ### When a settlement goes through -/

/-- The fee of a settlement. -/
def feeOf (actualCost : Nat) (bps : UInt16) : Nat := actualCost * bps.toNat / 10000

/-- Payments to real addresses go through while the money lasts. -/
theorem sendAll_isOk {self : Address} (hself : self ≠ 0) (hdests : ∀ p ∈ payouts, p.dest ≠ 0)
    (hfunds : totalAmount payouts ≤ s.nmc.balanceOf self) :
    ∃ t, Contracts.sendAll self payouts s = .ok t := by
  induction payouts generalizing s with
  | nil => exact ⟨s, rfl⟩
  | cons p ps ih =>
      obtain ⟨hdest, hrest⟩ := List.forall_mem_cons.mp hdests
      rw [totalAmount_cons] at hfunds
      have hmove : ∃ nmc, s.nmc.move self p.dest p.amount = .ok nmc :=
        ⟨_, Erc20.move_eq_ok.mpr ⟨hself, hdest, by omega, rfl⟩⟩
      obtain ⟨nmc, hmove⟩ := hmove
      have hleft : totalAmount ps ≤ nmc.balanceOf self := by
        by_cases hsame : self = p.dest
        · rw [← hsame] at hmove
          rw [Erc20.balanceOf_move_self hmove]
          omega
        · rw [Erc20.balanceOf_move hmove hsame]
          omega
      obtain ⟨t, hsend⟩ := ih (s := { s with nmc }) hrest hleft
      refine ⟨t, ?_⟩
      simp only [Contracts.sendAll, bind_eq_ok, mapError_eq_ok]
      exact ⟨nmc, hmove, hsend⟩

/-- Nothing is sent to the zero address. -/
theorem dest_ne_zero {self : Address} (hsend : Contracts.sendAll self payouts s = .ok t) :
    ∀ p ∈ payouts, p.dest ≠ 0 := by
  induction payouts generalizing s with
  | nil => exact nofun
  | cons p ps ih =>
      simp only [Contracts.sendAll, bind_eq_ok, mapError_eq_ok] at hsend
      obtain ⟨nmc, hmove, hrest⟩ := hsend
      rw [List.forall_mem_cons]
      exact ⟨(Erc20.move_eq_ok.mp hmove).2.1, ih hrest⟩

/-- What a settlement asks for, when the job is locked, the cost within it and the money there: that
it pays no fee to the zero address. -/
theorem release_isOk_iff {actualCost : Nat} (hself : site.self ≠ 0)
    (horacle : t.hasRole .oracle msg.sender)
    (hlocked : (t.jobs (site.keccak256 jobId)).state = .locked)
    (hjob : JobSound (t.jobs (site.keccak256 jobId)))
    (hprovider : (t.jobs (site.keccak256 jobId)).provider ≠ 0)
    (hcost : actualCost ≤ (t.jobs (site.keccak256 jobId)).lockedNmc)
    (hfee : t.platformFeeBps ≤ maxFeeBps)
    (hfunds : (t.jobs (site.keccak256 jobId)).lockedNmc ≤ t.nmc.balanceOf site.self)
    (hcap : t.nmc.balanceOf site.self ≤ maxSupply) :
    (∃ payouts u, releaseEscrow site msg jobId actualCost t = .ok (payouts, u)) ↔
      feeOf actualCost t.platformFeeBps = 0 ∨ t.feeCollector ≠ 0 := by
  have hbps : t.platformFeeBps.toNat ≤ 1000 := UInt16.le_iff_toNat_le.mp hfee
  have hmul : actualCost * t.platformFeeBps.toNat ≤ actualCost * 1000 :=
    Nat.mul_le_mul_left actualCost hbps
  have hfits : actualCost * t.platformFeeBps.toNat ≤ uint256Max := by
    have hroom : maxSupply * 1000 ≤ uint256Max := by decide
    omega
  have hfeele : feeOf actualCost t.platformFeeBps ≤ actualCost := by
    rw [feeOf]
    omega
  have hcreated := hjob.locked hlocked
  have hconsumer := hjob.consumer hcreated
  simp only [releaseEscrow, bind_eq_ok, ensure_eq_ok, pure_eq_ok, checkedMul_eq_ok,
    checkedSub_eq_ok, exists_const, Prod.mk.injEq]
  constructor
  · rintro ⟨_, _, _, _, _, _, _, ⟨_, rfl⟩, _, ⟨_, rfl⟩, _, ⟨_, rfl⟩, _, hsend, _⟩
    by_cases hzero : feeOf actualCost t.platformFeeBps = 0
    · exact .inl hzero
    · have hleg : (⟨t.feeCollector, feeOf actualCost t.platformFeeBps⟩ : Payout) ∈
          settlementLegs (t.jobs (site.keccak256 jobId)) t.feeCollector
            (actualCost - feeOf actualCost t.platformFeeBps) (feeOf actualCost t.platformFeeBps)
            ((t.jobs (site.keccak256 jobId)).lockedNmc - actualCost) := by
        apply List.mem_filter.mpr
        exact ⟨List.mem_cons_of_mem _ List.mem_cons_self, decide_eq_true (Nat.pos_of_ne_zero hzero)⟩
      exact .inr (dest_ne_zero hsend _ hleg)
  · intro hpayable
    have hdests : ∀ p ∈ settlementLegs (t.jobs (site.keccak256 jobId)) t.feeCollector
        (actualCost - feeOf actualCost t.platformFeeBps) (feeOf actualCost t.platformFeeBps)
        ((t.jobs (site.keccak256 jobId)).lockedNmc - actualCost), p.dest ≠ 0 := by
      intro p hmem
      simp only [settlementLegs, List.mem_filter, List.mem_cons, List.not_mem_nil, or_false,
        decide_eq_true_eq] at hmem
      obtain ⟨rfl | rfl | rfl, hpos⟩ := hmem
      · exact hprovider
      · exact hpayable.resolve_left (Nat.pos_iff_ne_zero.mp hpos)
      · exact hconsumer
    have htotal : totalAmount (settlementLegs (t.jobs (site.keccak256 jobId)) t.feeCollector
        (actualCost - feeOf actualCost t.platformFeeBps) (feeOf actualCost t.platformFeeBps)
        ((t.jobs (site.keccak256 jobId)).lockedNmc - actualCost)) =
          (t.jobs (site.keccak256 jobId)).lockedNmc := totalAmount_settlementLegs hcost hfeele
    obtain ⟨u, hsend⟩ := sendAll_isOk (s := t.setJob (site.keccak256 jobId)
      { t.jobs (site.keccak256 jobId) with
        state := .settled
        actualCost
        feeCollected := feeOf actualCost t.platformFeeBps
        settledAt := msg.timestamp64 }) hself hdests (htotal.trans_le hfunds)
    exact ⟨_, u, horacle, hcreated, hlocked, hcost, _, ⟨hfits, rfl⟩, _, ⟨hfeele, rfl⟩, _,
      ⟨hcost, rfl⟩, u, hsend, rfl, rfl⟩

section Runs

variable {nmc : Erc20} {isProvider : Address → Bool} {feeCollector admin oracle : Address}
  {platformFeeBps : UInt16} {token : NmcToken} {tokenAdmin bridge : Address}
  {tokenCalls : List NmcToken.Record} {actualCost : Nat}

/-- The contract holds what is locked in one job. -/
theorem locked_le_balance (hsealed : nmc.Sealed site.self)
    (hdeploy : deploy nmc isProvider feeCollector platformFeeBps admin oracle = .ok s)
    (hrun : Runs site s calls t) (hlocked : (t.jobs key).state = .locked) :
    (t.jobs key).lockedNmc ≤ t.nmc.balanceOf site.self := by
  have hlive : (t.jobs key).isLive := by rw [Job.isLive, hlocked]
  have hsolvent := run_solvent hsealed hdeploy hrun {key}
  rwa [Finset.sum_singleton, Job.owed, if_pos hlive] at hsolvent

/-- The provider of a locked job is no zero address, since it called. -/
theorem run_provider
    (hdeploy : deploy nmc isProvider feeCollector platformFeeBps admin oracle = .ok s)
    (hrun : Runs site s calls t) (hsenders : ∀ taken ∈ calls, taken.call.msg.sender ≠ 0) :
    ∀ key, (t.jobs key).state = .locked → (t.jobs key).provider ≠ 0 := by
  refine hrun.invariant (I := fun calls t => (∀ taken ∈ calls, taken.call.msg.sender ≠ 0) →
    ∀ key, (t.jobs key).state = .locked → (t.jobs key).provider ≠ 0) ?_ ?_ ?_ hsenders
  · intro _ key hlocked
    simp only [deploy, bind_eq_ok, ensure_eq_ok, pure_eq_ok, exists_const] at hdeploy
    obtain ⟨_, rfl⟩ := hdeploy
    cases hlocked
  · intro calls c t o u ih hexec hsenders
    rw [List.forall_mem_append, List.forall_mem_singleton] at hsenders
    exact (exec_writes hexec).provider hsenders.2 (ih hsenders.1)
  · intro calls t u ih helsewhere hsenders
    rw [helsewhere.jobs]
    exact ih hsenders

/-- Whatever the contract was deployed with and is set to, an oracle can settle every locked job at
every cost within it, exactly when the fee comes to nothing or has a collector. -/
theorem settlement_goes_through_iff (hself : site.self ≠ 0) (hsealed : nmc.Sealed site.self)
    (hdeploy : deploy nmc isProvider feeCollector platformFeeBps admin oracle = .ok s)
    (hrun : Runs site s calls t) (hsenders : ∀ taken ∈ calls, taken.call.msg.sender ≠ 0)
    (htoken : NmcToken.Runs (.deploy tokenAdmin bridge) tokenCalls token)
    (hnmc : t.nmc = token.erc20) (horacle : t.hasRole .oracle msg.sender)
    (hlocked : (t.jobs (site.keccak256 jobId)).state = .locked)
    (hcost : actualCost ≤ (t.jobs (site.keccak256 jobId)).lockedNmc) :
    (∃ payouts u, releaseEscrow site msg jobId actualCost t = .ok (payouts, u)) ↔
      feeOf actualCost t.platformFeeBps = 0 ∨ t.feeCollector ≠ 0 := by
  have hcap : t.nmc.balanceOf site.self ≤ maxSupply := by
    rw [hnmc]
    exact (NmcToken.balance_le_supply htoken site.self).trans (NmcToken.run_accounted htoken).cap
  exact release_isOk_iff hself horacle hlocked ((run_jobSound hdeploy hrun).1 _)
    (run_provider hdeploy hrun hsenders _ hlocked) hcost (run_history hsealed hdeploy hrun).1.fee
    (locked_le_balance hsealed hdeploy hrun hlocked) hcap

end Runs

/-! ### A sample settlement -/

/-- Bridge `8` has minted 100 units for account `2`, which has approved the contract `1`. -/
def sampleNmcCalls : List NmcToken.Call :=
  [⟨sampleMessage 8, .bridgeMint 2 100 0⟩, ⟨sampleMessage 2, .approve 1 100⟩]

/-- Then the contract takes them. -/
def sampleTake : NmcToken.Call := ⟨sampleMessage 1, .transferFrom 2 1 100⟩

def sampleNmc : NmcToken := stateAfter NmcToken.Call.exec sampleNmcCalls (.deploy 5 8)

def sampleRelease : Call := ⟨sampleMessage 6, .releaseEscrow "job-test-123" 100⟩

/-- The contract over this token, with a fee of 8 % for the collector. -/
def sampleOver (feeCollector : Address) : Contracts where
  nmc := sampleNmc.erc20
  isProvider a := a = 3
  hasRole
    | .admin, a => a = 5
    | .oracle, a => a = 6
  feeCollector
  platformFeeBps := 800
  jobs _ := .zero

theorem sampleNmc_sealed : sampleNmc.erc20.Sealed 1 := fun _ => rfl

/-- The job is created and locked over this token. -/
theorem sampleOver_run (feeCollector : Address) : ∃ calls t tokenCalls token,
    Runs sampleSite (sampleOver feeCollector) calls t ∧
    (∀ taken ∈ calls, taken.call.msg.sender ≠ 0) ∧
    NmcToken.Runs (.deploy 5 8) tokenCalls token ∧ t.nmc = token.erc20 ∧
    t.hasRole .oracle 6 ∧ (t.jobs (sampleSite.keccak256 "job-test-123")).state = .locked ∧
    (t.jobs (sampleSite.keccak256 "job-test-123")).lockedNmc = 100 ∧
    t.feeCollector = feeCollector ∧ t.platformFeeBps = 800 ∧
    (feeCollector = 0 → sampleRelease.exec sampleSite t = .error (.token .invalidReceiver)) := by
  have hreplay : ∃ calls t tokenCalls token, replay (Call.exec sampleSite) [sampleCreate, sampleLock]
      (sampleOver feeCollector) = .ok (calls, t) ∧
      calls.map Taken.call = [sampleCreate, sampleLock] ∧
      replay NmcToken.Call.exec (sampleNmcCalls ++ [sampleTake]) (.deploy 5 8) =
        .ok (tokenCalls, token) ∧ t.nmc = token.erc20 ∧
      t.hasRole .oracle 6 ∧ (t.jobs (sampleSite.keccak256 "job-test-123")).state = .locked ∧
      (t.jobs (sampleSite.keccak256 "job-test-123")).lockedNmc = 100 ∧
      t.feeCollector = feeCollector ∧ t.platformFeeBps = 800 ∧
      (feeCollector = 0 →
        sampleRelease.exec sampleSite t = .error (.token .invalidReceiver)) := by
    refine ⟨_, _, _, _, rfl, rfl, rfl, rfl, rfl, rfl, rfl, rfl, rfl, ?_⟩
    rintro rfl
    rfl
  obtain ⟨calls, t, tokenCalls, token, hrun, hcalls, htoken, hrest⟩ := hreplay
  refine ⟨calls, t, tokenCalls, token, .of_replay hrun, fun taken hmem => ?_, .of_replay htoken,
    hrest⟩
  have hcall := List.mem_map_of_mem (f := Taken.call) hmem
  rw [hcalls] at hcall
  simp only [List.mem_cons, List.not_mem_nil, or_false] at hcall
  rcases hcall with hcall | hcall
  · rw [hcall]
    decide
  · rw [hcall]
    decide

/-- With a collector the settlement goes through. -/
theorem settlement_goes_through_collected : ∃ calls t, Runs sampleSite (sampleOver 4) calls t ∧
    ∃ payouts u, releaseEscrow sampleSite (sampleMessage 6) "job-test-123" 100 t =
      .ok (payouts, u) := by
  obtain ⟨calls, t, tokenCalls, token, hrun, hsenders, htoken, hnmc, horacle, hlocked, hamount,
    hcollector, _⟩ := sampleOver_run 4
  refine ⟨calls, t, hrun, (settlement_goes_through_iff (by decide) sampleNmc_sealed
    (rfl : deploy sampleNmc.erc20 (fun a => a = 3) 4 800 5 6 = .ok (sampleOver 4)) hrun hsenders
    htoken hnmc horacle hlocked (by rw [hamount])).mpr (.inr ?_)⟩
  rw [hcollector]
  decide

/-- Deployed with no collector for the fee, the contract settles nothing. -/
theorem settlement_goes_through_fails :
    ¬ ∀ (site : Site) nmc isProvider feeCollector platformFeeBps admin oracle s calls t
      tokenAdmin bridge tokenCalls token msg jobId actualCost,
      site.self ≠ 0 → nmc.Sealed site.self →
      deploy nmc isProvider feeCollector platformFeeBps admin oracle = .ok s →
      Runs site s calls t → (∀ taken ∈ calls, taken.call.msg.sender ≠ 0) →
      NmcToken.Runs (.deploy tokenAdmin bridge) tokenCalls token → t.nmc = token.erc20 →
      t.hasRole .oracle msg.sender → (t.jobs (site.keccak256 jobId)).state = .locked →
      actualCost ≤ (t.jobs (site.keccak256 jobId)).lockedNmc →
      ∃ payouts u, releaseEscrow site msg jobId actualCost t = .ok (payouts, u) := by
  intro hclaim
  obtain ⟨calls, t, tokenCalls, token, hrun, hsenders, htoken, hnmc, horacle, hlocked, hamount, _, _,
    hrefused⟩ := sampleOver_run 0
  obtain ⟨payouts, u, hrelease⟩ := hclaim sampleSite _ _ _ _ _ _ _ calls t _ _ tokenCalls token
    (sampleMessage 6) "job-test-123" 100 (by decide) sampleNmc_sealed
    (rfl : deploy sampleNmc.erc20 (fun a => a = 3) 0 800 5 6 = .ok (sampleOver 0)) hrun hsenders
    htoken hnmc horacle hlocked (by rw [hamount])
  cases (hrefused rfl).symm.trans hrelease

/-! ### Winding down -/

/-- A job that exists and is neither settled nor cancelled. -/
def Outstanding (site : Site) (s : Contracts) (jobId : String) : Prop :=
  (s.jobs (site.keccak256 jobId)).createdAt ≠ 0 ∧ (s.jobs (site.keccak256 jobId)).isLive

/-- The consumer of the job cancels it. -/
def withdrawal (site : Site) (now : Nat) (s : Contracts) (jobId : String) : Call :=
  ⟨⟨(s.jobs (site.keccak256 jobId)).consumer, now⟩, .cancelEscrow jobId⟩

/-- What a withdrawal sends. -/
def wholeLock (site : Site) (s : Contracts) (jobId : String) : List Payout :=
  [⟨(s.jobs (site.keccak256 jobId)).consumer, (s.jobs (site.keccak256 jobId)).lockedNmc⟩]

theorem cancelGuard_consumer {job : Job} (hlive : job.isLive) (hsender : msg.sender = job.consumer) :
    cancelGuard msg job s = .ok () := by
  rw [Job.isLive] at hlive
  rw [cancelGuard]
  cases hstate : job.state with
  | «open» => exact ensure_eq_ok.mpr (.inl hsender)
  | locked => exact ensure_eq_ok.mpr (.inr (.inl hsender))
  | settled => simp [hstate] at hlive
  | cancelled => simp [hstate] at hlive

/-- A consumer gets its lock back whenever it asks for it. -/
theorem withdrawal_isOk (now : Nat) (hself : site.self ≠ 0) (hsolvent : Solvent site.self s)
    (hjobs : ∀ key, JobSound (s.jobs key)) (hout : Outstanding site s jobId) :
    ∃ u, (withdrawal site now s jobId).exec site s = .ok (wholeLock site s jobId, u) ∧
      u.jobs = Function.update s.jobs (site.keccak256 jobId)
        { s.jobs (site.keccak256 jobId) with state := .cancelled } := by
  obtain ⟨hcreated, hlive⟩ := hout
  have hfunds : (s.jobs (site.keccak256 jobId)).lockedNmc ≤ s.nmc.balanceOf site.self := by
    have hheld := hsolvent {site.keccak256 jobId}
    rwa [Finset.sum_singleton, Job.owed, if_pos hlive] at hheld
  have hdests : ∀ p ∈ wholeLock site s jobId, p.dest ≠ 0 := by
    intro p hp
    rw [List.mem_singleton.mp hp]
    exact (hjobs _).consumer hcreated
  have htotal : totalAmount (wholeLock site s jobId) = (s.jobs (site.keccak256 jobId)).lockedNmc := by
    rw [wholeLock, totalAmount_cons, totalAmount_nil, Nat.add_zero]
  obtain ⟨u, hsend⟩ := sendAll_isOk (s := s.setJob (site.keccak256 jobId)
    { s.jobs (site.keccak256 jobId) with state := .cancelled }) hself hdests
    (htotal.trans_le hfunds)
  refine ⟨u, ?_, sendAll_jobs hsend⟩
  simp only [withdrawal, Call.exec, cancelEscrow, bind_eq_ok, ensure_eq_ok, pure_eq_ok,
    exists_const, Prod.mk.injEq]
  exact ⟨hcreated, (), cancelGuard_consumer hlive rfl, u, hsend, rfl, rfl⟩

/-- What every state of a run has that a withdrawal needs. -/
structure Withdrawable (site : Site) (s : Contracts) : Prop where
  sound : Sound site s
  solvent : Solvent site.self s
  jobs : ∀ key, JobSound (s.jobs key)

theorem Withdrawable.exec {c : Call} (h : Withdrawable site s)
    (hexec : c.exec site s = .ok (payouts, t)) : Withdrawable site t where
  sound := (exec_effect h.sound.approvals hexec).sound h.sound
  solvent := (exec_effect h.sound.approvals hexec).solvent h.solvent
  jobs := (exec_writes hexec).jobSound h.jobs

/-- Withdrawals of different jobs do not get in each other's way: induction on the jobs to come, which
the one that is withdrawn leaves as they are. -/
theorem withdrawals_isOk (now : Nat) (hself : site.self ≠ 0) {jobIds : List String}
    (h : Withdrawable site s) (hdistinct : (jobIds.map site.keccak256).Nodup)
    (hout : ∀ jobId ∈ jobIds, Outstanding site s jobId) :
    ∃ calls u, replay (Call.exec site) (jobIds.map (withdrawal site now s)) s = .ok (calls, u) ∧
      calls.map Taken.output = jobIds.map (wholeLock site s) ∧
      (∀ jobId ∈ jobIds, (u.jobs (site.keccak256 jobId)).state = .cancelled) ∧
      ∀ key ∉ jobIds.map site.keccak256, u.jobs key = s.jobs key := by
  induction jobIds generalizing s with
  | nil =>
      refine ⟨[], s, rfl, rfl, ?_, fun _ _ => rfl⟩
      intro jobId hmem
      cases hmem
  | cons jobId jobIds ih =>
      rw [List.map_cons, List.nodup_cons] at hdistinct
      rw [List.forall_mem_cons] at hout
      obtain ⟨t, hexec, hjobs⟩ := withdrawal_isOk now hself h.solvent h.jobs hout.1
      have hkept : ∀ key, key ≠ site.keccak256 jobId → t.jobs key = s.jobs key := by
        intro key hne
        rw [hjobs, Function.update_of_ne hne]
      have hothers : ∀ other ∈ jobIds,
          t.jobs (site.keccak256 other) = s.jobs (site.keccak256 other) := by
        intro other hmem
        refine hkept _ fun heq => hdistinct.1 ?_
        rw [← heq]
        exact List.mem_map_of_mem hmem
      obtain ⟨calls, u, hreplay, houtputs, hclosed, hrest⟩ := ih (h.exec hexec) hdistinct.2
        fun other hmem => by
          rw [Outstanding, hothers other hmem]
          exact hout.2 other hmem
      have hcalls : jobIds.map (withdrawal site now s) = jobIds.map (withdrawal site now t) := by
        refine List.map_congr_left fun other hmem => ?_
        rw [withdrawal, withdrawal, hothers other hmem]
      have hlocks : jobIds.map (wholeLock site s) = jobIds.map (wholeLock site t) := by
        refine List.map_congr_left fun other hmem => ?_
        rw [wholeLock, wholeLock, hothers other hmem]
      refine ⟨⟨s, withdrawal site now s jobId, wholeLock site s jobId, t⟩ :: calls, u, ?_, ?_, ?_, ?_⟩
      · simp only [List.map_cons, hcalls, replay, bind_eq_ok, pure_eq_ok, Prod.exists]
        exact ⟨_, t, hexec, calls, u, hreplay, rfl⟩
      · rw [List.map_cons, List.map_cons, houtputs, hlocks]
      · rw [List.forall_mem_cons]
        refine ⟨?_, hclosed⟩
        rw [hrest _ hdistinct.1, hjobs, Function.update_self]
      · intro key hkey
        rw [List.map_cons, List.mem_cons, not_or] at hkey
        rw [hrest key hkey.2, hkept key hkey.1]

section Runs

variable {nmc : Erc20} {isProvider : Address → Bool} {feeCollector admin oracle : Address}
  {platformFeeBps : UInt16}

end Runs

end NeuralMesh.Evm
