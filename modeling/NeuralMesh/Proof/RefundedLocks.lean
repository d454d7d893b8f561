import NeuralMesh.Proof.TwoCancels
import NeuralMesh.Proof.TwoReports

/-!
# What a cancelled and a failed job give back

Cancelling gives back the first locked row of the job and adds `NULL` where there is none. Failing
gives back whatever the consumer has in escrow, for whichever job, on the word of any provider.
-/

namespace NeuralMesh

open Coordinator Program

variable {s t : Db} {jobId : JobId} {job : Job}

/-- The amount goes from the escrow column of an account back to its balance, if the account is
there, and no other account changes. -/
structure Db.GivesBack (s t : Db) (accountId : AccountId) (amount : ℚ) : Prop where
  account : t.creditAccounts.get? accountId =
    (s.creditAccounts.get? accountId).map (.settle amount amount)
  others : ∀ k, k ≠ accountId → t.creditAccounts.get? k = s.creditAccounts.get? k

/-- No row is locked for the job. -/
def Db.Unlocked (s : Db) (jobId : JobId) : Prop :=
  ∀ id e, s.escrows.get? id = some e → e.jobId = jobId → e.state ≠ .locked

/-- An update gives back an amount exactly when it does so to the row it finds. -/
theorem givesBack_update_iff {accountId : AccountId} {amount : ℚ} {f : CreditAccount → CreditAccount}
    (hupdate : t.creditAccounts = s.creditAccounts.update accountId f) :
    s.GivesBack t accountId amount ↔
      ∀ a ∈ s.creditAccounts.get? accountId, f a = a.settle amount amount := by
  constructor
  · intro hgives a ha
    have hrow := hgives.account
    rw [hupdate, Table.get?_update_self, Option.mem_def.mp ha, Option.map_some, Option.map_some,
      Option.some.injEq] at hrow
    exact hrow
  · intro hrow
    refine ⟨?_, fun k hk => ?_⟩
    · rw [hupdate, Table.get?_update_self]
      cases ha : s.creditAccounts.get? accountId with
      | none => rfl
      | some a => rw [Option.map_some, Option.map_some, hrow a ha]
    · rw [hupdate, Table.get?_update_of_ne _ _ hk]

/-! ### Cancelling -/

/-- A cancellation gives back what is locked for the job and leaves no row locked. -/
structure Db.RefundsLock (s t : Db) (jobId : JobId) (job : Job) : Prop where
  gives : s.GivesBack t job.consumerId (s.lockedFor jobId)
  unlocked : t.Unlocked jobId

/-- What it takes of the account: without a locked row, a balance that is `NULL` already and nothing
in escrow; else, that the first row is all that is locked, unless the balance is `NULL`, and that
the escrow column covers it, or holds just what is locked. -/
def Db.RefundFits (s : Db) (jobId : JobId) (a : CreditAccount) : Prop :=
  match firstLocked s.escrows jobId with
  | none => a.availableNmc = none ∧ a.escrowedNmc = some 0
  | some (_, row) =>
      (a.availableNmc = none ∨ row.lockedNmc = s.lockedFor jobId) ∧
        ∃ escrowed ∈ a.escrowedNmc, s.lockedFor jobId = min row.lockedNmc escrowed

theorem CreditAccount.refundJob_eq_settle_iff {a : CreditAccount} {found : Option ℚ} {amount : ℚ} :
    a.refundJob found = a.settle amount amount ↔
      nullAdd a.availableNmc found = nullAdd a.availableNmc (some amount) ∧
        greatestZero (nullSub a.escrowedNmc found) = nullSub a.escrowedNmc (some amount) := by
  simp [CreditAccount.refundJob, CreditAccount.settle]

theorem nullAdd_eq_iff {x : Option ℚ} {a b : ℚ} :
    nullAdd x (some a) = nullAdd x (some b) ↔ x = none ∨ a = b := by
  cases x with
  | none => exact iff_of_true rfl (.inl rfl)
  | some x => simp

/-- `GREATEST` stops the column at zero. -/
theorem greatestZero_eq_iff {x : Option ℚ} {a b : ℚ} :
    greatestZero (nullSub x (some a)) = nullSub x (some b) ↔ ∃ y ∈ x, b = min a y := by
  cases x with
  | none => simp
  | some y =>
      rw [nullSub_some, nullSub_some, greatestZero_some, Option.some.injEq]
      simp only [Option.mem_def, Option.some.injEq, exists_eq_left']
      rcases le_total a y with hle | hle
      · rw [max_eq_right (sub_nonneg.mpr hle), min_eq_left hle, sub_right_inj, eq_comm]
      · rw [max_eq_left (sub_nonpos.mpr hle), min_eq_right hle, eq_comm, sub_eq_zero, eq_comm]

theorem refundJob_fits_iff {a : CreditAccount} :
    a.refundJob ((firstLocked s.escrows jobId).map fun row => row.2.lockedNmc) =
        a.settle (s.lockedFor jobId) (s.lockedFor jobId) ↔ s.RefundFits jobId a := by
  rw [CreditAccount.refundJob_eq_settle_iff, Db.RefundFits]
  cases hfirst : firstLocked s.escrows jobId with
  | none =>
      rw [lockedFor_eq_zero (firstLocked_eq_none_iff.mp hfirst), Option.map_none, nullAdd_none_right,
        nullSub_none_right, greatestZero_none]
      refine and_congr ?_ ?_
      · cases a.availableNmc with
        | none => exact iff_of_true rfl rfl
        | some x => simp
      · cases a.escrowedNmc with
        | none => simp
        | some x => simp [eq_comm]
  | some row => exact and_congr nullAdd_eq_iff greatestZero_eq_iff

/-- The rows of the job are released, whatever is refunded. -/
theorem cancelJob_unlocked (hjob : s.jobs.get? jobId = some job)
    (hlive : job.state.isTerminal = false) :
    ((Operation.cancelJob jobId).after s).Unlocked jobId := by
  intro id e he hof
  rw [cancelJob_after_live hjob hlive, Table.get?_updateWhere] at he
  cases hrow : s.escrows.get? id with
  | none =>
      rw [hrow] at he
      cases he
  | some e' =>
      rw [hrow, Option.map_some, Option.some.injEq] at he
      split at he
      · rw [← he]
        nofun
      · rename_i hother
        rw [← he] at hof ⊢
        exact fun hlocked => hother (decide_eq_true ⟨hof, hlocked⟩)

/-- Cancelling gives back what is locked for the job exactly when the account of the consumer, if
there is one, fits what the statement reads. -/
theorem cancel_refunds_lock_iff (hjob : s.jobs.get? jobId = some job)
    (hlive : job.state.isTerminal = false) :
    s.RefundsLock ((Operation.cancelJob jobId).after s) jobId job ↔
      ∀ a ∈ s.creditAccounts.get? job.consumerId, s.RefundFits jobId a := by
  have haccounts : ((Operation.cancelJob jobId).after s).creditAccounts =
      s.creditAccounts.update job.consumerId
        (.refundJob ((firstLocked s.escrows jobId).map fun row => row.2.lockedNmc)) := by
    rw [cancelJob_after_live hjob hlive]
  have hgives : s.GivesBack _ job.consumerId (s.lockedFor jobId) ↔ _ :=
    givesBack_update_iff haccounts
  constructor
  · exact fun hrefunds a ha => refundJob_fits_iff.mp (hgives.mp hrefunds.gives a ha)
  · exact fun hfits => ⟨hgives.mpr fun a ha => refundJob_fits_iff.mpr (hfits a ha),
      cancelJob_unlocked hjob hlive⟩

/-- A funded job of an hour. -/
def funded : List Operation := [topUp "alice" 10, submitHour "a" "alice" 5]

theorem cancel_refunds_lock_funded :
    ∃ job, (afterAll funded Db.init).jobs.get? "a" = some job ∧
      (afterAll funded Db.init).RefundsLock
        ((Operation.cancelJob "a").after (afterAll funded Db.init)) "a" job := by
  have hstate : ((afterAll funded Db.init).jobs.get? "a").map
      (fun job => (job.consumerId, job.state)) = some ("alice", .queued) := by decide +kernel
  have haccount : (afterAll funded Db.init).creditAccounts.get? "alice" =
      some ⟨some 5, some 5, some 0, some 0⟩ := by decide +kernel
  have hfirst : firstLocked (afterAll funded Db.init).escrows "a" =
      some ("escrow-a", ⟨"a", "alice", none, 5, .locked⟩) := by decide +kernel
  have hlocked : (afterAll funded Db.init).lockedFor "a" = 5 := by decide +kernel
  obtain ⟨job, hjob, hrow⟩ := Option.map_eq_some_iff.mp hstate
  obtain ⟨hconsumer, hqueued⟩ := Prod.mk.inj hrow
  have hlive : job.state.isTerminal = false := by
    rw [hqueued]
    rfl
  refine ⟨job, hjob, (cancel_refunds_lock_iff hjob hlive).mpr fun a ha => ?_⟩
  rw [hconsumer, haccount] at ha
  cases ha
  rw [Db.RefundFits, hfirst, hlocked]
  exact ⟨.inr rfl, 5, rfl, rfl⟩

/-- Beside it, a job that was submitted over gRPC and has no escrow. -/
def halfFunded : List Operation := funded ++ [.grpcSubmitJob "b" sampleRequest]

/-- Cancelling the second job takes the consumer's balance and forgets what is locked for the
first. -/
theorem cancel_loses_balance :
    ∃ job, Reachable (afterAll halfFunded Db.init) ∧
      (afterAll halfFunded Db.init).jobs.get? "b" = some job ∧ job.state = .queued ∧
      ¬(afterAll halfFunded Db.init).RefundsLock
        ((Operation.cancelJob "b").after (afterAll halfFunded Db.init)) "b" job := by
  have hstate : ((afterAll halfFunded Db.init).jobs.get? "b").map
      (fun job => (job.consumerId, job.state)) = some ("alice", .queued) := by decide +kernel
  have hbefore : (afterAll halfFunded Db.init).creditAccounts.get? "alice" =
      some ⟨some 5, some 5, some 0, some 0⟩ := by decide +kernel
  have hafter : ((Operation.cancelJob "b").after (afterAll halfFunded Db.init)).creditAccounts.get?
      "alice" = some ⟨none, some 0, some 0, some 0⟩ := by decide +kernel
  obtain ⟨job, hjob, hrow⟩ := Option.map_eq_some_iff.mp hstate
  obtain ⟨hconsumer, hqueued⟩ := Prod.mk.inj hrow
  refine ⟨job, .afterAll ⟨trivial, trivial, trivial, trivial⟩, hjob, hqueued, fun hrefunds => ?_⟩
  have haccount := hrefunds.gives.account
  rw [hconsumer, hbefore, hafter] at haccount
  cases haccount

/-! ### Failing -/

/-- The row of the provider that reports a failure. -/
def Provider.blamed (slash : Bool) (row : Provider) : Provider :=
  if slash then row.free.trust false else row.free

/-- What the failure of a job is for, when its provider reports it. -/
structure Db.SettlesFailure (s t : Db) (jobId : JobId) (job : Job) : Prop where
  gives : s.GivesBack t job.consumerId (s.lockedFor jobId)
  settled : t.Unlocked jobId
  providers : ∀ p, job.providerId ≠ some p → t.providers.get? p = s.providers.get? p

/-- A failure is local, and the report of another provider changes nothing. -/
structure Db.FailsLocally (s t : Db) (jobId : JobId) (job : Job) (providerId : ProviderId) : Prop where
  own : job.providerId = some providerId → s.SettlesFailure t jobId job
  foreign : job.providerId ≠ some providerId → t = s

/-- What it takes: the consumer has nothing in escrow, and then, for a report of the job's provider,
no row is locked for the job; for another one, the job has failed at this very moment, the provider
that reports it is free and not blamed, or is not known, and no chain is told. -/
structure Db.FailureFits (s : Db) (config : Config) (jobId : JobId) (job : Job)
    (body : FailJobBody) : Prop where
  account : ∀ a ∈ s.creditAccounts.get? job.consumerId, a.escrowedNmc = some 0
  own : job.providerId = some body.providerId → s.Unlocked jobId
  foreign : job.providerId ≠ some body.providerId →
    job.close s.now .failed = job ∧
      (∀ row ∈ s.providers.get? body.providerId, row.blamed body.slash = row) ∧
        config.oracleEnabled = false

section Failing

variable (config : Config) (body : FailJobBody)

theorem failJob_after (hjob : s.jobs.get? jobId = some job) :
    (Operation.failJob config jobId body).after s =
      { s with
        jobs := s.jobs.update jobId (.close s.now .failed)
        creditAccounts := s.creditAccounts.update job.consumerId .releaseAll
        providers := s.providers.update body.providerId (.blamed body.slash)
        oracleRequests :=
          s.oracleRequests ++ if config.oracleEnabled then [.cancelEscrow jobId] else [] } := by
  let closed := s.jobs.update jobId (.close s.now .failed)
  have hclosed : closed.get? jobId = some (job.close s.now .failed) := by
    rw [Table.get?_update_self, hjob, Option.map_some]
  have haccounts : (AccountsWrite.apply { s with jobs := closed } (.releaseAll jobId)).2 =
      s.creditAccounts.update job.consumerId .releaseAll := by
    simp only [AccountsWrite.apply, hclosed]
    exact updateAccount_all _ _ _
  rw [← haccounts, Operation.after, Operation.program, run_forget, failJob,
    run_query_of_some _ rfl, run_query_of_some _ rfl, run_query_of_some _ rfl]
  cases hslash : body.slash with
  | false =>
      cases config.oracleEnabled with
      | false => exact congrArg _ (List.append_nil _).symm
      | true => rfl
  | true =>
      have hblamed : (s.providers.update body.providerId .free).update body.providerId (.trust false) =
          s.providers.update body.providerId (.blamed true) := Table.update_update _ _ _ _
      rw [← hblamed]
      cases config.oracleEnabled with
      | false => exact congrArg _ (List.append_nil _).symm
      | true => rfl

/-- All that was in escrow is what is given back exactly when that is zero. -/
theorem releaseAll_eq_settle_zero {a : CreditAccount} :
    a.releaseAll = a.settle 0 0 ↔ a.escrowedNmc = some 0 := by
  have hzero : a.settle 0 0 = a := by
    obtain ⟨available, escrowed, earned, spent⟩ := a
    cases available <;> cases escrowed <;> simp [CreditAccount.settle]
  rw [hzero, CreditAccount.releaseAll_eq_self_iff]

theorem settlesFailure_iff (hjob : s.jobs.get? jobId = some job)
    (hown : job.providerId = some body.providerId) :
    s.SettlesFailure ((Operation.failJob config jobId body).after s) jobId job ↔
      (∀ a ∈ s.creditAccounts.get? job.consumerId, a.escrowedNmc = some 0) ∧ s.Unlocked jobId := by
  have hafter := failJob_after config body hjob
  have hescrows : ((Operation.failJob config jobId body).after s).escrows = s.escrows := by
    rw [hafter]
  have haccounts : ((Operation.failJob config jobId body).after s).creditAccounts =
      s.creditAccounts.update job.consumerId .releaseAll := by rw [hafter]
  have hunlocked : ((Operation.failJob config jobId body).after s).Unlocked jobId ↔
      s.Unlocked jobId := by rw [Db.Unlocked, Db.Unlocked, hescrows]
  have hgives : s.GivesBack _ job.consumerId (s.lockedFor jobId) ↔ _ :=
    givesBack_update_iff haccounts
  constructor
  · intro hsettles
    have hzero := lockedFor_eq_zero (hunlocked.mp hsettles.settled)
    refine ⟨fun a ha => ?_, hunlocked.mp hsettles.settled⟩
    have hrow := hgives.mp hsettles.gives a ha
    rw [hzero] at hrow
    exact releaseAll_eq_settle_zero.mp hrow
  · rintro ⟨haccount, hnone⟩
    refine ⟨hgives.mpr fun a ha => ?_, hunlocked.mpr hnone, fun p hp => ?_⟩
    · rw [lockedFor_eq_zero hnone]
      exact releaseAll_eq_settle_zero.mpr (haccount a ha)
    · rw [hafter]
      exact Table.get?_update_of_ne _ _ fun hsame => hp (hsame ▸ hown)

theorem failJob_eq_self_iff (hjob : s.jobs.get? jobId = some job) :
    (Operation.failJob config jobId body).after s = s ↔
      (∀ a ∈ s.creditAccounts.get? job.consumerId, a.escrowedNmc = some 0) ∧
        job.close s.now .failed = job ∧
          (∀ row ∈ s.providers.get? body.providerId, row.blamed body.slash = row) ∧
            config.oracleEnabled = false := by
  have haccounts : s.creditAccounts.update job.consumerId .releaseAll = s.creditAccounts ↔
      ∀ a ∈ s.creditAccounts.get? job.consumerId, a.escrowedNmc = some 0 :=
    Table.update_eq_self_iff.trans
      (forall₂_congr fun a _ => CreditAccount.releaseAll_eq_self_iff)
  have hjobs : s.jobs.update jobId (.close s.now .failed) = s.jobs ↔
      job.close s.now .failed = job := by
    rw [Table.update_eq_self_iff, hjob]
    simp only [Option.mem_def, Option.some.injEq, forall_eq']
  have hproviders : s.providers.update body.providerId (.blamed body.slash) = s.providers ↔
      ∀ row ∈ s.providers.get? body.providerId, row.blamed body.slash = row :=
    Table.update_eq_self_iff
  have horacle : (s.oracleRequests ++ if config.oracleEnabled then [.cancelEscrow jobId] else []) =
      s.oracleRequests ↔ config.oracleEnabled = false := by
    cases config.oracleEnabled <;> simp
  rw [failJob_after config body hjob, ← haccounts, ← hjobs, ← hproviders, ← horacle]
  constructor
  · intro hsame
    exact ⟨congrArg Db.creditAccounts hsame, congrArg Db.jobs hsame, congrArg Db.providers hsame,
      congrArg Db.oracleRequests hsame⟩
  · rintro ⟨haccounts, hjobs, hproviders, horacle⟩
    rw [haccounts, hjobs, hproviders, horacle]

/-- A failure is local exactly when there is nothing to give back and nothing to change. -/
theorem fails_locally_iff (hjob : s.jobs.get? jobId = some job) :
    s.FailsLocally ((Operation.failJob config jobId body).after s) jobId job body.providerId ↔
      s.FailureFits config jobId job body := by
  by_cases hown : job.providerId = some body.providerId
  · have hsettles := settlesFailure_iff config body hjob hown
    constructor
    · intro hlocal
      obtain ⟨haccount, hunlocked⟩ := hsettles.mp (hlocal.own hown)
      exact ⟨haccount, fun _ => hunlocked, fun hforeign => absurd hown hforeign⟩
    · intro hfits
      exact ⟨fun _ => hsettles.mpr ⟨hfits.account, hfits.own hown⟩,
        fun hforeign => absurd hown hforeign⟩
  · have hself := failJob_eq_self_iff config body hjob
    constructor
    · intro hlocal
      obtain ⟨haccount, hsame⟩ := hself.mp (hlocal.foreign hown)
      exact ⟨haccount, fun h => absurd h hown, fun _ => hsame⟩
    · intro hfits
      exact ⟨fun h => absurd h hown, fun _ => hself.mpr ⟨hfits.account, hfits.foreign hown⟩⟩

end Failing

/-- A job without an escrow, assigned to a provider. -/
def unpaid : List Operation :=
  [.grpcSubmitJob "a" sampleRequest, registration "p", agentHeartbeat "p" "available",
    .runAuctionCycle]

theorem fails_locally_unpaid :
    ∃ job, (afterAll unpaid Db.init).jobs.get? "a" = some job ∧ job.providerId = some "p" ∧
      (afterAll unpaid Db.init).FailsLocally
        ((Operation.failJob ⟨none, true⟩ "a" ⟨"p", "crash", true⟩).after (afterAll unpaid Db.init))
        "a" job "p" := by
  have hassigned : ((afterAll unpaid Db.init).jobs.get? "a").map
      (fun job => (job.consumerId, job.providerId)) = some ("alice", some "p") := by decide +kernel
  have haccount : (afterAll unpaid Db.init).creditAccounts.get? "alice" = none := by decide +kernel
  have hunlocked : (afterAll unpaid Db.init).Unlocked "a" :=
    firstLocked_eq_none_iff.mp (by decide +kernel)
  obtain ⟨job, hjob, hrow⟩ := Option.map_eq_some_iff.mp hassigned
  obtain ⟨hconsumer, hprovider⟩ := Prod.mk.inj hrow
  refine ⟨job, hjob, hprovider, (fails_locally_iff ⟨none, true⟩ ⟨"p", "crash", true⟩ hjob).mpr
    ⟨fun a ha => ?_, fun _ => hunlocked, fun hforeign => absurd hprovider hforeign⟩⟩
  rw [hconsumer, haccount] at ha
  cases ha

/-- The consumer of an assigned job has another one in the queue; there is a second provider. -/
def twoJobs : List Operation := assigned ++ [submitHour "b" "alice" 3, registration "q"]

/-- The report of the provider gives back what is locked for the other job as well, and anybody else
can make the same report. -/
theorem failure_spreads :
    ∃ job, Reachable (afterAll twoJobs Db.init) ∧
      (afterAll twoJobs Db.init).jobs.get? "a" = some job ∧ job.providerId = some "p" ∧
      ¬(afterAll twoJobs Db.init).FailsLocally
        ((Operation.failJob ⟨none, true⟩ "a" ⟨"p", "crash", false⟩).after
          (afterAll twoJobs Db.init)) "a" job "p" ∧
      ¬(afterAll twoJobs Db.init).FailsLocally
        ((Operation.failJob ⟨none, true⟩ "a" ⟨"q", "", false⟩).after (afterAll twoJobs Db.init))
        "a" job "q" := by
  have hassigned : ((afterAll twoJobs Db.init).jobs.get? "a").map
      (fun job => (job.consumerId, job.providerId, job.state)) =
        some ("alice", some "p", .assigned) := by decide +kernel
  have hbefore : (afterAll twoJobs Db.init).creditAccounts.get? "alice" =
      some ⟨some 2, some 8, some 0, some 0⟩ := by decide +kernel
  have hlocked : (afterAll twoJobs Db.init).lockedFor "a" = 5 := by decide +kernel
  have hown : ((Operation.failJob ⟨none, true⟩ "a" ⟨"p", "crash", false⟩).after
      (afterAll twoJobs Db.init)).creditAccounts.get? "alice" =
        some ⟨some 10, some 0, some 0, some 0⟩ := by decide +kernel
  have hforeign : (((Operation.failJob ⟨none, true⟩ "a" ⟨"q", "", false⟩).after
      (afterAll twoJobs Db.init)).jobs.get? "a").map Job.state = some .failed := by decide +kernel
  obtain ⟨job, hjob, hrow⟩ := Option.map_eq_some_iff.mp hassigned
  obtain ⟨hconsumer, hrow⟩ := Prod.mk.inj hrow
  obtain ⟨hprovider, hstate⟩ := Prod.mk.inj hrow
  have hreach : Reachable (afterAll twoJobs Db.init) :=
    Run.afterAll ⟨trivial, trivial, trivial, trivial, trivial, trivial, trivial, trivial⟩
  refine ⟨job, hreach, hjob, hprovider, fun hlocal => ?_, fun hlocal => ?_⟩
  · have haccount := (hlocal.own hprovider).gives.account
    rw [hconsumer, hbefore, hown, hlocked, Option.map_some, Option.some.injEq] at haccount
    have hescrowed : (0 : ℚ) = 8 - 5 :=
      Option.some.inj (congrArg CreditAccount.escrowedNmc haccount)
    norm_num at hescrowed
  · have hsame := hlocal.foreign fun hq => by
      rw [hprovider] at hq
      exact absurd (Option.some.inj hq) (by decide)
    rw [hsame, hjob, Option.map_some, hstate] at hforeign
    cases hforeign

end NeuralMesh
