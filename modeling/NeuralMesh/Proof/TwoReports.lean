import NeuralMesh.Proof.CompletionTwice

/-!
# The two ways to report the end of a job

The REST handlers settle the job they are told about: `complete_job` pays the provider and charges
the consumer, `fail_job` returns what the consumer has in escrow, and both free the provider. The
gRPC handler writes the row of the job, and milestone rewards.
-/

namespace NeuralMesh

open Coordinator Program

/-- The columns of a provider that say what it is working on, and how much it has done. -/
def Provider.assignment (p : Provider) : ProviderState × Option JobId × Option Int :=
  (p.state, p.activeJobId, p.jobsCompleted)

namespace Coordinator.Report

variable (r : Report)

/-- The report without a provider to reward. -/
def unrewarded : Grpc.JobComplete := { r.message with providerId := "" }

/-- The report over gRPC. -/
def overGrpc (oracleEnabled : Bool) (txIds : Int → TxId) : Operation :=
  .reportCompletion oracleEnabled txIds r.message

/-- The same report over REST: a job that did not exit with 0 has failed. -/
def overRest (config : Config) (txId : TxId) (reason : String) (slash : Bool) : Operation :=
  if r.exitCode = 0 then .completeJob config txId r.jobId r.body
  else .failJob config r.jobId ⟨r.providerId, reason, slash⟩

end Coordinator.Report

/-- Both reports leave the same balances, rewards aside, the same escrows, and the same assignment
of every provider. -/
structure ReportedAlike (r : Report) (s : Db) (config : Config) (txIds : Int → TxId) (txId : TxId)
    (reason : String) (slash : Bool) : Prop where
  creditAccounts : ∀ c,
    ((Operation.reportCompletion config.oracleEnabled txIds r.unrewarded).after s).creditAccounts.get?
        c =
      ((r.overRest config txId reason slash).after s).creditAccounts.get? c
  escrows : ∀ id, ((r.overGrpc config.oracleEnabled txIds).after s).escrows.get? id =
    ((r.overRest config txId reason slash).after s).escrows.get? id
  providers : ∀ p,
    (((r.overGrpc config.oracleEnabled txIds).after s).providers.get? p).map Provider.assignment =
      (((r.overRest config txId reason slash).after s).providers.get? p).map Provider.assignment

/-- The consumer has nothing in escrow, and the provider does not look busy. -/
structure NothingToSettle (s : Db) (job : Job) (providerId : ProviderId) : Prop where
  account : ∀ a ∈ s.creditAccounts.get? job.consumerId, a.escrowedNmc = some 0
  provider : ∀ row ∈ s.providers.get? providerId, row.state = .available ∧ row.activeJobId = none

variable {r : Report} {s : Db} {job : Job} {config : Config} {txIds : Int → TxId} {txId : TxId}
  {reason : String} {slash : Bool}

/-! ### Statements that leave assignments alone -/

/-- The statement counts hours or adjusts a score, or does not write `providers`. -/
def Action.KeepsAssignments : Action → Prop
  | .providers (.addHours _ _) | .providers (.trust _ _) => True
  | q => q.touches .providers = false

theorem Action.KeepsAssignments.exec {q : Action} {s t : Db} {a : q.Answer}
    (hkeeps : q.KeepsAssignments) (hexec : q.exec s = some (a, t)) (p : ProviderId) :
    (t.providers.get? p).map Provider.assignment =
      (s.providers.get? p).map Provider.assignment := by
  -- one row is rewritten in other columns
  have hupdate : ∀ (k : ProviderId) (f : Provider → Provider),
      (∀ row, (f row).assignment = row.assignment) →
      ((s.providers.update k f).get? p).map Provider.assignment =
        (s.providers.get? p).map Provider.assignment := by
    intro k f hf
    rw [Table.get?_update]
    split
    · rename_i heq
      rw [heq, Option.map_map]
      exact congrArg (fun g => (s.providers.get? k).map g) (funext hf)
    · rfl
  by_cases htouches : q.touches .providers = false
  · have hsame : t.providers = s.providers := Action.exec_sameIn .providers htouches hexec
    rw [hsame]
  · cases q with
    | providers w =>
        cases w with
        | addHours providerId hours =>
            cases hexec
            exact hupdate providerId _ fun _ => rfl
        | trust providerId success =>
            cases hexec
            exact hupdate providerId _ fun _ => rfl
        | _ => exact absurd hkeeps htouches
    | _ => exact absurd rfl htouches

theorem run_assignments {α : Type} (program : Program Action.Answer α) (s : Db)
    (huses : program.Uses Action.KeepsAssignments) (p : ProviderId) :
    ((program.run Action.exec s).2.providers.get? p).map Provider.assignment =
      (s.providers.get? p).map Provider.assignment :=
  Program.run_rel Action.exec
    (R := fun s t => (t.providers.get? p).map Provider.assignment =
      (s.providers.get? p).map Provider.assignment)
    (fun _ => rfl) (fun _ _ _ h₁ h₂ => h₂.trans h₁)
    (fun _ _ _ _ hkeeps hexec => hkeeps.exec hexec p) program s huses

/-! ### The report over gRPC -/

/-- The report is stored and rewarded; what else happens is a request to the oracle. -/
theorem reportCompletion_after (oracleEnabled : Bool) (txIds : Int → TxId) (jc : Grpc.JobComplete)
    (s : Db) :
    ∃ oracleRequests, (Operation.reportCompletion oracleEnabled txIds jc).after s =
      { if jc.jobState = .complete ∧ jc.providerId ≠ "" then
          Grpc.rewarded txIds jc (Grpc.reported jc s)
        else Grpc.reported jc s with oracleRequests } := by
  rw [Operation.after, Operation.program, run_forget, Grpc.reportCompletion_run]
  split
  · exact ⟨_, rfl⟩
  · exact ⟨_, rfl⟩

/-- A report that rewards nobody leaves every balance. -/
theorem unrewarded_creditAccounts (oracleEnabled : Bool) :
    ((Operation.reportCompletion oracleEnabled txIds r.unrewarded).after s).creditAccounts =
      s.creditAccounts := by
  obtain ⟨oracleRequests, hafter⟩ := reportCompletion_after oracleEnabled txIds r.unrewarded s
  rw [hafter, if_neg fun h => h.2 rfl]
  rfl

/-- The rewards are all that the report of a provider changes the balances by. -/
theorem overGrpc_creditAccounts (oracleEnabled : Bool) :
    ((r.overGrpc oracleEnabled txIds).after s).creditAccounts =
      if r.exitCode = 0 ∧ r.providerId ≠ "" then
        (Grpc.rewarded txIds r.message (Grpc.reported r.message s)).creditAccounts
      else s.creditAccounts := by
  obtain ⟨oracleRequests, hafter⟩ := reportCompletion_after oracleEnabled txIds r.message s
  rw [Report.overGrpc, hafter]
  simp only [Report.complete_iff]
  split
  · rename_i hrewards
    have hrewards' : r.exitCode = 0 ∧ r.providerId ≠ "" := hrewards
    rw [if_pos hrewards']
  · rename_i hnone
    have hnone' : ¬ (r.exitCode = 0 ∧ r.providerId ≠ "") := hnone
    rw [if_neg hnone']
    rfl

theorem overGrpc_escrows (oracleEnabled : Bool) :
    ((r.overGrpc oracleEnabled txIds).after s).escrows = s.escrows := by
  obtain ⟨oracleRequests, hafter⟩ := reportCompletion_after oracleEnabled txIds r.message s
  rw [Report.overGrpc, hafter]
  dsimp only
  split
  · exact Grpc.rewarded_sameIn .escrows txIds r.message (Grpc.reported r.message s) (by decide)
  · rfl

/-- Rewards count hours, which are no part of an assignment. -/
theorem overGrpc_providers (oracleEnabled : Bool) (p : ProviderId) :
    (((r.overGrpc oracleEnabled txIds).after s).providers.get? p).map Provider.assignment =
      (s.providers.get? p).map Provider.assignment := by
  have huses : (Grpc.reportCompletion oracleEnabled txIds r.message).Uses
      Action.KeepsAssignments := by
    refine ⟨rfl, fun _ => ?_, trivial⟩
    split
    · exact Grpc.rewardHours_uses (fun _ => trivial) rfl (fun _ _ _ => rfl) (fun _ _ => rfl)
        (Grpc.settle_uses rfl fun _ => rfl)
    · exact Grpc.settle_uses rfl fun _ => rfl
  rw [Operation.after, Report.overGrpc, Operation.program, run_forget]
  exact run_assignments _ s huses p

/-! ### The report over REST -/

variable (config txId reason slash) in
/-- A completed job is counted. -/
theorem overRest_counts (hzero : r.exitCode = 0) (hjob : s.jobs.get? r.jobId = some job)
    (hprovider : job.providerId = some r.providerId) {row : Provider}
    (hrow : s.providers.get? r.providerId = some row) :
    ∃ row', ((r.overRest config txId reason slash).after s).providers.get? r.providerId =
      some row' ∧ row'.jobsCompleted = row.jobsCompleted.map (· + 1) := by
  have hfound : (s.jobs.get? r.jobId).filter (fun j => j.providerId = some r.body.providerId) =
      some job := by
    have howner : job.providerId = some r.body.providerId := hprovider
    rw [hjob, Option.filter_some, if_pos (decide_eq_true howner)]
  rw [Report.overRest, if_pos hzero, Operation.after, Operation.program, run_forget]
  exact Report.completeJob_counts config txId hfound hrow

variable (config txId reason slash) in
/-- What `fail_job` leaves of the three tables. -/
theorem overRest_failed (hfailed : r.exitCode ≠ 0) (hjob : s.jobs.get? r.jobId = some job) :
    let t := (r.overRest config txId reason slash).after s
    t.creditAccounts = s.creditAccounts.update job.consumerId .releaseAll ∧
      t.escrows = s.escrows ∧
      ∀ p, (t.providers.get? p).map Provider.assignment =
        ((s.providers.update r.providerId .free).get? p).map Provider.assignment := by
  intro t
  have hafter : t = (run Action.exec (failJob config r.jobId ⟨r.providerId, reason, slash⟩) s).2 := by
    simp only [t, Report.overRest, if_neg hfailed, Operation.after, Operation.program, run_forget]
  have hbooks := failJob_books s config r.jobId ⟨r.providerId, reason, slash⟩
  rw [← hafter, hjob] at hbooks
  refine ⟨congrArg Books.accounts hbooks, congrArg Books.escrows hbooks, fun p => ?_⟩
  rw [hafter, failJob, run_query_of_some _ rfl, run_query_of_some _ rfl, run_query_of_some _ rfl]
  refine (run_assignments _ _ ?_ p).trans rfl
  split <;> split <;> simp [Uses, Action.KeepsAssignments, Action.touches]

/-! ### When the two agree -/

/-- Everything that was in escrow comes back, unless nothing was. -/
theorem CreditAccount.releaseAll_eq_self_iff {a : CreditAccount} :
    a.releaseAll = a ↔ a.escrowedNmc = some 0 := by
  obtain ⟨available, escrowed, earned, spent⟩ := a
  simp only [CreditAccount.releaseAll, CreditAccount.mk.injEq, and_true]
  refine ⟨fun h => h.2.symm, ?_⟩
  rintro rfl
  refine ⟨?_, rfl⟩
  cases available with
  | none => rfl
  | some x => simp

theorem Provider.assignment_free_iff {row : Provider} :
    row.free.assignment = row.assignment ↔ row.state = .available ∧ row.activeJobId = none := by
  simp only [Provider.assignment, Provider.free, Prod.mk.injEq, and_true]
  exact ⟨fun h => ⟨h.1.symm, h.2.symm⟩, fun h => ⟨h.1.symm, h.2.symm⟩⟩

/-- The reports of a failed job agree when there is nothing to settle. -/
theorem failed_alike_iff (hfailed : r.exitCode ≠ 0) (hjob : s.jobs.get? r.jobId = some job) :
    ReportedAlike r s config txIds txId reason slash ↔ NothingToSettle s job r.providerId := by
  obtain ⟨haccounts, hescrows, hproviders⟩ :=
    overRest_failed config txId reason slash hfailed hjob
  constructor
  · intro halike
    refine ⟨fun a ha => ?_, fun row hrow => ?_⟩
    · have hsame := halike.creditAccounts job.consumerId
      rw [unrewarded_creditAccounts, haccounts, Table.get?_update_self, Option.mem_def.mp ha,
        Option.map_some, Option.some.injEq] at hsame
      exact CreditAccount.releaseAll_eq_self_iff.mp hsame.symm
    · have hsame := halike.providers r.providerId
      rw [overGrpc_providers, hproviders, Table.get?_update_self, Option.mem_def.mp hrow,
        Option.map_some, Option.map_some, Option.map_some, Option.some.injEq] at hsame
      exact Provider.assignment_free_iff.mp hsame.symm
  · intro hnothing
    refine ⟨fun c => ?_, fun id => ?_, fun p => ?_⟩
    · rw [unrewarded_creditAccounts, haccounts, Table.get?_update]
      split
      · rename_i hconsumer
        rw [hconsumer]
        cases hrow : s.creditAccounts.get? job.consumerId with
        | none => rfl
        | some a =>
            rw [Option.map_some,
              CreditAccount.releaseAll_eq_self_iff.mpr (hnothing.account a hrow)]
      · rfl
    · rw [overGrpc_escrows, hescrows]
    · rw [overGrpc_providers, hproviders, Table.get?_update]
      split
      · rename_i hprovider
        rw [hprovider]
        cases hrow : s.providers.get? r.providerId with
        | none => rfl
        | some row =>
            rw [Option.map_some, Option.map_some, Option.map_some,
              Provider.assignment_free_iff.mpr (hnothing.provider row hrow)]
      · rfl

/-- A completed job is counted over REST only. -/
theorem completed_not_alike (hs : s.Consistent) (hzero : r.exitCode = 0)
    (hjob : s.jobs.get? r.jobId = some job) (hprovider : job.providerId = some r.providerId) :
    ¬ ReportedAlike r s config txIds txId reason slash := by
  intro halike
  obtain ⟨row, hrow⟩ := Option.isSome_iff_exists.mp (hs.provider _ _ hjob _ hprovider)
  obtain ⟨n, hn⟩ := Option.isSome_iff_exists.mp (hs.counters _ _ hrow).1
  obtain ⟨row', hrow', hcounts⟩ := overRest_counts config txId reason slash hzero hjob
    hprovider hrow
  have hsame := halike.providers r.providerId
  rw [overGrpc_providers, hrow, hrow', Option.map_some, Option.map_some, Option.some.injEq] at hsame
  have hcompleted : row.jobsCompleted = row'.jobsCompleted := congrArg (fun x => x.2.2) hsame
  rw [hcounts, hn, Option.map_some, Option.some.injEq] at hcompleted
  omega

/-- The two reports settle the job of a provider alike exactly when it failed and there is nothing
to settle. -/
theorem reported_alike_iff (hreach : Reachable s) (hjob : s.jobs.get? r.jobId = some job)
    (hprovider : job.providerId = some r.providerId) (config : Config) (txIds : Int → TxId)
    (txId : TxId) (reason : String) (slash : Bool) :
    ReportedAlike r s config txIds txId reason slash ↔
      r.exitCode ≠ 0 ∧ NothingToSettle s job r.providerId := by
  by_cases hzero : r.exitCode = 0
  · exact iff_of_false (completed_not_alike hreach.consistent hzero hjob hprovider)
      fun h => h.1 hzero
  · rw [failed_alike_iff hzero hjob]
    exact (and_iff_right hzero).symm

/-! ### Samples -/

/-- The assigned job of alice is fetched by the agent. -/
def runningFunded : List Operation := assigned ++ [.getAssignedJob "p"]

/-- A job that was submitted over gRPC, whose provider says that it is available again. -/
def runningUnfunded : List Operation :=
  [.grpcSubmitJob "a"
      { consumerId := "alice"
        requirements := some ⟨0, 1, 3600, 5⟩
        bundleHash := ""
        bundleUploadUrl := ""
        consumerSshPubkey := ""
        consumerWgPubkey := "" },
    registration "p", agentHeartbeat "p" "available", .runAuctionCycle, .getAssignedJob "p",
    agentHeartbeat "p" "available"]

/-- The job has failed. -/
def failedReport : Report := ⟨"a", "p", 1, "hash", 3600, hourReport.runtime_lt⟩

def jobStatus (s : Db) : Option (JobState × Option ProviderId) :=
  (s.jobs.get? "a").map fun job => (job.state, job.providerId)

theorem reported_alike_unfunded :
    ∃ s job, Reachable s ∧ s.jobs.get? failedReport.jobId = some job ∧ job.state = .running ∧
      job.providerId = some failedReport.providerId ∧
      (ReportedAlike failedReport s ⟨none, false⟩ (fun _ => "m") "tx" "exit code 1" false ↔
        failedReport.exitCode ≠ 0 ∧ NothingToSettle s job failedReport.providerId) ∧
      NothingToSettle s job failedReport.providerId := by
  have hreach : Reachable (afterAll runningUnfunded Db.init) :=
    Run.afterAll ⟨trivial, trivial, trivial, trivial, trivial, trivial, trivial⟩
  have hstatus : jobStatus (afterAll runningUnfunded Db.init) = some (.running, some "p") := by
    decide +kernel
  have hrow : ((afterAll runningUnfunded Db.init).providers.get? "p").map
      (fun row => (row.state, row.activeJobId)) = some (.available, none) := by decide +kernel
  have haccounts : (afterAll runningUnfunded Db.init).creditAccounts.rows = [] := by
    decide +kernel
  generalize afterAll runningUnfunded Db.init = s at *
  obtain ⟨job, hjob, hboth⟩ := Option.map_eq_some_iff.mp hstatus
  obtain ⟨hstate, hprovider⟩ := Prod.mk.inj hboth
  refine ⟨s, job, hreach, hjob, hstate, hprovider,
    reported_alike_iff hreach hjob hprovider _ _ _ _ _, ?_, fun row hget => ?_⟩
  · intro a ha
    have hmem := Table.mem_rows_iff.mpr (Option.mem_def.mp ha)
    rw [haccounts] at hmem
    cases hmem
  · have hget : s.providers.get? "p" = some row := hget
    rw [hget, Option.map_some, Option.some.injEq] at hrow
    exact Prod.mk.inj hrow

/-- Over gRPC the provider of a completed job is neither paid nor free, and over REST it is; after a
failure the consumer's escrow comes back over REST only. -/
theorem reports_disagree :
    ∃ s job, Reachable s ∧ s.jobs.get? "a" = some job ∧ job.state = .running ∧
      job.providerId = some "p" ∧
      ¬ ReportedAlike hourReport s ⟨none, false⟩ (fun _ => "m") "tx" "" false ∧
      ¬ ReportedAlike failedReport s ⟨none, false⟩ (fun _ => "m") "tx" "exit code 1" false := by
  have hreach : Reachable (afterAll runningFunded Db.init) :=
    Run.afterAll ⟨trivial, trivial, trivial, trivial, trivial, trivial, trivial⟩
  have hstatus : jobStatus (afterAll runningFunded Db.init) = some (.running, some "p") := by
    decide +kernel
  have hleased : ((afterAll runningFunded Db.init).providers.get? "p").map Provider.state =
      some .leased := by decide +kernel
  generalize afterAll runningFunded Db.init = s at *
  obtain ⟨job, hjob, hboth⟩ := Option.map_eq_some_iff.mp hstatus
  obtain ⟨hstate, hprovider⟩ := Prod.mk.inj hboth
  refine ⟨s, job, hreach, hjob, hstate, hprovider,
    completed_not_alike hreach.consistent rfl hjob hprovider, fun halike => ?_⟩
  obtain ⟨row, hrow, hbusy⟩ := Option.map_eq_some_iff.mp hleased
  have hfree := ((failed_alike_iff (by decide) hjob).mp halike).provider row hrow
  rw [hbusy] at hfree
  cases hfree.1

end NeuralMesh
