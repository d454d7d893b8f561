import NeuralMesh.Coordinator.Books
import NeuralMesh.Coordinator.Grpc
import NeuralMesh.Store.Frame

/-!
# The two completion reports

An agent reports a completed job by REST (`complete_job`) or by gRPC (`report_completion`). One
lemma for each says what a whole run of it leaves.
-/

namespace NeuralMesh.Coordinator

open Program

/-- A completion report; either path can carry its runtime. -/
structure Report where
  jobId : JobId
  providerId : ProviderId
  exitCode : Int
  outputHash : String
  runtime : Nat
  runtime_lt : runtime < 2 ^ 63

namespace Report

variable (r : Report)

def body : CompleteJobBody := ⟨r.providerId, r.exitCode, r.outputHash, r.runtime⟩

def message : Grpc.JobComplete :=
  ⟨r.jobId, r.providerId, r.exitCode, r.outputHash, UInt64.ofNat r.runtime⟩

theorem toNat_runtime : (UInt64.ofNat r.runtime).toNat = r.runtime := by
  have hlt := r.runtime_lt
  rw [UInt64.toNat_ofNat']
  omega

/-- The cast to `i64` keeps the runtime. -/
theorem asI64_runtime : asI64 (UInt64.ofNat r.runtime).toNat = r.runtime := by
  have hlt := r.runtime_lt
  rw [r.toNat_runtime, asI64, BitVec.toInt_ofNat', Int.bmod_def]
  omega

end Report

namespace Grpc

/-! ### The statements of a completion -/

section

variable {P : Action → Prop} {Response : Type} {txIds : Int → TxId} {jc : JobComplete}

theorem issueMilestones_uses {providerId : ProviderId} {next : Rpc Response}
    (hdeposit : ∀ amount reference txId, P (.ledgerDeposit providerId amount reference txId))
    (hrecord : ∀ hours reward, P (.insertMilestone providerId hours reward))
    (hnext : next.Uses P) (milestones : List Int) :
    (issueMilestones txIds providerId next milestones).Uses P := by
  induction milestones with
  | nil => exact hnext
  | cons milestoneNum rest ih =>
      exact ⟨hdeposit _ _ _, fun _ => ⟨hrecord _ _, fun _ => ih, ih⟩, hrecord _ _, fun _ => ih, ih⟩

theorem rewardHours_uses {next : Rpc Response}
    (hhours : ∀ hours, P (.providers (.addHours jc.providerId hours)))
    (hcount : P (.read (.milestoneCount jc.providerId)))
    (hdeposit : ∀ amount reference txId, P (.ledgerDeposit jc.providerId amount reference txId))
    (hrecord : ∀ hours reward, P (.insertMilestone jc.providerId hours reward))
    (hnext : next.Uses P) : (rewardHours txIds jc next).Uses P := by
  refine ⟨hhours _, fun updated => ?_, hnext⟩
  cases updated with
  | none => exact hnext
  | some row =>
      exact ⟨hcount, fun _ => issueMilestones_uses hdeposit hrecord hnext _,
        issueMilestones_uses hdeposit hrecord hnext _⟩

/-- What follows the rewards reads the job and may ask the oracle. -/
theorem settle_uses {oracleEnabled : Bool} {reply : ℚ → Except Status Response}
    (hread : P (.read (.job jc.jobId)))
    (horacle : ∀ credits, P (.oracle (.releaseEscrow jc.jobId credits))) :
    (calculateCredits jc.jobId fun credits =>
      if jc.jobState = .complete ∧ oracleEnabled then
        attempt (.oracle (.releaseEscrow jc.jobId credits)) (done (reply credits))
      else done (reply credits)).Uses P := by
  have hreply : ∀ credits, (if jc.jobState = .complete ∧ oracleEnabled then
      attempt (.oracle (.releaseEscrow jc.jobId credits)) (done (reply credits))
      else done (reply credits) : Rpc Response).Uses P := by
    intro credits
    split
    · exact ⟨horacle credits, fun _ => trivial, trivial⟩
    · trivial
  refine ⟨hread, fun row => ?_, hreply 0⟩
  cases row with
  | none => exact hreply 0
  | some row => exact hreply _

end

/-! ### Rewards -/

/-- The rewards run before what follows them. -/
theorem issueMilestones_bind {Response : Type} (txIds : Int → TxId) (providerId : ProviderId)
    (next : Rpc Response) (milestones : List Int) :
    issueMilestones txIds providerId next milestones =
      (issueMilestones txIds providerId (done (.ok ())) milestones).bind fun _ => next := by
  induction milestones with
  | nil => rfl
  | cons milestoneNum rest ih => simp only [issueMilestones, Program.bind, ih]

theorem rewardHours_bind {Response : Type} (txIds : Int → TxId) (jc : JobComplete)
    (next : Rpc Response) :
    rewardHours txIds jc next = (rewardHours txIds jc (done (.ok ()))).bind fun _ => next := by
  simp only [rewardHours, Program.bind]
  congr 1
  funext updated
  cases updated with
  | none => rfl
  | some row => simp only [Program.bind, ← issueMilestones_bind]

/-- The database after the rewards of a completed job. -/
def rewarded (txIds : Int → TxId) (jc : JobComplete) (s : Db) : Db :=
  ((rewardHours txIds jc (done (.ok ()) : Rpc Unit)).run Action.exec s).2

theorem rewarded_sameIn (part : Part) (txIds : Int → TxId) (jc : JobComplete) (s : Db)
    (hpart : part ∈ [Part.escrows, .jobs, .oracle]) : s.SameIn part (rewarded txIds jc s) := by
  have hspares : ∀ q : Action, (q.touches .escrows || q.touches .jobs || q.touches .oracle) = false →
      q.touches part = false := by
    intro q hq
    simp only [List.mem_cons, List.not_mem_nil, or_false] at hpart
    simp only [Bool.or_eq_false_iff] at hq
    rcases hpart with rfl | rfl | rfl
    · exact hq.1.1
    · exact hq.1.2
    · exact hq.2
  exact run_sameIn part s (rewardHours_uses (fun _ => hspares _ rfl) (hspares _ rfl)
    (fun _ _ _ => hspares _ rfl) (fun _ _ => hspares _ rfl) trivial)

/-- What `calculate_credits` makes of a row. -/
def creditsOf : Option Job → ℚ
  | some r =>
      let hours : ℚ := (r.actualRuntimeS.getD 0 : ℚ) / 3600
      let gross := r.pricePerHour.getD 0 * hours
      gross - gross * (8 / 100)
  | none => 0

theorem calculateCredits_run {α : Type} (jobId : JobId) (next : ℚ → Program Action.Answer α)
    (s : Db) :
    (calculateCredits jobId next).run Action.exec s =
      (next (creditsOf (s.jobs.get? jobId))).run Action.exec s := by
  have hread : Action.exec (.read (.job jobId)) s = some (s.jobs.get? jobId, s) := rfl
  rw [calculateCredits, run_query_of_some _ hread]
  cases s.jobs.get? jobId with
  | none => rfl
  | some row => rfl

/-- The report is stored, a completed job is rewarded, and the oracle is asked for what
`calculate_credits` finds. -/
theorem reportCompletion_run (oracleEnabled : Bool) (txIds : Int → TxId) (jc : JobComplete)
    (s : Db) :
    let reported : Db := { s with
      jobs := s.jobs.update jc.jobId
        (.report s.now jc.jobState jc.outputHash (asI64 jc.actualRuntimeS.toNat)) }
    let settled :=
      if jc.jobState = .complete ∧ jc.providerId ≠ "" then rewarded txIds jc reported else reported
    ((reportCompletion oracleEnabled txIds jc).run Action.exec s).2 =
      if jc.jobState = .complete ∧ oracleEnabled then
        { settled with
          oracleRequests := settled.oracleRequests ++
            [.releaseEscrow jc.jobId (creditsOf (settled.jobs.get? jc.jobId))] }
      else settled := by
  intro reported settled
  have hreport : Action.exec (.jobs (.report jc.jobId jc.jobState jc.outputHash
      (asI64 jc.actualRuntimeS.toNat))) s = some ((), reported) := rfl
  rw [reportCompletion, run_query_of_some _ hreport]
  simp only [settled]
  split
  · rw [rewardHours_bind, run_bind, calculateCredits_run]
    split <;> rfl
  · rw [calculateCredits_run]
    split <;> rfl

end Grpc

/-- The transaction a completion records. -/
def earned (jobId : JobId) (body : CompleteJobBody) (amount : ℚ) : NewTransaction :=
  { accountId := body.providerId
    txType := .earn
    amountNmc := amount
    withBalance := false
    reference := some jobId
    description := "Job completion credit" }

/-- The database once the provider is paid and free. -/
def paidFor (s : Db) (jobId : JobId) (body : CompleteJobBody) (job : Job) : Db :=
  let gross := grossNmc job body
  let net := gross * (1 - platformFee)
  { s with
    jobs := s.jobs.update jobId (.report s.now .complete body.outputHash body.actualRuntimeS)
    creditAccounts := (s.creditAccounts.upsert body.providerId (.opened net net) (.earn net)).update
      job.consumerId (.charge gross)
    providers := s.providers.update body.providerId fun p =>
      { p.free with jobsCompleted := p.jobsCompleted.map (· + 1) } }

/-- A report of another provider changes nothing. -/
theorem completeJob_run_none {config : Config} {txId : TxId} {jobId : JobId}
    {body : CompleteJobBody} {s : Db}
    (hnone : (s.jobs.get? jobId).filter (fun j => j.providerId = some body.providerId) = none) :
    ((completeJob config txId jobId body).run Action.exec s).2 = s := by
  have hread : Action.exec (.read (.jobOfProvider jobId body.providerId)) s = some (none, s) := by
    simp only [Action.exec, Read.eval, hnone]
  rw [completeJob, run_query_of_some _ hread]
  rfl

theorem completeJob_run_some (config : Config) (txId : TxId) {jobId : JobId}
    {body : CompleteJobBody} {s : Db} {job : Job}
    (hjob : (s.jobs.get? jobId).filter (fun j => j.providerId = some body.providerId) =
      some job) :
    let paid := paidFor s jobId body job
    let gross := grossNmc job body
    ((completeJob config txId jobId body).run Action.exec s).2 =
      match (earned jobId body (gross * (1 - platformFee))).insert paid txId with
      | none => paid
      | some transactions =>
          { paid with
            transactions
            providers := paid.providers.update body.providerId (.trust true)
            oracleRequests := paid.oracleRequests ++
              if config.oracleEnabled then [.releaseEscrow jobId gross] else [] } := by
  intro paid gross
  have hread : Action.exec (.read (.jobOfProvider jobId body.providerId)) s =
      some (some job, s) := by
    simp only [Action.exec, Read.eval, hjob]
  let reported : Db := { s with jobs := paid.jobs }
  let credited : Db := { reported with
    creditAccounts := s.creditAccounts.upsert body.providerId
      (.opened (gross * (1 - platformFee)) (gross * (1 - platformFee)))
      (.earn (gross * (1 - platformFee))) }
  let charged : Db := { credited with creditAccounts := paid.creditAccounts }
  have hreport : Action.exec (.jobs (.report jobId .complete body.outputHash
      body.actualRuntimeS)) s = some ((), reported) := rfl
  have hearn : Action.exec (.creditAccounts (.earn body.providerId
      (gross * (1 - platformFee)))) reported = some (1, credited) := rfl
  have hcharge : ∃ rows, Action.exec (.creditAccounts (.charge job.consumerId gross)) credited =
      some (rows, charged) := by
    refine ⟨(AccountsWrite.apply credited (.charge job.consumerId gross)).1, ?_⟩
    simp only [Action.exec, AccountsWrite.apply, updateAccount_all]
    rfl
  obtain ⟨rows, hcharge⟩ := hcharge
  have hfree : Action.exec (.providers (.freeCompleted body.providerId)) charged =
      some (none, paid) := rfl
  rw [completeJob, run_query_of_some _ hread]
  dsimp only
  rw [run_query_of_some _ hreport, run_query_of_some _ hearn, run_query_of_some _ hcharge,
    run_query_of_some _ hfree, run_query]
  simp only [Action.exec, earned]
  cases NewTransaction.insert paid txId _ with
  | none => rfl
  | some transactions =>
      simp only [Option.map_some]
      rw [run_query_of_some _ rfl]
      split
      · rfl
      · simp only [List.append_nil]
        rfl

/-! ### Sample report -/

/-- One hour of a job. -/
def hourReport : Report := ⟨"a", "p", 0, "hash", 3600, by decide⟩

end NeuralMesh.Coordinator
