import NeuralMesh.Coordinator.Reports
import NeuralMesh.Proof.SdkLogs
import NeuralMesh.System.History

/-!
# What the SDK reports of a finished job

`wait_for_job` polls the coordinator and hands out the outcome of the job. The reply of the
coordinator has members that the dataclass of the SDK does not take, so that the first poll raises.
-/

namespace NeuralMesh

open Coordinator

/-- The replies of the coordinator to `GET /jobs/:id`, on one database after the other. -/
def pollReplies (timeText : Time → String) (jobId : JobId) (polls : List Db) :
    List (Option Reply) :=
  polls.map fun s => some ((Coordinator.getJob timeText jobId).run Action.exec s).1

/-- The wait is over, with the outcome of the job. -/
def ReportsOutcome (job : Job) (wait : Sdk.Wait) : Prop :=
  ∃ result : Sdk.JobResult, wait = .returned result ∧
    result.state = .str job.state.text ∧
    result.actualCostNmc = .ofOption .num (actualCostNmc job) ∧
    (result.succeeded ↔ job.state = .complete)

/-- The first poll decides. -/
theorem waitForJob_cons (timeText : Time → String) (jobId : JobId) (s : Db) (polls : List Db) :
    Sdk.waitForJob jobId (pollReplies timeText jobId (s :: polls)) = .raised := by
  rw [pollReplies, List.map_cons, Sdk.waitForJob, getJob_raises]

/-- However often it polls and whatever the coordinator holds, it reports no outcome. -/
theorem wait_never_reports (timeText : Time → String) (jobId : JobId) (polls : List Db) (job : Job) :
    ¬ ReportsOutcome job (Sdk.waitForJob jobId (pollReplies timeText jobId polls)) := by
  rintro ⟨result, hreturned, -⟩
  cases polls with
  | nil =>
      rw [pollReplies, List.map_nil, Sdk.waitForJob] at hreturned
      cases hreturned
  | cons s polls =>
      rw [waitForJob_cons] at hreturned
      cases hreturned

/-- A job of an hour that its provider completed. -/
def finishedHour : List Operation :=
  assigned ++ [.completeJob ⟨none, true⟩ "earn" "a" hourReport.body]

/-- The first poll finds the job complete and raises. -/
theorem wait_raises :
    ∃ job, Reachable (afterAll finishedHour Db.init) ∧
      (afterAll finishedHour Db.init).jobs.get? "a" = some job ∧ job.state = .complete ∧
      Sdk.waitForJob "a" (pollReplies (fun _ => "") "a" [afterAll finishedHour Db.init]) = .raised := by
  have hstate : ((afterAll finishedHour Db.init).jobs.get? "a").map Job.state = some .complete := by
    decide +kernel
  obtain ⟨job, hjob, hcomplete⟩ := Option.map_eq_some_iff.mp hstate
  exact ⟨job, .afterAll (meetsAll_true _ _), hjob, hcomplete, waitForJob_cons _ _ _ _⟩

end NeuralMesh
