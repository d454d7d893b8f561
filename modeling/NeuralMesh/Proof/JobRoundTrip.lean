import NeuralMesh.Agent.PollForJob
import NeuralMesh.Base.Amid
import NeuralMesh.Coordinator.Grpc
import NeuralMesh.Store.Frame
import NeuralMesh.Store.Rows
import NeuralMesh.System.Operation

/-!
# From a submission to the agent

A submitted job is stored in `jobs`, sent to the provider's agent as JSON and read there. The agent
expects the runtime as a text and the coordinator sends its number, so every job arrives as a shell
job; the environment variables are never stored, and the checkpoint of a restored job is never sent.
The rest arrives as it was submitted, but for a negative number.
-/

namespace NeuralMesh

open Coordinator Program

/-- A submission over REST or gRPC, with the environment variables of the request, which neither
handler reads. -/
inductive Submission where
  | rest (ids : SubmitIds) (body : SubmitJobBody) (envVars : Option Json)
  | grpc (jobId : JobId) (req : Grpc.JobSubmitRequest) (envVars : List (String × String))

/-- The runtimes of `job.proto`. -/
def Agent.Runtime.ofProto : Int → Option Agent.Runtime
  | 1 => some .mlx
  | 2 => some .torchMps
  | 3 => some .onnxCoreml
  | 4 => some .llamaCpp
  | 5 => some .shell
  | _ => none

namespace Submission

/-- Answers whether the job is accepted. -/
def program : Submission → Program Action.Answer Bool
  | rest ids body _ => (submitJob ids body).map fun reply => decide (reply.status = .ok)
  | grpc jobId req _ => (Grpc.submitJob jobId req).map Except.isOk

/-! ### What is submitted -/

def jobId : Submission → JobId
  | rest ids _ _ => ids.jobId
  | grpc jobId _ _ => jobId

/-- The runtime that is asked for, if there is such a one. -/
def runtime : Submission → Option Agent.Runtime
  | rest _ body _ => Agent.Runtime.fromStr body.runtime
  | grpc _ req _ => req.requirements.bind fun reqs => Agent.Runtime.ofProto reqs.runtime

def minRamGb : Submission → Option Int
  | rest _ body _ => some body.minRamGb
  | grpc _ req _ => req.requirements.map fun reqs => reqs.minRamGb.toNat

def maxDurationSecs : Submission → Option Int
  | rest _ body _ => some body.maxDurationSecs
  | grpc _ req _ => req.requirements.map fun reqs => reqs.maxDurationS.toNat

def maxPricePerHour : Submission → Option ℚ
  | rest _ body _ => some body.maxPricePerHour
  | grpc _ req _ => req.requirements.map fun reqs => reqs.maxPricePerH

/-- No bundle is an empty text to the agent. -/
def bundleHash : Submission → String
  | rest _ body _ => body.bundleHash.getD ""
  | grpc _ req _ => req.bundleHash

def bundleUrl : Submission → String
  | rest _ body _ => body.bundleUrl.getD ""
  | grpc _ req _ => req.bundleUploadUrl

/-- A request over gRPC has no script name. -/
def scriptName : Submission → Option String
  | rest _ body _ => body.scriptName
  | grpc _ _ _ => none

def envVar (name : String) : Submission → Option Json
  | rest _ _ envVars => envVars.bind fun value => value.get? name
  | grpc _ _ envVars => (envVars.lookup name).map Json.str

end Submission

/-- The agent has the job as it was submitted, with the checkpoint of its row. -/
structure Submission.Unchanged (sub : Submission) (row : Job) (spec : Agent.JobSpec) : Prop where
  runtime : sub.runtime = some spec.runtime
  minRamGb : sub.minRamGb = some (spec.minRamGb.toNat : Int)
  maxDurationSecs : sub.maxDurationSecs = some (spec.maxDurationSecs.toNat : Int)
  maxPricePerHour : sub.maxPricePerHour = some spec.maxPricePerHour
  bundleHash : sub.bundleHash = spec.bundleHash
  bundleUrl : sub.bundleUrl = spec.bundleUrl
  scriptName : sub.scriptName = spec.scriptName
  envVars : ∀ name, sub.envVar name = (spec.envVars.lookup name).map Json.str
  checkpointUrl : ∀ url ∈ row.checkpointUrl, spec.checkpointUrl = some url
  restoreAttempts : ∀ n ∈ row.restoreAttempts, (spec.restoreAttempts.toNat : Int) = n

/-- A shell job without environment variables, with no number below zero, that has no checkpoint and
was never restored. -/
structure Submission.Plain (sub : Submission) (row : Job) : Prop where
  runtime : sub.runtime = some .shell
  minRamGb : ∀ n ∈ sub.minRamGb, 0 ≤ n ∧ n < 2 ^ 32
  maxDurationSecs : ∀ n ∈ sub.maxDurationSecs, 0 ≤ n ∧ n < 2 ^ 32
  envVars : ∀ name, sub.envVar name = none
  checkpointUrl : row.checkpointUrl = none
  restoreAttempts : ∀ n ∈ row.restoreAttempts, n = 0

/-- One statement of whatever else runs, or a moment in which none does. -/
def Others (s t : Db) : Prop :=
  (∃ (q : Action) (a : q.Answer), q.exec s = some (a, t)) ∨ s.Shuffled t

/-! ### The row -/

namespace Submission

/-- The columns the submission writes. -/
def spec : Submission → Option NeuralMesh.JobSpec
  | rest _ body _ => some body.spec
  | grpc _ req _ => req.requirements.map fun reqs =>
      { runtime := some reqs.runtime
        minRamGb := some (asI32 reqs.minRamGb.toNat)
        maxDurationS := some (asI32 reqs.maxDurationS.toNat)
        maxPricePerHour := some reqs.maxPricePerH
        bundleHash := some req.bundleHash
        bundleUrl := some req.bundleUploadUrl
        scriptName := none
        consumerSshPubkey := some req.consumerSshPubkey
        consumerWgPubkey := some req.consumerWgPubkey
        preferredRegion := none }

/-- The job is stored as it was submitted. -/
def Stored (sub : Submission) (s : Db) : Prop :=
  ∃ job, s.jobs.get? sub.jobId = some job ∧ sub.spec = some job.spec

variable {sub : Submission} {s t u : Db}

theorem Stored.exec (hstored : sub.Stored s) {q : Action} {a : q.Answer}
    (hexec : q.exec s = some (a, t)) : sub.Stored t := by
  obtain ⟨job, hjob, hspec⟩ := hstored
  cases q with
  | jobs w =>
      rw [Action.exec, Option.map_eq_some_iff] at hexec
      obtain ⟨jobs, happly, heq⟩ := hexec
      cases heq
      exact ⟨_, JobsWrite.get?_apply happly hjob, by rw [JobsWrite.edit_spec, hspec]⟩
  | _ =>
      have hsame : t.jobs = s.jobs := Action.exec_sameIn .jobs rfl hexec
      exact ⟨job, hsame ▸ hjob, hspec⟩

theorem Stored.others (hstored : sub.Stored s) (hothers : Others s t) : sub.Stored t := by
  rcases hothers with ⟨q, a, hexec⟩ | hshuffled
  · exact hstored.exec hexec
  · obtain ⟨job, hjob, hspec⟩ := hstored
    exact ⟨job, hshuffled.jobs.get?_eq _ ▸ hjob, hspec⟩

theorem stored_of_insert {consumerId : AccountId} {columns : NeuralMesh.JobSpec} {a : Unit}
    (hspec : sub.spec = some columns)
    (hexec : Action.exec (.jobs (.insert sub.jobId consumerId columns)) s = some (a, t)) :
    sub.Stored t := by
  rw [Action.exec, Option.map_eq_some_iff] at hexec
  obtain ⟨jobs, happly, heq⟩ := hexec
  cases heq
  refine ⟨.submitted s.now consumerId columns, ?_, hspec⟩
  show jobs.get? _ = _
  rw [Table.get?_of_insert? happly, if_pos rfl]

/-- Neither handler accepts a job it has not stored. -/
theorem program_establishes (sub : Submission) :
    sub.program.Establishes Action.exec sub.Stored (· = true) := by
  cases sub with
  | rest ids body envVars =>
      rw [program, establishes_map]
      have herror : ¬ decide (Reply.dbError.status = .ok) = true := by decide
      refine ⟨fun s credit _ _ => .inr ?_, herror⟩
      dsimp only
      split
      · simp [Establishes, insufficientBalance]
      · exact ⟨fun s a t hexec => .inl (stored_of_insert rfl hexec), herror⟩
  | grpc jobId req envVars =>
      rw [program, establishes_map, Grpc.submitJob]
      split
      · simp [Establishes, Except.isOk, Except.toBool]
      · rename_i reqs hreqs
        refine ⟨fun s a t hexec => .inl (stored_of_insert ?_ hexec), ?_⟩
        · rw [spec, hreqs]
          rfl
        · simp [Establishes, Except.isOk, Except.toBool]

/-- Once accepted the job stays stored as it was submitted. -/
theorem stored_of_accepted (haccepted : sub.program.Amid Action.exec Others s true t)
    (hothers : Relation.ReflTransGen Others t u) : sub.Stored u := by
  have hstored := haccepted.established (fun q s a t hstored hexec => hstored.exec hexec)
    (fun s t hothers hstored => hstored.others hothers) sub.program_establishes rfl
  induction hothers with
  | refl => exact hstored
  | tail _ hlast ih => exact ih.others hlast

end Submission

/-! ### The poll -/

/-- The agent reads the row its poll finds, whether the job is then set to running or not. -/
theorem pollForJob_assigned (parseStr : String → Option Agent.Uuid) {u : Db}
    {providerId : ProviderId} {jobId : JobId} {job : Job}
    (hassigned : Read.eval u (.assignedJob providerId) = some (jobId, job)) :
    Agent.pollForJobReply parseStr ((getAssignedJob providerId).run Action.exec u).1 =
      some (Agent.ofRow parseStr jobId job) := by
  have hread : Action.exec (.read (.assignedJob providerId)) u = some (some (jobId, job), u) := by
    rw [Action.exec, hassigned]
  have hreply : ((getAssignedJob providerId).run Action.exec u).1 =
      .json [("job", assignedJobJson jobId job)] := by
    rw [getAssignedJob, run_query_of_some _ hread, run_query]
    split <;> rfl
  rw [hreply, Agent.pollForJobReply_assigned]

/-! ### Field by field -/

namespace Submission

variable {sub : Submission} {job : Job}

/-- The column a number is stored in: as it is over REST, as an `i32` over gRPC. -/
def NumberColumn (sent column : Option Int) : Prop :=
  (∃ n, sent = some n ∧ column = some n) ∨
    ∃ n : UInt32, sent = some (n.toNat : Int) ∧ column = some (asI32 n.toNat)

theorem NumberColumn.reaches_iff {sent column : Option Int} (hcolumn : NumberColumn sent column)
    (default : Int) :
    sent = some ((Agent.readNumber default column).toNat : Int) ↔
      ∀ n ∈ sent, 0 ≤ n ∧ n < 2 ^ 32 := by
  rcases hcolumn with ⟨n, rfl, rfl⟩ | ⟨n, rfl, rfl⟩
  · rw [Option.some.injEq, Agent.readNumber_eq_iff]
    simp
  · rw [Agent.readNumber_asI32]
    have hn := n.toNat_lt
    simp
    omega

theorem numberColumns (hspec : sub.spec = some job.spec) :
    NumberColumn sub.minRamGb job.spec.minRamGb ∧
      NumberColumn sub.maxDurationSecs job.spec.maxDurationS := by
  cases sub with
  | rest ids body envVars =>
      rw [← Option.some.inj hspec]
      exact ⟨.inl ⟨body.minRamGb, rfl, rfl⟩, .inl ⟨body.maxDurationSecs, rfl, rfl⟩⟩
  | grpc jobId req envVars =>
      obtain ⟨reqs, hreqs, hcolumns⟩ := Option.map_eq_some_iff.mp hspec
      rw [← hcolumns, minRamGb, maxDurationSecs, hreqs]
      exact ⟨.inr ⟨reqs.minRamGb, rfl, rfl⟩, .inr ⟨reqs.maxDurationS, rfl, rfl⟩⟩

/-- The price, the bundle and the script name always reach the agent. -/
theorem others_reach (hspec : sub.spec = some job.spec)
    (parseStr : String → Option Agent.Uuid) :
    let spec := Agent.ofRow parseStr sub.jobId job
    sub.maxPricePerHour = some spec.maxPricePerHour ∧ sub.bundleHash = spec.bundleHash ∧
      sub.bundleUrl = spec.bundleUrl ∧ sub.scriptName = spec.scriptName := by
  intro spec
  simp only [spec, Agent.ofRow]
  cases sub with
  | rest ids body envVars =>
      rw [← Option.some.inj hspec]
      exact ⟨rfl, rfl, rfl, rfl⟩
  | grpc jobId req envVars =>
      obtain ⟨reqs, hreqs, hcolumns⟩ := Option.map_eq_some_iff.mp hspec
      rw [← hcolumns, maxPricePerHour, hreqs]
      exact ⟨rfl, rfl, rfl, rfl⟩

/-- The agent's reading of the row is the submission just where that is plain. -/
theorem unchanged_ofRow_iff (hspec : sub.spec = some job.spec)
    (parseStr : String → Option Agent.Uuid) :
    sub.Unchanged job (Agent.ofRow parseStr sub.jobId job) ↔ sub.Plain job := by
  have hminRamGb := (numberColumns hspec).1.reaches_iff 8
  have hmaxDurationSecs := (numberColumns hspec).2.reaches_iff 3600
  constructor
  · intro hsame
    exact {
      runtime := hsame.runtime
      minRamGb := hminRamGb.mp hsame.minRamGb
      maxDurationSecs := hmaxDurationSecs.mp hsame.maxDurationSecs
      envVars := hsame.envVars
      checkpointUrl := by
        cases hurl : job.checkpointUrl with
        | none => rfl
        | some url => cases hsame.checkpointUrl url hurl
      restoreAttempts := fun n hn => (hsame.restoreAttempts n hn).symm }
  · intro hplain
    obtain ⟨hprice, hhash, hurl, hscript⟩ := others_reach hspec parseStr
    exact {
      runtime := hplain.runtime
      minRamGb := hminRamGb.mpr hplain.minRamGb
      maxDurationSecs := hmaxDurationSecs.mpr hplain.maxDurationSecs
      maxPricePerHour := hprice
      bundleHash := hhash
      bundleUrl := hurl
      scriptName := hscript
      envVars := hplain.envVars
      checkpointUrl := by
        rw [hplain.checkpointUrl]
        intro url hmem
        cases hmem
      restoreAttempts := fun n hn => (hplain.restoreAttempts n hn).symm }

end Submission

/-- Whatever else runs from its acceptance on to the poll, a job reaches the agent as it was
submitted just where the submission is plain and its row has no checkpoint. -/
theorem job_reaches_agent_iff {sub : Submission} {s t u : Db}
    (haccepted : sub.program.Amid Action.exec Others s true t)
    (hothers : Relation.ReflTransGen Others t u) {providerId : ProviderId} {job : Job}
    (hassigned : Read.eval u (.assignedJob providerId) = some (sub.jobId, job))
    (parseStr : String → Option Agent.Uuid) :
    (∃ spec ∈ Agent.pollForJobReply parseStr ((getAssignedJob providerId).run Action.exec u).1,
      sub.Unchanged job spec) ↔ sub.Plain job := by
  obtain ⟨row, hrow, hspec⟩ := Submission.stored_of_accepted haccepted hothers
  obtain rfl : job = row := Option.some.inj ((Read.assignedJob_found hassigned).1.symm.trans hrow)
  rw [pollForJob_assigned parseStr hassigned, ← Submission.unchanged_ofRow_iff hspec parseStr]
  simp

/-! ### Two submissions -/

/-- What runs in one piece is what else may run. -/
theorem others_afterAll (ops : List Operation) (s : Db) :
    Relation.ReflTransGen Others s (afterAll ops s) := by
  have hrun : ∀ (op : Operation) s, Relation.ReflTransGen Others s (op.after s) := by
    intro op s
    exact run_rel Action.exec (fun _ => .refl) (fun _ _ _ h₁ h₂ => h₁.trans h₂)
      (fun q s a t _ hexec => .single (.inl ⟨q, a, hexec⟩)) op.program s (uses_true _)
  induction ops generalizing s with
  | nil => exact .refl
  | cons op ops ih => exact (hrun op s).trans (ih (op.after s))

/-- A one-hour job of a runtime. -/
def hourOf (runtime : String) : Submission :=
  .rest ⟨"a", "escrow-a", "lock-a"⟩
    { accountId := "alice"
      runtime
      minRamGb := 1
      maxDurationSecs := 3600
      maxPricePerHour := 5
      bundleHash := none
      bundleUrl := none
      scriptName := none
      preferredRegion := none }
    none

/-- Its submission by an account that has 10. -/
def hourSubmitted (runtime : String) : Bool × Db :=
  (hourOf runtime).program.run Action.exec (afterAll [topUp "alice" 10] Db.init)

/-- The database once a provider has the job. -/
def hourAssigned (runtime : String) : Db :=
  afterAll [registration "p", agentHeartbeat "p" "available", .runAuctionCycle]
    (hourSubmitted runtime).2

theorem hour_found (runtime : String) (haccepted : (hourSubmitted runtime).1 = true)
    (hassigned : ((Read.eval (hourAssigned runtime) (.assignedJob "p")).map fun row =>
      (row.1, row.2.checkpointUrl, row.2.restoreAttempts)) = some ("a", none, some 0)) :
    ∃ job, (hourOf runtime).program.Amid Action.exec Others (afterAll [topUp "alice" 10] Db.init)
        true (hourSubmitted runtime).2 ∧
      Relation.ReflTransGen Others (hourSubmitted runtime).2 (hourAssigned runtime) ∧
      Read.eval (hourAssigned runtime) (.assignedJob "p") = some ((hourOf runtime).jobId, job) ∧
      job.checkpointUrl = none ∧ job.restoreAttempts = some 0 := by
  obtain ⟨⟨jobId, job⟩, hfound, hrow⟩ := Option.map_eq_some_iff.mp hassigned
  simp only [Prod.mk.injEq] at hrow
  obtain ⟨rfl, hurl, hattempts⟩ := hrow
  have hamid := Amid.of_run Action.exec Others (hourOf runtime).program
    (afterAll [topUp "alice" 10] Db.init)
  rw [← hourSubmitted, haccepted] at hamid
  exact ⟨job, hamid, others_afterAll _ _, hfound, hurl, hattempts⟩

/-- A shell job. -/
theorem shell_job_reaches_agent :
    ∃ job, Read.eval (hourAssigned "shell") (.assignedJob "p") = some ("a", job) ∧
      ∃ spec ∈ Agent.pollForJobReply (fun _ => none)
        ((getAssignedJob "p").run Action.exec (hourAssigned "shell")).1,
        (hourOf "shell").Unchanged job spec := by
  obtain ⟨job, haccepted, hothers, hfound, hurl, hattempts⟩ :=
    hour_found "shell" (by decide +kernel) (by decide +kernel)
  refine ⟨job, hfound, (job_reaches_agent_iff haccepted hothers hfound _).mpr ?_⟩
  exact {
    runtime := rfl
    minRamGb := by
      rintro n ⟨⟩
      decide
    maxDurationSecs := by
      rintro n ⟨⟩
      decide
    envVars := fun _ => rfl
    checkpointUrl := hurl
    restoreAttempts := by
      rw [hattempts]
      rintro n ⟨⟩
      rfl }

/-- A job for MLX reaches the agent as a shell job. -/
theorem job_reaches_agent_fails :
    ¬ ∀ (sub : Submission) (s t u : Db), sub.program.Amid Action.exec Others s true t →
      Relation.ReflTransGen Others t u → ∀ (providerId : ProviderId) (job : Job),
      Read.eval u (.assignedJob providerId) = some (sub.jobId, job) →
      ∀ parseStr : String → Option Agent.Uuid,
        ∃ spec ∈ Agent.pollForJobReply parseStr
          ((getAssignedJob providerId).run Action.exec u).1, sub.Unchanged job spec := by
  intro hall
  obtain ⟨job, haccepted, hothers, hfound, -⟩ :=
    hour_found "mlx" (by decide +kernel) (by decide +kernel)
  obtain ⟨spec, hspec, hsame⟩ := hall _ _ _ _ haccepted hothers "p" job hfound fun _ => none
  rw [pollForJob_assigned _ hfound] at hspec
  cases hspec
  cases hsame.runtime

end NeuralMesh
