import NeuralMesh.Base.OneAtATime
import NeuralMesh.Coordinator.Books
import NeuralMesh.Store.Rows
import NeuralMesh.System.History
import NeuralMesh.System.Statements

/-!
# How often a job is tried again

The watcher puts a job back into the queue only while fewer than three restores were counted, and
the auction counts a restore when it assigns a job that has a checkpoint. A job is put back only
with a checkpoint and keeps it, so every assignment but the first one is counted.
-/

namespace NeuralMesh

open Coordinator Program

variable {jobId : JobId} {s t : Db}

/-- The job is put back into the queue. -/
def Action.requeues (jobId : JobId) : Action → Bool
  | .jobs (.requeue k) => k = jobId
  | _ => false

/-- The job is assigned. -/
def Action.assignsJob (jobId : JobId) : Action → Bool
  | .jobs (.assign k _ _ _) => k = jobId
  | _ => false

/-- The write finds the job as its handler has read it. -/
def JobsWrite.Guarded (s : Db) : JobsWrite → Prop
  | assign jobId _ _ restore =>
      ∃ job ∈ s.jobs.get? jobId, job.state = .queued ∧ restore = job.checkpointUrl.isSome
  | requeue jobId => ∃ job ∈ s.jobs.get? jobId, job.state.inProgress ∧ restorable job
  | start jobId => ∃ job ∈ s.jobs.get? jobId, job.providerId.isSome
  | close _ state | report _ state _ _ => state.isTerminal
  | acknowledge _ _ _ => False
  | _ => True

def Action.Guarded (s : Db) : Action → Prop
  | .jobs w => w.Guarded s
  | _ => True

/-! ### One job -/

/-- What the row of a job says of how often the job was put back and assigned. -/
structure Job.Counts (job : Job) (requeues assigns : Nat) (n : Int) : Prop where
  attempts : job.restoreAttempts = some n
  nonneg : 0 ≤ n
  counted : (assigns : Int) ≤ n + 1
  held : job.providerId.isSome → assigns = requeues + 1 ∧ n ≤ 3
  free : job.providerId = none → assigns = requeues ∧ n ≤ 2
  queued : job.state = .queued → job.providerId = none
  inProgress : job.state.inProgress → job.providerId.isSome
  checkpoint : job.checkpointUrl = none → requeues = 0

namespace Job.Counts

variable {job : Job} {requeues assigns : Nat} {n : Int}

theorem submitted (now : Time) (consumerId : AccountId) (spec : JobSpec) :
    (Job.submitted now consumerId spec).Counts 0 0 0 where
  attempts := rfl
  nonneg := le_refl _
  counted := by decide
  held := fun hheld => Bool.noConfusion hheld
  free := fun _ => ⟨rfl, by decide⟩
  queued := fun _ => rfl
  inProgress := fun hprogress => Bool.noConfusion hprogress
  checkpoint := fun _ => rfl

theorem attempts_le (hcounts : job.Counts requeues assigns n) : n ≤ 3 := by
  cases hprovider : job.providerId with
  | none => exact (hcounts.free hprovider).2.trans (by decide)
  | some p => exact (hcounts.held (by rw [hprovider]; rfl)).2

theorem requeues_le (hcounts : job.Counts requeues assigns n) : requeues ≤ 3 := by
  have hcounted := hcounts.counted
  cases hprovider : job.providerId with
  | none =>
      obtain ⟨heq, hn⟩ := hcounts.free hprovider
      omega
  | some p =>
      obtain ⟨heq, hn⟩ := hcounts.held (by rw [hprovider]; rfl)
      omega

theorem assigns_le (hcounts : job.Counts requeues assigns n) : assigns ≤ 4 := by
  have hcounted := hcounts.counted
  have hn := hcounts.attempts_le
  omega

/-- A job whose row keeps the columns that count. -/
theorem same {job' : Job} (hcounts : job.Counts requeues assigns n)
    (hattempts : job'.restoreAttempts = job.restoreAttempts)
    (hprovider : job'.providerId = job.providerId)
    (hstate : job'.state = job.state ∨ job'.state.isTerminal ∨
      job'.state.inProgress ∧ job.providerId.isSome)
    (hcheckpoint : job'.checkpointUrl = none → job.checkpointUrl = none) :
    job'.Counts requeues assigns n where
  attempts := hattempts.trans hcounts.attempts
  nonneg := hcounts.nonneg
  counted := hcounts.counted
  held := by
    rw [hprovider]
    exact hcounts.held
  free := by
    rw [hprovider]
    exact hcounts.free
  queued := by
    intro hqueued
    rw [hprovider]
    rcases hstate with hsame | hterminal | ⟨hprogress, _⟩
    · exact hcounts.queued (hsame ▸ hqueued)
    · rw [hqueued] at hterminal
      cases hterminal
    · rw [hqueued] at hprogress
      cases hprogress
  inProgress := by
    intro hprogress
    rw [hprovider]
    rcases hstate with hsame | hterminal | ⟨_, hsome⟩
    · exact hcounts.inProgress (hsame ▸ hprogress)
    · cases hjob' : job'.state <;> rw [hjob'] at hprogress hterminal <;> cases hprogress <;>
        cases hterminal
    · exact hsome
  checkpoint := fun hnone => hcounts.checkpoint (hcheckpoint hnone)

/-- A queued job is assigned; with a checkpoint the restore is counted, and without one it is the
first assignment. -/
theorem assign (hcounts : job.Counts requeues assigns n) (hqueued : job.state = .queued)
    (now : Time) (providerId : ProviderId) (pricePerHour : ℚ) :
    ∃ n', (job.assign now providerId pricePerHour job.checkpointUrl.isSome).Counts
      requeues (assigns + 1) n' := by
  obtain ⟨heq, hn⟩ := hcounts.free (hcounts.queued hqueued)
  have hcounted := hcounts.counted
  have hnonneg := hcounts.nonneg
  refine ⟨n + if job.checkpointUrl.isSome then 1 else 0, ?_, ?_, ?_, fun _ => ?_,
    fun hnone => ?_, fun hqueued' => ?_, fun _ => rfl, hcounts.checkpoint⟩
  · rw [Job.assign]
    dsimp only
    rw [hcounts.attempts, Option.map_some]
  · split <;> omega
  · cases hcheckpoint : job.checkpointUrl with
    | none =>
        have hzero := hcounts.checkpoint hcheckpoint
        simp only [Option.isSome_none, Bool.false_eq_true, if_false]
        omega
    | some url =>
        simp only [Option.isSome_some, if_true]
        omega
  · refine ⟨by omega, ?_⟩
    split <;> omega
  · cases hnone
  · cases hqueued'

/-- A job in progress is put back while fewer than three restores were counted. -/
theorem requeue (hcounts : job.Counts requeues assigns n) (hprogress : job.state.inProgress)
    (hrestorable : restorable job) : job.requeue.Counts (requeues + 1) assigns n := by
  obtain ⟨heq, _⟩ := hcounts.held (hcounts.inProgress hprogress)
  obtain ⟨hcheckpoint, hless⟩ := of_decide_eq_true hrestorable
  rw [hcounts.attempts, Option.getD_some, maxRestoreAttempts] at hless
  refine ⟨hcounts.attempts, hcounts.nonneg, hcounts.counted, fun hheld => ?_, fun _ => ?_,
    fun _ => rfl, fun hprogress' => ?_, fun hnone => ?_⟩
  · cases hheld
  · exact ⟨heq, by omega⟩
  · cases hprogress'
  · rw [Job.requeue] at hnone
    rw [hnone] at hcheckpoint
    cases hcheckpoint

/-- Where no restore is left, the job that is lost is given up. -/
theorem not_restorable (hcounts : job.Counts requeues assigns n) (hprogress : job.state.inProgress)
    (hlast : requeues = 3 ∨ assigns = 4 ∨ n = 3) : restorable job = false := by
  obtain ⟨heq, hn⟩ := hcounts.held (hcounts.inProgress hprogress)
  have hcounted := hcounts.counted
  refine decide_eq_false fun hboth => ?_
  have hless := hboth.2
  rw [hcounts.attempts, Option.getD_some, maxRestoreAttempts] at hless
  omega

/-- A row that a statement may leave alone. -/
theorem branch {c : Prop} [Decidable c] {job' : Job} (hcounts : job.Counts requeues assigns n)
    (hwritten : c → job'.Counts requeues assigns n) :
    (if c then job' else job).Counts requeues assigns n := by
  split
  · rename_i hc
    exact hwritten hc
  · exact hcounts

/-- A guarded write of the row. -/
theorem edit (hcounts : job.Counts requeues assigns n) (hjob : s.jobs.get? jobId = some job)
    {w : JobsWrite} (hguarded : w.Guarded s) :
    ∃ n', (w.edit s.now jobId job).Counts
      (requeues + if (Action.jobs w).requeues jobId then 1 else 0)
      (assigns + if (Action.jobs w).assignsJob jobId then 1 else 0) n' := by
  cases w with
  | insert k consumerId spec => exact ⟨n, hcounts⟩
  | close k state =>
      exact ⟨n, hcounts.branch fun _ => hcounts.same rfl rfl (.inr (.inl hguarded)) id⟩
  | cancelOwned k consumerId =>
      exact ⟨n, hcounts.branch fun _ => hcounts.same rfl rfl (.inr (.inl rfl)) id⟩
  | start k =>
      refine ⟨n, hcounts.branch fun heq => ?_⟩
      obtain ⟨row, hrow, hsome⟩ := hguarded
      cases hrow.symm.trans (heq ▸ hjob)
      exact hcounts.same rfl rfl (.inr (.inr ⟨rfl, hsome⟩)) id
  | heartbeat k providerId =>
      refine ⟨n, hcounts.branch fun hof => ?_⟩
      exact hcounts.same rfl rfl (.inr (.inr ⟨rfl, by rw [hof.2]; rfl⟩)) id
  | checkpoint k url iteration =>
      exact ⟨n, hcounts.branch fun _ =>
        hcounts.same rfl rfl (.inl rfl) fun hnone => nomatch hnone⟩
  | acknowledge k wireguardEndpoint sshPort => exact hguarded.elim
  | report k state outputHash actualRuntimeS =>
      exact ⟨n, hcounts.branch fun _ => hcounts.same rfl rfl (.inr (.inl hguarded)) id⟩
  | assign k providerId pricePerHour restore =>
      obtain ⟨row, hrow, hqueued, rfl⟩ := hguarded
      by_cases heq : jobId = k
      · subst heq
        cases hrow.symm.trans hjob
        simpa [JobsWrite.edit, Action.requeues, Action.assignsJob] using
          hcounts.assign hqueued s.now providerId pricePerHour
      · refine ⟨n, ?_⟩
        simpa [JobsWrite.edit, heq, Action.requeues, Action.assignsJob, Ne.symm heq] using hcounts
  | requeue k =>
      obtain ⟨row, hrow, hprogress, hrestorable⟩ := hguarded
      refine ⟨n, ?_⟩
      by_cases heq : jobId = k
      · subst heq
        cases hrow.symm.trans hjob
        simpa [JobsWrite.edit, Action.requeues, Action.assignsJob] using
          hcounts.requeue hprogress hrestorable
      · simpa [JobsWrite.edit, heq, Action.requeues, Action.assignsJob, Ne.symm heq] using hcounts
  | giveUp k reason =>
      exact ⟨n, hcounts.branch fun _ => hcounts.same rfl rfl (.inr (.inl rfl)) id⟩

end Job.Counts

/-! ### The table -/

/-- The row of the job agrees with the statements that ran. -/
structure Counted (jobId : JobId) (ran : List Action) (s : Db) : Prop where
  absent : s.jobs.get? jobId = none →
    ran.countP (Action.requeues jobId) = 0 ∧ ran.countP (Action.assignsJob jobId) = 0
  row : ∀ job, s.jobs.get? jobId = some job → ∃ n, job.Counts
    (ran.countP (Action.requeues jobId)) (ran.countP (Action.assignsJob jobId)) n

namespace Counted

variable {ran : List Action}

theorem init (jobId : JobId) : Counted jobId [] Db.init :=
  ⟨fun _ => ⟨rfl, rfl⟩, fun job hjob => by cases hjob⟩

theorem shuffled (hcounted : Counted jobId ran s) (hshuffled : s.Shuffled t) :
    Counted jobId ran t := by
  constructor
  · rw [← hshuffled.jobs.get?_eq jobId]
    exact hcounted.absent
  · rw [← hshuffled.jobs.get?_eq jobId]
    exact hcounted.row

/-- A statement that does not write the job. -/
theorem same (hcounted : Counted jobId ran s) {q : Action}
    (hjob : t.jobs.get? jobId = s.jobs.get? jobId) (hrequeues : q.requeues jobId = false)
    (hassigns : q.assignsJob jobId = false) : Counted jobId (ran ++ [q]) t := by
  have hran : (ran ++ [q]).countP (Action.requeues jobId) = ran.countP (Action.requeues jobId) ∧
      (ran ++ [q]).countP (Action.assignsJob jobId) = ran.countP (Action.assignsJob jobId) := by
    simp [List.countP_append, hrequeues, hassigns]
  constructor
  · rw [hjob, hran.1, hran.2]
    exact hcounted.absent
  · rw [hjob, hran.1, hran.2]
    exact hcounted.row

/-- A guarded write of a job that is not there is its submission, if it is of this job. -/
theorem write_absent (hcounted : Counted jobId ran s) {w : JobsWrite} (hguarded : w.Guarded s)
    {jobs : Table JobId Job} (happly : w.apply s = some jobs) (hnone : s.jobs.get? jobId = none) :
    Counted jobId (ran ++ [.jobs w]) { s with jobs } := by
  have hspares : (Action.jobs w).requeues jobId = false ∧
      (Action.jobs w).assignsJob jobId = false := by
    cases w with
    | requeue k =>
        obtain ⟨row, hrow, -⟩ := hguarded
        refine ⟨decide_eq_false ?_, rfl⟩
        rintro rfl
        cases hnone.symm.trans hrow
    | assign k providerId pricePerHour restore =>
        obtain ⟨row, hrow, -⟩ := hguarded
        refine ⟨rfl, decide_eq_false ?_⟩
        rintro rfl
        cases hnone.symm.trans hrow
    | _ => exact ⟨rfl, rfl⟩
  obtain ⟨hrequeues, hassigns⟩ := hcounted.absent hnone
  have hran : (ran ++ [Action.jobs w]).countP (Action.requeues jobId) = 0 ∧
      (ran ++ [Action.jobs w]).countP (Action.assignsJob jobId) = 0 := by
    simp [List.countP_append, hspares.1, hspares.2, hrequeues, hassigns]
  refine ⟨fun _ => hran, fun job hjob => ?_⟩
  obtain ⟨consumerId, spec, -, rfl⟩ := JobsWrite.submitted_of_apply happly hnone hjob
  rw [hran.1, hran.2]
  exact ⟨0, .submitted s.now consumerId spec⟩

theorem exec (hcounted : Counted jobId ran s) {q : Action} {a : q.Answer}
    (hguarded : q.Guarded s) (hexec : q.exec s = some (a, t)) : Counted jobId (ran ++ [q]) t := by
  cases q with
  | jobs w =>
      obtain ⟨jobs, happly, heq⟩ := Option.map_eq_some_iff.mp hexec
      cases heq
      cases hjob : s.jobs.get? jobId with
      | none => exact hcounted.write_absent hguarded happly hjob
      | some job =>
          have hedited : jobs.get? jobId = some (w.edit s.now jobId job) :=
            JobsWrite.get?_apply happly hjob
          refine ⟨fun hnone => (by cases hnone.symm.trans hedited), fun job' hjob' => ?_⟩
          cases hedited.symm.trans hjob'
          obtain ⟨n, hcounts⟩ := hcounted.row job hjob
          rw [List.countP_append, List.countP_append, List.countP_singleton, List.countP_singleton]
          exact hcounts.edit hjob hguarded
  | _ => exact hcounted.same (congrArg (Table.get? · jobId) (Action.exec_sameIn .jobs rfl hexec)) rfl rfl

end Counted

/-! ### The operations -/

theorem assignQueued_guarded {queued : List (JobId × Job)} (hnodup : (queued.map Prod.fst).Nodup)
    (hrows : ∀ row ∈ queued, s.jobs.get? row.1 = some row.2 ∧ row.2.state = .queued) :
    (assignQueued queued).Each Action.exec (fun q s => q.Guarded s) s := by
  induction queued generalizing s with
  | nil => trivial
  | cons row queued ih =>
      obtain ⟨jobId, job⟩ := row
      obtain ⟨hnew, hnodup⟩ := List.nodup_cons.mp hnodup
      have hrest := fun row hrow => hrows row (List.mem_cons_of_mem _ hrow)
      refine ⟨trivial, ?_⟩
      dsimp only [Action.exec]
      cases bestCandidate (job.spec.maxPricePerHour.getD f64Max) (Read.eval s (.candidates
          (job.spec.minRamGb.getD 0) (job.spec.maxPricePerHour.getD f64Max))) with
      | none => exact ih hnodup hrest
      | some best =>
          obtain ⟨hjob, hqueued⟩ := hrows (jobId, job) List.mem_cons_self
          rw [Option.map_some]
          dsimp only [assignJob]
          rw [Each]
          refine ⟨⟨job, hjob, hqueued, rfl⟩, ?_⟩
          split
          · rename_i hexec
            obtain ⟨jobs, happly, heq⟩ := Option.map_eq_some_iff.mp hexec
            cases heq
            refine ⟨trivial, ih hnodup fun row hrow => ?_⟩
            have hne : row.1 ≠ jobId := fun heq => hnew (List.mem_map.mpr ⟨row, hrow, heq⟩)
            obtain ⟨hthis, hstate⟩ := hrest row hrow
            have hkept := JobsWrite.get?_apply happly hthis
            rw [JobsWrite.edit, if_neg hne] at hkept
            exact ⟨hkept, hstate⟩
          · trivial

theorem runAuctionCycle_guarded (s : Db) :
    runAuctionCycle.Each Action.exec (fun q s => q.Guarded s) s := by
  refine ⟨trivial, assignQueued_guarded ?_ fun row hrow => ?_⟩
  · have hperm := List.mergeSort_perm (s.jobs.rows.filter fun row => row.2.state = .queued)
    refine List.Nodup.sublist ((List.take_sublist _ _).map Prod.fst) ?_
    exact ((List.mergeSort_perm _ _).map Prod.fst).nodup_iff.mpr
      (s.jobs.nodupKeys.sublist (List.filter_sublist.map Prod.fst))
  · exact Read.queuedJobs_found hrow

theorem getAssignedJob_guarded (s : Db) (providerId : ProviderId) :
    (getAssignedJob providerId).Each Action.exec (fun q s => q.Guarded s) s := by
  rw [getAssignedJob, askOrError, askOr, Each]
  refine ⟨trivial, ?_⟩
  dsimp only [Action.exec]
  cases hfound : Read.eval s (.assignedJob providerId) with
  | none => trivial
  | some row =>
      obtain ⟨hrow, hprovider, -⟩ := Read.assignedJob_found hfound
      exact ⟨⟨row.2, hrow, by rw [hprovider]; rfl⟩, trivial⟩

/-- The refund reads, and writes other tables. -/
theorem refundConsumerEscrow_guarded (txId : TxId) (jobId : JobId) {next : Cycle}
    (hnext : ∀ s, next.Each Action.exec (fun q s => q.Guarded s) s) (s : Db) :
    (refundConsumerEscrow txId jobId next).Each Action.exec (fun q s => q.Guarded s) s := by
  refine .query trivial (fun escrow t => ?_) hnext
  cases escrow with
  | none => exact hnext t
  | some row =>
      exact .query trivial (fun _ _ => .query trivial (fun _ _ => .query trivial
        (fun _ => hnext) hnext) hnext) hnext

theorem migrateOrFailJob_guarded (txId : TxId) (jobId : JobId) (providerId : ProviderId)
    {next : Cycle} (hnext : ∀ s, next.Each Action.exec (fun q s => q.Guarded s) s) (s : Db) :
    (Coordinator.migrateOrFailJob txId jobId providerId next).Each Action.exec
      (fun q s => q.Guarded s) s := by
  rw [Coordinator.migrateOrFailJob, askOr, Each]
  refine ⟨trivial, ?_⟩
  dsimp only [Action.exec, Read.eval]
  cases hjob : s.jobs.get? jobId with
  | none => exact hnext s
  | some job =>
      dsimp only
      split
      · exact hnext s
      rename_i hprogress
      split
      · rename_i hrestorable
        exact .query ⟨job, hjob, by simpa using hprogress, hrestorable⟩ (fun _ => hnext)
          fun _ => trivial
      · refine .query trivial (fun _ => ?_) fun _ => trivial
        exact refundConsumerEscrow_guarded txId jobId fun _ => .query trivial (fun _ => hnext) hnext

theorem migrateStale_guarded (txIds : Nat → TxId) (i : Nat)
    (stale : List (ProviderId × Option JobId)) (s : Db) :
    (migrateStale txIds i stale).Each Action.exec (fun q s => q.Guarded s) s := by
  induction stale generalizing i s with
  | nil => trivial
  | cons row stale ih =>
      obtain ⟨providerId, activeJobId⟩ := row
      refine .query trivial (fun _ t => ?_) fun _ => trivial
      cases activeJobId with
      | none => exact ih (i + 1) t
      | some jobId => exact migrateOrFailJob_guarded (txIds i) jobId providerId (ih (i + 1)) t

namespace Operation

/-- The operation is not the gRPC acknowledgement, which sets any job running. -/
def NotAcknowledgement (op : Operation) : Prop := ∀ ja, op ≠ .acknowledgeJob ja

/-- The writes of these operations need nothing of the row. -/
theorem MayIssue.guarded {op : Operation} {q : Action} (hmay : op.MayIssue q)
    (hnot : op.NotAcknowledgement) (hauction : op ≠ .runAuctionCycle)
    (hpoll : ∀ providerId, op ≠ .getAssignedJob providerId)
    (hcheck : ∀ txIds, op ≠ .checkStaleProviders txIds)
    (hmigrate : ∀ txId jobId providerId, op ≠ .migrateOrFailJob txId jobId providerId) (s : Db) :
    q.Guarded s := by
  cases q with
  | jobs w =>
      cases op with
      | acknowledgeJob ja => exact absurd rfl (hnot ja)
      | runAuctionCycle => exact absurd rfl hauction
      | getAssignedJob providerId => exact absurd rfl (hpoll providerId)
      | checkStaleProviders txIds => exact absurd rfl (hcheck txIds)
      | migrateOrFailJob txId jobId providerId => exact absurd rfl (hmigrate txId jobId providerId)
      | submitJob ids body =>
          cases (hmay : w = _)
          trivial
      | cancelJob jobId =>
          cases (hmay : w = _)
          rfl
      | completeJob config txId jobId body =>
          cases (hmay : w = _)
          rfl
      | failJob config jobId body =>
          cases (hmay : w = _)
          rfl
      | saveCheckpoint checkpointId jobId body =>
          obtain ⟨url, rfl⟩ := (hmay : ∃ url, w = .checkpoint jobId url body.iteration)
          trivial
      | jobHeartbeat jobId body =>
          cases (hmay : w = _)
          trivial
      | reportCompletion oracleEnabled txIds jc =>
          cases (hmay : w = _)
          show jc.jobState.isTerminal = true
          rw [Grpc.JobComplete.jobState]
          split <;> rfl
      | grpcSubmitJob jobId req =>
          obtain ⟨-, spec, rfl⟩ :=
            (hmay : req.requirements.isSome ∧ ∃ spec, w = .insert jobId req.consumerId spec)
          trivial
      | grpcCancelJob req =>
          cases (hmay : w = _)
          trivial
      | _ => exact hmay.elim
  | _ => trivial

theorem guarded {op : Operation} (hnot : op.NotAcknowledgement) (s : Db) :
    op.program.Each Action.exec (fun q s => q.Guarded s) s := by
  cases op with
  | runAuctionCycle => exact each_forget.mpr (runAuctionCycle_guarded s)
  | getAssignedJob providerId => exact each_forget.mpr (getAssignedJob_guarded s providerId)
  | checkStaleProviders txIds =>
      refine each_forget.mpr ?_
      rw [Coordinator.checkStaleProviders, askOr]
      refine .query trivial (fun stale t => migrateStale_guarded txIds 0 stale t) fun _ => ?_
      trivial
  | migrateOrFailJob txId jobId providerId =>
      have hdone : ∀ s, (done true : Cycle).Each Action.exec (fun q s => q.Guarded s) s :=
        fun _ => trivial
      exact each_forget.mpr (migrateOrFailJob_guarded txId jobId providerId hdone s)
  | _ =>
      refine .of_uses (fun q s hmay => ?_) s (program_mayIssue _)
      exact hmay.guarded hnot (fun heq => by cases heq) (fun _ heq => by cases heq)
        (fun _ heq => by cases heq) (fun _ _ _ heq => by cases heq) s

end Operation

/-! ### The last loss -/

namespace Books

theorem refundJob_jobs (b : Books) (jobId : JobId) : (b.refundJob jobId).jobs = b.jobs := by
  rw [refundJob]
  split <;> rfl

/-- A job without a restore left is failed, and stays so. -/
theorem migrateOrFail_fails (now : Time) {b : Books} (k : JobId) {job : Job}
    (hjob : b.jobs.get? jobId = some job)
    (hlast : job.state.inProgress ∧ restorable job = false ∨ job.state = .failed) :
    ∃ job', (b.migrateOrFail now k).jobs.get? jobId = some job' ∧
      (k = jobId ∨ job.state = .failed → job'.state = .failed) ∧
      (job'.state.inProgress ∧ restorable job' = false ∨ job'.state = .failed) := by
  by_cases hk : k = jobId
  · subst hk
    rw [migrateOrFail, hjob]
    rcases hlast with ⟨hprogress, hnot⟩ | hfailed
    · refine ⟨job.giveUp now (failureReason job), ?_, fun _ => rfl, .inr rfl⟩
      simp only [hprogress, hnot, Bool.not_true, Bool.false_eq_true, if_false, refundJob_jobs,
        Table.get?_update_self, hjob, Option.map_some]
    · refine ⟨job, ?_, fun _ => hfailed, .inr hfailed⟩
      simp only [hfailed, JobState.inProgress, Bool.not_false, if_true]
      exact hjob
  · refine ⟨job, ?_, fun h => h.resolve_left hk, hlast⟩
    have hne : jobId ≠ k := fun heq => hk heq.symm
    rw [migrateOrFail]
    split
    · exact hjob
    split
    · exact hjob
    split
    · exact (Table.get?_update_of_ne _ _ hne).trans hjob
    · rw [refundJob_jobs]
      exact (Table.get?_update_of_ne _ _ hne).trans hjob

theorem foldl_migrateOrFail_fails (now : Time) (jobIds : List JobId) {b : Books} {job : Job}
    (hjob : b.jobs.get? jobId = some job)
    (hlast : job.state.inProgress ∧ restorable job = false ∨ job.state = .failed)
    (hlost : jobId ∈ jobIds ∨ job.state = .failed) :
    ∃ job', (jobIds.foldl (Books.migrateOrFail now) b).jobs.get? jobId = some job' ∧
      job'.state = .failed := by
  induction jobIds generalizing b job with
  | nil => exact ⟨job, hjob, hlost.resolve_left List.not_mem_nil⟩
  | cons k jobIds ih =>
      obtain ⟨job', hjob', hfails, hlast'⟩ := migrateOrFail_fails now k hjob hlast
      refine ih hjob' hlast' ?_
      rcases hlost with hmem | hfailed
      · rcases List.mem_cons.mp hmem with heq | hrest
        · exact .inr (hfails (.inl heq.symm))
        · exact .inl hrest
      · exact .inr (hfails (.inr hfailed))

end Books

/-- A stale check that finds the provider of such a job silent fails the job. -/
theorem checkStaleProviders_fails {job : Job} (hjob : s.jobs.get? jobId = some job)
    (hprogress : job.state.inProgress) (hnot : restorable job = false)
    (hlost : jobId ∈ staleJobs s) (txIds : Nat → TxId) :
    ∃ job', ((Operation.checkStaleProviders txIds).after s).jobs.get? jobId = some job' ∧
      job'.state = .failed := by
  obtain ⟨job', hjob', hfailed⟩ := Books.foldl_migrateOrFail_fails s.now (staleJobs s)
    (b := s.books) hjob (.inl ⟨hprogress, hnot⟩) (.inl hlost)
  rw [← checkStaleProviders_books s txIds] at hjob'
  refine ⟨job', ?_, hfailed⟩
  rw [Operation.after, Operation.program, run_forget]
  exact hjob'

/-! ### Runs -/

theorem History.counted {log : List (Db × Operation)}
    (hrun : History (fun _ op => op.NotAcknowledgement) Db.init log t) (jobId : JobId) :
    Counted jobId (ranIn log) t := by
  induction hrun with
  | start => exact .init jobId
  | operation _ hnot ih =>
      rw [ranIn_concat]
      exact (Operation.guarded hnot _).logged
        (fun q ran s a t hguarded hcounted hexec => hcounted.exec hguarded hexec) ih
  | idle _ hshuffled ih => exact ih.shuffled hshuffled

/-- In every run without the acknowledgement a job is put back into the queue at most three times and
assigned at most four times. A job in progress that has no restore left fails with the next loss of
its provider. -/
theorem migration_bounded {log : List (Db × Operation)}
    (hrun : History (fun _ op => op.NotAcknowledgement) Db.init log t) (jobId : JobId) :
    let requeues := (ranIn log).countP (Action.requeues jobId)
    let assigns := (ranIn log).countP (Action.assignsJob jobId)
    requeues ≤ 3 ∧ assigns ≤ 4 ∧
      ∀ job, t.jobs.get? jobId = some job → ∃ n, job.restoreAttempts = some n ∧ n ≤ 3 ∧
        (requeues = 3 ∨ assigns = 4 ∨ n = 3 → job.state.inProgress → jobId ∈ staleJobs t →
          ∀ txIds, ∃ job', ((Operation.checkStaleProviders txIds).after t).jobs.get? jobId =
            some job' ∧ job'.state = .failed) := by
  intro requeues assigns
  have hcounted := hrun.counted jobId
  cases hjob : t.jobs.get? jobId with
  | none =>
      obtain ⟨hrequeues, hassigns⟩ := hcounted.absent hjob
      refine ⟨hrequeues.trans_le (by decide), hassigns.trans_le (by decide), fun job hsome => ?_⟩
      cases hsome
  | some job =>
      obtain ⟨n, hcounts⟩ := hcounted.row job hjob
      refine ⟨hcounts.requeues_le, hcounts.assigns_le, fun job' hsome => ?_⟩
      cases hsome
      refine ⟨n, hcounts.attempts, hcounts.attempts_le, fun hlast hprogress hlost txIds => ?_⟩
      exact checkStaleProviders_fails hjob hprogress (hcounts.not_restorable hprogress hlast) hlost
        txIds

/-! ### Three restores -/

/-- An assigned job with a checkpoint. -/
def checkpointedOnce : List Operation :=
  assigned ++ [.saveCheckpoint "c1" "a" ⟨"p", 1, 300, "/var/neuralmesh/checkpoints/a", []⟩]

/-- The silent provider is noticed, comes back and gets the job again. -/
def lostAndRestored : List Operation :=
  [.checkStaleProviders fun _ => "refund", agentHeartbeat "p" "available", .runAuctionCycle]

/-- The database after some time in which nothing runs. -/
def Db.later (s : Db) (time : Time) : Db := { s with now := s.now + time }

theorem Db.shuffled_later (s : Db) (time : Time) : s.Shuffled (s.later time) :=
  { Db.Shuffled.refl s with now := Nat.le_add_right _ _ }

/-- The history and the database after some restores, each 200 s after the one before. -/
def restores : Nat → List (Db × Operation) × Db
  | 0 => (logOf checkpointedOnce Db.init, afterAll checkpointedOnce Db.init)
  | n + 1 =>
      let (log, s) := restores n
      (log ++ logOf lostAndRestored (s.later (seconds 200)),
        afterAll lostAndRestored (s.later (seconds 200)))

theorem restores_history (n : Nat) :
    History (fun _ op => op.NotAcknowledgement) Db.init (restores n).1 (restores n).2 := by
  induction n with
  | zero =>
      exact .afterAll ⟨nofun, nofun, nofun, nofun, nofun, nofun, trivial⟩
  | succ n ih => exact (ih.idle (Db.shuffled_later _ _)).snocs ⟨nofun, nofun, nofun, trivial⟩

/-- The provider is lost a fourth time. -/
theorem migration_bounded_fourth :
    (ranIn (restores 3).1).countP (Action.requeues "a") = 3 ∧
      (ranIn (restores 3).1).countP (Action.assignsJob "a") = 4 ∧
      ∃ job, ((Operation.checkStaleProviders fun _ => "refund").after
        ((restores 3).2.later (seconds 200))).jobs.get? "a" = some job ∧ job.state = .failed := by
  have hrequeues : (ranIn (restores 3).1).countP (Action.requeues "a") = 3 := by decide +kernel
  have hassigns : (ranIn (restores 3).1).countP (Action.assignsJob "a") = 4 := by decide +kernel
  have hstate : (((restores 3).2.later (seconds 200)).jobs.get? "a").map Job.state =
      some .assigned := by decide +kernel
  have hlost : "a" ∈ staleJobs ((restores 3).2.later (seconds 200)) := by decide +kernel
  obtain ⟨job, hjob, hassigned⟩ := Option.map_eq_some_iff.mp hstate
  obtain ⟨-, -, hrow⟩ :=
    migration_bounded ((restores_history 3).idle (Db.shuffled_later _ (seconds 200))) "a"
  obtain ⟨n, -, -, hfails⟩ := hrow job hjob
  exact ⟨hrequeues, hassigns, hfails (.inl hrequeues) (by rw [hassigned]; rfl) hlost _⟩

end NeuralMesh
