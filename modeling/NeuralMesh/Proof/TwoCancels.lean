import NeuralMesh.Coordinator.Books
import NeuralMesh.Store.Rows
import NeuralMesh.System.Operation

/-!
# The two ways to cancel

The REST handler leaves an ended job alone and undoes the others: it cancels the job, refunds the
escrow row it finds, releases the rows and frees the provider. The gRPC handler writes one column of
the job, whatever its state. Without a locked row the REST handler adds `NULL` to the balance.
-/

namespace NeuralMesh

open Coordinator Program

/-- The row without its timestamps. -/
def Job.timeless (j : Job) : Job :=
  { j with lastHeartbeat := none, startedAt := none, completedAt := none, createdAt := 0 }

/-- The four tables a cancellation can write are the same, but for timestamps. -/
structure Db.SameButTimes (s t : Db) : Prop where
  jobs : ∀ k, (s.jobs.get? k).map Job.timeless = (t.jobs.get? k).map Job.timeless
  creditAccounts : s.creditAccounts = t.creditAccounts
  escrows : s.escrows = t.escrows
  providers : s.providers = t.providers

/-- What is locked for a job. -/
def Db.lockedFor (s : Db) (jobId : JobId) : ℚ :=
  s.escrows.sum fun _ e => if e.jobId = jobId ∧ e.state = .locked then e.lockedNmc else 0

/-- What a cancellation is for: an ended job is left alone, another is cancelled, what is locked for
it goes back to its consumer, and its provider is free. -/
structure Db.Cancels (s t : Db) (jobId : JobId) (job : Job) : Prop where
  ended : job.state.isTerminal → s.SameButTimes t
  cancelled : job.state.isTerminal = false → (t.jobs.get? jobId).map Job.state = some .cancelled
  refunded : job.state.isTerminal = false →
    availableOrZero t.creditAccounts job.consumerId =
      availableOrZero s.creditAccounts job.consumerId + s.lockedFor jobId
  released : job.state.isTerminal = false →
    ∀ id e, t.escrows.get? id = some e → e.jobId = jobId → e.state ≠ .locked
  freed : job.state.isTerminal = false →
    ∀ p row, t.providers.get? p = some row → row.activeJobId ≠ some jobId

/-- The two handlers lead to the same tables, and both do what a cancellation is for. -/
def CancelsAgree (s : Db) (jobId : JobId) (job : Job) : Prop :=
  let grpc := (Operation.grpcCancelJob ⟨jobId, job.consumerId⟩).after s
  let rest := (Operation.cancelJob jobId).after s
  grpc.SameButTimes rest ∧ s.Cancels grpc jobId job ∧ s.Cancels rest jobId job

/-- There is nothing to undo: no locked row, no provider that works on the job, and no balance of
the consumer left to turn into `NULL`. -/
structure Db.NothingToUndo (s : Db) (jobId : JobId) (job : Job) : Prop where
  unlocked : ∀ id e, s.escrows.get? id = some e → e.jobId = jobId → e.state ≠ .locked
  idle : ∀ p row, s.providers.get? p = some row → row.activeJobId ≠ some jobId
  account : ∀ a ∈ s.creditAccounts.get? job.consumerId,
    a.availableNmc = none ∧ a.escrowedNmc = some 0

variable {s : Db} {jobId : JobId} {job : Job}

/-! ### What the handlers do -/

theorem grpcCancelJob_after (req : Grpc.CancelJobRequest) :
    (Operation.grpcCancelJob req).after s =
      { s with
        jobs := s.jobs.updateWhere (fun k j => k = req.jobId ∧ j.consumerId = req.consumerId)
          fun j => { j with state := .cancelled } } := rfl

theorem cancelJob_after_ended (hjob : s.jobs.get? jobId = some job) (hended : job.state.isTerminal) :
    (Operation.cancelJob jobId).after s = s := by
  have hread : Action.exec (.read (.job jobId)) s = some (some job, s) := by
    rw [← hjob]
    rfl
  rw [Operation.after, Operation.program, run_forget, Coordinator.cancelJob,
    run_query_of_some _ hread]
  dsimp only
  rw [if_pos hended, run_done]

theorem cancelJob_after_live (hjob : s.jobs.get? jobId = some job)
    (hlive : job.state.isTerminal = false) :
    (Operation.cancelJob jobId).after s =
      { s with
        jobs := s.jobs.update jobId (.close s.now .cancelled)
        creditAccounts := s.creditAccounts.update job.consumerId
          (.refundJob ((firstLocked s.escrows jobId).map fun row => row.2.lockedNmc))
        escrows := s.escrows.updateWhere (fun _ e => e.jobId = jobId ∧ e.state = .locked) .release
        providers := s.providers.updateWhere (fun _ p => p.activeJobId = some jobId) .free } := by
  have hread : Action.exec (.read (.job jobId)) s = some (some job, s) := by
    rw [← hjob]
    rfl
  rw [Operation.after, Operation.program, run_forget, Coordinator.cancelJob,
    run_query_of_some _ hread, ← updateAccount_all]
  dsimp only
  rw [if_neg (Bool.eq_false_iff.mp hlive)]
  rfl

/-! ### The tables -/

theorem grpc_jobs_get? (hjob : s.jobs.get? jobId = some job) (k : JobId) :
    ((Operation.grpcCancelJob ⟨jobId, job.consumerId⟩).after s).jobs.get? k =
      if k = jobId then some { job with state := .cancelled } else s.jobs.get? k := by
  rw [grpcCancelJob_after, Table.get?_updateWhere]
  by_cases hk : k = jobId
  · rw [if_pos hk, hk, hjob]
    simp
  · rw [if_neg hk]
    simp [hk]

/-- The jobs agree with those after the REST handler, of a job that has not ended. -/
theorem jobs_alike (hjob : s.jobs.get? jobId = some job) (k : JobId) :
    (((Operation.grpcCancelJob ⟨jobId, job.consumerId⟩).after s).jobs.get? k).map Job.timeless =
      ((s.jobs.update jobId (.close s.now .cancelled)).get? k).map Job.timeless := by
  rw [grpc_jobs_get? hjob, Table.get?_update]
  split
  · rw [hjob]
    rfl
  · rfl

/-- The balance stays only where it is `NULL` already. -/
theorem refundJob_none_iff {a : CreditAccount} :
    CreditAccount.refundJob none a = a ↔ a.availableNmc = none ∧ a.escrowedNmc = some 0 := by
  obtain ⟨available, escrowed, earned, spent⟩ := a
  simp [CreditAccount.refundJob, eq_comm]

theorem Provider.free_ne {row : Provider} (hrow : row.activeJobId = some jobId) : row.free ≠ row := by
  intro hsame
  have hactive : row.free.activeJobId = row.activeJobId := by rw [hsame]
  rw [hrow] at hactive
  cases hactive

theorem Escrow.release_ne {e : Escrow} (hlocked : e.state = .locked) : e.release ≠ e := by
  intro hsame
  have hstate : e.release.state = e.state := by rw [hsame]
  rw [hlocked] at hstate
  cases hstate

theorem firstLocked_eq_none_iff :
    firstLocked s.escrows jobId = none ↔
      ∀ id e, s.escrows.get? id = some e → e.jobId = jobId → e.state ≠ .locked := by
  rw [firstLocked, List.find?_eq_none]
  constructor
  · intro hall id e he hof hlocked
    exact hall (id, e) (Table.mem_rows_iff.mpr he) (decide_eq_true ⟨hof, hlocked⟩)
  · rintro hunlocked ⟨id, e⟩ hrow hlocked
    obtain ⟨hof, hstate⟩ := of_decide_eq_true hlocked
    exact hunlocked id e (Table.mem_rows_iff.mp hrow) hof hstate

theorem lockedFor_eq_zero
    (hunlocked : ∀ id e, s.escrows.get? id = some e → e.jobId = jobId → e.state ≠ .locked) :
    s.lockedFor jobId = 0 := by
  apply Table.sum_eq_zero
  intro id e he
  rw [if_neg]
  exact fun hlocked => hunlocked id e he hlocked.1 hlocked.2

/-- Undoing changes no table exactly when there is nothing to undo. -/
theorem undo_nothing_iff :
    (s.creditAccounts = s.creditAccounts.update job.consumerId
        (.refundJob ((firstLocked s.escrows jobId).map fun row => row.2.lockedNmc)) ∧
      s.escrows = s.escrows.updateWhere (fun _ e => e.jobId = jobId ∧ e.state = .locked) .release ∧
      s.providers = s.providers.updateWhere (fun _ p => p.activeJobId = some jobId) .free) ↔
      s.NothingToUndo jobId job := by
  rw [eq_comm, eq_comm (a := s.escrows), eq_comm (a := s.providers), Table.update,
    Table.updateWhere_eq_self_iff, Table.updateWhere_eq_self_iff, Table.updateWhere_eq_self_iff]
  constructor
  · rintro ⟨haccount, hescrows, hproviders⟩
    have hunlocked : ∀ id e, s.escrows.get? id = some e → e.jobId = jobId → e.state ≠ .locked :=
      fun id e he hof hlocked =>
        Escrow.release_ne hlocked (hescrows id e he (decide_eq_true ⟨hof, hlocked⟩))
    refine ⟨hunlocked, fun p row hrow hactive => ?_, fun a ha => ?_⟩
    · exact Provider.free_ne hactive (hproviders p row hrow (decide_eq_true hactive))
    · have hsame := haccount job.consumerId a ha (decide_eq_true rfl)
      rw [firstLocked_eq_none_iff.mpr hunlocked, Option.map_none] at hsame
      exact refundJob_none_iff.mp hsame
  · rintro ⟨hunlocked, hidle, haccount⟩
    refine ⟨fun c a ha hc => ?_, fun id e he hlocked => ?_, fun p row hrow hactive => ?_⟩
    · rw [firstLocked_eq_none_iff.mpr hunlocked, Option.map_none]
      exact refundJob_none_iff.mpr (haccount a (of_decide_eq_true hc ▸ ha))
    · obtain ⟨hof, hstate⟩ := of_decide_eq_true hlocked
      exact absurd hstate (hunlocked id e he hof)
    · exact absurd (of_decide_eq_true hactive) (hidle p row hrow)

/-! ### When the two agree -/

/-- With nothing to undo, cancelling the job is all there is to do. -/
theorem Db.NothingToUndo.cancels (hnothing : s.NothingToUndo jobId job)
    (hlive : job.state.isTerminal = false) {t : Db}
    (hcancelled : (t.jobs.get? jobId).map Job.state = some .cancelled)
    (haccounts : t.creditAccounts = s.creditAccounts) (hescrows : t.escrows = s.escrows)
    (hproviders : t.providers = s.providers) : s.Cancels t jobId job where
  ended hended := by
    rw [hlive] at hended
    cases hended
  cancelled _ := hcancelled
  refunded _ := by rw [haccounts, lockedFor_eq_zero hnothing.unlocked, add_zero]
  released _ := hescrows ▸ hnothing.unlocked
  freed _ := hproviders ▸ hnothing.idle

/-- An ended job is left alone by the gRPC handler only if it was cancelled. -/
theorem grpc_leaves_iff (hjob : s.jobs.get? jobId = some job) :
    ((Operation.grpcCancelJob ⟨jobId, job.consumerId⟩).after s).SameButTimes s ↔
      job.state = .cancelled := by
  constructor
  · intro hsame
    have hrow := hsame.jobs jobId
    rw [grpc_jobs_get? hjob, if_pos rfl, hjob, Option.map_some, Option.map_some,
      Option.some.injEq] at hrow
    exact (congrArg Job.state hrow).symm
  · intro hcancelled
    refine ⟨fun k => ?_, rfl, rfl, rfl⟩
    rw [grpc_jobs_get? hjob]
    split
    · rename_i hk
      rw [hk, hjob, ← hcancelled]
    · rfl

theorem Db.SameButTimes.symm {t : Db} (hsame : s.SameButTimes t) : t.SameButTimes s :=
  ⟨fun k => (hsame.jobs k).symm, hsame.creditAccounts.symm, hsame.escrows.symm,
    hsame.providers.symm⟩

theorem Db.Cancels.of_ended (hended : job.state.isTerminal) {t : Db} (hsame : s.SameButTimes t) :
    s.Cancels t jobId job := by
  have hnot (hlive : job.state.isTerminal = false) : False := by
    rw [hended] at hlive
    cases hlive
  exact ⟨fun _ => hsame, fun h => (hnot h).elim, fun h => (hnot h).elim, fun h => (hnot h).elim,
    fun h => (hnot h).elim⟩

/-- The two handlers agree exactly on a job that is cancelled already, and on one that has not ended
and leaves nothing to undo. -/
theorem cancels_agree_iff (hjob : s.jobs.get? jobId = some job) :
    CancelsAgree s jobId job ↔
      job.state = .cancelled ∨ job.state.isTerminal = false ∧ s.NothingToUndo jobId job := by
  rw [CancelsAgree]
  cases hended : job.state.isTerminal with
  | true =>
      rw [cancelJob_after_ended hjob hended]
      constructor
      · rintro ⟨hsame, -⟩
        exact .inl ((grpc_leaves_iff hjob).mp hsame)
      · rintro (hcancelled | ⟨hlive, -⟩)
        · have hsame := (grpc_leaves_iff hjob).mpr hcancelled
          exact ⟨hsame, .of_ended hended hsame.symm, .of_ended hended ⟨fun _ => rfl, rfl, rfl, rfl⟩⟩
        · cases hlive
  | false =>
      have hrest := cancelJob_after_live hjob hended
      have hnot : job.state ≠ .cancelled := by
        intro hcancelled
        rw [hcancelled] at hended
        cases hended
      constructor
      · rintro ⟨hsame, -⟩
        rw [hrest] at hsame
        exact .inr ⟨rfl, undo_nothing_iff.mp ⟨hsame.creditAccounts, hsame.escrows, hsame.providers⟩⟩
      · rintro (hcancelled | ⟨-, hnothing⟩)
        · exact absurd hcancelled hnot
        · obtain ⟨haccounts, hescrows, hproviders⟩ := undo_nothing_iff.mpr hnothing
          refine ⟨?_, hnothing.cancels hended ?_ rfl rfl rfl, hnothing.cancels hended ?_ ?_ ?_ ?_⟩
          · rw [hrest]
            exact ⟨jobs_alike hjob, haccounts, hescrows, hproviders⟩
          · rw [grpc_jobs_get? hjob, if_pos rfl]
            rfl
          · rw [hrest]
            simp only [Table.get?_update_self, hjob]
            rfl
          · rw [hrest]
            exact haccounts.symm
          · rw [hrest]
            exact hescrows.symm
          · rw [hrest]
            exact hproviders.symm

def sampleRequest : Grpc.JobSubmitRequest where
  consumerId := "alice"
  requirements := some ⟨0, 1, 3600, 5⟩
  bundleHash := ""
  bundleUploadUrl := ""
  consumerSshPubkey := ""
  consumerWgPubkey := ""

/-- A job that was submitted over gRPC has no escrow, and its consumer here no account. -/
theorem cancels_agree_unfunded :
    ∃ job, ((Operation.grpcSubmitJob "a" sampleRequest).after Db.init).jobs.get? "a" = some job ∧
      CancelsAgree ((Operation.grpcSubmitJob "a" sampleRequest).after Db.init) "a" job := by
  refine ⟨_, rfl, (cancels_agree_iff rfl).mpr (.inr ⟨rfl, ?_, ?_, ?_⟩)⟩
  · intro id e he
    cases he
  · intro p row hrow
    cases hrow
  · intro a ha
    cases ha

/-- The gRPC handler leaves the escrow of a funded and assigned job locked. -/
theorem cancels_disagree :
    ∃ s job, Reachable s ∧ s.jobs.get? "a" = some job ∧ job.state = .assigned ∧
      ¬ CancelsAgree s "a" job := by
  have hreach : Reachable (afterAll assigned Db.init) :=
    Run.afterAll ⟨trivial, trivial, trivial, trivial, trivial, trivial⟩
  have hstate : ((afterAll assigned Db.init).jobs.get? "a").map Job.state = some .assigned := by
    decide +kernel
  have hlocked : ((afterAll assigned Db.init).escrows.get? "escrow-a").map Escrow.state =
      some .locked := by decide +kernel
  have hjobId : ((afterAll assigned Db.init).escrows.get? "escrow-a").map Escrow.jobId =
      some "a" := by decide +kernel
  generalize afterAll assigned Db.init = s at *
  obtain ⟨job, hjob, hassigned⟩ := Option.map_eq_some_iff.mp hstate
  obtain ⟨e, he, hheld⟩ := Option.map_eq_some_iff.mp hlocked
  rw [he, Option.map_some, Option.some.injEq] at hjobId
  refine ⟨s, job, hreach, hjob, hassigned, fun hagree => ?_⟩
  have hended : job.state.isTerminal = false := by
    rw [hassigned]
    rfl
  have hsame := hagree.1.escrows
  rw [cancelJob_after_live hjob hended] at hsame
  have hrows : s.escrows.updateWhere (fun _ e => e.jobId = "a" ∧ e.state = .locked) .release =
      s.escrows := hsame.symm
  have hfixed := Table.updateWhere_eq_self_iff.mp hrows
  exact Escrow.release_ne hheld (hfixed "escrow-a" e he (decide_eq_true ⟨hjobId, hheld⟩))

end NeuralMesh
