import NeuralMesh.Base.Interleaving
import NeuralMesh.Coordinator.Books
import NeuralMesh.System.Operation

/-!
# Final job states under interleaving

A job that is complete, failed or cancelled is meant to stay so. Most writers of `jobs.state` do not
look at the state they overwrite; `SparesFinal` says, for each of them, on which databases its
statement leaves every final job as it is.
-/

namespace NeuralMesh

open Coordinator

/-- Requests to the two services, interleaved statement by statement. -/
abbrev Requests := Pool Action.Answer Db Operation Unit

/-- Every job that is final stays in its state. -/
def KeepsFinal (jobs jobs' : Table JobId Job) : Prop :=
  ∀ jobId, ∀ job ∈ jobs.get? jobId, job.state.isTerminal →
    ∃ job' ∈ jobs'.get? jobId, job'.state = job.state

/-- The databases on which a write of `jobs` leaves every final job in its state: the rows it
matches are not final, or have the state it writes already. -/
def JobsWrite.SparesFinal (s : Db) : JobsWrite → Prop
  | insert _ _ _ => True
  | checkpoint _ _ _ => True
  | close jobId state => ∀ job ∈ s.jobs.get? jobId, job.state.isTerminal → job.state = state
  | report jobId state _ _ => ∀ job ∈ s.jobs.get? jobId, job.state.isTerminal → job.state = state
  | giveUp jobId _ => ∀ job ∈ s.jobs.get? jobId, job.state.isTerminal → job.state = .failed
  | cancelOwned jobId consumerId =>
      ∀ job ∈ s.jobs.get? jobId, job.consumerId = consumerId → job.state.isTerminal →
        job.state = .cancelled
  | start jobId => ∀ job ∈ s.jobs.get? jobId, job.state.isTerminal = false
  | acknowledge jobId _ _ => ∀ job ∈ s.jobs.get? jobId, job.state.isTerminal = false
  | requeue jobId => ∀ job ∈ s.jobs.get? jobId, job.state.isTerminal = false
  | heartbeat jobId providerId =>
      ∀ job ∈ s.jobs.get? jobId, job.providerId = some providerId → job.state.isTerminal = false
  | assign jobId providerId _ _ =>
      -- without the provider, the foreign key refuses the statement
      (s.providers.get? providerId).isSome →
        ∀ job ∈ s.jobs.get? jobId, job.state.isTerminal = false

/-- Rows that a writer moves to one state stay final exactly when they were not, or have the state
already. -/
theorem keepsFinal_updateWhere_iff {jobs : Table JobId Job} {p : JobId → Job → Bool} {f : Job → Job}
    (state : JobState) (hstate : ∀ job, (f job).state = state) :
    KeepsFinal jobs (jobs.updateWhere p f) ↔
      ∀ jobId, ∀ job ∈ jobs.get? jobId, p jobId job → job.state.isTerminal → job.state = state := by
  refine forall_congr' fun jobId => forall₂_congr fun job hjob => ?_
  rw [Table.get?_updateWhere, Option.mem_def.mp hjob, Option.map_some]
  by_cases hp : p jobId job
  · simp only [hp, if_true, Option.mem_def, Option.some.injEq, exists_eq_left', hstate,
      forall_const]
    exact imp_congr_right fun _ => eq_comm
  · simp [hp]

/-- A statement about the matching rows is one about the row of the job. -/
theorem forall_row_iff {jobs : Table JobId Job} {jobId : JobId} {P R : Job → Prop}
    [DecidablePred P] :
    (∀ k, ∀ job ∈ jobs.get? k, decide (k = jobId ∧ P job) → R job) ↔
      ∀ job ∈ jobs.get? jobId, P job → R job := by
  constructor
  · intro hall job hjob hP
    exact hall jobId job hjob (decide_eq_true ⟨rfl, hP⟩)
  · intro hall k job hjob hk
    obtain ⟨rfl, hP⟩ := of_decide_eq_true hk
    exact hall job hjob hP

theorem keepsFinal_update_iff {jobs : Table JobId Job} {jobId : JobId} {f : Job → Job}
    (state : JobState) (hstate : ∀ job, (f job).state = state) :
    KeepsFinal jobs (jobs.update jobId f) ↔
      ∀ job ∈ jobs.get? jobId, job.state.isTerminal → job.state = state := by
  rw [Table.update, keepsFinal_updateWhere_iff state hstate]
  constructor
  · intro hkeeps job hjob
    exact hkeeps jobId job hjob (by simp)
  · intro hkeeps k job hjob hk
    have heq : k = jobId := of_decide_eq_true hk
    exact hkeeps job (heq ▸ hjob)

/-- A final state is none of the states a job is running in. -/
theorem final_imp_eq_iff {job : Job} {state : JobState} (hlive : state.isTerminal = false) :
    (job.state.isTerminal → job.state = state) ↔ job.state.isTerminal = false := by
  constructor
  · intro himp
    by_contra hfinal
    have heq := himp (by simpa using hfinal)
    rw [heq, hlive] at hfinal
    exact hfinal rfl
  · intro hfalse hfinal
    rw [hfalse] at hfinal
    cases hfinal

/-- The condition of each writer is exact. -/
theorem JobsWrite.keepsFinal_iff {s : Db} {w : JobsWrite} {jobs : Table JobId Job}
    (happly : w.apply s = some jobs) : KeepsFinal s.jobs jobs ↔ w.SparesFinal s := by
  cases w with
  | insert jobId consumerId spec =>
      refine iff_of_true (fun k job hjob _ => ⟨job, ?_, rfl⟩) trivial
      rw [Option.mem_def, Table.get?_of_insert? happly, if_neg]
      · exact hjob
      · rintro rfl
        rw [(Table.rows_of_insert? happly).1] at hjob
        cases hjob
  | checkpoint jobId url iteration =>
      cases happly
      refine iff_of_true (fun k job hjob _ => ?_) trivial
      rw [Table.get?_update]
      split
      · rename_i heq
        exact ⟨_, Option.mem_map_of_mem _ (heq ▸ hjob), rfl⟩
      · exact ⟨job, hjob, rfl⟩
  | close jobId state =>
      cases happly
      exact keepsFinal_update_iff _ fun _ => rfl
  | report jobId state outputHash actualRuntimeS =>
      cases happly
      exact keepsFinal_update_iff _ fun _ => rfl
  | giveUp jobId reason =>
      cases happly
      exact keepsFinal_update_iff _ fun _ => rfl
  | start jobId =>
      cases happly
      rw [keepsFinal_update_iff .running fun _ => rfl]
      exact forall₂_congr fun _ _ => final_imp_eq_iff rfl
  | acknowledge jobId wireguardEndpoint sshPort =>
      cases happly
      rw [keepsFinal_update_iff .running fun _ => rfl]
      exact forall₂_congr fun _ _ => final_imp_eq_iff rfl
  | requeue jobId =>
      cases happly
      rw [keepsFinal_update_iff .queued fun _ => rfl]
      exact forall₂_congr fun _ _ => final_imp_eq_iff rfl
  | cancelOwned jobId consumerId =>
      cases happly
      rw [keepsFinal_updateWhere_iff .cancelled fun _ => rfl]
      exact forall_row_iff (P := fun job => job.consumerId = consumerId)
  | heartbeat jobId providerId =>
      cases happly
      rw [keepsFinal_updateWhere_iff .running fun _ => rfl]
      refine (forall_row_iff (P := fun job => job.providerId = some providerId)).trans ?_
      exact forall₂_congr fun _ _ => imp_congr_right fun _ => final_imp_eq_iff rfl
  | assign jobId providerId pricePerHour restore =>
      simp only [apply] at happly
      split at happly
      · cases happly
      rename_i hkey
      cases happly
      have hlive : ∀ job : Job, (job.state.isTerminal → job.state = .assigned) ↔
          job.state.isTerminal = false := fun _ => final_imp_eq_iff rfl
      rw [keepsFinal_update_iff .assigned fun _ => rfl]
      simp only [SparesFinal, hlive]
      constructor
      · intro hspares _
        exact hspares
      · intro hspares job hjob
        refine hspares ?_ job hjob
        rw [Option.mem_def.mp hjob] at hkey
        by_contra hprovider
        exact hkey ⟨rfl, by simpa using hprovider⟩

/-- The guard: every write of `jobs` leaves the final jobs alone. -/
def SparesFinal (_ : Requests) : Event Action Db Operation → Prop
  | .ran _ _ (.jobs w) before _ => w.SparesFinal before
  | _ => True

theorem KeepsFinal.refl (jobs : Table JobId Job) : KeepsFinal jobs jobs :=
  fun _ job hjob _ => ⟨job, hjob, rfl⟩

theorem KeepsFinal.trans {jobs₁ jobs₂ jobs₃ : Table JobId Job} (h₁ : KeepsFinal jobs₁ jobs₂)
    (h₂ : KeepsFinal jobs₂ jobs₃) : KeepsFinal jobs₁ jobs₃ := by
  intro jobId job hjob hfinal
  obtain ⟨job', hjob', hstate'⟩ := h₁ jobId job hjob hfinal
  obtain ⟨job'', hjob'', hstate''⟩ := h₂ jobId job' hjob' (hstate'.symm ▸ hfinal)
  exact ⟨job'', hjob'', hstate''.trans hstate'⟩

/-- A statement that meets the guard keeps every final job in its state. -/
theorem Action.exec_keepsFinal {q : Action} {s t : Db} {a : q.Answer}
    (hspares : ∀ w, q = .jobs w → w.SparesFinal s) (hexec : q.exec s = some (a, t)) :
    KeepsFinal s.jobs t.jobs := by
  cases q with
  | jobs w =>
      obtain ⟨jobs, happly, heq⟩ := Option.map_eq_some_iff.mp hexec
      cases heq
      exact (JobsWrite.keepsFinal_iff happly).mpr (hspares w rfl)
  | creditAccounts w =>
      cases hexec
      exact .refl _
  | escrows w =>
      obtain ⟨escrows, happly, heq⟩ := Option.map_eq_some_iff.mp hexec
      cases heq
      exact .refl _
  | ledgerDeposit accountId amount reference txId =>
      simp only [exec] at hexec
      split at hexec
      · cases hexec
        exact .refl _
      · cases hexec
        exact .refl _
  | _ =>
      have hsame : t.jobs = s.jobs := congrArg Books.jobs (Action.exec_books (by trivial) hexec)
      rw [hsame]
      exact .refl _

end NeuralMesh
