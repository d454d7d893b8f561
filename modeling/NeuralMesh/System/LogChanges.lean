import NeuralMesh.Coordinator.Logs
import NeuralMesh.System.Constraints
import NeuralMesh.System.Operation

/-!
# How the output of a job changes

Between two polls of a reader there may be appends, any statements of any requests of the two
services, and time.
-/

namespace NeuralMesh

open Coordinator

inductive LogDb.Changes (s : LogDb) : LogDb → Prop
  | append (jobId : JobId) (output : String) : Changes s (appendJobLog jobId output s).2
  | statement {q : Action} {a : q.Answer} {db : Db} (hexec : q.exec s.db = some (a, db)) :
      Changes s (s.withDb db fun _ => Action.exec_job_isSome hexec)
  | idle {db : Db} (hshuffled : s.db.Shuffled db) :
      Changes s (s.withDb db fun jobId hrow => by rwa [← hshuffled.jobs.get?_eq jobId])

/-- Nothing is ever taken from an output. -/
theorem LogDb.Changes.fullLog {s t : LogDb} (hchanges : s.Changes t) (k : JobId) :
    ∃ more, t.fullLog k = s.fullLog k ++ more := by
  cases hchanges with
  | append jobId output =>
      simp only [appendJobLog]
      split
      · exact ⟨"", String.append_empty.symm⟩
      · split
        · exact ⟨"", String.append_empty.symm⟩
        · rw [LogDb.fullLog_append]
          split
          · rename_i h
            exact ⟨output, by rw [h.1]⟩
          · exact ⟨"", String.append_empty.symm⟩
  | statement _ => exact ⟨"", String.append_empty.symm⟩
  | idle _ => exact ⟨"", String.append_empty.symm⟩

theorem LogDb.Changes.exists_job {s t : LogDb} (hchanges : s.Changes t) {k : JobId}
    (hjob : (s.db.jobs.get? k).isSome) : (t.db.jobs.get? k).isSome := by
  cases hchanges with
  | append jobId output =>
      simp only [appendJobLog]
      split
      · exact hjob
      · split <;> exact hjob
  | statement hexec => exact Action.exec_job_isSome hexec hjob
  | idle hshuffled => exact hshuffled.jobs.get?_eq k ▸ hjob

/-- A job in progress that has no output yet. -/
def quietJob : LogDb := ⟨afterAll assigned Db.init, fun _ => none, nofun⟩

end NeuralMesh
