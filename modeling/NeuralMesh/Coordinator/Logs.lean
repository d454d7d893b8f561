import NeuralMesh.Base.Cursor
import NeuralMesh.Base.Http
import NeuralMesh.Store.Action

/-!
# The output of a job

`get_job_logs` and `append_job_log` of `coordinator/src/api/rest.rs`. The column `output_log` of
`jobs` is used by these two alone, so it is kept beside the database.
-/

namespace NeuralMesh

/-- The database with the column; only a row has a value in it. -/
structure LogDb where
  db : Db
  outputLog : JobId → Option String
  outputLog_row : ∀ jobId, (outputLog jobId).isSome → (db.jobs.get? jobId).isSome

namespace LogDb

/-- The whole output of a job. -/
def fullLog (s : LogDb) (jobId : JobId) : String := (s.outputLog jobId).getD ""

/-- `SET output_log = COALESCE(output_log, '') || $1 WHERE job_id = $2` -/
def append (s : LogDb) (jobId : JobId) (output : String) : LogDb where
  db := s.db
  outputLog :=
    if (s.db.jobs.get? jobId).isSome then
      Function.update s.outputLog jobId (some (s.fullLog jobId ++ output))
    else s.outputLog
  outputLog_row := by
    intro k hsome
    split at hsome
    · rename_i hjob
      by_cases hk : k = jobId
      · rw [hk]
        exact hjob
      · rw [Function.update_of_ne hk] at hsome
        exact s.outputLog_row k hsome
    · exact s.outputLog_row k hsome

/-- The other columns and tables change, and no job is removed. -/
def withDb (s : LogDb) (db : Db)
    (hrows : ∀ jobId, (s.db.jobs.get? jobId).isSome → (db.jobs.get? jobId).isSome) : LogDb where
  db := db
  outputLog := s.outputLog
  outputLog_row jobId hsome := hrows jobId (s.outputLog_row jobId hsome)

/-- An append extends the output of a job that is there. -/
theorem fullLog_append (s : LogDb) (jobId k : JobId) (output : String) :
    (s.append jobId output).fullLog k =
      if k = jobId ∧ (s.db.jobs.get? jobId).isSome then s.fullLog jobId ++ output
      else s.fullLog k := by
  rw [fullLog, append]
  dsimp only
  by_cases hjob : (s.db.jobs.get? jobId).isSome
  · rw [if_pos hjob, Function.update_apply]
    by_cases hk : k = jobId
    · rw [if_pos hk, if_pos ⟨hk, hjob⟩]
      rfl
    · rw [if_neg hk, if_neg fun h => hk h.1]
      rfl
  · rw [if_neg hjob, if_neg fun h => hjob h.2]
    rfl

/-- Only the output of a job can be non-empty. -/
theorem fullLog_of_none {s : LogDb} {jobId : JobId} (hjob : s.db.jobs.get? jobId = none) :
    s.fullLog jobId = "" := by
  cases hlog : s.outputLog jobId with
  | none => rw [fullLog, hlog, Option.getD_none]
  | some text =>
      have hrow := s.outputLog_row jobId (by rw [hlog]; rfl)
      rw [hjob] at hrow
      cases hrow

end LogDb

namespace Coordinator

/-- Answers `none` where the handler panics. -/
def getJobLogs (jobId : JobId) (offset : Option Nat) (s : LogDb) : Option Reply :=
  let offset := offset.getD 0
  match s.db.jobs.get? jobId with
  | none => some (.error .notFound)
  | some job =>
      let isComplete := job.state.isTerminal
      let fullLog := s.fullLog jobId
      match if offset < byteLength fullLog then sliceFrom fullLog offset else some "" with
      | none => none
      | some output =>
          some (.json
            [("job_id", .str jobId),
              ("output", .str output),
              ("is_complete", .bool isComplete),
              ("offset", .int (offset + byteLength output))])

/-- PostgreSQL refuses a text with a NUL. -/
def appendJobLog (jobId : JobId) (output : String) (s : LogDb) : Reply × LogDb :=
  if output.isEmpty then (.json [("ok", .bool true), ("appended", .int 0)], s)
  else if output.toList.contains '\x00' then (.error .internalServerError, s)
  else (.json [("ok", .bool true), ("appended", .int (byteLength output))], s.append jobId output)

/-- The handler panics where there is no text from the position on. -/
theorem getJobLogs_of_job {jobId : JobId} {s : LogDb} {job : Job} (offset : Nat)
    (hjob : s.db.jobs.get? jobId = some job) :
    getJobLogs jobId (some offset) s =
      (restFrom Char.utf8Size offset (s.fullLog jobId).toList).map fun rest =>
        .json
          [("job_id", .str jobId),
            ("output", .str (String.ofList rest)),
            ("is_complete", .bool job.state.isTerminal),
            ("offset", .int (offset + byteLength (String.ofList rest)))] := by
  rw [getJobLogs, hjob]
  dsimp only [Option.getD_some]
  rw [sliceFrom_eq]
  cases restFrom Char.utf8Size offset (s.fullLog jobId).toList <;> rfl

theorem getJobLogs_of_none {jobId : JobId} {s : LogDb} (offset : Option Nat)
    (hjob : s.db.jobs.get? jobId = none) :
    getJobLogs jobId offset s = some (.error .notFound) := by
  rw [getJobLogs, hjob]

end Coordinator

end NeuralMesh
