import NeuralMesh.Base.Cursor
import NeuralMesh.Base.Http

/-!
# Following the output of a job

The loop of `stream_logs` in `cli/src/commands/job.rs` with `--follow`, one turn at a time.
-/

namespace NeuralMesh.Cli

structure LogsResponse where
  jobId : String
  output : String
  isComplete : Bool

/-- The members have their types, and `is_complete` may be missing. -/
def LogsResponse.ofJson (body : Json) : Option LogsResponse := do
  let jobId ← (body.index "job_id").asStr
  let output ← (body.index "output").asStr
  let isComplete ←
    match body.get? "is_complete" with
    | none => some false
    | some (.bool isComplete) => some isComplete
    | some _ => none
  return ⟨jobId, output, isComplete⟩

/-- The variables of the loop, what it printed of the output, and how it ended. -/
structure Follow where
  offset : Nat
  printed : String
  ended : Option (Except String Unit)

def Follow.start : Follow := ⟨0, "", none⟩

/-- What a turn does with the response; `none` stands for an error of the transfer. -/
def streamLogs (jobId : String) (resp : Option Reply) (f : Follow) : Follow :=
  match resp with
  | some r =>
      if r.status = .ok then
        match LogsResponse.ofJson r.body with
        | some logs =>
            let f :=
              if logs.output.isEmpty then f
              else
                { f with
                  printed := f.printed ++ logs.output
                  offset := f.offset + byteLength logs.output }
            if logs.isComplete then { f with ended := some (.ok ()) } else f
        | none => f
      else if r.status = .notFound then
        { f with ended := some (.error ("Job not found: " ++ jobId)) }
      else f
  | none => f

/-- No response, one that reports another failure, or one that cannot be read. -/
def Fails (resp : Option Reply) : Prop :=
  ∀ r ∈ resp, r.status ≠ .notFound ∧ (r.status = .ok → LogsResponse.ofJson r.body = none)

/-- A poll that fails is made again. -/
theorem streamLogs_of_fails {resp : Option Reply} (hfails : Fails resp) (jobId : String)
    (f : Follow) : streamLogs jobId resp f = f := by
  cases resp with
  | none => rfl
  | some r =>
      obtain ⟨hfound, hunread⟩ := hfails r rfl
      rw [streamLogs]
      dsimp only
      by_cases hok : r.status = .ok
      · rw [if_pos hok, hunread hok]
      · rw [if_neg hok, if_neg hfound]

theorem streamLogs_notFound (jobId : String) (f : Follow) :
    streamLogs jobId (some (.error .notFound)) f =
      { f with ended := some (.error ("Job not found: " ++ jobId)) } := rfl

/-- A turn with an answer of the handler prints the output and goes on behind it. -/
theorem streamLogs_answer (jobId output : String) (isComplete : Bool) (next : Json) (f : Follow) :
    streamLogs jobId
        (some (.json
          [("job_id", .str jobId), ("output", .str output), ("is_complete", .bool isComplete),
            ("offset", next)])) f =
      { offset := f.offset + byteLength output
        printed := f.printed ++ output
        ended := if isComplete then some (.ok ()) else f.ended } := by
  have hread : LogsResponse.ofJson
      (.obj [("job_id", .str jobId), ("output", .str output), ("is_complete", .bool isComplete),
        ("offset", next)]) = some ⟨jobId, output, isComplete⟩ := rfl
  rw [streamLogs]
  simp only [Reply.json, if_true, hread]
  cases hempty : output.isEmpty with
  | true =>
      have houtput : output = "" := String.isEmpty_iff.mp hempty
      cases isComplete <;> simp [houtput, byteLength, utf8]
  | false => cases isComplete <;> rfl

end NeuralMesh.Cli
