import NeuralMesh.Coordinator.Rest

/-!
# Checkpoints of a session

`spawn_checkpoint_ticker` of `agent/src/checkpoint.rs` and the clocks of `JobRunner` in
`agent/src/job_runner.rs`. A clock reading counts nanoseconds.
-/

namespace NeuralMesh.Agent

abbrev Instant := Nat

/-- `Duration::as_secs` of the time from one reading to another, which is zero when they go
backwards. -/
def asSecs (earlier later : Instant) : Nat := (later - earlier) / 10 ^ 9

structure CheckpointMeta where
  jobId : String
  iteration : Nat
  checkpointDir : String
  elapsedSecs : Nat
  coordPort : Nat
  dmtcpFiles : List String

/-- The body that `report_checkpoint_to_coordinator` posts. -/
def CheckpointMeta.report (providerId : String) (snapshot : CheckpointMeta) :
    Coordinator.CheckpointBody where
  providerId := providerId
  iteration := snapshot.iteration
  elapsedSecs := snapshot.elapsedSecs
  checkpointDir := snapshot.checkpointDir
  dmtcpFiles := snapshot.dmtcpFiles

/-- What `fetch_checkpoint_meta` reads from the coordinator's reply about a row. -/
def CheckpointMeta.ofRow (row : JobCheckpoint) : CheckpointMeta where
  jobId := row.jobId
  iteration := row.iteration.toNat
  checkpointDir := row.checkpointDir
  elapsedSecs := row.elapsedSecs.toNat
  coordPort := 0
  dmtcpFiles := row.dmtcpFiles

/-- A tick: when the clock was read, and the files of the checkpoint, unless the command, the
metadata or the report failed. -/
structure Tick where
  now : Instant
  dmtcpFiles : Option (List String)

/-- The variables of the ticker's loop. -/
structure Ticker where
  jobId : String
  coordPort : Nat
  checkpointDir : String
  iteration : Nat
  startedAt : Instant

namespace Ticker

/-- The loop's body; the number is taken whether or not a checkpoint is made. -/
def tick (t : Ticker) (tick : Tick) : Ticker × Option CheckpointMeta :=
  let t := { t with iteration := t.iteration + 1 }
  (t, tick.dmtcpFiles.map fun dmtcpFiles =>
    { jobId := t.jobId
      iteration := t.iteration
      checkpointDir := t.checkpointDir
      elapsedSecs := asSecs t.startedAt tick.now
      coordPort := t.coordPort
      dmtcpFiles })

/-- The checkpoints of a sequence of ticks. -/
def run : Ticker → List Tick → List CheckpointMeta
  | _, [] => []
  | t, now :: ticks => (t.tick now).2.toList ++ run (t.tick now).1 ticks

end Ticker

/-- `spawn_checkpoint_ticker`, with the clock read after the first tick. -/
def spawnCheckpointTicker (jobId : String) (coordPort : Nat) (checkpointDir : String)
    (startedAt : Instant) : Ticker :=
  ⟨jobId, coordPort, checkpointDir, 0, startedAt⟩

/-- The `actual_runtime_s` that `run_sandboxed` returns. -/
def runSandboxed (start now : Instant) (exitCode : Int) : Except String Nat :=
  let actualRuntimeS := asSecs start now
  if exitCode ≠ 0 then .error ("Job exited with code " ++ toString exitCode)
  else .ok actualRuntimeS

/-- The `actual_runtime_s` that `run_restore` returns. -/
def runRestore (fetched : CheckpointMeta) (start now : Instant) (exitCode : Int) :
    Except String Nat :=
  let actualRuntimeS := asSecs start now + fetched.elapsedSecs
  if exitCode ≠ 0 then .error ("Restored job exited with code " ++ toString exitCode)
  else .ok actualRuntimeS

end NeuralMesh.Agent
