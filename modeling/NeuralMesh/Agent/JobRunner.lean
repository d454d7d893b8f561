import NeuralMesh.Agent.Checkpoint
import NeuralMesh.Agent.DownloadBundle
import NeuralMesh.Agent.PollForJob
import NeuralMesh.Base.Fallible
import NeuralMesh.Base.Paths

/-!
# The files of a job

`JobRunner` of `agent/src/job_runner.rs` with the sandbox of `macos/src/sandbox.rs` and the session
of `agent/src/checkpoint.rs`, as far as they touch files, and `push_final_log` of
`agent/src/idle_monitor.rs`. The virtual machine is left out: what is modelled runs where there is
none, and after it has failed.
-/

namespace NeuralMesh.Agent

/-- An error of the operating system, or one with a text. -/
inductive RunError where
  | io
  | text (message : String)
  deriving DecidableEq

structure JobResult where
  jobId : Uuid
  exitCode : Int
  outputHash : String
  actualRuntimeS : Nat
  avgGpuUtilPct : ℚ
  peakRamGb : Nat

/-- What the machine and the coordinator do while a job runs. -/
structure Machine where
  showUuid : Uuid → String
  sha256 : Bytes → String
  curl : String → Option Bytes
  /-- `tar -xzf` of an archive into a directory. -/
  tar : Bytes → Path → FileSystem → Option FileSystem
  readDir : FileSystem → Path → List String
  generateProfile : Bytes
  dmtcpAvailable : Bool
  fetchCheckpointMeta : Except RunError CheckpointMeta
  /-- Why the process cannot be started once its log is open, if it cannot. -/
  spawnError : Option RunError
  /-- What becomes of the files until the process is waited for. -/
  process : FileSystem → FileSystem
  /-- `child.wait()`, with the code if there is one. -/
  exit : Except RunError (Option Int)
  /-- What `remove_dir_all` leaves behind when it fails. -/
  stuck : List Path
  start : Instant
  now : Instant
  gpuSamples : List ℚ
  peakRamGb : Nat

/-- `atExit` keeps the files as the process left them; no step reads it. -/
structure Disk where
  files : FileSystem
  atExit : Option FileSystem

abbrev JobM := Fallible RunError Disk

def workDir (jobId : String) : Path := ["tmp", "neuralmesh", jobId]

def logPath (jobId : String) : Path := workDir jobId ++ ["nm-output.log"]

def profilePath (jobId : String) : Path := ["tmp", "neuralmesh", jobId ++ ".sb"]

def bundlePath (jobId : String) : Path := ["tmp", "neuralmesh", "bundle-" ++ jobId ++ ".tar.gz"]

/-- `CHECKPOINT_DIR` -/
def checkpointDir : Path := ["var", "neuralmesh", "checkpoints"]

/-- A step that fails with this error. -/
def change (error : RunError) (step : FileSystem → Option FileSystem) : JobM Unit := do
  match step (← get).files with
  | some files => modify fun d => { d with files := files }
  | none => throw error

theorem outcome_change {error : RunError} {f : FileSystem → Option FileSystem} (d : Disk) :
    (change error f).outcome d =
      match f d.files with
      | some files => (.ok (), { d with files := files })
      | none => (.error error, d) := by
  rw [change, Fallible.outcome_bind]
  change (match f d.files with
    | some files => (modify fun d => { d with files := files } : JobM Unit)
    | none => throw error : JobM Unit).outcome d = _
  cases f d.files <;> rfl

def removeDirAll (m : Machine) (p : Path) : JobM Unit := do
  let removed := (← get).files.removeDirAll m.stuck p
  modify fun d => { d with files := removed.1 }
  if removed.2 then pure () else throw .io

/-- `SandboxProfile::new` -/
def SandboxProfile.new (m : Machine) (jobId : String) : JobM Unit := do
  change .io (·.createDirAll (workDir jobId))
  change .io (·.write (profilePath jobId) m.generateProfile)

/-- `SandboxProfile::cleanup` -/
def SandboxProfile.cleanup (m : Machine) (jobId : String) : JobM Unit := do
  if (← get).files.pathExists (workDir jobId) then removeDirAll m (workDir jobId)
  if (← get).files.pathExists (profilePath jobId) then change .io (·.removeFile (profilePath jobId))

/-- `DmtcpSession::cleanup` -/
def DmtcpSession.cleanup (m : Machine) (jobId : String) : JobM Unit := do
  if (← get).files.pathExists (checkpointDir ++ [jobId]) then
    (removeDirAll m (checkpointDir ++ [jobId])).ignoreError

namespace Machine

variable (m : Machine)

def spawn : JobM Unit :=
  match m.spawnError with
  | some error => throw error
  | none => pure ()

/-- The process runs until it is waited for. -/
def wait : JobM Int := do
  modify fun d => ⟨m.process d.files, some (m.process d.files)⟩
  let code ← Fallible.ofExcept m.exit
  return code.getD (-1)

/-- The hash of the log, or of nothing. -/
def outputHash (jobId : String) : JobM String := do
  let files := (← get).files
  return m.sha256 (if files.pathExists (logPath jobId) then (files.read (logPath jobId)).getD []
    else [])

end Machine

/-- `open_log_stdio` -/
def openLogStdio (jobId : String) : JobM Unit :=
  change (.text ("Creating job log file at " ++ (logPath jobId).display))
    (·.openAppend (logPath jobId))

/-- `DmtcpSession::restore` -/
def DmtcpSession.restore (m : Machine) (fetched : CheckpointMeta) (jobId : String) : JobM Unit := do
  if fetched.dmtcpFiles.isEmpty then
    throw (.text ("No .dmtcp files recorded in checkpoint metadata for job " ++ fetched.jobId))
  let files := (← get).files
  let found := fetched.dmtcpFiles.filter fun name =>
    files.reaches ((Path.ofString fetched.checkpointDir).join name)
  if found.isEmpty then
    throw (.text ("Checkpoint files not found on disk for job " ++ fetched.jobId ++
      ". Expected them in " ++ fetched.checkpointDir))
  openLogStdio jobId
  m.spawn

namespace JobRunner

variable (m : Machine)

/-- `run_direct`: the log is truncated. -/
def runDirect (jobId : String) : JobM Int := do
  change (.text ("Creating log file at " ++ (logPath jobId).display)) (·.write (logPath jobId) [])
  m.spawn
  m.wait

/-- `run_with_dmtcp`: the log is appended to. -/
def runWithDmtcp (jobId : String) : JobM Int := do
  change .io (·.createDirAll (checkpointDir ++ [jobId]))
  openLogStdio jobId
  m.spawn
  m.wait

/-- `run_sandboxed` -/
def runSandboxed (spec : JobSpec) : JobM JobResult := do
  let jobId := m.showUuid spec.jobId
  SandboxProfile.new m jobId
  let exitCode ← if m.dmtcpAvailable then runWithDmtcp m jobId else runDirect m jobId
  let outputHash ← m.outputHash jobId
  if exitCode = 0 then DmtcpSession.cleanup m jobId
  (SandboxProfile.cleanup m jobId).ignoreError
  let actualRuntimeS ← Fallible.ofExcept
    ((Agent.runSandboxed m.start m.now exitCode).mapError RunError.text)
  return {
    jobId := spec.jobId
    exitCode := exitCode
    outputHash := outputHash
    actualRuntimeS := actualRuntimeS
    avgGpuUtilPct := m.gpuSamples.sum / m.gpuSamples.length
    peakRamGb := m.peakRamGb }

/-- `run_restore` -/
def runRestore (spec : JobSpec) : JobM JobResult := do
  let jobId := m.showUuid spec.jobId
  if !m.dmtcpAvailable then
    throw (.text ("Job " ++ jobId ++
      " needs DMTCP restore but dmtcp_launch is not available on this machine"))
  let fetched ← Fallible.ofExcept m.fetchCheckpointMeta
  DmtcpSession.restore m fetched jobId
  let exitCode ← m.wait
  if exitCode = 0 then DmtcpSession.cleanup m jobId
  let outputHash ← m.outputHash jobId
  let actualRuntimeS ← Fallible.ofExcept
    ((Agent.runRestore fetched m.start m.now exitCode).mapError RunError.text)
  return {
    jobId := spec.jobId
    exitCode := exitCode
    outputHash := outputHash
    actualRuntimeS := actualRuntimeS
    avgGpuUtilPct := 0
    peakRamGb := spec.minRamGb.toNat }

def candidates : Runtime → List String
  | .shell => ["run.sh", "main.sh", "start.sh"]
  | _ => ["main.py", "inference.py", "train.py", "run.py", "script.py"]

/-- `find_entry_script` -/
def findEntryScript (files : FileSystem) (dir : Path) (runtime : Runtime) : Option Path :=
  match (candidates runtime).find? fun name => files.pathExists (dir.join name) with
  | some name => some (dir.join name)
  | none =>
      ((m.readDir files dir).find? fun name => name.endsWith ".py" ∧ name ≠ ".py").map dir.join

/-- The script the coordinator names, or one that is found. -/
def entryScript (spec : JobSpec) : JobM Path := do
  let files := (← get).files
  let dir := workDir (m.showUuid spec.jobId)
  let explicit := (spec.scriptName.map dir.join).filter fun script => files.reaches script
  match explicit <|> findEntryScript m files dir spec.runtime with
  | some script => return script
  | none => throw (.text "No runnable entry script found in bundle")

/-- `JobRunner::run` -/
def run (spec : JobSpec) : JobM JobResult := do
  let jobId := m.showUuid spec.jobId
  if spec.bundleUrl.isEmpty ∧ spec.checkpointUrl.isNone then
    throw (.text "Job has neither bundle_url nor checkpoint_url — cannot execute")
  change .io (·.createDirAll (workDir jobId))
  if spec.checkpointUrl.isSome then
    runRestore m spec
  else
    change .io (·.createDirAll ["tmp", "neuralmesh"])
    let content ← Fallible.ofExcept
      ((downloadBundle m.sha256 m.curl spec.bundleUrl spec.bundleHash).mapError RunError.text)
    change .io (·.write (bundlePath jobId) content)
    change (.text "tar failed extracting bundle") (m.tar content (workDir jobId))
    (change .io (·.removeFile (bundlePath jobId))).ignoreError
    let _ ← entryScript m spec
    runSandboxed m spec

end JobRunner

/-- `push_final_log`: the output that is posted, if any is. -/
def pushFinalLog (files : FileSystem) (jobId : String) : Option String :=
  (files.readToString (logPath jobId)).filter (· ≠ "")

/-- The task the loop spawns for a job, as far as it posts the log. -/
def task (m : Machine) (spec : JobSpec) (files : FileSystem) : Option String :=
  match (JobRunner.run m spec).outcome ⟨files, none⟩ with
  | (.ok result, d) => pushFinalLog d.files (m.showUuid result.jobId)
  | (.error _, d) => pushFinalLog d.files (m.showUuid spec.jobId)

end NeuralMesh.Agent
