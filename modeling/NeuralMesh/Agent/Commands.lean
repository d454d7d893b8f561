import NeuralMesh.Agent.JobTask
import NeuralMesh.Base.Noted

/-!
# The commands of a job

The programs that `agent/src/job_runner.rs` and `agent/src/checkpoint.rs` start for a job, in their
order, with the arguments and the directory they are given. Their environment is left out, and so are
the helper of the virtual machine and what is only asked whether it is installed.
-/

namespace NeuralMesh.Agent

structure Command where
  program : String
  args : List String
  /-- `current_dir`, where it is set. -/
  currentDir : Option Path
  deriving DecidableEq

/-- An entry is made once the program was started. -/
abbrev CommandM := Recording RunError Site Command

open Recording (silently note)

/-- `DmtcpSession::derive_port` -/
def derivePort (jobId : String) : Nat :=
  7780 + ((utf8 jobId).foldl (fun hash b => hash + b.toUInt16) (0 : UInt16)).toNat % 200

/-- `resolve_python`; `which` says whether a program is installed. -/
def resolvePython (which : String → Bool) (pythonPrefix : String) (files : FileSystem) : String :=
  let versioned := ["python3.12", "python3.13", "python3.11", "python3"]
  let inPrefix := (versioned.map fun py => pythonPrefix ++ "/bin/" ++ py).find? fun bin =>
    files.reaches (Path.ofString bin)
  ((inPrefix <|> versioned.find? which).getD "python3")

/-- The `curl` of `download_bundle`. -/
def curlCommand (jobId url : String) : Command where
  program := "curl"
  args := ["-fsSL", "--max-time", "300", "-o", (bundlePath jobId).display, url]
  currentDir := none

/-- The `tar` of `extract_bundle`. -/
def tarCommand (jobId : String) : Command where
  program := "tar"
  args := ["-xzf", (bundlePath jobId).display, "-C", (workDir jobId).display]
  currentDir := none

/-- What `sandbox-exec` is given for a script. -/
def sandboxArgs (jobId pythonBin : String) (entryScript : Path) : List String :=
  ["-f", (profilePath jobId).display, pythonBin, entryScript.display]

def sandboxCommand (jobId pythonBin : String) (entryScript : Path) : Command where
  program := "sandbox-exec"
  args := sandboxArgs jobId pythonBin entryScript
  currentDir := some (workDir jobId)

/-- The `dmtcp_launch` of `DmtcpSession::launch`. -/
def launchCommand (jobId pythonBin : String) (entryScript : Path) : Command where
  program := "dmtcp_launch"
  args :=
    ["--new-coordinator", "--coord-port", toString (derivePort jobId),
      "--ckptdir", (checkpointDir ++ [jobId]).display, "--no-gzip", "--interval", "0", "--",
      "sandbox-exec"] ++ sandboxArgs jobId pythonBin entryScript
  currentDir := some (workDir jobId)

/-- The `dmtcp_restart` of `DmtcpSession::restore`, which is given the files that were found. -/
def restartCommand (fetched : CheckpointMeta) (jobId : String) (found : List String) : Command where
  program := "dmtcp_restart"
  args :=
    ["--new-coordinator", "--coord-port",
      toString (if fetched.coordPort > 0 then fetched.coordPort else derivePort fetched.jobId)] ++
      found
  currentDir := some (workDir jobId)

/-- The names of a snapshot's files, as they are looked for and passed on. -/
def CheckpointMeta.filePaths (fetched : CheckpointMeta) : List String :=
  fetched.dmtcpFiles.map (Path.pushText fetched.checkpointDir)

/-- Those of them that are on the disk. -/
def CheckpointMeta.found (fetched : CheckpointMeta) (files : FileSystem) : List String :=
  fetched.filePaths.filter fun file => files.reaches (Path.ofString file)

namespace JobCommands

variable (h : Host)

/-- `Command::spawn` with its context. -/
def spawn (command : Command) (context : String) : CommandM Unit := do
  (silently (onDisk h.spawn)).withContext (.text context)
  note command

/-- `DmtcpSession::restore` -/
def restore (fetched : CheckpointMeta) (jobId : String) : CommandM Unit := do
  if fetched.dmtcpFiles.isEmpty then
    throw (.text ("No .dmtcp files recorded in checkpoint metadata for job " ++ fetched.jobId))
  let found := fetched.found (← get).state.disk.files
  if found.isEmpty then
    throw (.text ("Checkpoint files not found on disk for job " ++ fetched.jobId ++
      ". Expected them in " ++ fetched.checkpointDir))
  silently (JobTask.openLogStdio h jobId)
  spawn h (restartCommand fetched jobId found) "dmtcp_restart spawn"

/-- `run_restore` -/
def runRestore (spec : JobSpec) : CommandM JobResult := do
  let jobId := h.showUuid spec.jobId
  if !h.dmtcpAvailable then
    throw (.text ("Job " ++ jobId ++
      " needs DMTCP restore but dmtcp_launch is not available on this machine"))
  let fetched ← (Fallible.ofExcept h.fetchCheckpointMeta).withContext
    (.text "Could not fetch checkpoint metadata from coordinator")
  restore h fetched jobId
  let exitCode ← silently (JobTask.waitWithTicker h)
  if exitCode = 0 then silently (onDisk (DmtcpSession.cleanup h.toMachine jobId))
  let outputHash ← silently (onDisk (h.outputHash jobId))
  let actualRuntimeS ← Fallible.ofExcept
    ((Agent.runRestore fetched h.start h.now exitCode).mapError RunError.text)
  return {
    jobId := spec.jobId
    exitCode := exitCode
    outputHash := outputHash
    actualRuntimeS := actualRuntimeS
    avgGpuUtilPct := 0
    peakRamGb := spec.minRamGb.toNat }

/-- `download_bundle` once `curl` was started. -/
def keepDownload (jobId url expectedHash : String) : TaskM Unit :=
  match h.curl url with
  | none => do
      match h.partialDownload with
      | some received => (onDisk (change .io (·.write (bundlePath jobId) received))).ignoreError
      | none => pure ()
      throw (.text ("curl failed downloading bundle from " ++ url))
  | some content => do
      onDisk (change (.text ("curl failed downloading bundle from " ++ url))
        (·.write (bundlePath jobId) content))
      if !expectedHash.isEmpty then
        h.step .readBundle .io some
        if h.sha256 content ≠ expectedHash then
          (h.step .dropBundle .io (·.removeFile (bundlePath jobId))).ignoreError
          throw (.text ("Bundle hash mismatch: expected " ++ expectedHash ++ ", got " ++
            h.sha256 content))

/-- `download_bundle` -/
def downloadBundle (jobId url expectedHash : String) : CommandM Unit := do
  silently (h.step .baseDir .io (·.createDirAll ["tmp", "neuralmesh"]))
  if h.refuses .curl then throw (.text "curl download")
  note (curlCommand jobId url)
  silently (keepDownload h jobId url expectedHash)

/-- `extract_bundle` -/
def extractBundle (jobId : String) : CommandM Unit := do
  if h.refuses .tar then throw (.text "tar extraction")
  note (tarCommand jobId)
  silently (onDisk (change (.text "tar failed extracting bundle") fun files =>
    (files.read (bundlePath jobId)).bind fun content => h.tar content (workDir jobId) files))

/-- `run_direct` -/
def runDirect (jobId pythonBin : String) (entryScript : Path) : CommandM Int := do
  silently (h.step .log (.text ("Creating log file at " ++ (logPath jobId).display))
    (·.write (logPath jobId) []))
  spawn h (sandboxCommand jobId pythonBin entryScript) "Failed to spawn sandbox-exec"
  silently (onDisk h.wait)

/-- `run_with_dmtcp` -/
def runWithDmtcp (jobId pythonBin : String) (entryScript : Path) : CommandM Int := do
  silently (h.step .checkpointDir .io (·.createDirAll (checkpointDir ++ [jobId])))
  silently (JobTask.openLogStdio h jobId)
  spawn h (launchCommand jobId pythonBin entryScript) "dmtcp_launch spawn"
  silently (JobTask.waitWithTicker h)

variable (which : String → Bool) (pythonPrefix : String)

/-- `run_sandboxed` -/
def runSandboxed (spec : JobSpec) (entryScript : Path) : CommandM JobResult := do
  let jobId := h.showUuid spec.jobId
  silently (JobTask.newSandbox h jobId)
  let pythonBin := resolvePython which pythonPrefix (← get).state.disk.files
  modify fun w => { w with state := { w.state with samplerRuns := true } }
  let exitCode ←
    if h.dmtcpAvailable then runWithDmtcp h jobId pythonBin entryScript
    else runDirect h jobId pythonBin entryScript
  modify fun w => { w with state := { w.state with samplerRuns := false } }
  let outputHash ← silently (onDisk (h.outputHash jobId))
  if exitCode = 0 then silently (onDisk (DmtcpSession.cleanup h.toMachine jobId))
  silently (JobTask.cleanupSandbox h jobId).ignoreError
  let actualRuntimeS ← Fallible.ofExcept
    ((Agent.runSandboxed h.start h.now exitCode).mapError RunError.text)
  return {
    jobId := spec.jobId
    exitCode := exitCode
    outputHash := outputHash
    actualRuntimeS := actualRuntimeS
    avgGpuUtilPct := h.gpuSamples.sum / h.gpuSamples.length
    peakRamGb := h.peakRamGb }

/-- `JobRunner::run` -/
def run (spec : JobSpec) : CommandM JobResult := do
  let jobId := h.showUuid spec.jobId
  if spec.bundleUrl.isEmpty ∧ spec.checkpointUrl.isNone then
    throw (.text "Job has neither bundle_url nor checkpoint_url — cannot execute")
  silently (h.step .workDir .io (·.createDirAll (workDir jobId)))
  if spec.checkpointUrl.isSome then
    runRestore h spec
  else
    downloadBundle h jobId spec.bundleUrl spec.bundleHash
    extractBundle h jobId
    silently (h.step .removeBundle .io (·.removeFile (bundlePath jobId))).ignoreError
    let entryScript ← silently (onDisk (JobRunner.entryScript h.toMachine spec))
    match h.vm with
    | some (.ok vmRun) => silently (JobTask.runInVm h vmRun spec)
    | _ => runSandboxed h which pythonPrefix spec entryScript

end JobCommands

/-! ### The task without its commands -/

theorem isEmpty_found {fetched : CheckpointMeta} {files : FileSystem} :
    (fetched.found files).isEmpty = (fetched.dmtcpFiles.filter fun name =>
      files.reaches ((Path.ofString fetched.checkpointDir).join name)).isEmpty := by
  rw [CheckpointMeta.found, CheckpointMeta.filePaths, List.filter_map, List.isEmpty_map]
  refine congrArg List.isEmpty (List.filter_congr fun name _ => ?_)
  rw [Function.comp_apply, Path.ofString_pushText]

namespace JobCommands

variable {h : Host} {jobId : String} {spec : JobSpec} {which : String → Bool}
  {pythonPrefix pythonBin : String} {entryScript : Path}

theorem imitates_spawn {command : Command} {context : String} :
    Imitates Noted.state (onDisk h.spawn) (spawn h command context) :=
  ((Imitates.silently _).withContext _).then_note

theorem imitates_restore {fetched : CheckpointMeta} :
    Imitates Noted.state (JobTask.restore h fetched jobId) (restore h fetched jobId) := by
  refine Imitates.ite (fun _ => (Imitates.throw _ _).bind fun _ => ?_) fun _ => ?_
  all_goals
    refine Imitates.get_bind fun w => ?_
    dsimp only
    rw [isEmpty_found]
    refine Imitates.ite (fun _ => (Imitates.throw _ _).bind fun _ => ?_) fun _ => ?_
  all_goals exact (Imitates.silently _).bind fun _ => imitates_spawn

theorem imitates_runRestore :
    Imitates Noted.state (JobTask.runRestore h spec) (runRestore h spec) := by
  refine Imitates.ite (fun _ => (Imitates.throw _ _).bind fun _ => ?_) fun _ => ?_
  all_goals
    refine (Imitates.ofExcept_withContext _ _).bind fun fetched => imitates_restore.bind fun _ => ?_
    refine (Imitates.silently _).bind fun exitCode => ?_
    refine Imitates.ite (fun _ => (Imitates.silently _).bind fun _ => ?_) fun _ => ?_
  all_goals
    refine (Imitates.silently _).bind fun outputHash => ?_
    exact (Imitates.ofExcept _).bind fun _ => Imitates.pure _

theorem imitates_downloadBundle {url expectedHash : String} :
    Imitates Noted.state (JobTask.downloadBundle h jobId url expectedHash)
      (downloadBundle h jobId url expectedHash) := by
  refine (Imitates.silently _).bind fun _ => ?_
  refine Imitates.ite (fun _ => (Imitates.throw _ _).bind fun _ => ?_) fun _ => ?_
  all_goals exact Imitates.note_bind (Imitates.silently (keepDownload h jobId url expectedHash))

theorem imitates_extractBundle :
    Imitates Noted.state (JobTask.extractBundle h jobId) (extractBundle h jobId) := by
  refine Imitates.ite (fun _ => (Imitates.throw _ _).bind fun _ => ?_) fun _ => ?_
  all_goals exact Imitates.note_bind (Imitates.silently _)

theorem imitates_runDirect :
    Imitates Noted.state (JobTask.runDirect h jobId)
      (runDirect h jobId pythonBin entryScript) :=
  (Imitates.silently _).bind fun _ => imitates_spawn.bind fun _ => Imitates.silently _

theorem imitates_runWithDmtcp :
    Imitates Noted.state (JobTask.runWithDmtcp h jobId)
      (runWithDmtcp h jobId pythonBin entryScript) :=
  (Imitates.silently _).bind fun _ => (Imitates.silently _).bind fun _ =>
    imitates_spawn.bind fun _ => Imitates.silently _

theorem imitates_runSandboxed :
    Imitates Noted.state (JobTask.runSandboxed h spec)
      (runSandboxed h which pythonPrefix spec entryScript) := by
  refine (Imitates.silently _).bind fun _ => Imitates.read_bind fun w => Imitates.change_bind ?_
  refine Imitates.ite (fun _ => imitates_runWithDmtcp.bind fun exitCode => ?_)
    fun _ => imitates_runDirect.bind fun exitCode => ?_
  all_goals
    refine Imitates.change_bind ((Imitates.silently _).bind fun outputHash => ?_)
    refine Imitates.ite (fun _ => (Imitates.silently _).bind fun _ => ?_) fun _ => ?_
  all_goals
    refine (Imitates.silently _).bind fun _ => ?_
    exact (Imitates.ofExcept _).bind fun _ => Imitates.pure _

/-- Beside its commands it does what the task does; the errors may read differently. -/
theorem imitates_run :
    Imitates Noted.state (JobTask.run h spec) (run h which pythonPrefix spec) := by
  refine Imitates.ite (fun _ => (Imitates.throw _ _).bind fun _ => ?_) fun _ => ?_
  all_goals
    refine (Imitates.silently _).bind fun _ => Imitates.ite (fun _ => imitates_runRestore) fun _ => ?_
    refine imitates_downloadBundle.bind fun _ => imitates_extractBundle.bind fun _ => ?_
    refine (Imitates.silently _).bind fun _ => (Imitates.silently _).bind fun entryScript => ?_
    rcases h.vm with _ | _ | vmRun
    · exact imitates_runSandboxed
    · exact imitates_runSandboxed
    · exact Imitates.silently _

end JobCommands

end NeuralMesh.Agent
