import NeuralMesh.Agent.JobRunner

/-!
# The task of a job

The task that `IdleMonitor::run` of `agent/src/idle_monitor.rs` spawns for a job, with every step of
`agent/src/job_runner.rs` that can fail, the virtual machine of `macos/src/virt.rs`, and the tasks
that run beside it: the heartbeat, the sampler of the GPU and the checkpoint ticker. A task whose
handle is dropped goes on; only `abort` stops it.
-/

namespace NeuralMesh.Agent

/-- What the operating system may refuse, whatever the files are. -/
inductive OsStep where
  | workDir | baseDir | curl | readBundle | dropBundle | tar | removeBundle | sandboxDir | profile
  | checkpointDir | log | removeProfile
  deriving DecidableEq

/-- What comes out of `run_in_vm`, and what it makes of the files. -/
structure VmRun where
  exitCode : Int
  stdout : String
  stderr : String
  process : FileSystem → FileSystem

/-- The machine with its failures. `tar` is run in a directory and does not remove it. -/
structure Host extends Machine where
  refuses : OsStep → Bool
  /-- What a `curl` that fails has written. -/
  partialDownload : Option Bytes
  /-- `run_in_vm`, where it is available; it fails before the job is started in it. -/
  vm : Option (Except RunError VmRun)
  tar_keeps : ∀ content dir, FileSystem.KeepsDirs (tar content dir)

/-- The disk, and which of the tasks beside this one run. -/
structure Site where
  disk : Disk
  samplerRuns : Bool
  tickerRuns : Bool
  heartbeatRuns : Bool

abbrev TaskM := Fallible RunError Site

/-- A program that touches nothing but the disk. -/
def onDisk {α : Type} (x : JobM α) : TaskM α :=
  ExceptT.mk fun s => ((x.outcome s.disk).1, { s with disk := (x.outcome s.disk).2 })

namespace Host

variable (h : Host)

/-- A step on the files that the operating system may refuse. -/
def step (name : OsStep) (error : RunError) (f : FileSystem → Option FileSystem) : TaskM Unit :=
  if h.refuses name then throw error else onDisk (change error f)

end Host

namespace JobTask

variable (h : Host)

/-- `SandboxProfile::new` -/
def newSandbox (jobId : String) : TaskM Unit := do
  h.step .sandboxDir .io (·.createDirAll (workDir jobId))
  h.step .profile .io (·.write (profilePath jobId) h.generateProfile)

/-- `SandboxProfile::cleanup` -/
def cleanupSandbox (jobId : String) : TaskM Unit := do
  if (← get).disk.files.pathExists (workDir jobId) then
    onDisk (removeDirAll h.toMachine (workDir jobId))
  if (← get).disk.files.pathExists (profilePath jobId) then
    h.step .removeProfile .io (·.removeFile (profilePath jobId))

/-- `open_log_stdio` -/
def openLogStdio (jobId : String) : TaskM Unit :=
  h.step .log (.text ("Creating job log file at " ++ (logPath jobId).display))
    (·.openAppend (logPath jobId))

/-- `DmtcpSession::restore` -/
def restore (fetched : CheckpointMeta) (jobId : String) : TaskM Unit := do
  if fetched.dmtcpFiles.isEmpty then
    throw (.text ("No .dmtcp files recorded in checkpoint metadata for job " ++ fetched.jobId))
  let files := (← get).disk.files
  let found := fetched.dmtcpFiles.filter fun name =>
    files.reaches ((Path.ofString fetched.checkpointDir).join name)
  if found.isEmpty then
    throw (.text ("Checkpoint files not found on disk for job " ++ fetched.jobId ++
      ". Expected them in " ++ fetched.checkpointDir))
  openLogStdio h jobId
  onDisk h.spawn

/-- `run_direct` -/
def runDirect (jobId : String) : TaskM Int := do
  h.step .log (.text ("Creating log file at " ++ (logPath jobId).display))
    (·.write (logPath jobId) [])
  onDisk h.spawn
  onDisk h.wait

/-- From `spawn_checkpoint_ticker` to `ticker.abort()`, with the wait for the process between. -/
def waitWithTicker : TaskM Int := do
  modify fun s => { s with tickerRuns := true }
  let exitCode ← onDisk h.wait
  modify fun s => { s with tickerRuns := false }
  return exitCode

/-- `run_with_dmtcp` -/
def runWithDmtcp (jobId : String) : TaskM Int := do
  h.step .checkpointDir .io (·.createDirAll (checkpointDir ++ [jobId]))
  openLogStdio h jobId
  onDisk h.spawn
  waitWithTicker h

/-- `run_sandboxed` -/
def runSandboxed (spec : JobSpec) : TaskM JobResult := do
  let jobId := h.showUuid spec.jobId
  newSandbox h jobId
  modify fun s => { s with samplerRuns := true }
  let exitCode ← if h.dmtcpAvailable then runWithDmtcp h jobId else runDirect h jobId
  modify fun s => { s with samplerRuns := false }
  let outputHash ← onDisk (h.outputHash jobId)
  if exitCode = 0 then onDisk (DmtcpSession.cleanup h.toMachine jobId)
  (cleanupSandbox h jobId).ignoreError
  let actualRuntimeS ← Fallible.ofExcept
    ((Agent.runSandboxed h.start h.now exitCode).mapError RunError.text)
  return {
    jobId := spec.jobId
    exitCode := exitCode
    outputHash := outputHash
    actualRuntimeS := actualRuntimeS
    avgGpuUtilPct := h.gpuSamples.sum / h.gpuSamples.length
    peakRamGb := h.peakRamGb }

/-- `run_restore` -/
def runRestore (spec : JobSpec) : TaskM JobResult := do
  let jobId := h.showUuid spec.jobId
  if !h.dmtcpAvailable then
    throw (.text ("Job " ++ jobId ++
      " needs DMTCP restore but dmtcp_launch is not available on this machine"))
  let fetched ← Fallible.ofExcept h.fetchCheckpointMeta
  restore h fetched jobId
  let exitCode ← waitWithTicker h
  if exitCode = 0 then onDisk (DmtcpSession.cleanup h.toMachine jobId)
  let outputHash ← onDisk (h.outputHash jobId)
  let actualRuntimeS ← Fallible.ofExcept
    ((Agent.runRestore fetched h.start h.now exitCode).mapError RunError.text)
  return {
    jobId := spec.jobId
    exitCode := exitCode
    outputHash := outputHash
    actualRuntimeS := actualRuntimeS
    avgGpuUtilPct := 0
    peakRamGb := spec.minRamGb.toNat }

/-- The branch of `JobRunner::run` for a job that ran in the virtual machine. -/
def runInVm (vmRun : VmRun) (spec : JobSpec) : TaskM JobResult := do
  onDisk (modify fun d => ⟨vmRun.process d.files, some (vmRun.process d.files)⟩)
  (onDisk (removeDirAll h.toMachine (workDir (h.showUuid spec.jobId)))).ignoreError
  if vmRun.exitCode ≠ 0 then
    throw (.text ("VM job exited with code " ++ toString vmRun.exitCode))
  return {
    jobId := spec.jobId
    exitCode := vmRun.exitCode
    outputHash := h.sha256 (utf8 vmRun.stdout ++ utf8 vmRun.stderr)
    actualRuntimeS := asSecs h.start h.now
    avgGpuUtilPct := 0
    peakRamGb := spec.minRamGb.toNat }

/-- `download_bundle`: the archive is on the disk before its hash is checked. -/
def downloadBundle (jobId url expectedHash : String) : TaskM Unit := do
  h.step .baseDir .io (·.createDirAll ["tmp", "neuralmesh"])
  if h.refuses .curl then throw (.text "curl download")
  match h.curl url with
  | none =>
      match h.partialDownload with
      | some received => (onDisk (change .io (·.write (bundlePath jobId) received))).ignoreError
      | none => pure ()
      throw (.text ("curl failed downloading bundle from " ++ url))
  | some content =>
      onDisk (change (.text ("curl failed downloading bundle from " ++ url))
        (·.write (bundlePath jobId) content))
      if !expectedHash.isEmpty then
        h.step .readBundle .io some
        if h.sha256 content ≠ expectedHash then
          (h.step .dropBundle .io (·.removeFile (bundlePath jobId))).ignoreError
          throw (.text ("Bundle hash mismatch: expected " ++ expectedHash ++ ", got " ++
            h.sha256 content))

/-- `extract_bundle` -/
def extractBundle (jobId : String) : TaskM Unit := do
  if h.refuses .tar then throw (.text "tar extraction")
  onDisk (change (.text "tar failed extracting bundle") fun files =>
    (files.read (bundlePath jobId)).bind fun content => h.tar content (workDir jobId) files)

/-- `JobRunner::run` -/
def run (spec : JobSpec) : TaskM JobResult := do
  let jobId := h.showUuid spec.jobId
  if spec.bundleUrl.isEmpty ∧ spec.checkpointUrl.isNone then
    throw (.text "Job has neither bundle_url nor checkpoint_url — cannot execute")
  h.step .workDir .io (·.createDirAll (workDir jobId))
  if spec.checkpointUrl.isSome then
    runRestore h spec
  else
    downloadBundle h jobId spec.bundleUrl spec.bundleHash
    extractBundle h jobId
    (h.step .removeBundle .io (·.removeFile (bundlePath jobId))).ignoreError
    let _ ← onDisk (JobRunner.entryScript h.toMachine spec)
    match h.vm with
    | some (.ok vmRun) => runInVm h vmRun spec
    | _ => runSandboxed h spec

end JobTask

/-- The task from the spawn of its heartbeat on: the output that it posts, and what it leaves. The
heartbeat is aborted on both branches. -/
def jobTask (h : Host) (spec : JobSpec) (files : FileSystem) : Option String × Site :=
  match (JobTask.run h spec).outcome ⟨⟨files, none⟩, false, false, true⟩ with
  | (.ok result, s) =>
      (pushFinalLog s.disk.files (h.showUuid result.jobId), { s with heartbeatRuns := false })
  | (.error _, s) =>
      (pushFinalLog s.disk.files (h.showUuid spec.jobId), { s with heartbeatRuns := false })

end NeuralMesh.Agent
