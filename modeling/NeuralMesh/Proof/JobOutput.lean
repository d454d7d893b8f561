import NeuralMesh.Agent.JobRunner

/-!
# Output of a job

The log is read by its path after the runner has returned. A job that was run in the sandbox has its
working directory removed by then, and its log with it.
-/

namespace NeuralMesh.Agent

variable {m : Machine} {jobId : String} {spec : JobSpec}

/-- No process has ended yet. -/
def NotYet (d : Disk) : Prop := d.atExit = none

/-- The process has ended with these files, and this is the log now. -/
def LogIs (jobId : String) (ended : FileSystem) (content : Option Bytes) (d : Disk) : Prop :=
  d.atExit = some ended ∧ d.files.read (logPath jobId) = content

/-- The process was not started, or it has ended and nothing was changed since. -/
def Waited (m : Machine) (result : Except RunError Int) (d : Disk) : Prop :=
  (d.atExit = none ∧ ∃ error, result = .error error) ∨
    (d.atExit = some d.files ∧ result = m.exit.map (·.getD (-1)))

section Steps

theorem meets_change {P : Disk → Prop} {error : RunError} {step : FileSystem → Option FileSystem}
    (hfiles : ∀ d files, P d → step d.files = some files → P { d with files := files }) :
    Meets P (change error step) fun _ => P := by
  refine Meets.get_bind fun d => ?_
  split
  · rename_i files hstep
    rintro _ ⟨rfl, hd⟩
    exact hfiles _ files hd hstep
  · rintro _ ⟨rfl, hd⟩
    exact hd

theorem notYet_change {error : RunError} {step : FileSystem → Option FileSystem} :
    Meets NotYet (change error step) fun _ => NotYet :=
  meets_change fun _ _ hd _ => hd

theorem notYet_spawn : Meets NotYet m.spawn fun _ => NotYet := by
  rw [Machine.spawn]
  cases m.spawnError with
  | some error => exact Meets.of_throw fun _ hd => hd
  | none => exact Meets.of_pure fun _ hd => hd

theorem notYet_bind {α β : Type} {x : JobM α} {next : α → JobM β}
    {Q : Except RunError β → Disk → Prop} (hx : Meets NotYet x fun _ => NotYet)
    (hnext : ∀ a, Meets NotYet (next a) Q) (herror : ∀ error d, NotYet d → Q (.error error) d) :
    Meets NotYet (x >>= next) Q :=
  hx.bind hnext herror

/-- The process has ended with the files as they are. -/
theorem ended_wait {P : Disk → Prop} :
    Meets P m.wait fun result d =>
      d.atExit = some d.files ∧ result = m.exit.map (·.getD (-1)) := by
  refine Meets.modify_bind (fun d => d.atExit = some d.files) ?_ fun _ _ => rfl
  refine Meets.bind (Q := fun outcome d => d.atExit = some d.files ∧ outcome = m.exit)
    (Meets.of_ofExcept fun d hd => ⟨hd, rfl⟩) (fun code => Meets.of_pure ?_) ?_
  · rintro d ⟨hd, hexit⟩
    exact ⟨hd, by rw [← hexit]; rfl⟩
  · rintro error d ⟨hd, hexit⟩
    exact ⟨hd, by rw [← hexit]; rfl⟩

theorem waited_wait : Meets NotYet m.wait (Waited m) := ended_wait.mono fun _ _ => .inr

theorem waited_of_notYet (error : RunError) (d : Disk) (hd : NotYet d) :
    Waited m (.error error) d := .inl ⟨hd, error, rfl⟩

theorem waited_runDirect : Meets NotYet (JobRunner.runDirect m jobId) (Waited m) :=
  notYet_bind notYet_change (fun _ => notYet_bind notYet_spawn (fun _ => waited_wait)
    waited_of_notYet) waited_of_notYet

theorem waited_runWithDmtcp : Meets NotYet (JobRunner.runWithDmtcp m jobId) (Waited m) :=
  notYet_bind notYet_change (fun _ => notYet_bind notYet_change (fun _ => notYet_bind notYet_spawn
    (fun _ => waited_wait) waited_of_notYet) waited_of_notYet) waited_of_notYet

end Steps

section Log

variable {ended : FileSystem} {content : Option Bytes}

/-- A directory that the log is not in. -/
theorem logIs_removeDirAll {p : Path} (hout : ¬p <+: logPath jobId) :
    Meets (LogIs jobId ended content) (removeDirAll m p) fun _ => LogIs jobId ended content := by
  refine Meets.get_bind fun d => Meets.modify_bind (LogIs jobId ended content) ?_ ?_
  · exact Meets.ite (fun _ => Meets.of_pure fun _ hd => hd) fun _ => Meets.of_throw fun _ hd => hd
  · rintro _ ⟨rfl, hended, hlog⟩
    refine ⟨hended, ?_⟩
    rw [← hlog]
    exact FileSystem.read_removeDirAll_of_not_prefix hout

theorem logIs_sessionCleanup :
    Meets (LogIs jobId ended content) (DmtcpSession.cleanup m jobId)
      fun result d => result.isOk ∧ LogIs jobId ended content d := by
  have hout : ¬checkpointDir ++ [jobId] <+: logPath jobId := by
    intro hpre
    simp [checkpointDir, logPath, workDir] at hpre
  refine Meets.get_bind fun d => Meets.weaken (fun _ hd => hd.2) (Meets.ite (fun _ => ?_) fun _ => ?_)
  · exact Meets.ignoreError (logIs_removeDirAll hout)
  · exact Meets.of_pure fun _ hd => ⟨rfl, hd⟩

theorem logIs_outputHash :
    Meets (LogIs jobId ended content) (m.outputHash jobId)
      fun result d => result.isOk ∧ LogIs jobId ended content d :=
  fun _ hd => ⟨rfl, hd⟩

/-- The log, if it is left, once its directory is removed. -/
def leftOf (m : Machine) (jobId : String) (content : Option Bytes) : Option Bytes :=
  if logPath jobId ∈ m.stuck then content else none

theorem leftOf_none : leftOf m jobId none = none := by
  rw [leftOf]
  split <;> rfl

theorem logIs_removeWorkDir :
    Meets (LogIs jobId ended content) (removeDirAll m (workDir jobId))
      fun _ => LogIs jobId ended (leftOf m jobId content) := by
  refine Meets.get_bind fun d =>
    Meets.modify_bind (LogIs jobId ended (leftOf m jobId content)) ?_ ?_
  · exact Meets.ite (fun _ => Meets.of_pure fun _ hd => hd) fun _ => Meets.of_throw fun _ hd => hd
  · rintro _ ⟨rfl, hended, hlog⟩
    refine ⟨hended, ?_⟩
    cases content with
    | none =>
        rw [leftOf_none]
        exact FileSystem.read_removeDirAll_of_none hlog
    | some bytes =>
        exact FileSystem.read_removeDirAll (FileSystem.node_of_read hlog)
          (List.prefix_append (workDir jobId) _) hlog

theorem logIs_removeProfile :
    Meets (LogIs jobId ended content) (change .io (·.removeFile (profilePath jobId)))
      fun _ => LogIs jobId ended content := by
  refine meets_change fun d files hd hremove => ⟨hd.1, ?_⟩
  rw [← hd.2]
  exact FileSystem.read_removeFile_of_ne hremove (by simp [logPath, workDir, profilePath])

/-- The cleanup takes the log with it. -/
theorem logIs_sandboxCleanup :
    Meets (LogIs jobId ended content) (SandboxProfile.cleanup m jobId)
      fun _ => LogIs jobId ended (leftOf m jobId content) := by
  have hprofile : Meets (LogIs jobId ended (leftOf m jobId content))
      (do if (← get).files.pathExists (profilePath jobId) then
            change .io (·.removeFile (profilePath jobId)))
      fun _ => LogIs jobId ended (leftOf m jobId content) := by
    refine Meets.get_bind fun d => Meets.weaken (fun _ hd => hd.2) ?_
    exact Meets.ite (fun _ => logIs_removeProfile) fun _ => Meets.of_pure fun _ hd => hd
  refine Meets.get_bind fun d => Meets.ite (fun _ => ?_) fun hmissing => ?_
  · exact Meets.bind (Meets.weaken (fun _ hd => hd.2) logIs_removeWorkDir) (fun _ => hprofile)
      fun _ _ hd => hd
  · refine Meets.weaken ?_ hprofile
    rintro _ ⟨rfl, hended, hlog⟩
    refine ⟨hended, ?_⟩
    cases content with
    | none => rw [leftOf_none, hlog]
    | some bytes =>
        rw [FileSystem.pathExists, FileSystem.node_of_read hlog] at hmissing
        exact absurd rfl hmissing

end Log

/-- What is left of the log of a job whose process has ended. -/
def remaining (m : Machine) (spec : JobSpec) (ended : FileSystem) : Option Bytes :=
  if spec.checkpointUrl.isSome ∨ m.exit.isOk = false then
    ended.read (logPath (m.showUuid spec.jobId))
  else leftOf m (m.showUuid spec.jobId) (ended.read (logPath (m.showUuid spec.jobId)))

/-- The runner has returned. -/
structure Returned (m : Machine) (spec : JobSpec) (result : Except RunError JobResult) (d : Disk) :
    Prop where
  jobId : ∀ done, result = .ok done → done.jobId = spec.jobId
  log : ∀ ended, d.atExit = some ended →
    d.files.read (logPath (m.showUuid spec.jobId)) = remaining m spec ended

theorem returned_of_notYet (error : RunError) (d : Disk) (hd : NotYet d) :
    Returned m spec (.error error) d where
  jobId := nofun
  log ended hended := by
    rw [hd] at hended
    cases hended

/-- A wait that fails leaves everything as it is. -/
theorem returned_of_waited (error : RunError) (d : Disk) (hd : Waited m (.error error) d) :
    Returned m spec (.error error) d := by
  obtain ⟨hnone, -⟩ | ⟨hended, hexit⟩ := hd
  · exact returned_of_notYet error d hnone
  · refine ⟨nofun, fun ended hfiles => ?_⟩
    rw [hended] at hfiles
    cases hfiles
    cases hwait : m.exit with
    | ok code =>
        rw [hwait] at hexit
        cases hexit
    | error _ =>
        have hfailed : m.exit.isOk = false := by
          rw [hwait]
          rfl
        rw [remaining, if_pos (.inr hfailed)]

section Runs

variable {ended : FileSystem} {content : Option Bytes}

/-- The end of both paths. -/
theorem returned_of_logIs {runtime : Except String Nat} {next : Nat → JobResult}
    (hnext : ∀ n, (next n).jobId = spec.jobId) (hcontent : content = remaining m spec ended) :
    Meets (LogIs (m.showUuid spec.jobId) ended content)
      (do return next (← Fallible.ofExcept (runtime.mapError RunError.text)))
      (Returned m spec) := by
  have hlog : ∀ d, LogIs (m.showUuid spec.jobId) ended content d → ∀ files, d.atExit = some files →
      d.files.read (logPath (m.showUuid spec.jobId)) = remaining m spec files := by
    rintro d ⟨hended, hread⟩ files hfiles
    rw [hended] at hfiles
    cases hfiles
    rw [hread, hcontent]
  refine Meets.bind (Q := fun _ => LogIs (m.showUuid spec.jobId) ended content)
    (Meets.of_ofExcept fun d hd => hd) (fun n => Meets.of_pure fun d hd => ⟨?_, hlog d hd⟩)
    fun error d hd => ⟨nofun, hlog d hd⟩
  rintro _ ⟨⟩
  exact hnext n

theorem returned_runSandboxed (hfresh : spec.checkpointUrl = none) :
    Meets NotYet (JobRunner.runSandboxed m spec) (Returned m spec) := by
  refine notYet_bind (notYet_bind notYet_change (fun _ => notYet_change) fun _ _ hd => hd)
    (fun _ => ?_) returned_of_notYet
  refine Meets.ite_bind (fun _ => waited_runWithDmtcp) (fun _ => waited_runDirect)
    (fun exitCode => ?_) returned_of_waited
  rintro d (⟨-, error, herror⟩ | ⟨hended, hexit⟩)
  · cases herror
  · have hok : m.exit.isOk = true := by
      cases hwait : m.exit with
      | ok code => rfl
      | error e =>
          rw [hwait] at hexit
          cases hexit
    have hremaining : leftOf m (m.showUuid spec.jobId)
        (d.files.read (logPath (m.showUuid spec.jobId))) = remaining m spec d.files := by
      rw [remaining, if_neg]
      rw [hfresh, hok]
      decide
    refine Meets.bind_of_isOk logIs_outputHash (fun outputHash => ?_) d ⟨hended, rfl⟩
    refine Meets.when_bind_of_isOk (fun _ => logIs_sessionCleanup) ?_
    refine Meets.bind_of_isOk (Meets.ignoreError logIs_sandboxCleanup) fun _ => ?_
    exact returned_of_logIs (fun _ => rfl) hremaining

theorem notYet_restore {fetched : CheckpointMeta} :
    Meets NotYet (DmtcpSession.restore m fetched jobId) fun _ => NotYet := by
  refine Meets.when_bind (R := fun _ => NotYet) (fun _ => Meets.of_throw fun _ hd => hd) ?_ fun _ _ hd => hd
  refine Meets.get_bind fun d => Meets.weaken (fun _ hd => hd.2) ?_
  refine Meets.when_bind (R := fun _ => NotYet) (fun _ => Meets.of_throw fun _ hd => hd) ?_ fun _ _ hd => hd
  exact notYet_bind notYet_change (fun _ => notYet_spawn) fun _ _ hd => hd

theorem returned_runRestore (hrestore : spec.checkpointUrl.isSome) :
    Meets NotYet (JobRunner.runRestore m spec) (Returned m spec) := by
  refine Meets.when_bind (fun _ => Meets.of_throw fun _ hd => hd) ?_ returned_of_notYet
  refine notYet_bind (Meets.of_ofExcept fun _ hd => hd) (fun fetched => ?_) returned_of_notYet
  refine notYet_bind notYet_restore (fun _ => ?_) returned_of_notYet
  refine Meets.bind waited_wait (fun exitCode => ?_) returned_of_waited
  rintro d (⟨-, error, herror⟩ | ⟨hended, -⟩)
  · cases herror
  · have hremaining : d.files.read (logPath (m.showUuid spec.jobId)) = remaining m spec d.files := by
      rw [remaining, if_pos (.inl hrestore)]
    refine Meets.when_bind_of_isOk (fun _ => logIs_sessionCleanup) ?_ d ⟨hended, rfl⟩
    refine Meets.bind_of_isOk logIs_outputHash fun outputHash => ?_
    exact returned_of_logIs (fun _ => rfl) hremaining

theorem notYet_entryScript : Meets NotYet (JobRunner.entryScript m spec) fun _ => NotYet := by
  refine Meets.get_bind fun d => Meets.weaken (fun _ hd => hd.2) ?_
  dsimp only
  split
  · exact Meets.of_pure fun _ hd => hd
  · exact Meets.of_throw fun _ hd => hd

variable (m spec) in
/-- Every way through the runner. -/
theorem returned_run : Meets NotYet (JobRunner.run m spec) (Returned m spec) := by
  refine Meets.when_bind (fun _ => Meets.of_throw fun _ hd => hd) ?_ returned_of_notYet
  refine notYet_bind notYet_change (fun _ => ?_) returned_of_notYet
  refine Meets.ite returned_runRestore fun hfresh => ?_
  refine notYet_bind notYet_change (fun _ => ?_) returned_of_notYet
  refine notYet_bind (Meets.of_ofExcept fun _ hd => hd) (fun content => ?_) returned_of_notYet
  refine notYet_bind notYet_change (fun _ => ?_) returned_of_notYet
  refine notYet_bind notYet_change (fun _ => ?_) returned_of_notYet
  refine Meets.bind_of_isOk (Meets.ignoreError notYet_change) fun _ => ?_
  refine notYet_bind notYet_entryScript (fun _ => ?_) returned_of_notYet
  exact returned_runSandboxed (Option.not_isSome_iff_eq_none.mp hfresh)

end Runs

/-- The push comes after the runner, and reads what is left. -/
theorem task_eq {files ended : FileSystem}
    (hended : ((JobRunner.run m spec).outcome ⟨files, none⟩).2.atExit = some ended) :
    task m spec files = ((remaining m spec ended).bind fromUtf8).filter (· ≠ "") := by
  have hreturned := returned_run m spec ⟨files, none⟩ rfl
  have hlog := hreturned.log ended hended
  have hid := hreturned.jobId
  rw [task]
  cases hrun : (JobRunner.run m spec).outcome ⟨files, none⟩ with
  | mk result d =>
      rw [hrun] at hlog hid
      cases result with
      | ok done =>
          dsimp only at hlog ⊢
          rw [hid done rfl, pushFinalLog, FileSystem.readToString, hlog]
      | error _ =>
          dsimp only at hlog ⊢
          rw [pushFinalLog, FileSystem.readToString, hlog]

theorem posted_getD (text : String) :
    (((some (utf8 text)).bind fromUtf8).filter (· ≠ "")).getD "" = text := by
  rw [Option.bind_some, fromUtf8_utf8, Option.filter_some]
  by_cases hempty : text = ""
  · rw [hempty]
    rfl
  · rw [if_pos (decide_eq_true hempty), Option.getD_some]

/-- The log is posted as the process left it just when the job was restored, could not be waited
for, wrote nothing, or left a log that could not be removed. -/
theorem output_posted_iff (m : Machine) (spec : JobSpec) (files : FileSystem) {ended : FileSystem}
    {text : String}
    (hended : ((JobRunner.run m spec).outcome ⟨files, none⟩).2.atExit = some ended)
    (hlog : (ended.read (logPath (m.showUuid spec.jobId))).getD [] = utf8 text) :
    (task m spec files).getD "" = text ↔
      spec.checkpointUrl.isSome ∨ m.exit.isOk = false ∨ text = "" ∨
        logPath (m.showUuid spec.jobId) ∈ m.stuck := by
  rw [task_eq hended, remaining, leftOf]
  cases hread : ended.read (logPath (m.showUuid spec.jobId)) with
  | none =>
      rw [hread] at hlog
      have hempty : text = "" := utf8_eq_nil.mp hlog.symm
      rw [ite_self, ite_self, hempty]
      exact iff_of_true rfl (.inr (.inr (.inl rfl)))
  | some content =>
      rw [hread, Option.getD_some] at hlog
      rw [hlog]
      split
      · rename_i hkept
        refine iff_of_true (posted_getD text) ?_
        obtain hrestored | hfailed := hkept
        · exact .inl hrestored
        · exact .inr (.inl hfailed)
      · rename_i hremoved
        split
        · rename_i hstuck
          exact iff_of_true (posted_getD text) (.inr (.inr (.inr hstuck)))
        · rename_i hstuck
          constructor
          · intro hempty
            exact .inr (.inr (.inl hempty.symm))
          · rintro (hrestored | hfailed | hempty | hleft)
            · exact absurd (.inl hrestored) hremoved
            · exact absurd (.inr hfailed) hremoved
            · exact hempty.symm
            · exact absurd hleft hstuck

/-! ### A job that prints a line -/

def emptyDisk : FileSystem where
  node p := if p = [] then some .dir else none
  root := rfl
  parent p name hsome := by
    rw [if_neg (by simp)] at hsome
    cases hsome

/-- A machine without DMTCP; the job is one script. -/
def sandboxMachine : Machine where
  showUuid _ := "00000000-0000-0000-0000-000000000000"
  sha256 _ := "084c799cd551dd1d8d5c5f9a5d593b2e931f5e36122ee5c793c1d08a19839cc0"
  curl _ := some []
  tar _ dir files := files.write (dir ++ ["main.py"]) (utf8 "print(42)\n")
  readDir _ _ := ["main.py"]
  generateProfile := utf8 "(version 1)\n"
  dmtcpAvailable := false
  fetchCheckpointMeta := .error .io
  spawnError := none
  process files :=
    (files.write (logPath "00000000-0000-0000-0000-000000000000") (utf8 "42\n")).getD files
  exit := .ok (some 0)
  stuck := []
  start := 0
  now := 10 ^ 9
  gpuSamples := []
  peakRamGb := 0

def printJob : JobSpec where
  jobId := 0
  consumerId := "alice"
  runtime := .shell
  minRamGb := 8
  maxDurationSecs := 3600
  maxPricePerHour := 1
  bundleHash := ""
  bundleUrl := "http://localhost:8090/api/v1/artifacts/1"
  scriptName := some "main.py"
  consumerSshPubkey := ""
  consumerWgPubkey := ""
  preferredRegion := none
  envVars := []
  checkpointUrl := none
  restoreAttempts := 0

/-- The line is in the log when the process ends, and nothing is posted. -/
theorem printed_line_lost :
    ((JobRunner.run sandboxMachine printJob).outcome ⟨emptyDisk, none⟩).2.atExit.map
        (·.read (logPath "00000000-0000-0000-0000-000000000000")) = some (some (utf8 "42\n")) ∧
      task sandboxMachine printJob emptyDisk = none := by
  constructor
  · decide +kernel
  · decide +kernel

/-- A machine with DMTCP that has fetched a checkpoint of the job. -/
def restoringMachine : Machine :=
  { sandboxMachine with
    dmtcpAvailable := true
    fetchCheckpointMeta := .ok {
      jobId := "00000000-0000-0000-0000-000000000000"
      iteration := 1
      checkpointDir := "/var/neuralmesh/checkpoints/00000000-0000-0000-0000-000000000000"
      elapsedSecs := 300
      coordPort := 0
      dmtcpFiles := ["ckpt.dmtcp"] } }

def restoredJob : JobSpec :=
  { printJob with checkpointUrl := some "/api/v1/jobs/00000000-0000-0000-0000-000000000000/checkpoint" }

def checkpointDisk : FileSystem :=
  let dir := checkpointDir ++ ["00000000-0000-0000-0000-000000000000"]
  ((emptyDisk.createDirAll dir).bind fun files => files.write (dir ++ ["ckpt.dmtcp"]) []).getD
    emptyDisk

theorem restored_line_posted :
    (task restoringMachine restoredJob checkpointDisk).getD "" = "42\n" := by
  have hprinted : ((JobRunner.run restoringMachine restoredJob).outcome
      ⟨checkpointDisk, none⟩).2.atExit.map
        (·.read (logPath "00000000-0000-0000-0000-000000000000")) = some (some (utf8 "42\n")) := by
    decide +kernel
  obtain ⟨ended, hended, hread⟩ := Option.map_eq_some_iff.mp hprinted
  have hlog : (ended.read (logPath (restoringMachine.showUuid restoredJob.jobId))).getD [] =
      utf8 "42\n" := by
    rw [show restoringMachine.showUuid restoredJob.jobId =
      "00000000-0000-0000-0000-000000000000" from rfl, hread]
    rfl
  exact (output_posted_iff restoringMachine restoredJob checkpointDisk hended hlog).mpr (.inl rfl)

end NeuralMesh.Agent
