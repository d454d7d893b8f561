import NeuralMesh.Agent.JobTask
import NeuralMesh.Proof.JobOutput

/-!
# What a job leaves on its provider

The files of a job are removed, and the tasks beside it stopped, where the code goes straight on
from a process that was waited for. Every other way out of the runner leaves some of them.
-/

namespace NeuralMesh.Agent

/-- None of the files of the job exists. -/
structure Gone (jobId : String) (files : FileSystem) : Prop where
  workDir : files.node (workDir jobId) = none
  profile : files.node (profilePath jobId) = none
  bundle : files.node (bundlePath jobId) = none

structure LeavesNothing (jobId : String) (s : Site) : Prop where
  files : Gone jobId s.disk.files
  sampler : s.samplerRuns = false
  ticker : s.tickerRuns = false
  heartbeat : s.heartbeatRuns = false

namespace Host

variable (h : Host) (spec : JobSpec)

/-- There is something to run, and a directory to run it in. -/
structure Starts (files : FileSystem) : Prop where
  given : ¬(spec.bundleUrl.isEmpty ∧ spec.checkpointUrl.isNone)
  allowed : h.refuses .workDir = false
  created : (files.createDirAll (workDir (h.showUuid spec.jobId))).isSome

/-- The job runs in the virtual machine, if it gets that far. -/
def InVm : Prop := spec.checkpointUrl = none ∧ ∃ vmRun, h.vm = some (.ok vmRun)

/-- The working directory is not there, or can be removed. -/
def ClearsWorkDir (files : FileSystem) : Prop :=
  files.node (workDir (h.showUuid spec.jobId)) = none ∨
    files.CanRemove h.stuck (workDir (h.showUuid spec.jobId))

/-- The profile is not there, or can be removed. -/
def ClearsProfile (files : FileSystem) : Prop :=
  files.node (profilePath (h.showUuid spec.jobId)) = none ∨
    (files.read (profilePath (h.showUuid spec.jobId))).isSome ∧ h.refuses .removeProfile = false

/-- What it takes that nothing is left when the job has ended with these files: a job that was
restored has to clear away its files itself. -/
structure EndsClean (ended : FileSystem) : Prop where
  waited : ¬h.InVm spec → h.exit.isOk
  bundle : ended.node (bundlePath (h.showUuid spec.jobId)) = none
  restored : spec.checkpointUrl.isSome → Gone (h.showUuid spec.jobId) ended
  workDir : h.ClearsWorkDir spec ended
  profile : h.ClearsProfile spec ended
  inVm : h.InVm spec → ended.node (profilePath (h.showUuid spec.jobId)) = none

/-- Nothing was begun and nothing was there, or the job ended and was cleared away. -/
def NothingLeft (files : FileSystem) : Option FileSystem → Prop
  | none => ¬h.Starts spec files ∧ Gone (h.showUuid spec.jobId) files
  | some ended => h.EndsClean spec ended

end Host

variable {h : Host} {spec : JobSpec} {jobId : String} {files ended : FileSystem}
  {sampler ticker : Bool}

theorem gone_iff : Gone jobId files ↔
    files.node (workDir jobId) = none ∧ files.node (profilePath jobId) = none ∧
      files.node (bundlePath jobId) = none :=
  ⟨fun hgone => ⟨hgone.workDir, hgone.profile, hgone.bundle⟩, fun hall => ⟨hall.1, hall.2.1, hall.2.2⟩⟩

/-! ### Programs on the disk -/

/-- Of the disk, with the tasks beside. -/
def At (P : Disk → Prop) (sampler ticker : Bool) (s : Site) : Prop :=
  P s.disk ∧ s.samplerRuns = sampler ∧ s.tickerRuns = ticker

theorem meets_onDisk {α : Type} {P : Disk → Prop} {x : JobM α} {Q : Except RunError α → Disk → Prop}
    (hx : Meets P x Q) : Meets (At P sampler ticker) (onDisk x) fun r => At (Q r) sampler ticker :=
  fun s hs => ⟨hx s.disk hs.1, hs.2⟩

theorem meets_step {P : Disk → Prop} {name : OsStep} {error : RunError}
    {f : FileSystem → Option FileSystem}
    (hfiles : ∀ d files, P d → f d.files = some files → P { d with files := files }) :
    Meets (At P sampler ticker) (h.step name error f) fun _ => At P sampler ticker :=
  Meets.ite (fun _ => Meets.of_throw fun _ hs => hs) fun _ => meets_onDisk (meets_change hfiles)

/-! ### Until the process is waited for -/

/-- The working directory is there, and no process has ended. -/
structure Begun (jobId : String) (d : Disk) : Prop where
  notEnded : d.atExit = none
  workDir : d.files.node (workDir jobId) = some .dir

theorem begun_keeps {f : FileSystem → Option FileSystem} (hkeeps : FileSystem.KeepsDirs f)
    (d : Disk) (files : FileSystem) (hd : Begun jobId d) (hf : f d.files = some files) :
    Begun jobId { d with files := files } :=
  ⟨hd.notEnded, hkeeps _ _ _ hf hd.workDir⟩

theorem begun_step {name : OsStep} {error : RunError} {f : FileSystem → Option FileSystem}
    (hkeeps : FileSystem.KeepsDirs f) :
    Meets (At (Begun jobId) sampler ticker) (h.step name error f)
      fun _ => At (Begun jobId) sampler ticker :=
  meets_step (begun_keeps hkeeps)

theorem begun_change {error : RunError} {f : FileSystem → Option FileSystem}
    (hkeeps : FileSystem.KeepsDirs f) :
    Meets (At (Begun jobId) sampler ticker) (onDisk (change error f))
      fun _ => At (Begun jobId) sampler ticker :=
  meets_onDisk (meets_change (begun_keeps hkeeps))

theorem begun_spawn :
    Meets (At (Begun jobId) sampler ticker) (onDisk h.spawn)
      fun _ => At (Begun jobId) sampler ticker := by
  apply meets_onDisk
  rw [Machine.spawn]
  cases h.spawnError with
  | some error => exact Meets.of_throw fun _ hd => hd
  | none => exact Meets.of_pure fun _ hd => hd

/-- A way out that leaves something: before the process was waited for, or because it could not be
waited for. -/
def Failed (h : Host) (jobId : String) (s : Site) : Prop :=
  Begun jobId s.disk ∨
    (s.disk.atExit.isSome ∧ h.exit.isOk = false ∧ (s.samplerRuns ∨ s.tickerRuns))

/-- The process has ended and was waited for, or the way there failed. -/
def Process (h : Host) (jobId : String) (sampler ticker : Bool) : Except RunError Int → Site → Prop
  | .ok _, s => At (fun d => d.atExit = some d.files ∧ h.exit.isOk) sampler ticker s
  | .error _, s => Failed h jobId s

theorem process_of_begun (e : RunError) (s : Site) (hs : At (Begun jobId) sampler ticker s) :
    Process h jobId true false (.error e) s := .inl hs.1

/-- A wait with a task beside that an error leaves running. -/
theorem process_wait (hbeside : sampler ∨ ticker) :
    Meets (At (Begun jobId) sampler ticker) (onDisk h.wait) (Process h jobId sampler ticker) := by
  refine (meets_onDisk ended_wait).mono ?_
  rintro result s ⟨⟨hended, hexit⟩, hsampler, hticker⟩
  rw [hexit]
  cases hwait : h.exit with
  | ok code => exact ⟨⟨hended, by rw [hwait]; rfl⟩, hsampler, hticker⟩
  | error e =>
      refine .inr ⟨by rw [hended]; rfl, by rw [hwait]; rfl, ?_⟩
      rwa [hsampler, hticker]

theorem process_waitWithTicker :
    Meets (At (Begun jobId) sampler false) (JobTask.waitWithTicker h)
      (Process h jobId sampler false) := by
  refine Meets.modify_bind (At (Begun jobId) sampler true) ?_ fun s hs => ⟨hs.1, hs.2.1, rfl⟩
  refine (process_wait (.inr rfl)).bind (fun code => ?_) fun _ _ hs => hs
  exact Meets.modify_bind (At (fun d => d.atExit = some d.files ∧ h.exit.isOk) sampler false)
    (Meets.of_pure fun _ hs => hs) fun s hs => ⟨hs.1, hs.2.1, rfl⟩

theorem begun_openLogStdio :
    Meets (At (Begun jobId) sampler ticker) (JobTask.openLogStdio h jobId)
      fun _ => At (Begun jobId) sampler ticker :=
  begun_step (FileSystem.keepsDirs_openAppend _)

theorem process_runDirect :
    Meets (At (Begun jobId) true false) (JobTask.runDirect h jobId) (Process h jobId true false) :=
  (begun_step (FileSystem.keepsDirs_write _ _)).bind
    (fun _ => begun_spawn.bind (fun _ => process_wait (.inl rfl)) process_of_begun) process_of_begun

theorem process_runWithDmtcp :
    Meets (At (Begun jobId) true false) (JobTask.runWithDmtcp h jobId)
      (Process h jobId true false) :=
  (begun_step (FileSystem.keepsDirs_createDirAll _)).bind
    (fun _ => begun_openLogStdio.bind
      (fun _ => begun_spawn.bind (fun _ => process_waitWithTicker) process_of_begun)
      process_of_begun)
    process_of_begun

/-! ### What is removed -/

/-- What is under `/tmp/neuralmesh` is as the process left it. -/
structure Kept (ended : FileSystem) (d : Disk) : Prop where
  atExit : d.atExit = some ended
  node : ∀ q, ["tmp", "neuralmesh"] <+: q → d.files.node q = ended.node q

theorem workDir_inside : ["tmp", "neuralmesh"] <+: workDir jobId := ⟨[jobId], rfl⟩

theorem profilePath_inside : ["tmp", "neuralmesh"] <+: profilePath jobId := ⟨[_], rfl⟩

theorem bundlePath_inside : ["tmp", "neuralmesh"] <+: bundlePath jobId := ⟨[_], rfl⟩

theorem Kept.gone_iff {d : Disk} (hd : Kept ended d) : Gone jobId d.files ↔ Gone jobId ended := by
  rw [Agent.gone_iff, Agent.gone_iff, hd.node _ workDir_inside, hd.node _ profilePath_inside,
    hd.node _ bundlePath_inside]

theorem kept_outputHash :
    Meets (Kept ended) (h.outputHash jobId) fun result d => result.isOk ∧ Kept ended d :=
  fun _ hd => ⟨rfl, hd⟩

theorem kept_sessionCleanup :
    Meets (Kept ended) (DmtcpSession.cleanup h.toMachine jobId)
      fun result d => result.isOk ∧ Kept ended d := by
  have hremove : Meets (Kept ended) (removeDirAll h.toMachine (checkpointDir ++ [jobId]))
      fun _ => Kept ended := by
    refine Meets.get_bind fun d => Meets.modify_bind (Kept ended) ?_ ?_
    · exact Meets.ite (fun _ => Meets.of_pure fun _ hd => hd) fun _ => Meets.of_throw fun _ hd => hd
    · rintro _ ⟨rfl, hd⟩
      refine ⟨hd.atExit, fun q hq => ?_⟩
      obtain ⟨rest, rfl⟩ := hq
      have hout : ¬checkpointDir ++ [jobId] <+: ["tmp", "neuralmesh"] ++ rest := by
        intro hpre
        simp [checkpointDir] at hpre
      dsimp only
      rw [FileSystem.node_removeDirAll_of_not_prefix hout]
      exact hd.node _ ⟨_, rfl⟩
  refine Meets.get_bind fun d => Meets.weaken (fun _ hd => hd.2) (Meets.ite (fun _ => ?_) fun _ => ?_)
  · exact Meets.ignoreError hremove
  · exact Meets.of_pure fun _ hd => ⟨rfl, hd⟩

theorem meets_onDisk_isOk {α : Type} {P Q : Disk → Prop} {x : JobM α}
    (hx : Meets P x fun result d => result.isOk ∧ Q d) :
    Meets (At P sampler ticker) (onDisk x) fun result s => result.isOk ∧ At Q sampler ticker s :=
  (meets_onDisk hx).mono fun _ _ hs => ⟨hs.1.1, hs.1.2, hs.2⟩

/-- After the working directory was to be removed; the rest is as the process left it. -/
structure Removed (h : Host) (spec : JobSpec) (ended : FileSystem) (d : Disk) : Prop where
  atExit : d.atExit = some ended
  workDir : d.files.node (workDir (h.showUuid spec.jobId)) = none ↔ h.ClearsWorkDir spec ended
  profile : d.files.node (profilePath (h.showUuid spec.jobId)) =
    ended.node (profilePath (h.showUuid spec.jobId))
  bundle : d.files.node (bundlePath (h.showUuid spec.jobId)) =
    ended.node (bundlePath (h.showUuid spec.jobId))

theorem canRemove_congr {stuck : List Path} {p : Path}
    (hnode : ∀ q, ["tmp", "neuralmesh"] <+: q → files.node q = ended.node q)
    (hp : ["tmp", "neuralmesh"] <+: p) : files.CanRemove stuck p ↔ ended.CanRemove stuck p := by
  rw [FileSystem.CanRemove, FileSystem.CanRemove, hnode p hp]
  refine and_congr_right fun _ => forall₃_congr fun r _ hinside => ?_
  rw [hnode r (hp.trans hinside)]

theorem not_workDir_prefix {name : String} (hne : name.length ≠ jobId.length) :
    ¬workDir jobId <+: ["tmp", "neuralmesh", name] := by
  rw [workDir, List.cons_prefix_cons, List.cons_prefix_cons, List.cons_prefix_cons]
  rintro ⟨-, -, rfl, -⟩
  exact hne rfl

theorem length_profilePath : (jobId ++ ".sb").length = jobId.length + 3 := by
  rw [String.length_append]
  rfl

theorem length_bundlePath : ("bundle-" ++ jobId ++ ".tar.gz").length = jobId.length + 14 := by
  rw [String.length_append, String.length_append]
  have hbundle : "bundle-".length = 7 := rfl
  have htar : ".tar.gz".length = 7 := rfl
  omega

theorem profilePath_outside : ¬workDir jobId <+: profilePath jobId :=
  not_workDir_prefix (by rw [length_profilePath]; omega)

theorem bundlePath_outside : ¬workDir jobId <+: bundlePath jobId :=
  not_workDir_prefix (by rw [length_bundlePath]; omega)

theorem workDir_ne_profilePath : workDir jobId ≠ profilePath jobId :=
  fun hsame => profilePath_outside (by rw [hsame])

theorem bundlePath_ne_profilePath : bundlePath jobId ≠ profilePath jobId := by
  intro hsame
  have hnames := congrArg List.getLast? hsame
  rw [bundlePath, profilePath, List.getLast?_cons_cons, List.getLast?_cons_cons,
    List.getLast?_cons_cons, List.getLast?_cons_cons, List.getLast?_singleton,
    List.getLast?_singleton] at hnames
  have hlength := congrArg String.length (Option.some.inj hnames)
  rw [length_bundlePath, length_profilePath] at hlength
  omega

theorem removed_removeDirAll :
    Meets (Kept ended) (removeDirAll h.toMachine (workDir (h.showUuid spec.jobId)))
      fun _ => Removed h spec ended := by
  refine Meets.get_bind fun d => Meets.modify_bind (Removed h spec ended) ?_ ?_
  · exact Meets.ite (fun _ => Meets.of_pure fun _ hd => hd) fun _ => Meets.of_throw fun _ hd => hd
  · rintro e ⟨rfl, hd⟩
    refine ⟨hd.atExit, ?_, ?_, ?_⟩
    · have hself : (e.files.removeDirAll h.stuck (workDir (h.showUuid spec.jobId))).1.node
          (workDir (h.showUuid spec.jobId)) = none ↔ _ := FileSystem.node_removeDirAll_self nofun
      rw [hself, hd.node _ workDir_inside, canRemove_congr hd.node workDir_inside]
      rfl
    · exact (FileSystem.node_removeDirAll_of_not_prefix profilePath_outside).trans
        (hd.node _ profilePath_inside)
    · exact (FileSystem.node_removeDirAll_of_not_prefix bundlePath_outside).trans
        (hd.node _ bundlePath_inside)

/-- What is there goes unless the removal fails. -/
theorem gone_removeDirAll {m : Machine} {p : Path} (hne : p ≠ []) :
    Meets (fun d => d.files.node p ≠ none) (removeDirAll m p)
      fun result d => result.isOk ↔ d.files.node p = none := by
  refine Meets.get_bind fun d => Meets.modify_bind
    (fun e => (d.files.removeDirAll m.stuck p).2 = true ↔ e.files.node p = none) ?_ ?_
  · refine Meets.ite (fun hok => Meets.of_pure fun e he => ?_)
      fun hfailed => Meets.of_throw fun e he => ?_
    · exact iff_of_true rfl (he.mp hok)
    · exact iff_of_false nofun fun hnone => hfailed (he.mpr hnone)
  · rintro e ⟨rfl, hexists⟩
    rw [FileSystem.node_removeDirAll_self hne, or_iff_right hexists, FileSystem.removeDirAll_ok_iff]

theorem removed_of_missing {d : Disk} (hd : Kept ended d)
    (hmissing : d.files.node (workDir (h.showUuid spec.jobId)) = none) : Removed h spec ended d where
  atExit := hd.atExit
  workDir := iff_of_true hmissing (.inl ((hd.node _ workDir_inside).symm.trans hmissing))
  profile := hd.node _ profilePath_inside
  bundle := hd.node _ bundlePath_inside

/-- The cleanup is over, and says what is left. -/
structure Cleared (h : Host) (spec : JobSpec) (ended : FileSystem) (d : Disk) : Prop where
  atExit : d.atExit = some ended
  gone_iff : Gone (h.showUuid spec.jobId) d.files ↔
    h.ClearsWorkDir spec ended ∧ h.ClearsProfile spec ended ∧
      ended.node (bundlePath (h.showUuid spec.jobId)) = none

theorem read_congr {p : Path} (hnode : files.node p = ended.node p) :
    files.read p = ended.read p := by
  rw [FileSystem.read, FileSystem.read, hnode]

/-- A profile that is there and could not be removed. -/
theorem cleared_of_profile {d : Disk} (hd : Removed h spec ended d)
    (hexists : d.files.node (profilePath (h.showUuid spec.jobId)) ≠ none)
    (hstays : (d.files.read (profilePath (h.showUuid spec.jobId))).isSome →
      h.refuses .removeProfile = true) : Cleared h spec ended d := by
  refine ⟨hd.atExit, iff_of_false (fun hgone => hexists hgone.profile) ?_⟩
  rintro ⟨-, hnone | ⟨hfile, hallowed⟩, -⟩
  · exact hexists (hd.profile.trans hnone)
  · rw [← read_congr hd.profile] at hfile
    rw [hstays hfile] at hallowed
    cases hallowed

theorem cleared_removeProfile :
    Meets (At (fun d => Removed h spec ended d ∧
        d.files.node (workDir (h.showUuid spec.jobId)) = none ∧
        d.files.node (profilePath (h.showUuid spec.jobId)) ≠ none) sampler ticker)
      (h.step .removeProfile .io (·.removeFile (profilePath (h.showUuid spec.jobId))))
      fun _ => At (Cleared h spec ended) sampler ticker := by
  refine Meets.ite (fun hrefused => Meets.of_throw fun s hs => ?_) fun hallowed => ?_
  · exact ⟨cleared_of_profile hs.1.1 hs.1.2.2 fun _ => hrefused, hs.2⟩
  · refine meets_onDisk (Q := fun _ => Cleared h spec ended) (Meets.get_bind fun d => ?_)
    have hfile : (d.files.removeFile (profilePath (h.showUuid spec.jobId))).isSome ↔ _ :=
      FileSystem.isSome_removeFile
    dsimp only
    split
    · rename_i after hremove
      rw [hremove] at hfile
      have hread := hfile.mp rfl
      refine Meets.of_modify ?_
      rintro _ ⟨rfl, hd, hworkDir, -⟩
      refine ⟨hd.atExit, ?_⟩
      have hprofile : h.ClearsProfile spec ended := by
        rw [read_congr hd.profile] at hread
        exact .inr ⟨hread, Bool.eq_false_of_not_eq_true hallowed⟩
      rw [Agent.gone_iff]
      dsimp only
      rw [FileSystem.node_removeFile hremove, FileSystem.node_removeFile hremove,
        FileSystem.node_removeFile hremove, if_pos workDir_ne_profilePath, if_neg (not_not_intro rfl),
        if_pos bundlePath_ne_profilePath, hworkDir, hd.bundle, and_iff_right rfl, and_iff_right rfl,
        and_iff_right (hd.workDir.mp hworkDir), and_iff_right hprofile]
    · rename_i hremove
      rw [hremove] at hfile
      refine Meets.of_throw ?_
      rintro _ ⟨rfl, hd, -, hexists⟩
      exact cleared_of_profile hd hexists fun hread => nomatch hfile.mpr hread

/-- A working directory that is left, or no profile. -/
theorem cleared_of_removed {d : Disk} (hd : Removed h spec ended d)
    (hdone : d.files.node (workDir (h.showUuid spec.jobId)) = none →
      d.files.node (profilePath (h.showUuid spec.jobId)) = none) : Cleared h spec ended d := by
  refine ⟨hd.atExit, ?_⟩
  rw [Agent.gone_iff, hd.workDir, hd.bundle]
  refine and_congr_right fun hworkDir => and_congr_left fun _ => ?_
  have hprofile := hdone (hd.workDir.mpr hworkDir)
  exact iff_of_true hprofile (.inl (hd.profile.symm.trans hprofile))

theorem cleared_cleanupSandbox :
    Meets (At (Kept ended) sampler ticker) (JobTask.cleanupSandbox h (h.showUuid spec.jobId))
      fun _ => At (Cleared h spec ended) sampler ticker := by
  have hprofile : Meets
      (At (fun d => Removed h spec ended d ∧
        d.files.node (workDir (h.showUuid spec.jobId)) = none) sampler ticker)
      (do if (← get).disk.files.pathExists (profilePath (h.showUuid spec.jobId)) then
            h.step .removeProfile .io (·.removeFile (profilePath (h.showUuid spec.jobId))))
      fun _ => At (Cleared h spec ended) sampler ticker := by
    refine Meets.get_bind fun s => Meets.ite (fun hexists => ?_) fun hmissing => ?_
    · refine Meets.weaken ?_ cleared_removeProfile
      rintro _ ⟨rfl, ⟨hd, hworkDir⟩, hbeside⟩
      exact ⟨⟨hd, hworkDir, Option.isSome_iff_ne_none.mp hexists⟩, hbeside⟩
    · refine Meets.of_pure ?_
      rintro _ ⟨rfl, ⟨hd, -⟩, hbeside⟩
      refine ⟨cleared_of_removed hd fun _ => ?_, hbeside⟩
      rwa [← FileSystem.pathExists_eq_false, ← Bool.not_eq_true]
  refine Meets.get_bind fun s => Meets.ite (fun hexists => ?_) fun hmissing => ?_
  · have hremove : Meets (fun t => t = s ∧ At (Kept ended) sampler ticker t)
        (onDisk (removeDirAll h.toMachine (workDir (h.showUuid spec.jobId))))
        fun result => At (fun d => Removed h spec ended d ∧
          (result.isOk ↔ d.files.node (workDir (h.showUuid spec.jobId)) = none)) sampler ticker := by
      refine Meets.weaken ?_ (meets_onDisk (removed_removeDirAll.and (gone_removeDirAll nofun)))
      rintro _ ⟨rfl, hd, hbeside⟩
      exact ⟨⟨hd, Option.isSome_iff_ne_none.mp hexists⟩, hbeside⟩
    refine hremove.bind (fun _ => ?_) ?_
    · refine Meets.weaken ?_ hprofile
      rintro s ⟨⟨hd, hgone⟩, hbeside⟩
      exact ⟨⟨hd, hgone.mp rfl⟩, hbeside⟩
    · rintro e s ⟨⟨hd, hgone⟩, hbeside⟩
      exact ⟨cleared_of_removed hd fun hnone => (nomatch hgone.mpr hnone), hbeside⟩
  · refine Meets.weaken ?_ hprofile
    rintro t ⟨rfl, hd, hbeside⟩
    have hnone : t.disk.files.node (workDir (h.showUuid spec.jobId)) = none := by
      rwa [← FileSystem.pathExists_eq_false, ← Bool.not_eq_true]
    exact ⟨⟨removed_of_missing hd hnone, hnone⟩, hbeside⟩

/-! ### Every way through the runner -/

/-- The runner has returned, and this is what it takes that it left nothing. -/
def Verdict (h : Host) (spec : JobSpec) (files : FileSystem) (s : Site) : Prop :=
  (Gone (h.showUuid spec.jobId) s.disk.files ∧ s.samplerRuns = false ∧ s.tickerRuns = false) ↔
    h.NothingLeft spec files s.disk.atExit

theorem not_gone_of_begun {d : Disk} (hd : Begun jobId d) : ¬Gone jobId d.files := by
  intro hgone
  have hdir := hd.workDir
  rw [hgone.workDir] at hdir
  cases hdir

theorem verdict_of_begun {s : Site} (hstarts : h.Starts spec files)
    (hs : Begun (h.showUuid spec.jobId) s.disk) : Verdict h spec files s := by
  refine iff_of_false (fun hgone => not_gone_of_begun hs hgone.1) ?_
  rw [hs.notEnded]
  exact fun hnothing => hnothing.1 hstarts

theorem verdict_of_failed {s : Site} (hstarts : h.Starts spec files) (hvm : ¬h.InVm spec)
    (hs : Failed h (h.showUuid spec.jobId) s) : Verdict h spec files s := by
  rcases hs with hbegun | ⟨hended, hexit, hbeside⟩
  · exact verdict_of_begun hstarts hbegun
  · obtain ⟨ended, hended⟩ := Option.isSome_iff_exists.mp hended
    refine iff_of_false ?_ ?_
    · rintro ⟨-, hsampler, hticker⟩
      rw [hsampler, hticker] at hbeside
      simp at hbeside
    · rw [hended]
      intro hclean
      have hok := hclean.waited hvm
      rw [hexit] at hok
      cases hok

theorem verdict_of_cleared {s : Site} (hfresh : spec.checkpointUrl = none) (hvm : ¬h.InVm spec)
    (hexit : h.exit.isOk) (hs : At (Cleared h spec ended) false false s) :
    Verdict h spec files s := by
  obtain ⟨hd, hsampler, hticker⟩ := hs
  rw [Verdict, hd.gone_iff, hd.atExit, and_iff_left ⟨hsampler, hticker⟩]
  constructor
  · rintro ⟨hworkDir, hprofile, hbundle⟩
    exact ⟨fun _ => hexit, hbundle, fun hrestored => by simp [hfresh] at hrestored, hworkDir, hprofile,
      fun hin => absurd hin hvm⟩
  · exact fun hclean => ⟨hclean.workDir, hclean.profile, hclean.bundle⟩

theorem verdict_of_restored {s : Site} (hrestored : spec.checkpointUrl.isSome)
    (hexit : h.exit.isOk) (hs : At (Kept ended) false false s) : Verdict h spec files s := by
  obtain ⟨hd, hsampler, hticker⟩ := hs
  rw [Verdict, hd.gone_iff, hd.atExit, and_iff_left ⟨hsampler, hticker⟩]
  constructor
  · intro hgone
    exact ⟨fun _ => hexit, hgone.bundle, fun _ => hgone, .inl hgone.workDir, .inl hgone.profile,
      fun _ => hgone.profile⟩
  · exact fun hclean => hclean.restored hrestored

/-- Nothing is cleared away but the working directory. -/
theorem verdict_of_inVm {s : Site} (hin : h.InVm spec)
    (hs : At (fun d => Removed h spec ended d) false false s) : Verdict h spec files s := by
  obtain ⟨hd, hsampler, hticker⟩ := hs
  rw [Verdict, Agent.gone_iff, hd.atExit, and_iff_left ⟨hsampler, hticker⟩, hd.workDir, hd.profile,
    hd.bundle]
  constructor
  · rintro ⟨hworkDir, hprofile, hbundle⟩
    exact ⟨fun hout => absurd hin hout, hbundle, fun hrestored => by simp [hin.1] at hrestored,
      hworkDir, .inl hprofile, fun _ => hprofile⟩
  · exact fun hclean => ⟨hclean.workDir, hclean.inVm hin, hclean.bundle⟩

theorem begun_restore {fetched : CheckpointMeta} :
    Meets (At (Begun jobId) sampler ticker) (JobTask.restore h fetched jobId)
      fun _ => At (Begun jobId) sampler ticker := by
  refine Meets.when_bind (R := fun _ => At (Begun jobId) sampler ticker)
    (fun _ => Meets.of_throw fun _ hs => hs) ?_ fun _ _ hs => hs
  refine Meets.get_bind fun s => Meets.weaken (fun _ hs => hs.2) ?_
  refine Meets.when_bind (R := fun _ => At (Begun jobId) sampler ticker)
    (fun _ => Meets.of_throw fun _ hs => hs) ?_ fun _ _ hs => hs
  exact begun_openLogStdio.bind (fun _ => begun_spawn) fun _ _ hs => hs

/-- The removal may fail here as well; its outcome is not looked at. -/
theorem verdict_runInVm {vmRun : VmRun} (hin : h.InVm spec) :
    Meets (At (Begun (h.showUuid spec.jobId)) false false) (JobTask.runInVm h vmRun spec)
      fun _ => Verdict h spec files := by
  have hprocess : Meets (At (Begun (h.showUuid spec.jobId)) false false)
      (onDisk (modify fun d => ⟨vmRun.process d.files, some (vmRun.process d.files)⟩))
      fun result s => result.isOk ∧ ∃ ended, At (Kept ended) false false s :=
    fun s hs => ⟨rfl, _, ⟨rfl, fun _ _ => rfl⟩, hs.2⟩
  refine Meets.bind_of_isOk hprocess fun _ => ?_
  rintro s ⟨ended, hs⟩
  refine Meets.weaken (P := At (Kept ended) false false) (Q := fun _ => Verdict h spec files)
    (fun _ ht => ht) ?_ s hs
  refine Meets.bind_of_isOk (Meets.ignoreError (meets_onDisk removed_removeDirAll)) fun _ => ?_
  exact Meets.when_bind (R := fun _ => Verdict h spec files)
    (fun _ => Meets.of_throw fun _ ht => ht)
    (Meets.of_pure fun t ht => verdict_of_inVm hin ht) fun _ t ht => verdict_of_inVm hin ht

section Runs

variable (hstarts : h.Starts spec files)

include hstarts

theorem verdict_of_at (s : Site)
    (hs : At (Begun (h.showUuid spec.jobId)) sampler ticker s) : Verdict h spec files s :=
  verdict_of_begun hstarts hs.1

/-- The process was waited for; what follows cannot fail before the job is cleared away. -/
theorem verdict_runSandboxed (hfresh : spec.checkpointUrl = none) (hvm : ¬h.InVm spec) :
    Meets (At (Begun (h.showUuid spec.jobId)) false false) (JobTask.runSandboxed h spec)
      fun _ => Verdict h spec files := by
  have hsandbox : Meets (At (Begun (h.showUuid spec.jobId)) false false)
      (JobTask.newSandbox h (h.showUuid spec.jobId))
      fun _ => At (Begun (h.showUuid spec.jobId)) false false :=
    (begun_step (FileSystem.keepsDirs_createDirAll _)).bind
      (fun _ => begun_step (FileSystem.keepsDirs_write _ _)) fun _ _ hs => hs
  refine hsandbox.bind (fun _ => ?_) fun _ => verdict_of_at hstarts
  refine Meets.modify_bind (At (Begun (h.showUuid spec.jobId)) true false) ?_
    fun s hs => ⟨hs.1, rfl, hs.2.2⟩
  refine Meets.ite_bind (fun _ => process_runWithDmtcp) (fun _ => process_runDirect)
    (fun exitCode => ?_) fun e s hs => verdict_of_failed hstarts hvm hs
  rintro s ⟨⟨hended, hexit⟩, hbeside⟩
  have hkept : At (Kept s.disk.files) true false s := ⟨⟨hended, fun _ _ => rfl⟩, hbeside⟩
  refine Meets.weaken (P := At (Kept s.disk.files) true false) (Q := fun _ => Verdict h spec files)
    (fun _ ht => ht) ?_ s hkept
  refine Meets.modify_bind (At (Kept s.disk.files) false false) ?_ fun t ht => ⟨ht.1, rfl, ht.2.2⟩
  refine Meets.bind_of_isOk (meets_onDisk_isOk kept_outputHash) fun outputHash => ?_
  refine Meets.when_bind_of_isOk (fun _ => meets_onDisk_isOk kept_sessionCleanup) ?_
  refine Meets.bind_of_isOk (Meets.ignoreError cleared_cleanupSandbox) fun _ => ?_
  refine Meets.bind (Q := fun _ => At (Cleared h spec s.disk.files) false false)
    (Meets.of_ofExcept fun t ht => ht) (fun _ => Meets.of_pure ?_) ?_
  · exact fun t ht => verdict_of_cleared hfresh hvm hexit ht
  · exact fun e t ht => verdict_of_cleared hfresh hvm hexit ht

/-- Nothing is removed here but the checkpoint. -/
theorem verdict_runRestore (hrestored : spec.checkpointUrl.isSome) :
    Meets (At (Begun (h.showUuid spec.jobId)) false false) (JobTask.runRestore h spec)
      fun _ => Verdict h spec files := by
  have hvm : ¬h.InVm spec := fun hin => by simp [hin.1] at hrestored
  refine Meets.when_bind (R := fun _ => Verdict h spec files)
    (fun _ => Meets.of_throw fun _ hs => hs) ?_ fun _ => verdict_of_at hstarts
  refine Meets.bind (Q := fun _ => At (Begun (h.showUuid spec.jobId)) false false)
    (Meets.of_ofExcept fun _ hs => hs) (fun fetched => ?_) fun _ => verdict_of_at hstarts
  refine begun_restore.bind (fun _ => ?_) fun _ => verdict_of_at hstarts
  refine process_waitWithTicker.bind (fun exitCode => ?_)
    fun e s hs => verdict_of_failed hstarts hvm hs
  rintro s ⟨⟨hended, hexit⟩, hbeside⟩
  have hkept : At (Kept s.disk.files) false false s := ⟨⟨hended, fun _ _ => rfl⟩, hbeside⟩
  refine Meets.weaken (P := At (Kept s.disk.files) false false) (Q := fun _ => Verdict h spec files)
    (fun _ ht => ht) ?_ s hkept
  refine Meets.when_bind_of_isOk (fun _ => meets_onDisk_isOk kept_sessionCleanup) ?_
  refine Meets.bind_of_isOk (meets_onDisk_isOk kept_outputHash) fun outputHash => ?_
  refine Meets.bind (Q := fun _ => At (Kept s.disk.files) false false)
    (Meets.of_ofExcept fun t ht => ht) (fun _ => Meets.of_pure ?_) ?_
  · exact fun t ht => verdict_of_restored hrestored hexit ht
  · exact fun e t ht => verdict_of_restored hrestored hexit ht

end Runs

/-! ### The task -/

theorem begun_ignored {name : OsStep} {error : RunError} {f : FileSystem → Option FileSystem}
    (hkeeps : FileSystem.KeepsDirs f) :
    Meets (At (Begun jobId) sampler ticker) (h.step name error f).ignoreError
      fun result s => result.isOk ∧ At (Begun jobId) sampler ticker s :=
  Meets.ignoreError (begun_step hkeeps)

theorem keepsDirs_some : FileSystem.KeepsDirs some := by
  rintro fs _ p ⟨rfl⟩ hdir
  exact hdir

theorem begun_downloadBundle {url expectedHash : String} :
    Meets (At (Begun jobId) sampler ticker) (JobTask.downloadBundle h jobId url expectedHash)
      fun _ => At (Begun jobId) sampler ticker := by
  refine (begun_step (FileSystem.keepsDirs_createDirAll _)).bind (fun _ => ?_) fun _ _ hs => hs
  refine Meets.when_bind (R := fun _ => At (Begun jobId) sampler ticker)
    (fun _ => Meets.of_throw fun _ hs => hs) ?_ fun _ _ hs => hs
  cases h.curl url with
  | none =>
      cases h.partialDownload with
      | none => exact Meets.of_throw fun _ hs => hs
      | some received =>
          exact Meets.bind_of_isOk (Meets.ignoreError (begun_change (FileSystem.keepsDirs_write _ _)))
            fun _ => Meets.of_throw fun _ hs => hs
  | some content =>
      refine (begun_change (FileSystem.keepsDirs_write _ _)).bind (fun _ => ?_) fun _ _ hs => hs
      refine Meets.ite (fun _ => ?_) fun _ => Meets.of_pure fun _ hs => hs
      refine (begun_step keepsDirs_some).bind (fun _ => ?_) fun _ _ hs => hs
      refine Meets.ite (fun _ => ?_) fun _ => Meets.of_pure fun _ hs => hs
      exact Meets.bind_of_isOk (begun_ignored (FileSystem.keepsDirs_removeFile _))
        fun _ => Meets.of_throw fun _ hs => hs

theorem begun_extractBundle :
    Meets (At (Begun jobId) sampler ticker) (JobTask.extractBundle h jobId)
      fun _ => At (Begun jobId) sampler ticker := by
  refine Meets.when_bind (R := fun _ => At (Begun jobId) sampler ticker)
    (fun _ => Meets.of_throw fun _ hs => hs) (begun_change ?_) fun _ _ hs => hs
  intro fs after p hextract hdir
  obtain ⟨content, -, htar⟩ := Option.bind_eq_some_iff.mp hextract
  exact h.tar_keeps content _ fs after p htar hdir

theorem begun_entryScript :
    Meets (At (Begun jobId) sampler ticker) (onDisk (JobRunner.entryScript h.toMachine spec))
      fun _ => At (Begun jobId) sampler ticker := by
  refine meets_onDisk (Q := fun _ => Begun jobId)
    (Meets.get_bind fun d => Meets.weaken (fun _ hd => hd.2) ?_)
  dsimp only
  split
  · exact Meets.of_pure fun _ hd => hd
  · exact Meets.of_throw fun _ hd => hd

/-- Before the working directory is made, and where it is not made. -/
def Untouched (files : FileSystem) (d : Disk) : Prop := d = ⟨files, none⟩

theorem verdict_of_untouched {s : Site} (hnot : ¬h.Starts spec files)
    (hs : At (Untouched files) false false s) : Verdict h spec files s := by
  obtain ⟨hd, hbeside⟩ := hs
  rw [Verdict, and_iff_left hbeside, hd, Host.NothingLeft, and_iff_right hnot]

/-- The working directory is made, or nothing has happened. -/
def Opened (h : Host) (spec : JobSpec) (files : FileSystem) : Except RunError Unit → Site → Prop
  | .ok _, s => h.Starts spec files ∧ At (Begun (h.showUuid spec.jobId)) false false s
  | .error _, s => ¬h.Starts spec files ∧ At (Untouched files) false false s

theorem opened_workDir (hgiven : ¬(spec.bundleUrl.isEmpty ∧ spec.checkpointUrl.isNone)) :
    Meets (At (Untouched files) false false)
      (h.step .workDir .io (·.createDirAll (workDir (h.showUuid spec.jobId))))
      (Opened h spec files) := by
  refine Meets.ite (fun hrefused => Meets.of_throw fun s hs => ⟨fun hstarts => ?_, hs⟩)
    fun hallowed => ?_
  · rw [hstarts.allowed] at hrefused
    cases hrefused
  · rintro s ⟨hdisk, hbeside⟩
    change Opened h spec files ((change _ _).outcome s.disk).1 { s with disk := _ }
    rw [hdisk, outcome_change]
    cases hcreate : files.createDirAll (workDir (h.showUuid spec.jobId)) with
    | none =>
        refine ⟨fun hstarts => ?_, rfl, hbeside⟩
        have hcreated := hstarts.created
        rw [hcreate] at hcreated
        cases hcreated
    | some after =>
        refine ⟨⟨hgiven, Bool.eq_false_of_not_eq_true hallowed, by rw [hcreate]; rfl⟩, ⟨rfl, ?_⟩,
          hbeside⟩
        exact (FileSystem.node_createDirAll hcreate).trans (if_pos List.prefix_rfl)

/-- Whatever fails. -/
theorem verdict_run (h : Host) (spec : JobSpec) (files : FileSystem) :
    Meets (At (Untouched files) false false) (JobTask.run h spec)
      fun _ => Verdict h spec files := by
  refine Meets.ite (fun hempty => ?_) fun hgiven => ?_
  · exact Meets.of_throw fun s hs => verdict_of_untouched (fun hstarts => hstarts.given hempty) hs
  · refine (opened_workDir hgiven).bind (fun _ => ?_) fun e s hs => verdict_of_untouched hs.1 hs.2
    rintro s ⟨hstarts, hbegun⟩
    refine Meets.weaken (P := At (Begun (h.showUuid spec.jobId)) false false)
      (Q := fun _ => Verdict h spec files) (fun _ ht => ht) ?_ s hbegun
    refine Meets.ite (verdict_runRestore hstarts) fun hfresh => ?_
    have hnone : spec.checkpointUrl = none := Option.not_isSome_iff_eq_none.mp hfresh
    refine begun_downloadBundle.bind (fun _ => ?_) fun _ => verdict_of_at hstarts
    refine begun_extractBundle.bind (fun _ => ?_) fun _ => verdict_of_at hstarts
    refine Meets.bind_of_isOk (begun_ignored (FileSystem.keepsDirs_removeFile _)) fun _ => ?_
    refine begun_entryScript.bind (fun _ => ?_) fun _ => verdict_of_at hstarts
    split
    · rename_i vmRun hvm
      exact verdict_runInVm ⟨hnone, vmRun, hvm⟩
    · rename_i hvm
      exact verdict_runSandboxed hstarts hnone fun hin => hin.2.elim hvm

/-- A job leaves nothing behind exactly when nothing was begun and nothing was there, or when its
process was waited for and what it left was removed. -/
theorem leaves_nothing_iff (h : Host) (spec : JobSpec) (files : FileSystem) :
    LeavesNothing (h.showUuid spec.jobId) (jobTask h spec files).2 ↔
      h.NothingLeft spec files (jobTask h spec files).2.disk.atExit := by
  have hverdict := verdict_run h spec files ⟨⟨files, none⟩, false, false, true⟩ ⟨rfl, rfl, rfl⟩
  rw [jobTask]
  cases hrun : (JobTask.run h spec).outcome ⟨⟨files, none⟩, false, false, true⟩ with
  | mk result s =>
      rw [hrun, Verdict] at hverdict
      have hall : ∀ s' : Site, s'.disk = s.disk → s'.samplerRuns = s.samplerRuns →
          s'.tickerRuns = s.tickerRuns → s'.heartbeatRuns = false →
            (LeavesNothing (h.showUuid spec.jobId) s' ↔
              h.NothingLeft spec files s'.disk.atExit) := by
        intro s' hdisk hsampler hticker hheartbeat
        rw [hdisk, ← hverdict, ← hsampler, ← hticker, ← hdisk]
        exact ⟨fun hleft => ⟨hleft.files, hleft.sampler, hleft.ticker⟩,
          fun hleft => ⟨hleft.1, hleft.2.1, hleft.2.2, hheartbeat⟩⟩
      cases result with
      | ok done => exact hall _ rfl rfl rfl rfl
      | error e => exact hall _ rfl rfl rfl rfl

/-! ### A job that is restored, and one that cannot be started -/

/-- A machine that refuses nothing. -/
def calm (m : Machine) (hkeeps : ∀ content dir, FileSystem.KeepsDirs (m.tar content dir)) : Host :=
  { m with
    refuses := fun _ => false
    partialDownload := none
    vm := none
    tar_keeps := hkeeps }

def restoringHost : Host := calm restoringMachine fun _ _ => FileSystem.keepsDirs_write _ _

/-- `sandbox-exec` is missing. -/
def brokenHost : Host :=
  calm { sandboxMachine with spawnError := some (.text "Failed to spawn sandbox-exec") }
    fun _ _ => FileSystem.keepsDirs_write _ _

/-- The restored job ends well and leaves its directory; the other one leaves all but the archive,
and its sampler. -/
theorem jobs_leave_files :
    (restoringHost.exit = .ok (some 0) ∧
      ¬LeavesNothing "00000000-0000-0000-0000-000000000000"
        (jobTask restoringHost restoredJob checkpointDisk).2) ∧
      (jobTask brokenHost printJob emptyDisk).2.samplerRuns = true ∧
      ¬LeavesNothing "00000000-0000-0000-0000-000000000000"
        (jobTask brokenHost printJob emptyDisk).2 := by
  have hrestored : (jobTask restoringHost restoredJob checkpointDisk).2.disk.files.pathExists
      (workDir "00000000-0000-0000-0000-000000000000") = true := by decide +kernel
  have hbroken : (jobTask brokenHost printJob emptyDisk).2.samplerRuns = true := by decide +kernel
  refine ⟨⟨rfl, fun hleft => ?_⟩, hbroken, fun hleft => ?_⟩
  · rw [FileSystem.pathExists, hleft.files.workDir] at hrestored
    cases hrestored
  · rw [hleft.sampler] at hbroken
    cases hbroken

end NeuralMesh.Agent
