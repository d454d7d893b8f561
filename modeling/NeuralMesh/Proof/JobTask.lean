import NeuralMesh.Agent.JobTask

/-!
# The task and its files

On a machine that refuses nothing and has no virtual machine, the task does to the disk what the
runner of files does, once the download is accepted.
-/

namespace NeuralMesh.Agent

variable {h : Host} {spec : JobSpec} {jobId : String}

/-- Nothing is refused, and there is no virtual machine. -/
structure Plain (h : Host) : Prop where
  refuses : ∀ step, h.refuses step = false
  vm : h.vm = none

theorem imitates_onDisk {α : Type} (x : JobM α) : Imitates Site.disk x (onDisk x) :=
  fun _ => ⟨rfl, rfl⟩

theorem outcome_onDisk {α : Type} (x : JobM α) (s : Site) :
    (onDisk x).outcome s = ((x.outcome s.disk).1, { s with disk := (x.outcome s.disk).2 }) := rfl

theorem imitates_change {error error' : RunError} {f : FileSystem → Option FileSystem} :
    Imitates Site.disk (change error f) (onDisk (change error' f)) := by
  intro s
  change ((change error' f).outcome s.disk).1.toOption = _ ∧ ((change error' f).outcome s.disk).2 = _
  rw [outcome_change, outcome_change]
  cases f s.disk.files <;> exact ⟨rfl, rfl⟩

theorem outcome_step {name : OsStep} {error : RunError} {f : FileSystem → Option FileSystem}
    (s : Site) :
    (h.step name error f).outcome s =
      match if h.refuses name then none else f s.disk.files with
      | some files => (.ok (), { s with disk := { s.disk with files := files } })
      | none => (.error error, s) := by
  rw [Host.step]
  cases h.refuses name with
  | true => rfl
  | false =>
      rw [if_neg Bool.false_ne_true, if_neg Bool.false_ne_true, outcome_onDisk, outcome_change]
      cases f s.disk.files <;> rfl

theorem imitates_step {name : OsStep} {error error' : RunError}
    {f : FileSystem → Option FileSystem} (hrefuses : h.refuses name = false) :
    Imitates Site.disk (change error f) (h.step name error' f) := by
  rw [Host.step, if_neg (Bool.eq_false_iff.mp hrefuses)]
  exact imitates_change

theorem imitates_waitWithTicker : Imitates Site.disk h.wait (JobTask.waitWithTicker h) := by
  have hwait : Imitates Site.disk (h.wait >>= pure) (JobTask.waitWithTicker h) := by
    refine Imitates.modify_bind (fun _ => rfl) ((imitates_onDisk _).bind fun exitCode => ?_)
    exact Imitates.modify_bind (fun _ => rfl) (Imitates.pure exitCode)
  rwa [bind_pure] at hwait

section Plain

variable (hplain : Plain h)

include hplain

theorem imitates_newSandbox :
    Imitates Site.disk (SandboxProfile.new h.toMachine jobId) (JobTask.newSandbox h jobId) :=
  (imitates_step (hplain.refuses _)).bind fun _ => imitates_step (hplain.refuses _)

theorem imitates_cleanupSandbox :
    Imitates Site.disk (SandboxProfile.cleanup h.toMachine jobId)
      (JobTask.cleanupSandbox h jobId) := by
  have hprofile : Imitates Site.disk
      (do if (← get).files.pathExists (profilePath jobId) then
            change .io (·.removeFile (profilePath jobId)))
      (do if (← get).disk.files.pathExists (profilePath jobId) then
            h.step .removeProfile .io (·.removeFile (profilePath jobId))) :=
    Imitates.get_bind fun s => Imitates.ite (fun _ => imitates_step (hplain.refuses _))
      fun _ => Imitates.pure _
  exact Imitates.get_bind fun s => Imitates.ite
    (fun _ => (imitates_onDisk _).bind fun _ => hprofile) fun _ => hprofile

theorem imitates_openLogStdio :
    Imitates Site.disk (openLogStdio jobId) (JobTask.openLogStdio h jobId) :=
  imitates_step (hplain.refuses _)

theorem imitates_restore {fetched : CheckpointMeta} :
    Imitates Site.disk (DmtcpSession.restore h.toMachine fetched jobId)
      (JobTask.restore h fetched jobId) := by
  refine Imitates.ite (fun _ => (Imitates.throw _ _).bind fun _ => ?_) fun _ => ?_
  all_goals
    refine Imitates.get_bind fun s => Imitates.ite (fun _ => (Imitates.throw _ _).bind fun _ => ?_)
      fun _ => ?_
  all_goals exact (imitates_openLogStdio hplain).bind fun _ => imitates_onDisk _

theorem imitates_runDirect :
    Imitates Site.disk (JobRunner.runDirect h.toMachine jobId) (JobTask.runDirect h jobId) :=
  (imitates_step (hplain.refuses _)).bind fun _ =>
    (imitates_onDisk _).bind fun _ => imitates_onDisk _

theorem imitates_runWithDmtcp :
    Imitates Site.disk (JobRunner.runWithDmtcp h.toMachine jobId)
      (JobTask.runWithDmtcp h jobId) :=
  (imitates_step (hplain.refuses _)).bind fun _ => (imitates_openLogStdio hplain).bind fun _ =>
    (imitates_onDisk _).bind fun _ => imitates_waitWithTicker

theorem imitates_runSandboxed :
    Imitates Site.disk (JobRunner.runSandboxed h.toMachine spec) (JobTask.runSandboxed h spec) := by
  refine (imitates_newSandbox hplain).bind fun _ => Imitates.modify_bind (fun _ => rfl) ?_
  refine Imitates.ite (fun _ => (imitates_runWithDmtcp hplain).bind fun exitCode => ?_)
    fun _ => (imitates_runDirect hplain).bind fun exitCode => ?_
  all_goals
    refine Imitates.modify_bind (fun _ => rfl) ((imitates_onDisk _).bind fun outputHash => ?_)
    refine Imitates.ite (fun _ => (imitates_onDisk _).bind fun _ => ?_) fun _ => ?_
  all_goals
    refine (imitates_cleanupSandbox hplain).ignoreError.bind fun _ => ?_
    exact (Imitates.ofExcept _).bind fun _ => Imitates.pure _

theorem imitates_runRestore :
    Imitates Site.disk (JobRunner.runRestore h.toMachine spec) (JobTask.runRestore h spec) := by
  refine Imitates.ite (fun _ => (Imitates.throw _ _).bind fun _ => ?_) fun _ => ?_
  all_goals
    refine (Imitates.ofExcept _).bind fun fetched => (imitates_restore hplain).bind fun _ => ?_
    refine imitates_waitWithTicker.bind fun exitCode => ?_
    refine Imitates.ite (fun _ => (imitates_onDisk _).bind fun _ => ?_) fun _ => ?_
  all_goals
    refine (imitates_onDisk _).bind fun outputHash => ?_
    exact (Imitates.ofExcept _).bind fun _ => Imitates.pure _

/-- Reading the archive back changes nothing. -/
theorem step_some {name : OsStep} {error : RunError} :
    h.step name error some = pure () := by
  funext s
  refine (outcome_step s).trans ?_
  rw [hplain.refuses name]
  rfl

theorem downloadBundle_eq {url expectedHash : String} {content : Bytes}
    (haccepted : downloadBundle h.sha256 h.curl url expectedHash = .ok content) :
    JobTask.downloadBundle h jobId url expectedHash = (do
      h.step .baseDir .io (·.createDirAll ["tmp", "neuralmesh"])
      onDisk (change (.text ("curl failed downloading bundle from " ++ url))
        (·.write (bundlePath jobId) content))) := by
  rw [downloadBundle] at haccepted
  cases hcurl : h.curl url with
  | none =>
      rw [hcurl] at haccepted
      cases haccepted
  | some received =>
      rw [hcurl] at haccepted
      dsimp only at haccepted
      rw [JobTask.downloadBundle, hcurl, if_neg (Bool.eq_false_iff.mp (hplain.refuses .curl))]
      dsimp only
      have hchecked : (if (!expectedHash.isEmpty) = true then do
            h.step .readBundle .io some
            if h.sha256 received ≠ expectedHash then
              (h.step .dropBundle .io (·.removeFile (bundlePath jobId))).ignoreError
              throw (.text ("Bundle hash mismatch: expected " ++ expectedHash ++ ", got " ++
                h.sha256 received))
          else pure () : TaskM Unit) = pure () ∧ received = content := by
        by_cases hgiven : expectedHash.isEmpty
        · rw [if_pos hgiven] at haccepted
          cases haccepted
          rw [hgiven]
          exact ⟨rfl, rfl⟩
        · rw [if_neg hgiven] at haccepted
          split at haccepted
          · cases haccepted
          · rename_i hsame
            cases haccepted
            rw [step_some hplain, pure_bind, if_neg hsame, ite_self]
            exact ⟨rfl, rfl⟩
      rw [hchecked.1, hchecked.2, bind_pure_unit]

/-- The archive that `tar` reads is the one that was written. -/
theorem imitates_extract {error error' error'' : RunError} {content : Bytes} :
    Imitates Site.disk
      (do
        change error (·.write (bundlePath jobId) content)
        change error' (h.tar content (workDir jobId)))
      (do
        onDisk (change error'' (·.write (bundlePath jobId) content))
        JobTask.extractBundle h jobId) := by
  rw [JobTask.extractBundle, if_neg (Bool.eq_false_iff.mp (hplain.refuses .tar))]
  intro s
  rw [Fallible.outcome_bind, Fallible.outcome_bind, outcome_onDisk, outcome_change, outcome_change]
  dsimp only
  cases hwrite : s.disk.files.write (bundlePath jobId) content with
  | none => exact ⟨rfl, rfl⟩
  | some written =>
      dsimp only
      rw [outcome_onDisk, outcome_change, outcome_change]
      dsimp only
      rw [FileSystem.read_write hwrite, Option.bind_some]
      cases h.tar content (workDir jobId) written <;> exact ⟨rfl, rfl⟩

theorem imitates_extract_bind {α : Type} {error error' error'' : RunError} {content : Bytes}
    {next : JobM α} {next' : TaskM α} (hnext : Imitates Site.disk next next') :
    Imitates Site.disk
      (do
        change error (·.write (bundlePath jobId) content)
        change error' (h.tar content (workDir jobId))
        next)
      (do
        onDisk (change error'' (·.write (bundlePath jobId) content))
        JobTask.extractBundle h jobId
        next') := by
  rw [← bind_assoc, ← bind_assoc]
  exact (imitates_extract hplain).bind fun _ => hnext

/-- The task does to the disk what the runner of files does, and fails when it does. -/
theorem imitates_run
    (haccepted : spec.checkpointUrl = none → ∃ content,
      downloadBundle h.sha256 h.curl spec.bundleUrl spec.bundleHash = .ok content) :
    Imitates Site.disk (JobRunner.run h.toMachine spec) (JobTask.run h spec) := by
  refine Imitates.ite (fun _ => (Imitates.throw _ _).bind fun _ => ?_) fun _ => ?_
  all_goals
    refine (imitates_step (hplain.refuses _)).bind fun _ => ?_
    refine Imitates.ite (fun _ => imitates_runRestore hplain) fun hfresh => ?_
    obtain ⟨content, hcontent⟩ := haccepted (Option.not_isSome_iff_eq_none.mp hfresh)
    rw [downloadBundle_eq hplain hcontent, hcontent, bind_assoc]
    refine (imitates_step (hplain.refuses _)).bind fun _ => ?_
    have hdownloaded : (Fallible.ofExcept ((Except.ok content).mapError RunError.text) : JobM Bytes) =
        pure content := rfl
    rw [hdownloaded, pure_bind]
    refine imitates_extract_bind hplain ?_
    refine (imitates_step (hplain.refuses _)).ignoreError.bind fun _ => ?_
    refine (imitates_onDisk _).bind fun _ => ?_
    rw [hplain.vm]
    exact imitates_runSandboxed hplain

/-- The task posts what the runner of files leaves in the log. -/
theorem jobTask_posts (files : FileSystem)
    (haccepted : spec.checkpointUrl = none → ∃ content,
      downloadBundle h.sha256 h.curl spec.bundleUrl spec.bundleHash = .ok content) :
    (jobTask h spec files).1 = task h.toMachine spec files := by
  obtain ⟨hresult, hdisk⟩ := imitates_run hplain haccepted ⟨⟨files, none⟩, false, false, true⟩
  rw [jobTask, task]
  dsimp only at hresult hdisk
  revert hresult hdisk
  cases (JobTask.run h spec).outcome ⟨⟨files, none⟩, false, false, true⟩ with
  | mk result s =>
      cases (JobRunner.run h.toMachine spec).outcome ⟨files, none⟩ with
      | mk result' d =>
          intro hresult hdisk
          dsimp only at hresult hdisk
          subst hdisk
          cases result <;> cases result' <;> cases hresult <;> rfl

end Plain

end NeuralMesh.Agent
