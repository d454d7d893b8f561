import NeuralMesh.Proof.PartialRestore

/-!
# No fresh start

A job with a checkpoint is restored or it fails; its bundle is never asked for. The first command of a
run from the bundle is another one than that of a restore, and where neither gets as far as a command
the errors differ. So the runs are the same only where no directory can be made for the job.
-/

namespace NeuralMesh.Agent

open JobCommands Recording

variable {h : Host} {spec : JobSpec} {jobId : String} {fetched : CheckpointMeta} {R : List Command}
  {α β : Type}

/-- The program was the first one to be started. -/
def Started (R : List Command) (program : String) (w : Noted Site Command) : Prop :=
  ∃ command, command.program = program ∧ R ++ [command] <+: w.record

theorem started_keeps {x : CommandM α} {program : String} (hx : Keeps x) :
    Meets (Started R program) x fun _ => Started R program := by
  rintro w ⟨command, hprogram, hnoted⟩
  exact ⟨command, hprogram, hx _ w hnoted⟩

/-- A restore ended, with an error before any command or with its command. -/
def RestoreEnds (R : List Command) (result : Except RunError α) (w : Noted Site Command) : Prop :=
  (∃ message, result = .error (.text message) ∧ message ≠ "curl download" ∧ w.record = R) ∨
    Started R "dmtcp_restart" w

/-- A run from the bundle ended. -/
def FreshEnds (R : List Command) (result : Except RunError α) (w : Noted Site Command) : Prop :=
  (∃ error, result = .error error ∧ (error = .io ∨ error = .text "curl download") ∧ w.record = R) ∨
    Started R "curl" w

theorem restoreEnds_ok {a : α} {w : Noted Site Command} :
    RestoreEnds R (.ok a : Except RunError α) w ↔ Started R "dmtcp_restart" w :=
  or_iff_right fun ⟨_, hresult, _⟩ => nomatch hresult

theorem freshEnds_ok {a : α} {w : Noted Site Command} :
    FreshEnds R (.ok a : Except RunError α) w ↔ Started R "curl" w :=
  or_iff_right fun ⟨_, hresult, _⟩ => nomatch hresult

/-- An error goes through what follows. -/
theorem RestoreEnds.error {e : RunError} {w : Noted Site Command}
    (hends : RestoreEnds R (.error e : Except RunError α) w) :
    RestoreEnds R (.error e : Except RunError β) w := by
  rcases hends with ⟨message, hresult, hrest⟩ | hstarted
  · cases hresult
    exact .inl ⟨message, rfl, hrest⟩
  · exact .inr hstarted

theorem FreshEnds.error {e : RunError} {w : Noted Site Command}
    (hends : FreshEnds R (.error e : Except RunError α) w) :
    FreshEnds R (.error e : Except RunError β) w := by
  rcases hends with ⟨e', hresult, hrest⟩ | hstarted
  · cases hresult
    exact .inl ⟨e, rfl, hrest⟩
  · exact .inr hstarted

theorem not_restore_and_fresh {result : Except RunError α} {w : Noted Site Command}
    (hrestore : RestoreEnds R result w) : ¬FreshEnds R result w := by
  rintro hfresh
  rcases hrestore with ⟨message, hresult, hother, hsame⟩ | ⟨command, hrestart, hnoted⟩
  · rcases hfresh with ⟨error, hfailed, herror, -⟩ | ⟨command, -, hnoted⟩
    · cases hresult.symm.trans hfailed
      rcases herror with hio | hcurl
      · cases hio
      · cases hcurl
        exact hother rfl
    · rw [hsame] at hnoted
      exact not_noted _ _ hnoted
  · rcases hfresh with ⟨error, -, -, hsame⟩ | ⟨command', hcurl, hnoted'⟩
    · rw [hsame] at hnoted
      exact not_noted _ _ hnoted
    · rw [eq_of_noted hnoted hnoted', hcurl] at hrestart
      exact absurd hrestart (by decide)

/-! ### A restore -/

theorem ne_curlDownload {front rest : String} (hne : front ≠ "")
    (hhead : front.toList.head? ≠ some 'c') : front ++ rest ≠ "curl download" := by
  intro hsame
  have hfirst := congrArg (fun text : String => text.toList.head?) hsame
  rw [String.toList_append, List.head?_append_of_ne_nil _ fun hnil => hne (String.toList_inj.mp hnil)]
    at hfirst
  exact hhead hfirst

theorem restoreEnds_error {message : String} (hother : message ≠ "curl download")
    {w : Noted Site Command} (hw : w.record = R) :
    RestoreEnds R (.error (.text message) : Except RunError α) w :=
  .inl ⟨message, rfl, hother, hw⟩

theorem noted_step {name : OsStep} {error : RunError} {f : FileSystem → Option FileSystem} :
    Meets (fun w : Noted Site Command => w.record = R) (silently (h.step name error f))
      fun result w => (result = .ok () ∨ result = .error error) ∧ w.record = R := by
  rintro w rfl
  refine ⟨?_, rfl⟩
  rw [outcome_silently, outcome_step]
  cases (if h.refuses name then none else f w.state.disk.files) with
  | none => exact .inr rfl
  | some files => exact .inl rfl

theorem noted_spawn {command : Command} {context : String} :
    Meets (fun w => w.record = R) (spawn h command context) fun result w =>
      (result = .error (.text context) ∧ w.record = R) ∨ w.record = R ++ [command] := by
  rintro w rfl
  rw [outcome_spawn]
  cases h.spawnError with
  | none => exact .inr rfl
  | some e => exact .inl ⟨rfl, rfl⟩

theorem meets_restore :
    Meets (fun w => w.record = R) (restore h fetched jobId) (RestoreEnds R) := by
  refine Meets.ite (fun _ => Meets.throw_bind fun w hw => ?_) fun _ => ?_
  · exact restoreEnds_error (ne_curlDownload (by decide) (by decide)) hw
  refine Meets.get_bind fun w => Meets.weaken (fun _ ht => ht.2) (Meets.ite (fun _ => ?_) fun _ => ?_)
  · refine Meets.throw_bind fun w hw => restoreEnds_error ?_ hw
    rw [String.append_assoc, String.append_assoc]
    exact ne_curlDownload (by decide) (by decide)
  refine noted_step.bind (fun _ => Meets.weaken (fun _ ht => ht.2) (noted_spawn.mono ?_)) ?_
  · rintro result t (⟨rfl, ht⟩ | ht)
    · exact restoreEnds_error (by decide) ht
    · exact .inr ⟨_, rfl, by rw [ht]⟩
  · rintro e t ⟨hresult, ht⟩
    cases hresult.resolve_left nofun
    exact restoreEnds_error (ne_curlDownload (by decide) (by decide)) ht

theorem keeps_cleanup {c : Prop} [Decidable c] {x : JobM Unit} {next : Unit → CommandM α}
    (hnext : Keeps (next ())) :
    Keeps (if c then silently (onDisk x) >>= next else next ()) :=
  Keeps.ite (fun _ => (Keeps.silently _).bind fun _ => hnext) fun _ => hnext

theorem meets_runRestore :
    Meets (fun w => w.record = R) (JobCommands.runRestore h spec) (RestoreEnds R) := by
  refine Meets.ite (fun _ => Meets.throw_bind fun w hw => ?_) fun _ => ?_
  · refine restoreEnds_error ?_ hw
    rw [String.append_assoc]
    exact ne_curlDownload (by decide) (by decide)
  refine Meets.bind (Q := fun result w => w.record = R ∧ ∀ e, result = .error e →
      e = .text "Could not fetch checkpoint metadata from coordinator") ?_ (fun fetched => ?_) ?_
  · refine Meets.withContext (Meets.of_ofExcept fun w hw => ⟨hw, fun e he => ?_⟩)
    cases hmeta : h.fetchCheckpointMeta with
    | ok fetched =>
        rw [hmeta] at he
        cases he
    | error e' =>
        rw [hmeta] at he
        cases he
        rfl
  · refine Meets.weaken (fun _ ht => ht.1) (meets_restore.bind (fun _ => ?_) fun _ _ ht => ht.error)
    refine Meets.weaken (fun _ ht => restoreEnds_ok.mp ht) ((started_keeps ?_).mono fun _ _ ht => .inr ht)
    refine (Keeps.silently _).bind fun exitCode => keeps_cleanup ?_
    exact (Keeps.silently _).bind fun outputHash => (Keeps.ofExcept _).bind fun _ => Keeps.pure _
  · rintro e t ⟨ht, herror⟩
    rw [herror e rfl]
    exact restoreEnds_error (by decide) ht

/-! ### A run from the bundle -/

theorem meets_downloadBundle {url expectedHash : String} :
    Meets (fun w => w.record = R) (JobCommands.downloadBundle h jobId url expectedHash)
      (FreshEnds R) := by
  refine noted_step.bind (fun _ => Meets.weaken (fun _ ht => ht.2) ?_) ?_
  · refine Meets.ite (fun _ => Meets.throw_bind fun t ht => ?_) fun _ => ?_
    · exact .inl ⟨_, rfl, .inr rfl, ht⟩
    · refine (Meets.of_note.bind (fun _ => ?_) fun e t ht => nomatch ht.1)
      rintro t ⟨-, ht⟩
      exact .inr ⟨_, rfl, by rw [outcome_silently, ht]⟩
  · rintro e t ⟨hresult, ht⟩
    cases hresult.resolve_left nofun
    exact .inl ⟨_, rfl, .inl rfl, ht⟩

theorem keeps_extractBundle : Keeps (extractBundle h jobId) :=
  Keeps.ite (fun _ => (Keeps.throw _).bind fun _ => (Keeps.note _).bind fun _ => Keeps.silently _)
    fun _ => (Keeps.note _).bind fun _ => Keeps.silently _

theorem keeps_spawn {command : Command} {context : String} : Keeps (spawn h command context) :=
  ((Keeps.silently _).withContext _).bind fun _ => Keeps.note _

section Runs

variable {which : String → Bool} {pythonPrefix pythonBin : String} {entryScript : Path}
  {w : Noted Site Command}

theorem keeps_runDirect : Keeps (JobCommands.runDirect h jobId pythonBin entryScript) :=
  (Keeps.silently _).bind fun _ => keeps_spawn.bind fun _ => Keeps.silently _

theorem keeps_runWithDmtcp : Keeps (JobCommands.runWithDmtcp h jobId pythonBin entryScript) :=
  (Keeps.silently _).bind fun _ => (Keeps.silently _).bind fun _ =>
    keeps_spawn.bind fun _ => Keeps.silently _

theorem keeps_runSandboxed :
    Keeps (JobCommands.runSandboxed h which pythonPrefix spec entryScript) := by
  refine (Keeps.silently _).bind fun _ => Keeps.get_bind fun t => Keeps.modify_bind (fun _ => rfl) ?_
  refine Keeps.ite (fun _ => keeps_runWithDmtcp.bind fun exitCode => ?_)
    fun _ => keeps_runDirect.bind fun exitCode => ?_
  all_goals
    refine Keeps.modify_bind (fun _ => rfl) ((Keeps.silently _).bind fun outputHash => ?_)
    refine keeps_cleanup ((Keeps.silently _).bind fun _ => ?_)
    exact (Keeps.ofExcept _).bind fun _ => Keeps.pure _

/-! ### The two runs -/

/-- Where no directory can be made, nothing else happens. -/
theorem run_of_not_starts (hgiven : ¬(spec.bundleUrl.isEmpty ∧ spec.checkpointUrl.isNone))
    (hnot : ¬h.Starts spec w.state.disk.files) :
    (run h which pythonPrefix spec).outcome w = (.error .io, w) := by
  rw [run, if_neg hgiven, Fallible.outcome_bind, outcome_silently,
    outcome_step_of_not fun hmade => hnot ⟨hgiven, hmade.1, hmade.2⟩]

theorem made_workDir (hstarts : h.Starts spec w.state.disk.files) :
    Meets (fun t => t = w)
      (silently (h.step .workDir .io (·.createDirAll (workDir (h.showUuid spec.jobId)))))
      fun result t => result = .ok () ∧ t.record = w.record := by
  rintro t rfl
  refine ⟨?_, rfl⟩
  obtain ⟨files, hcreated⟩ := Option.isSome_iff_exists.mp hstarts.created
  rw [outcome_silently, outcome_step, hstarts.allowed, if_neg Bool.false_ne_true, hcreated]

theorem restoreEnds_run (hstarts : h.Starts spec w.state.disk.files)
    (hcheckpoint : spec.checkpointUrl.isSome) :
    RestoreEnds w.record ((run h which pythonPrefix spec).outcome w).1
      ((run h which pythonPrefix spec).outcome w).2 := by
  have hmeets : Meets (fun t => t = w) (run h which pythonPrefix spec) (RestoreEnds w.record) := by
    refine Meets.ite (fun hempty => absurd hempty hstarts.given) fun _ => ?_
    refine (made_workDir hstarts).bind (fun _ => ?_) fun e t ht => nomatch ht.1
    exact Meets.ite (fun _ => Meets.weaken (fun _ ht => ht.2) meets_runRestore)
      fun hfresh => absurd hcheckpoint hfresh
  exact hmeets w rfl

theorem freshEnds_run (hstarts : h.Starts spec w.state.disk.files)
    (hfresh : ¬spec.checkpointUrl.isSome) :
    FreshEnds w.record ((run h which pythonPrefix spec).outcome w).1
      ((run h which pythonPrefix spec).outcome w).2 := by
  have hmeets : Meets (fun t => t = w) (run h which pythonPrefix spec) (FreshEnds w.record) := by
    refine Meets.ite (fun hempty => absurd hempty hstarts.given) fun _ => ?_
    refine (made_workDir hstarts).bind (fun _ => ?_) fun e t ht => nomatch ht.1
    refine Meets.ite (fun hcheckpoint => absurd hcheckpoint hfresh) fun _ => ?_
    refine Meets.weaken (fun _ ht => ht.2)
      (meets_downloadBundle.bind (fun _ => ?_) fun _ _ ht => ht.error)
    refine Meets.weaken (fun _ ht => freshEnds_ok.mp ht) ((started_keeps ?_).mono fun _ _ ht => .inr ht)
    refine keeps_extractBundle.bind fun _ => (Keeps.silently _).bind fun _ => ?_
    refine (Keeps.silently _).bind fun entryScript => ?_
    rcases h.vm with _ | _ | vmRun
    · exact keeps_runSandboxed
    · exact keeps_runSandboxed
    · exact Keeps.silently _
  exact hmeets w rfl

end Runs

/-- The job is run as it would be without its checkpoint. -/
def FallsBack (h : Host) (which : String → Bool) (pythonPrefix : String) (spec : JobSpec)
    (w : Noted Site Command) : Prop :=
  (run h which pythonPrefix spec).outcome w =
    (run h which pythonPrefix { spec with checkpointUrl := none }).outcome w

/-- A job with a checkpoint is run as it would be without exactly where its directory cannot be made,
whatever becomes of the checkpoint. -/
theorem fallsBack_iff (h : Host) (which : String → Bool) (pythonPrefix : String) (spec : JobSpec)
    (w : Noted Site Command) (hbundle : spec.bundleUrl.isEmpty = false)
    (hcheckpoint : spec.checkpointUrl.isSome) :
    FallsBack h which pythonPrefix spec w ↔ ¬h.Starts spec w.state.disk.files := by
  have hgiven : ∀ url : Option String,
      ¬(({ spec with checkpointUrl := url } : JobSpec).bundleUrl.isEmpty ∧
        ({ spec with checkpointUrl := url } : JobSpec).checkpointUrl.isNone) := by
    rintro url ⟨hempty, -⟩
    rw [hbundle] at hempty
    cases hempty
  constructor
  · intro hsame hstarts
    have hfresh : h.Starts { spec with checkpointUrl := none } w.state.disk.files :=
      ⟨hgiven none, hstarts.allowed, hstarts.created⟩
    refine not_restore_and_fresh
      (@restoreEnds_run h spec which pythonPrefix w hstarts hcheckpoint) ?_
    rw [hsame]
    exact freshEnds_run hfresh Bool.false_ne_true
  · intro hnot
    rw [FallsBack, run_of_not_starts (hgiven spec.checkpointUrl) hnot]
    exact (run_of_not_starts (hgiven none) fun hstarts =>
      hnot ⟨hgiven spec.checkpointUrl, hstarts.allowed, hstarts.created⟩).symm

/-! ### Checkpoints that cannot be used -/

/-- The agent has just taken its job. -/
def justTaken : Noted Site Command := ⟨⟨⟨emptyDisk, none⟩, false, false, true⟩, []⟩

theorem fallsBack_iff_restoring :
    restoredJob.bundleUrl.isEmpty = false ∧ restoredJob.checkpointUrl.isSome ∧
      (FallsBack restoringHost (fun _ => true) "/opt/homebrew" restoredJob justTaken ↔
        ¬restoringHost.Starts restoredJob emptyDisk) := by
  have hbundle : restoredJob.bundleUrl.isEmpty = false := by decide
  exact ⟨hbundle, rfl,
    fallsBack_iff restoringHost (fun _ => true) "/opt/homebrew" restoredJob justTaken hbundle rfl⟩

/-- The server has nothing of the checkpoint. -/
def emptyServer : CheckpointEnv where
  getMeta _ := none
  getFile _ := none
  createDirAll _ := true
  write _ _ := true
  toStringPretty _ := []

/-- DMTCP is not installed, the coordinator knows of no checkpoint, or its files are not there. -/
def helplessHosts : List Host :=
  [calm sandboxMachine sandboxMachine_keeps,
    calm { sandboxMachine with dmtcpAvailable := true } sandboxMachine_keeps, restoringHost]

/-- Each of them fails the job before it starts anything, though it could run the bundle. -/
theorem helpless_not_fallsBack :
    (emptyServer.fetchCheckpoint "00000000-0000-0000-0000-000000000000"
      "http://localhost:8090/checkpoints/1").ok = false ∧
    ∀ h ∈ helplessHosts, ¬FallsBack h (fun _ => true) "/opt/homebrew" restoredJob justTaken := by
  refine ⟨by decide +kernel, fun h hmem hsame => ?_⟩
  have hruns : helplessHosts.all fun h =>
      !((run h (fun _ => true) "/opt/homebrew" restoredJob).outcome justTaken).1.isOk &&
        ((run h (fun _ => true) "/opt/homebrew"
          { restoredJob with checkpointUrl := none }).outcome justTaken).1.isOk := by decide +kernel
  have hrun := List.all_eq_true.mp hruns h hmem
  rw [hsame, Bool.not_and_self] at hrun
  cases hrun

end NeuralMesh.Agent
