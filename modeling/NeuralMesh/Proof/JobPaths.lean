import NeuralMesh.Agent.FetchCheckpoint

/-!
# The directories of a job

The names that the coordinator and a checkpoint server choose are joined to the directories of a job as
they come. Where they lead is decided by what they climb out of and what they go back into.
-/

namespace NeuralMesh.Agent

open NeuralMesh.Path

variable {m : Machine} {spec : JobSpec} {fetched : CheckpointMeta} {jobId : String} {d : Disk}
  {script : Path}

/-- `CHECKPOINT_DIR/<job_id>`, the id as it is written. -/
def jobCheckpointDir (jobId : String) : Path := checkpointDir ++ ofString jobId

/-- Whatever the server answers beside this metadata, what is written is below the directory. -/
def FetchStaysInside (jobId : String) (fetched : CheckpointMeta) : Prop :=
  ∀ (env : CheckpointEnv) (checkpointUrl : String),
    env.getMeta (trimEndSlashes checkpointUrl ++ "/checkpoint.json") = some fetched →
    ∀ file ∈ (env.fetchCheckpoint jobId checkpointUrl).files, Below (jobCheckpointDir jobId) file.1

/-- The ids and the entries of directories are names. -/
structure Machine.Names (m : Machine) (spec : JobSpec) : Prop where
  uuid : IsName (m.showUuid spec.jobId)
  entries : ∀ files dir, ∀ name ∈ m.readDir files dir, IsName name

/-- A job that starts afresh gets as far as its entry script, and this is the one. -/
structure Chooses (m : Machine) (spec : JobSpec) (d : Disk) (script : Path) : Prop where
  fresh : spec.checkpointUrl = none
  bundle : spec.bundleUrl.isEmpty = false
  chosen : (JobRunner.entryScript m spec).outcome d = (.ok script, d)

/-- Whatever is on the disk, the script is below the working directory. -/
def ScriptStaysInside (uuidText : Uuid → String) (spec : JobSpec) : Prop :=
  ∀ (m : Machine) (d : Disk) (script : Path), m.showUuid = uuidText → m.Names spec →
    Chooses m spec d script → Below (workDir (uuidText spec.jobId)) script

/-! ### The files of a checkpoint -/

/-- The listed files stay in the directory they are joined to, and the id in the metadata leads to the
directory of the job. -/
structure ConfinedFiles (jobId : String) (fetched : CheckpointMeta) : Prop where
  listed : ∀ fname ∈ fetched.dmtcpFiles,
    Confines (jobCheckpointDir jobId) (resolve (checkpointDir.join jobId)) fname []
  saved : Confines (jobCheckpointDir jobId) checkpointDir fetched.jobId ["checkpoint.json"]

theorem resolve_checkpointDir : resolve checkpointDir = checkpointDir :=
  resolve_of_plain (by decide)

theorem below_file_iff {dir : Path} {fname : String} :
    Below dir ((checkpointDir.join jobId).join fname) ↔
      Confines dir (resolve (checkpointDir.join jobId)) fname [] := by
  rw [← below_join_iff, List.append_nil]

theorem below_metaPath_iff {dir : Path} :
    Below dir (metaPath jobId) ↔ Confines dir checkpointDir jobId ["checkpoint.json"] := by
  have hname : IsName "checkpoint.json" := by decide
  rw [metaPath, join_of_isName hname, below_join_iff, resolve_checkpointDir]

theorem fetchStaysInside_iff : FetchStaysInside jobId fetched ↔ ConfinedFiles jobId fetched := by
  constructor
  · intro hinside
    have hfiles := hinside (.willing fetched) "" rfl
    rw [CheckpointEnv.fetchCheckpoint_willing] at hfiles
    refine ⟨fun fname hfname => below_file_iff.mp ?_, below_metaPath_iff.mp ?_⟩
    · exact hfiles ((checkpointDir.join jobId).join fname, [])
        (List.mem_append_left _ (List.mem_map_of_mem hfname))
    · exact hfiles (metaPath fetched.jobId, [])
        (List.mem_append_right _ (List.mem_singleton_self _))
  · intro hconfined env checkpointUrl hmeta file hfile
    rcases CheckpointEnv.mem_fetchCheckpoint hmeta hfile with ⟨fname, hfname, heq⟩ | heq
    · rw [heq]
      exact below_file_iff.mpr (hconfined.listed fname hfname)
    · rw [heq]
      exact below_metaPath_iff.mpr hconfined.saved

/-! ### The entry script -/

/-- The script, if there is one. -/
def chosenScript (m : Machine) (spec : JobSpec) (files : FileSystem) : Option Path :=
  ((spec.scriptName.map (workDir (m.showUuid spec.jobId)).join).filter
      fun script => files.reaches script) <|>
    JobRunner.findEntryScript m files (workDir (m.showUuid spec.jobId)) spec.runtime

theorem outcome_entryScript : (JobRunner.entryScript m spec).outcome d =
    match chosenScript m spec d.files with
    | some script => (.ok script, d)
    | none => (.error (.text "No runnable entry script found in bundle"), d) := by
  rw [JobRunner.entryScript, Fallible.outcome_bind]
  show (match chosenScript m spec d.files with
    | some script => pure script
    | none => throw (.text "No runnable entry script found in bundle") : JobM Path).outcome d = _
  cases chosenScript m spec d.files with
  | none => rfl
  | some script => rfl

theorem chosen_iff : (JobRunner.entryScript m spec).outcome d = (.ok script, d) ↔
    chosenScript m spec d.files = some script := by
  rw [outcome_entryScript]
  cases hchosen : chosenScript m spec d.files with
  | none =>
      refine iff_of_false (fun heq => ?_) nofun
      cases heq
  | some other =>
      constructor
      · intro heq
        cases heq
        rfl
      · intro heq
        cases heq
        rfl

theorem isName_candidates (runtime : Runtime) :
    ∀ name ∈ JobRunner.candidates runtime, IsName name := by
  cases runtime <;> decide

/-- A script that is found is an entry of the directory. -/
theorem findEntryScript_entry (hnames : m.Names spec) {files : FileSystem} {dir : Path}
    {runtime : Runtime} (hfound : JobRunner.findEntryScript m files dir runtime = some script) :
    ∃ name, IsName name ∧ script = dir.join name := by
  rw [JobRunner.findEntryScript] at hfound
  split at hfound
  · rename_i name hcandidate
    cases hfound
    exact ⟨name, isName_candidates runtime name (List.mem_of_find?_eq_some hcandidate), rfl⟩
  · obtain ⟨name, hentry, rfl⟩ := Option.map_eq_some_iff.mp hfound
    exact ⟨name, hnames.entries files dir name (List.mem_of_find?_eq_some hentry), rfl⟩

theorem resolve_workDir (hname : IsName jobId) : resolve (workDir jobId) = workDir jobId := by
  refine resolve_of_plain fun hmem => ?_
  rw [workDir, List.mem_cons, List.mem_cons, List.mem_singleton] at hmem
  rcases hmem with htmp | hneuralmesh | hid
  · exact absurd htmp (by decide)
  · exact absurd hneuralmesh (by decide)
  · exact hname.ne_dotdot hid.symm

theorem below_script_iff (hid : IsName jobId) {name : String} :
    Below (workDir jobId) ((workDir jobId).join name) ↔
      Confines (workDir jobId) (workDir jobId) name [] := by
  have hjoin := @below_join_iff (workDir jobId) (workDir jobId) name []
  rwa [List.append_nil, resolve_workDir hid] at hjoin

theorem below_entry (hid : IsName jobId) {name : String} (hname : IsName name) :
    Below (workDir jobId) ((workDir jobId).join name) := by
  have hbelow := below_of_isName hname (workDir jobId)
  rwa [resolve_workDir hid] at hbelow

/-- The script that the coordinator names stays in the working directory, if one is chosen at all. -/
def ConfinedScript (uuidText : Uuid → String) (spec : JobSpec) : Prop :=
  spec.checkpointUrl = none → spec.bundleUrl.isEmpty = false → ∀ name ∈ spec.scriptName,
    Confines (workDir (uuidText spec.jobId)) (workDir (uuidText spec.jobId)) name []

/-- A file system in which every path is a directory. -/
def allDirs : FileSystem := ⟨fun _ => some .dir, rfl, fun _ _ _ => rfl⟩

/-- A machine that does nothing. -/
def idleMachine (uuidText : Uuid → String) : Machine where
  showUuid := uuidText
  sha256 _ := ""
  curl _ := none
  tar _ _ _ := none
  readDir _ _ := []
  generateProfile := []
  dmtcpAvailable := false
  fetchCheckpointMeta := .error .io
  spawnError := none
  process files := files
  exit := .ok none
  stuck := []
  start := 0
  now := 0
  gpuSamples := []
  peakRamGb := 0

theorem scriptStaysInside_iff {uuidText : Uuid → String} (huuid : IsName (uuidText spec.jobId)) :
    ScriptStaysInside uuidText spec ↔ ConfinedScript uuidText spec := by
  constructor
  · intro hinside hfresh hbundle name hname
    have hchosen : chosenScript (idleMachine uuidText) spec allDirs =
        some ((workDir (uuidText spec.jobId)).join name) := by
      rw [chosenScript, hname, Option.map_some, Option.filter_some,
        FileSystem.reaches_of_dirs fun _ => rfl]
      rfl
    have hbelow := hinside (idleMachine uuidText) ⟨allDirs, none⟩ _ rfl ⟨huuid, fun _ _ => nofun⟩
      ⟨hfresh, hbundle, chosen_iff.mpr hchosen⟩
    exact (below_script_iff huuid).mp hbelow
  · rintro hconfined m d script rfl hnames ⟨hfresh, hbundle, hchosen⟩
    rw [chosen_iff, chosenScript, Option.orElse_eq_orElse, Option.orElse_eq_or, Option.or_eq_some_iff] at hchosen
    rcases hchosen with hexplicit | ⟨-, hfound⟩
    · obtain ⟨hmap, -⟩ := Option.filter_eq_some_iff.mp hexplicit
      obtain ⟨name, hname, rfl⟩ := Option.map_eq_some_iff.mp hmap
      exact (below_script_iff huuid).mpr (hconfined hfresh hbundle name hname)
    · obtain ⟨name, hname, rfl⟩ := findEntryScript_entry hnames hfound
      exact below_entry huuid hname

/-- What is written for a checkpoint and what is run stay in the directories of the job exactly when the
names they go by do. -/
theorem staysInside_iff (jobId : String) (fetched : CheckpointMeta) {uuidText : Uuid → String}
    (huuid : IsName (uuidText spec.jobId)) :
    FetchStaysInside jobId fetched ∧ ScriptStaysInside uuidText spec ↔
      ConfinedFiles jobId fetched ∧ ConfinedScript uuidText spec :=
  and_congr fetchStaysInside_iff (scriptStaysInside_iff huuid)

/-! ### Names that lead away -/

def nilUuid : Uuid → String := fun _ => "00000000-0000-0000-0000-000000000000"

/-- The script is one of the machine's own. -/
def strayJob : JobSpec where
  jobId := 0
  consumerId := "alice"
  runtime := .shell
  minRamGb := 8
  maxDurationSecs := 3600
  maxPricePerHour := 1
  bundleHash := ""
  bundleUrl := "http://localhost:8090/api/v1/artifacts/1"
  scriptName := some "../../../bin/sh"
  consumerSshPubkey := ""
  consumerWgPubkey := ""
  preferredRegion := none
  envVars := []
  checkpointUrl := none
  restoreAttempts := 0

/-- One file is named by an absolute path. -/
def strayMeta : CheckpointMeta := ⟨"job", 1, "/var/neuralmesh/checkpoints/job", 300, 7780, ["/etc/crontab"]⟩

theorem staysInside_iff_stray : IsName (nilUuid strayJob.jobId) ∧
    (FetchStaysInside "job" strayMeta ∧ ScriptStaysInside nilUuid strayJob ↔
      ConfinedFiles "job" strayMeta ∧ ConfinedScript nilUuid strayJob) := by
  have huuid : IsName (nilUuid strayJob.jobId) := by decide
  exact ⟨huuid, staysInside_iff "job" strayMeta huuid⟩

/-- The file is written to `/etc/crontab` and the script is `/bin/sh`. -/
theorem stray_not_inside :
    ¬ FetchStaysInside "job" strayMeta ∧ ¬ ScriptStaysInside nilUuid strayJob := by
  have huuid : IsName (nilUuid strayJob.jobId) := by decide
  constructor
  · intro hinside
    have hlisted := (fetchStaysInside_iff.mp hinside).listed "/etc/crontab" (List.mem_singleton_self _)
    rw [Confines, if_pos (by decide)] at hlisted
    exact absurd hlisted (by decide +kernel)
  · intro hinside
    have hconfined := (scriptStaysInside_iff huuid).mp hinside rfl rfl "../../../bin/sh" rfl
    rw [confines_self_iff (by decide)] at hconfined
    exact absurd hconfined (by decide +kernel)

end NeuralMesh.Agent
