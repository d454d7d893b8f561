import NeuralMesh.Base.Paths
import NeuralMesh.Macos.Sandbox

/-!
# Jobs in their sandboxes

No rule of a profile denies a file but the default, so what is allowed is the union of the rules. Of
the directories of other jobs nothing can be written, and everything can be read, since `/tmp` may be
read as a whole.
-/

namespace NeuralMesh.Macos

variable {jobId workDir runtime pythonPrefix : String} {path : Path}

/-! ### What the rules add up to -/

theorem profileRules_append (front back : List ProfileLine) :
    profileRules (front ++ back) = profileRules front ++ profileRules back :=
  List.filterMap_append

theorem profileRules_block (lines : List ProfileLine) :
    profileRules (block lines) = profileRules lines := by
  rw [block]
  split
  · rename_i hempty
    rw [hempty]
    rfl
  · rfl

theorem profileRules_readLines (dirs : List String) : profileRules (dirs.map readLine) =
    dirs.map fun dir => { allow := true, operation := .fileRead, filter := .subpath dir } := by
  rw [profileRules, List.filterMap_map]
  show dirs.filterMap (some ∘ fun dir => _) = _
  rw [List.filterMap_eq_map]

/-- What the rules so far say of a request, and then these lines. -/
abbrev verdictOf (soFar : Bool) (lines : List ProfileLine) (request : FileRequest) : Bool :=
  verdict SandboxRule.applies SandboxRule.allow soFar (profileRules lines) request

variable {soFar : Bool} {operation : SandboxOperation}

theorem verdictOf_readLines (dirs : List String) :
    verdictOf soFar (dirs.map readLine) ⟨.fileRead, path⟩ =
      (soFar || dirs.any fun dir => decide (Path.ofString dir <+: path)) := by
  rw [verdictOf, profileRules_readLines, verdict_of_allows, List.any_map]
  · rfl
  · intro rule hmem _
    obtain ⟨dir, _, rfl⟩ := List.mem_map.mp hmem
    rfl

theorem verdictOf_readLines_write (dirs : List String) :
    verdictOf soFar (dirs.map readLine) ⟨.fileWrite, path⟩ = soFar := by
  rw [verdictOf, profileRules_readLines]
  refine verdict_of_none fun rule hmem => ?_
  obtain ⟨dir, _, rfl⟩ := List.mem_map.mp hmem
  rfl

/-- The last lines are about no file. -/
theorem verdictOf_profileFoot (hfile : operation = .fileRead ∨ operation = .fileWrite) :
    verdictOf soFar profileFoot ⟨operation, path⟩ = soFar := by
  refine verdict_of_none ?_
  rcases hfile with rfl | rfl
  · simp [profileFoot, profileRules, allowLine, SandboxRule.applies]
  · simp [profileFoot, profileRules, allowLine, SandboxRule.applies]

/-- The directories that can be read, whatever the job and the runtime. -/
def systemDirs : List String :=
  ["/usr/lib", "/usr/local/lib", "/System/Library", "/Library/Frameworks", "/private/var/db/timezone"]

theorem verdictOf_profileHead_read : verdictOf false (profileHead jobId workDir) ⟨.fileRead, path⟩ = true ↔
    (∃ dir ∈ workDir :: "/tmp" :: systemDirs, Path.ofString dir <+: path) ∨
      ∃ file ∈ ["/etc/resolv.conf", "/etc/localtime"], Path.ofString file = path := by
  simp [profileHead, profileRules, allowLine, readLine, SandboxRule.applies, SandboxFilter.covers,
    systemDirs, verdict, or_comm, or_left_comm, or_assoc]

theorem verdictOf_profileHead_write :
    verdictOf false (profileHead jobId workDir) ⟨.fileWrite, path⟩ = true ↔
      Path.ofString workDir <+: path ∨ Path.ofString ("/tmp/neuralmesh/" ++ jobId) <+: path := by
  simp [profileHead, profileRules, allowLine, readLine, SandboxRule.applies, SandboxFilter.covers,
    verdict, or_comm]

theorem allowsRequest_generateProfile (request : FileRequest) :
    allowsRequest (generateProfile jobId workDir runtime pythonPrefix) request =
      verdictOf (verdictOf (verdictOf (verdictOf false (profileHead jobId workDir) request)
        (metalPaths.map readLine) request) ((runtimePaths runtime pythonPrefix).map readLine) request)
        profileFoot request := by
  have hcomment : profileRules [{ text := "" }, { text := "; Allow Python runtime" }] = [] := rfl
  rw [allowsRequest, generateProfile, profileRules_append, profileRules_append, profileRules_append,
    profileRules_append, profileRules_block, profileRules_block, hcomment, List.append_nil,
    verdict_append, verdict_append, verdict_append]

/-- What a job can read. -/
theorem allowsRequest_read :
    allowsRequest (generateProfile jobId workDir runtime pythonPrefix) ⟨.fileRead, path⟩ = true ↔
      (∃ dir ∈ workDir :: "/tmp" :: systemDirs ++ metalPaths ++ runtimePaths runtime pythonPrefix,
        Path.ofString dir <+: path) ∨
      ∃ file ∈ ["/etc/resolv.conf", "/etc/localtime"], Path.ofString file = path := by
  rw [allowsRequest_generateProfile, verdictOf_profileFoot (.inl rfl), verdictOf_readLines,
    verdictOf_readLines, Bool.or_eq_true, Bool.or_eq_true, verdictOf_profileHead_read, List.any_eq_true,
    List.any_eq_true]
  simp only [decide_eq_true_eq, List.mem_append, or_and_right, exists_or]
  exact (or_congr_left or_right_comm).trans or_right_comm

/-- What a job can write: its own directory. -/
theorem allowsRequest_write :
    allowsRequest (generateProfile jobId workDir runtime pythonPrefix) ⟨.fileWrite, path⟩ = true ↔
      Path.ofString workDir <+: path ∨ Path.ofString ("/tmp/neuralmesh/" ++ jobId) <+: path := by
  rw [allowsRequest_generateProfile, verdictOf_profileFoot (.inr rfl), verdictOf_readLines_write,
    verdictOf_readLines_write, verdictOf_profileHead_write]

/-! ### The directory of a job -/

/-- `/tmp/neuralmesh/<job_id>` -/
def jobDir (jobId : String) : Path := Path.ofString ("/tmp/neuralmesh/" ++ jobId)

theorem jobDir_eq (jobId : String) : jobDir jobId = "tmp" :: "neuralmesh" :: Path.ofString jobId := by
  have hsplit : ("/tmp/neuralmesh/" ++ jobId).toList =
      [] ++ '/' :: ("tmp".toList ++ '/' :: ("neuralmesh".toList ++ '/' :: jobId.toList)) := by
    rw [String.toList_append]
    rfl
  rw [jobDir, Path.ofString, hsplit, List.splitOn_append_cons_self_of_not_mem (by decide),
    List.splitOn_append_cons_self_of_not_mem (by decide),
    List.splitOn_append_cons_self_of_not_mem (by decide)]
  rfl

theorem tmp_prefix_jobDir (jobId : String) : Path.ofString "/tmp" <+: jobDir jobId := by
  have htmp : Path.ofString "/tmp" = ["tmp"] := by decide
  rw [jobDir_eq, htmp]
  exact List.prefix_append ["tmp"] _

variable {own other : String}

/-- Whatever job a directory belongs to, every other job reads it. -/
theorem reads_jobDir (hpath : jobDir other <+: path) :
    allowsRequest (SandboxProfile.new own runtime pythonPrefix).profile ⟨.fileRead, path⟩ = true := by
  refine allowsRequest_read.mpr (.inl ⟨"/tmp", ?_, (tmp_prefix_jobDir other).trans hpath⟩)
  exact List.mem_append_left _ (List.mem_append_left _ (List.mem_cons_of_mem _ List.mem_cons_self))

theorem writes_jobDir : allowsRequest (SandboxProfile.new own runtime pythonPrefix).profile
    ⟨.fileWrite, path⟩ = true ↔ jobDir own <+: path :=
  allowsRequest_write.trans (or_self_iff ..)

/-- No job writes to the directory of another one. -/
theorem not_writes_other (hown : IsName own) (hother : IsName other) (hne : own ≠ other)
    (hpath : jobDir other <+: path) :
    allowsRequest (SandboxProfile.new own runtime pythonPrefix).profile ⟨.fileWrite, path⟩ = false := by
  rw [← Bool.not_eq_true, writes_jobDir]
  intro hwrites
  rw [jobDir_eq, Path.ofString_of_isName hown] at hwrites
  rw [jobDir_eq, Path.ofString_of_isName hother] at hpath
  have hsame := List.prefix_of_prefix_length_le hwrites hpath le_rfl
  have heq := hsame.eq_of_length rfl
  exact hne (List.head_eq_of_cons_eq (List.tail_eq_of_cons_eq (List.tail_eq_of_cons_eq heq)))

/-- What a profile is for: a job has its own directory and nothing of the other job's. -/
structure Isolated (own other runtime pythonPrefix : String) : Prop where
  denied : ∀ path, jobDir other <+: path → ∀ operation ∈ [SandboxOperation.fileRead, .fileWrite],
    allowsRequest (SandboxProfile.new own runtime pythonPrefix).profile ⟨operation, path⟩ = false
  allowed : ∀ path, jobDir own <+: path → ∀ operation ∈ [SandboxOperation.fileRead, .fileWrite],
    allowsRequest (SandboxProfile.new own runtime pythonPrefix).profile ⟨operation, path⟩ = true

/-- Its own directory it has. -/
theorem allows_own (own runtime pythonPrefix : String) (path : Path) (hpath : jobDir own <+: path) :
    ∀ operation ∈ [SandboxOperation.fileRead, .fileWrite],
      allowsRequest (SandboxProfile.new own runtime pythonPrefix).profile ⟨operation, path⟩ = true := by
  intro operation hmem
  rcases List.mem_cons.mp hmem with rfl | hmem
  · exact reads_jobDir hpath
  · rw [List.mem_singleton.mp hmem]
    exact writes_jobDir.mpr hpath

theorem not_isolated (own other runtime pythonPrefix : String) :
    ¬ Isolated own other runtime pythonPrefix := by
  intro hisolated
  have hdenied := hisolated.denied (jobDir other) List.prefix_rfl .fileRead List.mem_cons_self
  rw [reads_jobDir List.prefix_rfl] at hdenied
  cases hdenied

/-- A file of one job, read by another. -/
theorem reads_input_of_other :
    jobDir "f3f2e850-b5d4-11ef-ac7e-96584d5248b2" <+:
      (jobDir "f3f2e850-b5d4-11ef-ac7e-96584d5248b2") ++ ["input.bin"] ∧
    allowsRequest (SandboxProfile.new "0b1d4c52-b5d5-11ef-8c1f-325096b39f47" "mlx" "/opt/neuralmesh").profile
      ⟨.fileRead, jobDir "f3f2e850-b5d4-11ef-ac7e-96584d5248b2" ++ ["input.bin"]⟩ = true ∧
    ¬ Isolated "0b1d4c52-b5d5-11ef-8c1f-325096b39f47" "f3f2e850-b5d4-11ef-ac7e-96584d5248b2" "mlx"
      "/opt/neuralmesh" := by
  have hpath := List.prefix_append (jobDir "f3f2e850-b5d4-11ef-ac7e-96584d5248b2") ["input.bin"]
  refine ⟨hpath, reads_jobDir hpath, fun hisolated => ?_⟩
  have hdenied := hisolated.denied _ hpath .fileRead List.mem_cons_self
  rw [reads_jobDir hpath] at hdenied
  cases hdenied

end NeuralMesh.Macos
