import NeuralMesh.Agent.JobRunner
import NeuralMesh.Base.Http

/-!
# Fetching a checkpoint

`fetch_checkpoint` of `agent/src/idle_monitor.rs` with `CheckpointMeta::save`, as far as it writes
files. It runs on the reply to a poll before the reply is parsed, so the id of the job is any text.
-/

namespace NeuralMesh.Agent

/-- What the checkpoint server and the operating system answer. -/
structure CheckpointEnv where
  /-- The metadata at a URL, unless the request, its status or its body is in error. -/
  getMeta : String → Option CheckpointMeta
  /-- The body at a URL: `none` for an error, `some none` for a status that is none of success. -/
  getFile : String → Option (Option Bytes)
  createDirAll : Path → Bool
  write : Path → Bytes → Bool
  toStringPretty : CheckpointMeta → Bytes

/-- The files that are written, or that the writing ends with, and whether it went well. -/
structure Written where
  files : List (Path × Bytes)
  ok : Bool

namespace Written

def nothing (ok : Bool) : Written := ⟨[], ok⟩

/-- One write, and what comes after it if it succeeds. -/
def andThen (file : Path × Bytes) (ok : Bool) (next : Written) : Written :=
  if ok then ⟨file :: next.files, next.ok⟩ else ⟨[file], false⟩

end Written

/-- `CheckpointMeta::meta_path` -/
def metaPath (jobId : String) : Path := (checkpointDir.join jobId).join "checkpoint.json"

namespace CheckpointEnv

variable (env : CheckpointEnv)

/-- `CheckpointMeta::save` -/
def save (fetched : CheckpointMeta) : Written :=
  if env.createDirAll (metaPath fetched.jobId).dropLast then
    .andThen (metaPath fetched.jobId, env.toStringPretty fetched)
      (env.write (metaPath fetched.jobId) (env.toStringPretty fetched)) (.nothing true)
  else .nothing false

/-- The loop over the files, and then the metadata. -/
def downloadFiles (ckptDir : Path) (checkpointUrl : String) (fetched : CheckpointMeta) :
    List String → Written
  | [] => env.save fetched
  | fname :: rest =>
      match env.getFile (trimEndSlashes checkpointUrl ++ "/" ++ fname) with
      | none => .nothing false
      | some none => downloadFiles ckptDir checkpointUrl fetched rest
      | some (some bytes) =>
          .andThen (ckptDir.join fname, bytes) (env.write (ckptDir.join fname) bytes)
            (downloadFiles ckptDir checkpointUrl fetched rest)

/-- `fetch_checkpoint` -/
def fetchCheckpoint (jobId checkpointUrl : String) : Written :=
  match env.getMeta (trimEndSlashes checkpointUrl ++ "/checkpoint.json") with
  | none => .nothing false
  | some fetched =>
      if env.createDirAll (checkpointDir.join jobId) then
        env.downloadFiles (checkpointDir.join jobId) checkpointUrl fetched fetched.dmtcpFiles
      else .nothing false

end CheckpointEnv

/-! ### What is written -/

theorem Written.mem_andThen {file entry : Path × Bytes} {ok : Bool} {next : Written}
    (hmem : entry ∈ (Written.andThen file ok next).files) : entry = file ∨ entry ∈ next.files := by
  unfold Written.andThen at hmem
  split at hmem
  · exact List.mem_cons.mp hmem
  · exact .inl (List.mem_singleton.mp hmem)

namespace CheckpointEnv

variable {env : CheckpointEnv} {fetched : CheckpointMeta} {ckptDir : Path} {names : List String}
  {jobId checkpointUrl : String} {file : Path × Bytes}

theorem mem_save (hmem : file ∈ (env.save fetched).files) : file.1 = metaPath fetched.jobId := by
  unfold save at hmem
  split at hmem
  · rcases Written.mem_andThen hmem with rfl | hmem
    · rfl
    · cases hmem
  · cases hmem

theorem mem_downloadFiles
    (hmem : file ∈ (env.downloadFiles ckptDir checkpointUrl fetched names).files) :
    (∃ fname ∈ names, file.1 = ckptDir.join fname) ∨ file.1 = metaPath fetched.jobId := by
  induction names with
  | nil => exact .inr (mem_save hmem)
  | cons fname rest ih =>
      have hrest : (∃ fname ∈ rest, file.1 = ckptDir.join fname) ∨
          file.1 = metaPath fetched.jobId →
          (∃ fname' ∈ fname :: rest, file.1 = ckptDir.join fname') ∨
            file.1 = metaPath fetched.jobId := by
        rintro (⟨fname', hfname, heq⟩ | heq)
        · exact .inl ⟨fname', List.mem_cons_of_mem _ hfname, heq⟩
        · exact .inr heq
      rw [downloadFiles] at hmem
      split at hmem
      · cases hmem
      · exact hrest (ih hmem)
      · rcases Written.mem_andThen hmem with rfl | hmem
        · exact .inl ⟨fname, List.mem_cons_self, rfl⟩
        · exact hrest (ih hmem)

/-- Every file is one of those the metadata lists, or the metadata. -/
theorem mem_fetchCheckpoint
    (hmeta : env.getMeta (trimEndSlashes checkpointUrl ++ "/checkpoint.json") = some fetched)
    (hmem : file ∈ (env.fetchCheckpoint jobId checkpointUrl).files) :
    (∃ fname ∈ fetched.dmtcpFiles, file.1 = (checkpointDir.join jobId).join fname) ∨
      file.1 = metaPath fetched.jobId := by
  rw [fetchCheckpoint, hmeta] at hmem
  dsimp only at hmem
  split at hmem
  · exact mem_downloadFiles hmem
  · cases hmem

/-- A server and a system that refuse nothing. -/
def willing (fetched : CheckpointMeta) : CheckpointEnv where
  getMeta _ := some fetched
  getFile _ := some (some [])
  createDirAll _ := true
  write _ _ := true
  toStringPretty _ := []

theorem files_willing (names : List String) :
    ((willing fetched).downloadFiles ckptDir checkpointUrl fetched names).files =
      names.map (fun fname => (ckptDir.join fname, [])) ++ [(metaPath fetched.jobId, [])] := by
  induction names with
  | nil => rfl
  | cons fname rest ih =>
      rw [downloadFiles, List.map_cons, List.cons_append, ← ih]
      rfl

/-- Then all of them are written. -/
theorem fetchCheckpoint_willing : ((willing fetched).fetchCheckpoint jobId checkpointUrl).files =
    fetched.dmtcpFiles.map (fun fname => ((checkpointDir.join jobId).join fname, [])) ++
      [(metaPath fetched.jobId, [])] := files_willing fetched.dmtcpFiles

end CheckpointEnv

end NeuralMesh.Agent
