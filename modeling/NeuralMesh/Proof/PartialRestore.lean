import NeuralMesh.Agent.Commands
import NeuralMesh.Agent.FetchCheckpoint
import NeuralMesh.Proof.JobTask
import NeuralMesh.Proof.Leftovers

/-!
# Restoring from a part of a snapshot

A file of a snapshot that cannot be downloaded is skipped, and one file that is on the disk is enough
for a restore. The restore is given the files that are there and nothing else.
-/

namespace NeuralMesh.Agent

open JobCommands Recording

variable {h : Host} {fetched : CheckpointMeta} {jobId : String} {w : Noted Site Command}

/-- The log can be opened, and a process started. -/
structure Host.CanRestart (h : Host) (jobId : String) (files : FileSystem) : Prop where
  allowed : h.refuses .log = false
  opened : (files.openAppend (logPath jobId)).isSome
  spawned : h.spawnError = none

theorem outcome_spawn {command : Command} {context : String} :
    (spawn h command context).outcome w =
      match h.spawnError with
      | none => (.ok (), { w with record := w.record ++ [command] })
      | some _ => (.error (.text context), w) := by
  rw [spawn, Fallible.outcome_bind, Fallible.outcome_withContext, Recording.outcome_silently,
    outcome_onDisk, Machine.spawn]
  cases h.spawnError <;> rfl

theorem found_of_isEmpty (hlisted : fetched.dmtcpFiles.isEmpty) (files : FileSystem) :
    fetched.found files = [] := by
  rw [CheckpointMeta.found, CheckpointMeta.filePaths, List.isEmpty_iff.mp hlisted]
  rfl

/-- Without a file the restore is an error, and nothing happens. -/
theorem restore_of_nil (hnone : fetched.found w.state.disk.files = []) :
    ∃ message, (restore h fetched jobId).outcome w = (.error (.text message), w) := by
  by_cases hlisted : fetched.dmtcpFiles.isEmpty
  · rw [restore, if_pos hlisted]
    exact ⟨_, rfl⟩
  · rw [restore, if_neg hlisted, Fallible.outcome_get_bind]
    dsimp only
    rw [hnone, if_pos List.isEmpty_nil]
    exact ⟨_, rfl⟩

/-- With one, the log is opened and the process started. -/
theorem restore_of_found (hfound : fetched.found w.state.disk.files ≠ []) :
    (restore h fetched jobId).outcome w = Fallible.outcome (do
      silently (JobTask.openLogStdio h jobId)
      spawn h (restartCommand fetched jobId (fetched.found w.state.disk.files))
        "dmtcp_restart spawn") w := by
  have hlisted : ¬fetched.dmtcpFiles.isEmpty := fun hempty => hfound (found_of_isEmpty hempty _)
  rw [restore, if_neg hlisted, Fallible.outcome_get_bind]
  dsimp only
  rw [if_neg fun hempty => hfound (List.isEmpty_iff.mp hempty)]

section Step

variable {name : OsStep} {error : RunError} {f : FileSystem → Option FileSystem} {s : Site}

theorem isOk_step :
    ((h.step name error f).outcome s).1.isOk ↔
      h.refuses name = false ∧ (f s.disk.files).isSome := by
  rw [outcome_step]
  cases h.refuses name with
  | true => exact iff_of_false Bool.false_ne_true fun hboth => Bool.false_ne_true hboth.1.symm
  | false =>
      rw [if_neg Bool.false_ne_true, and_iff_right rfl]
      cases f s.disk.files with
      | none => exact iff_of_false Bool.false_ne_true Bool.false_ne_true
      | some files => exact iff_of_true rfl rfl

theorem outcome_step_of_not (hnot : ¬(h.refuses name = false ∧ (f s.disk.files).isSome)) :
    (h.step name error f).outcome s = (.error error, s) := by
  rw [outcome_step]
  split
  · rename_i files hmade
    obtain ⟨hallowed, hfiles⟩ := Option.ite_none_left_eq_some.mp hmade
    exact absurd ⟨Bool.eq_false_iff.mpr hallowed, Option.isSome_of_eq_some hfiles⟩ hnot
  · rfl

end Step

/-- A restore starts one process, which is given the files of the snapshot that are on the disk; it
does where there are any, the log can be opened and a process can be started. Else it is an error and
starts nothing. -/
theorem restore_starts_found (h : Host) (fetched : CheckpointMeta) (jobId : String)
    (w : Noted Site Command) :
    (((restore h fetched jobId).outcome w).1.isOk ↔
      fetched.found w.state.disk.files ≠ [] ∧ h.CanRestart jobId w.state.disk.files) ∧
    ((restore h fetched jobId).outcome w).2.record =
      w.record ++ if ((restore h fetched jobId).outcome w).1.isOk then
        [restartCommand fetched jobId (fetched.found w.state.disk.files)] else [] := by
  by_cases hfound : fetched.found w.state.disk.files = []
  · obtain ⟨message, houtcome⟩ := @restore_of_nil h fetched jobId w hfound
    rw [houtcome]
    exact ⟨iff_of_false nofun fun hboth => hboth.1 hfound, (List.append_nil _).symm⟩
  · rw [restore_of_found hfound, Fallible.outcome_bind, outcome_silently]
    have hlog : ((JobTask.openLogStdio h jobId).outcome w.state).1.isOk ↔ _ := isOk_step
    cases hopened : (JobTask.openLogStdio h jobId).outcome w.state with
    | mk result s =>
        rw [hopened] at hlog
        cases result with
        | error e =>
            refine ⟨iff_of_false nofun fun hboth => ?_, (List.append_nil _).symm⟩
            exact nomatch hlog.mpr ⟨hboth.2.allowed, hboth.2.opened⟩
        | ok u =>
            obtain ⟨hallowed, hsome⟩ := hlog.mp rfl
            dsimp only
            simp only [outcome_spawn]
            cases hspawn : h.spawnError with
            | none => exact ⟨iff_of_true rfl ⟨hfound, hallowed, hsome, hspawn⟩, rfl⟩
            | some e =>
                refine ⟨iff_of_false nofun fun hboth => ?_, (List.append_nil _).symm⟩
                exact nomatch hspawn.symm.trans hboth.2.spawned

/-! ### A snapshot of two files -/

theorem sandboxMachine_keeps (content : Bytes) (dir : Path) :
    FileSystem.KeepsDirs (sandboxMachine.tar content dir) := FileSystem.keepsDirs_write _ _

/-- The second file of the snapshot is not on the server. -/
def twoFileMeta : CheckpointMeta where
  jobId := "00000000-0000-0000-0000-000000000000"
  iteration := 1
  checkpointDir := "/var/neuralmesh/checkpoints/00000000-0000-0000-0000-000000000000"
  elapsedSecs := 300
  coordPort := 0
  dmtcpFiles := ["ckpt.dmtcp", "ckpt_worker.dmtcp"]

def halfServer : CheckpointEnv where
  getMeta _ := some twoFileMeta
  getFile url := if url.endsWith "ckpt.dmtcp" then some (some []) else some none
  createDirAll _ := true
  write _ _ := true
  toStringPretty _ := []

def twoFileHost : Host :=
  calm { restoringMachine with fetchCheckpointMeta := .ok twoFileMeta } sandboxMachine_keeps

/-- The second file is skipped, and the job goes on from the first one, paid for the time before. -/
theorem restored_from_half :
    (halfServer.fetchCheckpoint twoFileMeta.jobId "http://localhost:8090/checkpoints/1").ok = true ∧
    (halfServer.fetchCheckpoint twoFileMeta.jobId "http://localhost:8090/checkpoints/1").files.map
        Prod.fst =
      [["var", "neuralmesh", "checkpoints", twoFileMeta.jobId, "ckpt.dmtcp"],
        metaPath twoFileMeta.jobId] ∧
    checkpointDisk.reaches
      ["var", "neuralmesh", "checkpoints", twoFileMeta.jobId, "ckpt_worker.dmtcp"] = false ∧
    ((run twoFileHost (fun _ => false) "/opt/homebrew" restoredJob).outcome
        ⟨⟨⟨checkpointDisk, none⟩, false, false, true⟩, []⟩).2.record =
      [restartCommand twoFileMeta twoFileMeta.jobId
        ["/var/neuralmesh/checkpoints/00000000-0000-0000-0000-000000000000/ckpt.dmtcp"]] ∧
    ((run twoFileHost (fun _ => false) "/opt/homebrew" restoredJob).outcome
        ⟨⟨⟨checkpointDisk, none⟩, false, false, true⟩, []⟩).1.toOption.map
          (·.actualRuntimeS) = some 301 := by
  refine ⟨?_, ?_, ?_, ?_, ?_⟩ <;> decide +kernel

end NeuralMesh.Agent
