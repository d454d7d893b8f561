import NeuralMesh.Base.Files

/-!
# What the agent checks of a bundle

`download_bundle` of `agent/src/job_runner.rs`. The SHA-256 digest and the transfer are parameters.
-/

namespace NeuralMesh.Agent

/-- The content of the file that is kept, or the error; `curl` answers `none` when it fails. -/
def downloadBundle (sha256 : Bytes → String) (curl : String → Option Bytes)
    (url expectedHash : String) : Except String Bytes :=
  match curl url with
  | none => .error ("curl failed downloading bundle from " ++ url)
  | some content =>
      if expectedHash.isEmpty then .ok content
      else
        let actual := sha256 content
        if actual ≠ expectedHash then
          .error ("Bundle hash mismatch: expected " ++ expectedHash ++ ", got " ++ actual)
        else .ok content

/-- Against a hash that is given, the bytes are accepted when it is their digest. -/
theorem downloadBundle_iff {sha256 : Bytes → String} {curl : String → Option Bytes}
    {url expectedHash : String} {content : Bytes} (hcurl : curl url = some content)
    (hgiven : expectedHash ≠ "") :
    downloadBundle sha256 curl url expectedHash = .ok content ↔ sha256 content = expectedHash := by
  rw [downloadBundle, hcurl]
  dsimp only
  rw [if_neg (by simpa using hgiven)]
  by_cases hsame : sha256 content = expectedHash
  · rw [if_neg (not_not_intro hsame)]
    exact ⟨fun _ => hsame, fun _ => rfl⟩
  · rw [if_pos hsame]
    exact ⟨nofun, fun h => absurd h hsame⟩

end NeuralMesh.Agent
