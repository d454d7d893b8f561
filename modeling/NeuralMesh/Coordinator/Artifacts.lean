import NeuralMesh.Base.Files
import NeuralMesh.Base.Http
import NeuralMesh.Base.Table

/-!
# The artifact store of the coordinator

`upload_artifact` and `download_artifact` of `coordinator/src/api/rest.rs`. Reading a form field as
text and packing a directory are not the coordinator's own code, so they are parameters; a file that
cannot be written ends the call as a failed `tar` does.
-/

namespace NeuralMesh.Coordinator

/-- The temporary directory of a call. -/
abbrev Directory := String → Option Bytes

structure ArtifactEnv where
  /-- `Field::text` of the form reader, `none` for an error -/
  text : Bytes → Option String
  /-- `tar -czf bundle.tar.gz args..` in a directory, `none` for a failure -/
  tar : Directory → List String → Option Bytes
  /-- `PUBLIC_URL` -/
  publicUrl : String

/-- `artifacts`: `bundle_gz` by `hash`. -/
abbrev Artifacts := Table String Bytes

/-- The name a file is written under. -/
def safeName (name : String) : String := (fileName name).getD "file"

/-- The name of a file that `tar` is given. -/
def fileArg (name : String) : String := (fileName name).getD name

/-- The files as they are written, one after the other. -/
def tmpDir (files : List (String × Bytes)) : Directory :=
  files.foldl (fun dir file => Function.update dir (safeName file.1) (some file.2)) fun _ => none

namespace ArtifactEnv

variable (env : ArtifactEnv)

/-- The loop over the fields: the hash, and the files under the names they came with. -/
def readFields :
    List FormPart → String × List (String × Bytes) → Option (String × List (String × Bytes))
  | [], read => some read
  | part :: parts, (bundleHash, files) =>
      let name := part.name.getD ""
      if name = "bundle_hash" then
        match env.text part.data with
        | none => none
        | some bundleHash => readFields parts (bundleHash, files)
      else readFields parts (bundleHash, files ++ [(part.fileName.getD name, part.data)])

def base : String := if env.publicUrl.isEmpty then "" else trimEndSlashes env.publicUrl

def artifactUrl (hash : String) : String := env.base ++ "/api/v1/artifacts/" ++ hash

/-- `INSERT INTO artifacts .. ON CONFLICT (hash) DO NOTHING` -/
def insertArtifact (store : Artifacts) (hash : String) (bundleGz : Bytes) : Artifacts :=
  store.upsert hash bundleGz fun old => old

def uploadArtifact (parts : List FormPart) (store : Artifacts) : Reply × Artifacts :=
  match env.readFields parts ("", []) with
  | none => (.error .badRequest, store)
  | some (bundleHash, files) =>
      if bundleHash.isEmpty ∨ files.isEmpty then (.error .badRequest, store)
      else if !bundleHash.toList.all isAsciiHexdigit then (.error .badRequest, store)
      else
        match env.tar (tmpDir files) (files.map fun file => fileArg file.1) with
        | none => (.error .internalServerError, store)
        | some bundleGz =>
            (.json [("url", .str (env.artifactUrl bundleHash)), ("bundle_hash", .str bundleHash)],
              insertArtifact store bundleHash bundleGz)

/-- The `:hash` that the router finds in a URL of this coordinator. -/
def routedHash (url : String) : Option String := stripPrefix (env.base ++ "/api/v1/artifacts/") url

end ArtifactEnv

/-- The response to a download. -/
structure Download where
  contentDisposition : String
  body : Bytes

def downloadArtifact (hash : String) (store : Artifacts) : Except StatusCode Download :=
  if !hash.toList.all isAsciiHexdigit then .error .badRequest
  else
    match store.get? hash with
    | none => .error .notFound
    | some data =>
        .ok
          { contentDisposition :=
              "attachment; filename=\"bundle-" ++ String.ofList (hash.toList.take 8) ++ ".tar.gz\""
            body := data }

/-! ### What a call does -/

namespace ArtifactEnv

variable {env : ArtifactEnv} {store : Artifacts} {parts : List FormPart}

/-- A call that succeeds. -/
structure Stored (env : ArtifactEnv) (parts : List FormPart) (store : Artifacts)
    (bundleHash : String) (files : List (String × Bytes)) (bundleGz : Bytes) : Prop where
  fields : env.readFields parts ("", []) = some (bundleHash, files)
  hex : bundleHash.toList.all isAsciiHexdigit = true
  tar : env.tar (tmpDir files) (files.map fun file => fileArg file.1) = some bundleGz
  result : env.uploadArtifact parts store =
    (.json [("url", .str (env.artifactUrl bundleHash)), ("bundle_hash", .str bundleHash)],
      insertArtifact store bundleHash bundleGz)

theorem stored_of_tar {bundleHash : String} {files : List (String × Bytes)} {bundleGz : Bytes}
    (hfields : env.readFields parts ("", []) = some (bundleHash, files))
    (hgiven : ¬ (bundleHash.isEmpty ∨ files.isEmpty))
    (hhex : bundleHash.toList.all isAsciiHexdigit = true)
    (htar : env.tar (tmpDir files) (files.map fun file => fileArg file.1) = some bundleGz) :
    env.Stored parts store bundleHash files bundleGz := by
  refine ⟨hfields, hhex, htar, ?_⟩
  rw [uploadArtifact, hfields]
  dsimp only
  rw [if_neg hgiven, hhex, htar]
  rfl

/-- A call stores what it packed, or it fails and stores nothing. -/
theorem uploadArtifact_cases (env : ArtifactEnv) (parts : List FormPart) (store : Artifacts) :
    (∃ bundleHash files bundleGz, env.Stored parts store bundleHash files bundleGz) ∨
      (env.uploadArtifact parts store).1.status ≠ .ok ∧
        (env.uploadArtifact parts store).2 = store := by
  cases hfields : env.readFields parts ("", []) with
  | none =>
      right
      rw [uploadArtifact, hfields]
      exact ⟨nofun, rfl⟩
  | some read =>
      obtain ⟨bundleHash, files⟩ := read
      by_cases hgiven : bundleHash.isEmpty ∨ files.isEmpty
      · right
        rw [uploadArtifact, hfields]
        dsimp only
        rw [if_pos hgiven]
        exact ⟨nofun, rfl⟩
      cases hhex : bundleHash.toList.all isAsciiHexdigit with
      | false =>
          right
          rw [uploadArtifact, hfields]
          dsimp only
          rw [if_neg hgiven, hhex]
          exact ⟨nofun, rfl⟩
      | true =>
          cases htar : env.tar (tmpDir files) (files.map fun file => fileArg file.1) with
          | none =>
              right
              rw [uploadArtifact, hfields]
              dsimp only
              rw [if_neg hgiven, hhex, htar]
              exact ⟨nofun, rfl⟩
          | some bundleGz =>
              exact .inl ⟨bundleHash, files, bundleGz, stored_of_tar hfields hgiven hhex htar⟩

theorem stored_of_ok (hok : (env.uploadArtifact parts store).1.status = .ok) :
    ∃ bundleHash files bundleGz, env.Stored parts store bundleHash files bundleGz := by
  rcases env.uploadArtifact_cases parts store with hstored | ⟨hfailed, -⟩
  · exact hstored
  · exact absurd hok hfailed

/-- What is stored stays. -/
theorem uploadArtifact_keeps (parts : List FormPart) {hash : String} {gz : Bytes}
    (hget : store.get? hash = some gz) :
    (env.uploadArtifact parts store).2.get? hash = some gz := by
  rcases env.uploadArtifact_cases parts store with
    ⟨bundleHash, files, bundleGz, hstored⟩ | ⟨-, hsame⟩
  · rw [hstored.result]
    show (store.upsert bundleHash bundleGz fun old => old).get? hash = some gz
    rw [Table.get?_upsert]
    split
    · rename_i heq
      rw [← heq, hget]
      rfl
    · exact hget
  · rw [hsame]
    exact hget

/-- The first call with a hash decides what is stored under it. -/
theorem Stored.get? {bundleHash : String} {files : List (String × Bytes)} {bundleGz : Bytes}
    (hstored : env.Stored parts store bundleHash files bundleGz) :
    (env.uploadArtifact parts store).2.get? bundleHash =
      some ((store.get? bundleHash).getD bundleGz) := by
  rw [hstored.result]
  show (store.upsert bundleHash bundleGz fun old => old).get? bundleHash = _
  rw [Table.get?_upsert, if_pos rfl, Option.map_id']

end ArtifactEnv

end NeuralMesh.Coordinator
