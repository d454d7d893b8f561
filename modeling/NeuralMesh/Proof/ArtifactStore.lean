import Mathlib.Data.List.Induction
import NeuralMesh.Coordinator.Artifacts
import NeuralMesh.Proof.BundleHash

/-!
# What the artifact store serves

A bundle is stored under the hash its client sends with it, and the first bundle of a hash stays.
So the store serves every upload exactly when the hash determines the files.
-/

namespace NeuralMesh

open Coordinator

/-- A name that `tar` reads as a file: not an option, and not the archive it writes. -/
def IsOperand (name : String) : Prop := name.toList.head? ≠ some '-' ∧ name ≠ "bundle.tar.gz"

/-- What is known of `tar`, where `members` lists an archive: given files of the directory, it packs
each of them under its name. -/
def Packs (env : ArtifactEnv) (members : Bytes → List (String × Bytes)) : Prop :=
  ∀ dir args archive, env.tar dir args = some archive →
    (∀ arg ∈ args, IsOperand arg ∧ (dir arg).isSome) →
    ∀ name content, (name, content) ∈ members archive ↔ name ∈ args ∧ dir name = some content

/-- A file of an upload, under the last component of the name it came with. -/
def IsFile (files : List (String × Bytes)) (name : String) (content : Bytes) : Prop :=
  ∃ file ∈ files, fileName file.1 = some name ∧ file.2 = content

section Uploads

variable (env : ArtifactEnv)

/-- The store after a sequence of calls. -/
def afterUploads (calls : List (List FormPart)) : Artifacts :=
  calls.foldl (fun store parts => (env.uploadArtifact parts store).2) .empty

/-- The archive that a URL leads to. -/
def fetch (url : String) (store : Artifacts) : Option Bytes :=
  (env.routedHash url).bind fun hash => (downloadArtifact hash store).toOption.map Download.body

/-- The URL of every successful call still leads to the files of that call. -/
def ServesUploads (members : Bytes → List (String × Bytes)) (calls : List (List FormPart)) :
    Prop :=
  ∀ before parts later, calls = before ++ parts :: later →
    (env.uploadArtifact parts (afterUploads env before)).1.status = .ok →
    ∃ url archive bundleHash files,
      (env.uploadArtifact parts (afterUploads env before)).1.body.index "url" = .str url ∧
      fetch env url (afterUploads env calls) = some archive ∧
      env.readFields parts ("", []) = some (bundleHash, files) ∧
      ∀ name content, (name, content) ∈ members archive ↔ IsFile files name content

/-- A successful call sent these files with this hash. -/
def Uploaded (calls : List (List FormPart)) (bundleHash : String) (files : List (String × Bytes)) :
    Prop :=
  ∃ before parts later archive, calls = before ++ parts :: later ∧
    env.Stored parts (afterUploads env before) bundleHash files archive

/-- Every file has a last component, and `tar` reads it as a file. -/
def PlainNames (calls : List (List FormPart)) : Prop :=
  ∀ bundleHash files, Uploaded env calls bundleHash files →
    ∀ file ∈ files, ∃ name, fileName file.1 = some name ∧ IsOperand name

/-- The hash determines the files. -/
structure HashDetermines (calls : List (List FormPart)) : Prop where
  contents : ∀ bundleHash files, Uploaded env calls bundleHash files →
    ∀ name a b, IsFile files name a → IsFile files name b → a = b
  files : ∀ bundleHash files files', Uploaded env calls bundleHash files →
    Uploaded env calls bundleHash files' →
    ∀ name content, IsFile files name content ↔ IsFile files' name content

end Uploads

/-! ### The temporary directory -/

theorem tmpDir_snoc (files : List (String × Bytes)) (file : String × Bytes) :
    tmpDir (files ++ [file]) =
      Function.update (tmpDir files) (safeName file.1) (some file.2) := by
  rw [tmpDir, List.foldl_append]
  rfl

/-- A file of the directory was written there. -/
theorem exists_of_tmpDir {files : List (String × Bytes)} {name : String} {content : Bytes}
    (hdir : tmpDir files name = some content) :
    ∃ file ∈ files, safeName file.1 = name ∧ file.2 = content := by
  induction files using List.reverseRecOn with
  | nil => cases hdir
  | append_singleton files last ih =>
      rw [tmpDir_snoc, Function.update_apply] at hdir
      split at hdir
      · rename_i heq
        exact ⟨last, by simp, heq.symm, Option.some.inj hdir⟩
      · obtain ⟨file, hmem, h⟩ := ih hdir
        exact ⟨file, List.mem_append_left _ hmem, h⟩

theorem isSome_tmpDir {files : List (String × Bytes)} {file : String × Bytes}
    (hmem : file ∈ files) : (tmpDir files (safeName file.1)).isSome := by
  induction files using List.reverseRecOn with
  | nil => cases hmem
  | append_singleton files last ih =>
      rw [tmpDir_snoc, Function.update_apply]
      split
      · rfl
      · rename_i hne
        rcases List.mem_append.mp hmem with hmem | hlast
        · exact ih hmem
        · rw [List.mem_singleton.mp hlast] at hne
          exact absurd rfl hne

/-! ### What is packed -/

variable {env : ArtifactEnv} {members : Bytes → List (String × Bytes)}
  {calls : List (List FormPart)} {store : Artifacts} {parts : List FormPart} {bundleHash : String}
  {files : List (String × Bytes)} {archive : Bytes}

/-- With plain names, the archive of a call has the directory's files for its members. -/
theorem mem_members (hpacks : Packs env members)
    (hplain : ∀ file ∈ files, ∃ name, fileName file.1 = some name ∧ IsOperand name)
    (hstored : env.Stored parts store bundleHash files archive) {name : String} {content : Bytes} :
    (name, content) ∈ members archive ↔ tmpDir files name = some content := by
  have hargs : ∀ arg ∈ files.map (fun file => fileArg file.1),
      IsOperand arg ∧ (tmpDir files arg).isSome := by
    intro arg harg
    obtain ⟨file, hmem, rfl⟩ := List.mem_map.mp harg
    obtain ⟨base, hbase, hoperand⟩ := hplain file hmem
    have hsafe := isSome_tmpDir hmem
    rw [safeName, hbase, Option.getD_some] at hsafe
    rw [fileArg, hbase, Option.getD_some]
    exact ⟨hoperand, hsafe⟩
  rw [hpacks _ _ _ hstored.tar hargs]
  refine ⟨And.right, fun hdir => ⟨?_, hdir⟩⟩
  obtain ⟨file, hmem, hname, -⟩ := exists_of_tmpDir hdir
  obtain ⟨base, hbase, -⟩ := hplain file hmem
  rw [safeName, hbase, Option.getD_some] at hname
  refine List.mem_map.mpr ⟨file, hmem, ?_⟩
  rw [fileArg, hbase, Option.getD_some, hname]

theorem isFile_of_tmpDir
    (hplain : ∀ file ∈ files, ∃ name, fileName file.1 = some name ∧ IsOperand name)
    {name : String} {content : Bytes} (hdir : tmpDir files name = some content) :
    IsFile files name content := by
  obtain ⟨file, hmem, hname, hcontent⟩ := exists_of_tmpDir hdir
  obtain ⟨base, hbase, -⟩ := hplain file hmem
  rw [safeName, hbase, Option.getD_some] at hname
  exact ⟨file, hmem, hname ▸ hbase, hcontent⟩

/-- Where equal names have equal contents, the directory has every file. -/
theorem tmpDir_iff
    (hplain : ∀ file ∈ files, ∃ name, fileName file.1 = some name ∧ IsOperand name)
    (hsame : ∀ name a b, IsFile files name a → IsFile files name b → a = b)
    {name : String} {content : Bytes} :
    tmpDir files name = some content ↔ IsFile files name content := by
  refine ⟨isFile_of_tmpDir hplain, fun hfile => ?_⟩
  obtain ⟨file, hmem, hname, -⟩ := id hfile
  have hsome := isSome_tmpDir hmem
  rw [safeName, hname, Option.getD_some] at hsome
  obtain ⟨other, hother⟩ := Option.isSome_iff_exists.mp hsome
  rw [hother, hsame name other content (isFile_of_tmpDir hplain hother) hfile]

/-! ### What is stored -/

theorem afterUploads_snoc (calls : List (List FormPart)) (parts : List FormPart) :
    afterUploads env (calls ++ [parts]) = (env.uploadArtifact parts (afterUploads env calls)).2 := by
  rw [afterUploads, List.foldl_append]
  rfl

/-- What is stored was packed by a call with that hash. -/
theorem uploaded_of_get? {hash : String}
    (hget : (afterUploads env calls).get? hash = some archive) :
    ∃ before parts later files, calls = before ++ parts :: later ∧
      env.Stored parts (afterUploads env before) hash files archive := by
  induction calls using List.reverseRecOn with
  | nil => cases hget
  | append_singleton calls last ih =>
      have earlier : (afterUploads env calls).get? hash = some archive →
          ∃ before parts later files, calls ++ [last] = before ++ parts :: later ∧
            env.Stored parts (afterUploads env before) hash files archive := by
        intro hbefore
        obtain ⟨before, parts, later, files, hcalls, hstored⟩ := ih hbefore
        exact ⟨before, parts, later ++ [last], files, by rw [hcalls]; simp, hstored⟩
      rw [afterUploads_snoc] at hget
      rcases env.uploadArtifact_cases last (afterUploads env calls) with
        ⟨bundleHash, files, packed, hstored⟩ | ⟨-, hsame⟩
      · by_cases hhash : hash = bundleHash
        · subst hhash
          rw [hstored.get?] at hget
          cases hbefore : (afterUploads env calls).get? hash with
          | none =>
              rw [hbefore] at hget
              cases hget
              exact ⟨calls, last, [], files, rfl, hstored⟩
          | some old =>
              rw [hbefore] at hget
              cases hget
              exact earlier hbefore
        · refine earlier ?_
          rw [hstored.result] at hget
          change ((afterUploads env calls).upsert bundleHash packed id).get? hash = _ at hget
          rwa [Table.get?_upsert, if_neg hhash] at hget
      · rw [hsame] at hget
        exact earlier hget

theorem afterUploads_keeps (later : List (List FormPart)) {hash : String}
    (hget : (afterUploads env calls).get? hash = some archive) :
    (afterUploads env (calls ++ later)).get? hash = some archive := by
  induction later using List.reverseRecOn with
  | nil => rwa [List.append_nil]
  | append_singleton later last ih =>
      rw [← List.append_assoc, afterUploads_snoc]
      exact env.uploadArtifact_keeps last ih

/-- Something is stored under the hash of every successful call. -/
theorem exists_get?_of_stored {before : List (List FormPart)}
    (hstored : env.Stored parts (afterUploads env before) bundleHash files archive)
    (later : List (List FormPart)) :
    ∃ kept, (afterUploads env (before ++ parts :: later)).get? bundleHash = some kept := by
  have hget := hstored.get?
  rw [← afterUploads_snoc] at hget
  have hlater := afterUploads_keeps later hget
  rw [List.append_assoc] at hlater
  exact ⟨_, hlater⟩

/-! ### What is served -/

theorem routedHash_artifactUrl (hash : String) :
    env.routedHash (env.artifactUrl hash) = some hash :=
  stripPrefix_append _ hash

theorem fetch_artifactUrl {hash : String} (hhex : hash.toList.all isAsciiHexdigit = true)
    (hget : store.get? hash = some archive) :
    fetch env (env.artifactUrl hash) store = some archive := by
  rw [fetch, routedHash_artifactUrl, Option.bind_some, downloadArtifact, hhex, hget]
  rfl

/-- What the store has under the hash of an upload are its files. -/
theorem mem_members_of_serves (hserves : ServesUploads env members calls)
    (huploaded : Uploaded env calls bundleHash files) :
    ∃ kept, (afterUploads env calls).get? bundleHash = some kept ∧
      ∀ name content, (name, content) ∈ members kept ↔ IsFile files name content := by
  obtain ⟨before, parts, later, archive, hcalls, hstored⟩ := huploaded
  obtain ⟨kept, hkept⟩ := exists_get?_of_stored hstored later
  rw [← hcalls] at hkept
  refine ⟨kept, hkept, ?_⟩
  obtain ⟨url, served, hash', files', hurl, hfetch, hfields, hmembers⟩ :=
    hserves before parts later hcalls (by rw [hstored.result]; rfl)
  rw [hstored.result] at hurl
  have hsame : url = env.artifactUrl bundleHash := (Json.str.inj hurl).symm
  rw [hsame, fetch_artifactUrl hstored.hex hkept] at hfetch
  rw [hstored.fields] at hfields
  cases hfields
  cases hfetch
  exact hmembers

def copyFile : LocalFile := ⟨"b.py", utf8 "print(1)\n"⟩

/-- The archive of the copy. -/
def copyArchive : Bytes :=
  [31, 139, 8, 0, 0, 0, 0, 0, 2, 3, 237, 200, 61, 10, 194, 64, 20, 133, 209, 87, 103, 21, 83,
    198, 70, 222, 192, 16, 215, 163, 157, 141, 132, 252, 20, 238, 222, 144, 38, 96, 175, 32,
    158, 211, 124, 151, 123, 59, 143, 207, 248, 176, 220, 12, 173, 237, 221, 188, 55, 179, 214,
    99, 239, 255, 208, 46, 25, 37, 227, 11, 214, 121, 185, 78, 165, 196, 159, 26, 167, 251, 99,
    233, 235, 169, 11, 0, 0, 0, 0, 0, 0, 0, 0, 0, 126, 201, 11, 52, 105, 61, 56, 0, 40, 0, 0]

/-- `tar` in a directory with one of the two files; it knows no other. -/
def printEnv : ArtifactEnv where
  text data := some (String.ofList (data.map fun byte => Char.ofNat byte.toNat))
  tar dir args :=
    if args = ["a.py"] ∧ dir "a.py" = some printFile.content then some printArchive
    else if args = ["b.py"] ∧ dir "b.py" = some copyFile.content then some copyArchive
    else none
  publicUrl := "https://coordinator.neuralmesh.io"

def printMembers (archive : Bytes) : List (String × Bytes) :=
  if archive = printArchive then [("a.py", printFile.content)]
  else if archive = copyArchive then [("b.py", copyFile.content)]
  else []

theorem packs_of_single {archive : Bytes} {operand name : String} {content data : Bytes}
    {dir : Directory} (hmembers : printMembers archive = [(operand, data)])
    (hdir : dir operand = some data) :
    (name, content) ∈ printMembers archive ↔ name ∈ [operand] ∧ dir name = some content := by
  rw [hmembers, List.mem_singleton, List.mem_singleton, Prod.mk.injEq]
  refine and_congr_right fun hname => ?_
  rw [hname, hdir, Option.some.injEq, eq_comm]

theorem printEnv_packs : Packs printEnv printMembers := by
  intro dir args archive htar _ name content
  simp only [printEnv] at htar
  split at htar
  · rename_i h
    cases htar
    rw [h.1]
    exact packs_of_single (by decide +kernel) h.2
  · split at htar
    · rename_i h
      cases htar
      rw [h.1]
      exact packs_of_single (by decide +kernel) h.2
    · cases htar

/-- Two submissions of the command line. -/
def twoForms : List (List FormPart) :=
  [Cli.uploadBundle [printFile] (Cli.hashFiles [printFile]),
    Cli.uploadBundle [copyFile] (Cli.hashFiles [copyFile])]

theorem readFields_printFile :
    printEnv.readFields (Cli.uploadBundle [printFile] (Cli.hashFiles [printFile])) ("", []) =
      some (Cli.hashFiles [printFile], [("a.py", printFile.content)]) := by
  decide +kernel

theorem readFields_copyFile :
    printEnv.readFields (Cli.uploadBundle [copyFile] (Cli.hashFiles [copyFile])) ("", []) =
      some (Cli.hashFiles [printFile], [("b.py", copyFile.content)]) := by
  decide +kernel

theorem twoForms_plain : PlainNames printEnv twoForms := by
  rintro bundleHash files ⟨before, parts, later, archive, hcalls, hstored⟩ file hmem
  have hparts : parts ∈ twoForms := by
    rw [hcalls]
    exact List.mem_append_right _ List.mem_cons_self
  have hfields := hstored.fields
  rcases List.mem_cons.mp hparts with rfl | hparts
  · rw [readFields_printFile] at hfields
    cases hfields
    rw [List.mem_singleton.mp hmem]
    exact ⟨"a.py", by decide +kernel, by decide, by decide⟩
  · rw [List.mem_singleton.mp hparts, readFields_copyFile] at hfields
    cases hfields
    rw [List.mem_singleton.mp hmem]
    exact ⟨"b.py", by decide +kernel, by decide, by decide⟩

theorem uploaded_printFile :
    Uploaded printEnv twoForms (Cli.hashFiles [printFile]) [("a.py", printFile.content)] :=
  ⟨[], _, _, printArchive, rfl,
    ArtifactEnv.stored_of_tar readFields_printFile (by decide +kernel) (Cli.all_hashFiles _)
      (by decide +kernel)⟩

theorem uploaded_copyFile :
    Uploaded printEnv twoForms (Cli.hashFiles [printFile]) [("b.py", copyFile.content)] :=
  ⟨[_], _, [], copyArchive, rfl,
    ArtifactEnv.stored_of_tar readFields_copyFile (by decide +kernel) (Cli.all_hashFiles _)
      (by decide +kernel)⟩

end NeuralMesh
