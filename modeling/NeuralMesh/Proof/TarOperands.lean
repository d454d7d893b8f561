import NeuralMesh.Base.Paths
import NeuralMesh.Coordinator.Artifacts

/-!
# What `tar` is asked to pack

The two expressions for the name of an upload agree while the name has a last component. Without one,
as in `..` or `/`, the file is written as `file` and `tar` is given the name itself. A component may
begin with a dash, and nothing ends the options before it.
-/

namespace NeuralMesh.Coordinator

variable {files : List (String × Bytes)} {name base : String}

/-- The names the files are written under. -/
def written (files : List (String × Bytes)) : List String := files.map fun file => safeName file.1

/-- The operands `tar` is given. -/
def operands (files : List (String × Bytes)) : List String := files.map fun file => fileArg file.1

/-- The files of a call that gets as far as `tar`. -/
def ArtifactEnv.tarFiles (env : ArtifactEnv) (parts : List FormPart) :
    Option (List (String × Bytes)) :=
  match env.readFields parts ("", []) with
  | none => none
  | some (bundleHash, files) =>
      if bundleHash.isEmpty ∨ files.isEmpty then none
      else if !bundleHash.toList.all isAsciiHexdigit then none
      else some files

/-- A call is accepted when `tar` packs its files. -/
theorem ArtifactEnv.accepted_iff (env : ArtifactEnv) (parts : List FormPart) (store : Artifacts) :
    (env.uploadArtifact parts store).1.status = .ok ↔
      ∃ files ∈ env.tarFiles parts, (env.tar (tmpDir files) (operands files)).isSome := by
  have hbad : (Reply.error .badRequest).status ≠ .ok := by decide
  have hnone : ¬ ∃ files ∈ (none : Option (List (String × Bytes))),
      (env.tar (tmpDir files) (operands files)).isSome := by
    rintro ⟨_, hfiles, -⟩
    cases hfiles
  rw [uploadArtifact, tarFiles]
  cases env.readFields parts ("", []) with
  | none => exact iff_of_false hbad hnone
  | some read =>
      obtain ⟨bundleHash, files⟩ := read
      dsimp only
      split
      · exact iff_of_false hbad hnone
      split
      · exact iff_of_false hbad hnone
      · cases htar : env.tar (tmpDir files) (files.map fun file => fileArg file.1) with
        | none =>
            refine iff_of_false (fun heq => by cases heq) ?_
            rintro ⟨_, hfiles, hpacked⟩
            cases hfiles
            rw [operands, htar] at hpacked
            cases hpacked
        | some bundleGz =>
            refine iff_of_true rfl ⟨files, rfl, ?_⟩
            rw [operands, htar]
            rfl

/-- The operands are the written names, none of them is an option, and none leads out of the directory
that `tar` runs in. -/
structure OnlyUploads (files : List (String × Bytes)) : Prop where
  exactly : ∀ operand, operand ∈ operands files ↔ operand ∈ written files
  notOption : ∀ operand ∈ operands files, operand.toList.head? ≠ some '-'
  inside : ∀ operand ∈ operands files, ∀ dir : Path, Path.Below dir.resolve (dir.join operand)

/-! ### The two names -/

theorem safeName_of_fileName (hbase : fileName name = some base) : safeName name = base := by
  rw [safeName, hbase, Option.getD_some]

theorem fileArg_of_fileName (hbase : fileName name = some base) : fileArg name = base := by
  rw [fileArg, hbase, Option.getD_some]

/-- Every file is written under the name of an entry. -/
theorem isName_safeName (name : String) : IsName (safeName name) := by
  cases hbase : fileName name with
  | none =>
      rw [safeName, hbase]
      exact ⟨by decide, by decide, by decide, by decide⟩
  | some base =>
      rw [safeName_of_fileName hbase]
      exact Path.isName_of_fileName hbase

/-- A name without a last component is not one that is written. -/
theorem fileName_of_mem (hexactly : ∀ operand ∈ operands files, operand ∈ written files)
    {file : String × Bytes} (hfile : file ∈ files) : ∃ base, fileName file.1 = some base := by
  cases hbase : fileName file.1 with
  | some base => exact ⟨base, rfl⟩
  | none =>
      have harg : fileArg file.1 = file.1 := by rw [fileArg, hbase, Option.getD_none]
      have hwritten := hexactly (fileArg file.1) (List.mem_map_of_mem hfile)
      obtain ⟨other, -, hother⟩ := List.mem_map.mp hwritten
      have hname : IsName file.1 := by
        rw [← harg, ← hother]
        exact isName_safeName other.1
      rw [Path.fileName_of_isName hname] at hbase
      cases hbase

/-- Every name has a last component, and that does not begin with a dash. -/
def PlainBases (files : List (String × Bytes)) : Prop :=
  ∀ file ∈ files, ∃ base, fileName file.1 = some base ∧ base.toList.head? ≠ some '-'

theorem OnlyUploads.plainBases (honly : OnlyUploads files) : PlainBases files := by
  intro file hfile
  obtain ⟨base, hbase⟩ := fileName_of_mem (fun operand => (honly.exactly operand).mp) hfile
  refine ⟨base, hbase, ?_⟩
  have hoption := honly.notOption (fileArg file.1) (List.mem_map_of_mem hfile)
  rwa [fileArg_of_fileName hbase] at hoption

theorem PlainBases.onlyUploads (hplain : PlainBases files) : OnlyUploads files := by
  have hsame : operands files = written files := by
    refine List.map_congr_left fun file hfile => ?_
    obtain ⟨base, hbase, -⟩ := hplain file hfile
    rw [fileArg_of_fileName hbase, safeName_of_fileName hbase]
  refine ⟨fun operand => by rw [hsame], fun operand hoperand => ?_, fun operand hoperand dir => ?_⟩
  · obtain ⟨file, hfile, rfl⟩ := List.mem_map.mp hoperand
    obtain ⟨base, hbase, hdash⟩ := hplain file hfile
    rwa [fileArg_of_fileName hbase]
  · rw [hsame] at hoperand
    obtain ⟨file, -, rfl⟩ := List.mem_map.mp hoperand
    exact Path.below_of_isName (isName_safeName file.1) dir

/-- `tar` is asked for the uploads alone exactly when every name has a last component that does not
begin with a dash. -/
theorem onlyUploads_iff (env : ArtifactEnv) (parts : List FormPart) :
    (∀ files ∈ env.tarFiles parts, OnlyUploads files) ↔
      ∀ files ∈ env.tarFiles parts, PlainBases files :=
  forall₂_congr fun _ _ => ⟨OnlyUploads.plainBases, PlainBases.onlyUploads⟩

/-! ### The parent -/

def parentForm : List FormPart := [.text "bundle_hash" "00", ⟨some "file", some "..", utf8 "x"⟩]

def acceptingEnv : ArtifactEnv where
  text := fromUtf8
  tar _ _ := some []
  publicUrl := ""

/-- The call is accepted; what it packs is the directory above. -/
theorem parentForm_not_onlyUploads :
    (acceptingEnv.uploadArtifact parentForm .empty).1.status = .ok ∧
      ¬ ∀ files ∈ acceptingEnv.tarFiles parentForm, OnlyUploads files := by
  have hfiles : acceptingEnv.tarFiles parentForm = some [("..", utf8 "x")] := by decide +kernel
  refine ⟨by decide +kernel, fun hall => ?_⟩
  have hwritten := ((hall _ hfiles).exactly "..").mp (by decide +kernel)
  exact absurd hwritten (by decide +kernel)

end NeuralMesh.Coordinator
