import Mathlib.Data.List.Infix
import NeuralMesh.Base.Files

/-!
# A file system

Directories and files by their paths. Whatever contains something is a directory.
-/

namespace NeuralMesh

/-- The components of an absolute path. -/
abbrev Path := List String

/-- A path as it is written. -/
def Path.display (p : Path) : String := "/" ++ "/".intercalate p

/-- `PathBuf::from` of an absolute path. -/
def Path.ofString (text : String) : Path :=
  ((text.toList.splitOn '/').map String.ofList).filter
    fun component => component ≠ "" ∧ component ≠ "."

/-- `Path::join`, which an absolute path replaces. -/
def Path.join (p : Path) (text : String) : Path :=
  if text.toList.head? = some '/' then .ofString text else p ++ .ofString text

inductive Node where
  | dir
  | file (content : Bytes)
  deriving DecidableEq

structure FileSystem where
  node : Path → Option Node
  root : node [] = some .dir
  parent : ∀ p name, (node (p ++ [name])).isSome → node p = some .dir

namespace FileSystem

section Operations

variable (fs : FileSystem)

/-- `Path::exists` -/
def pathExists (p : Path) : Bool := (fs.node p).isSome

/-- `std::fs::read` -/
def read (p : Path) : Option Bytes :=
  match fs.node p with
  | some (.file content) => some content
  | _ => none

/-- `std::fs::read_to_string` -/
def readToString (p : Path) : Option String := (fs.read p).bind fromUtf8

/-- `std::fs::write`, and `File::create` with no content: the file is made or truncated. -/
def write (p : Path) (content : Bytes) : Option FileSystem :=
  if h : p ≠ [] ∧ fs.node p.dropLast = some .dir ∧ fs.node p ≠ some .dir then
    some
      { node := fun q => if q = p then some (.file content) else fs.node q
        root := by rw [if_neg h.1.symm, fs.root]
        parent := by
          intro q name hsome
          by_cases hq : q = p
          · subst hq
            rw [if_neg (by simp)] at hsome
            exact absurd (fs.parent q name hsome) h.2.2
          · rw [if_neg hq]
            split at hsome
            · rename_i hp
              rw [← h.2.1, ← hp, List.dropLast_concat]
            · exact fs.parent q name hsome }
  else none

/-- A file opened to append, which is made if there is none. -/
def openAppend (p : Path) : Option FileSystem :=
  match fs.read p with
  | some _ => some fs
  | none => fs.write p []

/-- `create_dir_all` -/
def createDirAll (p : Path) : Option FileSystem :=
  if ∀ q ∈ p.inits, fs.read q = none then
    some
      { node := fun q => if q <+: p then some .dir else fs.node q
        root := by rw [if_pos List.nil_prefix]
        parent := by
          intro q name hsome
          split at hsome
          · rename_i hpre
            rw [if_pos ((List.prefix_append q [name]).trans hpre)]
          · split
            · rfl
            · exact fs.parent q name hsome }
  else none

/-- What is kept of the entries. -/
def restrict (keep : Path → Prop) [DecidablePred keep] (hroot : keep [])
    (hparent : ∀ p name, (fs.node (p ++ [name])).isSome → keep (p ++ [name]) → keep p) :
    FileSystem where
  node q := if keep q then fs.node q else none
  root := by rw [if_pos hroot, fs.root]
  parent := by
    intro q name hsome
    split at hsome
    · rename_i hkeep
      rw [if_pos (hparent q name hsome hkeep), fs.parent q name hsome]
    · cases hsome

/-- `remove_file` -/
def removeFile (p : Path) : Option FileSystem :=
  if h : (fs.read p).isSome then
    some (fs.restrict (· ≠ p)
      (by
        rintro rfl
        rw [read, fs.root] at h
        cases h)
      (by
        rintro q name hsome - rfl
        rw [read, fs.parent q name hsome] at h
        cases h))
  else none

/-- `q` stays when `p` is removed: it is not in `p`, or it is or contains an entry that is stuck. -/
def Stays (stuck : List Path) (p q : Path) : Prop :=
  q = [] ∨ ¬p <+: q ∨ ∃ r ∈ stuck, q <+: r ∧ fs.pathExists r

instance (stuck : List Path) (p q : Path) : Decidable (fs.Stays stuck p q) :=
  inferInstanceAs (Decidable (_ ∨ _ ∨ _))

theorem stays_root (stuck : List Path) (p : Path) : fs.Stays stuck p [] := .inl rfl

theorem stays_parent {stuck : List Path} {p : Path} (q : Path) (name : String)
    (hstays : fs.Stays stuck p (q ++ [name])) : fs.Stays stuck p q := by
  obtain hnil | hout | ⟨r, hr, hpre, hexists⟩ := hstays
  · cases List.append_eq_nil_iff.mp hnil with
    | intro _ hname => cases hname
  · exact .inr (.inl fun hpre => hout (hpre.trans (List.prefix_append q [name])))
  · exact .inr (.inr ⟨r, hr, (List.prefix_append q [name]).trans hpre, hexists⟩)

/-- `remove_dir_all`, and whether it succeeds. What cannot be removed, or was not yet when something
could not, is `stuck`. -/
def removeDirAll (stuck : List Path) (p : Path) : FileSystem × Bool :=
  if fs.node p = some .dir then
    (fs.restrict (fs.Stays stuck p) (fs.stays_root stuck p) fun q name _ => fs.stays_parent q name,
      stuck.all fun r => !(decide (p <+: r) && fs.pathExists r))
  else (fs, false)

end Operations

variable {fs : FileSystem} {p q : Path}

/-- What is in a file would make it a directory. -/
theorem eq_of_prefix_of_read {content : Bytes} (hread : fs.read q = some content) (hpre : q <+: p)
    (hexists : fs.pathExists p) : p = q := by
  obtain ⟨rest, rfl⟩ := hpre
  induction rest using List.reverseRecOn with
  | nil => exact List.append_nil q
  | append_singleton rest name ih =>
      rw [← List.append_assoc] at hexists
      have hdir := fs.parent _ _ hexists
      have hsame : q ++ rest = q := by
        apply ih
        rw [pathExists, hdir]
        rfl
      rw [hsame] at hdir
      rw [read, hdir] at hread
      cases hread

theorem node_of_read {name : String} {content : Bytes}
    (hread : fs.read (p ++ [name]) = some content) : fs.node p = some .dir := by
  apply fs.parent p name
  rw [read] at hread
  split at hread
  · rename_i hnode
    rw [hnode]
    rfl
  · cases hread

theorem pathExists_of_read {content : Bytes} (hread : fs.read p = some content) :
    fs.pathExists p := by
  rw [read] at hread
  split at hread
  · rename_i hnode
    rw [pathExists, hnode]
    rfl
  · cases hread

theorem read_write {content : Bytes} {after : FileSystem} (hwrite : fs.write p content = some after) :
    after.read p = some content := by
  rw [write] at hwrite
  split at hwrite
  · cases hwrite
    rw [read]
    simp only [if_true]
  · cases hwrite

theorem read_restrict {keep : Path → Prop} [DecidablePred keep] {hroot : keep []}
    {hparent : ∀ p name, (fs.node (p ++ [name])).isSome → keep (p ++ [name]) → keep p} :
    (fs.restrict keep hroot hparent).read q = if keep q then fs.read q else none := by
  by_cases hkeep : keep q
  · simp only [read, restrict, if_pos hkeep]
  · simp only [read, restrict, if_neg hkeep]

theorem read_removeFile_of_ne {after : FileSystem} (hremove : fs.removeFile p = some after)
    (hne : q ≠ p) : after.read q = fs.read q := by
  rw [removeFile] at hremove
  split at hremove
  · cases hremove
    rw [read_restrict, if_pos hne]
  · cases hremove

theorem read_removeDirAll_of_not_prefix {stuck : List Path} (hout : ¬p <+: q) :
    (fs.removeDirAll stuck p).1.read q = fs.read q := by
  have hstays : fs.Stays stuck p q := .inr (.inl hout)
  rw [removeDirAll]
  split
  · rw [read_restrict, if_pos hstays]
  · rfl

theorem read_removeDirAll_of_none {stuck : List Path} (hread : fs.read q = none) :
    (fs.removeDirAll stuck p).1.read q = none := by
  rw [removeDirAll]
  split
  · rw [read_restrict, hread, ite_self]
  · exact hread

/-- A file in a directory that is removed goes, unless it is stuck. -/
theorem read_removeDirAll {stuck : List Path} {content : Bytes} (hdir : fs.node p = some .dir)
    (hpre : p <+: q) (hread : fs.read q = some content) :
    (fs.removeDirAll stuck p).1.read q = if q ∈ stuck then some content else none := by
  rw [removeDirAll, if_pos hdir, read_restrict, hread]
  refine if_congr ⟨?_, fun hmem => ?_⟩ rfl rfl
  · rintro (rfl | hout | ⟨r, hr, hinside, hexists⟩)
    · rw [read, fs.root] at hread
      cases hread
    · exact absurd hpre hout
    · rwa [← eq_of_prefix_of_read hread hinside hexists]
  · exact .inr (.inr ⟨q, hmem, List.prefix_refl q, pathExists_of_read hread⟩)

/-! ### Nodes after an operation -/

section Nodes

variable {after : FileSystem}

theorem pathExists_eq_false : fs.pathExists p = false ↔ fs.node p = none := by
  rw [pathExists, Option.isSome_eq_false_iff, Option.isNone_iff_eq_none]

theorem node_createDirAll (hcreate : fs.createDirAll p = some after) :
    after.node q = if q <+: p then some .dir else fs.node q := by
  rw [createDirAll] at hcreate
  split at hcreate
  · cases hcreate
    rfl
  · cases hcreate

theorem node_write {content : Bytes} (hwrite : fs.write p content = some after) :
    after.node q = if q = p then some (.file content) else fs.node q := by
  rw [write] at hwrite
  split at hwrite
  · cases hwrite
    rfl
  · cases hwrite

/-- No file is in the way of a directory that is made. -/
theorem read_createDirAll (hcreate : fs.createDirAll p = some after) : after.read q = fs.read q := by
  have hnode := node_createDirAll (q := q) hcreate
  by_cases hpre : q <+: p
  · rw [createDirAll] at hcreate
    split at hcreate
    · rename_i hclear
      rw [hclear q ((List.mem_inits q p).mpr hpre), read, hnode, if_pos hpre]
    · cases hcreate
  · rw [read, hnode, if_neg hpre, read]

theorem read_write_of_ne {content : Bytes} (hwrite : fs.write p content = some after) (hne : q ≠ p) :
    after.read q = fs.read q := by
  rw [read, node_write hwrite, if_neg hne, read]

theorem node_removeFile (hremove : fs.removeFile p = some after) :
    after.node q = if q ≠ p then fs.node q else none := by
  rw [removeFile] at hremove
  split at hremove
  · cases hremove
    rfl
  · cases hremove

theorem isSome_removeFile : (fs.removeFile p).isSome ↔ (fs.read p).isSome := by
  rw [removeFile]
  split
  · rename_i hfile
    exact iff_of_true rfl hfile
  · rename_i hfile
    exact iff_of_false nofun hfile

theorem node_removeDirAll_of_not_prefix {stuck : List Path} (hout : ¬p <+: q) :
    (fs.removeDirAll stuck p).1.node q = fs.node q := by
  have hstays : fs.Stays stuck p q := .inr (.inl hout)
  rw [removeDirAll]
  split
  · exact if_pos hstays
  · rfl

/-- A directory that can be removed, with nothing stuck in it. -/
def CanRemove (fs : FileSystem) (stuck : List Path) (p : Path) : Prop :=
  fs.node p = some .dir ∧ ∀ r ∈ stuck, p <+: r → fs.node r = none

theorem removeDirAll_ok_iff {stuck : List Path} :
    (fs.removeDirAll stuck p).2 = true ↔ fs.CanRemove stuck p := by
  rw [removeDirAll, CanRemove]
  split
  · rename_i hdir
    rw [List.all_eq_true]
    refine Iff.trans (forall₂_congr fun r _ => ?_) (and_iff_right hdir).symm
    rw [Bool.not_eq_true', Bool.and_eq_false_imp, decide_eq_true_eq, pathExists_eq_false]
  · rename_i hdir
    exact iff_of_false nofun fun h => hdir h.1

/-- What goes when a directory other than the root is removed. -/
theorem node_removeDirAll_self {stuck : List Path} (hne : p ≠ []) :
    (fs.removeDirAll stuck p).1.node p = none ↔ fs.node p = none ∨ fs.CanRemove stuck p := by
  by_cases hdir : fs.node p = some .dir
  · rw [removeDirAll, if_pos hdir, CanRemove, hdir]
    have hstays : fs.Stays stuck p p ↔ ∃ r ∈ stuck, p <+: r ∧ fs.pathExists r := by
      rw [Stays, or_iff_right hne, or_iff_right (not_not_intro (List.prefix_refl p))]
    change (if fs.Stays stuck p p then fs.node p else none) = none ↔ _
    rw [hdir]
    split
    · rename_i hkept
      obtain ⟨r, hr, hinside, hexists⟩ := hstays.mp hkept
      refine iff_of_false nofun ?_
      rintro (hnone | ⟨-, hall⟩)
      · cases hnone
      · rw [pathExists, hall r hr hinside] at hexists
        cases hexists
    · rename_i hgone
      refine iff_of_true rfl (.inr ⟨rfl, fun r hr hinside => ?_⟩)
      rw [← pathExists_eq_false, ← Bool.not_eq_true]
      exact fun hexists => hgone (hstays.mpr ⟨r, hr, hinside, hexists⟩)
  · rw [removeDirAll, if_neg hdir, CanRemove, or_iff_left fun h => hdir h.1]

/-- A step that leaves directories directories. -/
def KeepsDirs (step : FileSystem → Option FileSystem) : Prop :=
  ∀ fs after p, step fs = some after → fs.node p = some .dir → after.node p = some .dir

theorem keepsDirs_createDirAll (p : Path) : KeepsDirs (·.createDirAll p) := by
  intro fs after q hcreate hdir
  rw [node_createDirAll hcreate, hdir, ite_self]

theorem keepsDirs_write (p : Path) (content : Bytes) : KeepsDirs (·.write p content) := by
  intro fs after q hwrite hdir
  rw [node_write hwrite, if_neg, hdir]
  rintro rfl
  dsimp only at hwrite
  rw [write, dif_neg fun h => h.2.2 hdir] at hwrite
  cases hwrite

theorem keepsDirs_openAppend (p : Path) : KeepsDirs (·.openAppend p) := by
  intro fs after q hopen hdir
  dsimp only [openAppend] at hopen
  split at hopen
  · cases hopen
    exact hdir
  · exact keepsDirs_write p [] fs after q hopen hdir

theorem keepsDirs_removeFile (p : Path) : KeepsDirs (·.removeFile p) := by
  intro fs after q hremove hdir
  have hfile : (fs.read p).isSome := isSome_removeFile.mp (by
    change fs.removeFile p = some after at hremove
    rw [hremove]
    rfl)
  rw [node_removeFile hremove, if_pos, hdir]
  rintro rfl
  rw [read, hdir] at hfile
  cases hfile

end Nodes

end FileSystem

end NeuralMesh
