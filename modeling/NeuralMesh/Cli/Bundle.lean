import NeuralMesh.Base.Files

/-!
# Bundles of the command line

`hash_files` and `upload_bundle` of `cli/src/commands/job.rs`.
-/

namespace NeuralMesh.Cli

/-- The 64-bit FNV hash of one file. -/
def fnv (content : Bytes) : UInt64 :=
  content.foldl (fun h byte => (h ^^^ byte.toUInt64) * 0x100000001b3) 0xcbf29ce484222325

/-- `BTreeMap::insert`: in the order of the names, and a name that is there gets the new value. -/
def insertByName (name : String) (h : UInt64) : List (String × UInt64) → List (String × UInt64)
  | [] => [(name, h)]
  | (k, v) :: rest =>
      if name < k then (name, h) :: (k, v) :: rest
      else if name = k then (k, h) :: rest
      else (k, v) :: insertByName name h rest

/-- The hashes of the files by name, combined. -/
def combined (files : List LocalFile) : UInt64 :=
  (files.foldl (fun map file => insertByName file.name (fnv file.content) map) []).foldl
    (fun c entry => (c ^^^ entry.2) * 0x100000001b3) 0

def hashFiles (files : List LocalFile) : String :=
  hex16 (combined files) ++ hex16 (combined files * 0xdeadbeef)

/-- The form that is posted. -/
def uploadBundle (files : List LocalFile) (bundleHash : String) : List FormPart :=
  .text "bundle_hash" bundleHash ::
    files.map fun file => ⟨some file.name, some file.name, file.content⟩

/-- The hash has half as many digits as one of SHA-256. -/
theorem length_hashFiles (files : List LocalFile) : (hashFiles files).length = 32 := by
  rw [hashFiles, String.length_append, length_hex16, length_hex16]

theorem all_hashFiles (files : List LocalFile) :
    (hashFiles files).toList.all isAsciiHexdigit = true := by
  rw [hashFiles, String.toList_append, List.all_append, all_hex16, all_hex16]
  rfl

end NeuralMesh.Cli
