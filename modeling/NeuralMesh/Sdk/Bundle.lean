import NeuralMesh.Base.Files

/-!
# Bundles of the Python SDK

The bundle of `NeuralMeshClient.submit`, `sdk/python/neuralmesh/client.py`. The SHA-256 digest is a
parameter.
-/

namespace NeuralMesh.Sdk

/-- The bytes that are hashed: the names and contents of the files, in the order of the names. -/
def bundleStream (files : List LocalFile) : Bytes :=
  (files.mergeSort fun a b => decide (a.name ≤ b.name)).flatMap fun file =>
    utf8 file.name ++ file.content

def bundleHash (sha256 : Bytes → String) (files : List LocalFile) : String :=
  sha256 (bundleStream files)

/-- The form that is posted. -/
def uploadBundle (files : List LocalFile) (bundleHash : String) : List FormPart :=
  .text "bundle_hash" bundleHash ::
    files.map fun file => ⟨some "files", some file.name, file.content⟩

end NeuralMesh.Sdk
