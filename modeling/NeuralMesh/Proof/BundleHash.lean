import NeuralMesh.Agent.DownloadBundle
import NeuralMesh.Cli.Bundle
import NeuralMesh.Sdk.Bundle

/-!
# Three hashes of a bundle

The agent takes the SHA-256 digest of the archive. The command line submits 32 digits of an FNV
hash of the files, the SDK the SHA-256 digest of their names and contents.
-/

namespace NeuralMesh

/-- What is known of `sha256`: a digest has 64 hexadecimal digits. -/
def Digests (sha256 : Bytes → String) : Prop :=
  ∀ content, (sha256 content).length = 64 ∧ (sha256 content).toList.all isAsciiHexdigit = true

inductive Client where
  | cli | sdk
  deriving DecidableEq

/-- The `bundle_hash` that is submitted with the job. -/
def Client.bundleHash (sha256 : Bytes → String) : Client → List LocalFile → String
  | cli, files => Cli.hashFiles files
  | sdk, files => Sdk.bundleHash sha256 files

/-- The agent accepts an archive for the bundle of these files. -/
def Accepts (sha256 : Bytes → String) (client : Client) (files : List LocalFile)
    (archive : Bytes) : Prop :=
  ∀ url, Agent.downloadBundle sha256 (fun _ => some archive) url (client.bundleHash sha256 files) =
    .ok archive

variable {sha256 : Bytes → String}

theorem Client.bundleHash_ne (hdigests : Digests sha256) (client : Client)
    (files : List LocalFile) : client.bundleHash sha256 files ≠ "" := by
  intro hempty
  have hlength := congrArg String.length hempty
  cases client with
  | cli =>
      rw [Client.bundleHash, Cli.length_hashFiles] at hlength
      cases hlength
  | sdk =>
      rw [Client.bundleHash, Sdk.bundleHash, (hdigests _).1] at hlength
      cases hlength

theorem accepts_iff (hdigests : Digests sha256) (client : Client) (files : List LocalFile)
    (archive : Bytes) :
    Accepts sha256 client files archive ↔ sha256 archive = client.bundleHash sha256 files := by
  have hne := client.bundleHash_ne hdigests files
  constructor
  · intro haccepts
    exact (Agent.downloadBundle_iff rfl hne).mp (haccepts "")
  · intro hsame url
    exact (Agent.downloadBundle_iff rfl hne).mpr hsame

/-- A digest is too long for the hash of the command line. -/
theorem cli_never_accepted (hdigests : Digests sha256) (files : List LocalFile) (archive : Bytes) :
    ¬ Accepts sha256 .cli files archive := by
  rw [accepts_iff hdigests]
  intro hsame
  have hlength := congrArg String.length hsame
  rw [(hdigests archive).1, Client.bundleHash, Cli.length_hashFiles] at hlength
  cases hlength

/-- The agent accepts no bundle of the command line, and one of the SDK exactly where SHA-256 does
not tell the archive from the names and contents it was made of. -/
theorem bundle_accepted_iff (hdigests : Digests sha256) (client : Client) (files : List LocalFile)
    (archive : Bytes) :
    Accepts sha256 client files archive ↔
      client = .sdk ∧ sha256 archive = sha256 (Sdk.bundleStream files) := by
  cases client with
  | cli =>
      constructor
      · exact fun haccepts => absurd haccepts (cli_never_accepted hdigests files archive)
      · rintro ⟨hclient, -⟩
        cases hclient
  | sdk =>
      rw [accepts_iff hdigests]
      exact ⟨fun hsame => ⟨rfl, hsame⟩, fun h => h.2⟩

/-! ### A bundle of one file -/

def printFile : LocalFile := ⟨"a.py", utf8 "print(1)\n"⟩

/-- The archive of this file. -/
def printArchive : Bytes :=
  [31, 139, 8, 0, 0, 0, 0, 0, 2, 3, 237, 200, 59, 10, 194, 64, 24, 133, 209, 191, 118, 21, 83, 198,
    70, 102, 96, 24, 215, 147, 210, 38, 132, 60, 138, 236, 62, 33, 141, 96, 175, 32, 57, 167, 249,
    46, 183, 127, 140, 91, 124, 89, 62, 180, 90, 207, 30, 62, 155, 115, 41, 239, 125, 254, 173, 182,
    103, 164, 28, 63, 176, 206, 75, 63, 165, 20, 23, 53, 78, 175, 97, 233, 202, 253, 22, 0, 0, 0, 0,
    0, 0, 0, 0, 0, 252, 147, 29, 190, 214, 107, 111, 0, 40, 0, 0]

/-- SHA-256 on the archive and on the stream; elsewhere the digest of the empty text. -/
def printSha256 (content : Bytes) : String :=
  if content = printArchive then "8b124affca3b80ee7dbf9404290f165579895eb4c509dae71b01c069d3456e24"
  else if content = utf8 "a.pyprint(1)\n" then
    "cbc2da91e9feadb8e7e8b0054b42abeb7cc1d32df0b255b7e1d18701113fba09"
  else "e3b0c44298fc1c149afbf4c8996fb92427ae41e4649b934ca495991b7852b855"

theorem printSha256_digests : Digests printSha256 := by
  intro content
  rw [printSha256]
  split
  · decide +kernel
  · split <;> decide +kernel

theorem bundleStream_printFile : Sdk.bundleStream [printFile] = utf8 "a.pyprint(1)\n" := by
  rw [Sdk.bundleStream, List.mergeSort_singleton]
  decide +kernel

theorem printSha256_ne :
    printSha256 printArchive ≠ printSha256 (Sdk.bundleStream [printFile]) := by
  rw [bundleStream_printFile]
  decide +kernel

theorem bundle_accepted_print :
    Digests printSha256 ∧
      (Accepts printSha256 .sdk [printFile] printArchive ↔
        Client.sdk = .sdk ∧
          printSha256 printArchive = printSha256 (Sdk.bundleStream [printFile])) :=
  ⟨printSha256_digests, bundle_accepted_iff printSha256_digests .sdk [printFile] printArchive⟩

/-- The agent refuses the archive of the file, whichever client the bundle is from. -/
theorem bundle_refused :
    Digests printSha256 ∧ ∀ client, ¬ Accepts printSha256 client [printFile] printArchive := by
  refine ⟨printSha256_digests, fun client haccepts => ?_⟩
  cases client with
  | cli => exact cli_never_accepted printSha256_digests _ _ haccepts
  | sdk =>
      rw [accepts_iff printSha256_digests] at haccepts
      exact printSha256_ne haccepts

end NeuralMesh
