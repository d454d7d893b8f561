import NeuralMesh.Base.FileSystem
import NeuralMesh.Base.LastMatch

/-!
# The sandbox profile of a job

The lines of the profile that `sandbox.rs` writes, each with the rule that its text spells as long as
no path has a quotation mark in it. The profile is read as a list of rules; a path is covered by the
directories on the way to it.
-/

namespace NeuralMesh.Macos

inductive SandboxOperation where
  /-- every operation -/
  | default
  | fileRead
  | fileWrite
  | processExec
  | processFork
  | machLookup
  | machRegister
  | ipcPosixShm
  | networkOutbound
  | networkBind
  | signal
  | sysctlRead
  | iokitOpen
  | iokitGetProperties
  deriving DecidableEq

/-- What a rule is restricted to. -/
inductive SandboxFilter where
  | all
  | subpath (path : String)
  | literal (path : String)
  | localhost
  | targetSelf

structure SandboxRule where
  allow : Bool
  operation : SandboxOperation
  filter : SandboxFilter

/-- A line, and the rule in it. -/
structure ProfileLine where
  text : String
  rule : Option SandboxRule := none

/-- A line of the profile that allows something. -/
def allowLine (text : String) (operation : SandboxOperation) (filter : SandboxFilter := .all) :
    ProfileLine :=
  { text, rule := some { allow := true, operation, filter } }

/-- `(allow file-read* (subpath "..."))` -/
def readLine (path : String) : ProfileLine :=
  allowLine ("(allow file-read* (subpath \"" ++ path ++ "\"))") .fileRead (.subpath path)

/-- What is put in the place of a block; no lines leave an empty one. -/
def block (lines : List ProfileLine) : List ProfileLine :=
  if lines = [] then [{ text := "" }] else lines

/-- Runtime-specific paths that must be readable -/
def runtimePaths (runtime pythonPrefix : String) : List String :=
  if runtime = "mlx" ∨ runtime = "torch-mps" ∨ runtime = "onnx-coreml" then
    [pythonPrefix, "/opt/homebrew/lib", "/opt/homebrew/bin", "/opt/homebrew/opt"]
  else if runtime = "llama-cpp" then ["/opt/homebrew/bin", "/opt/homebrew/lib"]
  else []

/-- Metal framework paths needed for GPU access -/
def metalPaths : List String :=
  ["/System/Library/Frameworks/Metal.framework",
    "/System/Library/Frameworks/MetalPerformanceShaders.framework",
    "/System/Library/Frameworks/Accelerate.framework",
    "/System/Library/Frameworks/CoreML.framework",
    "/System/Library/Frameworks/CoreGraphics.framework",
    "/usr/lib",
    "/usr/local/lib"]

/-- The lines before the Metal frameworks. -/
def profileHead (jobId workDir : String) : List ProfileLine :=
  [{ text := "; NeuralMesh sandbox profile for job " ++ jobId },
    { text := "; Generated automatically — do not edit manually" },
    { text := "(version 1)" },
    { text := "" },
    { text := "; Default deny everything" },
    { text := "(deny default)", rule := some { allow := false, operation := .default, filter := .all } },
    { text := "" },
    { text := "; Allow read of job working directory (full access)" },
    allowLine ("(allow file-read*  (subpath \"" ++ workDir ++ "\"))") .fileRead (.subpath workDir),
    allowLine ("(allow file-write* (subpath \"" ++ workDir ++ "\"))") .fileWrite (.subpath workDir),
    { text := "" },
    { text := "; Allow reads of /tmp for Python temp files" },
    allowLine "(allow file-read*  (subpath \"/tmp\"))" .fileRead (.subpath "/tmp"),
    allowLine ("(allow file-write* (subpath \"/tmp/neuralmesh/" ++ jobId ++ "\"))") .fileWrite
      (.subpath ("/tmp/neuralmesh/" ++ jobId)),
    { text := "" },
    { text := "; Allow reads of system libraries" },
    readLine "/usr/lib",
    readLine "/usr/local/lib",
    readLine "/System/Library",
    readLine "/Library/Frameworks",
    readLine "/private/var/db/timezone",
    allowLine "(allow file-read* (literal \"/etc/resolv.conf\"))" .fileRead
      (.literal "/etc/resolv.conf"),
    allowLine "(allow file-read* (literal \"/etc/localtime\"))" .fileRead (.literal "/etc/localtime"),
    { text := "" },
    { text := "; Allow Metal GPU frameworks" }]

/-- The lines after the Python runtime, which are about processes, the network and devices. -/
def profileFoot : List ProfileLine :=
  [{ text := "" },
    { text := "; Allow process execution (Python, shell tools)" },
    allowLine "(allow process-exec)" .processExec,
    allowLine "(allow process-fork)" .processFork,
    { text := "" },
    { text := "; Allow mach IPC (required for Metal GPU access)" },
    allowLine "(allow mach-lookup)" .machLookup,
    allowLine "(allow mach-register)" .machRegister,
    allowLine "(allow ipc-posix-shm)" .ipcPosixShm,
    { text := "" },
    { text := "; Network: localhost only (for model servers binding to 127.0.0.1)" },
    allowLine "(allow network-outbound (local))" .networkOutbound .localhost,
    allowLine "(allow network-bind    (local))" .networkBind .localhost,
    { text := "(deny  network-outbound)"
      rule := some { allow := false, operation := .networkOutbound, filter := .all } },
    { text := "" },
    { text := "; Allow basic POSIX operations" },
    allowLine "(allow signal (target self))" .signal .targetSelf,
    allowLine "(allow sysctl-read)" .sysctlRead,
    allowLine "(allow iokit-open)" .iokitOpen,
    allowLine "(allow iokit-get-properties)" .iokitGetProperties]

/-- `generate_profile` -/
def generateProfile (jobId workDir runtime pythonPrefix : String) : List ProfileLine :=
  profileHead jobId workDir ++ block (metalPaths.map readLine) ++
    [{ text := "" }, { text := "; Allow Python runtime" }] ++
    block ((runtimePaths runtime pythonPrefix).map readLine) ++ profileFoot

/-- The text of the file. -/
def profileText (profile : List ProfileLine) : String :=
  String.join (profile.map fun line => line.text ++ "\n")

structure SandboxProfile where
  jobId : String
  workDir : String
  profilePath : String
  profile : List ProfileLine

/-- `SandboxProfile::new`, where the directory and the file can be written. -/
def SandboxProfile.new (jobId runtime pythonPrefix : String) : SandboxProfile :=
  let workDir := "/tmp/neuralmesh/" ++ jobId
  { jobId, workDir
    profilePath := "/tmp/neuralmesh/" ++ jobId ++ ".sb"
    profile := generateProfile jobId workDir runtime pythonPrefix }

/-! ### What a profile allows -/

/-- An operation on a file. -/
structure FileRequest where
  operation : SandboxOperation
  path : Path

/-- The filters of the network and of signals are about no file. -/
def SandboxFilter.covers (path : Path) : SandboxFilter → Bool
  | .all => true
  | .subpath dir => decide (Path.ofString dir <+: path)
  | .literal file => decide (Path.ofString file = path)
  | .localhost => false
  | .targetSelf => false

def SandboxRule.applies (rule : SandboxRule) (request : FileRequest) : Bool :=
  (rule.operation = .default ∨ rule.operation = request.operation) && rule.filter.covers request.path

def profileRules (profile : List ProfileLine) : List SandboxRule := profile.filterMap ProfileLine.rule

/-- Default deny; the last rule that applies decides. -/
def allowsRequest (profile : List ProfileLine) (request : FileRequest) : Bool :=
  verdict SandboxRule.applies SandboxRule.allow false (profileRules profile) request

end NeuralMesh.Macos
