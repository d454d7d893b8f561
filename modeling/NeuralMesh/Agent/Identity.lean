import NeuralMesh.Base.Fallible
import NeuralMesh.Base.FileSystem
import NeuralMesh.Base.Lines
import NeuralMesh.Coordinator.Grpc
import NeuralMesh.Crypto.Keys
import NeuralMesh.Dashboard.DeviceId

/-!
# The identity of a machine

The start of the agent up to its registration, of `agent/src/main.rs`, `config.rs`,
`runtime_check.rs` and `coordinator_client.rs`, and `ensure_account` of
`cli/src/commands/provider.rs`. The two share a key file, which `crypto/src/keys.rs` reads and writes.
What the operating system refuses, what the programs that are run print and what becomes of a request
are given. A write that fails may leave a part of what it was to write.
-/

namespace NeuralMesh.Identity

open Coordinator.Accounts (Rows RegisterAccountBody)
open Coordinator.Grpc (MacChipInfo RegisterProviderRequest RegisterProviderResponse)
open Crypto (Ed25519 NmKeypair tryInto)
open Dashboard (Dispatch hexDigest)

/-- What the operating system may refuse a process. -/
inductive OsStep where
  | readConfig | configDir | writeConfig | readKey | keyDir | writeKey | chmodKey | accountDir | readCli
  | writeCli
  deriving DecidableEq

/-- What a process is given. -/
structure Process where
  refuses : OsStep → Bool
  /-- What a write that fails has written, if it got so far. -/
  cut : OsStep → Option Nat
  /-- `OsRng` -/
  seed : Vector UInt8 32

/-- The files of the machine, the accounts of the coordinator, and the registrations that the agent
has sent. -/
structure Mac where
  files : FileSystem
  rows : Rows
  registrations : List RegisterProviderRequest

abbrev StartM := Fallible String Mac

/-- `map_err` and `context` -/
def mapError {α : Type} (f : String → String) (x : StartM α) : StartM α :=
  ExceptT.mk fun s => ((x.outcome s).1.mapError f, (x.outcome s).2)

/-- What `toml` reads and writes. -/
structure Toml (Config : Type) where
  fromStr : String → Except String Config
  toStringPretty : Config → Option String

namespace Process

variable (p : Process)

/-- `create_dir_all` -/
def createDirAll (name : OsStep) (path : Path) : StartM Unit :=
  ExceptT.mk fun s =>
    match if p.refuses name then none else s.files.createDirAll path with
    | some files => (.ok (), { s with files })
    | none => (.error "create_dir_all", s)

/-- `std::fs::write` -/
def write (name : OsStep) (path : Path) (content : Bytes) : StartM Unit :=
  ExceptT.mk fun s =>
    if p.refuses name then
      let left := (p.cut name).bind fun n => s.files.write path (content.take n)
      (.error "write", { s with files := left.getD s.files })
    else
      match s.files.write path content with
      | some files => (.ok (), { s with files })
      | none => (.error "write", s)

/-! ### The key file -/

/-- `NmKeypair::load_from_file` -/
def loadFromFile (path : Path) : StartM NmKeypair := do
  let s ← get
  match if p.refuses .readKey then none else s.files.read path with
  | none => throw ("Reading keypair from " ++ path.display)
  | some bytes =>
      match tryInto 32 bytes with
      | none => throw "Invalid keypair file: expected 32 bytes"
      | some seed => return ⟨seed⟩

/-- `save_to_file` -/
def saveToFile (keypair : NmKeypair) (path : Path) : StartM Unit := do
  p.createDirAll .keyDir path.dropLast
  p.write .writeKey path keypair.seed.toList
  if p.refuses .chmodKey then throw "set_permissions"

/-- The key at the path, which is generated if there is none. -/
def loadOrGenerate (onLoad onSave : String → String) (path : Path) : StartM NmKeypair := do
  let s ← get
  if s.files.pathExists path then mapError onLoad (p.loadFromFile path)
  else do
    mapError onSave (p.saveToFile ⟨p.seed⟩ path)
    return ⟨p.seed⟩

end Process

/-! ### The agent -/

structure AgentConfig where
  providerId : Option String
  idleThresholdPct : ℚ
  idleDurationMinutes : UInt32
  floorPriceNmcPerHour : ℚ
  maxJobRamGb : Option UInt32
  allowedRuntimes : List String
  coordinatorEndpoints : List String
  region : String
  wireguardListenPort : UInt16
  sshJobPort : UInt16
  logLevel : String

def AgentConfig.default (nmRegion : Option String) : AgentConfig where
  providerId := none
  idleThresholdPct := 5
  idleDurationMinutes := 10
  floorPriceNmcPerHour := 5 / 100
  maxJobRamGb := none
  allowedRuntimes := ["mlx", "torch-mps", "onnx-coreml", "llama-cpp"]
  coordinatorEndpoints := ["https://coord1.neuralmesh.io:8080", "https://coord2.neuralmesh.io:8080",
    "https://coord3.neuralmesh.io:8080"]
  region := nmRegion.getD "us-east-1"
  wireguardListenPort := 51820
  sshJobPort := 2222
  logLevel := "info"

/-- What an agent finds on its machine and in the network. -/
structure AgentHost where
  /-- `NM_REGION` -/
  nmRegion : Option String
  /-- `detect_mac_chip` -/
  chip : Except String MacChipInfo
  /-- A Python interpreter imports the package. -/
  importable : String → Bool
  /-- `which llama-cli` -/
  llamaCli : Bool
  /-- `try_connect` -/
  reachable : String → Bool
  /-- The answer to the registration, if there is one. -/
  answer : Option RegisterProviderResponse

def AgentHost.isRuntimeInstalled (h : AgentHost) (runtime : String) : Bool :=
  match runtime with
  | "mlx" => h.importable "mlx"
  | "torch-mps" => h.importable "torch"
  | "onnx-coreml" => h.importable "onnxruntime"
  | "llama-cpp" => h.importable "llama_cpp" || h.llamaCli
  | "shell" => true
  | _ => false

def AgentHost.detectInstalledRuntimes (h : AgentHost) (allowed : List String) : List String :=
  allowed.filter h.isRuntimeInstalled

/-- `unwrap_or(unified_memory_gb.saturating_sub(4))` -/
def AgentConfig.ramOffered (cfg : AgentConfig) (chip : MacChipInfo) : UInt32 :=
  cfg.maxJobRamGb.getD (if 4 ≤ chip.unifiedMemoryGb then chip.unifiedMemoryGb - 4 else 0)

section Agent

variable (ed : Ed25519) (p : Process) (h : AgentHost)

/-- `load_or_create` -/
def loadOrCreate (toml : Toml AgentConfig) (path : Path) : StartM AgentConfig := do
  let s ← get
  if s.files.pathExists path then
    match if p.refuses .readConfig then none else s.files.readToString path with
    | none => throw "read_to_string"
    | some content =>
        match toml.fromStr content with
        | .ok cfg => return cfg
        | .error e => throw ("Config parse error in " ++ path.display ++ ": " ++ e)
  else
    let cfg := AgentConfig.default h.nmRegion
    p.createDirAll .configDir path.dropLast
    match toml.toStringPretty cfg with
    | none => throw "to_string_pretty"
    | some text =>
        p.write .writeConfig path (utf8 text)
        return cfg

def registerRequest (keypair : NmKeypair) (chip : MacChipInfo) (cfg : AgentConfig)
    (runtimes : List String) : RegisterProviderRequest where
  capabilities := some
    { chip := some chip
      installedRuntimes := runtimes
      maxJobRamGb := cfg.ramOffered chip
      bandwidthMbps := 100
      region := cfg.region
      floorPriceNmcPerHour := cfg.floorPriceNmcPerHour }
  providerId := keypair.publicKeyHex ed
  nmVersion := "0.1.0"

/-- `CoordinatorClient::register` -/
def register (keypair : NmKeypair) (req : RegisterProviderRequest) : StartM ProviderId := do
  modify fun s => { s with registrations := s.registrations ++ [req] }
  match h.answer with
  | none => throw "RegisterProvider RPC"
  | some response =>
      if response.status ≠ "ok" then throw ("Registration rejected: " ++ response.message)
      else return keypair.publicKeyHex ed

/-- `main` up to the loop of the idle monitor, with the id that the agent goes by in it. -/
def agentMain (toml : Toml AgentConfig) (cfgPath : Path) : StartM ProviderId := do
  let cfg ← loadOrCreate p h toml cfgPath
  let chip ← Fallible.ofExcept h.chip
  let keypair ← p.loadOrGenerate id id (cfgPath.dropLast ++ ["identity.key"])
  let runtimes := h.detectInstalledRuntimes cfg.allowedRuntimes
  if runtimes = [] then throw "No ML runtimes installed! Run `nm provider install` first."
  else if cfg.coordinatorEndpoints.any h.reachable = false then
    throw "No coordinator reachable from list"
  else register ed h keypair (registerRequest ed keypair chip cfg runtimes)

end Agent

/-! ### The command line -/

structure CliConfig where
  coordinatorUrl : String
  ledgerUrl : String
  accountId : Option AccountId

def CliConfig.default : CliConfig where
  coordinatorUrl := "https://neuralmesh-coordinator-production-666f.up.railway.app"
  ledgerUrl := "https://neuralmesh-ledger-production-9e83.up.railway.app"
  accountId := none

/-- What the programs print that `ensure_account` runs. -/
structure CliHost where
  /-- `ioreg -rd1 -c IOPlatformExpertDevice` -/
  ioreg : Option String
  hostname : Option String
  /-- `sysctl -n machdep.cpu.brand_string` -/
  brand : Option String

/-- The fourth part between quotes of the line with the serial number, or the name of the host. -/
def CliHost.serial (h : CliHost) : String :=
  (h.ioreg.bind fun text =>
    ((Text.lines text.toList).find? fun line =>
      "IOPlatformSerialNumber".toList <:+: line).bind fun line =>
    (line.splitOn '"')[3]?.map String.ofList).getD (h.hostname.getD "unknown")

section Cli

variable (ed : Ed25519) (sha256 : Bytes → Vector UInt8 32) (timeText : Time → String) (p : Process)
  (h : CliHost)

def fingerprintHash (pubkeyHex serial : String) : String :=
  hexDigest sha256 (utf8 pubkeyHex ++ utf8 "||" ++ utf8 serial)

def accountBody (pubkeyHex : String) : RegisterAccountBody where
  ecdsaPubkeyHex := pubkeyHex
  deviceFingerprintHash := fingerprintHash sha256 pubkeyHex h.serial
  deviceLabel := some ((h.brand.map fun text =>
    String.ofList (Text.trim text.toList)).getD "Apple Silicon")
  platform := some "macos"
  hardwareSerialHash := none

def postRegistration (d : Dispatch) (body : RegisterAccountBody) : StartM Reply :=
  ExceptT.mk fun s =>
    let sent := Dashboard.fetch sha256 timeText (.registerAccount body) d s.rows
    (match sent.1 with
      | some reply => .ok reply
      | none => .error "Reaching coordinator for account registration",
      { s with rows := sent.2 })

/-- The account id in the answer of the coordinator. -/
def accountIdOf (reply : Reply) : Except String AccountId :=
  if reply.status ≠ .ok then .error "Coordinator returned error: "
  else if reply.body.index "ok" matches .bool true then
    match (reply.body.index "account_id").asStr with
    | some accountId => .ok accountId
    | none => .error "Missing account_id in response"
  else .error ((reply.body.index "message").asStr.getD "registration failed")

/-- Save account_id to CLI config; a file that cannot be read or parsed is as good as none. -/
def saveAccountId (toml : Toml CliConfig) (path : Path) (accountId : AccountId) : StartM Unit := do
  let s ← get
  let raw := (if p.refuses .readCli then none else s.files.readToString path).getD ""
  let cliCfg :=
    if s.files.pathExists path then (toml.fromStr raw).toOption.getD .default else .default
  match toml.toStringPretty { cliCfg with accountId := some accountId } with
  | none => throw "to_string_pretty"
  | some text => p.write .writeCli path (utf8 text)

/-- `ensure_account` -/
def ensureAccount (toml : Toml CliConfig) (cfgDir : Path) (d : Dispatch) : StartM AccountId := do
  mapError (fun _ => "create config dir") (p.createDirAll .accountDir cfgDir)
  let keypair ← p.loadOrGenerate (fun _ => "Loading keypair") (fun _ => "Saving keypair")
    (cfgDir ++ ["identity.key"])
  let reply ← postRegistration sha256 timeText d (accountBody sha256 h (keypair.publicKeyHex ed))
  let accountId ← Fallible.ofExcept (accountIdOf reply)
  saveAccountId p toml (cfgDir ++ ["cli.toml"]) accountId
  return accountId

end Cli

end NeuralMesh.Identity
