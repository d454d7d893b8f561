import NeuralMesh.Coordinator.Rest

/-!
# What the agent reads of a job

`poll_for_job` of `agent/src/idle_monitor.rs`, from the coordinator's reply on, with the runtimes of
`nm-common`. A member that is missing, or of another type than the agent expects, is replaced by a
default. The checkpoint it tries to download on the way is left out: whether that succeeds is only
logged.
-/

namespace NeuralMesh.Agent

inductive Runtime where
  | mlx | torchMps | onnxCoreml | llamaCpp | shell
  deriving DecidableEq, Repr

def Runtime.fromStr : String → Option Runtime
  | "mlx" => some .mlx
  | "torch-mps" => some .torchMps
  | "onnx-coreml" => some .onnxCoreml
  | "llama-cpp" => some .llamaCpp
  | "shell" => some .shell
  | _ => none

abbrev Uuid := BitVec 128

/-- `JobSpec` of the agent. -/
structure JobSpec where
  jobId : Uuid
  consumerId : String
  runtime : Runtime
  minRamGb : UInt32
  maxDurationSecs : UInt32
  maxPricePerHour : ℚ
  bundleHash : String
  bundleUrl : String
  scriptName : Option String
  consumerSshPubkey : String
  consumerWgPubkey : String
  preferredRegion : Option String
  envVars : List (String × String)
  checkpointUrl : Option String
  restoreAttempts : UInt32

/-- `n as u32` of an `i64`. -/
def asU32 (n : Int) : UInt32 := .ofBitVec (.ofInt 32 n)

/-- The `JobSpec` built from the job of a reply; `parseStr` is `Uuid::parse_str`. -/
def jobSpec (parseStr : String → Option Uuid) (job : Json) : JobSpec :=
  let text (name : String) : String := (job.index name).asStr.getD ""
  let runtimeStr := (job.index "runtime").asStr.getD "shell"
  { jobId := (parseStr (text "job_id")).getD 0
    consumerId := text "consumer_id"
    runtime := (Runtime.fromStr runtimeStr).getD .shell
    minRamGb := asU32 ((job.index "min_ram_gb").asI64.getD 8)
    maxDurationSecs := asU32 ((job.index "max_duration_s").asI64.getD 3600)
    maxPricePerHour := (job.index "max_price_per_hour").asNum.getD (1 / 10)
    bundleHash := text "bundle_hash"
    bundleUrl := text "bundle_url"
    scriptName := (job.index "script_name").asStr
    consumerSshPubkey := text "consumer_ssh_pubkey"
    consumerWgPubkey := text "consumer_wg_pubkey"
    preferredRegion := (job.index "preferred_region").asStr
    envVars := []
    checkpointUrl := (job.index "checkpoint_url").asStr
    restoreAttempts := asU32 ((job.index "restore_attempts").asU64.getD 0) }

/-- `poll_for_job` once the coordinator has replied. -/
def pollForJobReply (parseStr : String → Option Uuid) (resp : Reply) : Option JobSpec :=
  if resp.status ≠ .ok then none
  else
    match resp.body.index "job" with
    | .null => none
    | job => some (jobSpec parseStr job)

/-! ### A row of `jobs` read by the agent -/

/-- The number of an `INTEGER` column, or a default for `NULL`. -/
def readNumber (default : Int) (column : Option Int) : UInt32 :=
  asU32 ((column.filter fun n => -2 ^ 63 ≤ n ∧ n < 2 ^ 63).getD default)

/-- What the agent makes of a row: its runtime is the shell, as the coordinator sends a number where
the agent expects a text, and nothing is known of a checkpoint. -/
def ofRow (parseStr : String → Option Uuid) (jobId : JobId) (job : Job) : JobSpec where
  jobId := (parseStr jobId).getD 0
  consumerId := job.consumerId
  runtime := .shell
  minRamGb := readNumber 8 job.spec.minRamGb
  maxDurationSecs := readNumber 3600 job.spec.maxDurationS
  maxPricePerHour := job.spec.maxPricePerHour.getD (1 / 10)
  bundleHash := job.spec.bundleHash.getD ""
  bundleUrl := job.spec.bundleUrl.getD ""
  scriptName := job.spec.scriptName
  consumerSshPubkey := job.spec.consumerSshPubkey.getD ""
  consumerWgPubkey := job.spec.consumerWgPubkey.getD ""
  preferredRegion := job.spec.preferredRegion
  envVars := []
  checkpointUrl := none
  restoreAttempts := 0

theorem jobSpec_assigned (parseStr : String → Option Uuid) (jobId : JobId) (job : Job) :
    jobSpec parseStr (Coordinator.assignedJobJson jobId job) = ofRow parseStr jobId job := by
  have hmembers : jobSpec parseStr (Coordinator.assignedJobJson jobId job) =
      { jobId := (parseStr jobId).getD 0
        consumerId := job.consumerId
        runtime := (Runtime.fromStr
          ((Json.ofOption .int job.spec.runtime).asStr.getD "shell")).getD .shell
        minRamGb := asU32 ((Json.ofOption .int job.spec.minRamGb).asI64.getD 8)
        maxDurationSecs := asU32 ((Json.ofOption .int job.spec.maxDurationS).asI64.getD 3600)
        maxPricePerHour := (Json.ofOption .num job.spec.maxPricePerHour).asNum.getD (1 / 10)
        bundleHash := (Json.ofOption .str job.spec.bundleHash).asStr.getD ""
        bundleUrl := (Json.ofOption .str job.spec.bundleUrl).asStr.getD ""
        scriptName := (Json.ofOption .str job.spec.scriptName).asStr
        consumerSshPubkey := (Json.ofOption .str job.spec.consumerSshPubkey).asStr.getD ""
        consumerWgPubkey := (Json.ofOption .str job.spec.consumerWgPubkey).asStr.getD ""
        preferredRegion := (Json.ofOption .str job.spec.preferredRegion).asStr
        envVars := []
        checkpointUrl := Json.null.asStr
        restoreAttempts := asU32 (Json.null.asU64.getD 0) } := rfl
  rw [hmembers]
  simp only [Json.asStr_ofOption, Json.asStr_ofOption_int, Json.asNum_ofOption,
    Json.asI64_ofOption]
  rfl

theorem pollForJobReply_assigned (parseStr : String → Option Uuid) (jobId : JobId) (job : Job) :
    pollForJobReply parseStr (.json [("job", Coordinator.assignedJobJson jobId job)]) =
      some (ofRow parseStr jobId job) := by
  rw [← jobSpec_assigned]
  rfl

/-! ### Numbers -/

theorem toNat_asU32 (n : Int) : ((asU32 n).toNat : Int) = n % 2 ^ 32 := by
  show ((BitVec.ofInt 32 n).toNat : Int) = _
  rw [BitVec.toNat_ofInt]
  omega

/-- A signed number comes back just where it is one of 32 bits without its sign. -/
theorem readNumber_eq_iff (default n : Int) :
    n = (readNumber default (some n)).toNat ↔ 0 ≤ n ∧ n < 2 ^ 32 := by
  rw [readNumber, toNat_asU32, Option.filter_some]
  split
  · rw [Option.getD_some]
    omega
  · rename_i hout
    rw [Option.getD_none]
    simp only [decide_eq_true_eq] at hout
    omega

/-- An unsigned number that was stored as a signed one comes back. -/
theorem readNumber_asI32 (default : Int) (n : UInt32) :
    readNumber default (some (asI32 n.toNat)) = n := by
  have hn := n.toNat_lt
  have hi32 : asI32 n.toNat = (n.toNat : Int).bmod (2 ^ 32) := BitVec.toInt_ofNat' _
  have hbound : -2 ^ 63 ≤ asI32 n.toNat ∧ asI32 n.toNat < 2 ^ 63 := by
    rw [hi32, Int.bmod_def]
    split <;> omega
  apply UInt32.toNat_inj.mp
  apply Int.ofNat_inj.mp
  rw [readNumber, toNat_asU32, Option.filter_some, if_pos (decide_eq_true hbound),
    Option.getD_some, hi32, Int.bmod_def]
  split <;> omega

end NeuralMesh.Agent
