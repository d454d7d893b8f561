import NeuralMesh.Base.Http
import NeuralMesh.Base.Program
import NeuralMesh.Store.Action

/-!
# REST handlers of the coordinator

`coordinator/src/api/rest.rs`. A handler is a program over the statements of `Action`; the UUIDs it
draws are arguments. An amount is an exact rational where the code has an `f64`.
-/

namespace NeuralMesh.Coordinator

open Program

abbrev Handler := Program Action.Answer Reply

/-- The part of the environment the handlers read. -/
structure Config where
  /-- `INTERNAL_SECRET` -/
  internalSecret : Option String
  /-- `SettlementOracle::enabled` -/
  oracleEnabled : Bool

/-- `map_err(|_| StatusCode::INTERNAL_SERVER_ERROR)?` -/
abbrev askOrError (q : Action) (next : q.Answer → Handler) : Handler :=
  askOr (.error .internalServerError) q next

/-! ### Submission and cancellation -/

structure SubmitJobBody where
  accountId : AccountId
  runtime : String
  minRamGb : Int
  maxDurationSecs : Int
  maxPricePerHour : ℚ
  bundleHash : Option String
  bundleUrl : Option String
  scriptName : Option String
  preferredRegion : Option String

namespace SubmitJobBody

def maxCost (body : SubmitJobBody) : ℚ := body.maxPricePerHour * (body.maxDurationSecs / 3600)

def runtimeInt (body : SubmitJobBody) : Int :=
  match body.runtime with
  | "mlx" => 0
  | "torch-mps" => 1
  | "onnx-coreml" => 2
  | "llama-cpp" => 3
  | "shell" => 4
  | _ => 4

def spec (body : SubmitJobBody) : JobSpec where
  runtime := some body.runtimeInt
  minRamGb := some body.minRamGb
  maxDurationS := some body.maxDurationSecs
  maxPricePerHour := some body.maxPricePerHour
  bundleHash := body.bundleHash
  bundleUrl := body.bundleUrl
  scriptName := body.scriptName
  consumerSshPubkey := none
  consumerWgPubkey := none
  preferredRegion := body.preferredRegion

end SubmitJobBody

/-- The UUIDs of one submission. -/
structure SubmitIds where
  jobId : JobId
  escrowId : EscrowId
  txId : TxId

def insufficientBalance (maxCost available : ℚ) : Reply where
  status := .paymentRequired
  body := .obj [
    ("ok", .bool false),
    ("error", .str "insufficient_balance"),
    ("message", .str ("Need " ++ fixed4 maxCost ++ " HC escrow for max job cost, only " ++
      fixed4 available ++ " available. Run `hatch wallet deposit` to add credits."))]

def submitJob (ids : SubmitIds) (body : SubmitJobBody) : Handler :=
  askOr .dbError (.read (.available body.accountId)) fun (credit : Option (Option ℚ)) =>
  let available := (credit.map fun x => x.getD 0).getD 0
  if available < body.maxCost then done (insufficientBalance body.maxCost available)
  else
    askOr .dbError (.jobs (.insert ids.jobId body.accountId body.spec)) fun _ =>
    askOr .dbError (.creditAccounts (.lock body.accountId body.maxCost)) fun _ =>
    askOr .dbError (.escrows (.insert ids.escrowId ids.jobId body.accountId none body.maxCost))
      fun _ =>
    askOr .dbError
      (.insertTransaction ids.txId
        { accountId := body.accountId
          txType := .escrowLock
          amountNmc := -body.maxCost
          withBalance := true
          reference := some ids.jobId
          description := "Job escrow locked" })
      fun _ =>
    done (.json [
      ("ok", .bool true),
      ("job_id", .str ids.jobId),
      ("state", .str "queued"),
      ("estimated_wait_secs", .int 30),
      ("locked_nmc", .num body.maxCost)])

def cancelJob (jobId : JobId) : Handler :=
  askOrError (.read (.job jobId)) fun (job : Option Job) =>
  match job with
  | none => done (.error .notFound)
  | some job =>
      if job.state.isTerminal then
        done (.json [
          ("ok", .bool false),
          ("error", .str "already_terminal"),
          ("state", .str job.state.text)])
      else
        askOrError (.jobs (.close jobId .cancelled)) fun _ =>
        askOrError (.creditAccounts (.refundJob jobId job.consumerId)) fun _ =>
        askOrError (.escrows (.releaseOfJob jobId)) fun _ =>
        attempt (.providers (.freeOfJob jobId)) <|
        done (.json [
          ("ok", .bool true), ("job_id", .str jobId), ("state", .str "cancelled")])

/-! ### Calls of the provider's agent -/

def assignedJobJson (jobId : JobId) (job : Job) : Json :=
  .obj [
    ("job_id", .str jobId),
    ("consumer_id", .str job.consumerId),
    ("runtime", .ofOption .int job.spec.runtime),
    ("min_ram_gb", .ofOption .int job.spec.minRamGb),
    ("max_duration_s", .ofOption .int job.spec.maxDurationS),
    ("max_price_per_hour", .ofOption .num job.spec.maxPricePerHour),
    ("bundle_hash", .ofOption .str job.spec.bundleHash),
    ("bundle_url", .ofOption .str job.spec.bundleUrl),
    ("script_name", .ofOption .str job.spec.scriptName),
    ("consumer_ssh_pubkey", .ofOption .str job.spec.consumerSshPubkey),
    ("consumer_wg_pubkey", .ofOption .str job.spec.consumerWgPubkey),
    ("preferred_region", .ofOption .str job.spec.preferredRegion)]

def getAssignedJob (providerId : ProviderId) : Handler :=
  askOrError (.read (.assignedJob providerId)) fun (job : Option (JobId × Job)) =>
  match job with
  | none => done (.json [("job", .null)])
  | some (jobId, job) =>
      attempt (.jobs (.start jobId)) <|
      done (.json [("job", assignedJobJson jobId job)])

/-- The text of the column `runtime`. -/
def runtimeStr (job : Job) : String :=
  match job.spec.runtime with
  | some 0 => "mlx"
  | some 1 => "torch-mps"
  | some 2 => "onnx-coreml"
  | some 3 => "llama-cpp"
  | some 4 => "shell"
  | _ => "shell"

def actualCostNmc (job : Job) : Option ℚ :=
  match job.pricePerHour, job.actualRuntimeS with
  | some p, some s => some (p * (s / 3600))
  | _, _ => none

/-- `timeText` is how a timestamp is written. -/
def jobJson (timeText : Time → String) (jobId : JobId) (job : Job) : List (String × Json) :=
  [("id", .str jobId),
    ("job_id", .str jobId),
    ("account_id", .str job.consumerId),
    ("consumer_id", .str job.consumerId),
    ("provider_id", .ofOption .str job.providerId),
    ("state", .str job.state.text),
    ("runtime", .str (runtimeStr job)),
    ("min_ram_gb", .ofOption .int job.spec.minRamGb),
    ("max_price_per_hour", .ofOption .num job.spec.maxPricePerHour),
    ("price_per_hour", .ofOption .num job.pricePerHour),
    ("bundle_hash", .ofOption .str job.spec.bundleHash),
    ("bundle_url", .ofOption .str job.spec.bundleUrl),
    ("output_hash", .ofOption .str job.outputHash),
    ("actual_cost_nmc", .ofOption .num (actualCostNmc job)),
    ("actual_runtime_s", .ofOption .int job.actualRuntimeS),
    ("restore_attempts", .ofOption .int job.restoreAttempts),
    ("failure_reason", .ofOption .str job.failureReason),
    ("has_checkpoint", .bool job.checkpointUrl.isSome),
    ("checkpoint_iter", .ofOption .int job.checkpointIter),
    ("started_at", .ofOption (fun t => .str (timeText t)) job.startedAt),
    ("completed_at", .ofOption (fun t => .str (timeText t)) job.completedAt),
    ("created_at", .str (timeText job.createdAt))]

def getJob (timeText : Time → String) (jobId : JobId) : Handler :=
  askOrError (.read (.job jobId)) fun (job : Option Job) =>
  match job with
  | none => done (.error .notFound)
  | some job => done (.json (jobJson timeText jobId job))

structure CompleteJobBody where
  providerId : ProviderId
  exitCode : Int
  outputHash : String
  actualRuntimeS : Int

def platformFee : ℚ := 8 / 100

/-- `gross_nmc` of a job row. -/
def grossNmc (job : Job) (body : CompleteJobBody) : ℚ :=
  job.pricePerHour.getD (5 / 100) * (body.actualRuntimeS / 3600)

def completeJob (config : Config) (txId : TxId) (jobId : JobId) (body : CompleteJobBody) :
    Handler :=
  askOrError (.read (.jobOfProvider jobId body.providerId)) fun (job : Option Job) =>
  match job with
  | none => done (.error .notFound)
  | some job =>
      let grossNmc := grossNmc job body
      let providerNmc := grossNmc * (1 - platformFee)
      let platformNmc := grossNmc * platformFee
      let reply := done (.json [
        ("ok", .bool true),
        ("gross_nmc", .num grossNmc),
        ("provider_nmc", .num providerNmc),
        ("platform_nmc", .num platformNmc),
        ("on_chain", .bool config.oracleEnabled)])
      askOrError (.jobs (.report jobId .complete body.outputHash body.actualRuntimeS)) fun _ =>
      askOrError (.creditAccounts (.earn body.providerId providerNmc)) fun _ =>
      askOrError (.creditAccounts (.charge job.consumerId grossNmc)) fun _ =>
      askOrError (.providers (.freeCompleted body.providerId)) fun _ =>
      askOrError
        (.insertTransaction txId
          { accountId := body.providerId
            txType := .earn
            amountNmc := providerNmc
            withBalance := false
            reference := some jobId
            description := "Job completion credit" })
        fun _ =>
      attempt (.providers (.trust body.providerId true)) <|
      if config.oracleEnabled then attempt (.oracle (.releaseEscrow jobId grossNmc)) reply
      else reply

structure FailJobBody where
  providerId : ProviderId
  reason : String
  slash : Bool

def failJob (config : Config) (jobId : JobId) (body : FailJobBody) : Handler :=
  let reply := done (.json [("ok", .bool true), ("job_id", .str jobId)])
  let settle :=
    if config.oracleEnabled then attempt (.oracle (.cancelEscrow jobId)) reply else reply
  askOrError (.jobs (.close jobId .failed)) fun _ =>
  askOrError (.creditAccounts (.releaseAll jobId)) fun _ =>
  askOrError (.providers (.free body.providerId)) fun _ =>
  if body.slash then attempt (.providers (.trust body.providerId false)) settle else settle

structure CheckpointBody where
  providerId : ProviderId
  iteration : Int
  elapsedSecs : Int
  checkpointDir : String
  dmtcpFiles : List String

def saveCheckpoint (checkpointId : String) (jobId : JobId) (body : CheckpointBody) : Handler :=
  let checkpointUrl := "file://" ++ trimEndSlashes body.checkpointDir
  askOrError
    (.insertCheckpoint checkpointId
      { jobId
        providerId := body.providerId
        iteration := body.iteration
        checkpointDir := body.checkpointDir
        dmtcpFiles := body.dmtcpFiles
        elapsedSecs := body.elapsedSecs })
    fun _ =>
  askOrError (.jobs (.checkpoint jobId checkpointUrl body.iteration)) fun _ =>
  done (.json [
    ("ok", .bool true),
    ("checkpoint_id", .str checkpointId),
    ("checkpoint_url", .str checkpointUrl)])

def checkpointJson (jobId : JobId) (row : JobCheckpoint) : List (String × Json) :=
  [("job_id", .str jobId),
    ("iteration", .int row.iteration),
    ("checkpoint_dir", .str row.checkpointDir),
    ("dmtcp_files", .arr (row.dmtcpFiles.map .str)),
    ("elapsed_secs", .int row.elapsedSecs),
    -- not stored; a restore starts a coordinator of its own
    ("coord_port", .int 0)]

def getCheckpoint (jobId : JobId) : Handler :=
  askOrError (.read (.latestCheckpoint jobId)) fun (row : Option (String × JobCheckpoint)) =>
  match row with
  | none => done (.error .notFound)
  | some (_, row) => done (.json (checkpointJson jobId row))

structure JobHeartbeatBody where
  providerId : ProviderId
  gpuUtilPct : ℚ
  ramUsedGb : UInt32

def jobHeartbeat (jobId : JobId) (body : JobHeartbeatBody) : Handler :=
  askOrError (.jobs (.heartbeat jobId body.providerId)) fun _ =>
  askOrError
    (.providers (.seen body.providerId body.gpuUtilPct (asI32 body.ramUsedGb.toNat))) fun _ =>
  done (.json [("ok", .bool true)])

/-! ### Money in and out -/

structure RegisterAccountBody where
  ecdsaPubkeyHex : String
  deviceFingerprintHash : String

/-- `accountId` is `derive_account_id` of the key and the fingerprint. A refused insert is a key
registered with another fingerprint. -/
def registerAccount (accountId : AccountId) (body : RegisterAccountBody) : Handler :=
  if body.ecdsaPubkeyHex.isEmpty ∨ body.deviceFingerprintHash.utf8ByteSize ≠ 64 then
    done (.error .badRequest)
  else
    query (.insertAccount accountId ⟨body.ecdsaPubkeyHex⟩)
      (fun _ =>
        attempt (.creditAccounts (.register accountId)) <|
        done (.json [("ok", .bool true), ("account_id", .str accountId)]))
      (done (.json [
        ("ok", .bool false),
        ("error", .str "device_mismatch"),
        ("message", .str "This key is already registered to a different device fingerprint.")]))

structure StripeCreditBody where
  accountId : AccountId
  amountNmc : ℚ
  stripeSessionId : String
  amountMyr : ℚ

/-- The bearer token of the `authorization` header. -/
def bearerToken (authorization : Option String) : String :=
  (authorization.bind (stripPrefix "Bearer ")).getD ""

def stripeCredit (config : Config) (authorization : Option String) (txId : TxId)
    (body : StripeCreditBody) : Handler :=
  if bearerToken authorization ≠ config.internalSecret.getD "" then done (.error .unauthorized)
  else if body.amountNmc ≤ 0 then done (.error .badRequest)
  else
    askOrError (.read (.depositCount body.stripeSessionId)) fun (already : Nat) =>
    if 0 < already then done (.json [("ok", .bool true), ("duplicate", .bool true)])
    else
      askOrError (.creditAccounts (.credit body.accountId body.amountNmc)) fun _ =>
      askOrError
        (.insertDeposit
          { accountId := body.accountId
            stripeSessionId := body.stripeSessionId
            -- the statement names no `amount_nmc`
            amountNmc := none
            amountMyr := some body.amountMyr })
        fun _ =>
      askOrError
        (.insertTransaction txId
          { accountId := body.accountId
            txType := .deposit
            amountNmc := body.amountNmc
            withBalance := false
            reference := some body.stripeSessionId
            description := "Stripe top-up" })
        fun _ =>
      done (.json [("ok", .bool true), ("credited_nmc", .num body.amountNmc)])

structure WithdrawBody where
  accountId : AccountId
  destinationAddress : String
  amountNmc : ℚ
  chain : String

namespace WithdrawBody

def isEth (body : WithdrawBody) : Bool :=
  "0x".isPrefixOf body.destinationAddress ∧ body.destinationAddress.utf8ByteSize = 42

def isSol (body : WithdrawBody) : Bool :=
  32 ≤ body.destinationAddress.utf8ByteSize ∧ body.destinationAddress.utf8ByteSize ≤ 44 ∧
    ¬ "0x".isPrefixOf body.destinationAddress

end WithdrawBody

def withdraw (txId : TxId) (body : WithdrawBody) : Handler :=
  if body.amountNmc ≤ 0 then done (.error .badRequest)
  else if !body.isEth && !body.isSol then
    done (.json [
      ("ok", .bool false),
      ("error", .str "invalid_address"),
      ("message", .str "Provide a valid Ethereum (0x…) or Solana address")])
  else
    askOrError (.read (.available body.accountId)) fun (credit : Option (Option ℚ)) =>
    let bal := (credit.map fun x => x.getD 0).getD 0
    if bal < body.amountNmc then
      done (.json [
        ("ok", .bool false),
        ("error", .str "insufficient_balance"),
        ("message", .str ("Available: " ++ fixed4 bal ++ " NMC, requested: " ++
          fixed4 body.amountNmc))])
    else
      askOrError (.creditAccounts (.debit body.accountId body.amountNmc)) fun _ =>
      askOrError
        (.insertTransaction txId
          { accountId := body.accountId
            txType := .withdrawal
            amountNmc := -body.amountNmc
            withBalance := false
            reference := some body.destinationAddress
            description := "Withdrawal request queued" })
        fun _ =>
      done (.json [
        ("ok", .bool true),
        ("tx_id", .str txId),
        ("message", .str
          "Withdrawal queued — processed within 24 hours to your on-chain address")])

end NeuralMesh.Coordinator
