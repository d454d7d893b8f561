import NeuralMesh.Base.Http
import NeuralMesh.Coordinator.Matching

/-!
# gRPC services of the coordinator

`coordinator/src/api/grpc.rs`. The text of a database error is left out of `Status`, and so is the
notification over NATS.
-/

namespace NeuralMesh.Coordinator.Grpc

open Program

inductive Status where
  | invalidArgument (message : String)
  | internal (message : String)

abbrev Rpc (Response : Type) := Program Action.Answer (Except Status Response)

/-- `map_err(|e| Status::internal(format!("DB: {}", e)))?` -/
abbrev askOrInternal {Response : Type} (q : Action) (next : q.Answer → Rpc Response) :
    Rpc Response :=
  askOr (.error (.internal "DB: ")) q next

/-! ### Agent service -/

structure MacChipInfo where
  chipModel : String
  unifiedMemoryGb : UInt32
  gpuCores : UInt32
  metalVersion : String
  serialNumber : String

structure ProviderCapabilities where
  chip : Option MacChipInfo
  installedRuntimes : List String
  maxJobRamGb : UInt32
  bandwidthMbps : UInt32
  region : String
  floorPriceNmcPerHour : ℚ

structure RegisterProviderRequest where
  capabilities : Option ProviderCapabilities
  providerId : ProviderId
  nmVersion : String

structure RegisterProviderResponse where
  status : String
  message : String
  assignedRelay : String

def registerProvider (req : RegisterProviderRequest) : Rpc RegisterProviderResponse :=
  match req.capabilities with
  | none => done (.error (.invalidArgument "capabilities required"))
  | some caps =>
  match caps.chip with
  | none => done (.error (.invalidArgument "chip info required"))
  | some chip =>
      askOr (.error (.internal "Database error"))
        (.providers (.register req.providerId
          { chipModel := some chip.chipModel
            unifiedMemoryGb := some (asI32 chip.unifiedMemoryGb.toNat)
            gpuCores := some (asI32 chip.gpuCores.toNat)
            metalVersion := some chip.metalVersion
            serialNumber := some chip.serialNumber
            installedRuntimes := some caps.installedRuntimes
            maxJobRamGb := some (asI32 caps.maxJobRamGb.toNat)
            bandwidthMbps := some (asI32 caps.bandwidthMbps.toNat)
            region := some caps.region
            floorPriceNmcPerHour := some caps.floorPriceNmcPerHour
            nmVersion := some req.nmVersion }))
        fun _ =>
      done (.ok ⟨"ok", "Provider registered successfully", ""⟩)

structure ProviderHeartbeat where
  providerId : ProviderId
  state : String
  gpuUtilPct : ℚ
  ramUsedGb : UInt32
  activeJobId : JobId

structure HeartbeatResponse where
  ok : Bool
  message : String

/-- `NULLIF(text, '')` -/
def nullIfEmpty (text : String) : Option String := if text = "" then none else some text

def sendHeartbeat (hb : ProviderHeartbeat) : Rpc HeartbeatResponse :=
  askOrInternal
    (.providers (.heartbeat hb.providerId (.ofText hb.state) hb.gpuUtilPct
      (asI32 hb.ramUsedGb.toNat) (nullIfEmpty hb.activeJobId))) fun _ =>
  done (.ok ⟨true, ""⟩)

structure JobAccepted where
  jobId : JobId
  wireguardEndpoint : String
  sshPort : UInt32

structure JobCompleteAck where
  ok : Bool
  creditsEarned : ℚ
  message : String

def acknowledgeJob (ja : JobAccepted) : Rpc JobCompleteAck :=
  askOrInternal (.jobs (.acknowledge ja.jobId ja.wireguardEndpoint (asI32 ja.sshPort.toNat)))
    fun _ =>
  done (.ok ⟨true, 0, "Job running"⟩)

structure JobComplete where
  jobId : JobId
  providerId : ProviderId
  exitCode : Int
  outputHash : String
  actualRuntimeS : UInt64

def JobComplete.jobState (jc : JobComplete) : JobState :=
  if jc.exitCode = 0 then .complete else .failed

/-- The milestones after `claimed` up to `earned`. -/
def unclaimedMilestones (claimed earned : Int) : List Int :=
  let first := wrapI32 (claimed + 1)
  (List.range (earned + 1 - first).toNat).map fun i => first + i

/-- The loop over the unclaimed milestones; the ledger draws its transaction ids from `txIds`. -/
def issueMilestones {Response : Type} (txIds : Int → TxId) (providerId : ProviderId)
    (next : Rpc Response) : List Int → Rpc Response
  | [] => next
  | milestoneNum :: rest =>
      let milestoneHours := wrapI32 (milestoneNum * 8)
      let record (txId : Option TxId) : Rpc Response :=
        attempt
          (.insertMilestone providerId milestoneHours
            { rewardHc := 50, accountId := providerId, txId })
          (issueMilestones txIds providerId next rest)
      askElse (record none)
        (.ledgerDeposit providerId 50 ("milestone_" ++ toString milestoneHours ++ "h")
          (txIds milestoneNum)) fun (txId : Option TxId) =>
      record txId

def rewardHours {Response : Type} (txIds : Int → TxId) (jc : JobComplete) (next : Rpc Response) :
    Rpc Response :=
  let hours : ℚ := (jc.actualRuntimeS.toNat : ℚ) / 3600
  askElse next (.providers (.addHours jc.providerId hours)) fun (updated : Option Provider) =>
  match updated with
  | none => next
  | some row =>
      let earned := truncI32 (row.totalGpuHoursContributed.getD 0 / 8)
      let issue (claimed : Int) : Rpc Response :=
        issueMilestones txIds jc.providerId next (unclaimedMilestones claimed earned)
      askElse (issue 0) (.read (.milestoneCount jc.providerId)) fun (count : Nat) =>
      issue (asI32 count)

def reportCompletion (oracleEnabled : Bool) (txIds : Int → TxId) (jc : JobComplete) :
    Rpc JobCompleteAck :=
  let reply (credits : ℚ) : Rpc JobCompleteAck :=
    done (.ok
      { ok := true
        creditsEarned := credits
        message := "Job " ++ jc.jobId ++ ": " ++ jc.jobState.text ++ " — earned " ++
          fixed4 credits ++ " HC" })
  let settle : Rpc JobCompleteAck :=
    calculateCredits jc.jobId fun credits =>
    if jc.jobState = .complete ∧ oracleEnabled then
      attempt (.oracle (.releaseEscrow jc.jobId credits)) (reply credits)
    else reply credits
  askOrInternal
    (.jobs (.report jc.jobId jc.jobState jc.outputHash (asI64 jc.actualRuntimeS.toNat))) fun _ =>
  if jc.jobState = .complete ∧ jc.providerId ≠ "" then rewardHours txIds jc settle
  else settle

/-! ### Consumer service -/

structure JobRequirements where
  /-- The number of the enum. -/
  runtime : Int
  minRamGb : UInt32
  maxDurationS : UInt32
  maxPricePerH : ℚ

structure JobSubmitRequest where
  consumerId : AccountId
  requirements : Option JobRequirements
  bundleHash : String
  bundleUploadUrl : String
  consumerSshPubkey : String
  consumerWgPubkey : String

structure JobSubmitResponse where
  jobId : JobId
  state : Int
  message : String

def submitJob (jobId : JobId) (req : JobSubmitRequest) : Rpc JobSubmitResponse :=
  match req.requirements with
  | none => done (.error (.invalidArgument "requirements required"))
  | some reqs =>
      askOrInternal
        (.jobs (.insert jobId req.consumerId
          { runtime := some reqs.runtime
            minRamGb := some (asI32 reqs.minRamGb.toNat)
            maxDurationS := some (asI32 reqs.maxDurationS.toNat)
            maxPricePerHour := some reqs.maxPricePerH
            bundleHash := some req.bundleHash
            bundleUrl := some req.bundleUploadUrl
            scriptName := none
            consumerSshPubkey := some req.consumerSshPubkey
            consumerWgPubkey := some req.consumerWgPubkey
            preferredRegion := none })) fun _ =>
      done (.ok ⟨jobId, 1, "Job queued for matching"⟩)

structure CancelJobRequest where
  jobId : JobId
  consumerId : AccountId

structure CancelJobResponse where
  ok : Bool
  message : String

def cancelJob (req : CancelJobRequest) : Rpc CancelJobResponse :=
  askOrInternal (.jobs (.cancelOwned req.jobId req.consumerId)) fun _ =>
  done (.ok ⟨true, "Cancelled"⟩)

end NeuralMesh.Coordinator.Grpc
