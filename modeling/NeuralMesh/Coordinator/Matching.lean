import NeuralMesh.Base.Program
import NeuralMesh.Store.Action

/-!
# The background loops

`coordinator/src/matching/mod.rs`, the auction and the heartbeat watcher, and
`coordinator/src/reputation/mod.rs`. One cycle of a loop is a program that answers `true` for
`Ok(())`. The notification over NATS is left out.
-/

namespace NeuralMesh.Coordinator

open Program

abbrev Cycle := Program Action.Answer Bool

/-! ### Auction -/

/-- `f64::MAX` -/
def f64Max : ℚ := (2 ^ 53 - 1) * 2 ^ 971

def simpleScore (price trust maxPrice : ℚ) : ℚ :=
  let priceNorm := if 0 < maxPrice then 1 - min (price / maxPrice) 1 else 5 / 10
  let trustNorm := trust / 5
  6 / 10 * priceNorm + 4 / 10 * trustNorm

def providerScore (maxPrice : ℚ) (p : Provider) : ℚ :=
  simpleScore (p.caps.floorPriceNmcPerHour.getD (1 / 10)) (p.trustScore.getD 3) maxPrice

/-- `max_by`: of several maximal candidates, the last. -/
def bestCandidate (maxPrice : ℚ) (candidates : List (ProviderId × Provider)) :
    Option (ProviderId × Provider) :=
  candidates.foldl
    (fun best c =>
      match best with
      | none => some c
      | some b => if providerScore maxPrice b.2 ≤ providerScore maxPrice c.2 then some c else some b)
    none

def findBestProvider (minRamGb : Int) (maxPrice : ℚ) (fail : Cycle)
    (next : Option ProviderId → Cycle) : Cycle :=
  askElse fail (.read (.candidates minRamGb maxPrice))
    fun (candidates : List (ProviderId × Provider)) =>
  next ((bestCandidate maxPrice candidates).map Prod.fst)

def assignJob (jobId : JobId) (providerId : ProviderId) (pricePerHour : ℚ)
    (checkpointUrl : Option String) (next : Cycle) : Cycle :=
  askOr false (.jobs (.assign jobId providerId pricePerHour checkpointUrl.isSome)) fun _ =>
  askOr false (.providers (.lease providerId jobId)) fun _ =>
  next

/-- The body of the loop over the queued jobs. `min_ram_gb` is cast to `u32` for the call and back
for the query, which gives the column again. -/
def assignQueued : List (JobId × Job) → Cycle
  | [] => done true
  | (jobId, job) :: rest =>
      findBestProvider (job.spec.minRamGb.getD 0) (job.spec.maxPricePerHour.getD f64Max)
        (assignQueued rest) fun
        | some providerId =>
            assignJob jobId providerId (job.spec.maxPricePerHour.getD (1 / 10)) job.checkpointUrl
              (assignQueued rest)
        | none => assignQueued rest

def runAuctionCycle : Cycle :=
  askOr false (.read .queuedJobs) fun (queuedJobs : List (JobId × Job)) =>
  assignQueued queuedJobs

/-! ### Credits of a completed job -/

def calculateCredits {α : Type} (jobId : JobId) (next : ℚ → Program Action.Answer α) :
    Program Action.Answer α :=
  -- the only caller takes an error for `0.0`
  askElse (next 0) (.read (.job jobId)) fun (row : Option Job) =>
  match row with
  | some r =>
      let hours : ℚ := (r.actualRuntimeS.getD 0 : ℚ) / 3600
      let gross := r.pricePerHour.getD 0 * hours
      let fee := gross * (8 / 100)
      next (gross - fee)
  | none => next 0

/-! ### Heartbeat watcher -/

def providerTimeoutSecs : Nat := 120

def maxRestoreAttempts : Int := 3

/-- Errors are logged by the only caller, which then goes on. -/
def refundConsumerEscrow (txId : TxId) (jobId : JobId) (next : Cycle) : Cycle :=
  askElse next (.read (.lockedEscrowOfJob jobId)) fun (escrow : Option (EscrowId × Escrow)) =>
  match escrow with
  | none => next
  | some (escrowId, escrow) =>
      askElse next (.escrows (.release escrowId)) fun _ =>
      askElse next (.creditAccounts (.refund escrowId escrow.consumerId escrow.lockedNmc)) fun _ =>
      askElse next
        (.insertTransaction txId
          { accountId := escrow.consumerId
            txType := .escrowRelease
            amountNmc := escrow.lockedNmc
            withBalance := false
            reference := some jobId
            description := "Provider disconnect refund" })
        fun _ =>
      next

/-- The job can be tried on another provider from its checkpoint. -/
def restorable (job : Job) : Bool :=
  job.checkpointUrl.isSome ∧ job.restoreAttempts.getD 0 < maxRestoreAttempts

def failureReason (job : Job) : String :=
  if job.checkpointUrl.isSome then
    "Max restore attempts (" ++ toString maxRestoreAttempts ++ ") exceeded"
  else "Provider disconnected with no checkpoint"

def migrateOrFailJob (txId : TxId) (jobId : JobId) (providerId : ProviderId) (next : Cycle) :
    Cycle :=
  askOr false (.read (.job jobId)) fun (job : Option Job) =>
  match job with
  | none => next
  | some job =>
      if !job.state.inProgress then next
      else if restorable job then
        askOr false (.jobs (.requeue jobId)) fun _ => next
      else
        askOr false (.jobs (.giveUp jobId (failureReason job))) fun _ =>
        refundConsumerEscrow txId jobId <|
        attempt (.providers (.penalize providerId)) next

/-- The body of the loop over the stale providers; the refunds draw their transaction ids from
`txIds`. -/
def migrateStale (txIds : Nat → TxId) : Nat → List (ProviderId × Option JobId) → Cycle
  | _, [] => done true
  | n, (providerId, activeJobId) :: rest =>
      askOr false (.providers (.offline providerId)) fun _ =>
      match activeJobId with
      | some jobId => migrateOrFailJob (txIds n) jobId providerId (migrateStale txIds (n + 1) rest)
      | none => migrateStale txIds (n + 1) rest

def checkStaleProviders (txIds : Nat → TxId) : Cycle :=
  askOr false (.read (.staleProviders (seconds providerTimeoutSecs)))
    fun (stale : List (ProviderId × Option JobId)) =>
  migrateStale txIds 0 stale

/-! ### Eviction -/

def evictStaleProviders : Cycle :=
  askOr false (.providers (.evict (seconds 90))) fun _ =>
  done true

end NeuralMesh.Coordinator
