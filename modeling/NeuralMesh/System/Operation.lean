import NeuralMesh.Coordinator.Rest
import NeuralMesh.Coordinator.Grpc
import NeuralMesh.Ledger.Handlers
import Mathlib.Logic.Relation

/-!
# The two services as a state machine

An `Operation` is one request to the coordinator or the ledger, with everything it carries, one
cycle of one of the coordinator's loops, or the watcher's treatment of one job. `Run P` runs
operations one after another, each in one piece and each meeting `P` in the database it finds;
between two of them the clock may move on and the rows may be stored in another order.
-/

namespace NeuralMesh

open Coordinator

inductive Operation where
  | submitJob (ids : SubmitIds) (body : SubmitJobBody)
  | cancelJob (jobId : JobId)
  | getAssignedJob (providerId : ProviderId)
  | completeJob (config : Config) (txId : TxId) (jobId : JobId) (body : CompleteJobBody)
  | failJob (config : Config) (jobId : JobId) (body : FailJobBody)
  | saveCheckpoint (checkpointId : String) (jobId : JobId) (body : CheckpointBody)
  | jobHeartbeat (jobId : JobId) (body : JobHeartbeatBody)
  | registerAccount (accountId : AccountId) (body : RegisterAccountBody)
  | stripeCredit (config : Config) (authorization : Option String) (txId : TxId)
      (body : StripeCreditBody)
  | withdraw (txId : TxId) (body : WithdrawBody)
  | registerProvider (req : Grpc.RegisterProviderRequest)
  | sendHeartbeat (hb : Grpc.ProviderHeartbeat)
  | acknowledgeJob (ja : Grpc.JobAccepted)
  | reportCompletion (oracleEnabled : Bool) (txIds : Int → TxId) (jc : Grpc.JobComplete)
  | grpcSubmitJob (jobId : JobId) (req : Grpc.JobSubmitRequest)
  | grpcCancelJob (req : Grpc.CancelJobRequest)
  | runAuctionCycle
  | checkStaleProviders (txIds : Nat → TxId)
  | migrateOrFailJob (txId : TxId) (jobId : JobId) (providerId : ProviderId)
  | evictStaleProviders
  | ledgerDeposit (txId : TxId) (accountId : AccountId) (body : Ledger.DepositBody)
  | ledgerWithdraw (txId : TxId) (accountId : AccountId) (body : Ledger.WithdrawBody)
  | lockEscrow (escrowId : EscrowId) (body : Ledger.EscrowLockBody)
  | releaseEscrow (body : Ledger.EscrowReleaseBody)

namespace Operation

def program : Operation → Program Action.Answer Unit
  | submitJob ids body => (Coordinator.submitJob ids body).forget
  | cancelJob jobId => (Coordinator.cancelJob jobId).forget
  | getAssignedJob providerId => (Coordinator.getAssignedJob providerId).forget
  | completeJob config txId jobId body => (Coordinator.completeJob config txId jobId body).forget
  | failJob config jobId body => (Coordinator.failJob config jobId body).forget
  | saveCheckpoint checkpointId jobId body =>
      (Coordinator.saveCheckpoint checkpointId jobId body).forget
  | jobHeartbeat jobId body => (Coordinator.jobHeartbeat jobId body).forget
  | registerAccount accountId body => (Coordinator.registerAccount accountId body).forget
  | stripeCredit config authorization txId body =>
      (Coordinator.stripeCredit config authorization txId body).forget
  | withdraw txId body => (Coordinator.withdraw txId body).forget
  | registerProvider req => (Grpc.registerProvider req).forget
  | sendHeartbeat hb => (Grpc.sendHeartbeat hb).forget
  | acknowledgeJob ja => (Grpc.acknowledgeJob ja).forget
  | reportCompletion oracleEnabled txIds jc =>
      (Grpc.reportCompletion oracleEnabled txIds jc).forget
  | grpcSubmitJob jobId req => (Grpc.submitJob jobId req).forget
  | grpcCancelJob req => (Grpc.cancelJob req).forget
  | runAuctionCycle => Coordinator.runAuctionCycle.forget
  | checkStaleProviders txIds => (Coordinator.checkStaleProviders txIds).forget
  | migrateOrFailJob txId jobId providerId =>
      (Coordinator.migrateOrFailJob txId jobId providerId (.done true)).forget
  | evictStaleProviders => Coordinator.evictStaleProviders.forget
  | ledgerDeposit txId accountId body => (Ledger.deposit txId accountId body).forget
  | ledgerWithdraw txId accountId body => (Ledger.withdraw txId accountId body).forget
  | lockEscrow escrowId body => (Ledger.lockEscrow escrowId body).forget
  | releaseEscrow body => (Ledger.releaseEscrow body).forget

/-- The database after the operation, run in one piece. -/
def after (op : Operation) (s : Db) : Db := (op.program.run Action.exec s).2

end Operation

/-- One operation that meets `P`, or a moment in which none runs. -/
inductive Step (P : Db → Operation → Prop) : Db → Db → Prop
  | operation {s : Db} {op : Operation} (hmeets : P s op) : Step P s (op.after s)
  | idle {s t : Db} (hshuffled : s.Shuffled t) : Step P s t

/-- Any number of operations that meet `P`. -/
abbrev Run (P : Db → Operation → Prop) : Db → Db → Prop := Relation.ReflTransGen (Step P)

/-- Databases the services can reach from the empty one. -/
def Reachable : Db → Prop := Run (fun _ _ => True) Db.init

/-- The database after a list of operations. -/
def afterAll (ops : List Operation) (s : Db) : Db := ops.foldl (fun s op => op.after s) s

variable {P : Db → Operation → Prop}

/-- Each operation of the list meets `P` where it starts. -/
def MeetsAll (P : Db → Operation → Prop) : Db → List Operation → Prop
  | _, [] => True
  | s, op :: ops => P s op ∧ MeetsAll P (op.after s) ops

theorem Run.afterAll {s : Db} {ops : List Operation} (hmeets : MeetsAll P s ops) :
    Run P s (afterAll ops s) := by
  induction ops generalizing s with
  | nil => exact .refl
  | cons op ops ih => exact (ih hmeets.2).head (.operation hmeets.1)

/-- What every operation that meets `P` and every idle moment preserve holds throughout a run. -/
theorem Run.preserves {I : Db → Prop} (hstep : ∀ s op, P s op → I s → I (op.after s))
    (hidle : ∀ s t, s.Shuffled t → I s → I t) {s t : Db} (hrun : Run P s t) (hs : I s) : I t := by
  induction hrun with
  | refl => exact hs
  | tail _ hlast ih =>
      cases hlast with
      | operation hmeets => exact hstep _ _ hmeets ih
      | idle hshuffled => exact hidle _ _ hshuffled ih

/-- A property of the database that every statement preserves holds in every reachable one. -/
theorem Reachable.of_exec {I : Db → Prop} (hinit : I Db.init)
    (hexec : ∀ (q : Action) s a t, I s → q.exec s = some (a, t) → I t)
    (hidle : ∀ s t, s.Shuffled t → I s → I t) {s : Db} (hreach : Reachable s) : I s := by
  refine Run.preserves (fun s op _ hs => ?_) hidle hreach hinit
  have huses : op.program.Uses fun _ => True := Program.uses_true _
  exact Program.run_preserves Action.exec (fun q s a t _ hs => hexec q s a t hs) _ _ huses hs

/-! ### Sample requests -/

def topUp (accountId : AccountId) (amount : ℚ) : Operation :=
  .ledgerDeposit "deposit" accountId ⟨amount, none⟩

/-- Submit a one-hour job. -/
def submitHour (jobId : JobId) (accountId : AccountId) (price : ℚ) : Operation :=
  .submitJob ⟨jobId, "escrow-" ++ jobId, "lock-" ++ jobId⟩
    { accountId
      runtime := "shell"
      minRamGb := 1
      maxDurationSecs := 3600
      maxPricePerHour := price
      bundleHash := none
      bundleUrl := none
      scriptName := none
      preferredRegion := none }

def registration (providerId : ProviderId) : Operation :=
  .registerProvider
    { providerId
      nmVersion := "0.1.0"
      capabilities := some
        { chip := some ⟨"M2", 16, 10, "Metal 3", "C02"⟩
          installedRuntimes := ["shell"]
          maxJobRamGb := 8
          bandwidthMbps := 100
          region := "my"
          floorPriceNmcPerHour := 1 } }

/-- The heartbeat of an agent; it never names a job. -/
def agentHeartbeat (providerId : ProviderId) (state : String) : Operation :=
  .sendHeartbeat ⟨providerId, state, 0, 0, ""⟩

/-- A funded one-hour job, assigned to a provider. -/
def assigned : List Operation :=
  [topUp "alice" 10, submitHour "a" "alice" 5, registration "p", agentHeartbeat "p" "available",
    .runAuctionCycle]

def failReport (jobId : JobId) : Operation :=
  .failJob ⟨none, false⟩ jobId ⟨"provider", "crash", false⟩

end NeuralMesh
