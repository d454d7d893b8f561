import NeuralMesh.Base.Table
import Mathlib.Data.Rat.Defs
import Mathlib.Data.Rat.Cast.Order
import Mathlib.Algebra.Order.Field.Rat

/-!
# The shared database

The tables of `coordinator/src/db/migrations` that money, jobs and providers live in. The
coordinator and the ledger service run against this one database.

A nullable column is an `Option`, with `none` for `NULL`, and amounts are exact rationals. Columns
that only record when a row was touched (`updated_at`, `settled_at`) are left out, as are those no
handler below reads or writes.
-/

namespace NeuralMesh

abbrev AccountId := String
abbrev ProviderId := String
abbrev JobId := String
abbrev EscrowId := String
abbrev TxId := String

/-- Microseconds, the resolution of `TIMESTAMPTZ`. -/
abbrev Time := Nat

def seconds (n : Nat) : Time := n * 1000000

/-! ### NULL

Arithmetic with `NULL` is `NULL`; `GREATEST` and `LEAST` ignore it. -/

/-- SQL `x + y`. -/
def nullAdd (x y : Option ℚ) : Option ℚ := x.bind fun a => y.map fun b => a + b

/-- SQL `x - y`. -/
def nullSub (x y : Option ℚ) : Option ℚ := x.bind fun a => y.map fun b => a - b

/-- SQL `GREATEST(0, x)`. -/
def greatestZero (x : Option ℚ) : Option ℚ := some (x.elim 0 fun a => max 0 a)

/-- SQL `GREATEST(0.0, LEAST(5.0, x))`. -/
def clampTrust (x : Option ℚ) : Option ℚ := some (max 0 (x.elim 5 fun a => min 5 a))

@[simp] theorem nullAdd_some (a b : ℚ) : nullAdd (some a) (some b) = some (a + b) := rfl
@[simp] theorem nullAdd_none_left (y : Option ℚ) : nullAdd none y = none := rfl
@[simp] theorem nullAdd_none_right (x : Option ℚ) : nullAdd x none = none := by cases x <;> rfl
@[simp] theorem nullSub_some (a b : ℚ) : nullSub (some a) (some b) = some (a - b) := rfl
@[simp] theorem nullSub_none_left (y : Option ℚ) : nullSub none y = none := rfl
@[simp] theorem nullSub_none_right (x : Option ℚ) : nullSub x none = none := by cases x <;> rfl
@[simp] theorem greatestZero_none : greatestZero none = some 0 := rfl
@[simp] theorem greatestZero_some (a : ℚ) : greatestZero (some a) = some (max 0 a) := rfl

/-! ### Rows -/

/-- `jobs.state`; the migrations also name `matching` and `migrating`, which nothing writes. -/
inductive JobState where
  | queued | assigned | running | complete | failed | cancelled
  deriving DecidableEq, Repr

/-- The text the column holds. -/
def JobState.text : JobState → String
  | .queued => "queued"
  | .assigned => "assigned"
  | .running => "running"
  | .complete => "complete"
  | .failed => "failed"
  | .cancelled => "cancelled"

/-- The states `cancel_job` and `get_job_logs` treat as final. -/
def JobState.isTerminal : JobState → Bool
  | .complete | .failed | .cancelled => true
  | .queued | .assigned | .running => false

/-- The states `migrate_or_fail_job` treats as in progress. -/
def JobState.inProgress : JobState → Bool
  | .assigned | .running => true
  | .queued | .complete | .failed | .cancelled => false

/-- The columns of `jobs` that the submission writes and nothing changes. -/
structure JobSpec where
  runtime : Option Int
  minRamGb : Option Int
  maxDurationS : Option Int
  maxPricePerHour : Option ℚ
  bundleHash : Option String
  bundleUrl : Option String
  scriptName : Option String
  consumerSshPubkey : Option String
  consumerWgPubkey : Option String
  preferredRegion : Option String

/-- A row of `jobs`. -/
structure Job where
  consumerId : AccountId
  spec : JobSpec
  providerId : Option ProviderId
  pricePerHour : Option ℚ
  state : JobState
  outputHash : Option String
  actualRuntimeS : Option Int
  wireguardEndpoint : Option String
  sshPort : Option Int
  checkpointUrl : Option String
  checkpointIter : Option Int
  restoreAttempts : Option Int
  failureReason : Option String
  lastHeartbeat : Option Time
  startedAt : Option Time
  completedAt : Option Time
  createdAt : Time

/-- `providers.state`. The coordinator writes the named ones; an agent's heartbeat stores whatever
text it carries. -/
inductive ProviderState where
  | offline | available | leased
  | other (text : String)
  deriving DecidableEq, Repr

/-- The state a text stands for. -/
def ProviderState.ofText : String → ProviderState
  | "offline" => .offline
  | "available" => .available
  | "leased" => .leased
  | text => .other text

def ProviderState.text : ProviderState → String
  | offline => "offline"
  | available => "available"
  | leased => "leased"
  | other text => text

/-- The columns of `providers` a registration carries. -/
structure Capabilities where
  chipModel : Option String
  unifiedMemoryGb : Option Int
  gpuCores : Option Int
  metalVersion : Option String
  serialNumber : Option String
  installedRuntimes : Option (List String)
  maxJobRamGb : Option Int
  bandwidthMbps : Option Int
  region : Option String
  floorPriceNmcPerHour : Option ℚ
  nmVersion : Option String

/-- A row of `providers`. -/
structure Provider where
  caps : Capabilities
  state : ProviderState
  gpuUtilPct : Option ℚ
  ramUsedGb : Option Int
  activeJobId : Option JobId
  trustScore : Option ℚ
  jobsCompleted : Option Int
  successRate : Option ℚ
  totalGpuHoursContributed : Option ℚ
  lastSeen : Option Time

/-- A row of `credit_accounts`. -/
structure CreditAccount where
  availableNmc : Option ℚ
  escrowedNmc : Option ℚ
  totalEarnedNmc : Option ℚ
  totalSpentNmc : Option ℚ
  deriving DecidableEq

/-- The row the column defaults give a new account. -/
def CreditAccount.fresh : CreditAccount := ⟨some 0, some 0, some 0, some 0⟩

/-- `escrows.state`; the schema comment also names `slashed`, which nothing writes. -/
inductive EscrowState where
  | locked | released
  deriving DecidableEq, Repr

/-- A row of `escrows`. -/
structure Escrow where
  jobId : JobId
  consumerId : AccountId
  providerId : Option ProviderId
  lockedNmc : ℚ
  state : EscrowState
  deriving DecidableEq

inductive TxType where
  | deposit | withdraw | withdrawal | escrowLock | escrowRelease | earn
  deriving DecidableEq, Repr

/-- A row of `transactions`. -/
structure Transaction where
  accountId : AccountId
  txType : TxType
  amountNmc : ℚ
  balanceAfter : Option ℚ
  reference : Option String
  description : String

/-- A row of `deposit_records`, under its unique `stripe_session_id`. -/
structure DepositRecord where
  accountId : AccountId
  amountNmc : ℚ
  amountMyr : ℚ
  depositedAt : Time

/-- A row of `milestone_rewards`, under its unique `(provider_id, milestone_hours)`. -/
structure MilestoneReward where
  rewardHc : ℚ
  accountId : AccountId
  txId : Option TxId

/-- A row of `accounts`; the device columns are left out. -/
structure Account where
  ecdsaPubkeyHex : String

/-- A row of `job_checkpoints`. -/
structure JobCheckpoint where
  jobId : JobId
  providerId : ProviderId
  iteration : Int
  checkpointDir : String
  dmtcpFiles : List String
  elapsedSecs : Int
  deriving DecidableEq

/-- A request forwarded to the ledger's on-chain endpoints. -/
inductive OracleRequest where
  | releaseEscrow (jobId : JobId) (actualCostNmc : ℚ)
  | cancelEscrow (jobId : JobId)
  deriving DecidableEq

/-- The database, with the clock `now()` reads and the on-chain requests sent so far. -/
structure Db where
  now : Time
  accounts : Table AccountId Account
  creditAccounts : Table AccountId CreditAccount
  escrows : Table EscrowId Escrow
  jobs : Table JobId Job
  providers : Table ProviderId Provider
  transactions : Table TxId Transaction
  depositRecords : Table String DepositRecord
  milestoneRewards : Table (ProviderId × Int) MilestoneReward
  jobCheckpoints : Table String JobCheckpoint
  oracleRequests : List OracleRequest

/-- The database the migrations leave. -/
def Db.init : Db :=
  ⟨0, .empty, .empty, .empty, .empty, .empty, .empty, .empty, .empty, .empty, []⟩

/-- The same database met by a scan in another physical order, at a possibly later time. -/
structure Db.Shuffled (s t : Db) : Prop where
  now : s.now ≤ t.now
  accounts : s.accounts.Reordered t.accounts
  creditAccounts : s.creditAccounts.Reordered t.creditAccounts
  escrows : s.escrows.Reordered t.escrows
  jobs : s.jobs.Reordered t.jobs
  providers : s.providers.Reordered t.providers
  transactions : s.transactions.Reordered t.transactions
  depositRecords : s.depositRecords.Reordered t.depositRecords
  milestoneRewards : s.milestoneRewards.Reordered t.milestoneRewards
  jobCheckpoints : s.jobCheckpoints.Reordered t.jobCheckpoints
  oracleRequests : s.oracleRequests = t.oracleRequests

theorem Db.Shuffled.refl (s : Db) : s.Shuffled s :=
  ⟨le_refl _, .refl _, .refl _, .refl _, .refl _, .refl _, .refl _, .refl _, .refl _, .refl _, rfl⟩

theorem Db.Shuffled.trans {s t u : Db} (h : s.Shuffled t) (h' : t.Shuffled u) : s.Shuffled u where
  now := h.now.trans h'.now
  accounts := List.Perm.trans h.accounts h'.accounts
  creditAccounts := List.Perm.trans h.creditAccounts h'.creditAccounts
  escrows := List.Perm.trans h.escrows h'.escrows
  jobs := List.Perm.trans h.jobs h'.jobs
  providers := List.Perm.trans h.providers h'.providers
  transactions := List.Perm.trans h.transactions h'.transactions
  depositRecords := List.Perm.trans h.depositRecords h'.depositRecords
  milestoneRewards := List.Perm.trans h.milestoneRewards h'.milestoneRewards
  jobCheckpoints := List.Perm.trans h.jobCheckpoints h'.jobCheckpoints
  oracleRequests := h.oracleRequests.trans h'.oracleRequests

end NeuralMesh
