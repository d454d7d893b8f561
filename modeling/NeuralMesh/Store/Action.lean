import NeuralMesh.Store.Schema
import Mathlib.Data.Rat.Floor

/-!
# The statements

One constructor for each SQL statement the coordinator and the ledger issue against the shared
tables, with the values it binds; statements of two handlers with the same text are one
constructor. A write touches one table, so it is grouped under that table and the rest of the
database is unchanged by definition. The requests the coordinator sends to the ledger service are
actions too.

`Action.exec` is the effect of one action: its answer and the database after it, or `none` when a
constraint refuses it.
-/

namespace NeuralMesh

/-! ### Reading -/

/-- Sort by a nullable column, ascending, `NULL` last. -/
def orderByAsc {ρ : Type} (column : ρ → Option ℚ) (rows : List ρ) : List ρ :=
  rows.mergeSort fun a b =>
    match column a, column b with
    | some x, some y => decide (x ≤ y)
    | none, some _ => false
    | _, none => true

inductive Read where
  /-- `SELECT available_nmc FROM credit_accounts WHERE account_id = $1` -/
  | available (accountId : AccountId)
  /-- `SELECT .. FROM jobs WHERE job_id = $1` -/
  | job (jobId : JobId)
  /-- `SELECT .. FROM jobs WHERE job_id = $1 AND provider_id = $2` -/
  | jobOfProvider (jobId : JobId) (providerId : ProviderId)
  /-- `SELECT .. FROM jobs WHERE provider_id = $1 AND state = 'assigned' ORDER BY started_at ASC
  LIMIT 1` -/
  | assignedJob (providerId : ProviderId)
  /-- `SELECT .. FROM jobs WHERE state = 'queued' ORDER BY created_at ASC LIMIT 50` -/
  | queuedJobs
  /-- `SELECT .. FROM providers WHERE state = 'available' AND max_job_ram_gb >= $1 AND
  floor_price_nmc_per_hour <= $2 ORDER BY floor_price_nmc_per_hour ASC LIMIT 20` -/
  | candidates (minRamGb : Int) (maxPrice : ℚ)
  /-- `SELECT provider_id, active_job_id FROM providers WHERE state = 'leased' AND
  last_seen < now() - $1` -/
  | staleProviders (timeout : Time)
  /-- `SELECT .. FROM escrows WHERE job_id = $1 AND state = 'locked'`, first row -/
  | lockedEscrowOfJob (jobId : JobId)
  /-- `SELECT .. FROM escrows WHERE escrow_id = $1 AND state = 'locked'` -/
  | lockedEscrow (escrowId : EscrowId)
  /-- `SELECT COUNT(*) FROM deposit_records WHERE stripe_session_id = $1` -/
  | depositCount (stripeSessionId : String)
  /-- `SELECT COUNT(*) FROM milestone_rewards WHERE provider_id = $1` -/
  | milestoneCount (providerId : ProviderId)
  /-- `SELECT .. FROM job_checkpoints WHERE job_id = $1 ORDER BY iteration DESC LIMIT 1` -/
  | latestCheckpoint (jobId : JobId)

@[reducible] def Read.Answer : Read → Type
  | available _ => Option (Option ℚ)
  | job _ => Option Job
  | jobOfProvider _ _ => Option Job
  | assignedJob _ => Option (JobId × Job)
  | queuedJobs => List (JobId × Job)
  | candidates _ _ => List (ProviderId × Provider)
  | staleProviders _ => List (ProviderId × Option JobId)
  | lockedEscrowOfJob _ => Option (EscrowId × Escrow)
  | lockedEscrow _ => Option Escrow
  | depositCount _ => Nat
  | milestoneCount _ => Nat
  | latestCheckpoint _ => Option (String × JobCheckpoint)

/-- `last_seen < now() - timeout`; `NULL` is never stale. -/
def Provider.staleAt (p : Provider) (now timeout : Time) : Bool :=
  p.lastSeen.any fun seen => seen + timeout < now

/-- The first row of `escrows` that is locked for a job. -/
def firstLocked (escrows : Table EscrowId Escrow) (jobId : JobId) : Option (EscrowId × Escrow) :=
  escrows.rows.find? fun row => row.2.jobId = jobId ∧ row.2.state = .locked

def Read.eval (s : Db) : (r : Read) → r.Answer
  | available accountId => (s.creditAccounts.get? accountId).map CreditAccount.availableNmc
  | job jobId => s.jobs.get? jobId
  | jobOfProvider jobId providerId =>
      (s.jobs.get? jobId).filter fun j => j.providerId = some providerId
  | assignedJob providerId =>
      (orderByAsc (fun row => row.2.startedAt.map fun t => (t : ℚ)) <|
        s.jobs.rows.filter fun row =>
          row.2.providerId = some providerId ∧ row.2.state = .assigned).head?
  | queuedJobs =>
      (orderByAsc (fun row => some (row.2.createdAt : ℚ)) <|
        s.jobs.rows.filter fun row => row.2.state = .queued).take 50
  | candidates minRamGb maxPrice =>
      (orderByAsc (fun row => row.2.caps.floorPriceNmcPerHour) <|
        s.providers.rows.filter fun row =>
          row.2.state = .available ∧ row.2.caps.maxJobRamGb.any (fun ram => minRamGb ≤ ram) ∧
            row.2.caps.floorPriceNmcPerHour.any fun price => price ≤ maxPrice).take 20
  | staleProviders timeout =>
      (s.providers.rows.filter fun row =>
        row.2.state = .leased ∧ row.2.staleAt s.now timeout).map
        fun row => (row.1, row.2.activeJobId)
  | lockedEscrowOfJob jobId => firstLocked s.escrows jobId
  | lockedEscrow escrowId => (s.escrows.get? escrowId).filter fun e => e.state = .locked
  | depositCount stripeSessionId =>
      (s.depositRecords.rows.filter fun row => row.1 = stripeSessionId).length
  | milestoneCount providerId =>
      (s.milestoneRewards.rows.filter fun row => row.1.1 = providerId).length
  | latestCheckpoint jobId =>
      ((s.jobCheckpoints.rows.filter fun row => row.2.jobId = jobId).mergeSort
        fun a b => decide (b.2.iteration ≤ a.2.iteration)).head?

/-! ### `credit_accounts` -/

inductive AccountsWrite where
  /-- `INSERT .. ON CONFLICT DO NOTHING` -/
  | register (accountId : AccountId)
  /-- `SET available_nmc = available_nmc - $1, escrowed_nmc = escrowed_nmc + $1` -/
  | lock (accountId : AccountId) (amount : ℚ)
  /-- The same `AND available_nmc >= $1` -/
  | lockIfCovered (accountId : AccountId) (amount : ℚ)
  /-- `SET available_nmc = available_nmc + (SELECT locked_nmc ..), escrowed_nmc =
  GREATEST(0, escrowed_nmc - (SELECT COALESCE(locked_nmc, 0) ..))`, both from `escrows WHERE
  job_id = $1 AND state = 'locked' LIMIT 1` -/
  | refundJob (jobId : JobId) (accountId : AccountId)
  /-- Upsert `available_nmc + $2, total_earned_nmc + $2` -/
  | earn (accountId : AccountId) (amount : ℚ)
  /-- `SET escrowed_nmc = GREATEST(0.0, escrowed_nmc - $1), total_spent_nmc + $1` -/
  | charge (accountId : AccountId) (amount : ℚ)
  /-- `SET available_nmc = available_nmc + escrowed_nmc, escrowed_nmc = 0.0 WHERE account_id =
  (SELECT consumer_id FROM jobs WHERE job_id = $1)` -/
  | releaseAll (jobId : JobId)
  /-- Upsert `available_nmc + $2` -/
  | credit (accountId : AccountId) (amount : ℚ)
  /-- Upsert `available_nmc + $2, escrowed_nmc = GREATEST(0, escrowed_nmc - $2)`; `escrowId` is the
  row the amount was read from, and not bound by the statement -/
  | refund (escrowId : EscrowId) (accountId : AccountId) (amount : ℚ)
  /-- `SET available_nmc = available_nmc - $1` -/
  | debit (accountId : AccountId) (amount : ℚ)
  /-- `SET available_nmc = available_nmc - $1, total_spent_nmc + $1 WHERE available_nmc >= $1` -/
  | debitIfCovered (accountId : AccountId) (amount : ℚ)
  /-- `SET escrowed_nmc = escrowed_nmc - $1, available_nmc = available_nmc + $2` -/
  | settle (accountId : AccountId) (locked refunded : ℚ)

namespace CreditAccount

def lock (amount : ℚ) (a : CreditAccount) : CreditAccount :=
  { a with
    availableNmc := nullSub a.availableNmc (some amount)
    escrowedNmc := nullAdd a.escrowedNmc (some amount) }

/-- `locked` is the amount the two subselects find, if they find a row. -/
def refundJob (locked : Option ℚ) (a : CreditAccount) : CreditAccount :=
  { a with
    availableNmc := nullAdd a.availableNmc locked
    escrowedNmc := greatestZero (nullSub a.escrowedNmc locked) }

def earn (amount : ℚ) (a : CreditAccount) : CreditAccount :=
  { a with
    availableNmc := nullAdd a.availableNmc (some amount)
    totalEarnedNmc := nullAdd a.totalEarnedNmc (some amount) }

def charge (amount : ℚ) (a : CreditAccount) : CreditAccount :=
  { a with
    escrowedNmc := greatestZero (nullSub a.escrowedNmc (some amount))
    totalSpentNmc := nullAdd a.totalSpentNmc (some amount) }

def releaseAll (a : CreditAccount) : CreditAccount :=
  { a with availableNmc := nullAdd a.availableNmc a.escrowedNmc, escrowedNmc := some 0 }

def credit (amount : ℚ) (a : CreditAccount) : CreditAccount :=
  { a with availableNmc := nullAdd a.availableNmc (some amount) }

def debit (amount : ℚ) (a : CreditAccount) : CreditAccount :=
  { a with availableNmc := nullSub a.availableNmc (some amount) }

def debitSpent (amount : ℚ) (a : CreditAccount) : CreditAccount :=
  { a with
    availableNmc := nullSub a.availableNmc (some amount)
    totalSpentNmc := nullAdd a.totalSpentNmc (some amount) }

def settle (locked refund : ℚ) (a : CreditAccount) : CreditAccount :=
  { a with
    escrowedNmc := nullSub a.escrowedNmc (some locked)
    availableNmc := nullAdd a.availableNmc (some refund) }

/-- `available_nmc >= amount`, false on `NULL`. -/
def covers (amount : ℚ) (a : CreditAccount) : Bool := a.availableNmc.any fun x => amount ≤ x

end CreditAccount

/-- Update the row of one account if it satisfies the guard; answers the rows affected. -/
def updateAccount (accounts : Table AccountId CreditAccount) (accountId : AccountId)
    (guard : CreditAccount → Bool) (f : CreditAccount → CreditAccount) :
    Nat × Table AccountId CreditAccount :=
  if (accounts.get? accountId).any guard then (1, accounts.update accountId f) else (0, accounts)

theorem updateAccount_all (accounts : Table AccountId CreditAccount) (accountId : AccountId)
    (f : CreditAccount → CreditAccount) :
    (updateAccount accounts accountId (fun _ => true) f).2 = accounts.update accountId f := by
  unfold updateAccount
  split
  · rfl
  · rename_i hnone
    refine (Table.update_of_get?_eq_none ?_ f).symm
    simpa using hnone

/-- A guarded update finds its account and the guard holds, or it changes nothing. -/
theorem updateAccount_cases (accounts : Table AccountId CreditAccount) (c : AccountId)
    (guard : CreditAccount → Bool) (f : CreditAccount → CreditAccount) :
    (∃ a ∈ accounts.get? c, guard a ∧ updateAccount accounts c guard f = (1, accounts.update c f)) ∨
      updateAccount accounts c guard f = (0, accounts) := by
  unfold updateAccount
  cases accounts.get? c with
  | none => exact .inr rfl
  | some a =>
      by_cases hguard : guard a
      · exact .inl ⟨a, rfl, hguard, if_pos hguard⟩
      · exact .inr (if_neg hguard)

theorem covers_iff {amount : ℚ} {a : CreditAccount} :
    a.covers amount = true ↔ ∃ x ∈ a.availableNmc, amount ≤ x := by
  rw [CreditAccount.covers]
  cases a.availableNmc with
  | none => simp
  | some x => simp

/-- The credited account as an `INSERT` would create it. -/
def CreditAccount.opened (amount earned : ℚ) : CreditAccount :=
  { CreditAccount.fresh with availableNmc := some amount, totalEarnedNmc := some earned }

def AccountsWrite.apply (s : Db) : AccountsWrite → Nat × Table AccountId CreditAccount
  | register accountId =>
      match s.creditAccounts.insert? accountId .fresh with
      | some accounts => (1, accounts)
      | none => (0, s.creditAccounts)
  | lock accountId amount => updateAccount s.creditAccounts accountId (fun _ => true) (.lock amount)
  | lockIfCovered accountId amount =>
      updateAccount s.creditAccounts accountId (CreditAccount.covers amount) (.lock amount)
  | refundJob jobId accountId =>
      updateAccount s.creditAccounts accountId (fun _ => true)
        (.refundJob ((firstLocked s.escrows jobId).map fun row => row.2.lockedNmc))
  | earn accountId amount =>
      (1, s.creditAccounts.upsert accountId (.opened amount amount) (.earn amount))
  | charge accountId amount => updateAccount s.creditAccounts accountId (fun _ => true) (.charge amount)
  | releaseAll jobId =>
      match s.jobs.get? jobId with
      | some job => updateAccount s.creditAccounts job.consumerId (fun _ => true) .releaseAll
      | none => (0, s.creditAccounts)
  | credit accountId amount =>
      (1, s.creditAccounts.upsert accountId (.opened amount 0) (.credit amount))
  | refund _ accountId amount =>
      (1, s.creditAccounts.upsert accountId (.opened amount 0) (.refundJob (some amount)))
  | debit accountId amount => updateAccount s.creditAccounts accountId (fun _ => true) (.debit amount)
  | debitIfCovered accountId amount =>
      updateAccount s.creditAccounts accountId (CreditAccount.covers amount) (.debitSpent amount)
  | settle accountId locked refunded =>
      updateAccount s.creditAccounts accountId (fun _ => true) (.settle locked refunded)

/-! ### `escrows` -/

inductive EscrowsWrite where
  /-- `INSERT INTO escrows ..`, state `locked` by default -/
  | insert (escrowId : EscrowId) (jobId : JobId) (consumerId : AccountId)
      (providerId : Option ProviderId) (lockedNmc : ℚ)
  /-- `SET state = 'released' WHERE job_id = $1 AND state = 'locked'` -/
  | releaseOfJob (jobId : JobId)
  /-- `SET state = 'released' WHERE escrow_id = $1` -/
  | release (escrowId : EscrowId)

def Escrow.release (e : Escrow) : Escrow := { e with state := .released }

def EscrowsWrite.apply (s : Db) : EscrowsWrite → Option (Table EscrowId Escrow)
  | insert escrowId jobId consumerId providerId lockedNmc =>
      -- `job_id TEXT REFERENCES jobs(job_id)`
      if (s.jobs.get? jobId).isSome then
        s.escrows.insert? escrowId ⟨jobId, consumerId, providerId, lockedNmc, .locked⟩
      else none
  | releaseOfJob jobId =>
      some (s.escrows.updateWhere (fun _ e => e.jobId = jobId ∧ e.state = .locked) .release)
  | release escrowId => some (s.escrows.update escrowId .release)

/-! ### `jobs` -/

inductive JobsWrite where
  /-- `INSERT INTO jobs .. state 'queued'` -/
  | insert (jobId : JobId) (consumerId : AccountId) (spec : JobSpec)
  /-- REST `cancel_job` and `fail_job`: `SET state = .., completed_at = now() WHERE job_id = $1` -/
  | close (jobId : JobId) (state : JobState)
  /-- gRPC `cancel_job`: `SET state = 'cancelled' WHERE job_id = $1 AND consumer_id = $2` -/
  | cancelOwned (jobId : JobId) (consumerId : AccountId)
  /-- `get_assigned_job`: `SET state = 'running' WHERE job_id = $1` -/
  | start (jobId : JobId)
  /-- `job_heartbeat`: `SET state = 'running', last_heartbeat = now() WHERE job_id = $1 AND
  provider_id = $2` -/
  | heartbeat (jobId : JobId) (providerId : ProviderId)
  /-- `save_checkpoint`: `SET checkpoint_url = $1, checkpoint_iter = $2, last_heartbeat = now()` -/
  | checkpoint (jobId : JobId) (url : String) (iteration : Int)
  /-- `acknowledge_job`: `SET state = 'running', wireguard_endpoint = $1, ssh_port = $2` -/
  | acknowledge (jobId : JobId) (wireguardEndpoint : String) (sshPort : Int)
  /-- `complete_job` and `report_completion`: `SET state = $1, output_hash = $2,
  actual_runtime_s = $3, completed_at = now()` -/
  | report (jobId : JobId) (state : JobState) (outputHash : String) (actualRuntimeS : Int)
  /-- `assign_job` -/
  | assign (jobId : JobId) (providerId : ProviderId) (pricePerHour : ℚ) (restore : Bool)
  /-- `migrate_or_fail_job`, with a checkpoint left to try -/
  | requeue (jobId : JobId)
  /-- `migrate_or_fail_job`, without -/
  | giveUp (jobId : JobId) (reason : String)

namespace Job

/-- The row the column defaults complete. -/
def submitted (now : Time) (consumerId : AccountId) (spec : JobSpec) : Job where
  consumerId := consumerId
  spec := spec
  providerId := none
  pricePerHour := none
  state := .queued
  outputHash := none
  actualRuntimeS := none
  wireguardEndpoint := none
  sshPort := some 2222
  checkpointUrl := none
  checkpointIter := some 0
  restoreAttempts := some 0
  failureReason := none
  lastHeartbeat := none
  startedAt := none
  completedAt := none
  createdAt := now

def close (now : Time) (state : JobState) (j : Job) : Job :=
  { j with state, completedAt := some now }

def heartbeat (now : Time) (j : Job) : Job := { j with state := .running, lastHeartbeat := some now }

def report (now : Time) (state : JobState) (outputHash : String) (actualRuntimeS : Int) (j : Job) :
    Job :=
  { j with
    state
    outputHash := some outputHash
    actualRuntimeS := some actualRuntimeS
    completedAt := some now }

def assign (now : Time) (providerId : ProviderId) (pricePerHour : ℚ) (restore : Bool) (j : Job) :
    Job :=
  { j with
    state := .assigned
    providerId := some providerId
    pricePerHour := some pricePerHour
    startedAt := some (j.startedAt.getD now)
    restoreAttempts := j.restoreAttempts.map fun n => n + if restore then 1 else 0 }

def requeue (j : Job) : Job :=
  { j with
    state := .queued
    providerId := none
    failureReason := some "provider_disconnect_checkpoint_restore" }

def giveUp (now : Time) (reason : String) (j : Job) : Job :=
  { j with state := .failed, completedAt := some now, failureReason := some reason }

end Job

def JobsWrite.apply (s : Db) : JobsWrite → Option (Table JobId Job)
  | insert jobId consumerId spec => s.jobs.insert? jobId (.submitted s.now consumerId spec)
  | close jobId state => some (s.jobs.update jobId (.close s.now state))
  | cancelOwned jobId consumerId =>
      some (s.jobs.updateWhere (fun k j => k = jobId ∧ j.consumerId = consumerId)
        fun j => { j with state := .cancelled })
  | start jobId => some (s.jobs.update jobId fun j => { j with state := .running })
  | heartbeat jobId providerId =>
      some (s.jobs.updateWhere (fun k j => k = jobId ∧ j.providerId = some providerId)
        (.heartbeat s.now))
  | checkpoint jobId url iteration =>
      some (s.jobs.update jobId fun j =>
        { j with
          checkpointUrl := some url, checkpointIter := some iteration, lastHeartbeat := some s.now })
  | acknowledge jobId wireguardEndpoint sshPort =>
      some (s.jobs.update jobId fun j =>
        { j with
          state := .running, wireguardEndpoint := some wireguardEndpoint, sshPort := some sshPort })
  | report jobId state outputHash actualRuntimeS =>
      some (s.jobs.update jobId (.report s.now state outputHash actualRuntimeS))
  | assign jobId providerId pricePerHour restore =>
      -- `provider_id TEXT REFERENCES providers(provider_id)`, checked when a row is written
      if (s.jobs.get? jobId).isSome ∧ (s.providers.get? providerId).isNone then none
      else some (s.jobs.update jobId (.assign s.now providerId pricePerHour restore))
  | requeue jobId => some (s.jobs.update jobId .requeue)
  | giveUp jobId reason => some (s.jobs.update jobId (.giveUp s.now reason))

/-! ### `providers` -/

inductive ProvidersWrite where
  /-- `register_provider` -/
  | register (providerId : ProviderId) (caps : Capabilities)
  /-- `send_heartbeat` -/
  | heartbeat (providerId : ProviderId) (state : ProviderState) (gpuUtilPct : ℚ) (ramUsedGb : Int)
      (activeJobId : Option JobId)
  /-- `job_heartbeat` -/
  | seen (providerId : ProviderId) (gpuUtilPct : ℚ) (ramUsedGb : Int)
  /-- `assign_job`: `SET state = 'leased', active_job_id = $1` -/
  | lease (providerId : ProviderId) (jobId : JobId)
  /-- `cancel_job`: `SET state = 'available', active_job_id = NULL WHERE active_job_id = $1` -/
  | freeOfJob (jobId : JobId)
  /-- `fail_job`: `SET state = 'available', active_job_id = NULL WHERE provider_id = $1` -/
  | free (providerId : ProviderId)
  /-- `complete_job`: the same, with `jobs_completed = jobs_completed + 1` -/
  | freeCompleted (providerId : ProviderId)
  /-- `check_stale_providers`: `SET state = 'offline', active_job_id = NULL WHERE provider_id = $1` -/
  | offline (providerId : ProviderId)
  /-- `evict_stale_providers` -/
  | evict (timeout : Time)
  /-- `update_trust_score` -/
  | trust (providerId : ProviderId) (success : Bool)
  /-- `migrate_or_fail_job`: `trust_score - 0.20`, clamped -/
  | penalize (providerId : ProviderId)
  /-- `report_completion`: `total_gpu_hours_contributed + $1 .. RETURNING` -/
  | addHours (providerId : ProviderId) (hours : ℚ)

namespace Provider

def registered (caps : Capabilities) : Provider where
  caps := caps
  state := .offline
  gpuUtilPct := some 0
  ramUsedGb := some 0
  activeJobId := none
  trustScore := some 3
  jobsCompleted := some 0
  successRate := some 1
  totalGpuHoursContributed := some 0
  lastSeen := none

/-- The columns `ON CONFLICT DO UPDATE` takes over. -/
def reregister (caps : Capabilities) (p : Provider) : Provider :=
  { p with
    state := .offline
    caps := { p.caps with
      chipModel := caps.chipModel
      unifiedMemoryGb := caps.unifiedMemoryGb
      gpuCores := caps.gpuCores
      installedRuntimes := caps.installedRuntimes
      floorPriceNmcPerHour := caps.floorPriceNmcPerHour } }

def free (p : Provider) : Provider := { p with state := .available, activeJobId := none }

/-- `success_rate`: `CASE WHEN jobs_completed > 0 THEN (success_rate * (jobs_completed - 1) + $2) /
jobs_completed ELSE $2 END`. -/
def rate (outcome : ℚ) (p : Provider) : Option ℚ :=
  match p.jobsCompleted with
  | some n => if 0 < n then p.successRate.map fun r => (r * (n - 1) + outcome) / n else some outcome
  | none => some outcome

def trust (success : Bool) (p : Provider) : Provider :=
  { p with
    trustScore := clampTrust (nullAdd p.trustScore (some (if success then 5 / 100 else -30 / 100)))
    successRate := p.rate (if success then 1 else 0) }

end Provider

/-- Answers the provider rows written, as `RETURNING` would. -/
def ProvidersWrite.apply (s : Db) : ProvidersWrite → Option Provider × Table ProviderId Provider
  | register providerId caps =>
      (none, s.providers.upsert providerId (.registered caps) (.reregister caps))
  | heartbeat providerId state gpuUtilPct ramUsedGb activeJobId =>
      (none, s.providers.update providerId fun p =>
        { p with
          state
          gpuUtilPct := some gpuUtilPct
          ramUsedGb := some ramUsedGb
          activeJobId
          lastSeen := some s.now })
  | seen providerId gpuUtilPct ramUsedGb =>
      (none, s.providers.update providerId fun p =>
        { p with
          lastSeen := some s.now, gpuUtilPct := some gpuUtilPct, ramUsedGb := some ramUsedGb })
  | lease providerId jobId =>
      (none, s.providers.update providerId fun p =>
        { p with state := .leased, activeJobId := some jobId })
  | freeOfJob jobId =>
      (none, s.providers.updateWhere (fun _ p => p.activeJobId = some jobId) .free)
  | free providerId => (none, s.providers.update providerId .free)
  | freeCompleted providerId =>
      (none, s.providers.update providerId fun p =>
        { p.free with jobsCompleted := p.jobsCompleted.map (· + 1) })
  | offline providerId =>
      (none, s.providers.update providerId fun p => { p with state := .offline, activeJobId := none })
  | evict timeout =>
      (none, s.providers.updateWhere
        (fun _ p => (p.state = .available ∨ p.state = .leased) ∧ p.staleAt s.now timeout)
        fun p => { p with state := .offline, activeJobId := none })
  | trust providerId success => (none, s.providers.update providerId (.trust success))
  | penalize providerId =>
      (none, s.providers.update providerId fun p =>
        { p with trustScore := clampTrust (nullSub p.trustScore (some (20 / 100))) })
  | addHours providerId hours =>
      let providers := s.providers.update providerId fun p =>
        { p with
          totalGpuHoursContributed := some (p.totalGpuHoursContributed.getD 0 + hours) }
      (providers.get? providerId, providers)

/-! ### The other tables -/

/-- A `transactions` row to insert; `withBalance` asks for the `balance_after` subselect. -/
structure NewTransaction where
  accountId : AccountId
  txType : TxType
  amountNmc : ℚ
  withBalance : Bool
  reference : Option String
  description : String

/-- What the ledger's `deposit` records. -/
def NewTransaction.deposit (accountId : AccountId) (amount : ℚ) (reference : Option String) :
    NewTransaction :=
  ⟨accountId, .deposit, amount, true, reference, "Manual deposit"⟩

/-- A `deposit_records` row to insert; a column the statement does not name is `none`. -/
structure NewDeposit where
  accountId : AccountId
  stripeSessionId : String
  amountNmc : Option ℚ
  amountMyr : Option ℚ

/-- Assignment to a `NUMERIC(12,2)` column: rounded to cents, half away from zero, refused when ten
digits do not hold the integer part. -/
def numeric12_2 (x : ℚ) : Option ℚ :=
  let cents : ℚ := ⌊|x| * 100 + 1 / 2⌋ / 100
  if cents < 10 ^ 10 then some (if x < 0 then -cents else cents) else none

/-- What `check_daily_deposit_threshold` sums: the account's deposits of the last 24 hours. -/
def Db.dailyDeposits (s : Db) (accountId : AccountId) : ℚ :=
  s.depositRecords.sum fun _ d =>
    if d.accountId = accountId ∧ s.now ≤ d.depositedAt + seconds 86400 then d.amountMyr else 0

/-- `INSERT INTO deposit_records`. The columns `amount_nmc` and `amount_myr` are `NOT NULL` without
a default, `account_id` references `accounts`, and `stripe_session_id` is unique. The row trigger
runs after the insert, so its sum already counts the new row before it adds `NEW.amount_myr`; from
RM 3,000 on it calls `FORMAT` with `%.2f`, which PostgreSQL's `format` rejects. -/
def NewDeposit.insert (s : Db) (d : NewDeposit) : Option (Table String DepositRecord) := do
  let amountNmc ← d.amountNmc
  let amountMyr ← (← d.amountMyr) |> numeric12_2
  let records ← s.depositRecords.insert? d.stripeSessionId
    ⟨d.accountId, amountNmc, amountMyr, s.now⟩
  if (s.accounts.get? d.accountId).isNone then none
  else if 3000 ≤ ({ s with depositRecords := records } : Db).dailyDeposits d.accountId + amountMyr
  then none
  else some records

/-- `ecdsa_pubkey_hex` is unique too, and only a conflict on `account_id` is resolved. -/
def Account.insert (s : Db) (accountId : AccountId) (row : Account) :
    Option (Table AccountId Account) :=
  if (s.accounts.get? accountId).isSome then some s.accounts
  else if s.accounts.rows.any fun other => other.2.ecdsaPubkeyHex = row.ecdsaPubkeyHex then none
  else s.accounts.insert? accountId row

/-! ### All statements -/

inductive Action where
  | read (r : Read)
  | creditAccounts (w : AccountsWrite)
  | escrows (w : EscrowsWrite)
  | jobs (w : JobsWrite)
  | providers (w : ProvidersWrite)
  | insertTransaction (txId : TxId) (row : NewTransaction)
  | insertDeposit (row : NewDeposit)
  /-- `INSERT INTO milestone_rewards .. ON CONFLICT DO NOTHING` -/
  | insertMilestone (providerId : ProviderId) (milestoneHours : Int) (row : MilestoneReward)
  | insertCheckpoint (checkpointId : String) (row : JobCheckpoint)
  /-- `register_account`: `INSERT INTO accounts .. ON CONFLICT (account_id) DO UPDATE` -/
  | insertAccount (accountId : AccountId) (row : Account)
  /-- A spawned `SettlementOracle` request, not waited for -/
  | oracle (request : OracleRequest)
  /-- `POST {ledger}/api/v1/wallet/{account}/deposit`, answered with the `transaction_id` the
  ledger drew -/
  | ledgerDeposit (accountId : AccountId) (amount : ℚ) (reference : String) (txId : TxId)

@[reducible] def Action.Answer : Action → Type
  | read r => r.Answer
  | creditAccounts _ => Nat
  | providers _ => Option Provider
  | ledgerDeposit _ _ _ _ => Option TxId
  | _ => Unit

def NewTransaction.insert (s : Db) (txId : TxId) (t : NewTransaction) :
    Option (Table TxId Transaction) :=
  s.transactions.insert? txId
    { accountId := t.accountId
      txType := t.txType
      amountNmc := t.amountNmc
      balanceAfter :=
        if t.withBalance then
          (s.creditAccounts.get? t.accountId).bind CreditAccount.availableNmc
        else none
      reference := t.reference
      description := t.description }

def Action.exec : (q : Action) → Db → Option (q.Answer × Db)
  | read r, s => some (r.eval s, s)
  | creditAccounts w, s => some ((w.apply s).1, { s with creditAccounts := (w.apply s).2 })
  | escrows w, s => (w.apply s).map fun t => ((), { s with escrows := t })
  | jobs w, s => (w.apply s).map fun t => ((), { s with jobs := t })
  | providers w, s => some ((w.apply s).1, { s with providers := (w.apply s).2 })
  | insertTransaction txId row, s =>
      (row.insert s txId).map fun t => ((), { s with transactions := t })
  | insertDeposit row, s => (row.insert s).map fun t => ((), { s with depositRecords := t })
  | insertMilestone providerId milestoneHours row, s =>
      if (s.providers.get? providerId).isSome then
        some ((), { s with
          milestoneRewards :=
            s.milestoneRewards.upsert (providerId, milestoneHours) row fun old => old })
      else none
  | insertCheckpoint checkpointId row, s =>
      if (s.jobs.get? row.jobId).isSome then
        (s.jobCheckpoints.insert? checkpointId row).map fun t => ((), { s with jobCheckpoints := t })
      else none
  | insertAccount accountId row, s =>
      (row.insert s accountId).map fun t => ((), { s with accounts := t })
  | oracle request, s => some ((), { s with oracleRequests := s.oracleRequests ++ [request] })
  | ledgerDeposit accountId amount reference txId, s =>
      -- the ledger's `deposit` handler: credit, then record the transaction
      let credited := { s with
        creditAccounts := (AccountsWrite.apply s (.credit accountId amount)).2 }
      match (NewTransaction.deposit accountId amount (some reference)).insert credited txId with
      | some t => some (some txId, { credited with transactions := t })
      | none => some (none, credited)

end NeuralMesh
