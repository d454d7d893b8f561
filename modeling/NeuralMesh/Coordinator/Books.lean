import NeuralMesh.Coordinator.Rest
import NeuralMesh.Coordinator.Matching

/-!
# What the job handlers do to the books

The money of a job lives in three tables: the balances of `credit_accounts`, the rows of `escrows`
and the row of `jobs`. One lemma for each job handler says how a whole run of it, with no other
statement in between, changes the three.
-/

namespace NeuralMesh

/-- The tables that hold the money of the jobs. -/
structure Books where
  accounts : Table AccountId CreditAccount
  escrows : Table EscrowId Escrow
  jobs : Table JobId Job

def Db.books (s : Db) : Books := ⟨s.creditAccounts, s.escrows, s.jobs⟩

/-- The statements on other tables. -/
def Action.SparesBooks : Action → Prop
  | .creditAccounts _ | .escrows _ | .jobs _ | .ledgerDeposit _ _ _ _ => False
  | _ => True

theorem Action.exec_books {q : Action} {s t : Db} {a : q.Answer} (hspares : q.SparesBooks)
    (hexec : q.exec s = some (a, t)) : t.books = s.books := by
  cases q with
  | creditAccounts w => exact hspares.elim
  | escrows w => exact hspares.elim
  | jobs w => exact hspares.elim
  | ledgerDeposit accountId amount reference txId => exact hspares.elim
  | read r =>
      cases hexec
      rfl
  | providers w =>
      cases hexec
      rfl
  | oracle request =>
      cases hexec
      rfl
  | insertTransaction txId row =>
      obtain ⟨_, _, heq⟩ := Option.map_eq_some_iff.mp hexec
      cases heq
      rfl
  | insertDeposit row =>
      obtain ⟨_, _, heq⟩ := Option.map_eq_some_iff.mp hexec
      cases heq
      rfl
  | insertAccount accountId row =>
      obtain ⟨_, _, heq⟩ := Option.map_eq_some_iff.mp hexec
      cases heq
      rfl
  | insertMilestone providerId milestoneHours row =>
      simp only [Action.exec] at hexec
      split at hexec
      · cases hexec
        rfl
      · cases hexec
  | insertCheckpoint checkpointId row =>
      simp only [Action.exec] at hexec
      split at hexec
      · obtain ⟨_, _, heq⟩ := Option.map_eq_some_iff.mp hexec
        cases heq
        rfl
      · cases hexec

/-- Only writes of `credit_accounts` change the balances; a deposit of the ledger is one. -/
theorem Action.exec_accounts {q : Action} {s t : Db} {a : q.Answer}
    (hexec : q.exec s = some (a, t)) :
    t.creditAccounts = s.creditAccounts ∨
      ∃ w : AccountsWrite, t.creditAccounts = (w.apply s).2 := by
  cases q with
  | creditAccounts w =>
      cases hexec
      exact .inr ⟨w, rfl⟩
  | ledgerDeposit accountId amount reference txId =>
      right
      refine ⟨.credit accountId amount, ?_⟩
      simp only [Action.exec] at hexec
      split at hexec
      · cases hexec
        rfl
      · cases hexec
        rfl
  | escrows w =>
      obtain ⟨_, _, heq⟩ := Option.map_eq_some_iff.mp hexec
      cases heq
      exact .inl rfl
  | jobs w =>
      obtain ⟨_, _, heq⟩ := Option.map_eq_some_iff.mp hexec
      cases heq
      exact .inl rfl
  | _ => exact .inl (congrArg Books.accounts (Action.exec_books (by trivial) hexec))

theorem Action.exec_available (accountId : AccountId) (s : Db) :
    Action.exec (.read (.available accountId)) s =
      some ((s.creditAccounts.get? accountId).map CreditAccount.availableNmc, s) := rfl

theorem Action.exec_insertJob (jobId : JobId) (accountId : AccountId) (spec : JobSpec) (s : Db) :
    Action.exec (.jobs (.insert jobId accountId spec)) s =
      (s.jobs.insert? jobId (.submitted s.now accountId spec)).map
        fun jobs => ((), { s with jobs }) := rfl

theorem Action.exec_insertEscrow {s : Db} {escrowId : EscrowId} {jobId : JobId}
    {consumerId : AccountId} {providerId : Option ProviderId} {lockedNmc : ℚ}
    (hjob : (s.jobs.get? jobId).isSome) :
    Action.exec (.escrows (.insert escrowId jobId consumerId providerId lockedNmc)) s =
      (s.escrows.insert? escrowId ⟨jobId, consumerId, providerId, lockedNmc, .locked⟩).map
        fun escrows => ((), { s with escrows }) := by
  simp only [Action.exec, EscrowsWrite.apply, if_pos hjob]

theorem run_books_of_uses {α : Type} (p : Program Action.Answer α) (s : Db)
    (huses : p.Uses Action.SparesBooks) : (p.run Action.exec s).2.books = s.books :=
  Program.run_rel Action.exec (R := fun s t => t.books = s.books) (fun _ => rfl)
    (fun _ _ _ h₁ h₂ => h₂.trans h₁) (fun _ _ _ _ hspares => Action.exec_books hspares) p s huses

/-- Releasing a row of one job does not change which row another job's settlement finds. -/
theorem firstLocked_update {escrows : Table EscrowId Escrow} {escrowId : EscrowId} {e : Escrow}
    {jobId : JobId} (hget : escrows.get? escrowId = some e) (hne : e.jobId ≠ jobId) :
    firstLocked (escrows.update escrowId .release) jobId = firstLocked escrows jobId := by
  apply Table.find?_updateWhere
  rintro ⟨k, r⟩ hrow hk
  have hke : k = escrowId := of_decide_eq_true hk
  have hre : r = e := by
    rw [Table.mem_rows_iff, hke, hget] at hrow
    exact (Option.some.inj hrow).symm
  simp [hre, hne, Escrow.release]

theorem firstLocked_eq_some {escrows : Table EscrowId Escrow} {jobId : JobId}
    {row : EscrowId × Escrow} (hfirst : firstLocked escrows jobId = some row) :
    escrows.get? row.1 = some row.2 ∧ row.2.jobId = jobId ∧ row.2.state = .locked := by
  have hsome := List.find?_some hfirst
  exact ⟨Table.mem_rows_iff.mp (List.mem_of_find?_eq_some hfirst), by simpa using hsome⟩

/-- What `refund_consumer_escrow` does. -/
def Books.refundJob (b : Books) (jobId : JobId) : Books :=
  match firstLocked b.escrows jobId with
  | none => b
  | some (escrowId, escrow) =>
      { b with
        accounts := b.accounts.upsert escrow.consumerId (.opened escrow.lockedNmc 0)
          (.refundJob (some escrow.lockedNmc))
        escrows := b.escrows.update escrowId .release }

/-- What `migrate_or_fail_job` does. -/
def Books.migrateOrFail (now : Time) (b : Books) (jobId : JobId) : Books :=
  match b.jobs.get? jobId with
  | none => b
  | some job =>
      if !job.state.inProgress then b
      else if Coordinator.restorable job then { b with jobs := b.jobs.update jobId .requeue }
      else
        Books.refundJob
          { b with jobs := b.jobs.update jobId (.giveUp now (Coordinator.failureReason job)) } jobId

namespace Coordinator

open Program

variable (s : Db)

/-- The escrow row of a submission. -/
def SubmitJobBody.escrow (jobId : JobId) (body : SubmitJobBody) : Escrow :=
  ⟨jobId, body.accountId, none, body.maxCost, .locked⟩

/-- `available_nmc`, with `NULL` and a missing row read as zero. -/
def availableOrZero (accounts : Table AccountId CreditAccount) (accountId : AccountId) : ℚ :=
  (((accounts.get? accountId).map CreditAccount.availableNmc).map fun x => x.getD 0).getD 0

theorem availableOrZero_of_get? {accounts : Table AccountId CreditAccount} {c : AccountId}
    {a : CreditAccount} (hget : accounts.get? c = some a) :
    availableOrZero accounts c = a.availableNmc.getD 0 := by
  rw [availableOrZero, hget]
  rfl

/-- A submission is turned away or refused and changes nothing, or it locks its cost. It then
records the escrow, unless the id of the row is taken. -/
theorem submitJob_cases (ids : SubmitIds) (body : SubmitJobBody) :
    let t := (run Action.exec (submitJob ids body) s).2
    t.books = s.books ∨
      body.maxCost ≤ availableOrZero s.creditAccounts body.accountId ∧
      ∃ jobs, s.jobs.insert? ids.jobId (.submitted s.now body.accountId body.spec) = some jobs ∧
        let locked := s.creditAccounts.update body.accountId (.lock body.maxCost)
        ((∃ escrows, s.escrows.insert? ids.escrowId (body.escrow ids.jobId) = some escrows ∧
            t.books = ⟨locked, escrows, jobs⟩) ∨
          s.escrows.insert? ids.escrowId (body.escrow ids.jobId) = none ∧
            ¬ Succeeds Action.exec (submitJob ids body) s ∧
            t.books = ⟨locked, s.escrows, jobs⟩) := by
  intro t
  have hread := Action.exec_available body.accountId s
  by_cases hless : availableOrZero s.creditAccounts body.accountId < body.maxCost
  · left
    simp only [t, submitJob, run_query_of_some _ hread]
    rw [availableOrZero] at hless
    rw [if_pos hless, run_done]
  have hcovered := not_lt.mp hless
  rw [availableOrZero] at hless
  cases hjobs : s.jobs.insert? ids.jobId (.submitted s.now body.accountId body.spec) with
  | none =>
      left
      have hinsert : Action.exec (.jobs (.insert ids.jobId body.accountId body.spec)) s = none := by
        rw [Action.exec_insertJob, hjobs, Option.map_none]
      simp only [t, submitJob, run_query_of_some _ hread]
      rw [if_neg hless, run_query_of_none _ hinsert, run_done]
  | some jobs =>
      right
      refine ⟨hcovered, jobs, rfl, ?_⟩
      have hinsert : Action.exec (.jobs (.insert ids.jobId body.accountId body.spec)) s =
          some ((), { s with jobs }) := by
        rw [Action.exec_insertJob, hjobs, Option.map_some]
      have hsome : (jobs.get? ids.jobId).isSome := by
        simp [Table.get?_of_insert? hjobs]
      simp only [t, submitJob, run_query_of_some _ hread, succeeds_query_of_some _ hread]
      rw [if_neg hless, run_query_of_some _ hinsert, succeeds_query_of_some _ hinsert,
        run_query_of_some _ rfl, succeeds_query_of_some _ rfl, ← updateAccount_all, run_query,
        Action.exec_insertEscrow hsome, SubmitJobBody.escrow]
      cases hescrows : s.escrows.insert? ids.escrowId
          ⟨ids.jobId, body.accountId, none, body.maxCost, .locked⟩ with
      | none =>
          right
          refine ⟨rfl, not_succeeds_query_of_none _ ?_, rfl⟩
          rw [Action.exec_insertEscrow hsome]
          exact congrArg _ hescrows
      | some escrows =>
          left
          refine ⟨escrows, rfl, ?_⟩
          exact (run_books_of_uses _ _ (by simp [Uses, Action.SparesBooks])).trans rfl

/-- The same, when it does not matter why the escrow is not recorded. -/
theorem submitJob_books (ids : SubmitIds) (body : SubmitJobBody) :
    let t := (run Action.exec (submitJob ids body) s).2
    t.books = s.books ∨
      body.maxCost ≤ availableOrZero s.creditAccounts body.accountId ∧
      ∃ jobs, s.jobs.insert? ids.jobId (.submitted s.now body.accountId body.spec) = some jobs ∧
        let locked := s.creditAccounts.update body.accountId (.lock body.maxCost)
        ((∃ escrows, s.escrows.insert? ids.escrowId (body.escrow ids.jobId) = some escrows ∧
            t.books = ⟨locked, escrows, jobs⟩) ∨
          ¬ Succeeds Action.exec (submitJob ids body) s ∧ t.books = ⟨locked, s.escrows, jobs⟩) := by
  rcases submitJob_cases s ids body with hsame | ⟨hcovered, jobs, hjobs, hescrow⟩
  · exact .inl hsame
  · exact .inr ⟨hcovered, jobs, hjobs, hescrow.imp_right And.right⟩

theorem cancelJob_books (jobId : JobId) :
    (run Action.exec (cancelJob jobId) s).2.books =
      match s.jobs.get? jobId with
      | none => s.books
      | some job =>
          if job.state.isTerminal then s.books
          else
            { accounts := s.creditAccounts.update job.consumerId
                (.refundJob ((firstLocked s.escrows jobId).map fun row => row.2.lockedNmc))
              escrows := s.escrows.updateWhere
                (fun _ e => e.jobId = jobId ∧ e.state = .locked) .release
              jobs := s.jobs.update jobId (.close s.now .cancelled) } := by
  rw [cancelJob, run_query]
  simp only [Action.exec, Read.eval]
  cases s.jobs.get? jobId with
  | none => rfl
  | some job =>
      dsimp only
      split
      · rfl
      · rw [← updateAccount_all]
        rfl

theorem completeJob_books (config : Config) (txId : TxId) (jobId : JobId)
    (body : CompleteJobBody) :
    (run Action.exec (completeJob config txId jobId body) s).2.books =
      match (s.jobs.get? jobId).filter fun j => j.providerId = some body.providerId with
      | none => s.books
      | some job =>
          let gross := grossNmc job body
          let net := gross * (1 - platformFee)
          { accounts := (s.creditAccounts.upsert body.providerId (.opened net net)
              (.earn net)).update job.consumerId (.charge gross)
            escrows := s.escrows
            jobs := s.jobs.update jobId
              (.report s.now .complete body.outputHash body.actualRuntimeS) } := by
  rw [completeJob, run_query]
  simp only [Action.exec, Read.eval]
  cases (s.jobs.get? jobId).filter fun j => j.providerId = some body.providerId with
  | none => rfl
  | some job =>
      dsimp only
      rw [← updateAccount_all]
      rw [run_query_of_some _ rfl, run_query_of_some _ rfl, run_query_of_some _ rfl]
      refine (run_books_of_uses _ _ ?_).trans rfl
      split <;> simp [Uses, Action.SparesBooks]

theorem failJob_books (config : Config) (jobId : JobId) (body : FailJobBody) :
    (run Action.exec (failJob config jobId body) s).2.books =
      { accounts :=
          match s.jobs.get? jobId with
          | none => s.creditAccounts
          | some job => s.creditAccounts.update job.consumerId .releaseAll
        escrows := s.escrows
        jobs := s.jobs.update jobId (.close s.now .failed) } := by
  let closed := s.jobs.update jobId (.close s.now .failed)
  have hlookup : closed.get? jobId = (s.jobs.get? jobId).map (.close s.now .failed) :=
    Table.get?_update_self _ _ _
  have haccounts : (AccountsWrite.apply { s with jobs := closed } (.releaseAll jobId)).2 =
      match s.jobs.get? jobId with
      | none => s.creditAccounts
      | some job => s.creditAccounts.update job.consumerId .releaseAll := by
    simp only [AccountsWrite.apply, hlookup]
    cases s.jobs.get? jobId with
    | none => rfl
    | some job => exact updateAccount_all _ _ _
  rw [← haccounts, failJob, run_query_of_some _ rfl, run_query_of_some _ rfl]
  refine (run_books_of_uses _ _ ?_).trans rfl
  split <;> split <;> simp [Uses, Action.SparesBooks]

/-! ### The watcher -/

theorem refundConsumerEscrow_run (txId : TxId) (jobId : JobId) (next : Cycle) :
    ∃ t : Db, run Action.exec (refundConsumerEscrow txId jobId next) s = run Action.exec next t ∧
      t.books = s.books.refundJob jobId ∧ t.now = s.now := by
  rw [refundConsumerEscrow, run_query]
  simp only [Action.exec, Read.eval, Books.refundJob, Db.books]
  cases firstLocked s.escrows jobId with
  | none => exact ⟨s, rfl, rfl, rfl⟩
  | some row =>
      obtain ⟨escrowId, escrow⟩ := row
      dsimp only
      rw [run_query_of_some _ rfl, run_query_of_some _ rfl, run_query]
      split
      · rename_i hexec
        obtain ⟨_, _, heq⟩ := Option.map_eq_some_iff.mp hexec
        cases heq
        exact ⟨_, rfl, rfl, rfl⟩
      · exact ⟨_, rfl, rfl, rfl⟩

theorem migrateOrFailJob_run (txId : TxId) (jobId : JobId) (providerId : ProviderId)
    (next : Cycle) :
    ∃ t : Db, run Action.exec (migrateOrFailJob txId jobId providerId next) s =
        run Action.exec next t ∧
      t.books = s.books.migrateOrFail s.now jobId ∧ t.now = s.now := by
  rw [migrateOrFailJob, run_query]
  simp only [Action.exec, Read.eval, Books.migrateOrFail, Db.books]
  cases s.jobs.get? jobId with
  | none => exact ⟨s, rfl, rfl, rfl⟩
  | some job =>
      dsimp only
      split
      · exact ⟨s, rfl, rfl, rfl⟩
      split
      · exact ⟨_, run_query_of_some _ rfl, rfl, rfl⟩
      · rw [run_query_of_some _ rfl]
        obtain ⟨u, hrun, hbooks, hnow⟩ := refundConsumerEscrow_run
          { s with jobs := s.jobs.update jobId (.giveUp s.now (failureReason job)) } txId jobId
          (attempt (.providers (.penalize providerId)) next)
        exact ⟨_, hrun.trans (run_query_of_some _ rfl), hbooks, hnow⟩

theorem migrateStale_run (txIds : Nat → TxId) (n : Nat)
    (stale : List (ProviderId × Option JobId)) :
    (run Action.exec (migrateStale txIds n stale) s).2.books =
      (stale.filterMap Prod.snd).foldl (Books.migrateOrFail s.now) s.books := by
  induction stale generalizing s n with
  | nil => rfl
  | cons row stale ih =>
      obtain ⟨providerId, activeJobId⟩ := row
      unfold migrateStale
      rw [run_query_of_some _ rfl]
      cases activeJobId with
      | none => exact ih _ _
      | some jobId =>
          obtain ⟨u, hrun, hbooks, hnow⟩ := migrateOrFailJob_run
            { s with providers := (ProvidersWrite.apply s (.offline providerId)).2 } (txIds n) jobId
            providerId (migrateStale txIds (n + 1) stale)
          rw [List.filterMap_cons_some (by rfl), List.foldl_cons]
          refine (congrArg (fun r => r.2.books) hrun).trans ?_
          rw [ih, hbooks, hnow]
          rfl

/-- The jobs of the providers that a watcher cycle finds silent. -/
def staleJobs : List JobId :=
  ((Read.eval s (.staleProviders (seconds providerTimeoutSecs)) :
    List (ProviderId × Option JobId)).filterMap Prod.snd)

theorem checkStaleProviders_books (txIds : Nat → TxId) :
    (run Action.exec (checkStaleProviders txIds) s).2.books =
      (staleJobs s).foldl (Books.migrateOrFail s.now) s.books := by
  rw [checkStaleProviders, run_query_of_some _ rfl]
  exact migrateStale_run s txIds 0 _

end Coordinator

end NeuralMesh
