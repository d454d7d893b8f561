import NeuralMesh.Proof.OracleAmounts
import NeuralMesh.System.Statements
import NeuralMesh.Store.Rows

/-!
# Which ends of a job the chain hears of

A job ends in six ways. `complete_job` and the gRPC report of a completion ask the ledger to release
the escrow on the chain, `fail_job` to cancel it; `cancel_job`, the gRPC cancellation and the watcher
ask for nothing, whatever they return to the consumer.
-/

namespace NeuralMesh

open Coordinator Program

/-- The release requests for a job. -/
def releases (jobId : JobId) (requests : List OracleRequest) : Nat :=
  requests.countP fun
    | .releaseEscrow j _ => j = jobId
    | .cancelEscrow _ => false

def cancels (jobId : JobId) (requests : List OracleRequest) : Nat :=
  requests.countP fun
    | .releaseEscrow _ _ => false
    | .cancelEscrow j => j = jobId

theorem releases_append (jobId : JobId) (rs rs' : List OracleRequest) :
    releases jobId (rs ++ rs') = releases jobId rs + releases jobId rs' := List.countP_append

theorem cancels_append (jobId : JobId) (rs rs' : List OracleRequest) :
    cancels jobId (rs ++ rs') = cancels jobId rs + cancels jobId rs' := List.countP_append

/-! ### The operations that ask for nothing -/

namespace Operation

/-- The operation has no request to the oracle in it. -/
def AsksNothing : Operation → Prop
  | completeJob _ _ _ _ | failJob _ _ _ | reportCompletion _ _ _ => False
  | _ => True

theorem AsksNothing.uses {op : Operation} (hasks : op.AsksNothing) :
    op.program.Uses fun q => q.touches .oracle = false := by
  refine Uses.mono (fun q hmay => ?_) op.program_mayIssue
  cases q with
  | oracle request => cases op <;> first | exact hmay.elim | exact hasks.elim
  | _ => rfl

/-- The chain hears of three of the operations only. -/
theorem AsksNothing.oracleRequests {op : Operation} (hasks : op.AsksNothing) (s : Db) :
    (op.after s).oracleRequests = s.oracleRequests := run_sameIn .oracle s hasks.uses

end Operation

/-! ### The operations that ask -/

namespace Operation

variable {s : Db}

theorem completeJob_oracleRequests {config : Config} {txId : TxId} {jobId : JobId}
    {body : CompleteJobBody} (hon : config.oracleEnabled) {job : Job}
    (hjob : s.jobs.get? jobId = some job) (hprovider : job.providerId = some body.providerId)
    (hnew : s.transactions.get? txId = none) :
    ((completeJob config txId jobId body).after s).oracleRequests =
      s.oracleRequests ++ [.releaseEscrow jobId (grossNmc job body)] := by
  have hfound : (s.jobs.get? jobId).filter (fun j => j.providerId = some body.providerId) =
      some job := by
    rw [hjob, Option.filter_some, if_pos (decide_eq_true hprovider)]
  obtain ⟨transactions, hinsert⟩ : ∃ transactions,
      (earned jobId body (grossNmc job body * (1 - platformFee))).insert
        (paidFor s jobId body job) txId = some transactions := by
    rw [NewTransaction.insert, ← Option.ne_none_iff_exists', Ne, Table.insert?_eq_none_iff]
    exact not_not_intro hnew
  have hrun := completeJob_run_some config txId hfound
  dsimp only at hrun
  rw [hinsert] at hrun
  rw [after, program, run_forget, hrun]
  simp only [hon, if_true]
  rfl

/-- Whoever is not the provider of the job completes nothing. -/
theorem completeJob_after_of_other {config : Config} {txId : TxId} {jobId : JobId}
    {body : CompleteJobBody}
    (hother : ∀ job ∈ s.jobs.get? jobId, job.providerId ≠ some body.providerId) :
    (completeJob config txId jobId body).after s = s := by
  rw [after, program, run_forget]
  apply completeJob_run_none
  rw [Option.filter_eq_none_iff]
  exact fun job hjob => by simpa using hother job hjob

theorem failJob_oracleRequests {config : Config} {jobId : JobId} {body : FailJobBody}
    (hon : config.oracleEnabled) :
    ((failJob config jobId body).after s).oracleRequests =
      s.oracleRequests ++ [.cancelEscrow jobId] := by
  rw [after, program, run_forget, Coordinator.failJob]
  simp only [hon, if_true]
  rw [run_query_of_some _ rfl, run_query_of_some _ rfl, run_query_of_some _ rfl]
  split <;> rfl

theorem reportCompletion_oracleRequests (txIds : Int → TxId) {jc : Grpc.JobComplete}
    (hcomplete : jc.jobState = .complete) :
    ∃ credits, ((reportCompletion true txIds jc).after s).oracleRequests =
      s.oracleRequests ++ [.releaseEscrow jc.jobId credits] := by
  have hrun := Grpc.reportCompletion_run true txIds jc s
  simp only [hcomplete, true_and, if_true] at hrun
  rw [after, program, run_forget, hrun]
  generalize hsettled : (if jc.providerId ≠ "" then Grpc.rewarded txIds jc _ else _) = settled
  have hsame : settled.oracleRequests = s.oracleRequests := by
    rw [← hsettled]
    split
    · exact Grpc.rewarded_sameIn .oracle txIds jc _ (by decide)
    · rfl
  exact ⟨_, congrArg (· ++ _) hsame⟩

/-- A failure that is reported by gRPC is recorded in the row of the job, and nowhere else. -/
theorem reportCompletion_after_of_failed (oracleEnabled : Bool) (txIds : Int → TxId)
    {jc : Grpc.JobComplete} (hfailed : jc.jobState ≠ .complete) :
    (reportCompletion oracleEnabled txIds jc).after s =
      { s with
        jobs := s.jobs.update jc.jobId
          (.report s.now jc.jobState jc.outputHash (asI64 jc.actualRuntimeS.toNat)) } := by
  have hrun := Grpc.reportCompletion_run oracleEnabled txIds jc s
  simp only [hfailed, false_and, if_false] at hrun
  rw [after, program, run_forget, hrun]

end Operation

/-! ### The state of a job -/

def Db.stateOf (s : Db) (jobId : JobId) : Option JobState := (s.jobs.get? jobId).map Job.state

/-- The job is moved into the state. -/
def Enters (s t : Db) (jobId : JobId) (state : JobState) : Prop :=
  t.stateOf jobId = some state ∧ s.stateOf jobId ≠ some state

/-- The state that a write of `jobs` gives the rows it matches. -/
def JobsWrite.target : JobsWrite → Option JobState
  | insert _ _ _ | requeue _ => some .queued
  | close _ state | report _ state _ _ => some state
  | cancelOwned _ _ => some .cancelled
  | start _ | heartbeat _ _ | acknowledge _ _ _ => some .running
  | assign _ _ _ _ => some .assigned
  | giveUp _ _ => some .failed
  | checkpoint _ _ _ => none

/-- The job that a write of `jobs` is about. -/
def JobsWrite.jobId : JobsWrite → JobId
  | insert jobId _ _ | requeue jobId | close jobId _ | report jobId _ _ _ | cancelOwned jobId _
  | start jobId | heartbeat jobId _ | acknowledge jobId _ _ | assign jobId _ _ _ | giveUp jobId _
  | checkpoint jobId _ _ => jobId

theorem JobsWrite.edit_state (now : Time) (k : JobId) (w : JobsWrite) (row : Job) :
    (w.edit now k row).state = row.state ∨
      w.target = some (w.edit now k row).state ∧ w.jobId = k := by
  cases w with
  | insert jobId consumerId spec => exact .inl rfl
  | cancelOwned jobId consumerId =>
      simp only [edit]
      split
      · rename_i hrow
        exact .inr ⟨rfl, hrow.1.symm⟩
      · exact .inl rfl
  | heartbeat jobId providerId =>
      simp only [edit]
      split
      · rename_i hrow
        exact .inr ⟨rfl, hrow.1.symm⟩
      · exact .inl rfl
  | checkpoint jobId url iteration =>
      simp only [edit]
      split <;> exact .inl rfl
  | _ =>
      simp only [edit]
      split
      · rename_i hrow
        exact .inr ⟨rfl, hrow.symm⟩
      · exact .inl rfl

theorem Action.target_of_enters {q : Action} {s t : Db} {a : q.Answer} {jobId : JobId}
    {state : JobState} (hexec : q.exec s = some (a, t)) (henters : Enters s t jobId state) :
    ∃ w, q = .jobs w ∧ w.target = some state ∧ w.jobId = jobId := by
  obtain ⟨hstate, hold⟩ := henters
  rcases Action.exec_jobs hexec with hsame | ⟨w, hw, happly⟩
  · rw [Db.stateOf, hsame] at hstate
    exact absurd hstate hold
  refine ⟨w, hw, ?_⟩
  obtain ⟨row', hrow', hstate'⟩ := Option.map_eq_some_iff.mp hstate
  cases hrow : s.jobs.get? jobId with
  | none =>
      obtain ⟨consumerId, spec, rfl, rfl⟩ := JobsWrite.submitted_of_apply happly hrow hrow'
      rw [← hstate']
      exact ⟨rfl, rfl⟩
  | some row =>
      have hedit := Option.some.inj ((JobsWrite.get?_apply happly hrow).symm.trans hrow')
      rcases w.edit_state s.now jobId row with hkept | htarget
      · refine absurd ?_ hold
        rw [Db.stateOf, hrow, Option.map_some, ← hkept, hedit, hstate']
      · rwa [hedit, hstate'] at htarget

/-- An operation moves only the jobs that it writes, and only into the state that it writes. -/
theorem Operation.target_of_enters {op : Operation} {s : Db} {jobId : JobId} {state : JobState}
    (henters : Enters s (op.after s) jobId state) :
    ∃ w, op.WritesJob w ∧ w.target = some state ∧ w.jobId = jobId := by
  by_contra hnone
  have hstays : (op.after s).stateOf jobId ≠ some state := by
    refine Program.run_preserves Action.exec (I := fun t : Db => t.stateOf jobId ≠ some state)
      (P := op.Issues) ?_ op.program s op.program_issues henters.2
    intro q t a t' hissues hbefore hexec hafter
    obtain ⟨w, rfl, htarget⟩ := Action.target_of_enters hexec ⟨hafter, hbefore⟩
    exact hnone ⟨w, hissues, htarget⟩
  exact hstays henters.1

namespace Operation

/-- Two reports complete a job. -/
theorem completes_cases {op : Operation} {s : Db} {jobId : JobId}
    (henters : Enters s (op.after s) jobId .complete) :
    (∃ config txId body, op = completeJob config txId jobId body) ∨
      ∃ oracleEnabled txIds jc, op = reportCompletion oracleEnabled txIds jc ∧
        jc.jobState = .complete ∧ jc.jobId = jobId := by
  obtain ⟨w, hwrites, htarget, hjobId⟩ := target_of_enters henters
  cases op with
  | completeJob config txId j body =>
      rw [show w = _ from hwrites] at hjobId
      exact .inl ⟨config, txId, body, congrArg (completeJob config txId · body) hjobId⟩
  | reportCompletion oracleEnabled txIds jc =>
      rw [show w = _ from hwrites] at htarget hjobId
      exact .inr ⟨_, _, _, rfl, Option.some.inj htarget, hjobId⟩
  | _ => simp_all [WritesJob] <;> grind [JobsWrite.target]

end Operation

/-! ### What is returned -/

def Db.available (s : Db) (accountId : AccountId) : Option ℚ :=
  (s.creditAccounts.get? accountId).bind CreditAccount.availableNmc

/-- The escrow of the job goes back to the consumer: its row is released, or the consumer has more
than before. -/
def ReturnsEscrow (s t : Db) (jobId : JobId) : Prop :=
  (∃ escrowId e, s.escrows.get? escrowId = some e ∧ e.jobId = jobId ∧ e.state = .locked ∧
    (t.escrows.get? escrowId).map Escrow.state = some .released) ∨
  ∃ job ∈ s.jobs.get? jobId, ∃ x ∈ s.available job.consumerId, ∃ y ∈ t.available job.consumerId, x < y

theorem not_returnsEscrow {s t : Db} (haccounts : t.creditAccounts = s.creditAccounts)
    (hescrows : t.escrows = s.escrows) (jobId : JobId) : ¬ ReturnsEscrow s t jobId := by
  rintro (⟨escrowId, e, hget, _, hlocked, hreleased⟩ | ⟨job, _, x, hx, y, hy, hless⟩)
  · rw [hescrows, hget, Option.map_some, hlocked] at hreleased
    cases hreleased
  · rw [Db.available, haccounts] at hy
    exact hless.ne (Option.some.inj (hx.symm.trans hy))

/-- No escrow is locked for the job. -/
def Unfunded (escrows : Table EscrowId Escrow) (jobId : JobId) : Prop :=
  firstLocked escrows jobId = none

theorem Unfunded.updateWhere {escrows : Table EscrowId Escrow} {jobId : JobId}
    (hunfunded : Unfunded escrows jobId) :
    escrows.updateWhere (fun _ e => e.jobId = jobId ∧ e.state = .locked) .release = escrows := by
  apply Table.updateWhere_of_forall_not
  intro row hrow
  have hnone := List.find?_eq_none.mp hunfunded row hrow
  simpa using hnone

/-- The watcher has nothing to return for the job: it lets it be, tries it again, or finds no escrow. -/
def Books.Unreturned (b : Books) (jobId : JobId) : Prop :=
  ∀ job ∈ b.jobs.get? jobId, job.state.inProgress → restorable job ∨ Unfunded b.escrows jobId

namespace Books

/-- The watcher then changes the row of the job at most. -/
theorem Unreturned.migrateOrFail {b : Books} {jobId : JobId} (hunreturned : b.Unreturned jobId)
    (now : Time) :
    b.migrateOrFail now jobId = b ∨
      ∃ f : Job → Job, (∀ job, (f job).state.inProgress = false) ∧
        b.migrateOrFail now jobId = { b with jobs := b.jobs.update jobId f } := by
  rw [Books.migrateOrFail]
  cases hjob : b.jobs.get? jobId with
  | none => exact .inl rfl
  | some job =>
      dsimp only
      split
      · exact .inl rfl
      rename_i hprogress
      split
      · exact .inr ⟨.requeue, fun _ => rfl, rfl⟩
      rename_i hfails
      have hnone : firstLocked b.escrows jobId = none :=
        (hunreturned job hjob (by simpa using hprogress)).resolve_left hfails
      refine .inr ⟨.giveUp now (failureReason job), fun _ => rfl, ?_⟩
      rw [Books.refundJob, hnone]

theorem Unreturned.update {b : Books} {j : JobId} (hunreturned : b.Unreturned j) {jobId : JobId}
    {f : Job → Job} (hstill : ∀ job, (f job).state.inProgress = false) :
    ({ b with jobs := b.jobs.update jobId f } : Books).Unreturned j := by
  intro job hjob hprogress
  rcases Table.get?_update_cases hjob with ⟨old, -, -, rfl⟩ | ⟨-, hold⟩
  · rw [hstill] at hprogress
    cases hprogress
  · exact hunreturned job hold hprogress

theorem foldl_migrateOrFail_unreturned (now : Time) (jobIds : List JobId) {b : Books}
    (hunreturned : ∀ j ∈ jobIds, b.Unreturned j) :
    (jobIds.foldl (Books.migrateOrFail now) b).accounts = b.accounts ∧
      (jobIds.foldl (Books.migrateOrFail now) b).escrows = b.escrows := by
  induction jobIds generalizing b with
  | nil => exact ⟨rfl, rfl⟩
  | cons jobId jobIds ih =>
      rw [List.foldl_cons]
      have hrest : ∀ j ∈ jobIds, b.Unreturned j :=
        fun j hj => hunreturned j (List.mem_cons_of_mem _ hj)
      rcases (hunreturned jobId List.mem_cons_self).migrateOrFail now with hsame | ⟨f, hstill, hedit⟩
      · rw [hsame]
        exact ih hrest
      · rw [hedit]
        exact ih fun j hj => (hrest j hj).update hstill

end Books

/-! ### The law -/

/-- The oracle is enabled in the coordinator that runs the operation. -/
def OracleOn (_ : Db) : Operation → Prop
  | .completeJob config _ _ _ | .failJob config _ _ => config.oracleEnabled
  | .reportCompletion oracleEnabled _ _ => oracleEnabled
  | _ => True

/-- What an operation asks of the chain follows what it does to the jobs. -/
structure Follows (s : Db) (op : Operation) : Prop where
  released : ∀ jobId, Enters s (op.after s) jobId .complete →
    releases jobId (requested s (op.after s)) = 1
  cancelled : ∀ jobId state, state = .failed ∨ state = .cancelled →
    Enters s (op.after s) jobId state → ReturnsEscrow s (op.after s) jobId →
      cancels jobId (requested s (op.after s)) = 1

/-- No job was both released and cancelled on the chain. -/
def NeverBoth (s : Db) : Prop :=
  ∀ jobId, releases jobId s.oracleRequests = 0 ∨ cancels jobId s.oracleRequests = 0

/-- The oracle is enabled, and: a completion is recorded with a new transaction, and of no job whose
failure the chain was told of; a failure is reported of no job whose completion it was told of; a
job that REST cancels or the watcher gives up has no escrow to return. -/
def TellsChain (s : Db) : Operation → Prop
  | .completeJob config txId jobId body =>
      config.oracleEnabled ∧ ∀ job ∈ s.jobs.get? jobId, job.providerId = some body.providerId →
        s.transactions.get? txId = none ∧ cancels jobId s.oracleRequests = 0
  | .failJob config jobId _ => config.oracleEnabled ∧ releases jobId s.oracleRequests = 0
  | .reportCompletion oracleEnabled _ jc =>
      oracleEnabled ∧ (jc.jobState = .complete → cancels jc.jobId s.oracleRequests = 0)
  | .cancelJob jobId =>
      ∀ job ∈ s.jobs.get? jobId, job.state.isTerminal = false → Unfunded s.escrows jobId
  | .migrateOrFailJob _ jobId _ => s.books.Unreturned jobId
  | .checkStaleProviders _ => ∀ jobId ∈ staleJobs s, s.books.Unreturned jobId
  | _ => True

theorem requested_of_append {s t : Db} {rs : List OracleRequest}
    (happend : t.oracleRequests = s.oracleRequests ++ rs) : requested s t = rs := by
  rw [requested, happend, List.drop_left]

/-- One operation sends one request at most. -/
theorem TellsChain.requests {s : Db} {op : Operation} (htells : TellsChain s op) :
    (op.after s).oracleRequests = s.oracleRequests ∨
      (∃ jobId cost, (op.after s).oracleRequests = s.oracleRequests ++ [.releaseEscrow jobId cost] ∧
        cancels jobId s.oracleRequests = 0) ∨
      ∃ jobId, (op.after s).oracleRequests = s.oracleRequests ++ [.cancelEscrow jobId] ∧
        releases jobId s.oracleRequests = 0 := by
  cases op with
  | completeJob config txId jobId body =>
      obtain ⟨hon, hnew⟩ := htells
      by_cases howned : ∃ job ∈ s.jobs.get? jobId, job.providerId = some body.providerId
      · obtain ⟨job, hjob, hprovider⟩ := howned
        obtain ⟨hfresh, hnone⟩ := hnew job hjob hprovider
        exact .inr (.inl ⟨_, _, Operation.completeJob_oracleRequests hon hjob hprovider hfresh, hnone⟩)
      · left
        rw [Operation.completeJob_after_of_other]
        exact fun job hjob hprovider => howned ⟨job, hjob, hprovider⟩
  | failJob config jobId body =>
      exact .inr (.inr ⟨_, Operation.failJob_oracleRequests htells.1, htells.2⟩)
  | reportCompletion oracleEnabled txIds jc =>
      obtain ⟨rfl, hnone⟩ := htells
      by_cases hcomplete : jc.jobState = .complete
      · obtain ⟨credits, hrequests⟩ :=
          Operation.reportCompletion_oracleRequests (s := s) txIds hcomplete
        exact .inr (.inl ⟨_, _, hrequests, hnone hcomplete⟩)
      · left
        rw [Operation.reportCompletion_after_of_failed true txIds hcomplete]
  | _ => exact .inl (Operation.AsksNothing.oracleRequests (by trivial) s)

theorem NeverBoth.after {s : Db} (hnever : NeverBoth s) {op : Operation}
    (htells : TellsChain s op) : NeverBoth (op.after s) := by
  intro j
  rcases htells.requests with hsame | ⟨jobId, cost, happend, hnone⟩ | ⟨jobId, happend, hnone⟩
  · rw [hsame]
    exact hnever j
  · rw [happend, releases_append, cancels_append]
    by_cases heq : jobId = j
    · subst heq
      right
      rw [hnone]
      rfl
    · have hother : releases j [.releaseEscrow jobId cost] = 0 := by simp [releases, heq]
      rw [hother]
      exact hnever j
  · rw [happend, releases_append, cancels_append]
    by_cases heq : jobId = j
    · subst heq
      left
      rw [hnone]
      rfl
    · have hother : cancels j [.cancelEscrow jobId] = 0 := by simp [cancels, heq]
      rw [hother]
      exact hnever j

/-- A cancellation that finds no escrow returns nothing. -/
theorem not_returnsEscrow_cancelJob {s : Db} {jobId : JobId}
    (htells : TellsChain s (.cancelJob jobId)) :
    ¬ ReturnsEscrow s ((Operation.cancelJob jobId).after s) jobId := by
  have hbooks := cancelJob_books s jobId
  rw [← Program.run_forget] at hbooks
  change ((Operation.cancelJob jobId).after s).books = _ at hbooks
  generalize (Operation.cancelJob jobId).after s = t at hbooks ⊢
  cases hjob : s.jobs.get? jobId with
  | none =>
      rw [hjob] at hbooks
      exact not_returnsEscrow (congrArg Books.accounts hbooks) (congrArg Books.escrows hbooks) _
  | some job =>
      rw [hjob] at hbooks
      dsimp only at hbooks
      split at hbooks
      · exact not_returnsEscrow (congrArg Books.accounts hbooks) (congrArg Books.escrows hbooks) _
      rename_i hlive
      have hunfunded : Unfunded s.escrows jobId := htells job hjob (by simpa using hlive)
      have haccounts := congrArg Books.accounts hbooks
      have hescrows := congrArg Books.escrows hbooks
      simp only [Db.books, hunfunded.updateWhere] at haccounts hescrows
      rw [show firstLocked s.escrows jobId = none from hunfunded] at haccounts
      rintro (⟨escrowId, e, hget, _, hlocked, hreleased⟩ | ⟨job', hjob', x, hx, y, hy, hless⟩)
      · rw [hescrows, hget, Option.map_some, hlocked] at hreleased
        cases hreleased
      · -- the sum with what no row holds is `NULL`
        cases hjob.symm.trans hjob'
        rw [Option.mem_def, Db.available, haccounts, Table.get?_update_self] at hy
        cases haccount : s.creditAccounts.get? job.consumerId with
        | none =>
            rw [haccount] at hy
            cases hy
        | some account =>
            rw [haccount] at hy
            simp [CreditAccount.refundJob] at hy

/-- A watcher that has nothing to return leaves the balances and the escrows as they are. -/
theorem migrateOrFailJob_keeps {s : Db} (txId : TxId) {jobId : JobId} (providerId : ProviderId)
    (hunreturned : s.books.Unreturned jobId) :
    ((Operation.migrateOrFailJob txId jobId providerId).after s).creditAccounts =
        s.creditAccounts ∧
      ((Operation.migrateOrFailJob txId jobId providerId).after s).escrows = s.escrows := by
  obtain ⟨t, hrun, hbooks, _⟩ := migrateOrFailJob_run s txId jobId providerId (done true)
  have hafter : (Operation.migrateOrFailJob txId jobId providerId).after s = t := by
    rw [Operation.after, Operation.program, run_forget, hrun, run_done]
  rw [hafter]
  have hkept := Books.foldl_migrateOrFail_unreturned s.now [jobId] (b := s.books)
    (by simpa using hunreturned)
  rw [List.foldl_cons, List.foldl_nil, ← hbooks] at hkept
  exact hkept

theorem checkStaleProviders_keeps {s : Db} (txIds : Nat → TxId)
    (hunreturned : ∀ jobId ∈ staleJobs s, s.books.Unreturned jobId) :
    ((Operation.checkStaleProviders txIds).after s).creditAccounts = s.creditAccounts ∧
      ((Operation.checkStaleProviders txIds).after s).escrows = s.escrows := by
  have hbooks := checkStaleProviders_books s txIds
  rw [← Program.run_forget] at hbooks
  have hkept := Books.foldl_migrateOrFail_unreturned s.now _ (b := s.books) hunreturned
  rw [← hbooks] at hkept
  exact hkept

theorem TellsChain.follows {s : Db} {op : Operation} (htells : TellsChain s op) : Follows s op where
  released := by
    intro jobId henters
    rcases Operation.completes_cases henters with
      ⟨config, txId, body, rfl⟩ | ⟨oracleEnabled, txIds, jc, rfl, hcomplete, rfl⟩
    · by_cases howned : ∃ job ∈ s.jobs.get? jobId, job.providerId = some body.providerId
      · obtain ⟨job, hjob, hprovider⟩ := howned
        rw [requested_of_append (Operation.completeJob_oracleRequests htells.1 hjob hprovider
          (htells.2 job hjob hprovider).1)]
        simp [releases]
      · rw [Operation.completeJob_after_of_other
          fun job hjob hprovider => howned ⟨job, hjob, hprovider⟩] at henters
        exact absurd henters.1 henters.2
    · obtain ⟨rfl, _⟩ := htells
      obtain ⟨credits, hrequests⟩ :=
        Operation.reportCompletion_oracleRequests (s := s) txIds hcomplete
      rw [requested_of_append hrequests]
      simp [releases]
  cancelled := by
    intro jobId state hended henters hreturns
    obtain ⟨w, hwrites, htarget, hjobId⟩ := Operation.target_of_enters henters
    cases op with
    | failJob config j body =>
        rw [show w = _ from hwrites] at hjobId
        rw [requested_of_append (Operation.failJob_oracleRequests htells.1)]
        simp only [JobsWrite.jobId] at hjobId
        simp [cancels, hjobId]
    | cancelJob j =>
        rw [show w = _ from hwrites] at hjobId
        simp only [JobsWrite.jobId] at hjobId
        subst hjobId
        exact absurd hreturns (not_returnsEscrow_cancelJob htells)
    | reportCompletion oracleEnabled txIds jc =>
        rw [show w = _ from hwrites] at htarget
        have hfailed : jc.jobState ≠ .complete := by
          rw [Option.some.inj htarget]
          rcases hended with rfl | rfl <;> decide
        rw [Operation.reportCompletion_after_of_failed oracleEnabled txIds hfailed] at hreturns
        exact absurd hreturns (not_returnsEscrow rfl rfl _)
    | grpcCancelJob req =>
        have haccounts := run_sameIn .creditAccounts (p := (Operation.grpcCancelJob req).program) s
          ⟨rfl, fun _ => trivial, trivial⟩
        have hescrows := run_sameIn .escrows (p := (Operation.grpcCancelJob req).program) s
          ⟨rfl, fun _ => trivial, trivial⟩
        exact absurd hreturns (not_returnsEscrow haccounts hescrows _)
    | migrateOrFailJob txId j providerId =>
        obtain ⟨haccounts, hescrows⟩ := migrateOrFailJob_keeps txId providerId htells
        exact absurd hreturns (not_returnsEscrow haccounts hescrows _)
    | checkStaleProviders txIds =>
        obtain ⟨haccounts, hescrows⟩ := checkStaleProviders_keeps txIds htells
        exact absurd hreturns (not_returnsEscrow haccounts hescrows _)
    | _ => simp_all [Operation.WritesJob] <;> grind [JobsWrite.target]

end NeuralMesh
