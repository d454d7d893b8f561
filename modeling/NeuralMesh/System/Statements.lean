import NeuralMesh.Coordinator.Reports
import NeuralMesh.System.Operation

/-!
# The statements of each operation

Which statements an operation can issue, whatever it reads and whichever of its statements fail.
-/

namespace NeuralMesh

open Coordinator Program

namespace Operation

def WritesJob : Operation → JobsWrite → Prop
  | submitJob ids body, w => w = .insert ids.jobId body.accountId body.spec
  | cancelJob jobId, w => w = .close jobId .cancelled
  | getAssignedJob _, w => ∃ jobId, w = .start jobId
  | completeJob _ _ jobId body, w => w = .report jobId .complete body.outputHash body.actualRuntimeS
  | failJob _ jobId _, w => w = .close jobId .failed
  | saveCheckpoint _ jobId body, w => ∃ url, w = .checkpoint jobId url body.iteration
  | jobHeartbeat jobId body, w => w = .heartbeat jobId body.providerId
  | acknowledgeJob ja, w => w = .acknowledge ja.jobId ja.wireguardEndpoint (asI32 ja.sshPort.toNat)
  | reportCompletion _ _ jc, w =>
      w = .report jc.jobId jc.jobState jc.outputHash (asI64 jc.actualRuntimeS.toNat)
  | grpcSubmitJob jobId req, w => req.requirements.isSome ∧ ∃ spec, w = .insert jobId req.consumerId spec
  | grpcCancelJob req, w => w = .cancelOwned req.jobId req.consumerId
  | runAuctionCycle, w =>
      ∃ jobId providerId pricePerHour restore, w = .assign jobId providerId pricePerHour restore
  | checkStaleProviders _, w => ∃ jobId, w = .requeue jobId ∨ ∃ reason, w = .giveUp jobId reason
  | migrateOrFailJob _ jobId _, w => w = .requeue jobId ∨ ∃ reason, w = .giveUp jobId reason
  | registerAccount _ _, _ | stripeCredit _ _ _ _, _ | withdraw _ _, _ | registerProvider _, _
  | sendHeartbeat _, _ | evictStaleProviders, _ | ledgerDeposit _ _ _, _ | ledgerWithdraw _ _ _, _
  | lockEscrow _ _, _ | releaseEscrow _, _ => False

def WritesEscrow : Operation → EscrowsWrite → Prop
  | submitJob ids body, w => w = .insert ids.escrowId ids.jobId body.accountId none body.maxCost
  | cancelJob jobId, w => w = .releaseOfJob jobId
  | checkStaleProviders _, w | migrateOrFailJob _ _ _, w => ∃ escrowId, w = .release escrowId
  | lockEscrow escrowId body, w =>
      w = .insert escrowId body.jobId body.consumerId body.providerId body.amountNmc
  | releaseEscrow body, w => w = .release body.escrowId
  | _, _ => False

def WritesProvider : Operation → ProvidersWrite → Prop
  | cancelJob jobId, w => w = .freeOfJob jobId
  | completeJob _ _ _ body, w => w = .freeCompleted body.providerId ∨ w = .trust body.providerId true
  | failJob _ _ body, w => w = .free body.providerId ∨ w = .trust body.providerId false
  | jobHeartbeat _ body, w =>
      w = .seen body.providerId body.gpuUtilPct (asI32 body.ramUsedGb.toNat)
  | registerProvider req, w => ∃ caps, w = .register req.providerId caps
  | sendHeartbeat hb, w =>
      w = .heartbeat hb.providerId (.ofText hb.state) hb.gpuUtilPct (asI32 hb.ramUsedGb.toNat)
        (Grpc.nullIfEmpty hb.activeJobId)
  | reportCompletion _ _ jc, w => ∃ hours, w = .addHours jc.providerId hours
  | runAuctionCycle, w => ∃ providerId jobId, w = .lease providerId jobId
  | checkStaleProviders _, w => ∃ providerId, w = .offline providerId ∨ w = .penalize providerId
  | migrateOrFailJob _ _ providerId, w => w = .penalize providerId
  | evictStaleProviders, w => w = .evict (seconds 90)
  | _, _ => False

def WritesAccount : Operation → AccountsWrite → Prop
  | submitJob _ body, w => w = .lock body.accountId body.maxCost
  | cancelJob jobId, w => ∃ accountId, w = .refundJob jobId accountId
  | completeJob _ _ _ body, w =>
      (∃ amount, w = .earn body.providerId amount) ∨ ∃ accountId amount, w = .charge accountId amount
  | failJob _ jobId _, w => w = .releaseAll jobId
  | registerAccount accountId _, w => w = .register accountId
  | stripeCredit _ _ _ body, w => w = .credit body.accountId body.amountNmc
  | withdraw _ body, w => w = .debit body.accountId body.amountNmc
  | checkStaleProviders _, w | migrateOrFailJob _ _ _, w =>
      ∃ escrowId accountId amount, w = .refund escrowId accountId amount
  | ledgerDeposit _ accountId body, w => w = .credit accountId body.amountNmc
  | ledgerWithdraw _ accountId body, w => w = .debitIfCovered accountId body.amountNmc
  | lockEscrow _ body, w => w = .lockIfCovered body.consumerId body.amountNmc
  | releaseEscrow _, w =>
      (∃ accountId locked refunded, w = .settle accountId locked refunded) ∨
        ∃ providerId amount, w = .earn providerId amount
  | _, _ => False

/-- The operation may insert into `transactions`. -/
def RecordsTransaction : Operation → Prop
  | submitJob _ _ | completeJob _ _ _ _ | stripeCredit _ _ _ _ | withdraw _ _
  | checkStaleProviders _ | migrateOrFailJob _ _ _ | ledgerDeposit _ _ _
  | ledgerWithdraw _ _ _ => True
  | _ => False

/-- The operation may pay rewards for milestones. -/
def PaysMilestones : Operation → Prop
  | reportCompletion _ _ _ => True
  | _ => False

def AsksOracle : Operation → Prop
  | completeJob _ _ _ _ | failJob _ _ _ | reportCompletion _ _ _ => True
  | _ => False

def SavesCheckpoint : Operation → String → JobCheckpoint → Prop
  | saveCheckpoint checkpointId jobId body, id, row =>
      id = checkpointId ∧
        row = ⟨jobId, body.providerId, body.iteration, body.checkpointDir, body.dmtcpFiles,
          body.elapsedSecs⟩
  | _, _, _ => False

/-- The operation may issue the statement. -/
def MayIssue (op : Operation) : Action → Prop
  | .jobs w => op.WritesJob w
  | .escrows w => op.WritesEscrow w
  | .providers w => op.WritesProvider w
  | .creditAccounts w => op.WritesAccount w
  | .insertTransaction _ _ => op.RecordsTransaction
  | .insertMilestone _ _ _ | .ledgerDeposit _ _ _ _ => op.PaysMilestones
  | .insertCheckpoint checkpointId row => op.SavesCheckpoint checkpointId row
  | .oracle _ => op.AsksOracle
  | .read _ | .insertDeposit _ | .insertAccount _ _ => True

/-- The statement is none of the three tables', or one the operation issues. -/
def Issues (op : Operation) : Action → Prop
  | .jobs w => op.WritesJob w
  | .escrows w => op.WritesEscrow w
  | .providers w => op.WritesProvider w
  | _ => True

/-! ### The loops -/

theorem assignQueued_mayIssue (queued : List (JobId × Job)) :
    (assignQueued queued).Uses runAuctionCycle.MayIssue := by
  induction queued with
  | nil => trivial
  | cons row queued ih =>
      obtain ⟨jobId, job⟩ := row
      refine ⟨trivial, fun candidates => ?_, ih⟩
      dsimp only
      cases bestCandidate (job.spec.maxPricePerHour.getD f64Max) candidates with
      | none => exact ih
      | some best =>
          exact ⟨⟨_, _, _, _, rfl⟩, fun _ => ⟨⟨_, _, rfl⟩, fun _ => ih, trivial⟩, trivial⟩

/-- The operation may treat a job whose provider disconnected. -/
structure TreatsLost (op : Operation) (jobId : JobId) (providerId : ProviderId) : Prop where
  requeue : op.WritesJob (.requeue jobId)
  giveUp : ∀ reason, op.WritesJob (.giveUp jobId reason)
  release : ∀ escrowId, op.WritesEscrow (.release escrowId)
  refund : ∀ escrowId accountId amount, op.WritesAccount (.refund escrowId accountId amount)
  record : op.RecordsTransaction
  penalize : op.WritesProvider (.penalize providerId)

theorem refundConsumerEscrow_mayIssue {op : Operation} {txId : TxId} {jobId : JobId}
    {providerId : ProviderId} {next : Cycle} (htreats : op.TreatsLost jobId providerId)
    (hnext : next.Uses op.MayIssue) :
    (Coordinator.refundConsumerEscrow txId jobId next).Uses op.MayIssue := by
  refine ⟨trivial, fun escrow => ?_, hnext⟩
  cases escrow with
  | none => exact hnext
  | some row =>
      exact ⟨htreats.release _, fun _ => ⟨htreats.refund _ _ _, fun _ => ⟨htreats.record,
        fun _ => hnext, hnext⟩, hnext⟩, hnext⟩

theorem migrateOrFailJob_mayIssue {op : Operation} {txId : TxId} {jobId : JobId}
    {providerId : ProviderId} {next : Cycle} (htreats : op.TreatsLost jobId providerId)
    (hnext : next.Uses op.MayIssue) :
    (Coordinator.migrateOrFailJob txId jobId providerId next).Uses op.MayIssue := by
  refine ⟨trivial, fun job => ?_, trivial⟩
  cases job with
  | none => exact hnext
  | some job =>
      dsimp only
      split
      · exact hnext
      split
      · exact ⟨htreats.requeue, fun _ => hnext, trivial⟩
      · refine ⟨htreats.giveUp _, fun _ => ?_, trivial⟩
        exact refundConsumerEscrow_mayIssue htreats ⟨htreats.penalize, fun _ => hnext, hnext⟩

theorem migrateStale_mayIssue (txIds : Nat → TxId) (n : Nat)
    (stale : List (ProviderId × Option JobId)) :
    (migrateStale txIds n stale).Uses (checkStaleProviders txIds).MayIssue := by
  induction stale generalizing n with
  | nil => trivial
  | cons row stale ih =>
      obtain ⟨providerId, activeJobId⟩ := row
      refine ⟨⟨providerId, .inl rfl⟩, fun _ => ?_, trivial⟩
      cases activeJobId with
      | none => exact ih (n + 1)
      | some jobId =>
          refine migrateOrFailJob_mayIssue ⟨⟨jobId, .inl rfl⟩,
            fun reason => ⟨jobId, .inr ⟨reason, rfl⟩⟩, fun escrowId => ⟨escrowId, rfl⟩,
            fun _ _ _ => ⟨_, _, _, rfl⟩, trivial, ⟨providerId, .inr rfl⟩⟩ (ih (n + 1))

/-! ### All operations -/

theorem reportCompletion_mayIssue (oracleEnabled : Bool) (txIds : Int → TxId)
    (jc : Grpc.JobComplete) :
    (Grpc.reportCompletion oracleEnabled txIds jc).Uses
      (reportCompletion oracleEnabled txIds jc).MayIssue := by
  refine ⟨rfl, fun _ => ?_, trivial⟩
  dsimp only
  split
  · exact Grpc.rewardHours_uses (fun _ => ⟨_, rfl⟩) trivial (fun _ _ _ => trivial)
      (fun _ _ => trivial) (Grpc.settle_uses trivial fun _ => trivial)
  · exact Grpc.settle_uses trivial fun _ => trivial

theorem program_mayIssue (op : Operation) : op.program.Uses op.MayIssue := by
  cases op with
  | submitJob ids body =>
      rw [program, uses_forget]
      refine ⟨trivial, fun credit => ?_, trivial⟩
      dsimp only
      split
      · trivial
      · exact ⟨rfl, fun _ => ⟨rfl, fun _ => ⟨rfl, fun _ => ⟨trivial, fun _ => trivial, trivial⟩,
          trivial⟩, trivial⟩, trivial⟩
  | cancelJob jobId =>
      rw [program, uses_forget]
      refine ⟨trivial, fun job => ?_, trivial⟩
      cases job with
      | none => trivial
      | some job =>
          dsimp only
          split
          · trivial
          · exact ⟨rfl, fun _ => ⟨⟨_, rfl⟩, fun _ => ⟨rfl, fun _ => ⟨rfl, fun _ => trivial,
              trivial⟩, trivial⟩, trivial⟩, trivial⟩
  | getAssignedJob providerId =>
      rw [program, uses_forget]
      refine ⟨trivial, fun job => ?_, trivial⟩
      cases job with
      | none => trivial
      | some row => exact ⟨⟨row.1, rfl⟩, fun _ => trivial, trivial⟩
  | completeJob config txId jobId body =>
      rw [program, uses_forget]
      refine ⟨trivial, fun job => ?_, trivial⟩
      cases job with
      | none => trivial
      | some job =>
          refine ⟨rfl, fun _ => ⟨.inl ⟨_, rfl⟩, fun _ => ⟨.inr ⟨_, _, rfl⟩, fun _ =>
            ⟨.inl rfl, fun _ => ⟨trivial, fun _ => ?_, trivial⟩, trivial⟩, trivial⟩, trivial⟩,
            trivial⟩
          dsimp only
          split
          · exact ⟨.inr rfl, fun _ => ⟨trivial, fun _ => trivial, trivial⟩,
              ⟨trivial, fun _ => trivial, trivial⟩⟩
          · exact ⟨.inr rfl, fun _ => trivial, trivial⟩
  | failJob config jobId body =>
      rw [program, uses_forget]
      refine ⟨rfl, fun _ => ⟨rfl, fun _ => ⟨.inl rfl, fun _ => ?_, trivial⟩, trivial⟩, trivial⟩
      have hsettle : (if config.oracleEnabled then
          attempt (.oracle (.cancelEscrow jobId))
            (done (.json [("ok", .bool true), ("job_id", .str jobId)]))
          else done (.json [("ok", .bool true), ("job_id", .str jobId)]) :
            Coordinator.Handler).Uses (failJob config jobId body).MayIssue := by
        split
        · exact ⟨trivial, fun _ => trivial, trivial⟩
        · trivial
      dsimp only
      split
      · exact ⟨.inr rfl, fun _ => hsettle, hsettle⟩
      · exact hsettle
  | saveCheckpoint checkpointId jobId body =>
      rw [program, uses_forget]
      exact ⟨⟨rfl, rfl⟩, fun _ => ⟨⟨_, rfl⟩, fun _ => trivial, trivial⟩, trivial⟩
  | jobHeartbeat jobId body =>
      rw [program, uses_forget]
      exact ⟨rfl, fun _ => ⟨rfl, fun _ => trivial, trivial⟩, trivial⟩
  | registerAccount accountId body =>
      rw [program, uses_forget, Coordinator.registerAccount]
      split
      · trivial
      · exact ⟨trivial, fun _ => ⟨rfl, fun _ => trivial, trivial⟩, trivial⟩
  | stripeCredit config authorization txId body =>
      rw [program, uses_forget, Coordinator.stripeCredit]
      split
      · trivial
      split
      · trivial
      refine ⟨trivial, fun already => ?_, trivial⟩
      dsimp only
      split
      · trivial
      · exact ⟨rfl, fun _ => ⟨trivial, fun _ => ⟨trivial, fun _ => trivial, trivial⟩, trivial⟩,
          trivial⟩
  | withdraw txId body =>
      rw [program, uses_forget, Coordinator.withdraw]
      split
      · trivial
      split
      · trivial
      refine ⟨trivial, fun credit => ?_, trivial⟩
      dsimp only
      split
      · trivial
      · exact ⟨rfl, fun _ => ⟨trivial, fun _ => trivial, trivial⟩, trivial⟩
  | registerProvider req =>
      rw [program, uses_forget, Grpc.registerProvider]
      split
      · trivial
      split
      · trivial
      · exact ⟨⟨_, rfl⟩, fun _ => trivial, trivial⟩
  | sendHeartbeat hb =>
      rw [program, uses_forget]
      exact ⟨rfl, fun _ => trivial, trivial⟩
  | acknowledgeJob ja =>
      rw [program, uses_forget]
      exact ⟨rfl, fun _ => trivial, trivial⟩
  | reportCompletion oracleEnabled txIds jc =>
      rw [program, uses_forget]
      exact reportCompletion_mayIssue oracleEnabled txIds jc
  | grpcSubmitJob jobId req =>
      rw [program, uses_forget, Grpc.submitJob]
      split
      · trivial
      · rename_i reqs hreqs
        exact ⟨⟨by rw [hreqs]; rfl, _, rfl⟩, fun _ => trivial, trivial⟩
  | grpcCancelJob req =>
      rw [program, uses_forget]
      exact ⟨rfl, fun _ => trivial, trivial⟩
  | runAuctionCycle =>
      rw [program, uses_forget]
      exact ⟨trivial, fun queued => assignQueued_mayIssue queued, trivial⟩
  | checkStaleProviders txIds =>
      rw [program, uses_forget]
      exact ⟨trivial, fun stale => migrateStale_mayIssue txIds 0 stale, trivial⟩
  | migrateOrFailJob txId jobId providerId =>
      rw [program, uses_forget]
      exact migrateOrFailJob_mayIssue ⟨.inl rfl, fun reason => .inr ⟨reason, rfl⟩,
        fun escrowId => ⟨escrowId, rfl⟩, fun _ _ _ => ⟨_, _, _, rfl⟩, trivial, rfl⟩ trivial
  | evictStaleProviders =>
      rw [program, uses_forget]
      exact ⟨rfl, fun _ => trivial, trivial⟩
  | ledgerDeposit txId accountId body =>
      rw [program, uses_forget, Ledger.deposit]
      split
      · trivial
      · exact ⟨rfl, fun _ => ⟨trivial, fun _ => trivial, trivial⟩, trivial⟩
  | ledgerWithdraw txId accountId body =>
      rw [program, uses_forget, Ledger.withdraw]
      split
      · trivial
      refine ⟨rfl, fun rows => ?_, trivial⟩
      dsimp only
      split
      · trivial
      · exact ⟨trivial, fun _ => trivial, trivial⟩
  | lockEscrow escrowId body =>
      rw [program, uses_forget]
      refine ⟨rfl, fun rows => ?_, trivial⟩
      dsimp only
      split
      · trivial
      · exact ⟨rfl, fun _ => trivial, trivial⟩
  | releaseEscrow body =>
      rw [program, uses_forget]
      refine ⟨trivial, fun escrow => ?_, trivial⟩
      cases escrow with
      | none => trivial
      | some escrow =>
          exact ⟨.inl ⟨_, _, _, rfl⟩, fun _ => ⟨.inr ⟨_, _, rfl⟩, fun _ => ⟨rfl, fun _ => trivial,
            trivial⟩, trivial⟩, trivial⟩

theorem MayIssue.issues {op : Operation} {q : Action} (hmay : op.MayIssue q) : op.Issues q := by
  cases q <;> first | exact hmay | trivial

theorem program_issues (op : Operation) : op.program.Uses op.Issues :=
  Uses.mono (fun _ => MayIssue.issues) op.program_mayIssue

/-- Jobs that do not come over gRPC are inserted by a submission with a body. -/
theorem program_inserts_body {op : Operation} (hnot : ∀ jobId req, op ≠ .grpcSubmitJob jobId req) :
    op.program.Uses fun q => ∀ k consumerId spec, q = .jobs (.insert k consumerId spec) →
      ∃ ids body, op = .submitJob ids body ∧ k = ids.jobId ∧ spec = body.spec := by
  refine Uses.mono (fun q hmay k consumerId spec heq => ?_) (program_mayIssue _)
  subst heq
  cases op with
  | submitJob ids body =>
      cases (hmay : JobsWrite.insert k consumerId spec = _)
      exact ⟨ids, body, rfl, rfl, rfl⟩
  | grpcSubmitJob jobId req => exact absurd rfl (hnot jobId req)
  | _ => simp [MayIssue, WritesJob] at hmay

end Operation

end NeuralMesh
