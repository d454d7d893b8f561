import NeuralMesh.Coordinator.Matching

/-!
# The two loops over silent providers

`main.rs` runs `evict_stale_providers` and the heartbeat watcher side by side, each once a minute.
A cycle of the watcher is followed here from statement to statement: `Stage` says how far it is with
the provider it treats, and the rows still ahead of it say the rest.
-/

namespace NeuralMesh.Coordinator

open Program

/-- One cycle of one of the two loops. -/
inductive LoopCycle where
  | evictStale
  | checkStale (txIds : Nat → TxId)

namespace LoopCycle

def program : LoopCycle → Cycle
  | evictStale => evictStaleProviders
  | checkStale txIds => checkStaleProviders txIds

/-- A cycle of the watcher. -/
def OfWatcher : LoopCycle → Prop
  | evictStale => False
  | checkStale _ => True

end LoopCycle

/-- How far a stale check is with a provider; at `scan` it is done with it. -/
inductive Stage where
  | scan
  | look (jobId : JobId) (providerId : ProviderId)
  | requeue (jobId : JobId)
  | giveUp (jobId : JobId) (providerId : ProviderId) (reason : String)
  | refund (jobId : JobId) (providerId : ProviderId)
  | release (jobId : JobId) (providerId : ProviderId) (escrowId : EscrowId) (escrow : Escrow)
  | pay (jobId : JobId) (providerId : ProviderId) (escrowId : EscrowId) (escrow : Escrow)
  | record (jobId : JobId) (providerId : ProviderId) (escrow : Escrow)
  | penalize (providerId : ProviderId)

namespace Stage

/-- After the provider of a row has been taken offline. -/
def ofRow (providerId : ProviderId) : Option JobId → Stage
  | some jobId => look jobId providerId
  | none => scan

section

variable (txId : TxId) (jobId : JobId) (providerId : ProviderId) (next : Cycle)

/-- After the refund, whether it went through or not. -/
def thenPenalize : Cycle := attempt (.providers (.penalize providerId)) next

def thenRecord (escrow : Escrow) : Cycle :=
  askElse (thenPenalize providerId next)
    (.insertTransaction txId
      { accountId := escrow.consumerId
        txType := .escrowRelease
        amountNmc := escrow.lockedNmc
        withBalance := false
        reference := some jobId
        description := "Provider disconnect refund" }) fun _ =>
  thenPenalize providerId next

def thenPay (escrowId : EscrowId) (escrow : Escrow) : Cycle :=
  askElse (thenPenalize providerId next)
    (.creditAccounts (.refund escrowId escrow.consumerId escrow.lockedNmc)) fun _ =>
  thenRecord txId jobId providerId next escrow

end

/-- What the check has left to do, when `next` follows for the rows ahead. -/
def program (txId : TxId) (next : Cycle) : Stage → Cycle
  | scan => next
  | look jobId providerId => migrateOrFailJob txId jobId providerId next
  | requeue jobId => askOr false (.jobs (.requeue jobId)) fun _ => next
  | giveUp jobId providerId reason =>
      askOr false (.jobs (.giveUp jobId reason)) fun _ =>
      refundConsumerEscrow txId jobId (thenPenalize providerId next)
  | refund jobId providerId => refundConsumerEscrow txId jobId (thenPenalize providerId next)
  | release jobId providerId escrowId escrow =>
      askElse (thenPenalize providerId next) (.escrows (.release escrowId)) fun _ =>
      thenPay txId jobId providerId next escrowId escrow
  | pay jobId providerId escrowId escrow => thenPay txId jobId providerId next escrowId escrow
  | record jobId providerId escrow => thenRecord txId jobId providerId next escrow
  | penalize providerId => thenPenalize providerId next

end Stage

end NeuralMesh.Coordinator
