import NeuralMesh.Base.Http
import NeuralMesh.Base.Program
import NeuralMesh.Store.Action

/-!
# Handlers of the ledger service

`ledger/src/off_chain/handlers.rs`.
-/

namespace NeuralMesh.Ledger

open Program

abbrev Handler := Program Action.Answer Reply

/-- `map_err(|_| StatusCode::INTERNAL_SERVER_ERROR)?` -/
abbrev askOrError (q : Action) (next : q.Answer → Handler) : Handler :=
  askOr (.error .internalServerError) q next

structure DepositBody where
  amountNmc : ℚ
  reference : Option String

def deposit (txId : TxId) (accountId : AccountId) (body : DepositBody) : Handler :=
  if body.amountNmc ≤ 0 then done (.error .badRequest)
  else
    askOrError (.creditAccounts (.credit accountId body.amountNmc)) fun _ =>
    askOrError (.insertTransaction txId (.deposit accountId body.amountNmc body.reference)) fun _ =>
    done (.json [
      ("ok", .bool true), ("transaction_id", .str txId), ("amount_nmc", .num body.amountNmc)])

structure WithdrawBody where
  amountNmc : ℚ
  destAddress : String

def withdraw (txId : TxId) (accountId : AccountId) (body : WithdrawBody) : Handler :=
  if body.amountNmc ≤ 0 then done (.error .badRequest)
  else
    askOrError (.creditAccounts (.debitIfCovered accountId body.amountNmc)) fun (rows : Nat) =>
    if rows = 0 then
      done (.json [("ok", .bool false), ("message", .str "Insufficient balance")])
    else
      askOrError
        (.insertTransaction txId
          { accountId
            txType := .withdraw
            amountNmc := -body.amountNmc
            withBalance := true
            reference := some body.destAddress
            description := "Withdrawal request" })
        fun _ =>
      done (.json [
        ("ok", .bool true),
        ("transaction_id", .str txId),
        ("message", .str "Withdrawal queued for processing")])

structure EscrowLockBody where
  jobId : JobId
  consumerId : AccountId
  providerId : Option ProviderId
  amountNmc : ℚ

def lockEscrow (escrowId : EscrowId) (body : EscrowLockBody) : Handler :=
  askOrError (.creditAccounts (.lockIfCovered body.consumerId body.amountNmc))
    fun (rows : Nat) =>
  if rows = 0 then
    done (.json [("ok", .bool false), ("message", .str "Insufficient balance for escrow")])
  else
    askOrError
      (.escrows (.insert escrowId body.jobId body.consumerId body.providerId body.amountNmc))
      fun _ =>
    done (.json [("ok", .bool true), ("escrow_id", .str escrowId)])

structure EscrowReleaseBody where
  escrowId : EscrowId
  jobId : JobId
  actualRuntimeS : UInt64
  actualPricePerHour : ℚ

/-- `actual_cost`, at most what is locked. -/
def actualCost (body : EscrowReleaseBody) (locked : ℚ) : ℚ :=
  min (body.actualPricePerHour * ((body.actualRuntimeS.toNat : ℚ) / 3600)) locked

def releaseEscrow (body : EscrowReleaseBody) : Handler :=
  askOrError (.read (.lockedEscrow body.escrowId)) fun (escrow : Option Escrow) =>
  match escrow with
  | none => done (.error .notFound)
  | some escrow =>
      let locked := escrow.lockedNmc
      let cost := actualCost body locked
      let fee := cost * (8 / 100)
      let providerGets := cost - fee
      let consumerRefund := locked - cost
      askOrError (.creditAccounts (.settle escrow.consumerId locked consumerRefund)) fun _ =>
      askOrError (.creditAccounts (.earn (escrow.providerId.getD "") providerGets)) fun _ =>
      askOrError (.escrows (.release body.escrowId)) fun _ =>
      done (.json [
        ("ok", .bool true),
        ("provider_credited", .num providerGets),
        ("consumer_refunded", .num consumerRefund),
        ("platform_fee", .num fee)])

end NeuralMesh.Ledger
