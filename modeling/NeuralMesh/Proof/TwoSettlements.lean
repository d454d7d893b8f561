import NeuralMesh.Proof.LedgerBalance
import NeuralMesh.System.Operation
import Mathlib.Tactic.Linarith

/-!
# The two off-chain settlements

The coordinator settles a job when its provider reports it complete, the ledger when it releases the
escrow row. Both compute the cost as price times runtime and pay 92% of it to a provider. The ledger
caps the cost at what is locked, returns the remainder to the consumer and takes all of the lock out
of escrow; the coordinator does none of the three.
-/

namespace NeuralMesh

open Program

/-- A job that its provider can report, the row locked for it, and the balances of its parties. -/
structure Due (s : Db) where
  jobId : JobId
  job : Job
  provider : ProviderId
  price : ℚ
  escrowId : EscrowId
  escrow : Escrow
  consumerRow : CreditAccount
  available : ℚ
  escrowed : ℚ
  job_get : s.jobs.get? jobId = some job
  job_provider : job.providerId = some provider
  job_price : job.pricePerHour = some price
  price_nonneg : 0 ≤ price
  escrow_get : s.escrows.get? escrowId = some escrow
  escrow_job : escrow.jobId = jobId
  escrow_consumer : escrow.consumerId = job.consumerId
  escrow_locked : escrow.state = .locked
  consumer_get : s.creditAccounts.get? job.consumerId = some consumerRow
  consumer_available : consumerRow.availableNmc = some available
  consumer_escrowed : consumerRow.escrowedNmc = some escrowed
  provider_available : ∀ row ∈ s.creditAccounts.get? provider, row.availableNmc.isSome

namespace Due

variable {s : Db} (due : Due s)

/-- The account the ledger pays. -/
def payee : AccountId := due.escrow.providerId.getD ""

/-- Price times runtime. -/
def gross (runtime : UInt64) : ℚ := due.price * ((runtime.toNat : ℚ) / 3600)

def complete (config : Coordinator.Config) (txId : TxId) (exitCode : Int) (outputHash : String)
    (runtime : UInt64) : Db :=
  ((Coordinator.completeJob config txId due.jobId
    ⟨due.provider, exitCode, outputHash, runtime.toNat⟩).run Action.exec s).2

def release (runtime : UInt64) : Db :=
  ((Ledger.releaseEscrow ⟨due.escrowId, due.jobId, runtime, due.price⟩).run Action.exec s).2

/-- The consumer's `available_nmc` and `escrowed_nmc` and the provider's `available_nmc`. -/
def balances (t : Db) : Option (Option ℚ) × Option (Option ℚ) × Option (Option ℚ) :=
  ((t.creditAccounts.get? due.job.consumerId).map CreditAccount.availableNmc,
    (t.creditAccounts.get? due.job.consumerId).map CreditAccount.escrowedNmc,
    (t.creditAccounts.get? due.provider).map CreditAccount.availableNmc)

/-- The lock is the cost, it is in escrow and its row names the provider; or nothing is due. -/
def Matches (runtime : UInt64) : Prop :=
  due.payee = due.provider ∧ due.gross runtime = due.escrow.lockedNmc ∧
      due.escrow.lockedNmc ≤ due.escrowed ∨
    due.payee ≠ due.provider ∧ due.gross runtime = 0 ∧
      (s.creditAccounts.get? due.provider).isSome ∧
      (due.escrow.lockedNmc = 0 ∧ 0 ≤ due.escrowed ∨
        due.escrow.lockedNmc < 0 ∧ due.escrowed = due.escrow.lockedNmc ∧
          due.payee ≠ due.job.consumerId)

theorem gross_nonneg (runtime : UInt64) : 0 ≤ due.gross runtime :=
  mul_nonneg due.price_nonneg (by positivity)

theorem complete_accounts (config : Coordinator.Config) (txId : TxId) (exitCode : Int)
    (outputHash : String) (runtime : UInt64) :
    let net := due.gross runtime * (1 - Coordinator.platformFee)
    (due.complete config txId exitCode outputHash runtime).creditAccounts =
      (s.creditAccounts.upsert due.provider (.opened net net) (.earn net)).update
        due.job.consumerId (.charge (due.gross runtime)) := by
  intro net
  have hfound : ((s.jobs.get? due.jobId).filter fun j => j.providerId = some due.provider) =
      some due.job := by
    rw [due.job_get, Option.filter_some, if_pos (decide_eq_true due.job_provider)]
  have hgross : Coordinator.grossNmc due.job
      ⟨due.provider, exitCode, outputHash, runtime.toNat⟩ = due.gross runtime := by
    rw [Coordinator.grossNmc, due.job_price, gross]
    rfl
  have hbooks := Coordinator.completeJob_books s config txId due.jobId
    ⟨due.provider, exitCode, outputHash, runtime.toNat⟩
  dsimp only at hbooks
  rw [hfound] at hbooks
  dsimp only at hbooks
  rw [hgross] at hbooks
  exact congrArg Books.accounts hbooks

theorem release_accounts (runtime : UInt64) :
    let cost := min (due.gross runtime) due.escrow.lockedNmc
    let net := cost - cost * (8 / 100)
    (due.release runtime).creditAccounts =
      (s.creditAccounts.update due.job.consumerId
        (.settle due.escrow.lockedNmc (due.escrow.lockedNmc - cost))).upsert
          due.payee (.opened net net) (.earn net) := by
  intro cost net
  rcases Ledger.releaseEscrow_run s ⟨due.escrowId, due.jobId, runtime, due.price⟩ with
    hnone | ⟨e, he, -, -, haccounts, -⟩
  · -- the row is there and locked
    have hread : Action.exec (.read (.lockedEscrow due.escrowId)) s = some (some due.escrow, s) := by
      simp only [Action.exec, Read.eval, due.escrow_get, Option.filter_some, due.escrow_locked,
        decide_true, if_true]
    rw [Ledger.releaseEscrow, run_query_of_some _ hread] at hnone
    cases congrArg Prod.fst hnone
  · have hrow : e = due.escrow := by
      rw [Option.mem_def, due.escrow_get] at he
      exact (Option.some.inj he).symm
    subst hrow
    rw [← due.escrow_consumer]
    exact haccounts

/-- The provider's balance, zero without an account. -/
def providerBalance : ℚ := Coordinator.availableOrZero s.creditAccounts due.provider

theorem provider_cases :
    s.creditAccounts.get? due.provider = none ∧ due.providerBalance = 0 ∨
      ∃ row, s.creditAccounts.get? due.provider = some row ∧
        row.availableNmc = some due.providerBalance := by
  cases hrow : s.creditAccounts.get? due.provider with
  | none =>
      left
      rw [providerBalance, Coordinator.availableOrZero, hrow]
      exact ⟨rfl, rfl⟩
  | some row =>
      right
      obtain ⟨x, hx⟩ := Option.isSome_iff_exists.mp (due.provider_available row hrow)
      refine ⟨row, rfl, ?_⟩
      rw [providerBalance, Coordinator.availableOrZero_of_get? hrow, hx]
      rfl

theorem complete_balances (config : Coordinator.Config) (txId : TxId) (exitCode : Int)
    (outputHash : String) (runtime : UInt64) :
    let net := due.gross runtime * (1 - Coordinator.platformFee)
    due.balances (due.complete config txId exitCode outputHash runtime) =
      (some (some (due.available + if due.job.consumerId = due.provider then net else 0)),
        some (some (max 0 (due.escrowed - due.gross runtime))),
        some (some (due.providerBalance + net))) := by
  intro net
  rw [balances, due.complete_accounts]
  simp only [Table.get?_update, Table.get?_upsert, if_true]
  refine Prod.ext ?_ (Prod.ext ?_ ?_)
  · dsimp only
    split
    · rename_i hself
      rw [← hself, due.consumer_get]
      simp [CreditAccount.earn, CreditAccount.charge, due.consumer_available, net]
    · rw [due.consumer_get]
      simp [CreditAccount.charge, due.consumer_available]
  · dsimp only
    split
    · rename_i hself
      rw [← hself, due.consumer_get]
      simp [CreditAccount.earn, CreditAccount.charge, due.consumer_escrowed]
    · rw [due.consumer_get]
      simp [CreditAccount.charge, due.consumer_escrowed]
  · dsimp only
    rcases due.provider_cases with ⟨hnone, hzero⟩ | ⟨row, hrow, hbalance⟩
    · have hother : due.provider ≠ due.job.consumerId := by
        intro hself
        rw [hself, due.consumer_get] at hnone
        cases hnone
      rw [if_neg hother, hnone, hzero, zero_add]
      rfl
    · rw [hrow]
      split
      · rename_i hself
        rw [if_pos hself.symm]
        simp [CreditAccount.earn, CreditAccount.charge, hbalance, net]
      · simp [CreditAccount.earn, hbalance, net]

theorem release_balances (runtime : UInt64) :
    let cost := min (due.gross runtime) due.escrow.lockedNmc
    let net := cost - cost * (8 / 100)
    let refund := due.escrow.lockedNmc - cost
    due.balances (due.release runtime) =
      (some (some (due.available + refund + if due.job.consumerId = due.payee then net else 0)),
        some (some (due.escrowed - due.escrow.lockedNmc)),
        if due.provider = due.payee then
          some (some (due.providerBalance +
            (if due.provider = due.job.consumerId then refund else 0) + net))
        else (s.creditAccounts.get? due.provider).map fun _ =>
          some (due.providerBalance +
            if due.provider = due.job.consumerId then refund else 0)) := by
  intro cost net refund
  rw [balances, due.release_accounts]
  simp only [Table.get?_update, Table.get?_upsert, if_true]
  refine Prod.ext ?_ (Prod.ext ?_ ?_)
  · dsimp only
    split
    · rename_i hself
      rw [if_pos hself.symm, due.consumer_get]
      simp [CreditAccount.earn, CreditAccount.settle, due.consumer_available, net, refund, cost]
    · rw [due.consumer_get]
      simp [CreditAccount.settle, due.consumer_available, refund, cost]
  · dsimp only
    split
    · rename_i hself
      rw [if_pos hself.symm, due.consumer_get]
      simp [CreditAccount.earn, CreditAccount.settle, due.consumer_escrowed]
    · rw [due.consumer_get]
      simp [CreditAccount.settle, due.consumer_escrowed]
  · dsimp only
    rcases due.provider_cases with ⟨hnone, hzero⟩ | ⟨row, hrow, hbalance⟩
    · have hother : due.provider ≠ due.job.consumerId := by
        intro hself
        rw [hself, due.consumer_get] at hnone
        cases hnone
      by_cases hpayee : due.provider = due.payee
      · rw [if_pos hpayee, if_pos hpayee, ← hpayee, if_neg hother, if_neg hother, hnone, hzero]
        simp [CreditAccount.opened, net, cost]
      · rw [if_neg hpayee, if_neg hpayee, if_neg hother, hnone]
        rfl
    · by_cases hpayee : due.provider = due.payee
      · rw [if_pos hpayee, if_pos hpayee, ← hpayee]
        by_cases hself : due.provider = due.job.consumerId
        · rw [if_pos hself, if_pos hself, ← hself, hrow]
          simp [CreditAccount.earn, CreditAccount.settle, hbalance, net, refund, cost]
        · rw [if_neg hself, if_neg hself, hrow]
          simp [CreditAccount.earn, hbalance, net, cost]
      · rw [if_neg hpayee, if_neg hpayee]
        by_cases hself : due.provider = due.job.consumerId
        · rw [if_pos hself, if_pos hself, ← hself, hrow]
          simp [CreditAccount.settle, hbalance, refund, cost]
        · rw [if_neg hself, if_neg hself, hrow]
          simp [hbalance]

/-! ### Where the two agree -/

section Arithmetic

variable {g l x y w : ℚ}

/-- What is left in escrow agrees, given what the consumer gets back. -/
theorem escrow_agrees_iff :
    g = l ∧ max 0 (y - g) = y - l ↔ g = l ∧ l ≤ y := by
  apply and_congr_right
  rintro rfl
  rw [max_eq_right_iff, sub_nonneg]

/-- The row names the provider. -/
theorem named_agrees_iff (self : Prop) [Decidable self] :
    (x + (if self then g * (1 - 8 / 100) else 0) =
        x + (l - min g l) + (if self then min g l - min g l * (8 / 100) else 0) ∧
      max 0 (y - g) = y - l ∧
      w + g * (1 - 8 / 100) =
        w + (if self then l - min g l else 0) + (min g l - min g l * (8 / 100))) ↔
      g = l ∧ l ≤ y := by
  rw [← escrow_agrees_iff]
  constructor
  · rintro ⟨hconsumer, hescrow, hprovider⟩
    refine ⟨?_, hescrow⟩
    rcases le_total g l with hle | hle
    · rw [min_eq_left hle] at hconsumer hprovider
      split at hconsumer <;> linarith
    · rw [min_eq_right hle] at hconsumer hprovider
      split at hprovider <;> linarith
  · rintro ⟨rfl, hescrow⟩
    rw [min_self]
    refine ⟨?_, hescrow, ?_⟩
    · split <;> ring
    · split <;> ring

/-- Two settlements that pay different accounts agree on nothing but a cost of zero. -/
theorem gross_eq_zero (hgross : 0 ≤ g) (self : Prop) [Decidable self]
    (hconsumer : self → g * (1 - 8 / 100) = l - min g l) (hescrow : max 0 (y - g) = y - l)
    (hprovider : g * (1 - 8 / 100) = if self then l - min g l else 0) : g = 0 := by
  split at hprovider
  · rename_i hself
    have hpaid := hconsumer hself
    rcases le_total g l with hle | hle
    · rw [min_eq_left hle] at hpaid
      rcases le_total 0 (y - g) with hleft | hleft
      · rw [max_eq_right hleft] at hescrow
        linarith
      · rw [max_eq_left hleft] at hescrow
        linarith
    · rw [min_eq_right hle] at hpaid
      linarith
  · linarith

/-- With nothing due, the ledger returns a positive lock and debits a negative one. -/
theorem zero_agrees_iff (paid : Prop) [Decidable paid] :
    (0 = l - min 0 l + (if paid then min 0 l - min 0 l * (8 / 100) else 0) ∧ max 0 y = y - l) ↔
      l = 0 ∧ 0 ≤ y ∨ l < 0 ∧ y = l ∧ ¬ paid := by
  constructor
  · rintro ⟨hconsumer, hescrow⟩
    rcases lt_or_ge l 0 with hneg | hpos
    · right
      rw [min_eq_right hneg.le] at hconsumer
      refine ⟨hneg, ?_, ?_⟩
      · rcases le_total 0 y with hy | hy
        · rw [max_eq_right hy] at hescrow
          linarith
        · rw [max_eq_left hy] at hescrow
          linarith
      · intro hpaid
        rw [if_pos hpaid] at hconsumer
        linarith
    · left
      rw [min_eq_left hpos] at hconsumer
      have hzero : l = 0 := by split at hconsumer <;> linarith
      rw [hzero, sub_zero, max_eq_right_iff] at hescrow
      exact ⟨hzero, hescrow⟩
  · rintro (⟨rfl, hy⟩ | ⟨hneg, rfl, hpaid⟩)
    · rw [min_self, max_eq_right hy]
      constructor
      · split <;> norm_num
      · ring
    · rw [min_eq_right hneg.le, max_eq_left hneg.le, if_neg hpaid]
      constructor <;> ring

/-- The row names somebody else. -/
theorem other_agrees_iff (hgross : 0 ≤ g) (self paid : Prop) [Decidable self] [Decidable paid]
    (hdisjoint : self → ¬ paid) :
    (x + (if self then g * (1 - 8 / 100) else 0) =
        x + (l - min g l) + (if paid then min g l - min g l * (8 / 100) else 0) ∧
      max 0 (y - g) = y - l ∧
      w + g * (1 - 8 / 100) = w + (if self then l - min g l else 0)) ↔
      g = 0 ∧ (l = 0 ∧ 0 ≤ y ∨ l < 0 ∧ y = l ∧ ¬ paid) := by
  rw [← zero_agrees_iff]
  constructor
  · rintro ⟨hconsumer, hescrow, hprovider⟩
    have hzero : g = 0 := by
      refine gross_eq_zero hgross self (fun hself => ?_) hescrow ?_
      · rw [if_pos hself, if_neg (hdisjoint hself)] at hconsumer
        linarith
      · exact add_left_cancel hprovider
    subst hzero
    refine ⟨rfl, ?_, ?_⟩
    · rw [zero_mul, ite_self, add_zero, add_assoc] at hconsumer
      linarith
    · rwa [sub_zero] at hescrow
  · rintro ⟨rfl, hconsumer, hescrow⟩
    refine ⟨?_, ?_, ?_⟩
    · rw [zero_mul, ite_self, add_zero, add_assoc, ← hconsumer, add_zero]
    · rwa [sub_zero]
    · rw [zero_mul, add_zero]
      split
      · rename_i hself
        rw [if_neg (hdisjoint hself), add_zero] at hconsumer
        rw [← hconsumer, add_zero]
      · rw [add_zero]

end Arithmetic

/-- The two settlements leave the same balances just where the lock is the cost, is in escrow and
its row names the provider, or where nothing is due. -/
theorem settlements_agree_iff (config : Coordinator.Config) (txId : TxId) (exitCode : Int)
    (outputHash : String) (runtime : UInt64) :
    due.balances (due.complete config txId exitCode outputHash runtime) =
      due.balances (due.release runtime) ↔ due.Matches runtime := by
  have hgross := due.gross_nonneg runtime
  rw [due.complete_balances, due.release_balances, Matches]
  simp only [Prod.mk.injEq, Option.some.injEq, Coordinator.platformFee]
  by_cases hpayee : due.payee = due.provider
  · rw [if_pos hpayee.symm, hpayee]
    simp only [Option.some.injEq, eq_comm (a := due.provider), ne_eq, not_true_eq_false, false_and,
      or_false, true_and]
    exact named_agrees_iff _
  · rw [if_neg (Ne.symm hpayee)]
    cases hprovider : s.creditAccounts.get? due.provider with
    | none => simp [hpayee]
    | some row =>
        simp only [Option.map_some, Option.some.injEq, eq_comm (a := due.provider), hpayee,
          Option.isSome_some, true_and, ne_eq, not_false_eq_true, false_and, false_or,
          eq_comm (a := due.payee)]
        apply other_agrees_iff hgross
        intro hself hpaid
        exact hpayee (hpaid.symm.trans hself)

end Due

/-! ### A job that costs half of its lock -/

/-- The coordinator keeps the other half in escrow. -/
theorem settlements_disagree :
    ∃ (s : Db) (due : Due s), Reachable s ∧
      due.balances (due.complete ⟨none, false⟩ "t" 0 "hash" 1800) ≠
        due.balances (due.release 1800) := by
  have hreach : Reachable (afterAll assigned Db.init) :=
    Run.afterAll ⟨trivial, trivial, trivial, trivial, trivial, trivial⟩
  have hjobs : ((afterAll assigned Db.init).jobs.get? "a").map
      (fun job => (job.consumerId, job.providerId, job.pricePerHour)) =
      some ("alice", some "p", some 5) := by decide +kernel
  have hescrows : ((afterAll assigned Db.init).escrows.get? "escrow-a") =
      some ⟨"a", "alice", none, 5, .locked⟩ := by decide +kernel
  have haccounts : ((afterAll assigned Db.init).creditAccounts.get? "alice") =
      some ⟨some 5, some 5, some 0, some 0⟩ := by decide +kernel
  have hprovider : ((afterAll assigned Db.init).creditAccounts.get? "p") = none := by
    decide +kernel
  generalize afterAll assigned Db.init = s at *
  obtain ⟨job, hjob, hcolumns⟩ := Option.map_eq_some_iff.mp hjobs
  obtain ⟨hconsumer, hprovided, hprice⟩ : job.consumerId = "alice" ∧ job.providerId = some "p" ∧
      job.pricePerHour = some 5 := by simpa using hcolumns
  let due : Due s :=
    { jobId := "a"
      job
      provider := "p"
      price := 5
      escrowId := "escrow-a"
      escrow := ⟨"a", "alice", none, 5, .locked⟩
      consumerRow := ⟨some 5, some 5, some 0, some 0⟩
      available := 5
      escrowed := 5
      job_get := hjob
      job_provider := hprovided
      job_price := hprice
      price_nonneg := by norm_num
      escrow_get := hescrows
      escrow_job := rfl
      escrow_consumer := hconsumer.symm
      escrow_locked := rfl
      consumer_get := by rw [hconsumer, haccounts]
      consumer_available := rfl
      consumer_escrowed := rfl
      provider_available := by simp [hprovider] }
  refine ⟨s, due, hreach, ?_⟩
  have hgross : due.gross 1800 = 5 / 2 := by
    have hruntime : UInt64.toNat 1800 = 1800 := rfl
    rw [Due.gross, hruntime]
    norm_num [due]
  rw [due.complete_balances, due.release_balances, hgross]
  intro hsame
  have hescrowed : max 0 ((5 : ℚ) - 5 / 2) = 5 - 5 :=
    Option.some.inj (Option.some.inj (Prod.mk.inj (Prod.mk.inj hsame).2).1)
  norm_num at hescrowed

end NeuralMesh
