import NeuralMesh.Coordinator.Books
import NeuralMesh.System.Operation
import Mathlib.Tactic.Linarith

/-!
# The job lifecycle and the credits in circulation

`Db.totalNmc` is everything the accounts own. Submitting, cancelling, completing and failing jobs,
and the watcher's refunds, move credits between three tables; each operation creates credits from
some databases, and `KeepsTotal` says from which ones it does not.
-/

namespace NeuralMesh

open Coordinator

/-- What the ledger's balance endpoint reports as `total_nmc`. -/
def CreditAccount.total (a : CreditAccount) : ℚ := a.availableNmc.getD 0 + a.escrowedNmc.getD 0

def totalNmc (accounts : Table AccountId CreditAccount) : ℚ := accounts.sum fun _ a => a.total

def Db.totalNmc (s : Db) : ℚ := NeuralMesh.totalNmc s.creditAccounts

theorem totalNmc_update (accounts : Table AccountId CreditAccount) (c : AccountId)
    (f : CreditAccount → CreditAccount) :
    totalNmc (accounts.update c f) =
      totalNmc accounts + (accounts.get? c).elim 0 fun a => (f a).total - a.total :=
  Table.sum_update _ _ _ _

theorem totalNmc_upsert (accounts : Table AccountId CreditAccount) (c : AccountId)
    (a : CreditAccount) (f : CreditAccount → CreditAccount) :
    totalNmc (accounts.upsert c a f) =
      totalNmc accounts + (accounts.get? c).elim a.total fun b => (f b).total - b.total :=
  Table.sum_upsert _ _ _ _ _

theorem totalNmc_update_le_iff {accounts : Table AccountId CreditAccount} {c : AccountId}
    {f : CreditAccount → CreditAccount} :
    totalNmc (accounts.update c f) ≤ totalNmc accounts ↔
      ∀ a ∈ accounts.get? c, (f a).total ≤ a.total := by
  rw [totalNmc_update]
  cases accounts.get? c with
  | none => simp
  | some a => simp

theorem Db.Shuffled.totalNmc_eq {s t : Db} (hshuffled : s.Shuffled t) :
    t.totalNmc = s.totalNmc :=
  (hshuffled.creditAccounts.sum_eq fun _ a => a.total).symm

/-! ### One account -/

namespace CreditAccount

theorem total_lock {a : CreditAccount} {amount : ℚ} (hknown : a.escrowedNmc.isSome) :
    (a.lock amount).total = a.total + if a.availableNmc.isNone then amount else 0 := by
  obtain ⟨e, he⟩ := Option.isSome_iff_exists.mp hknown
  cases ha : a.availableNmc with
  | none => simp [lock, total, ha, he]
  | some x =>
      simp [lock, total, ha, he]

theorem total_earn (a : CreditAccount) (amount : ℚ) :
    (a.earn amount).total = a.total + if a.availableNmc.isNone then 0 else amount := by
  cases ha : a.availableNmc with
  | none => simp [earn, total, ha]
  | some x =>
      simp [earn, total, ha]
      ring

/-- A charge takes what it costs, or whatever is escrowed when that is less. -/
theorem total_charge {a : CreditAccount} {amount e : ℚ} (he : a.escrowedNmc = some e) :
    (a.charge amount).total = a.total - min e amount := by
  have hclamp : max 0 (e - amount) = e - min e amount := by
    rcases le_total e amount with hle | hle
    · rw [min_eq_left hle, max_eq_left (by linarith), sub_self]
    · rw [min_eq_right hle, max_eq_right (by linarith)]
  simp [charge, total, he, hclamp]
  ring

theorem total_releaseAll {a : CreditAccount} {e : ℚ} (he : a.escrowedNmc = some e) :
    a.releaseAll.total = a.total - if a.availableNmc.isNone then e else 0 := by
  cases ha : a.availableNmc with
  | none => simp [releaseAll, total, ha, he]
  | some x => simp [releaseAll, total, ha, he]

/-- A refund without an amount makes `available_nmc` null and clears `escrowed_nmc`. -/
theorem total_refundJob_none (a : CreditAccount) : (a.refundJob none).total = 0 := by
  simp [refundJob, total]

/-- A refund of `locked` creates no credits: what it adds to `available_nmc` is in
`escrowed_nmc`. -/
def CoversRefund (locked : ℚ) (a : CreditAccount) : Prop :=
  if a.availableNmc.isSome then locked ≤ a.escrowedNmc.getD 0
  else 0 ≤ locked ∧ 0 ≤ a.escrowedNmc.getD 0

instance (locked : ℚ) (a : CreditAccount) : Decidable (a.CoversRefund locked) :=
  inferInstanceAs (Decidable (if a.availableNmc.isSome then locked ≤ a.escrowedNmc.getD 0
    else 0 ≤ locked ∧ 0 ≤ a.escrowedNmc.getD 0))

theorem total_refundJob_le_iff {a : CreditAccount} {locked : ℚ} (hknown : a.escrowedNmc.isSome) :
    (a.refundJob (some locked)).total ≤ a.total ↔ a.CoversRefund locked := by
  obtain ⟨e, he⟩ := Option.isSome_iff_exists.mp hknown
  cases ha : a.availableNmc with
  | none =>
      simp [refundJob, total, CoversRefund, ha, he]
      tauto
  | some x =>
      simp [refundJob, total, CoversRefund, ha, he]
      constructor
      · intro hle
        have := le_max_left 0 (e - locked)
        linarith
      · intro hle
        rw [max_eq_right (by linarith)]
        linarith

end CreditAccount

/-! ### The operations -/

/-- `escrowed_nmc` is never `NULL`. -/
def EscrowedKnown (accounts : Table AccountId CreditAccount) : Prop :=
  ∀ c a, accounts.get? c = some a → a.escrowedNmc.isSome

theorem EscrowedKnown.update {accounts : Table AccountId CreditAccount}
    (hknown : EscrowedKnown accounts) (c : AccountId) {f : CreditAccount → CreditAccount}
    (hf : ∀ a, a.escrowedNmc.isSome → (f a).escrowedNmc.isSome) :
    EscrowedKnown (accounts.update c f) := by
  intro c' a' hget
  rcases Table.get?_update_cases hget with ⟨a, -, ha, rfl⟩ | ⟨-, hold⟩
  · exact hf a (hknown c a ha)
  · exact hknown c' a' hold

theorem EscrowedKnown.upsert {accounts : Table AccountId CreditAccount}
    (hknown : EscrowedKnown accounts) (c : AccountId) {a : CreditAccount}
    {f : CreditAccount → CreditAccount} (ha : a.escrowedNmc.isSome)
    (hf : ∀ a, a.escrowedNmc.isSome → (f a).escrowedNmc.isSome) :
    EscrowedKnown (accounts.upsert c a f) := by
  intro c' a' hget
  rcases Table.get?_upsert_cases hget with ⟨-, -, rfl⟩ | ⟨b, -, hb, rfl⟩ | ⟨-, hold⟩
  · exact ha
  · exact hf b (hknown c b hb)
  · exact hknown c' a' hold

theorem EscrowedKnown.updateAccount {accounts : Table AccountId CreditAccount}
    (hknown : EscrowedKnown accounts) (c : AccountId) (guard : CreditAccount → Bool)
    {f : CreditAccount → CreditAccount}
    (hf : ∀ a, a.escrowedNmc.isSome → (f a).escrowedNmc.isSome) :
    EscrowedKnown (NeuralMesh.updateAccount accounts c guard f).2 := by
  unfold NeuralMesh.updateAccount
  split
  · exact hknown.update c hf
  · exact hknown

theorem EscrowedKnown.apply {s : Db} (hknown : EscrowedKnown s.creditAccounts) (w : AccountsWrite) :
    EscrowedKnown (w.apply s).2 := by
  cases w with
  | register c =>
      simp only [AccountsWrite.apply]
      split
      · rename_i accounts hinsert
        intro c' a' hget
        rcases Table.get?_insert?_cases hinsert hget with ⟨-, rfl⟩ | ⟨-, hold⟩
        · rfl
        · exact hknown c' a' hold
      · exact hknown
  | releaseAll jobId =>
      simp only [AccountsWrite.apply]
      split
      · exact hknown.updateAccount _ _ fun a _ => rfl
      · exact hknown
  | earn c amount => exact hknown.upsert c rfl fun a ha => ha
  | credit c amount => exact hknown.upsert c rfl fun a ha => ha
  | refund escrowId c amount => exact hknown.upsert c rfl fun a ha => rfl
  | refundJob jobId c => exact hknown.updateAccount _ _ fun a _ => rfl
  | charge c amount => exact hknown.updateAccount _ _ fun a _ => rfl
  | debit c amount => exact hknown.updateAccount _ _ fun a ha => ha
  | debitIfCovered c amount => exact hknown.updateAccount _ _ fun a ha => ha
  | lock c amount =>
      exact hknown.updateAccount _ _ fun a ha => by
        obtain ⟨e, he⟩ := Option.isSome_iff_exists.mp ha
        simp [CreditAccount.lock, he]
  | lockIfCovered c amount =>
      exact hknown.updateAccount _ _ fun a ha => by
        obtain ⟨e, he⟩ := Option.isSome_iff_exists.mp ha
        simp [CreditAccount.lock, he]
  | settle c locked refunded =>
      exact hknown.updateAccount _ _ fun a ha => by
        obtain ⟨e, he⟩ := Option.isSome_iff_exists.mp ha
        simp [CreditAccount.settle, he]

theorem Reachable.escrowedKnown {s : Db} (hreach : Reachable s) :
    EscrowedKnown s.creditAccounts := by
  refine Reachable.of_exec (I := fun s => EscrowedKnown s.creditAccounts) ?_ ?_ ?_ hreach
  · intro c a hget
    cases hget
  · intro q s a t hknown hexec
    rcases Action.exec_accounts hexec with heq | ⟨w, heq⟩
    · exact heq ▸ hknown
    · exact heq ▸ hknown.apply w
  · intro s t hshuffled hknown c a hget
    exact hknown c a ((hshuffled.creditAccounts.get?_eq c).trans hget)

theorem Operation.totalNmc_after {op : Operation} {α : Type} {p : Program Action.Answer α}
    {s : Db} {b : Books} (hprogram : op.program = p.forget)
    (hbooks : (p.run Action.exec s).2.books = b) :
    (op.after s).totalNmc = totalNmc b.accounts := by
  rw [Operation.after, hprogram, Program.run_forget, ← hbooks]
  rfl

/-- The row a credited account has afterwards shows whether the credit reached it. -/
def reaches (accounts : Table AccountId CreditAccount) (c : AccountId) : Bool :=
  (accounts.get? c).all fun a => a.availableNmc.isSome

/-- `escrowed_nmc`, with a missing row read as zero. -/
def escrowedOrZero (accounts : Table AccountId CreditAccount) (c : AccountId) : ℚ :=
  (accounts.get? c).elim 0 fun a => a.escrowedNmc.getD 0

theorem submitJob_total_le {s : Db} (hknown : EscrowedKnown s.creditAccounts) (ids : SubmitIds)
    (body : SubmitJobBody) : ((Operation.submitJob ids body).after s).totalNmc ≤ s.totalNmc := by
  have hlock : body.maxCost ≤ availableOrZero s.creditAccounts body.accountId →
      totalNmc (s.creditAccounts.update body.accountId (.lock body.maxCost)) ≤
        totalNmc s.creditAccounts := by
    intro hcovered
    refine totalNmc_update_le_iff.mpr fun a ha => ?_
    rw [Option.mem_def] at ha
    rw [CreditAccount.total_lock (hknown _ _ ha)]
    cases havail : a.availableNmc with
    | none =>
        simp only [availableOrZero, ha, havail, Option.map_some, Option.getD_some,
          Option.getD_none] at hcovered
        simpa using hcovered
    | some x => simp
  rcases submitJob_books s ids body with
    hsame | ⟨hcovered, jobs, -, ⟨escrows, -, hlocked⟩ | ⟨-, hlocked⟩⟩
  · exact (Operation.totalNmc_after rfl hsame).le
  · exact (Operation.totalNmc_after rfl hlocked).trans_le (hlock hcovered)
  · exact (Operation.totalNmc_after rfl hlocked).trans_le (hlock hcovered)

/-- The databases from which cancelling creates no credits. -/
def CancelKeeps (s : Db) (jobId : JobId) : Prop :=
  ∀ job ∈ s.jobs.get? jobId, job.state.isTerminal = false →
    ∀ a ∈ s.creditAccounts.get? job.consumerId,
      (∀ row ∈ firstLocked s.escrows jobId, a.CoversRefund row.2.lockedNmc) ∧
        ((firstLocked s.escrows jobId).isNone → 0 ≤ a.total)

instance (s : Db) (jobId : JobId) : Decidable (CancelKeeps s jobId) :=
  inferInstanceAs (Decidable (∀ job ∈ s.jobs.get? jobId, _))

theorem cancelJob_total_le_iff {s : Db} (hknown : EscrowedKnown s.creditAccounts) (jobId : JobId) :
    ((Operation.cancelJob jobId).after s).totalNmc ≤ s.totalNmc ↔ CancelKeeps s jobId := by
  rw [Operation.totalNmc_after rfl (cancelJob_books s jobId), Db.totalNmc, CancelKeeps]
  cases s.jobs.get? jobId with
  | none => simp [Db.books]
  | some job =>
      cases hstate : job.state.isTerminal with
      | true => simp [Db.books, hstate]
      | false =>
          simp only [hstate, Bool.false_eq_true, if_false, totalNmc_update_le_iff, Option.mem_def,
            Option.some.injEq, forall_eq', forall_const]
          refine forall₂_congr fun a ha => ?_
          cases firstLocked s.escrows jobId with
          | none => simp [CreditAccount.total_refundJob_none]
          | some row => simp [CreditAccount.total_refundJob_le_iff (hknown _ _ ha)]

/-- An `earn` adds what reaches the account. -/
theorem totalNmc_upsert_earn (accounts : Table AccountId CreditAccount) (c : AccountId)
    (amount : ℚ) :
    totalNmc (accounts.upsert c (.opened amount amount) (.earn amount)) =
      totalNmc accounts + if reaches accounts c then amount else 0 := by
  rw [totalNmc_upsert]
  cases hget : accounts.get? c with
  | none => simp [reaches, hget, CreditAccount.total, CreditAccount.opened, CreditAccount.fresh]
  | some a =>
      rw [Option.elim_some, CreditAccount.total_earn]
      cases ha : a.availableNmc <;> simp [reaches, hget, ha]

/-- A charge takes the smaller of its amount and the escrow of a present account. -/
theorem totalNmc_update_charge {accounts : Table AccountId CreditAccount}
    (hknown : EscrowedKnown accounts) (c : AccountId) (amount : ℚ) :
    totalNmc (accounts.update c (.charge amount)) = totalNmc accounts -
      if (accounts.get? c).isSome then min (escrowedOrZero accounts c) amount else 0 := by
  rw [totalNmc_update]
  cases hget : accounts.get? c with
  | none => simp
  | some a =>
      obtain ⟨e, he⟩ := Option.isSome_iff_exists.mp (hknown c a hget)
      rw [Option.elim_some, CreditAccount.total_charge he]
      simp only [escrowedOrZero, hget, Option.isSome_some, if_true, Option.elim_some, he,
        Option.getD_some]
      ring

/-- Crediting an account leaves the escrows as they are. -/
theorem escrowedOrZero_upsert_earn (accounts : Table AccountId CreditAccount) (c c' : AccountId)
    (amount : ℚ) :
    escrowedOrZero (accounts.upsert c (.opened amount amount) (.earn amount)) c' =
      escrowedOrZero accounts c' := by
  unfold escrowedOrZero
  rw [Table.get?_upsert]
  split
  · rename_i heq
    subst heq
    cases hget : accounts.get? c' with
    | none => rfl
    | some a => rfl
  · rfl

theorem totalNmc_completed_le_iff {accounts : Table AccountId CreditAccount}
    (hknown : EscrowedKnown accounts) (provider consumer : AccountId) (net gross : ℚ) :
    totalNmc ((accounts.upsert provider (.opened net net) (.earn net)).update consumer
        (.charge gross)) ≤ totalNmc accounts ↔
      (if reaches accounts provider then net else 0) ≤
        if (accounts.get? consumer).isSome ∨ consumer = provider then
          min (escrowedOrZero accounts consumer) gross
        else 0 := by
  have hearned : EscrowedKnown (accounts.upsert provider (.opened net net) (.earn net)) :=
    hknown.upsert _ rfl fun _ ha => ha
  have hpresent : ((accounts.upsert provider (.opened net net) (.earn net)).get? consumer).isSome ↔
      (accounts.get? consumer).isSome ∨ consumer = provider := by
    rw [Table.get?_upsert]
    split <;> simp_all
  rw [totalNmc_update_charge hearned, totalNmc_upsert_earn, escrowedOrZero_upsert_earn,
    if_congr hpresent rfl rfl]
  constructor
  · intro hle
    linarith
  · intro hle
    linarith

/-- The databases from which completing creates no credits: what reaches the provider is taken
from the consumer's escrow. -/
def CompleteKeeps (s : Db) (jobId : JobId) (body : CompleteJobBody) : Prop :=
  ∀ job ∈ s.jobs.get? jobId, job.providerId = some body.providerId →
    (if reaches s.creditAccounts body.providerId then grossNmc job body * (1 - platformFee) else 0) ≤
      if (s.creditAccounts.get? job.consumerId).isSome ∨ job.consumerId = body.providerId then
        min (escrowedOrZero s.creditAccounts job.consumerId) (grossNmc job body)
      else 0

theorem completeJob_total_le_iff {s : Db} (hknown : EscrowedKnown s.creditAccounts)
    (config : Config) (txId : TxId) (jobId : JobId) (body : CompleteJobBody) :
    ((Operation.completeJob config txId jobId body).after s).totalNmc ≤ s.totalNmc ↔
      CompleteKeeps s jobId body := by
  rw [Operation.totalNmc_after rfl (completeJob_books s config txId jobId body), Db.totalNmc,
    CompleteKeeps]
  cases s.jobs.get? jobId with
  | none => simp [Db.books]
  | some job =>
      by_cases hprovider : job.providerId = some body.providerId
      · simp only [Option.mem_def, Option.some.injEq, forall_eq', hprovider, forall_const]
        rw [Option.filter_some, if_pos (by simpa using hprovider)]
        exact totalNmc_completed_le_iff hknown _ _ _ _
      · simp [hprovider, Db.books, Option.filter_some]

/-- The databases from which failing creates no credits: no escrow is negative where its release
is lost. -/
def FailKeeps (s : Db) (jobId : JobId) : Prop :=
  ∀ job ∈ s.jobs.get? jobId, ∀ a ∈ s.creditAccounts.get? job.consumerId,
    a.availableNmc.isNone → 0 ≤ a.escrowedNmc.getD 0

theorem failJob_total_le_iff {s : Db} (hknown : EscrowedKnown s.creditAccounts) (config : Config)
    (jobId : JobId) (body : FailJobBody) :
    ((Operation.failJob config jobId body).after s).totalNmc ≤ s.totalNmc ↔ FailKeeps s jobId := by
  rw [Operation.totalNmc_after rfl (failJob_books s config jobId body), Db.totalNmc, FailKeeps]
  cases s.jobs.get? jobId with
  | none => simp
  | some job =>
      simp only [totalNmc_update_le_iff, Option.mem_def, Option.some.injEq, forall_eq']
      refine forall₂_congr fun a ha => ?_
      obtain ⟨e, he⟩ := Option.isSome_iff_exists.mp (hknown _ _ ha)
      rw [CreditAccount.total_releaseAll he, he, Option.getD_some]
      cases a.availableNmc <;> simp

/-! ### A watcher cycle -/

/-- The escrow `migrate_or_fail_job` refunds when it meets the job. -/
def dueRefund (b : Books) (jobId : JobId) : Option Escrow :=
  match b.jobs.get? jobId with
  | none => none
  | some job =>
      if job.state.inProgress && !restorable job then (firstLocked b.escrows jobId).map Prod.snd
      else none

/-- The escrows refunded when the jobs are met in this order; a job met again is no longer in
progress. -/
def dueRefunds (b : Books) (jobs : List JobId) : List Escrow :=
  jobs.eraseDups.filterMap (dueRefund b)

/-- The refund of `e` creates no credits once `before` has been refunded to the same account. -/
def CoveredAt (accounts : Table AccountId CreditAccount) (before : ℚ) (e : Escrow) : Prop :=
  match accounts.get? e.consumerId with
  | none => e.lockedNmc ≤ 0
  | some a =>
      if a.availableNmc.isSome then before + e.lockedNmc ≤ a.escrowedNmc.getD 0
      else 0 ≤ e.lockedNmc ∧ 0 ≤ a.escrowedNmc.getD 0

/-- What a list of refunds pays to an account. -/
def refundedTo (c : AccountId) (refunds : List Escrow) : ℚ :=
  ((refunds.filter fun e => e.consumerId = c).map Escrow.lockedNmc).sum

/-- Every refund of the list is covered, after those before it. -/
def RefundsCovered (accounts : Table AccountId CreditAccount) (refunds : List Escrow) : Prop :=
  ∀ before e after, refunds = before ++ e :: after →
    CoveredAt accounts (refundedTo e.consumerId before) e

/-- The balances after one refund. -/
def refund (accounts : Table AccountId CreditAccount) (e : Escrow) :
    Table AccountId CreditAccount :=
  accounts.upsert e.consumerId (.opened e.lockedNmc 0) (.refundJob (some e.lockedNmc))

theorem EscrowedKnown.refund {accounts : Table AccountId CreditAccount}
    (hknown : EscrowedKnown accounts) (e : Escrow) : EscrowedKnown (refund accounts e) :=
  hknown.upsert _ rfl fun _ _ => rfl

theorem totalNmc_refund_le {accounts : Table AccountId CreditAccount}
    (hknown : EscrowedKnown accounts) {e : Escrow} (hcovered : CoveredAt accounts 0 e) :
    totalNmc (refund accounts e) ≤ totalNmc accounts := by
  rw [refund, totalNmc_upsert]
  unfold CoveredAt at hcovered
  cases hget : accounts.get? e.consumerId with
  | none =>
      rw [hget] at hcovered
      simpa [CreditAccount.total, CreditAccount.opened, CreditAccount.fresh] using hcovered
  | some a =>
      rw [hget, zero_add] at hcovered
      have hle := (CreditAccount.total_refundJob_le_iff (hknown _ _ hget)).mpr hcovered
      rw [Option.elim_some]
      linarith

theorem refundedTo_cons (c : AccountId) (e : Escrow) (refunds : List Escrow) :
    refundedTo c (e :: refunds) =
      (if e.consumerId = c then e.lockedNmc else 0) + refundedTo c refunds := by
  unfold refundedTo
  rw [List.filter_cons]
  split <;> simp_all

/-- Refunds that are each at most zero pay at most zero. -/
theorem refundedTo_nonpos {c : AccountId} {refunds : List Escrow}
    (hnonpos : ∀ e ∈ refunds, e.consumerId = c → e.lockedNmc ≤ 0) : refundedTo c refunds ≤ 0 := by
  induction refunds with
  | nil => exact le_rfl
  | cons e refunds ih =>
      have hrest := ih fun e' he' => hnonpos e' (List.mem_cons_of_mem _ he')
      rw [refundedTo_cons]
      split
      · rename_i heq
        have hfirst := hnonpos e List.mem_cons_self heq
        linarith
      · simpa using hrest

/-- What is left of a covered list is covered by what the first refund leaves. -/
theorem RefundsCovered.tail {accounts : Table AccountId CreditAccount}
    (hknown : EscrowedKnown accounts) {e : Escrow} {refunds : List Escrow}
    (hcovered : RefundsCovered accounts (e :: refunds)) :
    RefundsCovered (refund accounts e) refunds := by
  intro before e' after hsplit
  have hfirst := hcovered [] e refunds rfl
  have hlater := hcovered (e :: before) e' after (by rw [hsplit]; rfl)
  rw [refundedTo_cons] at hlater
  unfold CoveredAt at hfirst hlater ⊢
  rw [refund, Table.get?_upsert]
  by_cases hsame : e'.consumerId = e.consumerId
  · rw [if_pos hsame]
    rw [if_pos hsame.symm, hsame] at hlater
    cases hget : accounts.get? e.consumerId with
    | none =>
        -- the first refund opened the account, and every other one is at most zero
        rw [hget] at hlater
        have hbefore : refundedTo e.consumerId before ≤ 0 := by
          refine refundedTo_nonpos fun x hx hxe => ?_
          obtain ⟨before₁, before₂, rfl⟩ := List.append_of_mem hx
          have hcov := hcovered (e :: before₁) x (before₂ ++ e' :: after) (by simp [hsplit])
          unfold CoveredAt at hcov
          rwa [hxe, hget] at hcov
        simp only [Option.map_none, Option.getD_none, CreditAccount.opened, CreditAccount.fresh,
          Option.isSome_some, if_true, Option.getD_some]
        rw [hsame]
        linarith
    | some a =>
        obtain ⟨x, hx⟩ := Option.isSome_iff_exists.mp (hknown _ _ hget)
        rw [hget] at hfirst hlater
        cases ha : a.availableNmc with
        | none =>
            simp only [ha, hx, Option.isSome_none, Bool.false_eq_true, if_false,
              Option.getD_some] at hlater
            simp [CreditAccount.refundJob, ha, hx, hlater.1]
        | some y =>
            simp only [ha, hx, Option.isSome_some, if_true, Option.getD_some, refundedTo,
              List.filter_nil, List.map_nil, List.sum_nil] at hfirst hlater
            simp only [Option.map_some, Option.getD_some, CreditAccount.refundJob, ha, hx,
              nullAdd_some, nullSub_some, greatestZero_some, Option.isSome_some, if_true, refundedTo]
            rw [max_eq_right (by linarith), hsame]
            linarith
  · rw [if_neg hsame]
    rwa [if_neg (Ne.symm hsame), zero_add] at hlater

theorem migrateOrFail_accounts (now : Time) (b : Books) (jobId : JobId) :
    (b.migrateOrFail now jobId).accounts =
      (dueRefund b jobId).elim b.accounts (refund b.accounts) := by
  unfold Books.migrateOrFail dueRefund
  cases b.jobs.get? jobId with
  | none => rfl
  | some job =>
      dsimp only
      cases job.state.inProgress <;> cases restorable job <;> try rfl
      unfold Books.refundJob
      dsimp only
      cases firstLocked b.escrows jobId <;> rfl

/-- Once met, a job is no longer in progress. -/
theorem dueRefund_migrateOrFail_self (now : Time) (b : Books) (jobId : JobId) :
    dueRefund (b.migrateOrFail now jobId) jobId = none := by
  unfold Books.migrateOrFail
  cases hjob : b.jobs.get? jobId with
  | none => simp [dueRefund, hjob]
  | some job =>
      dsimp only
      split
      · rename_i hstate
        simp_all [dueRefund]
      split
      · simp [dueRefund, hjob, Job.requeue, JobState.inProgress]
      · have hjobs : ((b.jobs.update jobId (.giveUp now (failureReason job))).get? jobId) =
            some (job.giveUp now (failureReason job)) := by
          rw [Table.get?_update_self, hjob]
          rfl
        unfold Books.refundJob
        dsimp only
        split <;> simp [dueRefund, hjobs, Job.giveUp, JobState.inProgress]

theorem dueRefund_migrateOrFail_of_ne (now : Time) (b : Books) {jobId other : JobId}
    (hne : other ≠ jobId) :
    dueRefund (b.migrateOrFail now jobId) other = dueRefund b other := by
  unfold Books.migrateOrFail
  cases b.jobs.get? jobId with
  | none => rfl
  | some job =>
      dsimp only
      split
      · rfl
      split
      · simp only [dueRefund, Table.get?_update_of_ne _ _ hne]
      · unfold Books.refundJob
        dsimp only
        split
        · simp only [dueRefund, Table.get?_update_of_ne _ _ hne]
        · rename_i escrowId e hfirst
          obtain ⟨hget, hjobId, -⟩ := firstLocked_eq_some hfirst
          simp only [dueRefund, Table.get?_update_of_ne _ _ hne,
            firstLocked_update hget (hjobId ▸ Ne.symm hne)]

theorem dueRefunds_cons (b : Books) (jobId : JobId) (jobs : List JobId) :
    dueRefunds b (jobId :: jobs) =
      (dueRefund b jobId).toList ++ dueRefunds b (jobs.filter (· != jobId)) := by
  unfold dueRefunds
  rw [List.eraseDups_cons, List.filterMap_cons]
  cases dueRefund b jobId <;> rfl

/-- Meeting one job leaves due what was due for the others. -/
theorem dueRefunds_migrateOrFail (now : Time) (b : Books) (jobId : JobId) (jobs : List JobId) :
    dueRefunds (b.migrateOrFail now jobId) jobs = dueRefunds b (jobs.filter (· != jobId)) := by
  induction hlen : jobs.length using Nat.strong_induction_on generalizing jobs with
  | _ n ih =>
      cases jobs with
      | nil => rfl
      | cons other jobs =>
          have hshorter : ∀ q : JobId → Bool, (jobs.filter q).length < n := fun q => by
            have := List.length_filter_le q jobs
            simp only [List.length_cons] at hlen
            omega
          rw [dueRefunds_cons, ih _ (hshorter _) _ rfl]
          by_cases hsame : other = jobId
          · subst hsame
            simp [dueRefund_migrateOrFail_self]
          · rw [dueRefund_migrateOrFail_of_ne now b hsame, List.filter_cons_of_pos (by simpa using hsame),
              dueRefunds_cons, List.filter_filter, List.filter_filter]
            simp only [Bool.and_comm]

theorem migrateOrFail_total_le (now : Time) (b : Books) (jobs : List JobId)
    (hknown : EscrowedKnown b.accounts)
    (hcovered : RefundsCovered b.accounts (dueRefunds b jobs)) :
    totalNmc (jobs.foldl (Books.migrateOrFail now) b).accounts ≤ totalNmc b.accounts := by
  induction jobs generalizing b with
  | nil => exact le_rfl
  | cons jobId jobs ih =>
      have haccounts := migrateOrFail_accounts now b jobId
      have hdue := dueRefunds_migrateOrFail now b jobId jobs
      rw [dueRefunds_cons] at hcovered
      rw [List.foldl_cons]
      cases hfirst : dueRefund b jobId with
      | none =>
          rw [hfirst, Option.elim_none] at haccounts
          rw [hfirst, Option.toList_none, List.nil_append, ← hdue, ← haccounts] at hcovered
          exact (ih _ (haccounts ▸ hknown) hcovered).trans_eq (congrArg totalNmc haccounts)
      | some e =>
          rw [hfirst, Option.elim_some] at haccounts
          rw [hfirst, Option.toList_some, List.singleton_append, ← hdue] at hcovered
          have htail := hcovered.tail hknown
          rw [← haccounts] at htail
          have hrest := ih _ (haccounts ▸ hknown.refund e) htail
          have hhead := totalNmc_refund_le hknown (hcovered [] e _ rfl)
          rw [haccounts] at hrest
          exact hrest.trans hhead

/-- The watcher creates no credits: every escrow it refunds is covered. -/
def StaleKeeps (s : Db) : Prop :=
  RefundsCovered s.creditAccounts (dueRefunds s.books (staleJobs s))

theorem checkStaleProviders_total_le {s : Db} (hknown : EscrowedKnown s.creditAccounts)
    {txIds : Nat → TxId} (hkeeps : StaleKeeps s) :
    ((Operation.checkStaleProviders txIds).after s).totalNmc ≤ s.totalNmc := by
  rw [Operation.totalNmc_after rfl (checkStaleProviders_books s txIds)]
  exact migrateOrFail_total_le s.now s.books (staleJobs s) hknown hkeeps

/-! ### Runs of the lifecycle -/

namespace Operation

/-- The operations that move a job and its money. -/
def IsLifecycle : Operation → Prop
  | submitJob _ _ | cancelJob _ | completeJob _ _ _ _ | failJob _ _ _ | checkStaleProviders _ => True
  | _ => False

/-- The databases from which a lifecycle operation creates no credits. -/
def KeepsTotal (s : Db) : Operation → Prop
  | cancelJob jobId => CancelKeeps s jobId
  | completeJob _ _ jobId body => CompleteKeeps s jobId body
  | failJob _ jobId _ => FailKeeps s jobId
  | checkStaleProviders _ => StaleKeeps s
  | _ => True

theorem totalNmc_after_le {s : Db} (hknown : EscrowedKnown s.creditAccounts) {op : Operation}
    (hlifecycle : op.IsLifecycle) (hkeeps : op.KeepsTotal s) :
    (op.after s).totalNmc ≤ s.totalNmc := by
  cases op with
  | submitJob ids body => exact submitJob_total_le hknown ids body
  | cancelJob jobId => exact (cancelJob_total_le_iff hknown jobId).mpr hkeeps
  | completeJob config txId jobId body =>
      exact (completeJob_total_le_iff hknown config txId jobId body).mpr hkeeps
  | failJob config jobId body => exact (failJob_total_le_iff hknown config jobId body).mpr hkeeps
  | checkStaleProviders txIds => exact checkStaleProviders_total_le hknown hkeeps
  | _ => exact hlifecycle.elim

end Operation

/-- From any reachable database, a run of lifecycle operations that each keep the total never
increases it. -/
theorem lifecycle_total_le {s t : Db} (hreach : Reachable s)
    (hrun : Run (fun s op => op.IsLifecycle ∧ op.KeepsTotal s) s t) : t.totalNmc ≤ s.totalNmc := by
  have hboth : Reachable t ∧ t.totalNmc ≤ s.totalNmc := by
    induction hrun with
    | refl => exact ⟨hreach, le_rfl⟩
    | tail _ hlast ih =>
        obtain ⟨hreached, hle⟩ := ih
        cases hlast with
        | operation hmeets =>
            refine ⟨hreached.tail (.operation trivial), ?_⟩
            exact (Operation.totalNmc_after_le hreached.escrowedKnown hmeets.1 hmeets.2).trans hle
        | idle hshuffled =>
            refine ⟨hreached.tail (.idle hshuffled), ?_⟩
            exact hshuffled.totalNmc_eq.trans_le hle
  exact hboth.2

/-! ### A run that creates credits -/

/-- Two jobs of one consumer: failing the first releases the escrow of both, and cancelling the
second refunds it again. -/
theorem lifecycle_total_increases :
    ∃ s t, Reachable s ∧ Run (fun _ op => op.IsLifecycle) s t ∧ s.totalNmc < t.totalNmc := by
  let ops : List Operation :=
    [submitHour "a" "alice" 5, submitHour "b" "alice" 5, failReport "a", .cancelJob "b"]
  refine ⟨afterAll [topUp "alice" 10] Db.init, afterAll ops (afterAll [topUp "alice" 10] Db.init),
    Run.afterAll ⟨trivial, trivial⟩, Run.afterAll ⟨trivial, trivial, trivial, trivial, trivial⟩, ?_⟩
  decide +kernel

/-- One job, submitted and cancelled, meets the conditions. -/
theorem lifecycle_total_le_cancelled :
    (afterAll [submitHour "a" "alice" 5, .cancelJob "a"]
        (afterAll [topUp "alice" 10] Db.init)).totalNmc ≤
      (afterAll [topUp "alice" 10] Db.init).totalNmc := by
  refine lifecycle_total_le (Run.afterAll ⟨trivial, trivial⟩)
    (Run.afterAll ⟨⟨trivial, trivial⟩, ⟨trivial, ?_⟩, trivial⟩)
  change CancelKeeps _ _
  decide +kernel

end NeuralMesh
