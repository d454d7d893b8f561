import NeuralMesh.Base.OneAtATime
import NeuralMesh.Coordinator.Books
import NeuralMesh.Proof.TerminalStates
import NeuralMesh.System.Operation
import Mathlib.Tactic.Linarith
import Mathlib.Tactic.Ring

/-!
# The settlements of one escrow row

Five operations pay out an escrow: the ledger's release, and cancelling, completing, failing or
giving up its job. Each reads the row or its job, then pays in statements of its own, and marks the
row or the job as settled somewhere among them. `TakesTurns` is the condition under which they pay
out at most what is locked.
-/

namespace NeuralMesh

open Coordinator Program

/-! ### What a statement adds to the balances -/

/-- What a change adds to `available_nmc`; a balance that becomes `NULL` gains nothing. -/
def CreditAccount.gain (available : ℚ) (after : CreditAccount) : ℚ :=
  after.availableNmc.elim 0 fun x => max 0 (x - available)

/-- What was added to the balances, over all accounts. -/
def addedNmc (before after : Table AccountId CreditAccount) : ℚ :=
  after.sum fun c a => a.gain (availableOrZero before c)

theorem addedNmc_self (accounts : Table AccountId CreditAccount) :
    addedNmc accounts accounts = 0 := by
  refine Table.sum_eq_zero fun c a hget => ?_
  rw [CreditAccount.gain, availableOrZero_of_get? hget]
  cases a.availableNmc <;> simp

theorem addedNmc_update (accounts : Table AccountId CreditAccount) (c : AccountId)
    (f : CreditAccount → CreditAccount) :
    addedNmc accounts (accounts.update c f) =
      (accounts.get? c).elim 0 fun a => (f a).gain (a.availableNmc.getD 0) := by
  have hself := addedNmc_self accounts
  unfold addedNmc at hself ⊢
  rw [Table.sum_update, hself, zero_add]
  cases hget : accounts.get? c with
  | none => rfl
  | some a =>
      rw [Option.elim_some, Option.elim_some, availableOrZero_of_get? hget]
      cases hx : a.availableNmc <;> simp [CreditAccount.gain, hx]

theorem addedNmc_upsert (accounts : Table AccountId CreditAccount) (c : AccountId)
    (a : CreditAccount) (f : CreditAccount → CreditAccount) :
    addedNmc accounts (accounts.upsert c a f) =
      (accounts.get? c).elim (a.gain 0) fun b => (f b).gain (b.availableNmc.getD 0) := by
  have hself := addedNmc_self accounts
  unfold addedNmc at hself ⊢
  rw [Table.sum_upsert, hself, zero_add]
  cases hget : accounts.get? c with
  | none =>
      rw [Option.elim_none, Option.elim_none, availableOrZero, hget]
      rfl
  | some b =>
      rw [Option.elim_some, Option.elim_some, availableOrZero_of_get? hget]
      cases hx : b.availableNmc <;> simp [CreditAccount.gain, hx]

/-- Adding `x` to a balance gains `x`, or nothing when `x` is negative or either is `NULL`. -/
theorem CreditAccount.gain_le {a b : CreditAccount} {x : Option ℚ}
    (hadd : b.availableNmc = nullAdd a.availableNmc x) :
    b.gain (a.availableNmc.getD 0) ≤ max 0 (x.getD 0) := by
  rw [CreditAccount.gain, hadd]
  cases a.availableNmc with
  | none => simp
  | some y =>
      cases x with
      | none => simp
      | some x => simp

theorem addedNmc_update_le {accounts : Table AccountId CreditAccount} {c : AccountId}
    {f : CreditAccount → CreditAccount} {x : ℚ}
    (hadd : ∀ a ∈ accounts.get? c, ∃ y : Option ℚ, y.getD 0 ≤ x ∧
      (f a).availableNmc = nullAdd a.availableNmc y) :
    addedNmc accounts (accounts.update c f) ≤ max 0 x := by
  rw [addedNmc_update]
  cases hget : accounts.get? c with
  | none => exact le_max_left 0 x
  | some a =>
      obtain ⟨y, hle, hy⟩ := hadd a hget
      rw [Option.elim_some]
      exact (CreditAccount.gain_le hy).trans (max_le_max_left 0 hle)

theorem addedNmc_upsert_le {accounts : Table AccountId CreditAccount} {c : AccountId} {x earned : ℚ}
    {f : CreditAccount → CreditAccount}
    (hadd : ∀ a : CreditAccount, (f a).availableNmc = nullAdd a.availableNmc (some x)) :
    addedNmc accounts (accounts.upsert c (.opened x earned) f) ≤ max 0 x := by
  rw [addedNmc_upsert]
  cases accounts.get? c with
  | none => simp [CreditAccount.gain, CreditAccount.opened]
  | some a =>
      have hle := CreditAccount.gain_le (hadd a)
      rwa [Option.getD_some] at hle

/-- What a statement pays on account of an escrow row: what it adds to the balances, unless it
refunds another row. -/
def payout (escrowId : EscrowId) (q : Action) (before after : Db) : ℚ :=
  match q with
  | .creditAccounts (.refundJob jobId _) =>
      if (firstLocked before.escrows jobId).map Prod.fst = some escrowId then
        addedNmc before.creditAccounts after.creditAccounts
      else 0
  | .creditAccounts (.refund refunded _ _) =>
      if refunded = escrowId then addedNmc before.creditAccounts after.creditAccounts else 0
  | _ => addedNmc before.creditAccounts after.creditAccounts

/-- What a run has paid on account of an escrow row. -/
def paidOut (escrowId : EscrowId) (es : List (Event Action Db Operation)) : ℚ :=
  totalWeight (payout escrowId) es

theorem payout_of_added {escrowId : EscrowId} {q : Action} {s t : Db}
    (hadded : addedNmc s.creditAccounts t.creditAccounts = 0) : payout escrowId q s t = 0 := by
  unfold payout
  rw [hadded]
  split
  · exact ite_self 0
  · exact ite_self 0
  · rfl

theorem payout_eq_zero {escrowId : EscrowId} {q : Action} {s t : Db}
    (hsame : t.creditAccounts = s.creditAccounts) : payout escrowId q s t = 0 :=
  payout_of_added (hsame ▸ addedNmc_self _)

theorem payout_le {escrowId : EscrowId} {q : Action} {s t : Db} {x : ℚ}
    (hadded : addedNmc s.creditAccounts t.creditAccounts ≤ max 0 x) :
    payout escrowId q s t ≤ max 0 x := by
  unfold payout
  split
  · split
    · exact hadded
    · exact le_max_left 0 x
  · split
    · exact hadded
    · exact le_max_left 0 x
  · exact hadded

section Writes

variable (escrowId : EscrowId) (s : Db) (c : AccountId)

/-- The database after a write of `credit_accounts`. -/
def Db.write (s : Db) (w : AccountsWrite) : Db := { s with creditAccounts := (w.apply s).2 }

theorem payout_settle_le (locked refunded : ℚ) :
    payout escrowId (.creditAccounts (.settle c locked refunded)) s
      (s.write (.settle c locked refunded)) ≤ max 0 refunded := by
  refine payout_le ?_
  rw [Db.write, AccountsWrite.apply, updateAccount_all]
  exact addedNmc_update_le fun _ _ => ⟨some refunded, le_refl refunded, rfl⟩

theorem payout_settle_eq {a : CreditAccount} {x : ℚ} (locked refunded : ℚ)
    (hget : s.creditAccounts.get? c = some a) (hx : a.availableNmc = some x) :
    payout escrowId (.creditAccounts (.settle c locked refunded)) s
      (s.write (.settle c locked refunded)) = max 0 refunded := by
  change addedNmc s.creditAccounts (updateAccount s.creditAccounts c (fun _ => true)
    (.settle locked refunded)).2 = max 0 refunded
  rw [updateAccount_all, addedNmc_update, hget]
  simp [CreditAccount.gain, CreditAccount.settle, hx]

theorem payout_earn_le (amount : ℚ) :
    payout escrowId (.creditAccounts (.earn c amount)) s (s.write (.earn c amount)) ≤
      max 0 amount :=
  payout_le (addedNmc_upsert_le fun _ => rfl)

theorem payout_refund_le (refunded : EscrowId) (amount : ℚ) :
    payout escrowId (.creditAccounts (.refund refunded c amount)) s
      (s.write (.refund refunded c amount)) ≤ if refunded = escrowId then max 0 amount else 0 := by
  by_cases hrow : refunded = escrowId
  · rw [if_pos hrow]
    exact payout_le (addedNmc_upsert_le fun _ => rfl)
  · simp [payout, hrow]

/-- `cancel_job` pays what is locked in the row it finds. -/
theorem payout_refundJob_le (jobId : JobId) {e : Escrow}
    (hget : s.escrows.get? escrowId = some e) :
    payout escrowId (.creditAccounts (.refundJob jobId c)) s (s.write (.refundJob jobId c)) ≤
      if e.state = .locked then max 0 e.lockedNmc else 0 := by
  by_cases hfirst : (firstLocked s.escrows jobId).map Prod.fst = some escrowId
  · obtain ⟨row, hrow, rfl⟩ := Option.map_eq_some_iff.mp hfirst
    obtain ⟨hget', _, hlocked⟩ := firstLocked_eq_some hrow
    cases hget.symm.trans hget'
    rw [if_pos hlocked]
    refine payout_le ?_
    rw [Db.write, AccountsWrite.apply, updateAccount_all, hrow]
    exact addedNmc_update_le fun _ _ => ⟨some row.2.lockedNmc, le_refl _, rfl⟩
  · rw [payout, if_neg hfirst]
    split
    · exact le_max_left _ _
    · exact le_refl 0

/-- `fail_job` pays everything its consumer has escrowed. -/
theorem payout_releaseAll_le {jobId : JobId} {x : ℚ}
    (hescrowed : ∀ job ∈ s.jobs.get? jobId, ∀ a ∈ s.creditAccounts.get? job.consumerId,
      a.escrowedNmc.getD 0 ≤ x) :
    payout escrowId (.creditAccounts (.releaseAll jobId)) s (s.write (.releaseAll jobId)) ≤
      if (s.jobs.get? jobId).isSome then max 0 x else 0 := by
  cases hget : s.jobs.get? jobId with
  | none =>
      refine (payout_eq_zero ?_).le
      rw [Db.write, AccountsWrite.apply, hget]
  | some job =>
      rw [Option.isSome_some, if_pos rfl]
      refine payout_le ?_
      rw [Db.write, AccountsWrite.apply, hget]
      dsimp only
      rw [updateAccount_all]
      exact addedNmc_update_le fun a ha => ⟨a.escrowedNmc, hescrowed job hget a ha, rfl⟩

theorem payout_charge (amount : ℚ) :
    payout escrowId (.creditAccounts (.charge c amount)) s (s.write (.charge c amount)) = 0 := by
  refine payout_of_added ?_
  rw [Db.write, AccountsWrite.apply, updateAccount_all, addedNmc_update]
  cases s.creditAccounts.get? c with
  | none => rfl
  | some a => cases hx : a.availableNmc <;> simp [CreditAccount.gain, CreditAccount.charge, hx]

end Writes

/-! ### One settlement -/

/-- The row is locked. -/
def RowLocked (escrowId : EscrowId) (s : Db) : Prop :=
  ∃ e ∈ s.escrows.get? escrowId, e.state = .locked

/-- The job is complete, failed or cancelled. -/
def JobFinal (jobId : JobId) (s : Db) : Prop :=
  ∃ job ∈ s.jobs.get? jobId, job.state.isTerminal

/-- Between settlements: what was paid is at most what is locked, and nothing was paid as long as
neither the row nor its job is marked as settled. -/
structure SettledOnce (escrowId : EscrowId) (jobId : JobId) (locked paid : ℚ) (s : Db) : Prop where
  row : ∃ e, s.escrows.get? escrowId = some e ∧ e.jobId = jobId ∧ e.lockedNmc = locked
  paid_le : paid ≤ locked
  unpaid : RowLocked escrowId s → ¬ JobFinal jobId s → paid ≤ 0

theorem Db.Shuffled.escrow {s t : Db} (hshuffled : s.Shuffled t) {escrowId : EscrowId}
    {e : Option Escrow} (hget : s.escrows.get? escrowId = e) : t.escrows.get? escrowId = e :=
  (hshuffled.escrows.get?_eq escrowId).symm.trans hget

theorem Db.Shuffled.job {s t : Db} (hshuffled : s.Shuffled t) {jobId : JobId} {job : Option Job}
    (hget : s.jobs.get? jobId = job) : t.jobs.get? jobId = job :=
  (hshuffled.jobs.get?_eq jobId).symm.trans hget

section Settlement

variable {escrowId : EscrowId} {jobId : JobId} {locked paid : ℚ} {s t : Db}

theorem SettledOnce.of_books (hsettled : SettledOnce escrowId jobId locked paid s)
    (hescrow : t.escrows.get? escrowId = s.escrows.get? escrowId)
    (hjob : t.jobs.get? jobId = s.jobs.get? jobId) : SettledOnce escrowId jobId locked paid t := by
  refine ⟨hescrow ▸ hsettled.row, hsettled.paid_le, fun hlocked hlive => hsettled.unpaid ?_ ?_⟩
  · rwa [RowLocked, ← hescrow]
  · rwa [JobFinal, ← hjob]

theorem SettledOnce.shuffled (hshuffled : s.Shuffled t)
    (hsettled : SettledOnce escrowId jobId locked paid s) :
    SettledOnce escrowId jobId locked paid t :=
  hsettled.of_books (hshuffled.escrow rfl) (hshuffled.job rfl)

variable {α : Type}

/-- The rest of a settlement pays at most what is locked, and leaves it settled. -/
abbrev Settles (escrowId : EscrowId) (jobId : JobId) (locked paid : ℚ) (s : Db)
    (p : Program Action.Answer α) : Prop :=
  p.Ends Action.exec Db.Shuffled (payout escrowId) (· ≤ locked)
    (SettledOnce escrowId jobId locked) paid s

/-- What a settlement does once the row or its job is marked. -/
def Action.PaysNothing : Action → Prop
  | .creditAccounts (.charge _ _) => True
  | q => q.SparesBooks

theorem Settles.of_uses {p : Program Action.Answer α} (huses : p.Uses Action.PaysNothing)
    (hsettled : SettledOnce escrowId jobId locked paid s) :
    Settles escrowId jobId locked paid s p := by
  refine Program.Ends.of_uses (fun _ _ h => h.paid_le) (fun _ _ _ hshuffled h => h.shuffled hshuffled)
    (fun q m u a t hq hI hexec => ?_) p huses hsettled
  unfold Action.PaysNothing at hq
  split at hq
  · cases hexec
    exact ⟨payout_charge _ _ _ _, hI.of_books rfl rfl⟩
  · have hbooks := Action.exec_books hq hexec
    refine ⟨payout_eq_zero (congrArg Books.accounts hbooks), hI.of_books ?_ ?_⟩
    · exact congrArg (fun b => b.escrows.get? escrowId) hbooks
    · exact congrArg (fun b => b.jobs.get? jobId) hbooks

/-- A statement that leaves the balances alone. -/
theorem Settles.silent {q : Action} {next : q.Answer → Program Action.Answer α}
    {fail : Program Action.Answer α} (hle : paid ≤ locked)
    (hnext : ∀ u, s.Shuffled u → ∃ a v, q.exec u = some (a, v) ∧
      v.creditAccounts = u.creditAccounts ∧ Settles escrowId jobId locked paid v (next a)) :
    Settles escrowId jobId locked paid s (.query q next fail) := by
  refine .query hle fun u hshuffled => ?_
  obtain ⟨a, v, hexec, hsame, hsettles⟩ := hnext u hshuffled
  refine ⟨a, v, hexec, ?_⟩
  rwa [payout_eq_zero hsame, add_zero]

/-- A statement that pays. -/
theorem Settles.pay {w : AccountsWrite} {next : Nat → Program Action.Answer α}
    {fail : Program Action.Answer α} (hle : paid ≤ locked)
    (hnext : ∀ u, s.Shuffled u → ∀ amount, amount = payout escrowId (.creditAccounts w) u (u.write w) →
      Settles escrowId jobId locked (paid + amount) (u.write w) (next (w.apply u).1)) :
    Settles escrowId jobId locked paid s (.query (.creditAccounts w) next fail) :=
  .query hle fun u hshuffled => ⟨_, _, rfl, hnext u hshuffled _ rfl⟩

theorem rowLocked_release {e : Escrow} (hget : t.escrows.get? escrowId = some e) :
    ¬ RowLocked escrowId { t with escrows := t.escrows.update escrowId .release } := by
  rintro ⟨e', hget', hstate⟩
  rw [Option.mem_def, Table.get?_update_self, hget] at hget'
  cases hget'
  cases hstate

/-- A row of the job after all its rows were released. -/
theorem get?_releaseOfJob {escrows : Table EscrowId Escrow} {e : Escrow}
    (hget : escrows.get? escrowId = some e) :
    ∃ e', (escrows.updateWhere (fun _ r => r.jobId = e.jobId ∧ r.state = .locked) .release).get?
      escrowId = some e' ∧ e'.jobId = e.jobId ∧ e'.lockedNmc = e.lockedNmc ∧ e'.state ≠ .locked := by
  rw [Table.get?_updateWhere, hget, Option.map_some]
  by_cases hstate : e.state = .locked
  · exact ⟨e.release, by simp [hstate], rfl, rfl, by simp [Escrow.release]⟩
  · exact ⟨e, by simp [hstate], rfl, rfl, hstate⟩

/-- The settlement reads the locked row, pays the consumer and the provider, then releases it. -/
theorem releaseEscrow_settles {body : Ledger.EscrowReleaseBody}
    (hsettled : SettledOnce body.escrowId jobId locked paid s) (hpos : 0 ≤ locked)
    (hlocked : RowLocked body.escrowId s) (hlive : ¬ JobFinal jobId s)
    (hprice : 0 ≤ body.actualPricePerHour * body.actualRuntimeS.toNat) :
    Settles body.escrowId jobId locked paid s (Ledger.releaseEscrow body) := by
  have hpaid : paid ≤ 0 := hsettled.unpaid hlocked hlive
  obtain ⟨⟨e, hget, hjob, rfl⟩, hle, _⟩ := hsettled
  obtain ⟨e', hget', hstate⟩ := hlocked
  cases hget.symm.trans hget'
  have hcost : 0 ≤ Ledger.actualCost body e.lockedNmc := by
    refine le_min ?_ hpos
    rw [← mul_div_assoc]
    exact div_nonneg hprice (by norm_num)
  have hcostle : Ledger.actualCost body e.lockedNmc ≤ e.lockedNmc := min_le_right _ _
  unfold Ledger.releaseEscrow
  refine .silent hle fun s₁ h₁ => ⟨some e, s₁, ?_, rfl, ?_⟩
  · simp [Action.exec, Read.eval, h₁.escrow hget, hstate]
  dsimp only
  generalize Ledger.actualCost body e.lockedNmc = cost at *
  refine .pay hle fun s₂ h₂ refunded hrefunded => ?_
  have hget₂ := h₂.escrow (h₁.escrow hget)
  have hle₂ := payout_settle_le body.escrowId s₂ e.consumerId e.lockedNmc (e.lockedNmc - cost)
  rw [← hrefunded, max_eq_right (sub_nonneg.mpr hcostle)] at hle₂
  refine .pay (by linarith) fun s₃ h₃ credited hcredited => ?_
  have hget₃ := h₃.escrow (s := s₂.write _) hget₂
  have hle₃ := payout_earn_le body.escrowId s₃ (e.providerId.getD "") (cost - cost * (8 / 100))
  rw [← hcredited, max_eq_right (by linarith)] at hle₃
  have hle₄ : paid + refunded + credited ≤ e.lockedNmc := by linarith
  refine .silent hle₄ fun s₄ h₄ => ⟨_, _, rfl, rfl, ?_⟩
  have hget₄ := h₄.escrow (s := s₃.write _) hget₃
  refine ⟨⟨e.release, ?_, hjob, rfl⟩, hle₄, fun hlocked _ => absurd hlocked (rowLocked_release hget₄)⟩
  exact (Table.get?_update_self _ _ _).trans (congrArg _ hget₄)

theorem not_jobFinal {job : Job} (hjob : s.jobs.get? jobId = some job)
    (hlive : job.state.isTerminal = false) : ¬ JobFinal jobId s := by
  rintro ⟨job', hjob', hfinal⟩
  cases hjob.symm.trans hjob'
  rw [hlive] at hfinal
  cases hfinal

/-- The job is closed first; the row is refunded if it is still locked. -/
theorem cancelJob_settles (hsettled : SettledOnce escrowId jobId locked paid s) (hpos : 0 ≤ locked)
    {job : Job} (hjob : s.jobs.get? jobId = some job) (hlive : job.state.isTerminal = false) :
    Settles escrowId jobId locked paid s (cancelJob jobId) := by
  have hnotfinal := not_jobFinal hjob hlive
  obtain ⟨⟨e, hget, rfl, rfl⟩, hle, hunpaid⟩ := hsettled
  unfold cancelJob
  refine .silent hle fun s₁ h₁ => ⟨some job, s₁, ?_, rfl, ?_⟩
  · simp only [Action.exec, Read.eval, h₁.job hjob]
  dsimp only
  rw [if_neg (by simp [hlive])]
  refine .silent hle fun s₂ h₂ => ⟨_, _, rfl, rfl, ?_⟩
  refine .pay hle fun s₃ h₃ refunded hrefunded => ?_
  have hget₃ := h₃.escrow (s := { s₂ with jobs := _ }) (h₂.escrow (h₁.escrow hget))
  have hle₃ : paid + refunded ≤ e.lockedNmc := by
    have hbound := payout_refundJob_le escrowId s₃ job.consumerId e.jobId hget₃
    rw [← hrefunded] at hbound
    split at hbound
    · rename_i hlocked
      have hpaid := hunpaid ⟨e, hget, hlocked⟩ hnotfinal
      rw [max_eq_right hpos] at hbound
      linarith
    · linarith
  refine .silent hle₃ fun s₄ h₄ => ⟨_, _, rfl, rfl, ?_⟩
  have hget₄ := h₄.escrow (s := s₃.write _) hget₃
  refine .of_uses (by simp [Uses, Action.PaysNothing, Action.SparesBooks]) ?_
  obtain ⟨e', hget', hjob', hlocked', hstate'⟩ := get?_releaseOfJob hget₄
  refine ⟨⟨e', hget', hjob', hlocked'⟩, hle₃, fun hlocked _ => ?_⟩
  obtain ⟨e'', hget'', hstate''⟩ := hlocked
  cases hget'.symm.trans hget''
  exact absurd hstate'' hstate'

theorem jobFinal_update {f : Job → Job} (hfinal : ∀ job, (f job).state.isTerminal) {job : Job}
    (hjob : t.jobs.get? jobId = some job) : JobFinal jobId { t with jobs := t.jobs.update jobId f } :=
  ⟨f job, by rw [Option.mem_def, Table.get?_update_self, hjob, Option.map_some], hfinal job⟩

/-- The job is marked before its provider is paid. -/
theorem completeJob_settles {config : Config} {txId : TxId} {body : CompleteJobBody}
    (hsettled : SettledOnce escrowId jobId locked paid s) (hpos : 0 ≤ locked) (hpaid : paid ≤ 0)
    {job : Job} (hjob : s.jobs.get? jobId = some job)
    (hprovider : job.providerId = some body.providerId)
    (hworth : grossNmc job body * (1 - platformFee) ≤ locked) :
    Settles escrowId jobId locked paid s (completeJob config txId jobId body) := by
  obtain ⟨⟨e, hget, rfl, rfl⟩, hle, _⟩ := hsettled
  unfold completeJob
  refine .silent hle fun s₁ h₁ => ⟨some job, s₁, ?_, rfl, ?_⟩
  · simp [Action.exec, Read.eval, h₁.job hjob, hprovider]
  dsimp only
  refine .silent hle fun s₂ h₂ => ⟨_, _, rfl, rfl, ?_⟩
  have hfinal := jobFinal_update (t := s₂) (f := .report s₂.now .complete body.outputHash
    body.actualRuntimeS) (fun _ => rfl) (h₂.job (h₁.job hjob))
  refine .pay hle fun s₃ h₃ earned hearned => ?_
  have hget₃ := h₃.escrow (s := { s₂ with jobs := _ }) (h₂.escrow (h₁.escrow hget))
  have hbound := payout_earn_le escrowId s₃ body.providerId (grossNmc job body * (1 - platformFee))
  rw [← hearned] at hbound
  have hle₃ : paid + earned ≤ e.lockedNmc := by
    have hmax := max_le hpos hworth
    linarith
  refine .of_uses ?_ ⟨⟨e, hget₃, rfl, rfl⟩, hle₃, fun _ hlive => absurd ?_ hlive⟩
  · split <;> simp [Uses, Action.PaysNothing, Action.SparesBooks]
  · obtain ⟨job', hjob', hterminal⟩ := hfinal
    exact ⟨job', h₃.job hjob', hterminal⟩

/-- The job is marked before its consumer's escrow is released. -/
theorem failJob_settles {config : Config} {body : FailJobBody}
    (hsettled : SettledOnce escrowId jobId locked paid s) (hpos : 0 ≤ locked) (hpaid : paid ≤ 0)
    (hescrowed : ∀ job ∈ s.jobs.get? jobId, ∀ a ∈ s.creditAccounts.get? job.consumerId,
      a.escrowedNmc.getD 0 ≤ locked) :
    Settles escrowId jobId locked paid s (failJob config jobId body) := by
  obtain ⟨⟨e, hget, rfl, rfl⟩, hle, _⟩ := hsettled
  unfold failJob
  refine .silent hle fun s₁ h₁ => ⟨_, _, rfl, rfl, ?_⟩
  refine .pay hle fun s₂ h₂ released hreleased => ?_
  have hget₂ := h₂.escrow (s := { s₁ with jobs := _ }) (h₁.escrow hget)
  have hlookup : s₂.jobs.get? e.jobId = (s.jobs.get? e.jobId).map (.close s₁.now .failed) := by
    rw [← h₁.job rfl]
    exact h₂.job (Table.get?_update_self _ _ _)
  have hbound : released ≤ if (s₂.jobs.get? e.jobId).isSome then max 0 e.lockedNmc else 0 := by
    rw [hreleased]
    refine payout_releaseAll_le escrowId s₂ fun job' hjob' a ha => ?_
    rw [Option.mem_def, hlookup] at hjob'
    obtain ⟨job, hjob, rfl⟩ := Option.map_eq_some_iff.mp hjob'
    refine hescrowed job hjob a ?_
    rw [Option.mem_def, h₁.creditAccounts.get?_eq]
    exact (h₂.creditAccounts.get?_eq _).trans ha
  have htail : SettledOnce escrowId e.jobId e.lockedNmc (paid + released)
      (s₂.write (.releaseAll e.jobId)) := by
    cases hjob : s.jobs.get? e.jobId with
    | none =>
        rw [hlookup, hjob, Option.map_none, Option.isSome_none, if_neg Bool.false_ne_true] at hbound
        exact ⟨⟨e, hget₂, rfl, rfl⟩, by linarith, fun _ _ => by linarith⟩
    | some job =>
        rw [hjob, Option.map_some] at hlookup
        rw [hlookup, Option.isSome_some, if_pos rfl, max_eq_right hpos] at hbound
        refine ⟨⟨e, hget₂, rfl, rfl⟩, by linarith, fun _ hlive => absurd ?_ hlive⟩
        exact ⟨_, hlookup, rfl⟩
  refine .of_uses ?_ htail
  split <;> split <;> simp [Uses, Action.PaysNothing, Action.SparesBooks]

theorem refundConsumerEscrow_settles {txId : TxId} {next : Cycle} {e : Escrow}
    (hget : s.escrows.get? escrowId = some e) (hfinal : JobFinal e.jobId s) (hpos : 0 ≤ e.lockedNmc)
    (hle : paid ≤ e.lockedNmc) (hunpaid : e.state = .locked → paid ≤ 0)
    (hnext : next.Uses Action.PaysNothing) :
    Settles escrowId e.jobId e.lockedNmc paid s (refundConsumerEscrow txId e.jobId next) := by
  obtain ⟨job, hjob, hterminal⟩ := hfinal
  unfold refundConsumerEscrow
  refine .silent hle fun s₁ h₁ => ⟨_, _, rfl, rfl, ?_⟩
  have hget₁ := h₁.escrow hget
  cases hfirst : firstLocked s₁.escrows e.jobId with
  | none =>
      simp only [Read.eval, hfirst]
      exact .of_uses hnext
        ⟨⟨e, hget₁, rfl, rfl⟩, hle, fun _ hlive => absurd ⟨job, h₁.job hjob, hterminal⟩ hlive⟩
  | some row =>
      obtain ⟨refundedId, refunded⟩ := row
      obtain ⟨hgetRefunded, _, hlocked⟩ := firstLocked_eq_some hfirst
      simp only [Read.eval, hfirst]
      refine .silent hle fun s₂ h₂ => ⟨_, _, rfl, rfl, ?_⟩
      have hrow : ∃ e', (s₂.escrows.update refundedId .release).get? escrowId = some e' ∧
          e'.jobId = e.jobId ∧ e'.lockedNmc = e.lockedNmc := by
        rw [Table.get?_update]
        split
        · rename_i hsame
          rw [← hsame, h₂.escrow hget₁]
          exact ⟨e.release, rfl, rfl, rfl⟩
        · exact ⟨e, h₂.escrow hget₁, rfl, rfl⟩
      obtain ⟨e', hget', hjob', hlocked'⟩ := hrow
      refine .pay hle fun s₃ h₃ amount hamount => ?_
      have hbound := payout_refund_le escrowId s₃ refunded.consumerId refundedId refunded.lockedNmc
      rw [← hamount] at hbound
      have hle₃ : paid + amount ≤ e.lockedNmc := by
        split at hbound
        · rename_i hsame
          cases hsame
          cases hget₁.symm.trans hgetRefunded
          have hpaid := hunpaid hlocked
          rw [max_eq_right hpos] at hbound
          linarith
        · linarith
      refine .of_uses ?_ ⟨⟨e', h₃.escrow (s := { s₂ with escrows := _ }) hget', hjob', hlocked'⟩,
        hle₃, fun _ hlive => absurd ⟨job, ?_, hterminal⟩ hlive⟩
      · simpa [Uses, Action.PaysNothing, Action.SparesBooks] using hnext
      · exact h₃.job (s := { s₂ with escrows := _ }) (h₂.job (h₁.job hjob))

/-- The job is given up first; the row that is refunded is released before the refund. -/
theorem migrateOrFailJob_settles {txId : TxId} {providerId : ProviderId}
    (hsettled : SettledOnce escrowId jobId locked paid s) (hpos : 0 ≤ locked) {job : Job}
    (hjob : s.jobs.get? jobId = some job) (hprogress : job.state.inProgress) :
    Settles escrowId jobId locked paid s
      (migrateOrFailJob txId jobId providerId (.done true)) := by
  have hlive : job.state.isTerminal = false := by
    revert hprogress
    cases job.state <;> decide
  have hnotfinal := not_jobFinal hjob hlive
  obtain ⟨⟨e, hget, rfl, rfl⟩, hle, hunpaid⟩ := hsettled
  unfold migrateOrFailJob
  refine .silent hle fun s₁ h₁ => ⟨some job, s₁, ?_, rfl, ?_⟩
  · simp only [Action.exec, Read.eval, h₁.job hjob]
  dsimp only
  rw [if_neg (by simp [hprogress])]
  by_cases hrestorable : restorable job
  · rw [if_pos hrestorable]
    refine .silent hle fun s₂ h₂ => ⟨_, _, rfl, rfl, ?_⟩
    have hget₂ := h₂.escrow (h₁.escrow hget)
    refine ⟨⟨e, hget₂, rfl, rfl⟩, hle, fun hlocked _ => hunpaid ?_ hnotfinal⟩
    obtain ⟨e', hget', hstate⟩ := hlocked
    cases hget₂.symm.trans hget'
    exact ⟨e, hget, hstate⟩
  · rw [if_neg hrestorable]
    refine .silent hle fun s₂ h₂ => ⟨_, _, rfl, rfl, ?_⟩
    have hget₂ := h₂.escrow (h₁.escrow hget)
    have hfinal := jobFinal_update (t := s₂) (f := .giveUp s₂.now (failureReason job))
      (fun _ => rfl) (h₂.job (h₁.job hjob))
    refine refundConsumerEscrow_settles hget₂ hfinal hpos hle
      (fun hstate => hunpaid ⟨e, hget, hstate⟩ hnotfinal) ?_
    simp [Uses, Action.PaysNothing, Action.SparesBooks]

end Settlement

/-! ### Many settlements -/

namespace Operation

/-- The settlements of a row: the ledger's release of it, and what closes its job. -/
def SettlesRow (escrowId : EscrowId) (jobId : JobId) : Operation → Prop
  | releaseEscrow body => body.escrowId = escrowId
  | cancelJob id | completeJob _ _ id _ | failJob _ id _ | migrateOrFailJob _ id _ => id = jobId
  | _ => False

/-- The settlement's check passes, so that it goes on to pay; `fail_job` has none. -/
def Passes (escrowId : EscrowId) (jobId : JobId) (s : Db) : Operation → Prop
  | releaseEscrow _ => RowLocked escrowId s
  | cancelJob _ => ∃ job ∈ s.jobs.get? jobId, job.state.isTerminal = false
  | completeJob _ _ _ body => ∃ job ∈ s.jobs.get? jobId, job.providerId = some body.providerId
  | migrateOrFailJob _ _ _ => ∃ job ∈ s.jobs.get? jobId, job.state.inProgress
  | _ => True

/-- What the settlement is about to pay is still there: neither the row nor its job is marked as
settled where the check leaves that open, and the price, the runtime or the consumer's column that
the amount comes from is within what is locked. -/
def Covered (escrowId : EscrowId) (jobId : JobId) (locked : ℚ) (s : Db) : Operation → Prop
  | releaseEscrow body =>
      ¬ JobFinal jobId s ∧ 0 ≤ body.actualPricePerHour * body.actualRuntimeS.toNat
  | completeJob _ _ _ body =>
      RowLocked escrowId s ∧ ¬ JobFinal jobId s ∧ ∀ job ∈ s.jobs.get? jobId,
        job.pricePerHour.getD (5 / 100) * body.actualRuntimeS * (92 / 100) ≤ locked * 3600
  | failJob _ _ _ =>
      RowLocked escrowId s ∧ ¬ JobFinal jobId s ∧ ∀ job ∈ s.jobs.get? jobId,
        ∀ a ∈ s.creditAccounts.get? job.consumerId, a.escrowedNmc.getD 0 ≤ locked
  | _ => True

end Operation

/-- The guard: a settlement whose check passes starts only while no other is between two of its
statements and what it pays is covered; no statement is lost. -/
def TakesTurns (escrowId : EscrowId) (jobId : JobId) (locked : ℚ) (p : Requests) :
    Event Action Db Operation → Prop
  | .ran i op _ before _ =>
      (∃ rest, p.requests[i]? = some ⟨op, false, rest⟩) → op.Passes escrowId jobId before →
        p.Alone i ∧ op.Covered escrowId jobId locked before
  | .lost _ _ _ => False
  | .refused _ _ _ | .environment => True

/-- A settlement's check is its first statement, and it never fails. When the check does not pass,
the settlement returns. -/
theorem Operation.SettlesRow.check {escrowId : EscrowId} {jobId : JobId} {op : Operation}
    (hop : op.SettlesRow escrowId jobId) {q : Action} {next : q.Answer → Program Action.Answer Unit}
    {fail : Program Action.Answer Unit} (hprogram : op.program = .query q next fail) (s : Db) :
    ∃ a t, q.exec s = some (a, t) ∧
      (¬ op.Passes escrowId jobId s → t = s ∧ ∃ result, next a = .done result) := by
  cases op with
  | releaseEscrow body =>
      cases hop
      cases hprogram
      refine ⟨_, _, rfl, fun hfails => ⟨rfl, ?_⟩⟩
      have hnone : (s.escrows.get? body.escrowId).filter (fun e => e.state = .locked) = none := by
        rw [Option.filter_eq_none_iff]
        intro e he hlocked
        exact hfails ⟨e, he, of_decide_eq_true hlocked⟩
      simp only [Read.eval, hnone]
      exact ⟨_, rfl⟩
  | cancelJob id =>
      cases hop
      cases hprogram
      refine ⟨_, _, rfl, fun hfails => ⟨rfl, ?_⟩⟩
      simp only [Read.eval]
      cases hjob : s.jobs.get? jobId with
      | none => exact ⟨_, rfl⟩
      | some job =>
          dsimp only
          split
          · exact ⟨_, rfl⟩
          · rename_i hlive
            exact absurd ⟨job, hjob, by simpa using hlive⟩ hfails
  | completeJob config txId id body =>
      cases hop
      cases hprogram
      refine ⟨_, _, rfl, fun hfails => ⟨rfl, ?_⟩⟩
      have hnone : (s.jobs.get? jobId).filter (fun j => j.providerId = some body.providerId) =
          none := by
        rw [Option.filter_eq_none_iff]
        intro job hjob hprovider
        exact hfails ⟨job, hjob, of_decide_eq_true hprovider⟩
      simp only [Read.eval, hnone]
      exact ⟨_, rfl⟩
  | failJob config id body =>
      cases hprogram
      exact ⟨_, _, rfl, fun hfails => absurd trivial hfails⟩
  | migrateOrFailJob txId id providerId =>
      cases hop
      cases hprogram
      refine ⟨_, _, rfl, fun hfails => ⟨rfl, ?_⟩⟩
      simp only [Read.eval]
      cases hjob : s.jobs.get? jobId with
      | none => exact ⟨_, rfl⟩
      | some job =>
          dsimp only
          split
          · exact ⟨_, rfl⟩
          · rename_i hprogress
            exact absurd ⟨job, hjob, by simpa using hprogress⟩ hfails
  | _ => exact hop.elim

/-- A settlement that is alone and covered pays at most what is locked. -/
theorem Operation.SettlesRow.settles {escrowId : EscrowId} {jobId : JobId} {locked paid : ℚ}
    {op : Operation} (hop : op.SettlesRow escrowId jobId) {s : Db} (hpos : 0 ≤ locked)
    (hpasses : op.Passes escrowId jobId s) (hcovered : op.Covered escrowId jobId locked s)
    (hsettled : SettledOnce escrowId jobId locked paid s) :
    Settles escrowId jobId locked paid s op.program := by
  cases op with
  | releaseEscrow body =>
      cases hop
      exact Program.ends_forget.mpr
        (releaseEscrow_settles hsettled hpos hpasses hcovered.1 hcovered.2)
  | cancelJob id =>
      cases hop
      obtain ⟨job, hjob, hlive⟩ := hpasses
      exact Program.ends_forget.mpr (cancelJob_settles hsettled hpos hjob hlive)
  | completeJob config txId id body =>
      cases hop
      obtain ⟨job, hjob, hprovider⟩ := hpasses
      obtain ⟨hlocked, hlive, hworth⟩ := hcovered
      refine Program.ends_forget.mpr (completeJob_settles hsettled hpos
        (hsettled.unpaid hlocked hlive) hjob hprovider ?_)
      have hle := hworth job hjob
      rw [grossNmc, platformFee]
      linarith
  | failJob config id body =>
      cases hop
      obtain ⟨hlocked, hlive, hescrowed⟩ := hcovered
      exact Program.ends_forget.mpr
        (failJob_settles hsettled hpos (hsettled.unpaid hlocked hlive) hescrowed)
  | migrateOrFailJob txId id providerId =>
      cases hop
      obtain ⟨job, hjob, hprogress⟩ := hpasses
      exact Program.ends_forget.mpr (migrateOrFailJob_settles hsettled hpos hjob hprogress)
  | _ => exact hop.elim

/-- Two releases that both read the row before either marks it refund its consumer twice. -/
theorem overlapping_releases {s : Db} {body : Ledger.EscrowReleaseBody} {e : Escrow}
    (hget : s.escrows.get? body.escrowId = some e) (hlocked : e.state = .locked) {a : CreditAccount}
    (haccount : s.creditAccounts.get? e.consumerId = some a) {x : ℚ} (hx : a.availableNmc = some x) :
    ∃ es p, (Pool.start Operation.program s [.releaseEscrow body, .releaseEscrow body]).Runs
        Action.exec Db.Shuffled (fun _ e => e.isLost = false) es p ∧
      paidOut body.escrowId es = 2 * max 0 (e.lockedNmc - Ledger.actualCost body e.lockedNmc) := by
  have hread : Action.exec (.read (.lockedEscrow body.escrowId)) s = some (some e, s) := by
    simp [Action.exec, Read.eval, hget, hlocked]
  have hstart : Pool.Runs Action.exec Db.Shuffled (fun _ e => e.isLost = false) _ [] _ :=
    .nil (Pool.start Operation.program s [.releaseEscrow body, .releaseEscrow body])
  have hrun := (((hstart.snoc (.ran (i := 0) rfl hread) rfl).snoc (.ran (i := 1) rfl hread) rfl).snoc
    (.ran (i := 0) rfl rfl) rfl).snoc (.ran (i := 1) rfl rfl) rfl
  refine ⟨_, _, hrun, ?_⟩
  let refunded := e.lockedNmc - Ledger.actualCost body e.lockedNmc
  have hfirst := payout_settle_eq body.escrowId s e.consumerId e.lockedNmc refunded haccount hx
  have haccount' : (s.write (.settle e.consumerId e.lockedNmc refunded)).creditAccounts.get?
      e.consumerId = some (a.settle e.lockedNmc refunded) := by
    rw [Db.write, AccountsWrite.apply, updateAccount_all, Table.get?_update_self, haccount,
      Option.map_some]
  have hsecond := payout_settle_eq body.escrowId _ e.consumerId e.lockedNmc refunded haccount'
    (x := x + refunded) (by simp [CreditAccount.settle, hx])
  rw [paidOut, totalWeight_append, totalWeight_append, totalWeight_append, totalWeight_append,
    totalWeight_nil, two_mul]
  refine congrArg₂ (· + ·) ((congrArg₂ (· + ·) ?_ hfirst).trans (zero_add _)) hsecond
  simp only [Event.weight, payout_eq_zero, zero_add]

end NeuralMesh
