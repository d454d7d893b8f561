import NeuralMesh.Base.Failure
import NeuralMesh.Coordinator.Books
import NeuralMesh.Ledger.Handlers
import NeuralMesh.Store.Frame
import NeuralMesh.System.Operation
import Mathlib.Tactic.Linarith

/-!
# A handler that fails half way

No handler opens a transaction: every statement commits by itself. When a statement fails, the
handler leaves with an error and what the statements before it wrote stays.
-/

namespace NeuralMesh

open Coordinator Program

/-- The tables that record money. -/
def Db.money (s : Db) : Books × Table TxId Transaction := (s.books, s.transactions)

/-! ### The handlers -/

/-- `refund_consumer_escrow` by itself, answering `true` for `Ok(())`. -/
def refundResult (txId : TxId) (jobId : JobId) : Cycle :=
  askOr false (.read (.lockedEscrowOfJob jobId)) fun (escrow : Option (EscrowId × Escrow)) =>
  match escrow with
  | none => done true
  | some (escrowId, escrow) =>
      askOr false (.escrows (.release escrowId)) fun _ =>
      askOr false (.creditAccounts (.refund escrowId escrow.consumerId escrow.lockedNmc)) fun _ =>
      askOr false
        (.insertTransaction txId
          { accountId := escrow.consumerId
            txType := .escrowRelease
            amountNmc := escrow.lockedNmc
            withBalance := false
            reference := some jobId
            description := "Provider disconnect refund" })
        fun _ =>
      done true

/-- Its only caller goes on whatever it answers. -/
theorem refundConsumerEscrow_eq (txId : TxId) (jobId : JobId) (next : Cycle) :
    refundConsumerEscrow txId jobId next = (refundResult txId jobId).bind fun _ => next := by
  unfold refundConsumerEscrow refundResult
  apply congrArg fun rest => Program.query _ rest _
  funext escrow
  cases escrow with
  | none => rfl
  | some row => rfl

/-- The handlers that move money in several statements. -/
inductive MoneyHandler where
  | submitJob (ids : SubmitIds) (body : SubmitJobBody)
  | cancelJob (jobId : JobId)
  | completeJob (config : Config) (txId : TxId) (jobId : JobId) (body : CompleteJobBody)
  | withdraw (txId : TxId) (body : Coordinator.WithdrawBody)
  | refundConsumerEscrow (txId : TxId) (jobId : JobId)
  | lockEscrow (escrowId : EscrowId) (body : Ledger.EscrowLockBody)
  | releaseEscrow (body : Ledger.EscrowReleaseBody)

namespace MoneyHandler

/-- The handler returned `Ok`. -/
def succeeded (reply : Reply) : Bool := reply.status = .ok

/-- The handler, answering whether it returned `Ok`. -/
def program : MoneyHandler → Program Action.Answer Bool
  | submitJob ids body => (Coordinator.submitJob ids body).map succeeded
  | cancelJob jobId => (Coordinator.cancelJob jobId).map succeeded
  | completeJob config txId jobId body =>
      (Coordinator.completeJob config txId jobId body).map succeeded
  | withdraw txId body => (Coordinator.withdraw txId body).map succeeded
  | refundConsumerEscrow txId jobId => refundResult txId jobId
  | lockEscrow escrowId body => (Ledger.lockEscrow escrowId body).map succeeded
  | releaseEscrow body => (Ledger.releaseEscrow body).map succeeded

/-- How many statements come before the second write. -/
def firstWrite : MoneyHandler → Nat
  | lockEscrow _ _ => 1
  | _ => 2

/-- The first write of the handler changes a row; for three handlers it may find the row as it
would leave it. -/
def Alters (s : Db) : MoneyHandler → Prop
  | completeJob _ _ jobId body =>
      ∀ job ∈ s.jobs.get? jobId, job.report s.now .complete body.outputHash body.actualRuntimeS ≠ job
  | lockEscrow _ body => body.amountNmc ≠ 0
  | releaseEscrow body =>
      ∀ e ∈ s.escrows.get? body.escrowId, e.lockedNmc ≠ 0 ∧
        ∃ a ∈ s.creditAccounts.get? e.consumerId, a.escrowedNmc.isSome
  | _ => True

/-- A statement whose failure is returned as an error ends the handler. -/
theorem leavesOnError (handler : MoneyHandler) :
    handler.program.LeavesOnError fun ok => ok = false := by
  cases handler with
  | submitJob ids body =>
      refine ⟨fun credit => ?_, .inl ⟨_, rfl⟩⟩
      dsimp only
      split
      · trivial
      · simp [Program.map, LeavesOnError]
  | cancelJob jobId =>
      refine ⟨fun job => ?_, .inl ⟨_, rfl⟩⟩
      cases job with
      | none => trivial
      | some job =>
          dsimp only
          split
          · trivial
          · simp [Program.map, LeavesOnError]
  | completeJob config txId jobId body =>
      refine ⟨fun job => ?_, .inl ⟨_, rfl⟩⟩
      cases job with
      | none => trivial
      | some job =>
          dsimp only
          split
          · simp [Program.map, LeavesOnError, Returns, succeeded, Reply.json]
          · simp [Program.map, LeavesOnError]
  | withdraw txId body =>
      simp only [program, Coordinator.withdraw]
      split
      · trivial
      split
      · trivial
      refine ⟨fun credit => ?_, .inl ⟨_, rfl⟩⟩
      dsimp only
      split
      · trivial
      · simp [Program.map, LeavesOnError]
  | refundConsumerEscrow txId jobId =>
      refine ⟨fun escrow => ?_, .inl ⟨_, rfl⟩⟩
      cases escrow with
      | none => trivial
      | some row => simp [LeavesOnError]
  | lockEscrow escrowId body =>
      refine ⟨fun rows => ?_, .inl ⟨_, rfl⟩⟩
      dsimp only
      split
      · trivial
      · simp [Program.map, LeavesOnError]
  | releaseEscrow body =>
      refine ⟨fun escrow => ?_, .inl ⟨_, rfl⟩⟩
      cases escrow with
      | none => trivial
      | some escrow => simp [Program.map, LeavesOnError]

/-- Before its first write, a handler has read only. -/
theorem afterFirst_of_lt {handler : MoneyHandler} {n : Nat} (hn : n < handler.firstWrite) {s t : Db}
    (hafter : handler.program.afterFirst Action.exec n s = some t) : t = s := by
  cases n with
  | zero => exact (Option.some.inj hafter).symm
  | succ n =>
      cases handler with
      | lockEscrow escrowId body => simp [firstWrite] at hn
      | withdraw txId body =>
          have hzero : n = 0 := by
            simp only [firstWrite] at hn
            omega
          subst hzero
          simp only [program, Coordinator.withdraw] at hafter
          split at hafter
          · cases hafter
          split at hafter
          · cases hafter
          obtain ⟨a, s', hexec, hrest⟩ := afterFirst_succ _ hafter
          cases hexec
          exact (Option.some.inj hrest).symm
      | _ =>
          have hzero : n = 0 := by
            simp only [firstWrite] at hn
            omega
          subst hzero
          obtain ⟨a, s', hexec, hrest⟩ := afterFirst_succ _ hafter
          cases hexec
          exact (Option.some.inj hrest).symm

/-! ### What the first write leaves -/

theorem money_ne_of_part (part : Part) {s t : Db}
    (hpart : part ∈ [Part.creditAccounts, .escrows, .jobs])
    (hchanged : ¬ s.SameIn part t) : t.money ≠ s.money := by
  intro hsame
  obtain ⟨hbooks, _⟩ := Prod.mk.inj hsame
  apply hchanged
  cases part with
  | creditAccounts => exact congrArg Books.accounts hbooks
  | escrows => exact congrArg Books.escrows hbooks
  | jobs => exact congrArg Books.jobs hbooks
  | _ => exact absurd hpart (by decide)

variable {s t : Db} {n : Nat}

theorem submitJob_stays {ids : SubmitIds} {body : SubmitJobBody}
    (hafter : (submitJob ids body).program.afterFirst Action.exec (n + 2) s = some t) :
    t.money ≠ s.money := by
  obtain ⟨credit, s₁, hread, hrest⟩ := afterFirst_succ _ hafter
  cases hread
  dsimp only at hrest
  split at hrest
  · cases hrest
  obtain ⟨_, s₂, hinsert, hrest⟩ := afterFirst_succ _ hrest
  obtain ⟨jobs, hjobs, heq⟩ := Option.map_eq_some_iff.mp hinsert
  cases heq
  apply money_ne_of_part .jobs (by decide)
  refine not_sameIn_afterFirst ?_ ?_ hrest
  · exact Table.insert?_ne hjobs
  · simp [Uses, Program.map, Action.touches]

theorem cancelJob_stays {jobId : JobId}
    (hafter : (cancelJob jobId).program.afterFirst Action.exec (n + 2) s = some t) :
    t.money ≠ s.money := by
  obtain ⟨job, s₁, hread, hrest⟩ := afterFirst_succ _ hafter
  cases hread
  dsimp only [Read.eval] at hrest
  cases hjob : s.jobs.get? jobId with
  | none =>
      rw [hjob] at hrest
      cases hrest
  | some job =>
      rw [hjob] at hrest
      dsimp only at hrest
      split at hrest
      · cases hrest
      rename_i hlive
      obtain ⟨_, s₂, hclose, hrest⟩ := afterFirst_succ _ hrest
      cases hclose
      have hcloses : job.close s.now .cancelled ≠ job := by
        intro hsame
        rw [← hsame] at hlive
        exact hlive rfl
      apply money_ne_of_part .jobs (by decide)
      refine not_sameIn_afterFirst ?_ ?_ hrest
      · exact Table.update_ne hjob hcloses
      · simp [Uses, Program.map, Action.touches]

theorem completeJob_stays {config : Config} {txId : TxId} {jobId : JobId} {body : CompleteJobBody}
    (halters : (completeJob config txId jobId body).Alters s)
    (hafter : (completeJob config txId jobId body).program.afterFirst Action.exec (n + 2) s =
      some t) :
    t.money ≠ s.money := by
  obtain ⟨job, s₁, hread, hrest⟩ := afterFirst_succ _ hafter
  cases hread
  dsimp only [Read.eval] at hrest
  cases hjob : (s.jobs.get? jobId).filter fun j => j.providerId = some body.providerId with
  | none =>
      rw [hjob] at hrest
      cases hrest
  | some job =>
      rw [hjob] at hrest
      obtain ⟨_, s₂, hreport, hrest⟩ := afterFirst_succ _ hrest
      cases hreport
      have hrow : s.jobs.get? jobId = some job := (Option.filter_eq_some_iff.mp hjob).1
      apply money_ne_of_part .jobs (by decide)
      refine not_sameIn_afterFirst ?_ ?_ hrest
      · exact Table.update_ne hrow (halters job hrow)
      · apply uses_map.mpr
        dsimp only
        split <;> simp [Uses, Action.touches]

theorem withdraw_stays {txId : TxId} {body : Coordinator.WithdrawBody}
    (hafter : (withdraw txId body).program.afterFirst Action.exec (n + 2) s = some t) :
    t.money ≠ s.money := by
  simp only [program, Coordinator.withdraw] at hafter
  split at hafter
  · cases hafter
  rename_i hamount
  split at hafter
  · cases hafter
  obtain ⟨credit, s₁, hread, hrest⟩ := afterFirst_succ _ hafter
  cases hread
  dsimp only [Read.eval] at hrest
  split at hrest
  · cases hrest
  rename_i hcovered
  obtain ⟨_, s₂, hdebit, hrest⟩ := afterFirst_succ _ hrest
  cases hdebit
  -- the check passed, so the account has a positive balance
  obtain ⟨a, x, ha, hx⟩ : ∃ a x, s.creditAccounts.get? body.accountId = some a ∧
      a.availableNmc = some x := by
    cases ha : s.creditAccounts.get? body.accountId with
    | none =>
        rw [ha] at hcovered
        exact absurd (not_le.mp hamount) hcovered
    | some a =>
        cases hx : a.availableNmc with
        | none =>
            simp only [ha, Option.map_some, Option.getD_some, hx, Option.getD_none] at hcovered
            exact absurd (not_le.mp hamount) hcovered
        | some x => exact ⟨a, x, rfl, hx⟩
  have hdebits : a.debit body.amountNmc ≠ a := by
    intro hsame
    have havailable := congrArg CreditAccount.availableNmc hsame
    rw [CreditAccount.debit, hx, nullSub_some, Option.some.injEq] at havailable
    linarith
  apply money_ne_of_part .creditAccounts (by decide)
  refine not_sameIn_afterFirst ?_ ?_ hrest
  · show (updateAccount _ _ _ _).2 ≠ _
    rw [updateAccount_all]
    exact Table.update_ne ha hdebits
  · simp [Uses, Program.map, Action.touches]

theorem refundConsumerEscrow_stays {txId : TxId} {jobId : JobId}
    (hafter : (refundConsumerEscrow txId jobId).program.afterFirst Action.exec (n + 2) s = some t) :
    t.money ≠ s.money := by
  obtain ⟨escrow, s₁, hread, hrest⟩ := afterFirst_succ _ hafter
  cases hread
  dsimp only [Read.eval] at hrest
  cases hfirst : firstLocked s.escrows jobId with
  | none =>
      rw [hfirst] at hrest
      cases hrest
  | some row =>
      obtain ⟨escrowId, e⟩ := row
      rw [hfirst] at hrest
      obtain ⟨_, s₂, hrelease, hrest⟩ := afterFirst_succ _ hrest
      cases hrelease
      obtain ⟨hrow, _, hlocked⟩ := firstLocked_eq_some hfirst
      have hreleases : e.release ≠ e := by
        intro hsame
        rw [← hsame] at hlocked
        cases hlocked
      apply money_ne_of_part .escrows (by decide)
      refine not_sameIn_afterFirst ?_ ?_ hrest
      · exact Table.update_ne hrow hreleases
      · simp [Uses, Action.touches]

theorem lockEscrow_stays {escrowId : EscrowId} {body : Ledger.EscrowLockBody}
    (halters : (lockEscrow escrowId body).Alters s)
    (hfails : (lockEscrow escrowId body).program.failsAfter Action.exec (n + 1) s =
      some (false, t))
    (hafter : (lockEscrow escrowId body).program.afterFirst Action.exec (n + 1) s = some t) :
    t.money ≠ s.money := by
  simp only [program, Ledger.lockEscrow, Program.map] at hfails hafter
  rcases updateAccount_cases s.creditAccounts body.consumerId
    (CreditAccount.covers body.amountNmc) (.lock body.amountNmc) with
    ⟨a, ha, hcovers, hlock⟩ | hlock
  · have hexec : Action.exec (.creditAccounts (.lockIfCovered body.consumerId body.amountNmc)) s =
        some (1, { s with
          creditAccounts := s.creditAccounts.update body.consumerId (.lock body.amountNmc) }) := by
      simp only [Action.exec, AccountsWrite.apply, hlock]
    obtain ⟨x, hx, _⟩ := covers_iff.mp hcovers
    have hlocks : a.lock body.amountNmc ≠ a := by
      intro hsame
      have havailable := congrArg CreditAccount.availableNmc hsame
      rw [CreditAccount.lock, Option.mem_def.mp hx, nullSub_some, Option.some.injEq] at havailable
      exact halters (by linarith)
    rw [afterFirst_succ_of_some _ hexec] at hafter
    apply money_ne_of_part .creditAccounts (by decide)
    refine not_sameIn_afterFirst ?_ ?_ hafter
    · exact Table.update_ne ha hlocks
    · simp [Uses, Program.map, Action.touches]
  · -- the balance did not cover the amount, so no statement follows
    have hexec : Action.exec (.creditAccounts (.lockIfCovered body.consumerId body.amountNmc)) s =
        some (0, s) := by
      simp only [Action.exec, AccountsWrite.apply, hlock]
    rw [failsAfter_succ_of_some _ hexec, if_pos rfl, Program.map, failsAfter_done] at hfails
    cases hfails

/-- The escrowed balance of an account is the same. -/
def SameEscrowed (c : AccountId) (s t : Db) : Prop :=
  ∀ a ∈ s.creditAccounts.get? c, ∃ b ∈ t.creditAccounts.get? c, b.escrowedNmc = a.escrowedNmc

/-- The credit of a provider, who may be the account itself, leaves it. -/
theorem sameEscrowed_afterFirst {c : AccountId} {α : Type} {p : Program Action.Answer α}
    (huses : p.Uses fun q => q.touches .creditAccounts = false ∨
      ∃ provider amount, q = .creditAccounts (.earn provider amount))
    (hafter : p.afterFirst Action.exec n s = some t) : SameEscrowed c s t := by
  refine afterFirst_rel Action.exec (R := SameEscrowed c) ?_ ?_ ?_ huses hafter
  · intro s a ha
    exact ⟨a, ha, rfl⟩
  · intro s₁ s₂ s₃ h₁ h₂ a ha
    obtain ⟨b, hb, hab⟩ := h₁ a ha
    obtain ⟨d, hd, hbd⟩ := h₂ b hb
    exact ⟨d, hd, hbd.trans hab⟩
  · intro q s answer s' hq hexec a ha
    rcases hq with hspares | ⟨provider, amount, rfl⟩
    · have hframe : s'.creditAccounts = s.creditAccounts :=
        Action.exec_sameIn .creditAccounts hspares hexec
      exact ⟨a, by rwa [hframe], rfl⟩
    · obtain ⟨_, rfl⟩ := Prod.mk.inj (Option.some.inj hexec)
      simp only [AccountsWrite.apply, Table.get?_upsert]
      split
      · rename_i hprovider
        rw [← hprovider, Option.mem_def.mp ha]
        exact ⟨_, rfl, rfl⟩
      · exact ⟨a, ha, rfl⟩

theorem releaseEscrow_stays {body : Ledger.EscrowReleaseBody}
    (halters : (releaseEscrow body).Alters s)
    (hafter : (releaseEscrow body).program.afterFirst Action.exec (n + 2) s = some t) :
    t.money ≠ s.money := by
  obtain ⟨escrow, s₁, hread, hrest⟩ := afterFirst_succ _ hafter
  cases hread
  dsimp only [Read.eval] at hrest
  cases hrow : (s.escrows.get? body.escrowId).filter fun e => e.state = .locked with
  | none =>
      rw [hrow] at hrest
      cases hrest
  | some e =>
      rw [hrow] at hrest
      obtain ⟨hlocked, a, ha, hsome⟩ := halters e (Option.filter_eq_some_iff.mp hrow).1
      obtain ⟨x, hx⟩ := Option.isSome_iff_exists.mp hsome
      obtain ⟨_, s₂, hsettle, hrest⟩ := afterFirst_succ _ hrest
      obtain ⟨_, rfl⟩ := Prod.mk.inj (Option.some.inj hsettle)
      have hsame := sameEscrowed_afterFirst (c := e.consumerId)
        (by simp [Uses, Program.map, Action.touches]) hrest
      intro hmoney
      have haccounts : t.creditAccounts = s.creditAccounts :=
        congrArg (fun m => m.1.accounts) hmoney
      obtain ⟨b, hb, hescrowed⟩ := hsame (a.settle e.lockedNmc _) (by
        simp only [AccountsWrite.apply, updateAccount_all, Table.get?_update_self,
          Option.mem_def.mp ha]
        rfl)
      rw [haccounts, Option.mem_def.mp ha, Option.mem_def, Option.some.injEq] at hb
      rw [← hb, CreditAccount.settle, hx, nullSub_some, Option.some.injEq] at hescrowed
      exact hlocked (by linarith)

/-- Once its first write has changed a row, the tables are not what they were. -/
theorem stays {handler : MoneyHandler} (halters : handler.Alters s) (hn : handler.firstWrite ≤ n)
    (hfails : handler.program.failsAfter Action.exec n s = some (false, t))
    (hafter : handler.program.afterFirst Action.exec n s = some t) : t.money ≠ s.money := by
  obtain ⟨m, rfl⟩ := Nat.exists_eq_add_of_le' hn
  cases handler with
  | submitJob ids body => exact submitJob_stays hafter
  | cancelJob jobId => exact cancelJob_stays hafter
  | completeJob config txId jobId body => exact completeJob_stays halters hafter
  | withdraw txId body => exact withdraw_stays hafter
  | refundConsumerEscrow txId jobId => exact refundConsumerEscrow_stays hafter
  | lockEscrow escrowId body => exact lockEscrow_stays halters hfails hafter
  | releaseEscrow body => exact releaseEscrow_stays halters hafter

end MoneyHandler

/-- A handler that leaves with an error because its statement after the first `n` failed has undone
nothing: the tables are as those statements left them. Before the first write that is as they were,
and after a first write that changes a row it is not. -/
theorem failed_handler_undoes_nothing {handler : MoneyHandler} {s t : Db} {n : Nat}
    (hfails : handler.program.failsAfter Action.exec n s = some (false, t)) :
    handler.program.afterFirst Action.exec n s = some t ∧
      (n < handler.firstWrite → t.money = s.money) ∧
      (handler.Alters s → handler.firstWrite ≤ n → t.money ≠ s.money) := by
  have hafter := handler.leavesOnError.afterFirst Action.exec hfails rfl
  refine ⟨hafter, fun hn => ?_, fun halters hn => ?_⟩
  · rw [MoneyHandler.afterFirst_of_lt hn hafter]
  · exact MoneyHandler.stays halters hn hfails hafter

/-! ### A lock for a job that does not exist -/

def lockUnknown : MoneyHandler := .lockEscrow "e" ⟨"a", "alice", none, 4⟩

/-- The foreign key refuses the second statement. -/
theorem lockUnknown_fails :
    let s := (topUp "alice" 10).after Db.init
    lockUnknown.program.failsAfter Action.exec 1 s = some (lockUnknown.program.run Action.exec s) ∧
      (lockUnknown.program.run Action.exec s).1 = false := by
  intro s
  constructor
  · rfl
  · rfl

/-- The lock is refused and the amount stays in `escrowed_nmc`. -/
theorem failed_handler_leaves_writes :
    ∃ (handler : MoneyHandler) (s : Db) (n : Nat) (t : Db), Reachable s ∧
      handler.program.failsAfter Action.exec n s = some (false, t) ∧ t.money ≠ s.money := by
  have hreach : Reachable ((topUp "alice" 10).after Db.init) :=
    .single (.operation trivial)
  obtain ⟨hfails, hfalse⟩ := lockUnknown_fails
  have hbefore : (((topUp "alice" 10).after Db.init).creditAccounts.get? "alice").bind
      CreditAccount.escrowedNmc = some 0 := by decide +kernel
  have hafter : ((lockUnknown.program.run Action.exec
      ((topUp "alice" 10).after Db.init)).2.creditAccounts.get? "alice").bind
      CreditAccount.escrowedNmc = some 4 := by decide +kernel
  generalize (topUp "alice" 10).after Db.init = s at *
  refine ⟨lockUnknown, s, 1, (lockUnknown.program.run Action.exec s).2, hreach, ?_, ?_⟩
  · rw [hfails, ← hfalse]
  · intro hmoney
    have haccounts : (lockUnknown.program.run Action.exec s).2.creditAccounts = s.creditAccounts :=
      congrArg (fun m => m.1.accounts) hmoney
    rw [haccounts, hbefore] at hafter
    exact absurd hafter (by decide)

theorem failed_handler_undoes_nothing_lock :
    let s := (topUp "alice" 10).after Db.init
    let t := (lockUnknown.program.run Action.exec s).2
    lockUnknown.program.afterFirst Action.exec 1 s = some t ∧
      (1 < lockUnknown.firstWrite → t.money = s.money) ∧
      (lockUnknown.Alters s → lockUnknown.firstWrite ≤ 1 → t.money ≠ s.money) := by
  intro s t
  obtain ⟨hfails, hfalse⟩ := lockUnknown_fails
  exact failed_handler_undoes_nothing (by rw [hfails, ← hfalse])

end NeuralMesh
