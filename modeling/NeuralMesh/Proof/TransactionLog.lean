import NeuralMesh.Base.Journal
import NeuralMesh.Coordinator.Books
import NeuralMesh.Proof.LedgerBalance
import NeuralMesh.Proof.Milestones
import NeuralMesh.System.History
import NeuralMesh.System.Statements

/-!
# What the transaction log explains

Eleven handlers of the two services move `available_nmc`. Some of them record what they move in
`transactions`, with its sign and sometimes with the balance after it, and some of them record
nothing.
-/

namespace NeuralMesh

open Coordinator Program

variable {s t u : Db}

def Transaction.entry (row : Transaction) : Entry AccountId ℚ :=
  ⟨row.accountId, row.amountNmc, row.balanceAfter⟩

/-- The rows that the operations inserted into `transactions`, oldest first. -/
def recordedIn (log : List (Db × Operation)) : List (TxId × Transaction) :=
  log.flatMap fun entry =>
    (entry.2.after entry.1).transactions.rows.drop entry.1.transactions.rows.length

theorem recordedIn_concat (log : List (Db × Operation)) (s : Db) (op : Operation) :
    recordedIn (log ++ [(s, op)]) = recordedIn log ++
      (op.after s).transactions.rows.drop s.transactions.rows.length := by
  rw [recordedIn, List.flatMap_append, List.flatMap_singleton]
  rfl

/-- The sum of `amount_nmc` over the rows of an account. -/
def amountOf (c : AccountId) (rows : List (TxId × Transaction)) : ℚ :=
  totalPosted c (rows.map fun row => row.2.entry)

/-- The log explains the balances: `recorded` are the rows of the table in the order in which they
were inserted. -/
structure Explains (recorded : List (TxId × Transaction)) (s : Db) : Prop where
  rows : recorded.Perm s.transactions.rows
  available : ∀ c, ((s.creditAccounts.get? c).map CreditAccount.availableNmc).getD (some 0) =
    some (amountOf c s.transactions.rows)
  after : ∀ before row later, recorded = before ++ row :: later →
    ∀ x ∈ row.2.balanceAfter, x = amountOf row.2.accountId (before ++ [row])

/-- What a release moves on the balance of an account. -/
def movedByRelease (s : Db) (e : Escrow) (cost : ℚ) (c : AccountId) : ℚ :=
  (if e.consumerId = c ∧ (s.creditAccounts.get? c).isSome then e.lockedNmc - cost else 0) +
    if e.providerId.getD "" = c then cost - cost * (8 / 100) else 0

/-- The identifiers that are drawn are new, and what is moved without a row is nothing: a
cancellation finds an escrow of zero, a failure finds no escrow of the consumer, a payment is turned
away, a lock is of zero or not covered, and a release moves nothing. -/
def MovesRecorded (s : Db) : Operation → Prop
  | .submitJob ids body =>
      s.escrows.get? ids.escrowId = none ∧ s.transactions.get? ids.txId = none ∧
        (s.creditAccounts.get? body.accountId = none → 0 ≤ body.maxCost)
  | .completeJob _ txId _ _ | .withdraw txId _ | .ledgerDeposit txId _ _ | .ledgerWithdraw txId _ _
  | .migrateOrFailJob txId _ _ => s.transactions.get? txId = none
  | .checkStaleProviders txIds =>
      Function.Injective txIds ∧ ∀ n, s.transactions.get? (txIds n) = none
  | .reportCompletion _ txIds _ =>
      Function.Injective txIds ∧ ∀ n, s.transactions.get? (txIds n) = none
  | .cancelJob jobId => ∀ job ∈ s.jobs.get? jobId, job.state.isTerminal = false →
      (s.creditAccounts.get? job.consumerId).isSome →
        ∃ row ∈ firstLocked s.escrows jobId, row.2.lockedNmc = 0
  | .failJob _ jobId _ => ∀ job ∈ s.jobs.get? jobId,
      ∀ a ∈ s.creditAccounts.get? job.consumerId, a.escrowedNmc = some 0
  | .stripeCredit config authorization _ body =>
      bearerToken authorization ≠ config.internalSecret.getD "" ∨ body.amountNmc ≤ 0 ∨
        s.depositRecords.get? body.stripeSessionId ≠ none
  | .lockEscrow _ body => ∀ a ∈ s.creditAccounts.get? body.consumerId,
      a.covers body.amountNmc → body.amountNmc = 0
  | .releaseEscrow body => ∀ e ∈ s.escrows.get? body.escrowId, e.state = .locked →
      ∀ c, movedByRelease s e (Ledger.actualCost body e.lockedNmc) c = 0
  | _ => True

/-! ### Balances -/

/-- The accounts show these balances. -/
structure Shows (accounts : Table AccountId CreditAccount) (b : AccountId → ℚ) : Prop where
  available : ∀ c a, accounts.get? c = some a → a.availableNmc = some (b c)
  missing : ∀ c, accounts.get? c = none → b c = 0

namespace Shows

variable {accounts accounts' : Table AccountId CreditAccount} {b : AccountId → ℚ} {c : AccountId}
  {amount : ℚ} {f : CreditAccount → CreditAccount}

theorem update (hshows : Shows accounts b)
    (hrow : ∀ a x, accounts.get? c = some a → a.availableNmc = some x →
      (f a).availableNmc = some (x + amount))
    (hmissing : accounts.get? c = none → amount = 0) :
    Shows (accounts.update c f) (post b c amount) := by
  constructor
  · intro c' a' ha'
    rcases Table.get?_update_cases ha' with ⟨a, rfl, ha, rfl⟩ | ⟨hne, hold⟩
    · rw [post_self]
      exact hrow a _ ha (hshows.available c' a ha)
    · rw [post_of_ne b amount hne]
      exact hshows.available c' a' hold
  · intro c' hnone
    rw [Table.get?_update] at hnone
    split at hnone
    · rename_i heq
      subst heq
      have hnone' := Option.map_eq_none_iff.mp hnone
      rw [post_self, hshows.missing c' hnone', hmissing hnone', add_zero]
    · rename_i hne
      rw [post_of_ne b amount hne]
      exact hshows.missing c' hnone

/-- An update that leaves the balance of the row. -/
theorem update_same (hshows : Shows accounts b)
    (hrow : ∀ a x, accounts.get? c = some a → a.availableNmc = some x →
      (f a).availableNmc = some x) : Shows (accounts.update c f) b := by
  have hupdate : Shows (accounts.update c f) (post b c 0) :=
    hshows.update (fun a x ha hx => (hrow a x ha hx).trans (by rw [add_zero])) fun _ => rfl
  rwa [post_zero] at hupdate

theorem upsert (hshows : Shows accounts b) {opened : CreditAccount}
    (hopened : opened.availableNmc = some amount)
    (hrow : ∀ a x, a.availableNmc = some x → (f a).availableNmc = some (x + amount)) :
    Shows (accounts.upsert c opened f) (post b c amount) := by
  constructor
  · intro c' a' ha'
    rcases Table.get?_upsert_cases ha' with ⟨rfl, hget, rfl⟩ | ⟨a, rfl, hget, rfl⟩ | ⟨hne, hold⟩
    · rw [post_self, hshows.missing c' hget, zero_add]
      exact hopened
    · rw [post_self]
      exact hrow a _ (hshows.available c' a hget)
    · rw [post_of_ne b amount hne]
      exact hshows.available c' a' hold
  · intro c' hnone
    rw [Table.get?_upsert] at hnone
    split at hnone
    · cases hnone
    · rename_i hne
      rw [post_of_ne b amount hne]
      exact hshows.missing c' hnone

/-- A new account has the balance of one that is not there. -/
theorem insert (hshows : Shows accounts b) (hinsert : accounts.insert? c .fresh = some accounts') :
    Shows accounts' b := by
  have hnone := (Table.rows_of_insert? hinsert).1
  constructor
  · intro c' a' ha'
    rcases Table.get?_insert?_cases hinsert ha' with ⟨rfl, rfl⟩ | ⟨-, hold⟩
    · rw [hshows.missing c' hnone]
      rfl
    · exact hshows.available c' a' hold
  · intro c' hnone'
    rw [Table.get?_of_insert? hinsert] at hnone'
    split at hnone'
    · cases hnone'
    · exact hshows.missing c' hnone'

end Shows

/-! ### What is recorded -/

/-- The statement moves no money and records none. -/
def Action.SparesMoney (q : Action) : Prop :=
  q.touches .creditAccounts = false ∧ q.touches .transactions = false

/-- The second database has some rows more, which take the balances of the first to its own. -/
def Journals (s t : Db) : Prop :=
  ∀ b, Shows s.creditAccounts b → ∃ new b', t.transactions.rows = s.transactions.rows ++ new ∧
    Posts b (new.map fun row => row.2.entry) b' ∧ Shows t.creditAccounts b'

/-- What moved is recorded, and no other identifier is drawn. -/
structure Draws (txId : TxId) (s t : Db) : Prop where
  journals : Journals s t
  others : ∀ id, id ≠ txId → t.transactions.get? id = s.transactions.get? id

namespace Journals

theorem trans (hst : Journals s t) (htu : Journals t u) : Journals s u := by
  intro b hshows
  obtain ⟨new, b', hrows, hposts, hshows'⟩ := hst b hshows
  obtain ⟨new', b'', hrows', hposts', hshows''⟩ := htu b' hshows'
  refine ⟨new ++ new', b'', ?_, ?_, hshows''⟩
  · rw [hrows', hrows, List.append_assoc]
  · rw [List.map_append]
    exact hposts.append hposts'

/-- No row, and no balance changes. -/
theorem silent (htransactions : t.transactions = s.transactions)
    (hshows : ∀ b, Shows s.creditAccounts b → Shows t.creditAccounts b) : Journals s t :=
  fun b hb => ⟨[], b, by rw [htransactions, List.append_nil], .nil, hshows b hb⟩

theorem of_eq (haccounts : t.creditAccounts = s.creditAccounts)
    (htransactions : t.transactions = s.transactions) : Journals s t :=
  silent htransactions fun _ hb => haccounts ▸ hb

theorem refl (s : Db) : Journals s s := of_eq rfl rfl

/-- A balance that has moved is recorded with the amount it moved by. -/
theorem insertTransaction {txId : TxId} (row : NewTransaction)
    (htransactions : u.transactions = s.transactions)
    (hshows : ∀ b, Shows s.creditAccounts b →
      Shows u.creditAccounts (post b row.accountId row.amountNmc))
    (hnew : s.transactions.get? txId = none) :
    ∃ transactions, Action.exec (.insertTransaction txId row) u =
        some ((), { u with transactions }) ∧
      ∀ t : Db, t.creditAccounts = u.creditAccounts → t.transactions = transactions →
        Draws txId s t := by
  obtain ⟨transactions, hexec⟩ := Action.exec_insertTransaction row (htransactions ▸ hnew)
  obtain ⟨inserted, hinsert, heq⟩ := Option.map_eq_some_iff.mp hexec
  cases heq
  refine ⟨transactions, hexec, fun t haccounts hrows => ⟨fun b hb => ?_, fun id hid => ?_⟩⟩
  · subst hrows
    obtain ⟨-, hinserted⟩ := Table.rows_of_insert? hinsert
    rw [htransactions] at hinserted
    have hb' := hshows b hb
    refine ⟨_, post b row.accountId row.amountNmc, hinserted, .single fun x hx => ?_,
      haccounts ▸ hb'⟩
    -- the balance that is looked up is the one after the move
    dsimp only [Transaction.entry] at hx ⊢
    split at hx
    · obtain ⟨a, ha, havailable⟩ := Option.bind_eq_some_iff.mp hx
      have hshown := hb'.available row.accountId a ha
      rw [havailable, post_self] at hshown
      exact Option.some.inj hshown
    · cases hx
  · rw [hrows, Table.get?_of_insert? hinsert, if_neg hid, htransactions]

/-- Statements that leave the money alone. -/
theorem of_uses {α : Type} {p : Program Action.Answer α} (hspares : p.Uses Action.SparesMoney)
    (s : Db) : Journals s (p.run Action.exec s).2 :=
  of_eq (run_sameIn .creditAccounts s (Uses.mono (fun _ h => h.1) hspares))
    (run_sameIn .transactions s (Uses.mono (fun _ h => h.2) hspares))

/-- A handler that goes on to record what has moved since `s`. -/
theorem recorded {α : Type} {txId : TxId} {row : NewTransaction}
    {next : Unit → Program Action.Answer α} {fail : Program Action.Answer α}
    (htransactions : u.transactions = s.transactions)
    (hshows : ∀ b, Shows s.creditAccounts b →
      Shows u.creditAccounts (post b row.accountId row.amountNmc))
    (hnew : s.transactions.get? txId = none) (hspares : (next ()).Uses Action.SparesMoney) :
    Journals s ((query (.insertTransaction txId row) next fail).run Action.exec u).2 := by
  obtain ⟨transactions, hexec, hdraws⟩ := insertTransaction row htransactions hshows hnew
  rw [run_query_of_some _ hexec]
  exact (hdraws { u with transactions } rfl rfl).journals.trans (of_uses hspares _)

end Journals

/-! ### Operations that record nothing -/

namespace Operation

theorem after_transactions {op : Operation} (hrecords : ¬ op.RecordsTransaction)
    (hpays : ¬ op.PaysMilestones) (s : Db) : (op.after s).transactions = s.transactions := by
  refine run_sameIn .transactions s (Uses.mono (fun q hmay => ?_) op.program_mayIssue)
  cases q with
  | insertTransaction txId row => exact absurd hmay hrecords
  | ledgerDeposit accountId amount reference txId => exact absurd hmay hpays
  | _ => rfl

theorem after_accounts {op : Operation} (hwrites : ∀ w, ¬ op.WritesAccount w)
    (hpays : ¬ op.PaysMilestones) (s : Db) : (op.after s).creditAccounts = s.creditAccounts := by
  refine run_sameIn .creditAccounts s (Uses.mono (fun q hmay => ?_) op.program_mayIssue)
  cases q with
  | creditAccounts w => exact absurd hmay (hwrites w)
  | ledgerDeposit accountId amount reference txId => exact absurd hmay hpays
  | _ => rfl

end Operation

theorem cancelJob_journals {jobId : JobId} (hmoves : MovesRecorded s (.cancelJob jobId)) :
    Journals s ((Operation.cancelJob jobId).after s) := by
  refine .silent (Operation.after_transactions id id s) fun b hb => ?_
  have haccounts := congrArg Books.accounts (cancelJob_books s jobId)
  rw [← run_forget] at haccounts
  rw [show ((Operation.cancelJob jobId).after s).creditAccounts = _ from haccounts]
  cases hjob : s.jobs.get? jobId with
  | none => exact hb
  | some job =>
      dsimp only
      split
      · exact hb
      rename_i hlive
      refine hb.update_same fun a x ha hx => ?_
      obtain ⟨row, hrow, hzero⟩ := hmoves job hjob (Bool.not_eq_true _ ▸ hlive) (by rw [ha]; rfl)
      rw [show firstLocked s.escrows jobId = some row from hrow]
      simp only [CreditAccount.refundJob, Option.map_some, hx, hzero, nullAdd_some, add_zero]

theorem failJob_journals {config : Config} {jobId : JobId} {body : FailJobBody}
    (hmoves : MovesRecorded s (.failJob config jobId body)) :
    Journals s ((Operation.failJob config jobId body).after s) := by
  refine .silent (Operation.after_transactions id id s) fun b hb => ?_
  have haccounts := congrArg Books.accounts (failJob_books s config jobId body)
  rw [← run_forget] at haccounts
  rw [show ((Operation.failJob config jobId body).after s).creditAccounts = _ from haccounts]
  cases hjob : s.jobs.get? jobId with
  | none => exact hb
  | some job =>
      refine hb.update_same fun a x ha hx => ?_
      simp only [CreditAccount.releaseAll, hx, hmoves job hjob a ha, nullAdd_some, add_zero]

theorem registerAccount_journals {accountId : AccountId} {body : RegisterAccountBody} :
    Journals s ((Operation.registerAccount accountId body).after s) := by
  refine .silent (Operation.after_transactions id id s) fun b hb => ?_
  refine run_preserves Action.exec (I := fun s => Shows s.creditAccounts b)
    (fun q s a t hmay hb hexec => ?_) _ s (Operation.program_mayIssue _) hb
  cases q with
  | creditAccounts w =>
      cases (hmay : w = _)
      cases hexec
      simp only [AccountsWrite.apply]
      cases hinsert : s.creditAccounts.insert? accountId .fresh with
      | none => exact hb
      | some accounts => exact hb.insert hinsert
  | ledgerDeposit accountId amount reference txId => exact hmay.elim
  | _ =>
      have hsame : t.creditAccounts = s.creditAccounts :=
        Action.exec_sameIn .creditAccounts rfl hexec
      exact hsame ▸ hb

theorem lockEscrow_journals {escrowId : EscrowId} {body : Ledger.EscrowLockBody}
    (hmoves : MovesRecorded s (.lockEscrow escrowId body)) :
    Journals s ((Operation.lockEscrow escrowId body).after s) := by
  refine .silent (Operation.after_transactions id id s) fun b hb => ?_
  rw [Operation.after, Operation.program, run_forget]
  rcases Ledger.lockEscrow_run s escrowId body with hsame | ⟨a, hget, hcovers, haccounts, -⟩
  · rw [hsame]
    exact hb
  · rw [haccounts]
    refine hb.update_same fun a' x _ hx => ?_
    simp only [CreditAccount.lock, hx, hmoves a hget hcovers, nullSub_some, sub_zero]

theorem releaseEscrow_journals {body : Ledger.EscrowReleaseBody}
    (hmoves : MovesRecorded s (.releaseEscrow body)) :
    Journals s ((Operation.releaseEscrow body).after s) := by
  refine .silent (Operation.after_transactions id id s) fun b hb => ?_
  rw [Operation.after, Operation.program, run_forget]
  rcases Ledger.releaseEscrow_run s body with hsame | ⟨e, hget, hlocked, -, haccounts, -⟩
  · rw [hsame]
    exact hb
  · rw [haccounts]
    have hnothing := hmoves e hget hlocked
    generalize Ledger.actualCost body e.lockedNmc = cost at hnothing ⊢
    -- the two writes together move nothing
    have hmoved : post (post b e.consumerId (if (s.creditAccounts.get? e.consumerId).isSome then
        e.lockedNmc - cost else 0)) (e.providerId.getD "") (cost - cost * (8 / 100)) = b := by
      funext c
      have hzero := hnothing c
      rw [movedByRelease] at hzero
      rw [post, post, add_assoc, add_eq_left]
      refine Eq.trans ?_ hzero
      congr 1
      by_cases hc : e.consumerId = c
      · rw [hc]
        simp only [true_and, if_true]
      · simp only [hc, false_and, if_false]
    rw [← hmoved]
    refine Shows.upsert (hb.update ?_ ?_) rfl ?_
    · intro a x ha hx
      simp only [CreditAccount.settle, hx, ha, nullAdd_some, Option.isSome_some, if_true]
    · intro hnone
      simp [hnone]
    · intro a x hx
      simp only [CreditAccount.earn, hx, nullAdd_some]

theorem depositCount_pos {stripeSessionId : String}
    (hrecorded : s.depositRecords.get? stripeSessionId ≠ none) :
    (0 : Nat) < Read.eval s (.depositCount stripeSessionId) := by
  obtain ⟨record, hrecord⟩ := Option.ne_none_iff_exists'.mp hrecorded
  refine List.length_pos_of_mem (a := (stripeSessionId, record)) ?_
  rw [List.mem_filter, Table.mem_rows_iff]
  exact ⟨hrecord, decide_eq_true rfl⟩

theorem stripeCredit_journals {config : Config} {authorization : Option String} {txId : TxId}
    {body : StripeCreditBody} (hmoves : MovesRecorded s (.stripeCredit config authorization txId body)) :
    Journals s ((Operation.stripeCredit config authorization txId body).after s) := by
  rw [Operation.after, Operation.program, run_forget, Coordinator.stripeCredit]
  by_cases hunauthorized : bearerToken authorization ≠ config.internalSecret.getD ""
  · rw [if_pos hunauthorized, run_done]
    exact .refl s
  rw [if_neg hunauthorized]
  by_cases hnothing : body.amountNmc ≤ 0
  · rw [if_pos hnothing, run_done]
    exact .refl s
  rw [if_neg hnothing, run_query_of_some _ rfl]
  have hrecorded := (hmoves.resolve_left hunauthorized).resolve_left hnothing
  rw [if_pos (depositCount_pos hrecorded), run_done]
  exact .refl s

/-! ### Operations that record what they move -/

theorem submitJob_journals {ids : SubmitIds} {body : SubmitJobBody}
    (hmoves : MovesRecorded s (.submitJob ids body)) :
    Journals s ((Operation.submitJob ids body).after s) := by
  obtain ⟨hescrow, hnew, hmissing⟩ := hmoves
  have hread := Action.exec_available body.accountId s
  rw [Operation.after, Operation.program, run_forget, Coordinator.submitJob,
    run_query_of_some _ hread]
  dsimp only
  split
  · exact .refl s
  rename_i hcovered
  cases hjobs : s.jobs.insert? ids.jobId (.submitted s.now body.accountId body.spec) with
  | none =>
      have hrefused : Action.exec (.jobs (.insert ids.jobId body.accountId body.spec)) s = none := by
        rw [Action.exec_insertJob, hjobs, Option.map_none]
      rw [run_query_of_none _ hrefused, run_done]
      exact .refl s
  | some jobs =>
      have hinsert : Action.exec (.jobs (.insert ids.jobId body.accountId body.spec)) s =
          some ((), { s with jobs }) := by
        rw [Action.exec_insertJob, hjobs, Option.map_some]
      have hjob : (jobs.get? ids.jobId).isSome := by
        rw [Table.get?_of_insert? hjobs, if_pos rfl]
        rfl
      obtain ⟨escrows, hescrows⟩ := Option.ne_none_iff_exists'.mp
        fun h => Table.insert?_eq_none_iff.mp h hescrow
      have hlock : Action.exec (.creditAccounts (.lock body.accountId body.maxCost))
          { s with jobs } = some (_, { s with
            jobs, creditAccounts := s.creditAccounts.update body.accountId (.lock body.maxCost) }) :=
        congrArg some (Prod.ext rfl (congrArg (fun accounts : Table AccountId CreditAccount =>
          { s with jobs, creditAccounts := accounts }) (updateAccount_all _ _ _)))
      have hrecord : Action.exec (.escrows (.insert ids.escrowId ids.jobId body.accountId none
          body.maxCost)) { s with
            jobs, creditAccounts := s.creditAccounts.update body.accountId (.lock body.maxCost) } =
          some ((), { s with
            jobs
            creditAccounts := s.creditAccounts.update body.accountId (.lock body.maxCost)
            escrows }) := by
        rw [Action.exec_insertEscrow hjob, hescrows, Option.map_some]
      have hshows : ∀ b, Shows s.creditAccounts b →
          Shows (s.creditAccounts.update body.accountId (.lock body.maxCost))
            (post b body.accountId (-body.maxCost)) := by
        refine fun b hb => hb.update (fun a x _ hx => ?_) fun hnone => ?_
        · simp only [CreditAccount.lock, hx, nullSub_some, sub_eq_add_neg]
        · rw [hnone] at hcovered
          exact neg_eq_zero.mpr (le_antisymm (not_lt.mp hcovered) (hmissing hnone))
      rw [run_query_of_some _ hinsert, run_query_of_some _ hlock, run_query_of_some _ hrecord]
      exact .recorded rfl hshows hnew trivial

theorem completeJob_journals {config : Config} {txId : TxId} {jobId : JobId} {body : CompleteJobBody}
    (hnew : s.transactions.get? txId = none) :
    Journals s ((Operation.completeJob config txId jobId body).after s) := by
  rw [Operation.after, Operation.program, run_forget, Coordinator.completeJob,
    run_query_of_some _ rfl]
  simp only [Read.eval]
  cases (s.jobs.get? jobId).filter fun j => j.providerId = some body.providerId with
  | none => exact .refl s
  | some job =>
      dsimp only
      rw [run_query_of_some _ rfl, run_query_of_some _ rfl, run_query_of_some _ rfl,
        run_query_of_some _ rfl]
      refine .recorded rfl (fun b hb => ?_) hnew ?_
      · refine (updateAccount_all _ _ _).symm ▸ (hb.upsert rfl fun a x hx => ?_).update_same
          fun _ _ _ hx => hx
        simp only [CreditAccount.earn, hx, nullAdd_some]
      · split <;> simp [Uses, Action.SparesMoney, Action.touches]

theorem withdraw_journals {txId : TxId} {body : Coordinator.WithdrawBody}
    (hnew : s.transactions.get? txId = none) :
    Journals s ((Operation.withdraw txId body).after s) := by
  have hread := Action.exec_available body.accountId s
  rw [Operation.after, Operation.program, run_forget, Coordinator.withdraw]
  split
  · exact .refl s
  rename_i hpositive
  split
  · exact .refl s
  rw [run_query_of_some _ hread]
  dsimp only
  split
  · exact .refl s
  rename_i hcovered
  rw [run_query_of_some _ rfl]
  refine .recorded rfl (fun b hb => ?_) hnew trivial
  refine (updateAccount_all _ _ _).symm ▸ hb.update (fun a x _ hx => ?_) fun hnone => ?_
  · simp only [CreditAccount.debit, hx, nullSub_some, sub_eq_add_neg]
  · rw [hnone] at hcovered
    exact absurd (not_lt.mp hcovered) hpositive

theorem ledgerDeposit_journals {txId : TxId} {accountId : AccountId} {body : Ledger.DepositBody}
    (hnew : s.transactions.get? txId = none) :
    Journals s ((Operation.ledgerDeposit txId accountId body).after s) := by
  rw [Operation.after, Operation.program, run_forget, Ledger.deposit]
  split
  · exact .refl s
  rw [run_query_of_some _ rfl]
  refine .recorded rfl (fun b hb => hb.upsert rfl fun a x hx => ?_) hnew trivial
  simp only [CreditAccount.credit, hx, nullAdd_some, NewTransaction.deposit]

theorem ledgerWithdraw_journals {txId : TxId} {accountId : AccountId} {body : Ledger.WithdrawBody}
    (hnew : s.transactions.get? txId = none) :
    Journals s ((Operation.ledgerWithdraw txId accountId body).after s) := by
  rw [Operation.after, Operation.program, run_forget, Ledger.withdraw]
  split
  · exact .refl s
  rcases updateAccount_cases s.creditAccounts accountId (CreditAccount.covers body.amountNmc)
    (.debitSpent body.amountNmc) with ⟨a, hget, -, hupdate⟩ | hupdate
  · have hdebit : Action.exec (.creditAccounts (.debitIfCovered accountId body.amountNmc)) s =
        some (1, { s with
          creditAccounts := s.creditAccounts.update accountId (.debitSpent body.amountNmc) }) := by
      simp only [Action.exec, AccountsWrite.apply, hupdate]
    rw [run_query_of_some _ hdebit, if_neg one_ne_zero]
    refine .recorded rfl (fun b hb => hb.update (fun a x _ hx => ?_) fun hnone => ?_) hnew trivial
    · simp only [CreditAccount.debitSpent, hx, nullSub_some, sub_eq_add_neg]
    · cases hnone.symm.trans hget
  · have hnothing : Action.exec (.creditAccounts (.debitIfCovered accountId body.amountNmc)) s =
        some (0, s) := by
      simp only [Action.exec, AccountsWrite.apply, hupdate]
    rw [run_query_of_some _ hnothing, if_pos rfl]
    exact .refl s

/-! ### The watcher -/

theorem refundConsumerEscrow_draws (txId : TxId) (hnew : s.transactions.get? txId = none)
    (jobId : JobId) (next : Cycle) :
    ∃ t, run Action.exec (refundConsumerEscrow txId jobId next) s = run Action.exec next t ∧
      Draws txId s t := by
  rw [refundConsumerEscrow, askElse, run_query_of_some _ rfl]
  simp only [Read.eval]
  cases firstLocked s.escrows jobId with
  | none => exact ⟨s, rfl, .refl s, fun _ _ => rfl⟩
  | some row =>
      obtain ⟨escrowId, escrow⟩ := row
      dsimp only
      have hshows : ∀ b, Shows s.creditAccounts b → Shows (s.creditAccounts.upsert escrow.consumerId
          (.opened escrow.lockedNmc 0) (.refundJob (some escrow.lockedNmc)))
            (post b escrow.consumerId escrow.lockedNmc) := by
        refine fun b hb => hb.upsert rfl fun a x hx => ?_
        simp only [CreditAccount.refundJob, hx, nullAdd_some]
      obtain ⟨transactions, hexec, hdraws⟩ := Journals.insertTransaction (s := s)
        (u := { s with
          escrows := s.escrows.update escrowId .release
          creditAccounts := s.creditAccounts.upsert escrow.consumerId (.opened escrow.lockedNmc 0)
            (.refundJob (some escrow.lockedNmc)) })
        ⟨escrow.consumerId, .escrowRelease, escrow.lockedNmc, false, some jobId,
          "Provider disconnect refund"⟩ rfl hshows hnew
      exact ⟨_, (run_query_of_some _ rfl).trans ((run_query_of_some _ rfl).trans
        (run_query_of_some _ hexec)), hdraws _ rfl rfl⟩

theorem migrateOrFailJob_draws (txId : TxId) (hnew : s.transactions.get? txId = none)
    (jobId : JobId) (providerId : ProviderId) (next : Cycle) :
    ∃ t, run Action.exec (Coordinator.migrateOrFailJob txId jobId providerId next) s =
        run Action.exec next t ∧ Draws txId s t := by
  rw [Coordinator.migrateOrFailJob, askOr, run_query_of_some _ rfl]
  simp only [Read.eval]
  cases s.jobs.get? jobId with
  | none => exact ⟨s, rfl, .refl s, fun _ _ => rfl⟩
  | some job =>
      dsimp only
      split
      · exact ⟨s, rfl, .refl s, fun _ _ => rfl⟩
      split
      · exact ⟨_, run_query_of_some _ rfl, .of_eq rfl rfl, fun _ _ => rfl⟩
      · rw [run_query_of_some _ rfl]
        obtain ⟨u, hrun, hjournals, hothers⟩ := refundConsumerEscrow_draws txId
          (s := { s with jobs := s.jobs.update jobId (.giveUp s.now (failureReason job)) }) hnew jobId
          (attempt (.providers (.penalize providerId)) next)
        refine ⟨_, hrun.trans (run_query_of_some _ rfl), ?_, hothers⟩
        exact (Journals.of_eq rfl rfl).trans (hjournals.trans (.of_eq rfl rfl))

theorem migrateStale_journals {txIds : Nat → TxId} (hinjective : Function.Injective txIds) {n : Nat}
    (hnew : ∀ m, n ≤ m → s.transactions.get? (txIds m) = none)
    (stale : List (ProviderId × Option JobId)) :
    Journals s ((migrateStale txIds n stale).run Action.exec s).2 := by
  induction stale generalizing s n with
  | nil => exact .refl s
  | cons row stale ih =>
      obtain ⟨providerId, activeJobId⟩ := row
      have hoffline : Journals s
        { s with providers := (ProvidersWrite.apply s (.offline providerId)).2 } := .of_eq rfl rfl
      refine hoffline.trans ?_
      unfold migrateStale
      rw [run_query_of_some _ rfl]
      cases activeJobId with
      | none => exact ih fun m hm => hnew m (Nat.le_of_succ_le hm)
      | some jobId =>
          obtain ⟨t, hrun, hjournals, hothers⟩ := migrateOrFailJob_draws (txIds n)
            (s := { s with providers := (ProvidersWrite.apply s (.offline providerId)).2 })
            (hnew n (le_refl n)) jobId providerId (migrateStale txIds (n + 1) stale)
          dsimp only
          rw [hrun]
          refine hjournals.trans (ih fun m hm => ?_)
          rw [hothers _ fun heq => absurd (hinjective heq) (by omega)]
          exact hnew m (Nat.le_of_succ_le hm)

/-! ### Milestones -/

theorem ledgerDeposit_draws {txId : TxId} (hnew : s.transactions.get? txId = none)
    (accountId : AccountId) (amount : ℚ) (reference : String) :
    ∃ t, Action.exec (.ledgerDeposit accountId amount reference txId) s = some (some txId, t) ∧
      Draws txId s t := by
  have hshows : ∀ b, Shows s.creditAccounts b → Shows (AccountsWrite.apply s
      (.credit accountId amount)).2 (post b accountId amount) := by
    refine fun b hb => hb.upsert rfl fun a x hx => ?_
    simp only [CreditAccount.credit, hx, nullAdd_some]
  obtain ⟨transactions, hexec, hdraws⟩ := Journals.insertTransaction (s := s)
    (u := { s with creditAccounts := (AccountsWrite.apply s (.credit accountId amount)).2 })
    (.deposit accountId amount (some reference)) rfl hshows hnew
  obtain ⟨inserted, hinsert, heq⟩ := Option.map_eq_some_iff.mp hexec
  cases heq
  refine ⟨{ s with
    creditAccounts := (AccountsWrite.apply s (.credit accountId amount)).2, transactions },
    ?_, hdraws _ rfl rfl⟩
  simp only [Action.exec, hinsert]

theorem issueMilestones_journals {txIds : Int → TxId} (hinjective : Function.Injective txIds)
    (providerId : ProviderId) {milestones : List Int} (hnodup : milestones.Nodup)
    (hnew : ∀ m ∈ milestones, s.transactions.get? (txIds m) = none) :
    Journals s ((Grpc.issueMilestones txIds providerId (done (.ok ()) : Grpc.Rpc Unit)
      milestones).run Action.exec s).2 := by
  induction milestones generalizing s with
  | nil => exact .refl s
  | cons m milestones ih =>
      obtain ⟨hfirst, hnodup⟩ := List.nodup_cons.mp hnodup
      obtain ⟨t, hexec, hjournals, hothers⟩ := ledgerDeposit_draws (hnew m List.mem_cons_self)
        providerId 50 ("milestone_" ++ toString (wrapI32 (m * 8)) ++ "h")
      have hrest : ∀ u : Db, u.creditAccounts = t.creditAccounts → u.transactions = t.transactions →
          Journals s ((Grpc.issueMilestones txIds providerId (done (.ok ()) : Grpc.Rpc Unit)
            milestones).run Action.exec u).2 := by
        intro u haccounts htransactions
        refine hjournals.trans ((Journals.of_eq haccounts htransactions).trans
          (ih hnodup fun m' hm' => ?_))
        have hne : m' ≠ m := fun heq => hfirst (heq ▸ hm')
        rw [htransactions, hothers _ fun heq => hne (hinjective heq)]
        exact hnew m' (List.mem_cons_of_mem _ hm')
      rw [Grpc.issueMilestones, askElse, run_query_of_some _ hexec]
      dsimp only
      rw [attempt, run_query]
      split
      · rename_i hrecord
        exact hrest _ (Action.exec_sameIn .creditAccounts rfl hrecord)
          (Action.exec_sameIn .transactions rfl hrecord)
      · exact hrest t rfl rfl

theorem unclaimedMilestones_nodup (claimed earned : Int) :
    (Grpc.unclaimedMilestones claimed earned).Nodup := by
  rw [unclaimedMilestones_eq]
  exact List.nodup_range.map fun _ _ heq => Int.ofNat.inj (Int.add_left_cancel heq)

theorem rewarded_journals {txIds : Int → TxId} (hinjective : Function.Injective txIds)
    (hnew : ∀ m, s.transactions.get? (txIds m) = none) (jc : Grpc.JobComplete) :
    Journals s (Grpc.rewarded txIds jc s) := by
  have hhours : Journals s { s with providers := (ProvidersWrite.apply s (.addHours jc.providerId
      ((jc.actualRuntimeS.toNat : ℚ) / 3600))).2 } := .of_eq rfl rfl
  refine hhours.trans ?_
  rw [Grpc.rewarded, Grpc.rewardHours, askElse, run_query_of_some _ rfl]
  split
  · exact .refl _
  · dsimp only
    rw [askElse, run_query_of_some _ rfl]
    exact issueMilestones_journals hinjective _ (unclaimedMilestones_nodup _ _) fun m _ => hnew m

theorem reportCompletion_journals {oracleEnabled : Bool} {txIds : Int → TxId} {jc : Grpc.JobComplete}
    (hinjective : Function.Injective txIds) (hnew : ∀ m, s.transactions.get? (txIds m) = none) :
    Journals s ((Operation.reportCompletion oracleEnabled txIds jc).after s) := by
  rw [Operation.after, Operation.program, run_forget, Grpc.reportCompletion_run]
  have hreport : Journals s { s with
    jobs := s.jobs.update jc.jobId
      (.report s.now jc.jobState jc.outputHash (asI64 jc.actualRuntimeS.toNat)) } := .of_eq rfl rfl
  have hasked : ∀ {u : Db} {requests : List OracleRequest} {c : Prop} [Decidable c], Journals s u →
      Journals s (if c then { u with oracleRequests := requests } else u) := by
    intro u requests c _ hu
    split
    · exact hu.trans (.of_eq rfl rfl)
    · exact hu
  refine hasked ?_
  split
  · refine hreport.trans (rewarded_journals hinjective ?_ jc)
    exact hnew
  · exact hreport

/-! ### Every operation -/

theorem Operation.journals {op : Operation} (hmoves : MovesRecorded s op) :
    Journals s (op.after s) := by
  cases op with
  | submitJob ids body => exact submitJob_journals hmoves
  | cancelJob jobId => exact cancelJob_journals hmoves
  | completeJob config txId jobId body => exact completeJob_journals hmoves
  | failJob config jobId body => exact failJob_journals hmoves
  | registerAccount accountId body => exact registerAccount_journals
  | stripeCredit config authorization txId body => exact stripeCredit_journals hmoves
  | withdraw txId body => exact withdraw_journals hmoves
  | reportCompletion oracleEnabled txIds jc => exact reportCompletion_journals hmoves.1 hmoves.2
  | checkStaleProviders txIds =>
      rw [Operation.after, Operation.program, run_forget, Coordinator.checkStaleProviders,
        askOr, run_query_of_some _ rfl]
      exact migrateStale_journals hmoves.1 (fun m _ => hmoves.2 m) _
  | migrateOrFailJob txId jobId providerId =>
      obtain ⟨t, hrun, hdraws⟩ := migrateOrFailJob_draws txId hmoves jobId providerId (done true)
      rw [Operation.after, Operation.program, run_forget, hrun]
      exact hdraws.journals
  | ledgerDeposit txId accountId body => exact ledgerDeposit_journals hmoves
  | ledgerWithdraw txId accountId body => exact ledgerWithdraw_journals hmoves
  | lockEscrow escrowId body => exact lockEscrow_journals hmoves
  | releaseEscrow body => exact releaseEscrow_journals hmoves
  | getAssignedJob _ | saveCheckpoint _ _ _ | jobHeartbeat _ _ | registerProvider _
  | sendHeartbeat _ | acknowledgeJob _ | grpcSubmitJob _ _ | grpcCancelJob _ | runAuctionCycle
  | evictStaleProviders =>
      exact .of_eq (Operation.after_accounts (fun _ => id) id s) (Operation.after_transactions id id s)

/-! ### Runs -/

/-- The rows recorded so far took the balances of the empty table to those of this one. -/
def Explained (recorded : List (TxId × Transaction)) (s : Db) : Prop :=
  recorded.Perm s.transactions.rows ∧
    ∃ b, Posts (fun _ => 0) (recorded.map fun row => row.2.entry) b ∧ Shows s.creditAccounts b

theorem Shows.reordered {accounts accounts' : Table AccountId CreditAccount} {b : AccountId → ℚ}
    (hshows : Shows accounts b) (hreordered : accounts.Reordered accounts') :
    Shows accounts' b :=
  ⟨fun c a ha => hshows.available c a ((hreordered.get?_eq c).trans ha),
    fun c hnone => hshows.missing c ((hreordered.get?_eq c).trans hnone)⟩

namespace Explained

variable {recorded : List (TxId × Transaction)}

theorem init : Explained [] Db.init := by
  refine ⟨.refl _, fun _ => 0, .nil, fun c a ha => ?_, fun _ _ => rfl⟩
  cases ha

theorem after {op : Operation} (hexplained : Explained recorded s) (hmoves : MovesRecorded s op) :
    Explained (recorded ++ (op.after s).transactions.rows.drop s.transactions.rows.length)
      (op.after s) := by
  obtain ⟨hperm, b, hposts, hshows⟩ := hexplained
  obtain ⟨new, b', hrows, hnew, hshows'⟩ := op.journals hmoves b hshows
  rw [hrows, List.drop_left]
  refine ⟨?_, b', ?_, hshows'⟩
  · rw [hrows]
    exact hperm.append_right new
  · rw [List.map_append]
    exact hposts.append hnew

theorem shuffled (hexplained : Explained recorded s) (hshuffled : s.Shuffled t) :
    Explained recorded t := by
  obtain ⟨hperm, b, hposts, hshows⟩ := hexplained
  exact ⟨hperm.trans hshuffled.transactions, b, hposts, hshows.reordered hshuffled.creditAccounts⟩

/-- The balances are sums of the rows, and so is every balance that a row carries. -/
theorem explains (hexplained : Explained recorded s) : Explains recorded s := by
  obtain ⟨hperm, b, hposts, hshows⟩ := hexplained
  have hbalance : ∀ c, b c = amountOf c s.transactions.rows := by
    intro c
    rw [hposts.balance c, zero_add]
    exact ((hperm.map _).map _).sum_eq
  refine ⟨hperm, fun c => ?_, ?_⟩
  · rw [← hbalance c]
    cases hget : s.creditAccounts.get? c with
    | none => rw [Option.map_none, Option.getD_none, hshows.missing c hget]
    | some a => rw [Option.map_some, Option.getD_some, hshows.available c a hget]
  · rintro before row later rfl x hx
    have hentries : ((before ++ row :: later).map fun row => row.2.entry) =
        before.map (fun row => row.2.entry) ++ row.2.entry :: later.map fun row => row.2.entry := by
      rw [List.map_append, List.map_cons]
    have hstamp := hposts.stamp hentries hx
    rw [zero_add] at hstamp
    rw [hstamp, amountOf, List.map_append, List.map_singleton]
    rfl

end Explained

theorem History.explained {log : List (Db × Operation)} (hrun : History MovesRecorded Db.init log t) :
    Explained (recordedIn log) t := by
  induction hrun with
  | start => exact .init
  | operation _ hmoves ih =>
      rw [recordedIn_concat]
      exact ih.after hmoves
  | idle _ hshuffled ih => exact ih.shuffled hshuffled

theorem log_explains_balance {log : List (Db × Operation)}
    (hrun : History MovesRecorded Db.init log t) : Explains (recordedIn log) t :=
  hrun.explained.explains

/-- The job of an hour is completed and paid, and its consumer takes three out again. -/
def reconciled : List Operation :=
  assigned ++ [.completeJob ⟨none, true⟩ "earn" "a" hourReport.body,
    .ledgerWithdraw "out" "alice" ⟨3, "0xa11ce"⟩]

theorem log_explains_reconciled :
    Explains (recordedIn (logOf reconciled Db.init)) (afterAll reconciled Db.init) := by
  have hdeposit : (Db.init.transactions.get? "deposit").isNone := by decide +kernel
  have hescrow : ((afterAll [topUp "alice" 10] Db.init).escrows.get? "escrow-a").isNone := by
    decide +kernel
  have hlock : ((afterAll [topUp "alice" 10] Db.init).transactions.get? "lock-a").isNone := by
    decide +kernel
  have hfunded : ((afterAll [topUp "alice" 10] Db.init).creditAccounts.get? "alice").isSome := by
    decide +kernel
  have hearn : ((afterAll assigned Db.init).transactions.get? "earn").isNone := by decide +kernel
  have hout : ((afterAll (assigned ++ [.completeJob ⟨none, true⟩ "earn" "a" hourReport.body])
    Db.init).transactions.get? "out").isNone := by decide +kernel
  have hmeets : MeetsAll MovesRecorded Db.init reconciled := by
    refine ⟨Option.isNone_iff_eq_none.mp hdeposit, ⟨Option.isNone_iff_eq_none.mp hescrow,
      Option.isNone_iff_eq_none.mp hlock, fun hnone => ?_⟩, trivial, trivial, trivial,
      Option.isNone_iff_eq_none.mp hearn, Option.isNone_iff_eq_none.mp hout, trivial⟩
    exact absurd hnone (Option.isSome_iff_ne_none.mp hfunded)
  exact log_explains_balance (.afterAll hmeets)

/-- The escrow of a cancelled job comes back to the balance without a row. -/
theorem cancellation_unexplained :
    let ops := [topUp "alice" 10, submitHour "a" "alice" 5, .cancelJob "a"]
    History (fun _ _ => True) Db.init (logOf ops Db.init) (afterAll ops Db.init) ∧
      ((afterAll ops Db.init).creditAccounts.get? "alice").map CreditAccount.availableNmc =
        some (some 10) ∧
      amountOf "alice" (afterAll ops Db.init).transactions.rows = 5 ∧
      ¬ Explains (recordedIn (logOf ops Db.init)) (afterAll ops Db.init) := by
  intro ops
  have havailable : ((afterAll ops Db.init).creditAccounts.get? "alice").map
      CreditAccount.availableNmc = some (some 10) := by decide +kernel
  have hamount : amountOf "alice" (afterAll ops Db.init).transactions.rows = 5 := by decide +kernel
  refine ⟨.afterAll (meetsAll_true _ _), havailable, hamount, fun hexplains => ?_⟩
  have hbalance := hexplains.available "alice"
  rw [havailable, hamount] at hbalance
  exact absurd (Option.some.inj hbalance) (by decide)

end NeuralMesh
