import NeuralMesh.Ledger.Handlers
import NeuralMesh.Proof.Credits
import NeuralMesh.Proof.EscrowColumn
import NeuralMesh.Store.Rows
import Mathlib.Algebra.Order.BigOperators.Group.List
import Mathlib.Tactic.Linarith
import Mathlib.Tactic.Ring

/-!
# The balance of the ledger service

The ledger on its own: deposits, withdrawals, locks and releases, one after another, with what their
replies report added up beside the database. No balance goes below zero, and the accounts hold what
came in less what went out and what was kept as fees, as long as nobody locks a negative amount or
releases at a negative price.
-/

namespace NeuralMesh.Ledger

open Program

/-! ### The service and its totals -/

/-- A request to the service, with the UUID it draws. -/
inductive WalletRequest where
  | deposit (txId : TxId) (accountId : AccountId) (body : DepositBody)
  | withdraw (txId : TxId) (accountId : AccountId) (body : WithdrawBody)
  | lockEscrow (escrowId : EscrowId) (body : EscrowLockBody)
  | releaseEscrow (body : EscrowReleaseBody)

def WalletRequest.handler : WalletRequest → Handler
  | deposit txId accountId body => Ledger.deposit txId accountId body
  | withdraw txId accountId body => Ledger.withdraw txId accountId body
  | lockEscrow escrowId body => Ledger.lockEscrow escrowId body
  | releaseEscrow body => Ledger.releaseEscrow body

/-- The database, and what the replies so far add up to. -/
structure Service where
  db : Db
  deposited : ℚ
  withdrawn : ℚ
  fees : ℚ

/-- A field of the JSON object answered. -/
def field (reply : Reply) (key : String) : Option Json :=
  match reply.body with
  | .obj fields => fields.lookup key
  | _ => none

/-- The reply says `"ok": true`. -/
def isOk (reply : Reply) : Bool :=
  match field reply "ok" with
  | some (.bool b) => b
  | _ => false

/-- The `platform_fee` of a reply. -/
def platformFee (reply : Reply) : ℚ :=
  match field reply "platform_fee" with
  | some (.num x) => x
  | _ => 0

/-- Handle a request in one piece, and add up what its reply reports. -/
def Service.handle (v : Service) (request : WalletRequest) : Service :=
  let answered := request.handler.run Action.exec v.db
  let counted (amount : ℚ) : ℚ := if isOk answered.1 then amount else 0
  match request with
  | .deposit _ _ body =>
      { v with db := answered.2, deposited := v.deposited + counted body.amountNmc }
  | .withdraw _ _ body =>
      { v with db := answered.2, withdrawn := v.withdrawn + counted body.amountNmc }
  | .lockEscrow _ _ => { v with db := answered.2 }
  | .releaseEscrow _ => { v with db := answered.2, fees := v.fees + platformFee answered.1 }

/-- One request that meets `P`, or a change of anything but balances and escrows. -/
inductive Service.Step (P : Service → WalletRequest → Prop) : Service → Service → Prop
  | request {v : Service} {request : WalletRequest} (hmeets : P v request) :
      Step P v (v.handle request)
  | elsewhere {v : Service} {t : Db} (haccounts : v.db.creditAccounts.Reordered t.creditAccounts)
      (hescrows : v.db.escrows.Reordered t.escrows) : Step P v { v with db := t }

abbrev Service.Runs (P : Service → WalletRequest → Prop) : Service → Service → Prop :=
  Relation.ReflTransGen (Service.Step P)

/-- A service without accounts and escrows. -/
structure Service.Opened (v : Service) : Prop where
  accounts : v.db.creditAccounts = .empty
  escrows : v.db.escrows = .empty
  deposited : v.deposited = 0
  withdrawn : v.withdrawn = 0
  fees : v.fees = 0

/-- No balance is negative, and the books close. -/
structure Service.Sound (v : Service) : Prop where
  available : ∀ c, ∀ a ∈ v.db.creditAccounts.get? c, ∃ x ∈ a.availableNmc, 0 ≤ x
  escrowed : ∀ c, ∀ a ∈ v.db.creditAccounts.get? c, ∃ x ∈ a.escrowedNmc, 0 ≤ x
  conserved : totalNmc v.db.creditAccounts + v.fees = v.deposited - v.withdrawn

/-- The requests that keep the service sound: a lock that the balance covers is not of a negative
amount, a release of a locked row has no negative price, and a transaction id is new. -/
def WalletRequest.Proper (v : Service) : WalletRequest → Prop
  | deposit txId _ _ => v.db.transactions.get? txId = none
  | withdraw txId _ _ => v.db.transactions.get? txId = none
  | lockEscrow _ body =>
      ∀ a ∈ v.db.creditAccounts.get? body.consumerId, a.covers body.amountNmc → 0 ≤ body.amountNmc
  | releaseEscrow body =>
      ∀ e ∈ v.db.escrows.get? body.escrowId, e.state = .locked →
        0 ≤ body.actualPricePerHour * body.actualRuntimeS.toNat

/-! ### What backs the locked rows -/

/-- An account whose balances are known, with at least `locked` in escrow. -/
def Holds (locked : ℚ) (a : CreditAccount) : Prop :=
  ∃ x ∈ a.availableNmc, ∃ y ∈ a.escrowedNmc, 0 ≤ x ∧ locked ≤ y

/-- No locked row is negative or without an account, and each account holds what its rows lock. -/
structure Backed (accounts : Table AccountId CreditAccount) (escrows : Table EscrowId Escrow) :
    Prop where
  row : ∀ escrowId, ∀ e ∈ escrows.get? escrowId, e.state = .locked →
    0 ≤ e.lockedNmc ∧ (accounts.get? e.consumerId).isSome
  account : ∀ c, ∀ a ∈ accounts.get? c, Holds (lockedOf escrows c) a

namespace Backed

variable {accounts accounts' : Table AccountId CreditAccount} {escrows escrows' : Table EscrowId Escrow}

theorem lockedOf_nonneg (hb : Backed accounts escrows) (c : AccountId) :
    0 ≤ lockedOf escrows c := by
  apply List.sum_nonneg
  intro x hx
  obtain ⟨⟨escrowId, e⟩, hrow, rfl⟩ := List.mem_map.mp hx
  dsimp only
  split
  · rename_i hlocked
    exact (hb.row escrowId e (Table.mem_rows_iff.mp hrow) hlocked.2).1
  · exact le_rfl

/-- An account that is not there has nothing locked. -/
theorem lockedOf_missing (hb : Backed accounts escrows) {c : AccountId}
    (hnone : accounts.get? c = none) : lockedOf escrows c = 0 := by
  apply lockedOf_eq_zero
  intro escrowId e he heq hlocked
  have hsome := (hb.row escrowId e he hlocked).2
  rw [heq, hnone] at hsome
  cases hsome

/-- One account changes, and with it what is locked for it. -/
theorem update (hb : Backed accounts escrows) {c : AccountId} {f : CreditAccount → CreditAccount}
    (hrow : ∀ escrowId, ∀ e ∈ escrows'.get? escrowId, e.state = .locked →
      0 ≤ e.lockedNmc ∧ (accounts.get? e.consumerId).isSome)
    (hother : ∀ c', c' ≠ c → lockedOf escrows' c' = lockedOf escrows c')
    (hself : ∀ a ∈ accounts.get? c, Holds (lockedOf escrows' c) (f a)) :
    Backed (accounts.update c f) escrows' where
  row := by
    intro escrowId e he hlocked
    obtain ⟨hnonneg, hsome⟩ := hrow escrowId e he hlocked
    refine ⟨hnonneg, ?_⟩
    rw [Table.get?_update]
    split
    · rename_i heq
      rwa [Option.isSome_map, ← heq]
    · exact hsome
  account := by
    intro c' a' ha'
    rcases Table.get?_update_cases ha' with ⟨a, rfl, ha, rfl⟩ | ⟨hne, hold⟩
    · exact hself a ha
    · rw [hother c' hne]
      exact hb.account c' a' hold

/-- A credit that is not negative. -/
theorem credit (hb : Backed accounts escrows) {c : AccountId} {amount earned : ℚ}
    (hamount : 0 ≤ amount) {f : CreditAccount → CreditAccount}
    (havailable : ∀ a, (f a).availableNmc = nullAdd a.availableNmc (some amount))
    (hescrowed : ∀ a, (f a).escrowedNmc = a.escrowedNmc) :
    Backed (accounts.upsert c (.opened amount earned) f) escrows where
  row := by
    intro escrowId e he hlocked
    obtain ⟨hnonneg, hsome⟩ := hb.row escrowId e he hlocked
    refine ⟨hnonneg, ?_⟩
    rw [Table.get?_upsert]
    split
    · rfl
    · exact hsome
  account := by
    intro c' a' ha'
    rcases Table.get?_upsert_cases ha' with ⟨rfl, hget, rfl⟩ | ⟨a, rfl, hget, rfl⟩ | ⟨-, hold⟩
    · rw [hb.lockedOf_missing hget]
      exact ⟨amount, rfl, 0, rfl, hamount, le_rfl⟩
    · obtain ⟨x, hx, y, hy, hnonneg, hle⟩ := hb.account c' a hget
      refine ⟨x + amount, ?_, y, ?_, add_nonneg hnonneg hamount, hle⟩
      · rw [Option.mem_def, havailable, hx, nullAdd_some]
      · rw [Option.mem_def, hescrowed]
        exact hy
    · exact hb.account c' a' hold

end Backed

/-! ### The totals -/

theorem totalNmc_credit {accounts : Table AccountId CreditAccount} {escrows : Table EscrowId Escrow}
    (hb : Backed accounts escrows) (c : AccountId) (amount earned : ℚ)
    {f : CreditAccount → CreditAccount}
    (havailable : ∀ a, (f a).availableNmc = nullAdd a.availableNmc (some amount))
    (hescrowed : ∀ a, (f a).escrowedNmc = a.escrowedNmc) :
    totalNmc (accounts.upsert c (.opened amount earned) f) = totalNmc accounts + amount := by
  rw [totalNmc_upsert]
  cases hget : accounts.get? c with
  | none => simp [CreditAccount.total, CreditAccount.opened, CreditAccount.fresh]
  | some a =>
      obtain ⟨x, hx, y, hy, -⟩ := hb.account c a hget
      rw [Option.mem_def] at hx hy
      rw [Option.elim_some, CreditAccount.total, CreditAccount.total, havailable, hescrowed, hx, hy,
        nullAdd_some, Option.getD_some, Option.getD_some, Option.getD_some]
      ring

/-- A change of one account moves the total by what it adds to the account's. -/
theorem totalNmc_move {accounts : Table AccountId CreditAccount} {escrows : Table EscrowId Escrow}
    (hb : Backed accounts escrows) {c : AccountId} {a : CreditAccount}
    (hget : accounts.get? c = some a) {d : ℚ} {f : CreditAccount → CreditAccount}
    (hf : ∀ x y, a.availableNmc = some x → a.escrowedNmc = some y → (f a).total = x + y + d) :
    totalNmc (accounts.update c f) = totalNmc accounts + d := by
  obtain ⟨x, hx, y, hy, -⟩ := hb.account c a hget
  rw [totalNmc_update, hget, Option.elim_some, hf x y hx hy, CreditAccount.total, hx, hy,
    Option.getD_some, Option.getD_some]
  ring

/-! ### The four handlers -/

/-- What every state of a run satisfies. -/
structure Service.Kept (v : Service) : Prop where
  backed : Backed v.db.creditAccounts v.db.escrows
  conserved : totalNmc v.db.creditAccounts + v.fees = v.deposited - v.withdrawn

theorem Service.Kept.sound {v : Service} (hkept : v.Kept) : v.Sound where
  available := by
    intro c a ha
    obtain ⟨x, hx, -, -, hnonneg, -⟩ := hkept.backed.account c a ha
    exact ⟨x, hx, hnonneg⟩
  escrowed := by
    intro c a ha
    obtain ⟨-, -, y, hy, -, hle⟩ := hkept.backed.account c a ha
    exact ⟨y, hy, (hkept.backed.lockedOf_nonneg c).trans hle⟩
  conserved := hkept.conserved

theorem Service.Opened.kept {v : Service} (hopened : v.Opened) : v.Kept where
  backed := by
    rw [hopened.accounts, hopened.escrows]
    constructor
    · intro escrowId e he
      cases he
    · intro c a ha
      cases ha
  conserved := by
    rw [hopened.accounts, hopened.deposited, hopened.withdrawn, hopened.fees, sub_zero, add_zero]
    rfl

/-- A covered amount comes off the balance, or goes to escrow. -/
theorem Backed.spend {accounts : Table AccountId CreditAccount}
    {escrows escrows' : Table EscrowId Escrow} (hb : Backed accounts escrows) {c : AccountId}
    {a : CreditAccount} (hget : accounts.get? c = some a) {amount kept : ℚ}
    (hcovers : a.covers amount) {f : CreditAccount → CreditAccount}
    (havailable : (f a).availableNmc = nullSub a.availableNmc (some amount))
    (hescrowed : (f a).escrowedNmc = nullAdd a.escrowedNmc (some kept))
    (hrow : ∀ escrowId, ∀ e ∈ escrows'.get? escrowId, e.state = .locked →
      0 ≤ e.lockedNmc ∧ (accounts.get? e.consumerId).isSome)
    (hother : ∀ c', c' ≠ c → lockedOf escrows' c' = lockedOf escrows c')
    (hself : lockedOf escrows' c ≤ lockedOf escrows c + kept) :
    Backed (accounts.update c f) escrows' := by
  apply hb.update hrow hother
  intro a' ha'
  cases hget.symm.trans ha'
  obtain ⟨x, hx, y, hy, -, hle⟩ := hb.account c a hget
  obtain ⟨x', hx', hless⟩ := covers_iff.mp hcovers
  rw [Option.mem_def] at hx hy hx'
  cases hx.symm.trans hx'
  refine ⟨x - amount, ?_, y + kept, ?_, by linarith, by linarith⟩
  · rw [Option.mem_def, havailable, hx, nullSub_some]
  · rw [Option.mem_def, hescrowed, hy, nullAdd_some]

variable {v : Service}

theorem deposit_kept (hkept : v.Kept) {txId : TxId} {accountId : AccountId} {body : DepositBody}
    (hproper : (WalletRequest.deposit txId accountId body).Proper v) :
    (v.handle (.deposit txId accountId body)).Kept := by
  by_cases hamount : body.amountNmc ≤ 0
  · have hrun : (Ledger.deposit txId accountId body).run Action.exec v.db =
        (.error .badRequest, v.db) := by
      rw [Ledger.deposit, if_pos hamount, run_done]
    simp only [Service.handle, WalletRequest.handler, hrun]
    exact ⟨hkept.backed, by simpa [isOk, field, Reply.error] using hkept.conserved⟩
  · obtain ⟨t, hinsert⟩ := Action.exec_insertTransaction
      (s := { v.db with
        creditAccounts := (AccountsWrite.apply v.db (.credit accountId body.amountNmc)).2 })
      (.deposit accountId body.amountNmc body.reference) hproper
    have hrun : (Ledger.deposit txId accountId body).run Action.exec v.db =
        (.json [("ok", .bool true), ("transaction_id", .str txId),
            ("amount_nmc", .num body.amountNmc)],
          { v.db with
            creditAccounts := v.db.creditAccounts.upsert accountId (.opened body.amountNmc 0)
              (.credit body.amountNmc)
            transactions := t }) := by
      rw [Ledger.deposit, if_neg hamount, run_query_of_some _ rfl, run_query_of_some _ hinsert,
        run_done]
      rfl
    have htotal := totalNmc_credit hkept.backed accountId body.amountNmc 0
      (f := .credit body.amountNmc) (fun _ => rfl) fun _ => rfl
    have hconserved := hkept.conserved
    simp only [Service.handle, WalletRequest.handler, hrun]
    constructor
    · exact hkept.backed.credit (not_le.mp hamount).le (fun _ => rfl) fun _ => rfl
    · simp only [htotal, isOk, field, Reply.json, List.lookup_cons, beq_self_eq_true, if_true]
      linarith

theorem withdraw_kept (hkept : v.Kept) {txId : TxId} {accountId : AccountId} {body : WithdrawBody}
    (hproper : (WalletRequest.withdraw txId accountId body).Proper v) :
    (v.handle (.withdraw txId accountId body)).Kept := by
  have hconserved := hkept.conserved
  by_cases hamount : body.amountNmc ≤ 0
  · have hrun : (Ledger.withdraw txId accountId body).run Action.exec v.db =
        (.error .badRequest, v.db) := by
      rw [Ledger.withdraw, if_pos hamount, run_done]
    simp only [Service.handle, WalletRequest.handler, hrun]
    exact ⟨hkept.backed, by simpa [isOk, field, Reply.error] using hconserved⟩
  rcases updateAccount_cases v.db.creditAccounts accountId (CreditAccount.covers body.amountNmc)
    (.debitSpent body.amountNmc) with ⟨a, hget, hcovers, hupdate⟩ | hupdate
  · let debited := v.db.creditAccounts.update accountId (.debitSpent body.amountNmc)
    have hdebit : Action.exec (.creditAccounts (.debitIfCovered accountId body.amountNmc)) v.db =
        some (1, { v.db with creditAccounts := debited }) := by
      simp only [Action.exec, AccountsWrite.apply, hupdate, debited]
    obtain ⟨t, hinsert⟩ := Action.exec_insertTransaction (s := { v.db with creditAccounts := debited })
      { accountId
        txType := .withdraw
        amountNmc := -body.amountNmc
        withBalance := true
        reference := some body.destAddress
        description := "Withdrawal request" } hproper
    have hrun : (Ledger.withdraw txId accountId body).run Action.exec v.db =
        (.json [("ok", .bool true), ("transaction_id", .str txId),
            ("message", .str "Withdrawal queued for processing")],
          { v.db with creditAccounts := debited, transactions := t }) := by
      rw [Ledger.withdraw, if_neg hamount, run_query_of_some _ hdebit]
      dsimp only
      rw [if_neg one_ne_zero, run_query_of_some _ hinsert, run_done]
    simp only [Service.handle, WalletRequest.handler, hrun]
    constructor
    · apply hkept.backed.spend hget hcovers rfl _ hkept.backed.row (fun _ _ => rfl)
      · rw [add_zero]
      · obtain ⟨-, -, y, hy, -⟩ := hkept.backed.account accountId a hget
        rw [Option.mem_def] at hy
        rw [CreditAccount.debitSpent, hy, nullAdd_some, add_zero]
    · have htotal := totalNmc_move hkept.backed hget (d := -body.amountNmc)
        (f := .debitSpent body.amountNmc) fun x y hx hy => by
          simp only [CreditAccount.total, CreditAccount.debitSpent, hx, hy, nullSub_some,
            Option.getD_some]
          ring
      simp only [debited, htotal, isOk, field, Reply.json, List.lookup_cons, beq_self_eq_true,
        if_true]
      linarith
  · have hrun : (Ledger.withdraw txId accountId body).run Action.exec v.db =
        (.json [("ok", .bool false), ("message", .str "Insufficient balance")], v.db) := by
      have hnothing : Action.exec (.creditAccounts (.debitIfCovered accountId body.amountNmc)) v.db =
          some (0, v.db) := by
        simp only [Action.exec, AccountsWrite.apply, hupdate]
      rw [Ledger.withdraw, if_neg hamount, run_query_of_some _ hnothing]
      rfl
    simp only [Service.handle, WalletRequest.handler, hrun]
    exact ⟨hkept.backed, by simpa [isOk, field, Reply.json] using hconserved⟩

/-- The row a lock records. -/
def EscrowLockBody.escrow (body : EscrowLockBody) : Escrow :=
  ⟨body.jobId, body.consumerId, body.providerId, body.amountNmc, .locked⟩

/-- A lock is not covered and changes nothing, or it moves the amount to escrow, and records the row
unless the database refuses it. -/
theorem lockEscrow_run (s : Db) (escrowId : EscrowId) (body : EscrowLockBody) :
    let t := ((Ledger.lockEscrow escrowId body).run Action.exec s).2
    t = s ∨ ∃ a ∈ s.creditAccounts.get? body.consumerId, a.covers body.amountNmc ∧
      t.creditAccounts = s.creditAccounts.update body.consumerId (.lock body.amountNmc) ∧
      (t.escrows = s.escrows ∨ s.escrows.insert? escrowId body.escrow = some t.escrows) := by
  intro t
  rcases updateAccount_cases s.creditAccounts body.consumerId
    (CreditAccount.covers body.amountNmc) (.lock body.amountNmc) with
    ⟨a, hget, hcovers, hupdate⟩ | hupdate
  · right
    refine ⟨a, hget, hcovers, ?_⟩
    have hlock : Action.exec (.creditAccounts (.lockIfCovered body.consumerId body.amountNmc)) s =
        some (1, { s with
          creditAccounts := s.creditAccounts.update body.consumerId (.lock body.amountNmc) }) := by
      simp only [Action.exec, AccountsWrite.apply, hupdate]
    simp only [t, Ledger.lockEscrow, run_query_of_some _ hlock]
    rw [if_neg one_ne_zero, run_query]
    simp only [Action.exec, EscrowsWrite.apply, EscrowLockBody.escrow]
    by_cases hjob : (s.jobs.get? body.jobId).isSome
    · rw [if_pos hjob]
      cases s.escrows.insert? escrowId
          ⟨body.jobId, body.consumerId, body.providerId, body.amountNmc, .locked⟩ with
      | none => exact ⟨rfl, .inl rfl⟩
      | some escrows => exact ⟨rfl, .inr rfl⟩
    · rw [if_neg hjob]
      exact ⟨rfl, .inl rfl⟩
  · left
    have hnothing : Action.exec
        (.creditAccounts (.lockIfCovered body.consumerId body.amountNmc)) s = some (0, s) := by
      simp only [Action.exec, AccountsWrite.apply, hupdate]
    simp only [t, Ledger.lockEscrow, run_query_of_some _ hnothing]
    rfl

theorem lockEscrow_kept (hkept : v.Kept) {escrowId : EscrowId} {body : EscrowLockBody}
    (hproper : (WalletRequest.lockEscrow escrowId body).Proper v) :
    (v.handle (.lockEscrow escrowId body)).Kept := by
  have hrun := lockEscrow_run v.db escrowId body
  have hconserved := hkept.conserved
  simp only [Service.handle, WalletRequest.handler]
  rcases hrun with hsame | ⟨a, hget, hcovers, haccounts, hescrows⟩
  · rw [hsame]
    exact hkept
  · have hnonneg := hproper a hget hcovers
    obtain ⟨-, -, y, hy, -⟩ := hkept.backed.account body.consumerId a hget
    rw [Option.mem_def] at hget hy
    constructor
    · rw [haccounts]
      rcases hescrows with hsame | hinsert
      · -- the amount is in escrow without a row
        rw [hsame]
        apply hkept.backed.spend hget hcovers rfl rfl hkept.backed.row (fun _ _ => rfl)
        linarith
      · apply hkept.backed.spend hget hcovers rfl rfl
        · intro k e he hlocked
          rcases Table.get?_insert?_cases hinsert he with ⟨-, rfl⟩ | ⟨-, he⟩
          · exact ⟨hnonneg, by rw [EscrowLockBody.escrow, hget]; rfl⟩
          · exact hkept.backed.row k e he hlocked
        · intro c hne
          rw [lockedOf_insert hinsert rfl, EscrowLockBody.escrow, if_neg (Ne.symm hne), add_zero]
        · rw [lockedOf_insert hinsert rfl, EscrowLockBody.escrow, if_pos rfl]
    · have htotal := totalNmc_move hkept.backed hget (d := 0) (f := .lock body.amountNmc)
        fun x y hx hy => by
          simp only [CreditAccount.total, CreditAccount.lock, hx, hy, nullSub_some, nullAdd_some,
            Option.getD_some]
          ring
      rw [haccounts, htotal, add_zero]
      exact hconserved

/-- A release finds no locked row and changes nothing, or settles the row it finds. -/
theorem releaseEscrow_run (s : Db) (body : EscrowReleaseBody) :
    let answered := (Ledger.releaseEscrow body).run Action.exec s
    answered = (.error .notFound, s) ∨
      ∃ e ∈ s.escrows.get? body.escrowId, e.state = .locked ∧
        let cost := actualCost body e.lockedNmc
        let net := cost - cost * (8 / 100)
        platformFee answered.1 = cost * (8 / 100) ∧
        answered.2.creditAccounts =
          (s.creditAccounts.update e.consumerId (.settle e.lockedNmc (e.lockedNmc - cost))).upsert
            (e.providerId.getD "") (.opened net net) (.earn net) ∧
        answered.2.escrows = s.escrows.update body.escrowId .release := by
  intro answered
  have hread : Action.exec (.read (.lockedEscrow body.escrowId)) s =
    some ((s.escrows.get? body.escrowId).filter fun e => e.state = .locked, s) := rfl
  cases hget : s.escrows.get? body.escrowId with
  | none =>
      left
      simp only [answered, Ledger.releaseEscrow, run_query_of_some _ hread, hget,
        Option.filter_none, run_done]
  | some e =>
      by_cases hlocked : e.state = .locked
      · right
        refine ⟨e, rfl, hlocked, ?_⟩
        simp only [answered, Ledger.releaseEscrow, run_query_of_some _ hread, hget,
          Option.filter_some, hlocked, decide_true, if_true]
        refine ⟨rfl, ?_, rfl⟩
        rw [← updateAccount_all]
        rfl
      · left
        simp only [answered, Ledger.releaseEscrow, run_query_of_some _ hread, hget,
          Option.filter_some, hlocked, decide_false, Bool.false_eq_true, if_false, run_done]

theorem releaseEscrow_kept (hkept : v.Kept) {body : EscrowReleaseBody}
    (hproper : (WalletRequest.releaseEscrow body).Proper v) :
    (v.handle (.releaseEscrow body)).Kept := by
  have hrun := releaseEscrow_run v.db body
  have hconserved := hkept.conserved
  simp only [Service.handle, WalletRequest.handler]
  rcases hrun with hnone | ⟨e, hget, hlocked, hfee, haccounts, hescrows⟩
  · rw [hnone]
    exact ⟨hkept.backed, by simpa [platformFee, field, Reply.error] using hconserved⟩
  · obtain ⟨hnonneg, hsome⟩ := hkept.backed.row _ e hget hlocked
    obtain ⟨a, hacc⟩ := Option.isSome_iff_exists.mp hsome
    have hcost : 0 ≤ actualCost body e.lockedNmc := by
      refine le_min ?_ hnonneg
      have hprice := hproper e hget hlocked
      rw [← mul_div_assoc]
      exact div_nonneg hprice (by norm_num)
    have hle : actualCost body e.lockedNmc ≤ e.lockedNmc := min_le_right _ _
    have hsettled : Backed
        (v.db.creditAccounts.update e.consumerId
          (.settle e.lockedNmc (e.lockedNmc - actualCost body e.lockedNmc)))
        (v.db.escrows.update body.escrowId .release) := by
      apply hkept.backed.update
      · intro k r hr hrlocked
        obtain ⟨r₀, hr₀, -, -, -, hsame⟩ := get?_release hr
        obtain ⟨rfl, -⟩ := hsame hrlocked
        exact hkept.backed.row k r hr₀ hrlocked
      · intro c hne
        rw [lockedOf_release hget hlocked, if_neg (Ne.symm hne), sub_zero]
      · intro b hb
        obtain ⟨x, hx, y, hy, hx0, hyle⟩ := hkept.backed.account e.consumerId b hb
        rw [Option.mem_def] at hx hy
        rw [lockedOf_release hget hlocked, if_pos rfl]
        refine ⟨x + (e.lockedNmc - actualCost body e.lockedNmc), ?_, y - e.lockedNmc, ?_,
          by linarith, by linarith⟩
        · rw [Option.mem_def, CreditAccount.settle, hx, nullAdd_some]
        · rw [Option.mem_def, CreditAccount.settle, hy, nullSub_some]
    constructor
    · rw [haccounts, hescrows]
      exact hsettled.credit (by linarith) (fun _ => rfl) fun _ => rfl
    · have hmoved := totalNmc_move hkept.backed hacc (d := -actualCost body e.lockedNmc)
        (f := .settle e.lockedNmc (e.lockedNmc - actualCost body e.lockedNmc)) fun x y hx hy => by
          simp only [CreditAccount.total, CreditAccount.settle, hx, hy, nullSub_some, nullAdd_some,
            Option.getD_some]
          ring
      have hcredited := totalNmc_credit hsettled (e.providerId.getD "")
        (actualCost body e.lockedNmc - actualCost body e.lockedNmc * (8 / 100))
        (actualCost body e.lockedNmc - actualCost body e.lockedNmc * (8 / 100))
        (f := .earn (actualCost body e.lockedNmc - actualCost body e.lockedNmc * (8 / 100)))
        (fun _ => rfl) fun _ => rfl
      rw [haccounts, hcredited, hmoved, hfee]
      linarith

theorem Service.Kept.handle (hkept : v.Kept) {request : WalletRequest}
    (hproper : request.Proper v) : (v.handle request).Kept := by
  cases request with
  | deposit txId accountId body => exact deposit_kept hkept hproper
  | withdraw txId accountId body => exact withdraw_kept hkept hproper
  | lockEscrow escrowId body => exact lockEscrow_kept hkept hproper
  | releaseEscrow body => exact releaseEscrow_kept hkept hproper

theorem Service.Kept.elsewhere (hkept : v.Kept) {t : Db}
    (haccounts : v.db.creditAccounts.Reordered t.creditAccounts)
    (hescrows : v.db.escrows.Reordered t.escrows) : Service.Kept { v with db := t } where
  backed := by
    constructor
    · intro escrowId e he
      dsimp only at he ⊢
      rw [← hescrows.get?_eq] at he
      rw [← haccounts.get?_eq]
      exact hkept.backed.row escrowId e he
    · intro c a ha
      dsimp only at ha ⊢
      rw [← haccounts.get?_eq] at ha
      rw [lockedOf, ← hescrows.sum_eq]
      exact hkept.backed.account c a ha
  conserved := by
    have hconserved := hkept.conserved
    rwa [totalNmc, haccounts.sum_eq] at hconserved

/-- Every state that proper requests reach from an empty service is sound. -/
theorem service_sound {u v : Service} (hopened : u.Opened)
    (hruns : Service.Runs (fun v request => request.Proper v) u v) : v.Sound := by
  suffices hkept : v.Kept from hkept.sound
  induction hruns with
  | refl => exact hopened.kept
  | tail _ hlast ih =>
      cases hlast with
      | request hmeets => exact ih.handle hmeets
      | elsewhere haccounts hescrows => exact ih.elsewhere haccounts hescrows

/-! ### A negative lock -/

/-- A service with one job in the database. -/
def sampleService : Service where
  db := afterAll [.grpcSubmitJob "a" ⟨"alice", some ⟨0, 1, 3600, 1⟩, "", "", "", ""⟩] Db.init
  deposited := 0
  withdrawn := 0
  fees := 0

theorem sampleService_opened : sampleService.Opened where
  accounts := rfl
  escrows := rfl
  deposited := rfl
  withdrawn := rfl
  fees := rfl

def sampleDeposit : WalletRequest := .deposit "t" "alice" ⟨10, none⟩

def sampleLock (amount : ℚ) : WalletRequest := .lockEscrow "e" ⟨"a", "alice", none, amount⟩

/-- A lock of minus five credits makes `escrowed_nmc` negative. -/
theorem service_unsound :
    ∃ u v : Service, u.Opened ∧ Service.Runs (fun _ _ => True) u v ∧ ¬ v.Sound := by
  refine ⟨sampleService, (sampleService.handle sampleDeposit).handle (sampleLock (-5)),
    sampleService_opened, ?_, fun hsound => ?_⟩
  · exact (Relation.ReflTransGen.single (.request trivial)).tail (.request trivial)
  · have hget : ((sampleService.handle sampleDeposit).handle
        (sampleLock (-5))).db.creditAccounts.get? "alice" =
          some ⟨some 15, some (-5), some 0, some 0⟩ := by
      decide +kernel
    obtain ⟨x, hx, hnonneg⟩ := hsound.escrowed "alice" _ hget
    cases hx
    norm_num at hnonneg

/-- A deposit and a lock of part of it. -/
theorem service_sound_locked :
    ((sampleService.handle sampleDeposit).handle (sampleLock 4)).Sound := by
  apply service_sound sampleService_opened
  have hnew : sampleDeposit.Proper sampleService := by
    show sampleService.db.transactions.get? "t" = none
    rfl
  have hnonneg : (sampleLock 4).Proper (sampleService.handle sampleDeposit) := by
    show ∀ a ∈ _, CreditAccount.covers 4 a → (0 : ℚ) ≤ 4
    intro a ha hcovers
    norm_num
  exact (Relation.ReflTransGen.single (.request hnew)).tail (.request hnonneg)

end NeuralMesh.Ledger
