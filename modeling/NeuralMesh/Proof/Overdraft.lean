import NeuralMesh.Base.Debts
import NeuralMesh.Coordinator.Books
import NeuralMesh.Proof.TerminalStates
import Mathlib.Tactic.Linarith

/-!
# Overdrafts

`submit_job` and `withdraw` read the balance in one statement and take from it in a later one that
does not look again. A request that has passed its check owes what it will still take, and the
balance stays nonnegative as long as a check that passes leaves room for what the others owe.
-/

namespace NeuralMesh

open Coordinator Program

/-! ### What a request still takes -/

/-- What a statement takes from the balance of an account. -/
def Action.takes (c : AccountId) : Action → ℚ
  | .creditAccounts (.lock accountId amount) => if accountId = c then amount else 0
  | .creditAccounts (.debit accountId amount) => if accountId = c then amount else 0
  | _ => 0

/-- The answer of a statement that asks for nothing. -/
def Action.answered : (q : Action) → Option q.Answer
  | .read _ => none
  | .ledgerDeposit _ _ _ _ => none
  | .creditAccounts _ => some 1
  | .escrows _ => some ()
  | .jobs _ => some ()
  | .providers _ => some none
  | .insertTransaction _ _ => some ()
  | .insertDeposit _ => some ()
  | .insertMilestone _ _ _ => some ()
  | .insertCheckpoint _ _ => some ()
  | .insertAccount _ _ => some ()
  | .oracle _ => some ()

/-- What a program still takes from the balance if no statement fails, up to the next read. -/
def owes (c : AccountId) {α : Type} : Program Action.Answer α → ℚ
  | .done _ => 0
  | .query q next _ => q.takes c + (q.answered.elim 0 fun a => owes c (next a))

@[simp] theorem owes_done (c : AccountId) {α : Type} (result : α) :
    owes c (.done result : Program Action.Answer α) = 0 := rfl

@[simp] theorem owes_read (c : AccountId) {α : Type} (r : Read)
    (next : r.Answer → Program Action.Answer α) (fail : Program Action.Answer α) :
    owes c (.query (.read r) next fail) = 0 := by
  simp only [owes, Action.takes, Action.answered, Option.elim_none, add_zero]

/-- The statements that take from a balance or leave all of them alone, reads apart. -/
def Action.OnlyTakes : Action → Prop
  | .creditAccounts (.lock _ amount) => 0 ≤ amount
  | .creditAccounts (.debit _ amount) => 0 ≤ amount
  | .creditAccounts _ | .ledgerDeposit _ _ _ _ | .read _ => False
  | _ => True

/-- The program only takes from balances, as much as it owes whatever it is answered, and nothing
once a statement fails. -/
def Pays (c : AccountId) {α : Type} : Program Action.Answer α → Prop
  | .done _ => True
  | .query q next fail =>
      q.OnlyTakes ∧
        (∀ a, Pays c (next a) ∧ owes c (.query q next fail) = q.takes c + owes c (next a)) ∧
        Pays c fail ∧ owes c fail = 0

theorem Action.OnlyTakes.takes_nonneg {q : Action} (honly : q.OnlyTakes) (c : AccountId) :
    0 ≤ q.takes c := by
  unfold Action.takes
  split
  · split
    · exact honly
    · exact le_rfl
  · split
    · exact honly
    · exact le_rfl
  · exact le_rfl

theorem Pays.owes_nonneg {c : AccountId} {α : Type} {p : Program Action.Answer α}
    (hpays : Pays c p) : 0 ≤ owes c p := by
  induction p with
  | done result => exact le_rfl
  | query q next fail ihnext ihfail =>
      obtain ⟨honly, hnext, -, -⟩ := hpays
      have htakes := honly.takes_nonneg c
      rw [owes]
      cases q.answered with
      | none => simpa using htakes
      | some a => exact add_nonneg htakes (ihnext a (hnext a).1)

/-- The balance of the account, where there is one, is at least `m`. -/
def Covers (c : AccountId) (m : ℚ) (s : Db) : Prop :=
  ∀ a ∈ s.creditAccounts.get? c, ∀ x ∈ a.availableNmc, m ≤ x

/-- The account's `available_nmc` is not negative. -/
abbrev NotOverdrawn (c : AccountId) (s : Db) : Prop := Covers c 0 s

theorem Covers.mono {c : AccountId} {m m' : ℚ} {s : Db} (hle : m' ≤ m) (hcovers : Covers c m s) :
    Covers c m' s := fun a ha x hx => hle.trans (hcovers a ha x hx)

theorem Covers.shuffled {c : AccountId} {m : ℚ} {s t : Db} (hshuffled : s.Shuffled t)
    (hcovers : Covers c m s) : Covers c m t := by
  intro a ha
  rw [← hshuffled.creditAccounts.get?_eq] at ha
  exact hcovers a ha

theorem Covers.update {c accountId : AccountId} {m x : ℚ} {s t : Db}
    {f : CreditAccount → CreditAccount}
    (hf : ∀ a, (f a).availableNmc = nullSub a.availableNmc (some x))
    (haccounts : t.creditAccounts = s.creditAccounts.update accountId f) (hcovers : Covers c m s) :
    Covers c (m - if accountId = c then x else 0) t := by
  intro a ha y hy
  rw [haccounts, Table.get?_update] at ha
  by_cases hsame : c = accountId
  · subst hsame
    rw [if_pos rfl, Option.mem_def, Option.map_eq_some_iff] at ha
    obtain ⟨b, hb, rfl⟩ := ha
    rw [hf, Option.mem_def] at hy
    cases hbal : b.availableNmc with
    | none =>
        rw [hbal] at hy
        cases hy
    | some z =>
        have hz := hcovers b hb z hbal
        rw [hbal, nullSub_some, Option.some.injEq] at hy
        rw [if_pos rfl]
        linarith
  · rw [if_neg hsame] at ha
    rw [if_neg (Ne.symm hsame), sub_zero]
    exact hcovers a ha y hy

/-- A statement that takes from the balance leaves it covering what is owed after it. -/
theorem Action.OnlyTakes.covers {q : Action} (honly : q.OnlyTakes) {c : AccountId} {m : ℚ} {s t : Db}
    {a : q.Answer} (hexec : q.exec s = some (a, t)) (hcovers : Covers c m s) :
    Covers c (m - q.takes c) t := by
  have hsame : t.creditAccounts = s.creditAccounts → Covers c (m - 0) t := by
    intro haccounts
    rw [sub_zero, Covers, haccounts]
    exact hcovers
  cases q with
  | creditAccounts w =>
      cases w with
      | lock accountId amount =>
          cases hexec
          exact Covers.update (f := .lock amount) (fun _ => rfl) (updateAccount_all _ _ _) hcovers
      | debit accountId amount =>
          cases hexec
          exact Covers.update (f := .debit amount) (fun _ => rfl) (updateAccount_all _ _ _) hcovers
      | _ => exact honly.elim
  | ledgerDeposit accountId amount reference txId => exact honly.elim
  | read r => exact honly.elim
  | escrows w =>
      obtain ⟨_, _, heq⟩ := Option.map_eq_some_iff.mp hexec
      cases heq
      exact hsame rfl
  | jobs w =>
      obtain ⟨_, _, heq⟩ := Option.map_eq_some_iff.mp hexec
      cases heq
      exact hsame rfl
  | _ => exact hsame (congrArg Books.accounts (Action.exec_books (by trivial) hexec))

/-! ### The two handlers -/

namespace Operation

/-- What the operation takes from the balance when its check passes. -/
def amount : Operation → ℚ
  | submitJob _ body => body.maxCost
  | withdraw _ body => body.amountNmc
  | _ => 0

/-- A withdrawal of a positive amount from the account, or a submission it pays a nonnegative cost
for. -/
def TakesFrom (c : AccountId) : Operation → Prop
  | submitJob _ body => body.accountId = c ∧ 0 ≤ body.maxCost
  | withdraw _ body => body.accountId = c ∧ 0 < body.amountNmc
  | _ => False

/-- The handler first reads the balance, unless it turns the request away unread. It returns when
the balance is too small, and otherwise owes its amount. -/
theorem TakesFrom.check {c : AccountId} {op : Operation} (hop : op.TakesFrom c) :
    op.program = .done () ∨
      ∃ next : Option (Option ℚ) → Program Action.Answer Unit,
        op.program = .query (.read (.available c)) next (.done ()) ∧
        ∀ credit, if (credit.map fun x => x.getD 0).getD 0 < op.amount then next credit = .done ()
          else Pays c (next credit) ∧ owes c (next credit) = op.amount := by
  cases op with
  | submitJob ids body =>
      obtain ⟨rfl, hcost⟩ := hop
      refine .inr ⟨_, rfl, fun credit => ?_⟩
      dsimp only [amount]
      split
      · rfl
      · constructor
        · simp [Pays, forget, Action.OnlyTakes, Action.takes, Action.answered, owes, hcost]
        · simp [forget, Action.takes, Action.answered, owes]
  | withdraw txId body =>
      obtain ⟨rfl, hamount⟩ := hop
      dsimp only [program, Coordinator.withdraw, amount]
      rw [if_neg (not_le.mpr hamount)]
      split
      · exact .inl rfl
      · refine .inr ⟨_, rfl, fun credit => ?_⟩
        dsimp only
        split
        · rfl
        · constructor
          · simp [Pays, forget, Action.OnlyTakes, Action.takes, Action.answered, owes, hamount.le]
          · simp [forget, Action.takes, Action.answered, owes]
  | _ => exact hop.elim

end Operation

/-- The guard: a check that passes also covers what the requests past their checks still owe. -/
def ChecksCovered (c : AccountId) (p : Requests) : Event Action Db Operation → Prop
  | .ran _ op (.read _) before _ =>
      op.amount ≤ availableOrZero before.creditAccounts c →
        p.totalOwed (owes c) + op.amount ≤ availableOrZero before.creditAccounts c
  | _ => True

/-- What a request of the pool has left to do: everything, or to pay what it owes. -/
def Owing (c : AccountId) (op : Operation) (rest : Program Action.Answer Unit) : Prop :=
  op.TakesFrom c ∧ (rest = op.program ∨ Pays c rest)

theorem Owing.owes_nonneg {c : AccountId} {op : Operation} {rest : Program Action.Answer Unit}
    (howing : Owing c op rest) : 0 ≤ owes c rest := by
  obtain ⟨hop, rfl | hpays⟩ := howing
  · apply le_of_eq
    rcases hop.check with hdone | ⟨next, hread, -⟩
    · rw [hdone, owes_done]
    · rw [hread, owes_read]
  · exact hpays.owes_nonneg

theorem Owing.ran {c : AccountId} {p : Requests} {op : Operation} {i : Nat} {q : Action}
    {next : q.Answer → Program Action.Answer Unit} {fail : Program Action.Answer Unit} {a : q.Answer}
    {t : Db} (hguard : ChecksCovered c p (.ran i op q p.store t))
    (howing : Owing c op (.query q next fail))
    (hcovers : Covers c (p.totalOwed (owes c)) p.store) (hexec : q.exec p.store = some (a, t)) :
    Covers c (p.totalOwed (owes c) - owes c (.query q next fail) + owes c (next a)) t ∧
      Owing c op (next a) := by
  obtain ⟨hop, hprogram | hpays⟩ := howing
  · rcases hop.check with hdone | ⟨first, hread, hchecked⟩
    · cases hprogram.trans hdone
    · -- the check
      cases hprogram.trans hread
      cases hexec
      rw [owes_read, sub_zero]
      have hcheck := hchecked
        ((p.store.creditAccounts.get? c).map CreditAccount.availableNmc)
      dsimp only [Read.eval]
      split at hcheck
      · rw [hcheck]
        refine ⟨?_, hop, .inr trivial⟩
        rwa [owes_done, add_zero]
      · rename_i hless
        obtain ⟨hpays, howes⟩ := hcheck
        refine ⟨?_, hop, .inr hpays⟩
        rw [howes]
        intro acc hacc x hx
        have hbalance := hguard (not_lt.mp hless)
        rwa [availableOrZero_of_get? hacc, hx, Option.getD_some] at hbalance
  · obtain ⟨honly, hnext, -, -⟩ := hpays
    refine ⟨?_, hop, .inr (hnext a).1⟩
    rw [(hnext a).2]
    have htaken := honly.covers hexec hcovers
    rwa [sub_add_eq_sub_sub, sub_add_cancel]

/-- What a withdrawal does once its check has passed. -/
def withdrawUnchecked (txId : TxId) (body : WithdrawBody) : Program Action.Answer Unit :=
  .query (.creditAccounts (.debit body.accountId body.amountNmc))
    (fun _ =>
      .query
        (.insertTransaction txId
          { accountId := body.accountId
            txType := .withdrawal
            amountNmc := -body.amountNmc
            withBalance := false
            reference := some body.destinationAddress
            description := "Withdrawal request queued" })
        (fun _ => .done ()) (.done ()))
    (.done ())

theorem withdraw_program (txId : TxId) {body : WithdrawBody} (hamount : 0 < body.amountNmc)
    (haddress : body.isEth ∨ body.isSol) :
    (Operation.withdraw txId body).program =
      .query (.read (.available body.accountId))
        (fun credit =>
          if (credit.map fun x => x.getD 0).getD 0 < body.amountNmc then .done ()
          else withdrawUnchecked txId body)
        (.done ()) := by
  have hvalid : ¬ (!body.isEth && !body.isSol) = true := by
    rcases haddress with heth | hsol
    · simp [heth]
    · simp [hsol]
  rw [Operation.program, Coordinator.withdraw, if_neg (not_le.mpr hamount), if_neg hvalid]
  apply congrArg fun next => Program.query _ next _
  funext credit
  dsimp only
  split
  · rfl
  · rfl

/-- Two withdrawals that both pass their check before either debits the account take their amounts
together. -/
theorem overlapping_withdrawals {s : Db} (txId txId' : TxId) (body : WithdrawBody)
    (hamount : 0 < body.amountNmc) (haddress : body.isEth ∨ body.isSol) {a : CreditAccount}
    (hget : s.creditAccounts.get? body.accountId = some a) {x : ℚ} (hx : a.availableNmc = some x)
    (hle : body.amountNmc ≤ x) :
    ∃ es p, (Pool.start Operation.program s [.withdraw txId body, .withdraw txId' body]).Runs
        Action.exec Db.Shuffled (fun _ e => e.isLost = false) es p ∧
      p.store.creditAccounts.get? body.accountId =
        some { a with availableNmc := some (x - body.amountNmc - body.amountNmc) } := by
  let op := Operation.withdraw txId body
  let op' := Operation.withdraw txId' body
  have hcheck : Action.exec (.read (.available body.accountId)) s = some (some (some x), s) := by
    rw [Action.exec_available, hget, Option.map_some, hx]
  have hpasses : ¬ (((some (some x)).map fun y : Option ℚ => y.getD 0).getD 0) < body.amountNmc :=
    not_lt.mpr hle
  have hnone : Pool.Runs Action.exec Db.Shuffled (fun _ e => e.isLost = false)
      (Pool.start Operation.program s [op, op']) [] (Pool.start Operation.program s [op, op']) :=
    .nil _
  nth_rewrite 2 [Pool.start] at hnone
  simp only [List.map_cons, List.map_nil, Request.fresh, op, op',
    withdraw_program _ hamount haddress] at hnone
  let debited := (AccountsWrite.apply s (.debit body.accountId body.amountNmc)).2
  let once : Db := { s with creditAccounts := debited }
  have hdebited : debited = s.creditAccounts.update body.accountId (.debit body.amountNmc) :=
    updateAccount_all _ _ _
  have hboth := (hnone.snoc (.ran (i := 0) rfl hcheck) rfl).snoc (.ran (i := 1) rfl hcheck) rfl
  rw [List.set_cons_zero, List.set_cons_succ, List.set_cons_zero, if_neg hpasses,
    if_neg hpasses] at hboth
  have hrun := (hboth.snoc (.ran (i := 0) rfl rfl) rfl).snoc (.ran (i := 1) rfl rfl) rfl
  refine ⟨_, _, hrun, ?_⟩
  rw [show (AccountsWrite.apply once (.debit body.accountId body.amountNmc)).2 =
    debited.update body.accountId (.debit body.amountNmc) from updateAccount_all _ _ _,
    Table.get?_update_self, hdebited, Table.get?_update_self, hget]
  simp [CreditAccount.debit, hx]

/-- Alice withdraws six credits to an Ethereum address. -/
def withdrawSix : WithdrawBody :=
  ⟨"alice", "0x0000000000000000000000000000000000000000", 6, "arbitrum"⟩

theorem isEth_withdrawSix : withdrawSix.isEth := by decide +kernel

theorem topUp_account :
    (afterAll [topUp "alice" 10] Db.init).creditAccounts.get? "alice" =
      some ⟨some 10, some 0, some 0, some 0⟩ := by
  decide +kernel

end NeuralMesh
