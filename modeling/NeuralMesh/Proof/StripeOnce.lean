import NeuralMesh.Base.Interleaving
import NeuralMesh.Coordinator.Books
import NeuralMesh.System.Operation
import Mathlib.Tactic.Linarith
import Mathlib.Tactic.Ring

/-!
# The deliveries of one Stripe session

Stripe delivers the webhook of a paid session again until a delivery is answered with success.
`stripe_credit` looks for the session's record, credits the account and then inserts the record.
That insert names no `amount_nmc`, so it is always refused, and what bounds the credits of a session
is the number of its deliveries.
-/

namespace NeuralMesh

open Coordinator Program

/-- One delivery: the header it carries and the UUID its transaction would get. -/
structure Delivery where
  authorization : Option String
  txId : TxId

namespace Delivery

/-- The delivery carries the token `stripe_credit` expects. -/
def authorized (config : Config) (d : Delivery) : Bool :=
  bearerToken d.authorization = config.internalSecret.getD ""

def program (config : Config) (body : StripeCreditBody) (d : Delivery) : Handler :=
  stripeCredit config d.authorization d.txId body

end Delivery

/-- Deliveries of one session, interleaved statement by statement. -/
abbrev Deliveries := Pool Action.Answer Db Delivery Reply

/-- What was added to the account between two databases. -/
def creditedNmc (body : StripeCreditBody) (s t : Db) : ℚ :=
  availableOrZero t.creditAccounts body.accountId - availableOrZero s.creditAccounts body.accountId

/-- The session is credited at most once, and was credited if a delivery is answered with ok. -/
structure CreditedOnce (body : StripeCreditBody) (s : Db) (p : Deliveries) : Prop where
  atMostOnce : creditedNmc body s p.store = 0 ∨ creditedNmc body s p.store = body.amountNmc
  answered : ∀ r ∈ p.requests, ∀ reply, r.rest = .done reply → reply.status = .ok →
    creditedNmc body s p.store = body.amountNmc

/-! ### The balance column -/

/-- `available_nmc` of an account: a missing row, `NULL`, or an amount. -/
def balance (accounts : Table AccountId CreditAccount) (accountId : AccountId) :
    Option (Option ℚ) :=
  (accounts.get? accountId).map CreditAccount.availableNmc

/-- What a credit makes of a balance. -/
def creditBalance (amount : ℚ) : Option (Option ℚ) → Option (Option ℚ)
  | none => some (some amount)
  | some x => some (nullAdd x (some amount))

theorem availableOrZero_eq (accounts : Table AccountId CreditAccount) (accountId : AccountId) :
    availableOrZero accounts accountId =
      ((balance accounts accountId).map fun x => x.getD 0).getD 0 := rfl

theorem balance_credit (s : Db) (accountId : AccountId) (amount : ℚ) :
    balance (AccountsWrite.apply s (.credit accountId amount)).2 accountId =
      creditBalance amount (balance s.creditAccounts accountId) := by
  simp only [balance, AccountsWrite.apply, Table.get?_upsert]
  cases s.creditAccounts.get? accountId with
  | none => rfl
  | some a => rfl

/-- `NULL` stays `NULL`; any other balance grows with each credit. -/
theorem iterate_creditBalance (amount : ℚ) (k : Nat) (b : Option (Option ℚ)) :
    (((creditBalance amount)^[k] b).map fun x => x.getD 0).getD 0 =
      (b.map fun x => x.getD 0).getD 0 + if b = some none then 0 else k * amount := by
  induction k generalizing b with
  | zero => simp
  | succ k ih =>
      rw [Function.iterate_succ_apply, ih]
      match b with
      | none => simp [creditBalance]; ring
      | some none => simp [creditBalance]
      | some (some x) => simp [creditBalance]; ring

/-! ### What a delivery can still do -/

/-- With `n` credits left, the rest of a delivery reads the session's record and takes it for
missing, credits the account at most `n` times, inserts a record without `amount_nmc`, and never
answers with ok. -/
def Bounded (body : StripeCreditBody) : Nat → Handler → Prop
  | _, .done reply => reply.status ≠ .ok
  | n, .query (.read (.depositCount stripeSessionId)) next fail =>
      stripeSessionId = body.stripeSessionId ∧ Bounded body n (next (0 : Nat)) ∧ Bounded body n fail
  | n, .query (.creditAccounts (.credit accountId amount)) next fail =>
      accountId = body.accountId ∧ amount = body.amountNmc ∧ 0 < n ∧
        (∀ rows : Nat, Bounded body (n - 1) (next rows)) ∧ Bounded body n fail
  | n, .query (.insertDeposit row) _ fail => row.amountNmc = none ∧ Bounded body n fail
  | _, .query _ _ _ => False

/-- The credits a delivery may make. -/
def Delivery.budget (config : Config) (body : StripeCreditBody) (d : Delivery) : Nat :=
  if 0 < body.amountNmc ∧ d.authorized config then 1 else 0

theorem Delivery.program_bounded (config : Config) (body : StripeCreditBody) (d : Delivery) :
    Bounded body (d.budget config body) (d.program config body) := by
  unfold Delivery.program stripeCredit
  by_cases htoken : bearerToken d.authorization ≠ config.internalSecret.getD ""
  · rw [if_pos htoken]
    simp [Bounded, Reply.error]
  rw [if_neg htoken]
  by_cases hamount : body.amountNmc ≤ 0
  · rw [if_pos hamount]
    simp [Bounded, Reply.error]
  rw [if_neg hamount]
  have hbudget : d.budget config body = 1 := by
    simp only [ne_eq, not_not] at htoken
    simp [Delivery.budget, Delivery.authorized, htoken, not_le.mp hamount]
  simp [Bounded, Reply.error, hbudget]

/-- No record of the session, and the account credited `k` times. -/
structure Credited (body : StripeCreditBody) (s : Db) (k : Nat) (t : Db) : Prop where
  unrecorded : t.depositRecords.get? body.stripeSessionId = none
  column : balance t.creditAccounts body.accountId =
    (creditBalance body.amountNmc)^[k] (balance s.creditAccounts body.accountId)

theorem insertDeposit_refused {s : Db} {d : NewDeposit} (hamount : d.amountNmc = none) :
    Action.exec (.insertDeposit d) s = none := by
  simp [Action.exec, NewDeposit.insert, hamount]

theorem depositCount_eq_zero {s : Db} {stripeSessionId : String}
    (hnone : s.depositRecords.get? stripeSessionId = none) :
    Read.eval s (.depositCount stripeSessionId) = (0 : Nat) := by
  rw [Table.get?_eq_none_iff] at hnone
  simp only [Read.eval, List.length_eq_zero_iff, List.filter_eq_nil_iff, decide_eq_true_eq]
  rintro row hrow rfl
  exact hnone (List.mem_map_of_mem hrow)

/-- One statement of a delivery spends what it credits. -/
theorem Credited.exec {body : StripeCreditBody} {s t t' : Db} {k n : Nat} {q : Action}
    {next : q.Answer → Handler} {fail : Handler} {a : q.Answer} (hcredited : Credited body s k t)
    (hbounded : Bounded body n (.query q next fail)) (hexec : q.exec t = some (a, t')) :
    ∃ d, d ≤ n ∧ Credited body s (k + d) t' ∧ Bounded body (n - d) (next a) := by
  unfold Bounded at hbounded
  split at hbounded
  · cases ‹_ = _›
  · rename_i heq
    cases heq
    obtain ⟨rfl, hnext, _⟩ := hbounded
    cases hexec
    rw [depositCount_eq_zero hcredited.unrecorded]
    exact ⟨0, Nat.zero_le _, hcredited, hnext⟩
  · rename_i heq
    cases heq
    obtain ⟨rfl, rfl, hpos, hnext, _⟩ := hbounded
    cases hexec
    refine ⟨1, hpos, ⟨hcredited.unrecorded, ?_⟩, hnext _⟩
    rw [Function.iterate_succ_apply', ← hcredited.column]
    exact balance_credit _ _ _
  · rename_i heq
    cases heq
    rw [insertDeposit_refused hbounded.1] at hexec
    cases hexec
  · exact hbounded.elim

theorem Bounded.fail {body : StripeCreditBody} {n : Nat} {q : Action}
    {next : q.Answer → Handler} {fail : Handler} (hbounded : Bounded body n (.query q next fail)) :
    Bounded body n fail := by
  unfold Bounded at hbounded
  split at hbounded
  · cases ‹_ = _›
  · rename_i heq
    cases heq
    exact hbounded.2.2
  · rename_i heq
    cases heq
    exact hbounded.2.2.2.2
  · rename_i heq
    cases heq
    exact hbounded.2
  · exact hbounded.elim

/-- The account is credited at most as often as the budgets of the deliveries allow, and none of
them answers with ok. -/
theorem deliveries_credited {config : Config} {body : StripeCreditBody} {s : Db}
    (hrecord : s.depositRecords.get? body.stripeSessionId = none) {ds : List Delivery}
    {G : Deliveries → Event Action Db Delivery → Prop} {p : Deliveries}
    {es : List (Event Action Db Delivery)}
    (hrun : (Pool.start (Delivery.program config body) s ds).Runs Action.exec Db.Shuffled G es p) :
    (∃ k, k ≤ (ds.map (Delivery.budget config body)).sum ∧ Credited body s k p.store) ∧
      ∀ r ∈ p.requests, ∀ reply, r.rest = .done reply → reply.status ≠ .ok := by
  obtain ⟨hstore, hrequests⟩ := hrun.budget (I := Credited body s)
    (T := fun n _ rest => Bounded body n rest)
    (fun k n op q next fail t a t' hcredited hbounded hexec => hcredited.exec hbounded hexec)
    (fun n op q next fail hbounded => hbounded.fail)
    (fun k t t' hshuffled hcredited =>
      { unrecorded := (hshuffled.depositRecords.get?_eq _).symm.trans hcredited.unrecorded
        column := by
          rw [← hcredited.column, balance, balance, hshuffled.creditAccounts.get?_eq] })
    (Delivery.program_bounded config body) ⟨hrecord, rfl⟩
  refine ⟨hstore, fun r hr reply hdone => ?_⟩
  obtain ⟨n, hbounded⟩ := hrequests r hr
  rw [hdone] at hbounded
  exact hbounded

theorem sum_budget (config : Config) (body : StripeCreditBody) (ds : List Delivery) :
    (ds.map (Delivery.budget config body)).sum =
      if 0 < body.amountNmc then ds.countP (Delivery.authorized config) else 0 := by
  induction ds with
  | nil => simp
  | cons d ds ih =>
      rw [List.map_cons, List.sum_cons, ih, List.countP_cons, Delivery.budget]
      by_cases hpos : 0 < body.amountNmc
      · simp [hpos, Nat.add_comm]
      · simp [hpos]

theorem Credited.creditedNmc_eq {body : StripeCreditBody} {s t : Db} {k : Nat}
    (hcredited : Credited body s k t) :
    creditedNmc body s t =
      if balance s.creditAccounts body.accountId = some none then 0 else k * body.amountNmc := by
  rw [creditedNmc, availableOrZero_eq, availableOrZero_eq, hcredited.column, iterate_creditBalance]
  ring

/-! ### Redelivery -/

/-- An authorised delivery of an unrecorded session credits the account. -/
theorem Credited.deliver {config : Config} {body : StripeCreditBody} {s t : Db} {k : Nat}
    (hcredited : Credited body s k t) {d : Delivery} (hauthorized : d.authorized config)
    (hpos : 0 < body.amountNmc) :
    Credited body s (k + 1) ((d.program config body).run Action.exec t).2 := by
  have htoken : bearerToken d.authorization = config.internalSecret.getD "" :=
    of_decide_eq_true hauthorized
  have hcount : Action.exec (.read (.depositCount body.stripeSessionId)) t = some ((0 : Nat), t) := by
    rw [← depositCount_eq_zero hcredited.unrecorded]
    rfl
  unfold Delivery.program stripeCredit
  rw [if_neg (not_not.mpr htoken), if_neg (not_le.mpr hpos), run_query_of_some _ hcount,
    if_neg (lt_irrefl 0), run_query_of_some _ rfl, run_query_of_none _ (insertDeposit_refused rfl),
    run_done]
  refine ⟨hcredited.unrecorded, ?_⟩
  rw [Function.iterate_succ_apply', ← hcredited.column]
  exact balance_credit _ _ _

/-- Two authorised deliveries, one after the other, credit the account twice. -/
theorem redelivery_credits {config : Config} {body : StripeCreditBody} {s : Db}
    (hrecord : s.depositRecords.get? body.stripeSessionId = none) (hpos : 0 < body.amountNmc)
    {ds : List Delivery} {i j : Nat} (hij : i ≠ j) {d d' : Delivery} (hd : ds[i]? = some d)
    (hd' : ds[j]? = some d') (hauthorized : d.authorized config)
    (hauthorized' : d'.authorized config) :
    ∃ es p, (Pool.start (Delivery.program config body) s ds).Runs Action.exec Db.Shuffled
      (fun _ e => e.isLost = false) es p ∧ Credited body s 2 p.store := by
  have hstart : Credited body s 0 s := ⟨hrecord, rfl⟩
  have hfresh : ∀ {n : Nat} {d : Delivery}, ds[n]? = some d →
      (ds.map (Request.fresh (Delivery.program config body)))[n]? =
        some (.fresh (Delivery.program config body) d) := by
    intro n d hn
    rw [List.getElem?_map, hn, Option.map_some]
  obtain ⟨es, begun, hfirst⟩ := Pool.runs_alone Action.exec Db.Shuffled s _ i d false _
    (hfresh hd)
  obtain ⟨es', begun', hsecond⟩ := Pool.runs_alone Action.exec Db.Shuffled
    ((d.program config body).run Action.exec s).2 _ j d' false _
    ((List.getElem?_set_ne hij).trans (hfresh hd'))
  exact ⟨_, _, hfirst.trans hsecond,
    (hstart.deliver hauthorized hpos).deliver hauthorized' hpos⟩

/-- Two places of a list whose elements pass a test that more than one element passes. -/
theorem exists_two_of_countP {α : Type} {p : α → Bool} {l : List α} (htwo : 1 < l.countP p) :
    ∃ i j : Nat, i ≠ j ∧ (∃ a, l[i]? = some a ∧ p a) ∧ ∃ b, l[j]? = some b ∧ p b := by
  induction l with
  | nil => cases htwo
  | cons a l ih =>
      rw [List.countP_cons] at htwo
      by_cases ha : p a
      · rw [if_pos ha] at htwo
        obtain ⟨b, hb, hpb⟩ := List.countP_pos_iff.mp (by omega : 0 < l.countP p)
        obtain ⟨j, hj⟩ := List.mem_iff_getElem?.mp hb
        exact ⟨0, j + 1, by omega, ⟨a, rfl, ha⟩, b, hj, hpb⟩
      · rw [if_neg ha] at htwo
        obtain ⟨i, j, hij, hi, hj⟩ := ih htwo
        exact ⟨i + 1, j + 1, by omega, hi, hj⟩

/-- Whatever order the statements of the deliveries run in and whichever of them fail, an
unrecorded session is credited at most once, and once as soon as a delivery is answered with ok,
exactly when at most one of its deliveries is authorised or there is nothing to credit. -/
theorem session_creditedOnce_iff {config : Config} {body : StripeCreditBody} {s : Db}
    (hrecord : s.depositRecords.get? body.stripeSessionId = none) (ds : List Delivery) :
    (∀ es p, (Pool.start (Delivery.program config body) s ds).Runs Action.exec Db.Shuffled
        (fun _ _ => True) es p → CreditedOnce body s p) ↔
      body.amountNmc ≤ 0 ∨ balance s.creditAccounts body.accountId = some none ∨
        ds.countP (Delivery.authorized config) ≤ 1 := by
  constructor
  · intro hall
    by_contra hfails
    simp only [not_or, not_le] at hfails
    obtain ⟨hpos, hknown, htwo⟩ := hfails
    obtain ⟨i, j, hij, ⟨d, hd, hauthorized⟩, d', hd', hauthorized'⟩ := exists_two_of_countP htwo
    obtain ⟨es, p, hrun, hcredited⟩ :=
      redelivery_credits hrecord hpos hij hd hd' hauthorized hauthorized'
    have honce := (hall es p (hrun.mono fun _ _ _ => trivial)).atMostOnce
    rw [hcredited.creditedNmc_eq, if_neg hknown, Nat.cast_ofNat] at honce
    rcases honce with hzero | hone
    · linarith
    · linarith
  · intro hcond es p hrun
    obtain ⟨⟨k, hk, hcredited⟩, hnone⟩ := deliveries_credited hrecord hrun
    refine ⟨?_, fun r hr reply hdone hok => absurd hok (hnone r hr reply hdone)⟩
    rw [sum_budget] at hk
    rw [hcredited.creditedNmc_eq]
    have hle : balance s.creditAccounts body.accountId = some none ∨ k ≤ 1 := by
      rcases hcond with hamount | hnull | hone
      · rw [if_neg (not_lt.mpr hamount)] at hk
        exact .inr (by omega)
      · exact .inl hnull
      · split at hk
        · exact .inr (hk.trans hone)
        · exact .inr (by omega)
    rcases hle with hnull | hle
    · exact .inl (if_pos hnull)
    · rcases Nat.le_one_iff_eq_zero_or_eq_one.mp hle with rfl | rfl
      · simp
      · split
        · exact .inl rfl
        · exact .inr (by simp)

/-- A single delivery of a session. -/
theorem session_creditedOnce_single :
    let start := Pool.start (Delivery.program ⟨some "secret", false⟩ ⟨"alice", 100, "cs_1", 10⟩)
      Db.init [⟨some "Bearer secret", "t"⟩]
    (∃ es p, start.Runs Action.exec Db.Shuffled (fun _ _ => True) es p ∧
        balance p.store.creditAccounts "alice" = some (some 100)) ∧
      ∀ es p, start.Runs Action.exec Db.Shuffled (fun _ _ => True) es p →
        CreditedOnce ⟨"alice", 100, "cs_1", 10⟩ Db.init p := by
  intro start
  have hcredited : balance ((Delivery.program ⟨some "secret", false⟩ ⟨"alice", 100, "cs_1", 10⟩
      ⟨some "Bearer secret", "t"⟩).run Action.exec Db.init).2.creditAccounts "alice" =
      some (some 100) := by decide +kernel
  refine ⟨?_, (session_creditedOnce_iff rfl _).mpr (.inr (.inr (by decide +kernel)))⟩
  obtain ⟨es, begun, hrun⟩ := Pool.runs_alone Action.exec Db.Shuffled Db.init start.requests 0 _ _ _
    rfl
  exact ⟨es, _, hrun.mono fun _ _ _ => trivial, hcredited⟩

/-- The webhook delivered twice to a coordinator without a secret credits the account twice. -/
theorem session_creditedOnce_fails :
    ∃ (config : Config) (body : StripeCreditBody) (s : Db) (ds : List Delivery)
      (es : List (Event Action Db Delivery)) (p : Deliveries), Reachable s ∧
      s.depositRecords.get? body.stripeSessionId = none ∧
      (Pool.start (Delivery.program config body) s ds).Runs Action.exec Db.Shuffled
        (fun _ e => e.isLost = false) es p ∧
      ¬ CreditedOnce body s p := by
  let config : Config := ⟨none, false⟩
  let body : StripeCreditBody := ⟨"alice", 100, "cs_1", 10⟩
  let register : Operation :=
    .registerAccount "alice" ⟨"04ab", String.ofList (List.replicate 64 'f')⟩
  have hreach : Reachable (afterAll [register] Db.init) := Run.afterAll ⟨trivial, trivial⟩
  have hrecord : (afterAll [register] Db.init).depositRecords.get? body.stripeSessionId = none := by
    decide +kernel
  have hzero : balance (afterAll [register] Db.init).creditAccounts body.accountId =
      some (some 0) := by
    decide +kernel
  generalize afterAll [register] Db.init = s at *
  let deliveries : List Delivery := [⟨none, "t1"⟩, ⟨none, "t2"⟩]
  have hdelivery : ∀ d ∈ deliveries, d.authorized config := by decide +kernel
  obtain ⟨es, p, hrun, hcredited⟩ :=
    redelivery_credits hrecord (by decide) (zero_ne_one : (0 : Nat) ≠ 1)
      (rfl : deliveries[0]? = some ⟨none, "t1"⟩) (rfl : deliveries[1]? = some ⟨none, "t2"⟩)
      (hdelivery _ (by simp [deliveries])) (hdelivery _ (by simp [deliveries]))
  refine ⟨config, body, s, _, es, p, hreach, hrecord, hrun, fun honce => ?_⟩
  have hcases := honce.atMostOnce
  rw [hcredited.creditedNmc_eq, hzero] at hcases
  revert hcases
  decide +kernel

end NeuralMesh
