import NeuralMesh.Coordinator.Reports
import NeuralMesh.Proof.TerminalStates
import NeuralMesh.Store.Rows
import NeuralMesh.System.Operation
import Mathlib.Tactic.FieldSimp
import Mathlib.Tactic.Linarith
import Mathlib.Tactic.Positivity

/-!
# The success rate of a provider

`update_trust_score` takes each outcome into an average over `jobs_completed`, which only completions
count up. What the row knows of failures is therefore `jobs_completed * (1 - success_rate)`: a
completion leaves it as it is, except that the first one forgets the failures before it, and a failure
adds one and takes away a part of what was there.
-/

namespace NeuralMesh

open Coordinator Program

/-- The two columns that make the rate. -/
def Db.rating (s : Db) (p : ProviderId) : Option (Option Int × Option ℚ) :=
  (s.providers.get? p).map fun row => (row.jobsCompleted, row.successRate)

/-- Reports about one provider, from the first database to the last; `true` is a completion. What
happens in between leaves the two columns alone. -/
inductive Reported (p : ProviderId) (s : Db) : List Bool → Db → Prop
  | start : Reported p s [] s
  | completed {outcomes : List Bool} {t : Db} (before : Reported p s outcomes t) (config : Config)
      {txId : TxId} {jobId : JobId} {body : CompleteJobBody} (provider : body.providerId = p)
      (found : ((t.jobs.get? jobId).filter fun j => j.providerId = some body.providerId).isSome)
      (fresh : t.transactions.get? txId = none) :
      Reported p s (outcomes ++ [true]) ((Operation.completeJob config txId jobId body).after t)
  | failed {outcomes : List Bool} {t : Db} (before : Reported p s outcomes t) (config : Config)
      (jobId : JobId) {body : FailJobBody} (provider : body.providerId = p)
      (slash : body.slash = true) :
      Reported p s (outcomes ++ [false]) ((Operation.failJob config jobId body).after t)
  | between {outcomes : List Bool} {t t' : Db} (before : Reported p s outcomes t)
      (same : t'.rating p = t.rating p) : Reported p s outcomes t'

/-! ### One report -/

variable {p : ProviderId} {s t : Db} {n : Int} {rate : ℚ}

theorem rating_update {providers : Table ProviderId Provider} {f : Provider → Provider}
    {new : Option Int × Option ℚ} (hproviders : t.providers = providers.update p f)
    (hrating : (providers.get? p).map (fun row => (row.jobsCompleted, row.successRate)) =
      some (some n, some rate))
    (hf : ∀ row, row.jobsCompleted = some n → row.successRate = some rate →
      ((f row).jobsCompleted, (f row).successRate) = new) : t.rating p = some new := by
  obtain ⟨row, hrow, hcolumns⟩ := Option.map_eq_some_iff.mp hrating
  obtain ⟨hcompleted, hrate⟩ := Prod.mk.inj hcolumns
  rw [Db.rating, hproviders, Table.get?_update_self, hrow]
  exact congrArg some (hf row hcompleted hrate)

theorem rating_completeJob {config : Config} {txId : TxId} {jobId : JobId} {body : CompleteJobBody}
    (hprovider : body.providerId = p)
    (hfound : ((t.jobs.get? jobId).filter fun j => j.providerId = some body.providerId).isSome)
    (hfresh : t.transactions.get? txId = none) (hn : 0 ≤ n)
    (hrating : t.rating p = some (some n, some rate)) :
    ((Operation.completeJob config txId jobId body).after t).rating p =
      some (some (n + 1), some ((rate * n + 1) / (n + 1))) := by
  obtain ⟨job, hjob⟩ := Option.isSome_iff_exists.mp hfound
  have hrun := completeJob_run_some config txId hjob
  have hnew : (paidFor t jobId body job).transactions.get? txId = none := hfresh
  obtain ⟨transactions, hinsert⟩ :=
    Action.exists_insert (earned jobId body (grossNmc job body * (1 - platformFee))) hnew
  simp only [hinsert] at hrun
  have hproviders : ((Operation.completeJob config txId jobId body).after t).providers =
      t.providers.update p fun row =>
        ({ row.free with jobsCompleted := row.jobsCompleted.map (· + 1) } : Provider).trust true := by
    rw [Operation.after, Operation.program, run_forget, hrun, ← hprovider]
    exact Table.update_update ..
  refine rating_update hproviders hrating fun row hcompleted hrate => ?_
  have hpos : 0 < n + 1 := by omega
  simp [Provider.trust, Provider.rate, Provider.free, hcompleted, hrate, hpos]

theorem rating_failJob {config : Config} {jobId : JobId} {body : FailJobBody}
    (hprovider : body.providerId = p) (hslash : body.slash = true)
    (hrating : t.rating p = some (some n, some rate)) :
    ((Operation.failJob config jobId body).after t).rating p =
      some (some n, some (if 0 < n then rate * (n - 1) / n else 0)) := by
  have hproviders : ((Operation.failJob config jobId body).after t).providers =
      t.providers.update p fun row => row.free.trust false := by
    rw [Operation.after, Operation.program, run_forget, failJob, run_query_of_some _ rfl,
      run_query_of_some _ rfl, run_query_of_some _ rfl, if_pos hslash, run_query_of_some _ rfl,
      hprovider]
    split
    · exact Table.update_update ..
    · exact Table.update_update ..
  refine rating_update hproviders hrating fun row hcompleted hrate => ?_
  simp only [Provider.trust, Provider.rate, Provider.free, hcompleted, hrate]
  split
  · simp
  · rfl

/-! ### What the row knows of the failures -/

/-- For each failure, how many completions came before it, if there were `n` to begin with. -/
def failureMarks : List Bool → Nat → List Nat
  | [], _ => []
  | true :: outcomes, n => failureMarks outcomes (n + 1)
  | false :: outcomes, n => n :: failureMarks outcomes n

/-- A failure after the first completion counts for one, of which a later failure, after `m`
completions, takes away the `m`-th part. -/
def remembered : List Nat → ℚ
  | [] => 0
  | n :: marks => (if 0 < n then (marks.map fun m : Nat => 1 - 1 / (m : ℚ)).prod else 0) + remembered marks

theorem failureMarks_true (outcomes : List Bool) (n : Nat) :
    failureMarks (outcomes ++ [true]) n = failureMarks outcomes n := by
  fun_induction failureMarks outcomes n with
  | case1 n => rfl
  | case2 outcomes n ih => exact ih
  | case3 outcomes n ih => exact congrArg (n :: ·) ih

theorem failureMarks_false (outcomes : List Bool) (n : Nat) :
    failureMarks (outcomes ++ [false]) n = failureMarks outcomes n ++ [n + outcomes.count true] := by
  fun_induction failureMarks outcomes n with
  | case1 n => rfl
  | case2 outcomes n ih =>
      rw [List.cons_append, failureMarks, ih, List.count_cons_self, Nat.add_right_comm, Nat.add_assoc]
  | case3 outcomes n ih =>
      rw [List.cons_append, failureMarks, ih, List.count_cons_of_ne (by decide)]
      rfl

theorem remembered_concat (marks : List Nat) (m : Nat) :
    remembered (marks ++ [m]) = remembered marks * (1 - 1 / (m : ℚ)) + if 0 < m then 1 else 0 := by
  induction marks with
  | nil => simp [remembered]
  | cons n marks ih =>
      rw [List.cons_append, remembered, ih, remembered, List.map_append, List.prod_append]
      split
      · simp only [List.map_cons, List.map_nil, List.prod_singleton]
        ring
      · ring

theorem count_completed (outcomes : List Bool) :
    (outcomes ++ [true]).count true = outcomes.count true + 1 := by
  rw [List.count_append, List.count_singleton_self]

theorem count_failed (outcomes : List Bool) :
    (outcomes ++ [false]).count true = outcomes.count true := by
  rw [List.count_append, List.count_singleton, if_neg (by decide), Nat.add_zero]

/-- After some reports, the rate stands for what is remembered of the failures. -/
structure Stands (outcomes : List Bool) (rate : ℚ) : Prop where
  failures : (outcomes.count true : ℚ) * (1 - rate) = remembered (failureMarks outcomes 0)
  none_completed : outcomes.count true = 0 → outcomes ≠ [] → rate = 0

variable {outcomes : List Bool}

theorem Stands.completed (h : Stands outcomes rate) : Stands (outcomes ++ [true])
    ((rate * (outcomes.count true : ℤ) + 1) / ((outcomes.count true : ℤ) + 1)) := by
  have hcount := count_completed outcomes
  constructor
  · have hne : ((outcomes.count true : ℚ) + 1) ≠ 0 := by positivity
    rw [failureMarks_true, ← h.failures, hcount]
    push_cast
    field_simp
    ring
  · intro hzero
    omega

theorem Stands.failed (h : Stands outcomes rate) : Stands (outcomes ++ [false])
    (if 0 < (outcomes.count true : ℤ) then
      rate * ((outcomes.count true : ℤ) - 1) / (outcomes.count true : ℤ) else 0) := by
  have hcount := count_failed outcomes
  constructor
  · rw [failureMarks_false, remembered_concat, ← h.failures, hcount, Nat.zero_add]
    by_cases hpos : 0 < outcomes.count true
    · have hne : (outcomes.count true : ℚ) ≠ 0 := by positivity
      rw [if_pos (by exact_mod_cast hpos), if_pos hpos]
      push_cast
      field_simp
      ring
    · have hzero : outcomes.count true = 0 := by omega
      rw [hzero]
      simp
  · intro hzero _
    rw [hcount] at hzero
    exact if_neg (by omega)

/-- A run of reports from a provider that has none. -/
theorem Reported.stands (hreported : Reported p s outcomes t)
    (hfresh : s.rating p = some (some 0, some 1)) :
    ∃ rate, t.rating p = some (some (outcomes.count true : ℤ), some rate) ∧ Stands outcomes rate := by
  induction hreported with
  | start => exact ⟨1, hfresh, by simp [remembered, failureMarks], fun _ hne => absurd rfl hne⟩
  | completed _ config hprovider hfound hnew ih =>
      obtain ⟨rate, hrating, hstands⟩ := ih
      refine ⟨_, ?_, hstands.completed⟩
      rw [rating_completeJob hprovider hfound hnew (by omega) hrating, count_completed]
      rfl
  | failed _ config jobId hprovider hslash ih =>
      obtain ⟨rate, hrating, hstands⟩ := ih
      refine ⟨_, ?_, hstands.failed⟩
      rw [rating_failJob hprovider hslash hrating, count_failed]
  | between _ hsame ih => rwa [hsame]

/-! ### When it is the success rate -/

/-- Completions among all the reports. -/
def share (outcomes : List Bool) : ℚ :=
  outcomes.count true / ((outcomes.count true : ℚ) + outcomes.count false)

/-- What is remembered of the failures is what the share of the failures among as many completions
as there were would be. -/
def Compensated (outcomes : List Bool) : Prop :=
  remembered (failureMarks outcomes 0) =
    outcomes.count true * (outcomes.count false / ((outcomes.count true : ℚ) + outcomes.count false))

theorem Stands.rate_eq_share_iff (h : Stands outcomes rate) (hne : outcomes ≠ []) :
    rate = share outcomes ↔ Compensated outcomes := by
  rw [Compensated, ← h.failures, share]
  by_cases hzero : outcomes.count true = 0
  · have hrate := h.none_completed hzero hne
    simp [hzero, hrate]
  · have hpos : (0 : ℚ) < outcomes.count true := by
      exact_mod_cast Nat.pos_of_ne_zero hzero
    have hnonneg : (0 : ℚ) ≤ outcomes.count false := by positivity
    have htotal : (outcomes.count true : ℚ) + outcomes.count false ≠ 0 := by positivity
    rw [mul_right_inj' hpos.ne', eq_div_iff htotal, eq_div_iff htotal]
    constructor
    · intro heq
      linarith
    · intro heq
      linarith

/-- The rate is the share of the completions exactly where the reports balance. -/
theorem successRate_iff (hfresh : s.rating p = some (some 0, some 1))
    (hreported : Reported p s outcomes t) :
    (outcomes ≠ [] → ∃ row, t.providers.get? p = some row ∧ row.successRate = some (share outcomes)) ↔
      Compensated outcomes := by
  obtain ⟨rate, hrating, hstands⟩ := hreported.stands hfresh
  obtain ⟨row, hrow, hcolumns⟩ := Option.map_eq_some_iff.mp hrating
  obtain ⟨_, hrate⟩ := Prod.mk.inj hcolumns
  constructor
  · intro hshare
    by_cases hempty : outcomes = []
    · rw [hempty]
      simp [Compensated, remembered, failureMarks]
    · obtain ⟨row', hrow', hrate'⟩ := hshare hempty
      rw [hrow, Option.some.injEq] at hrow'
      subst hrow'
      exact (hstands.rate_eq_share_iff hempty).mp (Option.some.inj (hrate.symm.trans hrate'))
  · intro hbalanced hne
    exact ⟨row, hrow, by rw [hrate, (hstands.rate_eq_share_iff hne).mpr hbalanced]⟩

/-! ### One job done, one failed -/

def assignedDb : Db := afterAll assigned Db.init

def doneDb : Db := (Operation.completeJob ⟨none, false⟩ "earn" "a" ⟨"p", 0, "hash", 3600⟩).after assignedDb

def doneAndFailedDb : Db := (Operation.failJob ⟨none, false⟩ "a" ⟨"p", "crash", true⟩).after doneDb

theorem rating_assignedDb : assignedDb.rating "p" = some (some 0, some 1) := by decide +kernel

theorem reported_doneAndFailedDb : Reported "p" assignedDb [true, false] doneAndFailedDb := by
  have hfound : ((assignedDb.jobs.get? "a").filter fun j => j.providerId = some "p").isSome := by
    decide +kernel
  have hnew : assignedDb.transactions.get? "earn" = none := by decide +kernel
  have hdone : Reported "p" assignedDb ([] ++ [true]) doneDb :=
    Reported.start.completed ⟨none, false⟩ rfl hfound hnew
  exact hdone.failed ⟨none, false⟩ "a" rfl rfl

theorem successRate_doneAndFailedDb : assignedDb.rating "p" = some (some 0, some 1) ∧
    Reported "p" assignedDb [true, false] doneAndFailedDb ∧
    (([true, false] ≠ [] → ∃ row, doneAndFailedDb.providers.get? "p" = some row ∧
      row.successRate = some (share [true, false])) ↔ Compensated [true, false]) :=
  ⟨rating_assignedDb, reported_doneAndFailedDb,
    successRate_iff rating_assignedDb reported_doneAndFailedDb⟩

theorem successRate_ne_share : assignedDb.rating "p" = some (some 0, some 1) ∧
    Reported "p" assignedDb [true, false] doneAndFailedDb ∧
    doneAndFailedDb.rating "p" = some (some 1, some 0) ∧ share [true, false] = 1 / 2 ∧
    ¬ ∃ row, doneAndFailedDb.providers.get? "p" = some row ∧
      row.successRate = some (share [true, false]) := by
  have hrating : doneAndFailedDb.rating "p" = some (some 1, some 0) := by decide +kernel
  have hshare : share [true, false] = 1 / 2 := by decide +kernel
  refine ⟨rating_assignedDb, reported_doneAndFailedDb, hrating, hshare, ?_⟩
  rintro ⟨row, hrow, hrate⟩
  rw [Db.rating, hrow, Option.map_some, Option.some.injEq, Prod.mk.injEq, hrate, hshare] at hrating
  exact absurd (Option.some.inj hrating.2) (by norm_num)

/-! ### In every interleaving

`trust_score` is clamped by every statement that moves it; `success_rate` is not, and stays between 0
and 1 because each outcome is averaged over the count of completed jobs, which is never negative. So
the auction never meets a `NULL` or a negative score. -/

/-- The three columns a provider is judged by are there and in their ranges. -/
structure Provider.Rated (p : Provider) : Prop where
  trustScore : ∃ t, p.trustScore = some t ∧ 0 ≤ t ∧ t ≤ 5
  successRate : ∃ r, p.successRate = some r ∧ 0 ≤ r ∧ r ≤ 1
  jobsCompleted : ∃ n, p.jobsCompleted = some n ∧ 0 ≤ n

theorem clampTrust_range (x : Option ℚ) : ∃ t, clampTrust x = some t ∧ 0 ≤ t ∧ t ≤ 5 := by
  refine ⟨_, rfl, le_max_left _ _, max_le (by norm_num) ?_⟩
  cases x with
  | none => exact le_refl _
  | some a => exact min_le_left _ _

/-- One more outcome moves the average of `n` of them inside its range. -/
theorem average_range {r o : ℚ} {n : Int} (hn : 0 < n) (hr : 0 ≤ r ∧ r ≤ 1) (ho : 0 ≤ o ∧ o ≤ 1) :
    0 ≤ (r * (n - 1) + o) / n ∧ (r * (n - 1) + o) / n ≤ 1 := by
  have hone : (1 : ℚ) ≤ n := by exact_mod_cast hn
  have hfactor : (0 : ℚ) ≤ n - 1 := by linarith
  have hweighted : r * (n - 1) ≤ n - 1 := mul_le_of_le_one_left hfactor hr.2
  constructor
  · have hnonneg : 0 ≤ r * (n - 1) := mul_nonneg hr.1 hfactor
    exact div_nonneg (by linarith [ho.1]) (by linarith)
  · rw [div_le_one (by linarith)]
    linarith [ho.2]

namespace Provider.Rated

variable {p : Provider}

theorem registered (caps : Capabilities) : (Provider.registered caps).Rated where
  trustScore := ⟨3, rfl, by norm_num, by norm_num⟩
  successRate := ⟨1, rfl, by norm_num, by norm_num⟩
  jobsCompleted := ⟨0, rfl, le_refl 0⟩

theorem rate_range (h : p.Rated) {outcome : ℚ} (houtcome : 0 ≤ outcome ∧ outcome ≤ 1) :
    ∃ r, p.rate outcome = some r ∧ 0 ≤ r ∧ r ≤ 1 := by
  obtain ⟨r, hr, hrange⟩ := h.successRate
  obtain ⟨n, hn, -⟩ := h.jobsCompleted
  simp only [Provider.rate, hn, hr, Option.map_some]
  split
  · rename_i hpos
    exact ⟨_, rfl, average_range hpos hrange houtcome⟩
  · exact ⟨_, rfl, houtcome⟩

theorem trust (h : p.Rated) (success : Bool) : (p.trust success).Rated where
  trustScore := clampTrust_range _
  successRate := by
    refine h.rate_range ?_
    cases success <;> norm_num
  jobsCompleted := h.jobsCompleted

/-- Whatever a statement writes of `providers`, the row it leaves is rated. -/
theorem edit (h : p.Rated) {now : Time} {k : ProviderId} (w : ProvidersWrite) :
    (w.edit now k p).Rated := by
  cases w with
  | trust providerId success =>
      rw [ProvidersWrite.edit]
      split
      · exact h.trust success
      · exact h
  | penalize providerId =>
      rw [ProvidersWrite.edit]
      split
      · exact { h with trustScore := clampTrust_range _ }
      · exact h
  | freeCompleted providerId =>
      rw [ProvidersWrite.edit]
      split
      · obtain ⟨n, hn, hnonneg⟩ := h.jobsCompleted
        refine { h with jobsCompleted := ⟨n + 1, ?_, by omega⟩ }
        rw [hn, Option.map_some]
      · exact h
  | _ =>
      rw [ProvidersWrite.edit]
      split
      · exact { h with }
      · exact h

/-- A rated provider has a score the auction can compare: its own trust makes up between 0 and 0.4 of
it, and it is never negative. -/
theorem providerScore_nonneg (h : p.Rated) (maxPrice : ℚ) : 0 ≤ providerScore maxPrice p := by
  obtain ⟨t, ht, htrust, -⟩ := h.trustScore
  rw [providerScore, simpleScore, ht, Option.getD_some]
  have hprice : 0 ≤ if 0 < maxPrice then
      1 - min (p.caps.floorPriceNmcPerHour.getD (1 / 10) / maxPrice) 1 else 5 / 10 := by
    split
    · exact sub_nonneg.mpr (min_le_right _ _)
    · norm_num
  positivity

end Provider.Rated

/-- Every provider of the database is rated. -/
def Db.Rated (s : Db) : Prop := ∀ k p, s.providers.get? k = some p → p.Rated

theorem Action.exec_rated {q : Action} {s t : Db} {a : q.Answer} (hrated : s.Rated)
    (hexec : q.exec s = some (a, t)) : t.Rated := by
  intro k p hp
  rcases exec_providers hexec with hsame | ⟨w, -, happly⟩
  · rw [hsame] at hp
    exact hrated k p hp
  · rw [happly] at hp
    cases hold : s.providers.get? k with
    | none =>
        obtain ⟨caps, -, rfl⟩ := w.registered_of_apply hold hp
        exact .registered caps
    | some old =>
        rw [w.get?_apply hold] at hp
        cases hp
        exact (hrated k old hold).edit w

/-- In every database the services can reach, with the statements of their requests in any order and
any of them lost, every provider has a trust score between 0 and 5, a success rate between 0 and 1, a
count of completed jobs that is not negative, and a score that is not negative at any price. -/
theorem reputations_in_range {ops : List Operation} {p : Requests}
    {es : List (Event Action Db Operation)}
    (hrun : (Pool.start Operation.program Db.init ops).Runs Action.exec Db.Shuffled
      (fun _ _ => True) es p) (k : ProviderId) (row : Provider)
    (hrow : p.store.providers.get? k = some row) :
    row.Rated ∧ ∀ maxPrice, 0 ≤ providerScore maxPrice row := by
  have hrated : p.store.Rated := by
    refine hrun.preserves (I := Db.Rated) ?_ ?_ ?_
    · exact fun _ _ _ _ _ _ _ hbefore hexec => Action.exec_rated hbefore hexec
    · intro s t hshuffled hbefore k p hp
      rw [← hshuffled.providers.get?_eq] at hp
      exact hbefore k p hp
    · intro k p hp
      cases hp
  exact ⟨hrated k row hrow, (hrated k row hrow).providerScore_nonneg⟩

/-- A provider that has just been slashed for a failure. -/
theorem reputations_in_range_slashed :
    ∃ (ops : List Operation) (p : Requests) (es : List (Event Action Db Operation))
      (row : Provider),
      (Pool.start Operation.program Db.init ops).Runs Action.exec Db.Shuffled
        (fun _ _ => True) es p ∧
      p.store.providers.get? "provider" = some row ∧ row.trustScore = some (27 / 10) ∧
      row.successRate = some 0 ∧ row.Rated ∧ ∀ maxPrice, 0 ≤ providerScore maxPrice row := by
  let ops : List Operation :=
    [registration "provider", .failJob ⟨none, false⟩ "a" ⟨"provider", "crash", true⟩]
  have hslashed : ((afterAll ops Db.init).providers.get? "provider").map
      (fun row => (row.trustScore, row.successRate)) = some (some (27 / 10), some 0) := by
    decide +kernel
  obtain ⟨row, hrow, hcolumns⟩ := Option.map_eq_some_iff.mp hslashed
  obtain ⟨htrust, hrate⟩ := Prod.mk.inj hcolumns
  obtain ⟨es, returned, hturns⟩ := Pool.runs_in_turn Action.exec Db.Shuffled Operation.program
    Db.init [] [] ops
  have hrun : (Pool.start Operation.program Db.init ops).Runs Action.exec Db.Shuffled
      (fun _ _ => True) es ⟨afterAll ops Db.init, returned ++ []⟩ := hturns.mono fun _ _ _ => trivial
  exact ⟨ops, _, es, row, hrun, hrow, htrust, hrate,
    reputations_in_range hrun "provider" row hrow⟩

end NeuralMesh
