import NeuralMesh.Coordinator.Reports
import NeuralMesh.System.Constraints
import Mathlib.Tactic.Linarith

/-!
# A completion reported twice

Agents retry, so a report can come again, by either path. Neither path looks at the state of the
job, so what a report does never depends on whether it was processed before.
-/

namespace NeuralMesh

open Coordinator Program

/-- The two ways a report can come. -/
inductive ReportPath where
  | rest (internalSecret : Option String) (txId : TxId)
  | grpc (txIds : Int → TxId)

/-- Processing a report, with on-chain settlement on or off. -/
def Coordinator.Report.process (r : Report) (oracleEnabled : Bool) : ReportPath → Operation
  | .rest internalSecret txId => .completeJob ⟨internalSecret, oracleEnabled⟩ txId r.jobId r.body
  | .grpc txIds => .reportCompletion oracleEnabled txIds r.message

/-- The reward of a milestone. -/
def Action.paysMilestone : Action → Bool
  | .ledgerDeposit _ _ _ _ => true
  | _ => false

/-- The columns of a provider that tell its standing. -/
def Provider.standing (p : Provider) : Option Int × Option ℚ × Option ℚ :=
  (p.jobsCompleted, p.trustScore, p.totalGpuHoursContributed)

/-- The operation changes no balance and no provider's standing, pays no milestone and requests no
on-chain release. -/
structure Operation.NoEffect (s : Db) (op : Operation) : Prop where
  balances : ∀ c, (op.after s).creditAccounts.get? c = s.creditAccounts.get? c
  standings : ∀ p, ((op.after s).providers.get? p).map Provider.standing =
    (s.providers.get? p).map Provider.standing
  milestones : ∀ q ∈ op.program.committed Action.exec s, q.paysMilestone = false
  releases : (op.after s).oracleRequests = s.oracleRequests

/-- The milestones of a provider that the total on record has earned and no row has claimed. -/
def unclaimed (s : Db) (p : ProviderId) (row : Provider) : List Int :=
  Grpc.unclaimedMilestones (asI32 (Read.eval s (.milestoneCount p) : Nat))
    (truncI32 (row.totalGpuHoursContributed.getD 0 / 8))

/-- The report has nothing to do in the database it finds. -/
def Coordinator.Report.Idle (r : Report) (oracleEnabled : Bool) (s : Db) : ReportPath → Prop
  | .rest _ _ => ∀ job ∈ s.jobs.get? r.jobId, job.providerId ≠ some r.providerId
  | .grpc _ =>
      r.exitCode ≠ 0 ∨ oracleEnabled = false ∧
        (r.providerId = "" ∨ ∀ row ∈ s.providers.get? r.providerId,
          r.runtime = 0 ∧ unclaimed s r.providerId row = [])

namespace Coordinator.Grpc

variable (txIds : Int → TxId) {jc : JobComplete} {s : Db}

/-- The first unclaimed milestone is paid. -/
theorem issueMilestones_pays {Response : Type} (providerId : ProviderId) (next : Rpc Response)
    {milestones : List Int} (hne : milestones ≠ []) :
    ∃ q ∈ (issueMilestones txIds providerId next milestones).committed Action.exec s,
      q.paysMilestone := by
  cases milestones with
  | nil => exact absurd rfl hne
  | cons milestoneNum rest =>
      let pay : Action := .ledgerDeposit providerId 50
        ("milestone_" ++ toString (wrapI32 (milestoneNum * 8)) ++ "h") (txIds milestoneNum)
      obtain ⟨answer, t, hexec⟩ : ∃ answer t, pay.exec s = some (answer, t) := by
        simp only [pay, Action.exec]
        split <;> exact ⟨_, _, rfl⟩
      refine ⟨pay, ?_, rfl⟩
      rw [issueMilestones, committed_query_of_some _ hexec]
      exact List.mem_cons_self

/-- A reward adds the hours to the provider's total. -/
theorem rewarded_providers :
    (rewarded txIds jc s).providers =
      (ProvidersWrite.apply s (.addHours jc.providerId ((jc.actualRuntimeS.toNat : ℚ) / 3600))).2
    := by
  rw [rewarded, rewardHours, run_query_of_some _ rfl]
  refine (run_sameIn .providers _ ?_).trans rfl
  cases (ProvidersWrite.apply s (.addHours jc.providerId
      ((jc.actualRuntimeS.toNat : ℚ) / 3600))).1 with
  | none => trivial
  | some row =>
      have hissue : ∀ milestones, (issueMilestones txIds jc.providerId (done (.ok ()) : Rpc Unit)
          milestones).Uses fun q => q.touches .providers = false :=
        issueMilestones_uses (fun _ _ _ => rfl) (fun _ _ => rfl) trivial
      exact ⟨rfl, fun _ => hissue _, hissue _⟩

/-- The total on record once the hours of a report are added. -/
def totalAfter (jc : JobComplete) (row : Provider) : ℚ :=
  row.totalGpuHoursContributed.getD 0 + (jc.actualRuntimeS.toNat : ℚ) / 3600

/-- The milestones a report finds to reward. -/
def toReward (jc : JobComplete) (s : Db) (row : Provider) : List Int :=
  unclaimedMilestones (asI32 (Read.eval s (.milestoneCount jc.providerId) : Nat))
    (truncI32 (totalAfter jc row / 8))

/-- The hours are on record, the milestones not yet paid. -/
def counted (jc : JobComplete) (s : Db) : Db :=
  { s with
    providers := (ProvidersWrite.apply s (.addHours jc.providerId
      ((jc.actualRuntimeS.toNat : ℚ) / 3600))).2 }

/-- A provider without a row is not rewarded. -/
theorem rewardHours_of_none (hnone : s.providers.get? jc.providerId = none) :
    rewarded txIds jc s = s ∧
      ∀ q ∈ (rewardHours txIds jc (done (.ok ()) : Rpc Unit)).committed Action.exec s,
        q.paysMilestone = false := by
  have hadd : Action.exec (.providers (.addHours jc.providerId
      ((jc.actualRuntimeS.toNat : ℚ) / 3600))) s = some (none, s) := by
    simp only [Action.exec, ProvidersWrite.apply, Table.update_of_get?_eq_none hnone, hnone]
  constructor
  · rw [rewarded, rewardHours, run_query_of_some _ hadd]
    rfl
  · rw [rewardHours, committed_query_of_some _ hadd]
    intro q hq
    rcases List.mem_cons.mp hq with rfl | hq
    · rfl
    · cases hq

/-- A provider with a row has its hours counted and every milestone it has to be rewarded for
issued. -/
theorem rewardHours_of_some {row : Provider} (hrow : s.providers.get? jc.providerId = some row) :
    rewarded txIds jc s =
        ((issueMilestones txIds jc.providerId (done (.ok ()) : Rpc Unit)
          (toReward jc s row)).run Action.exec (counted jc s)).2 ∧
      (rewardHours txIds jc (done (.ok ()) : Rpc Unit)).committed Action.exec s =
        [.providers (.addHours jc.providerId ((jc.actualRuntimeS.toNat : ℚ) / 3600)),
            .read (.milestoneCount jc.providerId)] ++
          (issueMilestones txIds jc.providerId (done (.ok ()) : Rpc Unit)
            (toReward jc s row)).committed Action.exec (counted jc s) := by
  have hadd : Action.exec (.providers (.addHours jc.providerId
      ((jc.actualRuntimeS.toNat : ℚ) / 3600))) s =
      some (some { row with totalGpuHoursContributed := some (totalAfter jc row) },
        counted jc s) := by
    simp only [Action.exec, ProvidersWrite.apply, counted, totalAfter, Table.get?_update_self, hrow,
      Option.map_some]
  have hread : Action.exec (.read (.milestoneCount jc.providerId)) (counted jc s) =
      some (Read.eval s (.milestoneCount jc.providerId), counted jc s) := rfl
  constructor
  · rw [rewarded, rewardHours, run_query_of_some _ hadd]
    dsimp only
    rw [run_query_of_some _ hread]
    rfl
  · rw [rewardHours, committed_query_of_some _ hadd]
    dsimp only
    rw [committed_query_of_some _ hread]
    rfl

/-- Nothing is paid just where no milestone is unclaimed. -/
theorem rewardHours_pays_iff {row : Provider} (hrow : s.providers.get? jc.providerId = some row) :
    (∀ q ∈ (rewardHours txIds jc (done (.ok ()) : Rpc Unit)).committed Action.exec s,
      q.paysMilestone = false) ↔ toReward jc s row = [] := by
  rw [(rewardHours_of_some txIds hrow).2]
  constructor
  · intro hnone
    by_contra hne
    obtain ⟨q, hq, hpays⟩ := issueMilestones_pays txIds (s := counted jc s) jc.providerId
      (done (.ok ()) : Rpc Unit) hne
    rw [hnone q (List.mem_append_right _ hq)] at hpays
    cases hpays
  · intro hnil q hq
    rw [hnil] at hq
    rcases List.mem_append.mp hq with hq | hq
    · rcases List.mem_pair.mp hq with rfl | rfl <;> rfl
    · cases hq

/-- The database with the report stored. -/
def reported (jc : JobComplete) (s : Db) : Db :=
  { s with
    jobs := s.jobs.update jc.jobId
      (.report s.now jc.jobState jc.outputHash (asI64 jc.actualRuntimeS.toNat)) }

/-- A report pays milestones just where its reward does. -/
theorem reportCompletion_pays_iff (jc : JobComplete) (s : Db) (oracleEnabled : Bool) :
    (∀ q ∈ (reportCompletion oracleEnabled txIds jc).committed Action.exec s,
        q.paysMilestone = false) ↔
      (jc.jobState = .complete ∧ jc.providerId ≠ "" →
        ∀ q ∈ (rewardHours txIds jc (done (.ok ()) : Rpc Unit)).committed Action.exec (reported jc s),
          q.paysMilestone = false) := by
  have hreport : Action.exec (.jobs (.report jc.jobId jc.jobState jc.outputHash
      (asI64 jc.actualRuntimeS.toNat))) s = some ((), reported jc s) := rfl
  have hsettle : ∀ (reply : ℚ → Except Status JobCompleteAck) t, ∀ q ∈ (calculateCredits jc.jobId
      fun credits => if jc.jobState = .complete ∧ oracleEnabled then
        attempt (.oracle (.releaseEscrow jc.jobId credits)) (done (reply credits))
      else done (reply credits)).committed Action.exec t, q.paysMilestone = false :=
    fun reply t => (settle_uses (P := fun q => q.paysMilestone = false) rfl fun _ => rfl).committed
      Action.exec t
  rw [reportCompletion, committed_query_of_some _ hreport]
  constructor
  · intro hnone hrewards q hq
    apply hnone q
    rw [if_pos hrewards, rewardHours_bind, committed_bind]
    exact List.mem_cons_of_mem _ (List.mem_append_left _ hq)
  · intro hrewards q hq
    rcases List.mem_cons.mp hq with rfl | hq
    · rfl
    · split at hq
      · rename_i hcomplete
        rw [rewardHours_bind, committed_bind] at hq
        rcases List.mem_append.mp hq with hq | hq
        · exact hrewards hcomplete q hq
        · exact hsettle _ _ q hq
      · exact hsettle _ _ q hq

end Coordinator.Grpc

namespace Coordinator.Report

variable {r : Report} {s : Db} {oracleEnabled : Bool}

/-- A provider reports its own job: one more is completed. -/
theorem completeJob_counts (config : Config) (txId : TxId) {job : Job}
    (hjob : (s.jobs.get? r.jobId).filter (fun j => j.providerId = some r.body.providerId) =
      some job) {row : Provider} (hrow : s.providers.get? r.providerId = some row) :
    ∃ row', ((Coordinator.completeJob config txId r.jobId r.body).run Action.exec s).2.providers.get?
        r.providerId = some row' ∧
      row'.jobsCompleted = row.jobsCompleted.map (· + 1) := by
  rw [completeJob_run_some config txId hjob]
  have hpaid : (paidFor s r.jobId r.body job).providers.get? r.providerId =
      some { row.free with jobsCompleted := row.jobsCompleted.map (· + 1) } := by
    show (s.providers.update r.providerId _).get? r.providerId = _
    rw [Table.get?_update_self, hrow, Option.map_some]
  split
  · exact ⟨_, hpaid, rfl⟩
  · refine ⟨Provider.trust true { row.free with jobsCompleted := row.jobsCompleted.map (· + 1) },
      ?_, rfl⟩
    show ((paidFor s r.jobId r.body job).providers.update r.providerId _).get? r.providerId = _
    rw [Table.get?_update_self, hpaid, Option.map_some]

theorem rest_noEffect_iff (hs : s.Consistent) (internalSecret : Option String) (txId : TxId) :
    Operation.NoEffect s (r.process oracleEnabled (.rest internalSecret txId)) ↔
      r.Idle oracleEnabled s (.rest internalSecret txId) := by
  cases hjob : (s.jobs.get? r.jobId).filter fun j => j.providerId = some r.body.providerId with
  | none =>
      have hidle : r.Idle oracleEnabled s (.rest internalSecret txId) := by
        intro job hget hprovider
        have howner : job.providerId = some r.body.providerId := hprovider
        rw [Option.mem_def.mp hget, Option.filter_some, if_pos (decide_eq_true howner)] at hjob
        cases hjob
      have hsame : (r.process oracleEnabled (.rest internalSecret txId)).after s = s := by
        rw [Operation.after, process, Operation.program, run_forget, completeJob_run_none hjob]
      have hread : Action.exec (.read (.jobOfProvider r.jobId r.body.providerId)) s =
          some (none, s) := by
        simp only [Action.exec, Read.eval, hjob]
      refine iff_of_true ⟨?_, ?_, ?_, ?_⟩ hidle
      · rw [hsame]
        exact fun _ => rfl
      · rw [hsame]
        exact fun _ => rfl
      · intro q hq
        rw [process, Operation.program, committed_forget, Coordinator.completeJob,
          committed_query_of_some _ hread] at hq
        rcases List.mem_cons.mp hq with rfl | hq
        · rfl
        · cases hq
      · rw [hsame]
  | some job =>
      obtain ⟨hget, howner⟩ := Option.filter_eq_some_iff.mp hjob
      have hprovider : job.providerId = some r.providerId := of_decide_eq_true howner
      refine iff_of_false ?_ fun hidle => hidle job hget hprovider
      intro hnone
      obtain ⟨row, hrow⟩ := Option.isSome_iff_exists.mp (hs.provider _ _ hget _ hprovider)
      obtain ⟨n, hn⟩ := Option.isSome_iff_exists.mp (hs.counters _ _ hrow).1
      obtain ⟨row', hrow', hcounts⟩ := completeJob_counts ⟨internalSecret, oracleEnabled⟩ txId hjob
        hrow
      have hstanding := hnone.standings r.providerId
      rw [Operation.after, process, Operation.program, run_forget, hrow', hrow, Option.map_some,
        Option.map_some, Option.some.injEq] at hstanding
      have hcompleted : row'.jobsCompleted = row.jobsCompleted := congrArg Prod.fst hstanding
      rw [hcounts, hn, Option.map_some, Option.some.injEq] at hcompleted
      omega

theorem complete_iff : r.message.jobState = .complete ↔ r.exitCode = 0 := by
  show (if r.exitCode = 0 then JobState.complete else JobState.failed) = .complete ↔ r.exitCode = 0
  split
  · rename_i hzero
    exact iff_of_true rfl hzero
  · rename_i hfailed
    exact iff_of_false (by decide) hfailed

/-- What a report over gRPC leaves when nothing is asked of the oracle. -/
theorem grpc_after (hquiet : r.exitCode ≠ 0 ∨ oracleEnabled = false) (txIds : Int → TxId) :
    (r.process oracleEnabled (.grpc txIds)).after s =
      if r.exitCode = 0 ∧ r.providerId ≠ "" then
        Grpc.rewarded txIds r.message (Grpc.reported r.message s)
      else Grpc.reported r.message s := by
  rw [Operation.after, process, Operation.program, run_forget, Grpc.reportCompletion_run]
  have hoff : ¬ (r.message.jobState = .complete ∧ oracleEnabled = true) := by
    rintro ⟨hcomplete, hon⟩
    rcases hquiet with hexit | hoff
    · exact hexit (complete_iff.mp hcomplete)
    · rw [hoff] at hon
      cases hon
  rw [if_neg hoff]
  simp only [complete_iff, Grpc.reported]
  rfl

/-- A provider whose hours stay the same has nothing new to be rewarded for. -/
theorem toReward_eq_unclaimed (hzero : r.runtime = 0) (row : Provider) :
    Grpc.toReward r.message (Grpc.reported r.message s) row = unclaimed s r.providerId row := by
  have htotal : Grpc.totalAfter r.message row = row.totalGpuHoursContributed.getD 0 := by
    simp only [Grpc.totalAfter, message, hzero]
    norm_num
  rw [Grpc.toReward, htotal]
  rfl

/-- No hours leave every standing as it was. -/
theorem counted_standing (hs : s.Consistent) (hzero : r.runtime = 0) (p : ProviderId) :
    ((Grpc.counted r.message (Grpc.reported r.message s)).providers.get? p).map Provider.standing =
      (s.providers.get? p).map Provider.standing := by
  show ((s.providers.update r.providerId _).get? p).map Provider.standing = _
  rw [Table.get?_update]
  split
  · rename_i heq
    rw [heq]
    cases hrow : s.providers.get? r.providerId with
    | none => rfl
    | some row =>
        obtain ⟨total, htotal⟩ := Option.isSome_iff_exists.mp (hs.counters _ row hrow).2
        have hhours : total + ((UInt64.ofNat 0).toNat : ℚ) / 3600 = total := by norm_num
        simp only [Option.map_some, Provider.standing, message, hzero, htotal, Option.getD_some,
          hhours]
  · rfl

theorem grpc_noEffect_of_idle (hs : s.Consistent) {txIds : Int → TxId}
    (hidle : r.Idle oracleEnabled s (.grpc txIds)) :
    Operation.NoEffect s (r.process oracleEnabled (.grpc txIds)) := by
  have hafter := grpc_after (s := s) (hidle.imp_right And.left) txIds
  have hpays := Grpc.reportCompletion_pays_iff txIds r.message s oracleEnabled
  rw [← committed_forget] at hpays
  by_cases hrewards : r.exitCode = 0 ∧ r.providerId ≠ ""
  · rw [if_pos hrewards] at hafter
    obtain ⟨-, hempty | hrow⟩ := hidle.resolve_left (not_not_intro hrewards.1)
    · exact absurd hempty hrewards.2
    cases hget : s.providers.get? r.providerId with
    | none =>
        obtain ⟨hsame, hnone⟩ := Grpc.rewardHours_of_none txIds
          (show (Grpc.reported r.message s).providers.get? r.message.providerId = none from hget)
        rw [hsame] at hafter
        refine ⟨?_, ?_, hpays.mpr fun _ => hnone, ?_⟩
        · rw [hafter]
          exact fun _ => rfl
        · rw [hafter]
          exact fun _ => rfl
        · rw [hafter]
          rfl
    | some row =>
        obtain ⟨hzero, hnil⟩ := hrow row hget
        rw [← toReward_eq_unclaimed hzero] at hnil
        obtain ⟨hrun, -⟩ := Grpc.rewardHours_of_some txIds
          (show (Grpc.reported r.message s).providers.get? r.message.providerId = some row from hget)
        rw [hnil] at hrun
        rw [hrun] at hafter
        refine ⟨?_, ?_, hpays.mpr fun _ => (Grpc.rewardHours_pays_iff txIds hget).mpr hnil, ?_⟩
        · rw [hafter]
          exact fun _ => rfl
        · intro p
          rw [hafter]
          exact counted_standing hs hzero p
        · rw [hafter]
          rfl
  · rw [if_neg hrewards] at hafter
    refine ⟨?_, ?_, hpays.mpr fun hcomplete => ?_, ?_⟩
    · rw [hafter]
      exact fun _ => rfl
    · rw [hafter]
      exact fun _ => rfl
    · exact absurd ⟨complete_iff.mp hcomplete.1, hcomplete.2⟩ hrewards
    · rw [hafter]
      rfl

/-- With the oracle on, a completed job is released once more. -/
theorem grpc_releases (txIds : Int → TxId) (hexit : r.exitCode = 0) (hon : oracleEnabled = true) :
    ((r.process oracleEnabled (.grpc txIds)).after s).oracleRequests ≠ s.oracleRequests := by
  rw [Operation.after, process, Operation.program, run_forget, Grpc.reportCompletion_run,
    if_pos ⟨complete_iff.mpr hexit, hon⟩]
  generalize hsettled : (if r.message.jobState = .complete ∧ r.message.providerId ≠ "" then
    Grpc.rewarded txIds r.message _ else _) = settled
  have hsame : settled.oracleRequests = s.oracleRequests := by
    rw [← hsettled]
    split
    · exact Grpc.rewarded_sameIn .oracle txIds r.message (Grpc.reported r.message s)
        (by decide)
    · rfl
  show settled.oracleRequests ++ [_] ≠ s.oracleRequests
  rw [hsame, Ne, List.append_right_eq_self]
  exact List.cons_ne_nil _ _

theorem idle_of_grpc_noEffect (hs : s.Consistent) {txIds : Int → TxId}
    (hnone : Operation.NoEffect s (r.process oracleEnabled (.grpc txIds))) :
    r.Idle oracleEnabled s (.grpc txIds) := by
  by_cases hexit : r.exitCode = 0
  · right
    have hoff : oracleEnabled = false := by
      by_contra hon
      exact grpc_releases txIds hexit (Bool.not_eq_false _ ▸ hon) hnone.releases
    refine ⟨hoff, ?_⟩
    by_cases hempty : r.providerId = ""
    · exact .inl hempty
    right
    intro row hrow
    have hafter := grpc_after (r := r) (s := s) (.inr hoff) txIds
    rw [if_pos ⟨hexit, hempty⟩] at hafter
    -- the hours count, unless there are none
    have hzero : r.runtime = 0 := by
      have hstanding := hnone.standings r.providerId
      obtain ⟨total, htotal⟩ := Option.isSome_iff_exists.mp (hs.counters _ row hrow).2
      have hrow' : (Grpc.reported r.message s).providers.get? r.providerId = some row := hrow
      rw [hafter, Grpc.rewarded_providers, ProvidersWrite.get?_apply _ hrow',
        Option.mem_def.mp hrow] at hstanding
      have hhours : some (total + ((r.runtime : ℚ) / 3600)) = some total := by
        have hcolumns := congrArg (fun x => x.2.2) (Option.some.inj hstanding)
        simp only [Provider.standing, ProvidersWrite.edit, message, if_true, htotal,
          Option.getD_some, r.toNat_runtime] at hcolumns
        exact hcolumns
      have hruntime : (r.runtime : ℚ) = 0 := by
        have hadd := Option.some.inj hhours
        linarith
      exact_mod_cast hruntime
    refine ⟨hzero, ?_⟩
    have hpays := (Grpc.reportCompletion_pays_iff txIds r.message s oracleEnabled).mp (by
        rw [← committed_forget]
        exact hnone.milestones) ⟨complete_iff.mpr hexit, hempty⟩
    rw [← toReward_eq_unclaimed hzero]
    exact (Grpc.rewardHours_pays_iff txIds hrow).mp hpays
  · exact .inl hexit

end Coordinator.Report

/-- A report that was processed before, at any time, has no effect just where it finds nothing to do:
by REST no job of its provider, by gRPC a failed job, or the oracle off and no hours to count. -/
theorem report_twice_iff {s t : Db} (hreach : Reachable s) (r : Report) (oracleEnabled : Bool)
    (first second : ReportPath)
    (hrun : Run (fun _ _ => True) ((r.process oracleEnabled first).after s) t) :
    Operation.NoEffect t (r.process oracleEnabled second) ↔ r.Idle oracleEnabled t second := by
  have hreach' : Reachable t := (Relation.ReflTransGen.tail hreach (.operation trivial)).trans hrun
  have ht := hreach'.consistent
  cases second with
  | rest internalSecret txId => exact Report.rest_noEffect_iff ht internalSecret txId
  | grpc txIds =>
      exact ⟨Report.idle_of_grpc_noEffect ht, Report.grpc_noEffect_of_idle ht⟩

/-- The agent posts its completion, hears nothing and posts it again: the provider is paid twice. -/
theorem report_twice_pays :
    ∃ (s : Db) (r : Report) (oracleEnabled : Bool) (first second : ReportPath), Reachable s ∧
      ¬ Operation.NoEffect ((r.process oracleEnabled first).after s)
        (r.process oracleEnabled second) := by
  have hreach : Reachable (afterAll assigned Db.init) :=
    Run.afterAll ⟨trivial, trivial, trivial, trivial, trivial, trivial⟩
  refine ⟨_, hourReport, false, .rest none "earn", .rest none "earn again", hreach, fun hnone => ?_⟩
  have hbalances := congrArg (fun x => x.map CreditAccount.availableNmc) (hnone.balances "p")
  have honce : ((((hourReport.process false (.rest none "earn")).after
      (afterAll assigned Db.init)).creditAccounts.get? "p").map CreditAccount.availableNmc) =
      some (some (23 / 5)) := by decide +kernel
  have htwice : ((((hourReport.process false (.rest none "earn again")).after
      ((hourReport.process false (.rest none "earn")).after
        (afterAll assigned Db.init))).creditAccounts.get? "p").map CreditAccount.availableNmc) =
      some (some (46 / 5)) := by decide +kernel
  rw [htwice, honce] at hbalances
  exact absurd hbalances (by decide +kernel)

/-- A report of a failed job that comes by REST and then by gRPC. -/
theorem report_twice_iff_failed :
    let r : Report := ⟨"a", "p", 1, "hash", 3600, by decide⟩
    let s := afterAll assigned Db.init
    Operation.NoEffect ((r.process true (.rest none "earn")).after s)
        (r.process true (.grpc fun _ => "reward")) ↔
      r.Idle true ((r.process true (.rest none "earn")).after s) (.grpc fun _ => "reward") := by
  intro r s
  have hreach : Reachable s := Run.afterAll ⟨trivial, trivial, trivial, trivial, trivial, trivial⟩
  exact report_twice_iff hreach r true (.rest none "earn") (.grpc fun _ => "reward") .refl

end NeuralMesh
