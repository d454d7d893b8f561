import NeuralMesh.Coordinator.Reports
import NeuralMesh.System.Operation
import Mathlib.Tactic.Linarith

/-!
# What the chain is asked to settle

Both completion paths forward an amount to the ledger, which hands it to `Escrow.releaseEscrow`. The
contract takes its fee from that amount. `complete_job` forwards the gross cost; `calculate_credits`
has taken the fee already.
-/

namespace NeuralMesh

open Coordinator Program

/-- The on-chain requests sent between two databases. -/
def requested (s t : Db) : List OracleRequest := t.oracleRequests.drop s.oracleRequests.length

/-- What `Escrow.releaseEscrow` leaves the provider of an amount, at its fee of 800 basis points. -/
def netOnChain (amount : ℚ) : ℚ := amount - amount * 800 / 10000

namespace Coordinator.Report

variable (r : Report)

def completeJob (config : Config) (txId : TxId) (s : Db) : Db :=
  ((Coordinator.completeJob config txId r.jobId r.body).run Action.exec s).2

def reportCompletion (oracleEnabled : Bool) (txIds : Int → TxId) (s : Db) : Db :=
  ((Grpc.reportCompletion oracleEnabled txIds r.message).run Action.exec s).2

/-- Both paths ask for the gross cost, so the provider nets it less one fee. -/
def AskAlike (secret : Option String) (txId : TxId) (txIds : Int → TxId) (s : Db) (job : Job) :
    Prop :=
  ∃ amount,
    requested s (r.reportCompletion true txIds s) = [.releaseEscrow r.jobId amount] ∧
    requested s (r.completeJob ⟨secret, true⟩ txId s) = [.releaseEscrow r.jobId amount] ∧
    amount = grossNmc job r.body ∧
    netOnChain amount = grossNmc job r.body * (1 - platformFee)

theorem reportCompletion_requested {s : Db} {job : Job} (hjob : s.jobs.get? r.jobId = some job)
    (hexit : r.exitCode = 0) (txIds : Int → TxId) :
    requested s (r.reportCompletion true txIds s) =
      [.releaseEscrow r.jobId
        (job.pricePerHour.getD 0 * ((r.runtime : ℚ) / 3600) * (1 - 8 / 100))] := by
  have hcomplete : r.message.jobState = .complete := if_pos hexit
  have hrun := Grpc.reportCompletion_run true txIds r.message s
  simp only [hcomplete, true_and, if_true] at hrun
  rw [reportCompletion, hrun, requested]
  generalize hreported : ({ s with jobs := s.jobs.update r.message.jobId (.report s.now .complete
    r.message.outputHash (asI64 r.message.actualRuntimeS.toNat)) } : Db) = reported
  generalize hsettled : (if r.message.providerId ≠ "" then
    Grpc.rewarded txIds r.message reported else reported) = settled
  have hsame : ∀ part ∈ [Part.escrows, .jobs, .oracle], reported.SameIn part settled := by
    intro part hpart
    rw [← hsettled]
    split
    · exact Grpc.rewarded_sameIn part _ _ _ hpart
    · exact .refl _ _
  have hjobs : settled.jobs = reported.jobs := hsame .jobs (by decide)
  have horacle : settled.oracleRequests = reported.oracleRequests := hsame .oracle (by decide)
  have hrow : settled.jobs.get? r.jobId =
      some (job.report s.now .complete r.outputHash r.runtime) := by
    rw [hjobs, ← hreported]
    show (s.jobs.update r.jobId _).get? r.jobId = _
    rw [Table.get?_update_self, hjob]
    simp only [message, r.asI64_runtime, Option.map_some]
  dsimp only
  rw [horacle, ← hreported, List.drop_left]
  show [OracleRequest.releaseEscrow r.jobId (Grpc.creditsOf (settled.jobs.get? r.jobId))] = _
  rw [hrow]
  simp only [Grpc.creditsOf, Job.report, Option.getD_some, Int.cast_natCast]
  ring_nf

theorem completeJob_requested {s : Db} {job : Job} (hjob : s.jobs.get? r.jobId = some job)
    (secret : Option String) {txId : TxId} (hnew : s.transactions.get? txId = none) :
    requested s (r.completeJob ⟨secret, true⟩ txId s) =
      if job.providerId = some r.providerId then
        [.releaseEscrow r.jobId (grossNmc job r.body)]
      else [] := by
  split
  · rename_i hprovider
    have hfound : (s.jobs.get? r.jobId).filter (fun j => j.providerId = some r.body.providerId) =
        some job := by
      have howner : job.providerId = some r.body.providerId := hprovider
      rw [hjob, Option.filter_some, if_pos (decide_eq_true howner)]
    obtain ⟨transactions, hinsert⟩ : ∃ transactions,
        (earned r.jobId r.body (grossNmc job r.body * (1 - platformFee))).insert
          (paidFor s r.jobId r.body job) txId = some transactions := by
      rw [NewTransaction.insert, ← Option.ne_none_iff_exists', Ne, Table.insert?_eq_none_iff]
      exact not_not_intro hnew
    have hrun := completeJob_run_some ⟨secret, true⟩ txId hfound
    dsimp only at hrun
    rw [hinsert] at hrun
    rw [completeJob, hrun, requested]
    exact List.drop_left
  · rename_i hprovider
    have hnone : (s.jobs.get? r.jobId).filter (fun j => j.providerId = some r.body.providerId) =
        none := by
      have hother : ¬ job.providerId = some r.body.providerId := hprovider
      rw [hjob, Option.filter_some, if_neg (by simpa using hother)]
    rw [completeJob, completeJob_run_none hnone, requested, List.drop_length]

/-- A fee taken twice is the fee taken once only of nothing; a job without a price costs 0 on one
path and 0.05 an hour on the other. -/
theorem credits_eq_gross_iff (job : Job) :
    job.pricePerHour.getD 0 * ((r.runtime : ℚ) / 3600) * (1 - 8 / 100) = grossNmc job r.body ↔
      grossNmc job r.body = 0 := by
  have hgross : grossNmc job r.body =
      job.pricePerHour.getD (5 / 100) * ((r.runtime : ℚ) / 3600) := by
    simp only [grossNmc, body, Int.cast_natCast]
  rw [hgross]
  cases job.pricePerHour with
  | none =>
      simp only [Option.getD_none, zero_mul]
      exact eq_comm
  | some v =>
      simp only [Option.getD_some]
      constructor
      · intro hsame
        linarith
      · intro hzero
        rw [hzero, zero_mul]

/-- The two paths ask for the same amount just where the report names the job's provider and the
job cost nothing. -/
theorem askAlike_iff {s : Db} {job : Job} (hjob : s.jobs.get? r.jobId = some job)
    (hexit : r.exitCode = 0) (secret : Option String) {txId : TxId}
    (hnew : s.transactions.get? txId = none) (txIds : Int → TxId) :
    r.AskAlike secret txId txIds s job ↔
      job.providerId = some r.providerId ∧ grossNmc job r.body = 0 := by
  rw [AskAlike, r.reportCompletion_requested hjob hexit, r.completeJob_requested hjob secret hnew,
    ← r.credits_eq_gross_iff job]
  constructor
  · rintro ⟨amount, hgrpc, hrest, hgross, -⟩
    have hcredits := (OracleRequest.releaseEscrow.inj (List.cons.inj hgrpc).1).2
    split at hrest
    · rename_i hprovider
      exact ⟨hprovider, hcredits.trans hgross⟩
    · cases hrest
  · rintro ⟨hprovider, hcredits⟩
    refine ⟨grossNmc job r.body, ?_, ?_, rfl, ?_⟩
    · rw [hcredits]
    · rw [if_pos hprovider]
    · rw [netOnChain, platformFee]
      ring

end Coordinator.Report

/-! ### A job of 5 NMC -/

/-- REST asks for 5, gRPC for 4.6. -/
theorem not_askAlike :
    ∃ (s : Db) (job : Job), Reachable s ∧ s.jobs.get? hourReport.jobId = some job ∧
      hourReport.exitCode = 0 ∧ s.transactions.get? "earn" = none ∧
      ¬ hourReport.AskAlike none "earn" (fun _ => "reward") s job := by
  have hreach : Reachable (afterAll assigned Db.init) :=
    Run.afterAll ⟨trivial, trivial, trivial, trivial, trivial, trivial⟩
  have hjobs : ((afterAll assigned Db.init).jobs.get? "a").map
      (fun job => (job.providerId, job.pricePerHour)) = some (some "p", some 5) := by
    decide +kernel
  have hnew : ((afterAll assigned Db.init).transactions.get? "earn").isNone := by decide +kernel
  generalize afterAll assigned Db.init = s at *
  obtain ⟨job, hjob, hcolumns⟩ := Option.map_eq_some_iff.mp hjobs
  obtain ⟨hprovider, hprice⟩ := Prod.mk.inj hcolumns
  refine ⟨s, job, hreach, hjob, rfl, Option.isNone_iff_eq_none.mp hnew, ?_⟩
  rintro ⟨amount, hgrpc, -, hgross, -⟩
  rw [hourReport.reportCompletion_requested hjob rfl, hprice] at hgrpc
  have hcredits := (OracleRequest.releaseEscrow.inj (List.cons.inj hgrpc).1).2
  rw [hgross, grossNmc, hprice] at hcredits
  norm_num [hourReport, Report.body] at hcredits

/-- A job reported after no time asks for nothing on either path. -/
theorem askAlike_iff_instant :
    ∃ (s : Db) (job : Job), Reachable s ∧
      ((⟨"a", "p", 0, "hash", 0, by decide⟩ : Report).AskAlike none "earn" (fun _ => "reward") s job
        ↔ job.providerId = some "p" ∧
          grossNmc job (⟨"a", "p", 0, "hash", 0, by decide⟩ : Report).body = 0) := by
  have hreach : Reachable (afterAll assigned Db.init) :=
    Run.afterAll ⟨trivial, trivial, trivial, trivial, trivial, trivial⟩
  have hjobs : ((afterAll assigned Db.init).jobs.get? "a").isSome := by decide +kernel
  have hnew : ((afterAll assigned Db.init).transactions.get? "earn").isNone := by decide +kernel
  generalize afterAll assigned Db.init = s at *
  obtain ⟨job, hjob⟩ := Option.isSome_iff_exists.mp hjobs
  exact ⟨s, job, hreach, Report.askAlike_iff _ hjob rfl none (Option.isNone_iff_eq_none.mp hnew) _⟩

end NeuralMesh
