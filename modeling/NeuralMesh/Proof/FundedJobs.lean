import NeuralMesh.Proof.LedgerBalance
import NeuralMesh.System.Constraints
import NeuralMesh.System.Statements

/-!
# Every runnable job is funded

A job that is queued, assigned or running has exactly one locked escrow row, and the row covers the
most the job may cost. `KeepsFunded` is what an operation must find for that: a submission over gRPC
never does, nor does one over REST at no cost.
-/

namespace NeuralMesh

open Coordinator Program

/-- `max_price_per_hour * max_duration_s / 3600` -/
def JobSpec.maxCost (spec : JobSpec) : Option ℚ :=
  spec.maxPricePerHour.bind fun price => spec.maxDurationS.map fun secs => price * (secs / 3600)

/-- The row is in state `locked` and names the job. -/
def Escrow.LockedFor (e : Escrow) (jobId : JobId) : Prop := e.jobId = jobId ∧ e.state = .locked

/-- One locked row of the job, and no other, and it covers a cost that is not nothing. -/
def FundedBy (escrows : Table EscrowId Escrow) (jobId : JobId) (spec : JobSpec) : Prop :=
  ∃ cost ∈ spec.maxCost, 0 < cost ∧
    ∃ escrowId, ∃ e ∈ escrows.get? escrowId, e.LockedFor jobId ∧ cost ≤ e.lockedNmc ∧
      ∀ id, ∀ e' ∈ escrows.get? id, e'.LockedFor jobId → id = escrowId

/-- Every job that is not final is funded. -/
def Books.AllFunded (b : Books) : Prop :=
  ∀ k, ∀ job ∈ b.jobs.get? k, job.state.isTerminal = false → FundedBy b.escrows k job.spec

/-- What the operation must find to leave every runnable job funded. -/
def Operation.KeepsFunded (s : Db) : Operation → Prop
  | submitJob ids body =>
      body.maxCost ≤ availableOrZero s.creditAccounts body.accountId →
        s.jobs.get? ids.jobId = none → 0 < body.maxCost ∧ s.escrows.get? ids.escrowId = none
  | grpcSubmitJob jobId req => req.requirements.isSome → (s.jobs.get? jobId).isSome
  -- a final job that is brought back still has its lock
  | jobHeartbeat jobId body =>
      ∀ job ∈ s.jobs.get? jobId, job.providerId = some body.providerId → job.state.isTerminal →
        FundedBy s.escrows jobId job.spec
  | acknowledgeJob ja =>
      ∀ job ∈ s.jobs.get? ja.jobId, job.state.isTerminal → FundedBy s.escrows ja.jobId job.spec
  | lockEscrow escrowId body =>
      (∃ a ∈ s.creditAccounts.get? body.consumerId, a.covers body.amountNmc) →
        s.escrows.get? escrowId = none → ∀ job ∈ s.jobs.get? body.jobId, job.state.isTerminal
  | releaseEscrow body =>
      ∀ e ∈ s.escrows.get? body.escrowId, e.state = .locked →
        ∀ job ∈ s.jobs.get? e.jobId, job.state.isTerminal
  | _ => True

/-! ### Locks of one job -/

section Locks

variable {escrows escrows' : Table EscrowId Escrow} {jobId : JobId} {spec : JobSpec}

/-- Only the locked rows of the job matter. -/
theorem FundedBy.congr (hfunded : FundedBy escrows jobId spec)
    (hkept : ∀ id, ∀ e ∈ escrows.get? id, e.LockedFor jobId → e ∈ escrows'.get? id)
    (hold : ∀ id, ∀ e ∈ escrows'.get? id, e.LockedFor jobId → e ∈ escrows.get? id) :
    FundedBy escrows' jobId spec := by
  obtain ⟨cost, hcost, hpositive, id, e, he, hlocked, hcovers, hsingle⟩ := hfunded
  refine ⟨cost, hcost, hpositive, id, e, hkept id e he hlocked, hlocked, hcovers, ?_⟩
  intro id' e' he' hlocked'
  exact hsingle id' e' (hold id' e' he' hlocked') hlocked'

/-- Releasing rows of other jobs. -/
theorem FundedBy.releaseWhere (hfunded : FundedBy escrows jobId spec)
    {p : EscrowId → Escrow → Bool}
    (hother : ∀ id, ∀ e ∈ escrows.get? id, p id e → e.jobId ≠ jobId) :
    FundedBy (escrows.updateWhere p .release) jobId spec := by
  apply hfunded.congr
  · intro id e he hlocked
    rw [Option.mem_def, Table.get?_updateWhere, Option.mem_def.mp he, Option.map_some, if_neg]
    intro hp
    exact hother id e he hp hlocked.1
  · intro id e' he' hlocked
    rw [Option.mem_def, Table.get?_updateWhere] at he'
    obtain ⟨e, he, heq⟩ := Option.map_eq_some_iff.mp he'
    split at heq
    · rw [← heq] at hlocked
      cases hlocked.2
    · rw [← heq]
      exact he

/-- Locking for another job. -/
theorem FundedBy.insert (hfunded : FundedBy escrows jobId spec) {escrowId : EscrowId} {e : Escrow}
    (hinsert : escrows.insert? escrowId e = some escrows') (hother : e.jobId ≠ jobId) :
    FundedBy escrows' jobId spec := by
  apply hfunded.congr
  · intro id r hr _
    rw [Option.mem_def, Table.get?_of_insert? hinsert, if_neg]
    · exact hr
    · rintro rfl
      rw [(Table.rows_of_insert? hinsert).1] at hr
      cases hr
  · intro id r hr hlocked
    rcases Table.get?_insert?_cases hinsert hr with ⟨-, rfl⟩ | ⟨-, hold⟩
    · exact absurd hlocked.1 hother
    · exact hold

end Locks

/-! ### The books -/

namespace Books.AllFunded

variable {b : Books}

/-- The jobs move on: each that is not final was there with the same terms, and not final or funded
all the same. -/
theorem move (hb : b.AllFunded) {jobs : Table JobId Job} (accounts : Table AccountId CreditAccount)
    (hmoved : ∀ k, ∀ job' ∈ jobs.get? k, job'.state.isTerminal = false →
      ∃ job ∈ b.jobs.get? k, job'.spec = job.spec ∧
        (job.state.isTerminal → FundedBy b.escrows k job.spec)) :
    Books.AllFunded ⟨accounts, b.escrows, jobs⟩ := by
  intro k job' hjob' hlive
  obtain ⟨job, hjob, hspec, hfinal⟩ := hmoved k job' hjob' hlive
  rw [hspec]
  cases hstate : job.state.isTerminal with
  | true => exact hfinal hstate
  | false => exact hb k job hjob hstate

/-- One job moves on without coming back. -/
theorem updateJob (hb : b.AllFunded) (accounts : Table AccountId CreditAccount) {jobId : JobId}
    {f : Job → Job} (hspec : ∀ job, (f job).spec = job.spec)
    (hfinal : ∀ job ∈ b.jobs.get? jobId, job.state.isTerminal → (f job).state.isTerminal) :
    Books.AllFunded ⟨accounts, b.escrows, b.jobs.update jobId f⟩ := by
  apply hb.move
  intro k job' hjob' hlive
  rcases Table.get?_update_cases hjob' with ⟨job, rfl, hjob, rfl⟩ | ⟨-, hold⟩
  · refine ⟨job, hjob, hspec job, fun hterminal => ?_⟩
    rw [hfinal job hjob hterminal] at hlive
    cases hlive
  · refine ⟨job', hold, rfl, fun hterminal => ?_⟩
    rw [hterminal] at hlive
    cases hlive

/-- Rows of final jobs are released. -/
theorem releaseWhere (hb : b.AllFunded) (accounts : Table AccountId CreditAccount)
    {p : EscrowId → Escrow → Bool}
    (hfinal : ∀ id, ∀ e ∈ b.escrows.get? id, p id e →
      ∀ job ∈ b.jobs.get? e.jobId, job.state.isTerminal) :
    Books.AllFunded ⟨accounts, b.escrows.updateWhere p .release, b.jobs⟩ := by
  intro k job hjob hlive
  refine (hb k job hjob hlive).releaseWhere fun id e he hp heq => ?_
  have hterminal := hfinal id e he hp job (heq ▸ hjob)
  rw [hlive] at hterminal
  cases hterminal

/-- A final job is locked for. -/
theorem lock (hb : b.AllFunded) (accounts : Table AccountId CreditAccount) {escrowId : EscrowId}
    {e : Escrow} {escrows : Table EscrowId Escrow}
    (hinsert : b.escrows.insert? escrowId e = some escrows)
    (hfinal : ∀ job ∈ b.jobs.get? e.jobId, job.state.isTerminal) :
    Books.AllFunded ⟨accounts, escrows, b.jobs⟩ := by
  intro k job hjob hlive
  refine (hb k job hjob hlive).insert hinsert fun heq => ?_
  have hterminal := hfinal job (heq ▸ hjob)
  rw [hlive] at hterminal
  cases hterminal

/-- A job is given up and its lock refunded. -/
theorem refundJob (hb : b.AllFunded) {jobId : JobId}
    (hfinal : ∀ job ∈ b.jobs.get? jobId, job.state.isTerminal) : (b.refundJob jobId).AllFunded := by
  rw [Books.refundJob]
  cases hfirst : firstLocked b.escrows jobId with
  | none => exact hb
  | some row =>
      obtain ⟨hget, hjob, -⟩ := firstLocked_eq_some hfirst
      refine hb.releaseWhere _ fun id e he hid => ?_
      have heq : id = row.1 := of_decide_eq_true hid
      subst heq
      cases he.symm.trans hget
      rw [hjob]
      exact hfinal

theorem migrateOrFail (hb : b.AllFunded) (now : Time) (jobId : JobId) :
    (b.migrateOrFail now jobId).AllFunded := by
  rw [Books.migrateOrFail]
  cases hjob : b.jobs.get? jobId with
  | none => exact hb
  | some job =>
      dsimp only
      split
      · exact hb
      rename_i hprogress
      have hlive : job.state.isTerminal = false := by
        cases hstate : job.state <;> simp_all [JobState.inProgress, JobState.isTerminal]
      split
      · refine hb.updateJob _ (fun _ => rfl) fun job' hjob' hterminal => ?_
        cases hjob.symm.trans hjob'
        rw [hlive] at hterminal
        cases hterminal
      · have hgiven : Books.AllFunded
            ⟨b.accounts, b.escrows, b.jobs.update jobId (.giveUp now (failureReason job))⟩ :=
          hb.updateJob b.accounts (fun _ => rfl) fun _ _ _ => rfl
        refine hgiven.refundJob fun job' hjob' => ?_
        rw [Option.mem_def, Table.get?_update_self] at hjob'
        obtain ⟨_, -, rfl⟩ := Option.map_eq_some_iff.mp hjob'
        rfl

end Books.AllFunded

/-! ### The statements -/

/-- The write brings no final job back and adds none. -/
def JobsWrite.KeepsFinal : JobsWrite → Prop
  | close _ state | report _ state _ _ => state.isTerminal
  | cancelOwned _ _ | checkpoint _ _ _ | giveUp _ _ => True
  | insert _ _ _ | start _ | heartbeat _ _ | acknowledge _ _ _ | assign _ _ _ _ | requeue _ => False

/-- The statement leaves the locks alone and ends jobs only. -/
def Action.SparesFunding : Action → Prop
  | .jobs w => w.KeepsFinal
  | .escrows _ => False
  | _ => True

theorem JobsWrite.KeepsFinal.edit {w : JobsWrite} (hkeeps : w.KeepsFinal) (now : Time) (k : JobId)
    {job : Job} (hfinal : job.state.isTerminal) : (w.edit now k job).state.isTerminal := by
  cases w with
  | close jobId state =>
      simp only [JobsWrite.edit]
      split
      · exact hkeeps
      · exact hfinal
  | report jobId state outputHash actualRuntimeS =>
      simp only [JobsWrite.edit]
      split
      · exact hkeeps
      · exact hfinal
  | cancelOwned jobId consumerId =>
      simp only [JobsWrite.edit]
      split
      · rfl
      · exact hfinal
  | giveUp jobId reason =>
      simp only [JobsWrite.edit]
      split
      · rfl
      · exact hfinal
  | checkpoint jobId url iteration =>
      simp only [JobsWrite.edit]
      split <;> exact hfinal
  | _ => exact hkeeps.elim

/-- A write of jobs, when the jobs it brings back are funded. -/
theorem Books.AllFunded.writeJobs {s : Db} (hs : s.books.AllFunded) {w : JobsWrite}
    {jobs : Table JobId Job} (happly : w.apply s = some jobs)
    (hnew : ∀ k consumerId spec, w ≠ .insert k consumerId spec)
    (hback : ∀ k, ∀ job ∈ s.jobs.get? k, job.state.isTerminal →
      (w.edit s.now k job).state.isTerminal = false → FundedBy s.escrows k job.spec) :
    ({ s with jobs } : Db).books.AllFunded := by
  apply hs.move
  intro k job' hjob' hlive
  cases hjob : s.jobs.get? k with
  | none =>
      obtain ⟨consumerId, spec, hinsert, -⟩ := JobsWrite.submitted_of_apply happly hjob hjob'
      exact absurd hinsert (hnew k consumerId spec)
  | some job =>
      have hedit := JobsWrite.get?_apply happly hjob
      cases hjob'.symm.trans hedit
      exact ⟨job, hjob, w.edit_spec s.now k job, fun hterminal => hback k job hjob hterminal hlive⟩

theorem Action.exec_allFunded {q : Action} {s t : Db} {a : q.Answer} (hspares : q.SparesFunding)
    (hs : s.books.AllFunded) (hexec : q.exec s = some (a, t)) : t.books.AllFunded := by
  have hescrows : t.escrows = s.escrows := by
    rcases Action.exec_escrows hexec with hsame | ⟨w, rfl, -⟩
    · exact hsame
    · exact hspares.elim
  rcases Action.exec_jobs hexec with hsame | ⟨w, rfl, happly⟩
  · intro k job hjob
    rw [Db.books, hescrows]
    rw [Db.books, hsame] at hjob
    exact hs k job hjob
  · have hkeeps : w.KeepsFinal := hspares
    have hwritten := hs.writeJobs happly
      (fun _ _ _ heq => by rw [heq] at hkeeps; exact hkeeps) fun k job _ hterminal hlive => by
        rw [hkeeps.edit s.now k hterminal] at hlive
        cases hlive
    intro k job hjob
    rw [Db.books, hescrows]
    exact hwritten k job hjob

/-! ### The operations -/

section Operations

variable {s : Db}

/-- The job of a new submission has the escrow row that goes with it. -/
theorem submitJob_allFunded (hs : s.books.AllFunded) (hconsistent : s.Consistent) {ids : SubmitIds}
    {body : SubmitJobBody} (hkeeps : Operation.KeepsFunded s (.submitJob ids body)) :
    (run Action.exec (submitJob ids body) s).2.books.AllFunded := by
  rcases submitJob_cases s ids body with hsame | ⟨hcovered, jobs, hjobs, hescrow⟩
  · rw [hsame]
    exact hs
  obtain ⟨hpositive, hfree⟩ := hkeeps hcovered (Table.rows_of_insert? hjobs).1
  rcases hescrow with ⟨escrows, hescrows, hbooks⟩ | ⟨htaken, -⟩
  · rw [hbooks]
    intro k job hjob hlive
    rcases Table.get?_insert?_cases hjobs hjob with ⟨rfl, rfl⟩ | ⟨hne, hold⟩
    · refine ⟨body.maxCost, rfl, hpositive, ids.escrowId, body.escrow ids.jobId, ?_, ⟨rfl, rfl⟩,
        le_rfl, ?_⟩
      · rw [Option.mem_def, Table.get?_of_insert? hescrows, if_pos rfl]
      · intro id e he hlocked
        rcases Table.get?_insert?_cases hescrows he with ⟨hid, -⟩ | ⟨-, hold⟩
        · exact hid
        · -- a row of the new job would have needed the job
          have hjob := hconsistent.escrow id e hold
          rw [hlocked.1, (Table.rows_of_insert? hjobs).1] at hjob
          cases hjob
    · exact (hs k job hold hlive).insert hescrows (Ne.symm hne)
  · exact absurd hfree (Table.insert?_eq_none_iff.mp htaken)

theorem cancelJob_allFunded (hs : s.books.AllFunded) (jobId : JobId) :
    (run Action.exec (cancelJob jobId) s).2.books.AllFunded := by
  rw [cancelJob_books]
  cases hjob : s.jobs.get? jobId with
  | none => exact hs
  | some job =>
      dsimp only
      split
      · exact hs
      · refine (hs.updateJob s.creditAccounts (f := .close s.now .cancelled) (fun _ => rfl)
          fun _ _ _ => rfl).releaseWhere _ fun id e _ hlocked job' hjob' => ?_
        rw [(of_decide_eq_true hlocked).1, Option.mem_def, Table.get?_update_self] at hjob'
        obtain ⟨_, -, rfl⟩ := Option.map_eq_some_iff.mp hjob'
        rfl

/-- A job that is assigned starts. -/
theorem getAssignedJob_allFunded (hs : s.books.AllFunded) (providerId : ProviderId) :
    (run Action.exec (getAssignedJob providerId) s).2.books.AllFunded := by
  have hread : Action.exec (.read (.assignedJob providerId)) s =
    some (Read.eval s (.assignedJob providerId), s) := rfl
  rw [getAssignedJob, run_query_of_some _ hread]
  cases hrow : Read.eval s (.assignedJob providerId) with
  | none => exact hs
  | some row =>
      obtain ⟨hget, -, hassigned⟩ := Read.assignedJob_found hrow
      show Books.AllFunded ⟨s.creditAccounts, s.escrows, s.jobs.update row.1 _⟩
      refine hs.updateJob _ (fun _ => rfl) fun job hjob hterminal => ?_
      cases hjob.symm.trans hget
      rw [hassigned] at hterminal
      cases hterminal

theorem jobHeartbeat_allFunded (hs : s.books.AllFunded) {jobId : JobId} {body : JobHeartbeatBody}
    (hkeeps : Operation.KeepsFunded s (.jobHeartbeat jobId body)) :
    (run Action.exec (jobHeartbeat jobId body) s).2.books.AllFunded := by
  refine hs.writeJobs (w := .heartbeat jobId body.providerId) rfl (fun _ _ _ heq => by cases heq) ?_
  intro k job hjob hterminal hlive
  simp only [JobsWrite.edit] at hlive
  split at hlive
  · rename_i hmatches
    rw [hmatches.1] at hjob ⊢
    exact hkeeps job hjob hmatches.2 hterminal
  · rw [hterminal] at hlive
    cases hlive

theorem acknowledgeJob_allFunded (hs : s.books.AllFunded) {ja : Grpc.JobAccepted}
    (hkeeps : Operation.KeepsFunded s (.acknowledgeJob ja)) :
    (run Action.exec (Grpc.acknowledgeJob ja) s).2.books.AllFunded := by
  refine hs.writeJobs (w := .acknowledge ja.jobId ja.wireguardEndpoint (asI32 ja.sshPort.toNat)) rfl
    (fun _ _ _ heq => by cases heq) ?_
  intro k job hjob hterminal hlive
  simp only [JobsWrite.edit] at hlive
  split at hlive
  · rename_i heq
    rw [heq] at hjob ⊢
    exact hkeeps job hjob hterminal
  · rw [hterminal] at hlive
    cases hlive

theorem grpcSubmitJob_allFunded (hs : s.books.AllFunded) {jobId : JobId}
    {req : Grpc.JobSubmitRequest} (hkeeps : Operation.KeepsFunded s (.grpcSubmitJob jobId req)) :
    (run Action.exec (Grpc.submitJob jobId req) s).2.books.AllFunded := by
  rw [Grpc.submitJob]
  cases hreqs : req.requirements with
  | none => exact hs
  | some reqs =>
      have htaken : (s.jobs.get? jobId).isSome := hkeeps (by rw [hreqs]; rfl)
      have hrefused : ∀ job, s.jobs.insert? jobId job = none := fun job =>
        Table.insert?_eq_none_iff.mpr (Option.isSome_iff_ne_none.mp htaken)
      dsimp only
      rw [run_query_of_none _ (by simp only [Action.exec, JobsWrite.apply, hrefused, Option.map_none])]
      exact hs

/-- The auction assigns jobs that were queued, and no job ends meanwhile. -/
theorem assignQueued_allFunded {s : Db} (hs : s.books.AllFunded) (queued : List (JobId × Job))
    (hlive : ∀ row ∈ queued, ∀ job ∈ s.jobs.get? row.1, job.state.isTerminal = false) :
    (run Action.exec (assignQueued queued) s).2.books.AllFunded := by
  induction queued generalizing s with
  | nil => exact hs
  | cons row queued ih =>
      obtain ⟨jobId, job⟩ := row
      have hrest := ih hs fun row hrow => hlive row (List.mem_cons_of_mem _ hrow)
      have hread : Action.exec (.read (.candidates (job.spec.minRamGb.getD 0)
        (job.spec.maxPricePerHour.getD f64Max))) s = some (_, s) := rfl
      rw [assignQueued, findBestProvider, run_query_of_some _ hread]
      cases bestCandidate (job.spec.maxPricePerHour.getD f64Max) _ with
      | none => exact hrest
      | some best =>
          show (run Action.exec (assignJob _ _ _ _ _) s).2.books.AllFunded
          rw [assignJob, run_query]
          split
          · rename_i hexec
            obtain ⟨jobs, happly, heq⟩ := Option.map_eq_some_iff.mp hexec
            cases heq
            have hfunded := hs.writeJobs happly (fun _ _ _ heq => by cases heq)
              fun k job' hjob' hterminal hback => by
                simp only [JobsWrite.edit] at hback
                split at hback
                · rename_i heq
                  have hstill := hlive _ List.mem_cons_self job' (heq ▸ hjob')
                  rw [hterminal] at hstill
                  cases hstill
                · rw [hterminal] at hback
                  cases hback
            refine ih (s := { s with jobs, providers := _ }) hfunded fun row hrow job' hjob' => ?_
            cases hold : s.jobs.get? row.1 with
            | none =>
                obtain ⟨_, _, hinsert, -⟩ := JobsWrite.submitted_of_apply happly hold hjob'
                cases hinsert
            | some old =>
                cases hjob'.symm.trans (JobsWrite.get?_apply happly hold)
                simp only [JobsWrite.edit]
                split
                · rfl
                · exact hlive row (List.mem_cons_of_mem _ hrow) old hold
          · exact hs

theorem runAuctionCycle_allFunded (hs : s.books.AllFunded) :
    (run Action.exec runAuctionCycle s).2.books.AllFunded := by
  have hread : Action.exec (.read .queuedJobs) s = some (Read.eval s .queuedJobs, s) := rfl
  rw [runAuctionCycle, run_query_of_some _ hread]
  refine assignQueued_allFunded hs _ fun row hrow job hjob => ?_
  obtain ⟨hget, hqueued⟩ := Read.queuedJobs_found hrow
  cases hjob.symm.trans hget
  rw [hqueued]
  rfl

theorem checkStaleProviders_allFunded (hs : s.books.AllFunded) (txIds : Nat → TxId) :
    (run Action.exec (checkStaleProviders txIds) s).2.books.AllFunded := by
  have hall : ∀ (jobIds : List JobId) {b : Books}, b.AllFunded →
      (jobIds.foldl (Books.migrateOrFail s.now) b).AllFunded := by
    intro jobIds
    induction jobIds with
    | nil => exact fun hb => hb
    | cons jobId jobIds ih => exact fun hb => ih (hb.migrateOrFail s.now jobId)
  rw [checkStaleProviders_books]
  exact hall _ hs

theorem migrateOrFailJob_allFunded (hs : s.books.AllFunded) (txId : TxId) (jobId : JobId)
    (providerId : ProviderId) :
    (run Action.exec (migrateOrFailJob txId jobId providerId (done true)) s).2.books.AllFunded := by
  obtain ⟨t, hrun, hbooks, -⟩ := migrateOrFailJob_run s txId jobId providerId (done true)
  rw [hrun, run_done, hbooks]
  exact hs.migrateOrFail s.now jobId

theorem lockEscrow_allFunded (hs : s.books.AllFunded) {escrowId : EscrowId}
    {body : Ledger.EscrowLockBody} (hkeeps : Operation.KeepsFunded s (.lockEscrow escrowId body))
    (hjobs : (run Action.exec (Ledger.lockEscrow escrowId body) s).2.jobs = s.jobs) :
    (run Action.exec (Ledger.lockEscrow escrowId body) s).2.books.AllFunded := by
  rcases Ledger.lockEscrow_run s escrowId body with hsame | ⟨a, hget, hcovers, -, hescrows⟩
  · rw [hsame]
    exact hs
  rw [Db.books, hjobs]
  rcases hescrows with hsame | hinsert
  · rw [hsame]
    exact hs
  · exact hs.lock _ hinsert (hkeeps ⟨a, hget, hcovers⟩ (Table.rows_of_insert? hinsert).1)

theorem releaseEscrow_allFunded (hs : s.books.AllFunded) {body : Ledger.EscrowReleaseBody}
    (hkeeps : Operation.KeepsFunded s (.releaseEscrow body))
    (hjobs : (run Action.exec (Ledger.releaseEscrow body) s).2.jobs = s.jobs) :
    (run Action.exec (Ledger.releaseEscrow body) s).2.books.AllFunded := by
  rcases Ledger.releaseEscrow_run s body with hsame | ⟨e, hget, hlocked, -, -, hescrows⟩
  · rw [hsame]
    exact hs
  rw [Db.books, hjobs, hescrows]
  refine hs.releaseWhere _ fun id e' he' hid => ?_
  have heq : id = body.escrowId := of_decide_eq_true hid
  rw [heq] at he'
  cases he'.symm.trans hget
  exact hkeeps e hget hlocked

end Operations

namespace Operation

theorem after_jobs {op : Operation} (hjobs : ∀ w, ¬ op.WritesJob w) (s : Db) :
    (op.after s).jobs = s.jobs := by
  refine run_sameIn .jobs s (Uses.mono (fun q hissues => ?_) op.program_issues)
  cases q with
  | jobs w => exact absurd hissues (hjobs w)
  | ledgerDeposit accountId amount reference txId => rfl
  | _ => rfl

/-- An operation that only ends jobs, or leaves them alone. -/
theorem after_allFunded_of_spares {op : Operation} {s : Db} (hs : s.books.AllFunded)
    (hjobs : ∀ w, op.WritesJob w → w.KeepsFinal) (hescrows : ∀ w, ¬ op.WritesEscrow w) :
    (op.after s).books.AllFunded := by
  refine Program.run_preserves Action.exec (I := fun s => s.books.AllFunded)
    (P := Action.SparesFunding) (fun q s a t hspares hs hexec => Action.exec_allFunded hspares hs hexec)
    _ s (Uses.mono (fun q hissues => ?_) op.program_issues) hs
  cases q with
  | jobs w => exact hjobs w hissues
  | escrows w => exact absurd hissues (hescrows w)
  | _ => trivial

theorem after_allFunded {s : Db} (hs : s.books.AllFunded) (hconsistent : s.Consistent)
    {op : Operation} (hkeeps : op.KeepsFunded s) : (op.after s).books.AllFunded := by
  cases op with
  | submitJob ids body =>
      rw [after_books _ s rfl]
      exact submitJob_allFunded hs hconsistent hkeeps
  | cancelJob jobId =>
      rw [after_books _ s rfl]
      exact cancelJob_allFunded hs jobId
  | getAssignedJob providerId =>
      rw [after_books _ s rfl]
      exact getAssignedJob_allFunded hs providerId
  | jobHeartbeat jobId body =>
      rw [after_books _ s rfl]
      exact jobHeartbeat_allFunded hs hkeeps
  | acknowledgeJob ja =>
      rw [after_books _ s rfl]
      exact acknowledgeJob_allFunded hs hkeeps
  | grpcSubmitJob jobId req =>
      rw [after_books _ s rfl]
      exact grpcSubmitJob_allFunded hs hkeeps
  | runAuctionCycle =>
      rw [after_books _ s rfl]
      exact runAuctionCycle_allFunded hs
  | checkStaleProviders txIds =>
      rw [after_books _ s rfl]
      exact checkStaleProviders_allFunded hs txIds
  | migrateOrFailJob txId jobId providerId =>
      rw [after_books _ s rfl]
      exact migrateOrFailJob_allFunded hs txId jobId providerId
  | lockEscrow escrowId body =>
      have hjobs : ((lockEscrow escrowId body).after s).jobs = s.jobs := after_jobs (fun _ => id) s
      rw [after, program, run_forget] at hjobs
      rw [after_books _ s rfl]
      exact lockEscrow_allFunded hs hkeeps hjobs
  | releaseEscrow body =>
      have hjobs : ((releaseEscrow body).after s).jobs = s.jobs := after_jobs (fun _ => id) s
      rw [after, program, run_forget] at hjobs
      rw [after_books _ s rfl]
      exact releaseEscrow_allFunded hs hkeeps hjobs
  | completeJob config txId jobId body =>
      apply after_allFunded_of_spares hs
      · intro w hw
        cases hw
        rfl
      · exact fun _ => id
  | failJob config jobId body =>
      apply after_allFunded_of_spares hs
      · intro w hw
        cases hw
        rfl
      · exact fun _ => id
  | saveCheckpoint checkpointId jobId body =>
      apply after_allFunded_of_spares hs
      · intro w hw
        obtain ⟨url, rfl⟩ := hw
        trivial
      · exact fun _ => id
  | reportCompletion oracleEnabled txIds jc =>
      apply after_allFunded_of_spares hs
      · intro w hw
        cases hw
        show jc.jobState.isTerminal
        rw [Grpc.JobComplete.jobState]
        split <;> rfl
      · exact fun _ => id
  | grpcCancelJob req =>
      apply after_allFunded_of_spares hs
      · intro w hw
        cases hw
        trivial
      · exact fun _ => id
  | registerAccount _ _ | stripeCredit _ _ _ _ | withdraw _ _ | registerProvider _
  | sendHeartbeat _ | evictStaleProviders | ledgerDeposit _ _ _ | ledgerWithdraw _ _ _ =>
      exact after_allFunded_of_spares hs (fun _ => False.elim) (fun _ => id)

end Operation

/-- A one-hour job over gRPC. -/
def grpcSubmitHour (jobId : JobId) (accountId : AccountId) (price : ℚ) : Operation :=
  .grpcSubmitJob jobId
    { consumerId := accountId
      requirements := some ⟨4, 1, 3600, price⟩
      bundleHash := ""
      bundleUploadUrl := ""
      consumerSshPubkey := ""
      consumerWgPubkey := "" }

end NeuralMesh
