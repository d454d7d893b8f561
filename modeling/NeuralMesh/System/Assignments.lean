import NeuralMesh.Base.Shortlist
import NeuralMesh.Base.Stages
import NeuralMesh.System.Constraints
import NeuralMesh.System.Statements

/-!
# Jobs and their providers

A job in progress carries the id of its provider. Only the auction assigns: to a provider it found
among the available ones, which it leases with its next statement. The watcher takes a silent
provider offline and goes on to treat its job: it re-queues the job or gives it up.
-/

namespace NeuralMesh

open Coordinator Program

/-- The job is assigned or running and carries the provider's id. -/
def Db.Carries (s : Db) (jobId : JobId) (providerId : ProviderId) : Prop :=
  ∃ job ∈ s.jobs.get? jobId, job.state.inProgress ∧ job.providerId = some providerId

/-- The provider's row is leased for the job. -/
def Provider.LeasedFor (row : Provider) (jobId : JobId) : Prop :=
  row.state = .leased ∧ row.activeJobId = some jobId

/-- The two statements of `assign_job`. -/
def Action.assigns : Action → Bool
  | .jobs (.assign _ _ _ _) | .providers (.lease _ _) => true
  | _ => false

/-- The next statement, if any, is not one of `assign_job`. -/
def AssignsNothing (next : Option Action) : Prop := ∀ q ∈ next, q.assigns = false

theorem assignsNothing_none : AssignsNothing none := fun _ hq => by cases hq

/-- What may follow an answered statement: an assignment to one of the candidates, and the lease
after it. -/
def AuctionOrder : (q : Action) → q.Answer → Option Action → Prop
  | .read (.candidates _ _), (candidates : List (ProviderId × Provider)), next =>
      ∀ q ∈ next, q.assigns →
        ∃ row ∈ candidates, ∃ jobId pricePerHour restore,
          q = .jobs (.assign jobId row.1 pricePerHour restore)
  | .jobs (.assign jobId providerId _ _), _, next => next = some (.providers (.lease providerId jobId))
  | _, _, next => AssignsNothing next

theorem AssignsNothing.order {next : Option Action} (hnext : AssignsNothing next) {q : Action}
    (hq : q.assigns = false) (a : q.Answer) : AuctionOrder q a next := by
  unfold AuctionOrder
  split
  · intro q hq' hassigns
    rw [hnext q hq'] at hassigns
    cases hassigns
  · cases hq
  · exact hnext

def Coordinator.scoreOf (maxPrice : ℚ) (row : ProviderId × Provider) : ℚ :=
  providerScore maxPrice row.2

theorem bestCandidate_eq {maxPrice : ℚ} (candidates : List (ProviderId × Provider)) :
    bestCandidate maxPrice candidates = lastGreatest (scoreOf maxPrice) candidates := by
  rw [bestCandidate, lastGreatest]
  congr 1
  funext best row
  cases best with
  | none => rfl
  | some best => rw [better, scoreOf, scoreOf]

theorem bestCandidate_mem {maxPrice : ℚ} {candidates : List (ProviderId × Provider)}
    {best : ProviderId × Provider} (hbest : bestCandidate maxPrice candidates = some best) :
    best ∈ candidates := by
  rw [bestCandidate_eq] at hbest
  exact lastGreatest_mem hbest

namespace Operation

theorem assigns_of_issues {op : Operation} {q : Action} (hissues : op.Issues q)
    (hassigns : q.assigns) : op = .runAuctionCycle := by
  cases q with
  | jobs w =>
      cases w with
      | assign jobId providerId pricePerHour restore =>
          cases op <;> simp_all [Issues, WritesJob]
      | _ => cases hassigns
  | providers w =>
      cases w with
      | lease providerId jobId =>
          cases op <;> simp_all [Issues, WritesProvider]
      | _ => cases hassigns
  | _ => cases hassigns

theorem assignQueued_follows (queued : List (JobId × Job)) :
    AssignsNothing (assignQueued queued).head? ∧
      (assignQueued queued).Follows AuctionOrder AssignsNothing := by
  induction queued with
  | nil =>
      exact ⟨assignsNothing_none, trivial⟩
  | cons row queued ih =>
      obtain ⟨jobId, job⟩ := row
      refine ⟨fun q hq => ?_, fun candidates => ?_, ih⟩
      · cases hq
        rfl
      · dsimp only
        cases hbest : bestCandidate (job.spec.maxPricePerHour.getD f64Max) candidates with
        | none => exact ⟨ih.1.order rfl candidates, ih.2⟩
        | some best =>
            refine ⟨fun q hq _ => ?_, fun _ => ⟨rfl, fun _ => ih, assignsNothing_none, trivial⟩,
              assignsNothing_none, trivial⟩
            cases hq
            exact ⟨best, bestCandidate_mem hbest, _, _, _, rfl⟩

theorem program_follows (op : Operation) : op.program.Follows AuctionOrder AssignsNothing := by
  by_cases hauction : op = .runAuctionCycle
  · subst hauction
    rw [program, follows_forget]
    exact ⟨fun queued => assignQueued_follows queued, assignsNothing_none, trivial⟩
  · refine Follows.of_uses (P := fun q => q.assigns = false) (fun q a next hq hnext => ?_)
      (fun next hnext => hnext) (Uses.mono (fun q hissues => ?_) op.program_issues)
    · exact AssignsNothing.order hnext hq a
    · by_contra hassigns
      exact hauction (assigns_of_issues hissues (Bool.not_eq_false _ ▸ hassigns))

theorem program_head (op : Operation) : AssignsNothing op.program.head? := by
  by_cases hauction : op = .runAuctionCycle
  · subst hauction
    intro q hq
    cases hq
    rfl
  · intro q hq
    by_contra hassigns
    exact hauction (assigns_of_issues (op.program_issues.head hq) (Bool.not_eq_false _ ▸ hassigns))

end Operation

/-! ### Requests -/

/-- What is left of a request is in order, and before it begins it assigns nothing. -/
structure Request.Orderly (r : Request Action.Answer Operation Unit) : Prop where
  issues : r.rest.Uses r.op.Issues
  follows : r.rest.Follows AuctionOrder AssignsNothing
  fresh : r.begun = false → AssignsNothing r.rest.head?

namespace Request.Orderly

theorem start (op : Operation) : (Request.fresh Operation.program op).Orderly :=
  ⟨op.program_issues, op.program_follows, fun _ => op.program_head⟩

/-- A request about to assign or to lease is an auction cycle that has begun. -/
theorem underway {r : Request Action.Answer Operation Unit} (hr : r.Orderly) {q : Action}
    (hq : r.rest.head? = some q) (hassigns : q.assigns) :
    r.op = .runAuctionCycle ∧ r.Underway := by
  refine ⟨Operation.assigns_of_issues (hr.issues.head hq) hassigns, ?_, ?_⟩
  · by_contra hfresh
    have hnothing := hr.fresh (Bool.not_eq_true _ ▸ hfresh) q hq
    rw [hassigns] at hnothing
    cases hnothing
  · rintro ⟨result, hdone⟩
    rw [hdone] at hq
    cases hq

variable {op : Operation} {begun : Bool} {q : Action} {next : q.Answer → Program Action.Answer Unit}
  {fail : Program Action.Answer Unit}

theorem answered (hr : Orderly ⟨op, begun, .query q next fail⟩) (a : q.Answer) :
    Orderly ⟨op, true, next a⟩ :=
  ⟨hr.issues.2.1 a, (hr.follows.1 a).2, fun hfresh => Bool.noConfusion hfresh⟩

theorem failed (hr : Orderly ⟨op, begun, .query q next fail⟩) : Orderly ⟨op, true, fail⟩ :=
  ⟨hr.issues.2.2, hr.follows.2.2, fun hfresh => Bool.noConfusion hfresh⟩

/-- After a write of `jobs` that assigns nothing comes no assignment and no lease. -/
theorem assignsNothing_of_write {w : JobsWrite} {next : Unit → Program Action.Answer Unit}
    (hr : Orderly ⟨op, begun, .query (.jobs w) next fail⟩)
    (hother : ∀ k x price restore, w ≠ .assign k x price restore) :
    AssignsNothing (next ()).head? := by
  have horder := (hr.follows.1 ()).1
  cases w with
  | assign k x price restore => exact absurd rfl (hother k x price restore)
  | _ => exact horder

end Request.Orderly

/-- An auction cycle goes on only while no other is between two of its statements. -/
def AuctionsTakeTurns (p : Pool Action.Answer Db Operation Unit) (i : Nat) (op : Operation) : Prop :=
  op = .runAuctionCycle → ∀ (j : Nat) (r : Request Action.Answer Operation Unit), j ≠ i →
    p.requests[j]? = some r → r.op = .runAuctionCycle → ¬ r.Underway

theorem AuctionsTakeTurns.others {p : Pool Action.Answer Db Operation Unit} {i : Nat}
    (hturns : AuctionsTakeTurns p i .runAuctionCycle) {j : Nat}
    {r : Request Action.Answer Operation Unit} (hj : j ≠ i) (hr : p.requests[j]? = some r)
    (horderly : r.Orderly) : AssignsNothing r.rest.head? := by
  intro q hq
  by_contra hassigns
  obtain ⟨hop, hunderway⟩ := horderly.underway hq (Bool.not_eq_false _ ▸ hassigns)
  exact hturns rfl j r hj hr hop hunderway

/-! ### The watcher -/

variable {α : Type}

/-- The next statement re-queues the job or gives it up. -/
def EndsJob (jobId : JobId) (rest : Program Action.Answer α) : Prop :=
  rest.head? = some (.jobs (.requeue jobId)) ∨
    ∃ reason, rest.head? = some (.jobs (.giveUp jobId reason))

/-- The program is at `migrate_or_fail_job`: it is about to look the job up and to end it if it is
in progress, or to end it. -/
def TreatsJob (jobId : JobId) : Program Action.Answer α → Prop
  | .query (.read (.job jobId')) next _ =>
      jobId' = jobId ∧ ∀ job : Job, job.state.inProgress → EndsJob jobId (next (some job))
  | rest => EndsJob jobId rest

theorem EndsJob.treats {jobId : JobId} {rest : Program Action.Answer α}
    (hends : EndsJob jobId rest) : TreatsJob jobId rest := by
  unfold TreatsJob
  split
  · rcases hends with hhead | ⟨_, hhead⟩ <;> cases hhead
  · exact hends

/-! ### Which job a provider carries -/

theorem Db.carries_of_columns {s : Db} {k : JobId} {p : ProviderId} {state : JobState}
    (hcolumns : (s.jobs.get? k).map (fun job => (job.state, job.providerId)) =
      some (state, some p)) (hprogress : state.inProgress) : s.Carries k p := by
  obtain ⟨job, hjob, heq⟩ := Option.map_eq_some_iff.mp hcolumns
  rw [Prod.mk.injEq] at heq
  exact ⟨job, hjob, heq.1 ▸ hprogress, heq.2⟩

theorem Db.not_carries {s : Db}
    (hstates : ∀ row ∈ s.jobs.rows, row.2.state.inProgress = false) (k : JobId) (p : ProviderId) :
    ¬ s.Carries k p := by
  rintro ⟨job, hjob, hprogress, -⟩
  rw [hstates (k, job) (Table.mem_rows_iff.mpr hjob)] at hprogress
  cases hprogress

/-- The write sets a job in progress that is not, and names its last provider. -/
def JobsWrite.BringsBack (s : Db) (jobId : JobId) (providerId : ProviderId) : JobsWrite → Prop
  | assign _ _ _ _ => False
  | w =>
      ∃ job ∈ s.jobs.get? jobId, job.state.inProgress = false ∧ job.providerId = some providerId ∧
        (w.edit s.now jobId job).state.inProgress

/-- A job that is submitted or assigned is not brought back. -/
theorem JobsWrite.not_bringsBack {s : Db} {w : JobsWrite}
    (hnew : (∃ jobId consumerId spec, w = .insert jobId consumerId spec) ∨
      ∃ jobId p pricePerHour restore, w = .assign jobId p pricePerHour restore)
    (k : JobId) (p : ProviderId) : ¬ w.BringsBack s k p := by
  intro hback
  rcases hnew with ⟨_, _, _, rfl⟩ | ⟨_, _, _, _, rfl⟩
  · obtain ⟨job, -, hstate, -, hprogress⟩ := hback
    rw [JobsWrite.edit, hstate] at hprogress
    cases hprogress
  · exact hback

/-- After an assignment its provider carries the job, and no other does. -/
theorem JobsWrite.carries_of_assign {s : Db} {jobs : Table JobId Job} {k k₀ : JobId}
    {p p₀ : ProviderId} {pricePerHour : ℚ} {restore : Bool}
    (happly : JobsWrite.apply s (.assign k₀ p₀ pricePerHour restore) = some jobs)
    (hcarries : ({ s with jobs } : Db).Carries k p) :
    k = k₀ ∧ p = p₀ ∨ k ≠ k₀ ∧ s.Carries k p := by
  obtain ⟨job', hjob', hprogress, hprovider⟩ := hcarries
  cases hjob : s.jobs.get? k with
  | none =>
      obtain ⟨_, _, hinsert, -⟩ := JobsWrite.submitted_of_apply happly hjob hjob'
      cases hinsert
  | some job =>
      cases hjob'.symm.trans (JobsWrite.get?_apply happly hjob)
      by_cases hk : k = k₀
      · simp only [JobsWrite.edit, if_pos hk] at hprovider
        exact .inl ⟨hk, (Option.some.inj hprovider).symm⟩
      · simp only [JobsWrite.edit, if_neg hk] at hprogress hprovider
        exact .inr ⟨hk, job, hjob, hprogress, hprovider⟩

/-- Otherwise a job is carried that was, or it is brought back. -/
theorem JobsWrite.carries_of_apply {s : Db} {w : JobsWrite} {jobs : Table JobId Job}
    (happly : w.apply s = some jobs)
    (hassign : ∀ k p pricePerHour restore, w ≠ .assign k p pricePerHour restore) {k : JobId}
    {p : ProviderId} (hcarries : ({ s with jobs } : Db).Carries k p) :
    s.Carries k p ∨ w.BringsBack s k p := by
  obtain ⟨job', hjob', hprogress, hprovider⟩ := hcarries
  cases hjob : s.jobs.get? k with
  | none =>
      obtain ⟨consumerId, spec, -, rfl⟩ := JobsWrite.submitted_of_apply happly hjob hjob'
      cases hprovider
  | some job =>
      cases hjob'.symm.trans (JobsWrite.get?_apply happly hjob)
      rcases w.edit_providerId s.now k job with hsame | hnone | ⟨p', price, restore, hw, -⟩
      · rw [hsame] at hprovider
        cases hstate : job.state.inProgress with
        | true => exact .inl ⟨job, hjob, hstate, hprovider⟩
        | false =>
            right
            cases w with
            | assign k p pricePerHour restore => exact absurd rfl (hassign k p pricePerHour restore)
            | _ => exact ⟨job, hjob, hstate, hprovider, hprogress⟩
      · rw [hnone] at hprovider
        cases hprovider
      · exact absurd hw (hassign k p' price restore)

theorem Db.Carries.congr {s t : Db} (hjobs : t.jobs = s.jobs) {k : JobId} {p : ProviderId} :
    t.Carries k p ↔ s.Carries k p := by
  rw [Db.Carries, Db.Carries, hjobs]

theorem Db.Carries.shuffled {s t : Db} (hshuffled : s.Shuffled t) {k : JobId} {p : ProviderId} :
    t.Carries k p ↔ s.Carries k p := by
  rw [Db.Carries, Db.Carries, hshuffled.jobs.get?_eq k]

end NeuralMesh
