import NeuralMesh.Agent.IdleMonitor
import NeuralMesh.Base.OneAtATime
import NeuralMesh.System.Assignments

/-!
# A provider runs one job at a time

The requests and loops of the services, interleaved statement by statement. The auction picks
providers by `providers.state` alone, so a provider is assigned a second job as soon as a statement
makes it available while it carries the first: `KeepsOneJob` excludes that.
-/

namespace NeuralMesh

open Coordinator Program

/-- No two jobs in progress carry the same provider. -/
def Db.OneJob (s : Db) : Prop := ∀ p k k', s.Carries k p → s.Carries k' p → k = k'

/-- The provider is not offered to the auction while a job in progress carries it. -/
def Db.NotOffered (s : Db) (p : ProviderId) : Prop :=
  ∀ row ∈ s.providers.get? p, row.state = .available → ∀ k, ¬ s.Carries k p

/-- What a statement must find for each provider to keep to one job. -/
def Action.KeepsOneJob (s : Db) : Action → Prop
  -- it makes no provider available that carries a job in progress
  | .providers w =>
      ∀ p, ∀ row ∈ s.providers.get? p, row.state ≠ .available →
        (w.edit s.now p row).state = .available → ∀ k, ¬ s.Carries k p
  -- it brings no job back to its last provider
  | .jobs w => ∀ k p, ¬ w.BringsBack s k p
  | _ => True

/-- The auctions take turns, the statements keep each provider to one job, and a lease is lost only
for a provider that is not offered to the auction as it is. -/
def KeepsOneJob (p : Pool Action.Answer Db Operation Unit) : Event Action Db Operation → Prop
  | .ran i op q before _ => AuctionsTakeTurns p i op ∧ q.KeepsOneJob before
  | .lost _ _ q => ∀ providerId jobId, q = .providers (.lease providerId jobId) →
      p.store.NotOffered providerId
  | .refused _ _ _ | .environment => True

/-! ### The stages -/

/-- An auction that is about to assign a job has a provider without one. -/
structure Bidding (r : Request Action.Answer Operation Unit) (s : Db) : Prop where
  orderly : r.Orderly
  free : ∀ jobId providerId pricePerHour restore,
    r.rest.head? = some (.jobs (.assign jobId providerId pricePerHour restore)) →
      ∀ k, ¬ s.Carries k providerId

/-- A lease is about to take the provider out of the auction. -/
def LeasePending (p : ProviderId) (r : Request Action.Answer Operation Unit) : Prop :=
  ∃ jobId, r.rest.head? = some (.providers (.lease p jobId))

/-- Each provider carries one job, each auction has a free provider, and a provider that carries a
job is not offered, or not any more once its lease is written. -/
abbrev OneJobCovered (p : Pool Action.Answer Db Operation Unit) : Prop :=
  p.Covered Db.OneJob (fun _ r s => Bidding r s) (fun q s => s.NotOffered q) LeasePending

variable {s t : Db} {op : Operation} {begun : Bool} {q : Action}
  {next : q.Answer → Program Action.Answer Unit} {fail : Program Action.Answer Unit}

theorem Bidding.of_not_assigns {r : Request Action.Answer Operation Unit} (horderly : r.Orderly)
    (hnothing : ∀ jobId providerId pricePerHour restore,
      r.rest.head? ≠ some (.jobs (.assign jobId providerId pricePerHour restore))) :
    Bidding r s :=
  ⟨horderly, fun jobId providerId pricePerHour restore hhead =>
    absurd hhead (hnothing jobId providerId pricePerHour restore)⟩

/-- Fewer jobs are carried: what was free stays free. -/
theorem Bidding.mono {r : Request Action.Answer Operation Unit} (hr : Bidding r s)
    (hfewer : ∀ k p, t.Carries k p → s.Carries k p) : Bidding r t :=
  ⟨hr.orderly, fun jobId p pricePerHour restore hhead k hcarries =>
    hr.free jobId p pricePerHour restore hhead k (hfewer k p hcarries)⟩

theorem Db.OneJob.mono (hs : s.OneJob) (hfewer : ∀ k p, t.Carries k p → s.Carries k p) :
    t.OneJob :=
  fun p k k' hk hk' => hs p k k' (hfewer k p hk) (hfewer k' p hk')

/-- The provider has the row it had, and carries no more. -/
theorem Db.NotOffered.mono {p : ProviderId} (hs : s.NotOffered p)
    (hrow : t.providers.get? p = s.providers.get? p)
    (hfewer : ∀ k, t.Carries k p → s.Carries k p) : t.NotOffered p := by
  intro row hget havailable k hcarries
  rw [hrow] at hget
  exact hs row hget havailable k (hfewer k hcarries)

theorem leasePending_query {p : ProviderId}
    (hpending : LeasePending p ⟨op, begun, .query q next fail⟩) :
    ∃ jobId, q = .providers (.lease p jobId) := by
  obtain ⟨jobId, hhead⟩ := hpending
  exact ⟨jobId, Option.some.inj hhead⟩

/-! ### One statement -/

section Statement

variable {p : Pool Action.Answer Db Operation Unit} {i : Nat}

/-- What a statement leaves, as the rule of stages asks for it. -/
def LeavesOneJob (p : Pool Action.Answer Db Operation Unit) (i : Nat) (op : Operation)
    (begun : Bool) (old rest : Program Action.Answer Unit) (t : Db) : Prop :=
  t.OneJob ∧ Bidding ⟨op, true, rest⟩ t ∧
    (∀ (j : Nat) (r : Request Action.Answer Operation Unit), j ≠ i → p.requests[j]? = some r →
      Bidding r t) ∧
    ∀ x, p.store.NotOffered x ∨ LeasePending x ⟨op, begun, old⟩ →
      t.NotOffered x ∨ LeasePending x ⟨op, true, rest⟩

/-- The provider that is assigned a job carried none, and is leased next. -/
theorem assign_leavesOneJob (hcovered : OneJobCovered p) {jobId : JobId} {providerId : ProviderId}
    {pricePerHour : ℚ} {restore : Bool} {next : Unit → Program Action.Answer Unit}
    (hturns : AuctionsTakeTurns p i op)
    (hrequest : p.requests[i]? =
      some ⟨op, begun, .query (.jobs (.assign jobId providerId pricePerHour restore)) next fail⟩)
    {jobs : Table JobId Job}
    (happly : JobsWrite.apply p.store (.assign jobId providerId pricePerHour restore) = some jobs) :
    LeavesOneJob p i op begun
      (.query (.jobs (.assign jobId providerId pricePerHour restore)) next fail) (next ())
      { p.store with jobs } := by
  have hthis := hcovered.request i _ hrequest
  have hfree := hthis.free jobId providerId pricePerHour restore rfl
  have hnext : (next ()).head? = some (.providers (.lease providerId jobId)) :=
    (hthis.orderly.follows.1 ()).1
  have hop : op = .runAuctionCycle := (hthis.orderly.underway rfl rfl).1
  subst hop
  refine ⟨fun x k k' hk hk' => ?_, ?_, fun j r hj hr => ?_, fun x hx => ?_⟩
  · rcases JobsWrite.carries_of_assign happly hk with ⟨rfl, rfl⟩ | ⟨-, hold⟩
    · rcases JobsWrite.carries_of_assign happly hk' with ⟨rfl, -⟩ | ⟨-, hold'⟩
      · rfl
      · exact absurd hold' (hfree k')
    · rcases JobsWrite.carries_of_assign happly hk' with ⟨-, rfl⟩ | ⟨-, hold'⟩
      · exact absurd hold (hfree k)
      · exact hcovered.store x k k' hold hold'
  · refine .of_not_assigns (hthis.orderly.answered ()) fun k x price restore hhead => ?_
    cases hnext.symm.trans hhead
  · -- no other auction is underway
    have hnothing := hturns.others hj hr (hcovered.request j r hr).orderly
    refine .of_not_assigns (hcovered.request j r hr).orderly fun k x price restore hhead => ?_
    cases hnothing _ hhead
  · by_cases heq : x = providerId
    · exact .inr ⟨jobId, heq ▸ hnext⟩
    left
    rcases hx with hx | hx
    · refine hx.mono rfl fun k hcarries => ?_
      rcases JobsWrite.carries_of_assign happly hcarries with ⟨-, rfl⟩ | ⟨-, hold⟩
      · exact absurd rfl heq
      · exact hold
    · obtain ⟨_, hlease⟩ := leasePending_query hx
      cases hlease

/-- A statement after which no job is carried that was not, and no provider is newly offered. -/
theorem leavesOneJob_of_fewer (hcovered : OneJobCovered p)
    (hrequest : p.requests[i]? = some ⟨op, begun, .query q next fail⟩) (a : q.Answer)
    (hfewer : ∀ k x, t.Carries k x → p.store.Carries k x)
    (hoffered : ∀ x, p.store.NotOffered x ∨ LeasePending x ⟨op, begun, .query q next fail⟩ →
      t.NotOffered x)
    (hfree : ∀ jobId providerId pricePerHour restore,
      (next a).head? = some (.jobs (.assign jobId providerId pricePerHour restore)) →
        ∀ k, ¬ p.store.Carries k providerId) :
    LeavesOneJob p i op begun (.query q next fail) (next a) t := by
  refine ⟨hcovered.store.mono hfewer, ?_, fun j r _ hr => (hcovered.request j r hr).mono hfewer,
    fun x hx => .inl (hoffered x hx)⟩
  refine ⟨(hcovered.request i _ hrequest).orderly.answered a, ?_⟩
  intro jobId providerId pricePerHour restore hhead k hcarries
  exact hfree jobId providerId pricePerHour restore hhead k (hfewer k providerId hcarries)

theorem writeJobs_leavesOneJob (hcovered : OneJobCovered p) {w : JobsWrite}
    {next : Unit → Program Action.Answer Unit} (hturns : AuctionsTakeTurns p i op)
    (hkeeps : Action.KeepsOneJob p.store (.jobs w))
    (hrequest : p.requests[i]? = some ⟨op, begun, .query (.jobs w) next fail⟩)
    {jobs : Table JobId Job} (happly : w.apply p.store = some jobs) :
    LeavesOneJob p i op begun (.query (.jobs w) next fail) (next ()) { p.store with jobs } := by
  by_cases hassign : ∃ k x price restore, w = .assign k x price restore
  · obtain ⟨k, x, price, restore, rfl⟩ := hassign
    exact assign_leavesOneJob hcovered hturns hrequest happly
  have hother : ∀ k x price restore, w ≠ .assign k x price restore :=
    fun k x price restore heq => hassign ⟨k, x, price, restore, heq⟩
  have hfewer : ∀ k x, ({ p.store with jobs } : Db).Carries k x → p.store.Carries k x := by
    intro k x hcarries
    rcases JobsWrite.carries_of_apply happly hother hcarries with hold | hback
    · exact hold
    · exact absurd hback (hkeeps k x)
  have hnothing : AssignsNothing (next ()).head? :=
    (hcovered.request i _ hrequest).orderly.assignsNothing_of_write hother
  refine leavesOneJob_of_fewer hcovered hrequest () hfewer (fun x hx => ?_)
    fun k x price restore hhead => ?_
  · rcases hx with hx | hx
    · exact hx.mono rfl fun k => hfewer k x
    · obtain ⟨_, hlease⟩ := leasePending_query hx
      cases hlease
  · cases hnothing _ hhead

theorem writeProviders_leavesOneJob (hcovered : OneJobCovered p) {w : ProvidersWrite}
    {next : Option Provider → Program Action.Answer Unit}
    (hkeeps : Action.KeepsOneJob p.store (.providers w))
    (hrequest : p.requests[i]? = some ⟨op, begun, .query (.providers w) next fail⟩)
    (a : Option Provider) :
    LeavesOneJob p i op begun (.query (.providers w) next fail) (next a)
      { p.store with providers := (w.apply p.store).2 } := by
  have hnothing : AssignsNothing (next a).head? :=
    ((hcovered.request i _ hrequest).orderly.follows.1 a).1
  have hrow : ∀ x, ∀ row' ∈ (w.apply p.store).2.get? x, row'.state = .available →
      ∃ row ∈ p.store.providers.get? x, (w.edit p.store.now x row).state = .available := by
    intro x row' hrow' havailable
    cases hrow : p.store.providers.get? x with
    | none =>
        obtain ⟨caps, -, rfl⟩ := w.registered_of_apply hrow hrow'
        cases havailable
    | some row =>
        cases hrow'.symm.trans (w.get?_apply hrow)
        exact ⟨row, rfl, havailable⟩
  refine leavesOneJob_of_fewer hcovered hrequest a (fun k x => id) (fun x hx => ?_)
    fun k x price restore hhead => ?_
  · intro row' hrow' havailable k hcarries
    obtain ⟨row, hget, hedited⟩ := hrow x row' hrow' havailable
    rcases hx with hx | hx
    · by_cases hbefore : row.state = .available
      · exact hx row hget hbefore k hcarries
      · exact hkeeps x row hget hbefore hedited k hcarries
    · -- the lease has been written
      obtain ⟨jobId, hlease⟩ := leasePending_query hx
      cases hlease
      simp only [ProvidersWrite.edit, if_true] at hedited
      cases hedited
  · cases hnothing _ hhead

/-- Candidates are available, so they carry no job. -/
theorem candidates_free (hcovered : OneJobCovered p) (hturns : AuctionsTakeTurns p i .runAuctionCycle)
    {minRamGb : Int} {maxPrice : ℚ} {next : List (ProviderId × Provider) → Program Action.Answer Unit}
    (hrequest : p.requests[i]? =
      some ⟨.runAuctionCycle, begun, .query (.read (.candidates minRamGb maxPrice)) next fail⟩)
    {row : ProviderId × Provider}
    (hrow : row ∈ (Read.eval p.store (.candidates minRamGb maxPrice) : List (ProviderId × Provider)))
    (k : JobId) : ¬ p.store.Carries k row.1 := by
  obtain ⟨hget, havailable, -⟩ := Read.candidates_found hrow
  rcases hcovered.holds row.1 with hheld | ⟨j, r, hr, jobId, hhead⟩
  · exact hheld row.2 hget havailable k
  · have hj : j ≠ i := by
      rintro rfl
      cases hrequest.symm.trans hr
      cases hhead
    cases hturns.others hj hr (hcovered.request j r hr).orderly _ hhead

/-- Every other statement leaves jobs and providers alone. -/
theorem other_leavesOneJob (hcovered : OneJobCovered p) (hturns : AuctionsTakeTurns p i op)
    (hrequest : p.requests[i]? = some ⟨op, begun, .query q next fail⟩) {a : q.Answer}
    (hexec : q.exec p.store = some (a, t)) (hjobs : q.touches .jobs = false)
    (hproviders : q.touches .providers = false) :
    LeavesOneJob p i op begun (.query q next fail) (next a) t := by
  have hsameJobs : t.jobs = p.store.jobs := Action.exec_sameIn .jobs hjobs hexec
  have hsameProviders : t.providers = p.store.providers :=
    Action.exec_sameIn .providers hproviders hexec
  have hfewer : ∀ k x, t.Carries k x → p.store.Carries k x :=
    fun k x => (Db.Carries.congr hsameJobs).mp
  have hthis := (hcovered.request i _ hrequest).orderly
  refine leavesOneJob_of_fewer hcovered hrequest a hfewer (fun x hx => ?_)
    fun jobId x price restore hhead => ?_
  · rcases hx with hx | hx
    · exact hx.mono (by rw [hsameProviders]) fun k => hfewer k x
    · obtain ⟨_, rfl⟩ := leasePending_query hx
      cases hproviders
  · have hop : op = .runAuctionCycle :=
      Operation.assigns_of_issues ((hthis.issues.2.1 a).head hhead) rfl
    subst hop
    have horder := (hthis.follows.1 a).1
    unfold AuctionOrder at horder
    split at horder
    · obtain ⟨row, hrow, _, _, _, heq⟩ := horder _ hhead rfl
      cases heq
      cases hexec
      exact candidates_free hcovered hturns hrequest hrow
    · cases hjobs
    · cases horder _ hhead

end Statement

/-- A run that keeps each provider to one job, from whatever is covered. -/
theorem oneJobCovered_of_runs {p p' : Pool Action.Answer Db Operation Unit}
    {es : List (Event Action Db Operation)}
    (hrun : p.Runs Action.exec Db.Shuffled KeepsOneJob es p') (hstart : OneJobCovered p) :
    OneJobCovered p' := by
  refine hrun.covered ?_ ?_ ?_ hstart
  · intro p i op begun q next fail a t hcovered hguard hrequest hexec
    obtain ⟨hturns, hkeeps⟩ := hguard
    show LeavesOneJob p i op begun (.query q next fail) (next a) t
    cases q with
    | jobs w =>
        obtain ⟨jobs, happly, heq⟩ := Option.map_eq_some_iff.mp hexec
        cases heq
        exact writeJobs_leavesOneJob hcovered hturns hkeeps hrequest happly
    | providers w =>
        cases hexec
        exact writeProviders_leavesOneJob hcovered hkeeps hrequest _
    | _ => exact other_leavesOneJob hcovered hturns hrequest hexec rfl rfl
  · intro p i op begun q next fail hcovered hguard hrequest
    have hthis := (hcovered.request i _ hrequest).orderly
    have hnothing : AssignsNothing fail.head? := hthis.follows.2.1
    refine ⟨.of_not_assigns hthis.failed fun k x price restore hhead => ?_, fun x hx => ?_⟩
    · cases hnothing _ hhead
    · left
      obtain ⟨jobId, rfl⟩ := leasePending_query hx
      rcases hguard with ⟨-, hrefused⟩ | hlost
      · cases hrefused
      · exact hlost x jobId rfl
  · intro s t hshuffled
    have hfewer : ∀ k x, t.Carries k x → s.Carries k x :=
      fun k x => (Db.Carries.shuffled hshuffled).mp
    refine ⟨fun hs => hs.mono hfewer, fun _ r hr => hr.mono hfewer, fun x hx => ?_⟩
    exact hx.mono (hshuffled.providers.get?_eq x).symm fun k => hfewer k x

theorem oneJobCovered_start (ops : List Operation) :
    OneJobCovered (Pool.start Operation.program Db.init ops) where
  store := by
    intro p k k' hcarries
    obtain ⟨job, hjob, -⟩ := hcarries
    cases hjob
  request := by
    intro i r hr
    obtain ⟨op, -, rfl⟩ := List.mem_map.mp (List.mem_of_getElem? hr)
    refine .of_not_assigns (.start op) fun k p price restore hhead => ?_
    cases op.program_head _ hhead
  holds := by
    intro p
    left
    intro row hrow
    cases hrow

/-- In every interleaving whose steps keep each provider to one job, no two jobs in progress ever
carry the same provider. -/
theorem provider_runs_one_job {ops : List Operation} {p : Pool Action.Answer Db Operation Unit}
    {es : List (Event Action Db Operation)}
    (hrun : (Pool.start Operation.program Db.init ops).Runs Action.exec Db.Shuffled KeepsOneJob es p) :
    p.store.OneJob :=
  (oneJobCovered_of_runs hrun (oneJobCovered_start ops)).store

/-- An auction between the agent's poll and its heartbeat, and another after it. -/
def auctionBetween : List Operation :=
  [topUp "alice" 10, submitHour "a" "alice" 5, registration "p"] ++ Agent.idleAgent.take 2 ++
    [.runAuctionCycle, submitHour "b" "alice" 5] ++ Agent.idleAgent.drop 2 ++ [.runAuctionCycle]

/-- The heartbeat makes the provider available again, and it is assigned a second job. -/
theorem provider_runs_two_jobs :
    auctionBetween.filter Agent.isOfLoop = Agent.idleAgent ∧
      ∃ es p, (Pool.start Operation.program Db.init auctionBetween).Runs Action.exec Db.Shuffled
        (fun _ e => e.isLost = false) es p ∧ ¬ p.store.OneJob := by
  refine ⟨rfl, ?_⟩
  obtain ⟨es, rs, -, hrun⟩ := Pool.runs_inOrder Db.Shuffled
    (G := fun _ e => e.isLost = false) (fun _ _ _ _ _ _ _ => rfl) (fun _ _ _ _ _ _ => rfl)
    (eachInOrder_true Operation.program auctionBetween Db.init)
  refine ⟨es, _, hrun, fun hone => ?_⟩
  have ha : (afterAll auctionBetween Db.init).Carries "a" "p" :=
    Db.carries_of_columns (by decide +kernel : _ = some (JobState.assigned, some "p")) rfl
  have hb : (afterAll auctionBetween Db.init).Carries "b" "p" :=
    Db.carries_of_columns (by decide +kernel : _ = some (JobState.assigned, some "p")) rfl
  exact absurd (hone "p" "a" "b" ha hb) (by decide)

/-- An operation keeps each provider to one job wherever it runs, when it only registers providers,
submits jobs or runs the auction. -/
theorem Operation.issues_keepsOneJob {op : Operation}
    (hjobs : ∀ w, op.WritesJob w → (∃ k c spec, w = .insert k c spec) ∨
      ∃ k p price restore, w = .assign k p price restore)
    (hproviders : ∀ w, op.WritesProvider w → (∃ p caps, w = .register p caps) ∨
      ∃ p k, w = .lease p k) {q : Action} (hissues : op.Issues q) (s : Db) : q.KeepsOneJob s := by
  cases q with
  | jobs w =>
      exact JobsWrite.not_bringsBack (hjobs w hissues)
  | providers w =>
      intro p row _ hstate hedited
      rcases hproviders w hissues with ⟨_, _, rfl⟩ | ⟨_, _, rfl⟩
      all_goals
        simp only [ProvidersWrite.edit] at hedited
        split at hedited
        · cases hedited
        · exact absurd hedited hstate
  | _ => trivial

/-- A provider that is assigned a job keeps to it. -/
theorem provider_runs_one_job_assigned :
    ∃ es rs, (⟨afterAll assigned Db.init, rs⟩ : Pool Action.Answer Db Operation Unit).store.OneJob ∧
      (Pool.start Operation.program Db.init assigned).Runs Action.exec Db.Shuffled KeepsOneJob es
        ⟨afterAll assigned Db.init, rs⟩ := by
  have heach : EachInOrder Action.exec (fun q s => q.KeepsOneJob s) Operation.program assigned
      Db.init := by
    have hharmless : ∀ {op : Operation} (s : Db), (∀ {q}, op.Issues q → ∀ s, q.KeepsOneJob s) →
        op.program.Each Action.exec (fun q s => q.KeepsOneJob s) s :=
      fun s hissues => .of_uses (fun q s hq => hissues hq s) s (Operation.program_issues _)
    refine ⟨hharmless _ ?_, hharmless _ ?_, hharmless _ ?_, ⟨?_, trivial⟩, hharmless _ ?_, trivial⟩
    · exact Operation.issues_keepsOneJob (fun _ => False.elim) fun _ => False.elim
    · refine Operation.issues_keepsOneJob (fun w hw => ?_) fun _ => False.elim
      exact .inl ⟨_, _, _, hw⟩
    · refine Operation.issues_keepsOneJob (fun _ => False.elim) fun w hw => ?_
      obtain ⟨caps, rfl⟩ := hw
      exact .inl ⟨_, caps, rfl⟩
    · -- the agent becomes available while the job is still queued
      intro p row _ _ _ k
      exact Db.not_carries (s := afterAll [topUp "alice" 10, submitHour "a" "alice" 5,
        registration "p"] Db.init) (by decide +kernel) k p
    · refine Operation.issues_keepsOneJob (fun w hw => ?_) fun w hw => ?_
      · obtain ⟨k, p, price, restore, rfl⟩ := hw
        exact .inr ⟨k, p, price, restore, rfl⟩
      · obtain ⟨p, k, rfl⟩ := hw
        exact .inr ⟨p, k, rfl⟩
  obtain ⟨es, rs, -, hrun⟩ := Pool.runs_inOrder Db.Shuffled (G := KeepsOneJob)
    (fun p i op q t halone hkeeps => ⟨fun _ j r hj hr _ => halone j r hj hr, hkeeps⟩)
    (fun _ _ _ _ _ _ => trivial) heach
  exact ⟨es, rs, provider_runs_one_job hrun, hrun⟩

end NeuralMesh
