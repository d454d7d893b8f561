import NeuralMesh.Proof.BestProvider
import NeuralMesh.Store.Rows

/-!
# Jobs that wait while a provider is free

A cycle of the auction takes the fifty oldest of the queued jobs. For each of them it finds a provider
if there is one, and providers only become busy on the way, so none of the fifty is left waiting next
to a provider that it could have. A job behind them can be.
-/

namespace NeuralMesh

open Coordinator Program

/-- The provider is free and meets the constraints of the job, as the auction reads them. -/
def Provider.EligibleFor (row : Provider) (job : Job) : Prop :=
  row.Eligible (job.spec.minRamGb.getD 0) (job.spec.maxPricePerHour.getD f64Max)

/-- No queued job waits next to a free provider that it could have. -/
def Db.WorkConserving (s : Db) : Prop :=
  ∀ jobId job, s.jobs.get? jobId = some job → job.state = .queued →
    ∀ providerId row, s.providers.get? providerId = some row → ¬ row.EligibleFor job

/-! ### One job -/

/-- What the auction does about one job. -/
inductive Auction (s : Db) (jobId : JobId) (job : Job) : Db → Prop
  | waits (nobody : ∀ providerId row, s.providers.get? providerId = some row → ¬ row.EligibleFor job) :
      Auction s jobId job s
  | leases {providerId : ProviderId} {row : Provider}
      (found : s.providers.get? providerId = some row) (eligible : row.EligibleFor job)
      (price : ℚ) (restore : Bool) :
      Auction s jobId job { s with
        jobs := s.jobs.update jobId (.assign s.now providerId price restore)
        providers := s.providers.update providerId fun p =>
          { p with state := .leased, activeJobId := some jobId } }

/-- The jobs one after the other. -/
inductive Auctions : Db → List (JobId × Job) → Db → Prop
  | nil {s : Db} : Auctions s [] s
  | cons {s t u : Db} {jobId : JobId} {job : Job} {queued : List (JobId × Job)}
      (head : Auction s jobId job t) (rest : Auctions t queued u) :
      Auctions s ((jobId, job) :: queued) u

theorem assignQueued_cons (s : Db) (jobId : JobId) (job : Job) (queued : List (JobId × Job)) :
    ∃ t, Auction s jobId job t ∧ (assignQueued ((jobId, job) :: queued)).run Action.exec s =
      (assignQueued queued).run Action.exec t := by
  have hoffers : (Read.eval s (.candidates (job.spec.minRamGb.getD 0)
      (job.spec.maxPricePerHour.getD f64Max)) : List (ProviderId × Provider)) =
      (offers s (job.spec.minRamGb.getD 0) (job.spec.maxPricePerHour.getD f64Max)).take 20 := rfl
  rw [assignQueued, findBestProvider, run_query_of_some _ rfl, hoffers]
  cases hbest : bestCandidate (job.spec.maxPricePerHour.getD f64Max)
      ((offers s (job.spec.minRamGb.getD 0) (job.spec.maxPricePerHour.getD f64Max)).take 20) with
  | none =>
      rw [bestCandidate_eq, lastGreatest_eq_none_iff] at hbest
      have hnil := (List.take_eq_nil_iff.mp hbest).resolve_left (by decide)
      refine ⟨s, .waits fun providerId row hrow heligible => ?_, rfl⟩
      have hoffered := mem_offers_iff.mpr ⟨hrow, heligible⟩
      rw [hnil] at hoffered
      cases hoffered
  | some best =>
      obtain ⟨hfound, heligible⟩ := mem_offers_iff.mp (List.mem_of_mem_take (bestCandidate_mem hbest))
      have hassign : Action.exec (.jobs (.assign jobId best.1
          (job.spec.maxPricePerHour.getD (1 / 10)) job.checkpointUrl.isSome)) s =
          some ((), { s with jobs := s.jobs.update jobId (.assign s.now best.1
            (job.spec.maxPricePerHour.getD (1 / 10)) job.checkpointUrl.isSome) }) := by
        have hknown : ¬ ((s.jobs.get? jobId).isSome ∧ (s.providers.get? best.1).isNone) := by
          rw [hfound]
          simp
        simp only [Action.exec, JobsWrite.apply, if_neg hknown, Option.map_some]
      refine ⟨_, .leases hfound heligible (job.spec.maxPricePerHour.getD (1 / 10))
        job.checkpointUrl.isSome, ?_⟩
      dsimp only [Option.map_some]
      rw [assignJob, run_query_of_some _ hassign, run_query_of_some _ rfl]
      rfl

theorem auctions_assignQueued (s : Db) (queued : List (JobId × Job)) :
    Auctions s queued ((assignQueued queued).run Action.exec s).2 := by
  induction queued generalizing s with
  | nil => exact .nil
  | cons row queued ih =>
      obtain ⟨jobId, job⟩ := row
      obtain ⟨t, hauction, hrun⟩ := assignQueued_cons s jobId job queued
      rw [hrun]
      exact .cons hauction (ih t)

/-! ### What the auctions leave alone -/

variable {t u : Db} {jobId k : JobId} {job job' : Job} {queued : List (JobId × Job)}
  {providerId : ProviderId} {row : Provider}

/-- A provider that is free was free before. -/
theorem Auction.available (h : Auction s jobId job t) (hrow : t.providers.get? providerId = some row)
    (havailable : row.state = .available) : s.providers.get? providerId = some row := by
  cases h with
  | waits => exact hrow
  | leases =>
      rcases Table.get?_update_cases hrow with ⟨_, _, _, rfl⟩ | ⟨_, hrow⟩
      · cases havailable
      · exact hrow

/-- A job that is queued was queued before. -/
theorem Auction.waiting (h : Auction s jobId job t) (hjob : t.jobs.get? k = some job')
    (hqueued : job'.state = .queued) : s.jobs.get? k = some job' := by
  cases h with
  | waits => exact hjob
  | leases =>
      rcases Table.get?_update_cases hjob with ⟨_, _, _, rfl⟩ | ⟨_, hjob⟩
      · cases hqueued
      · exact hjob

theorem Auction.other_job (h : Auction s jobId job t) (hne : k ≠ jobId) :
    t.jobs.get? k = s.jobs.get? k := by
  cases h with
  | waits => rfl
  | leases => exact Table.get?_update_of_ne _ _ hne

/-- A job that still waits could not have any of the providers. -/
theorem Auction.nobody (h : Auction s jobId job t) (hjob : t.jobs.get? jobId = some job')
    (hqueued : job'.state = .queued) (hrow : t.providers.get? providerId = some row) :
    ¬ row.EligibleFor job := by
  cases h with
  | waits hnobody => exact hnobody providerId row hrow
  | leases =>
      rcases Table.get?_update_cases hjob with ⟨_, _, _, rfl⟩ | ⟨hne, _⟩
      · cases hqueued
      · exact absurd rfl hne

namespace Auctions

theorem available (h : Auctions s queued t) (hrow : t.providers.get? providerId = some row)
    (havailable : row.state = .available) : s.providers.get? providerId = some row := by
  induction h with
  | nil => exact hrow
  | cons hhead _ ih => exact hhead.available (ih hrow) havailable

theorem waiting (h : Auctions s queued t) (hjob : t.jobs.get? k = some job')
    (hqueued : job'.state = .queued) : s.jobs.get? k = some job' := by
  induction h with
  | nil => exact hjob
  | cons hhead _ ih => exact hhead.waiting (ih hjob) hqueued

theorem other_job (h : Auctions s queued t) (hother : k ∉ queued.map Prod.fst) :
    t.jobs.get? k = s.jobs.get? k := by
  induction h with
  | nil => rfl
  | cons hhead _ ih =>
      rw [List.map_cons, List.mem_cons, not_or] at hother
      exact (ih hother.2).trans (hhead.other_job hother.1)

/-- None of the jobs still waits next to a provider that it could have. -/
theorem nobody (h : Auctions s queued t)
    (hrows : ∀ entry ∈ queued, ∀ job', s.jobs.get? entry.1 = some job' → job'.state = .queued →
      job' = entry.2)
    (hmem : (k, job) ∈ queued) (hjob : t.jobs.get? k = some job') (hqueued : job'.state = .queued)
    (hrow : t.providers.get? providerId = some row) : ¬ row.EligibleFor job := by
  induction h with
  | nil => cases hmem
  | cons hhead hrest ih =>
      intro heligible
      rcases List.mem_cons.mp hmem with heq | hmem
      · obtain ⟨rfl, rfl⟩ := Prod.mk.inj heq
        have hbefore := hrest.available hrow heligible.state
        exact hhead.nobody (hrest.waiting hjob hqueued) hqueued hbefore heligible
      · refine ih (fun entry hentry job' hjob' hqueued' => ?_) hmem hjob hrow heligible
        exact hrows entry (List.mem_cons_of_mem _ hentry) job' (hhead.waiting hjob' hqueued') hqueued'

/-- At most one provider a job becomes busy. -/
theorem exists_leased (h : Auctions s queued t) : ∃ leased : List ProviderId,
    leased.length ≤ queued.length ∧
      ∀ providerId, providerId ∉ leased → t.providers.get? providerId = s.providers.get? providerId := by
  induction h with
  | nil => exact ⟨[], le_rfl, fun _ _ => rfl⟩
  | cons hhead _ ih =>
      obtain ⟨leased, hlength, hother⟩ := ih
      cases hhead with
      | waits => exact ⟨leased, hlength.trans (Nat.le_succ _), hother⟩
      | @leases providerId =>
          refine ⟨providerId :: leased, Nat.succ_le_succ hlength, fun other hmem => ?_⟩
          rw [List.mem_cons, not_or] at hmem
          exact (hother other hmem.2).trans (Table.get?_update_of_ne _ _ hmem.1)

end Auctions

/-! ### A cycle -/

/-- The queued jobs, the oldest first. -/
def Db.waitingJobs (s : Db) : List (JobId × Job) :=
  orderByAsc (fun row => some (row.2.createdAt : ℚ)) <|
    s.jobs.rows.filter fun row => row.2.state = .queued

/-- The jobs that a cycle fetches. -/
def Db.batch (s : Db) : List (JobId × Job) := s.waitingJobs.take 50

theorem mem_waitingJobs {s : Db} {entry : JobId × Job} :
    entry ∈ s.waitingJobs ↔ s.jobs.get? entry.1 = some entry.2 ∧ entry.2.state = .queued := by
  rw [Db.waitingJobs, Read.mem_orderByAsc, List.mem_filter, Table.mem_rows_iff, decide_eq_true_eq]

theorem auctions_batch (s : Db) : Auctions s s.batch (Operation.runAuctionCycle.after s) := by
  rw [Operation.after, Operation.program, run_forget]
  exact auctions_assignQueued s s.batch

/-- A job that could have a free provider but is not in the batch. -/
def Db.Overlooked (s : Db) (jobId : JobId) (job : Job) : Prop :=
  s.jobs.get? jobId = some job ∧ job.state = .queued ∧ (jobId, job) ∉ s.batch

/-- The cycle is work-conserving where no job behind the batch could have a provider. -/
theorem workConserving_of_not_overlooked {s : Db}
    (hnone : ∀ jobId job, s.Overlooked jobId job →
      ∀ providerId row, s.providers.get? providerId = some row → ¬ row.EligibleFor job) :
    (Operation.runAuctionCycle.after s).WorkConserving := by
  intro jobId job hjob hqueued providerId row hrow heligible
  have hauctions := auctions_batch s
  have hbefore := hauctions.waiting hjob hqueued
  have hfree := hauctions.available hrow heligible.state
  by_cases hmem : (jobId, job) ∈ s.batch
  · refine hauctions.nobody (fun entry hentry job' hjob' _ => ?_) hmem hjob hqueued hrow heligible
    have hentry := (mem_waitingJobs.mp (List.mem_of_mem_take hentry)).1
    exact Option.some.inj (hjob'.symm.trans hentry)
  · exact hnone jobId job ⟨hbefore, hqueued, hmem⟩ providerId row hfree heligible

/-- More free providers than a batch has jobs are not all taken. -/
theorem not_workConserving_of_overlooked {s : Db} {jobId : JobId} {job : Job}
    (hoverlooked : s.Overlooked jobId job) {providers : List ProviderId} (hnodup : providers.Nodup)
    (hlength : 50 < providers.length)
    (heligible : ∀ providerId ∈ providers, ∃ row, s.providers.get? providerId = some row ∧
      row.EligibleFor job) : ¬ (Operation.runAuctionCycle.after s).WorkConserving := by
  obtain ⟨hjob, hqueued, hmem⟩ := hoverlooked
  have hauctions := auctions_batch s
  obtain ⟨leased, hleased, hother⟩ := hauctions.exists_leased
  have hbatch : s.batch.length ≤ 50 := List.length_take_le 50 s.waitingJobs
  obtain ⟨providerId, hprovider, hfree⟩ : ∃ providerId ∈ providers, providerId ∉ leased := by
    by_contra hall
    have hsubset : providers ⊆ leased := by
      intro providerId hprovider
      by_contra hnot
      exact hall ⟨providerId, hprovider, hnot⟩
    have := (hnodup.subperm hsubset).length_le
    omega
  obtain ⟨row, hrow, hfits⟩ := heligible providerId hprovider
  have hkey : jobId ∉ s.batch.map Prod.fst := by
    intro hkey
    obtain ⟨entry, hentry, rfl⟩ := List.mem_map.mp hkey
    have hsame := (mem_waitingJobs.mp (List.mem_of_mem_take hentry)).1
    rw [hjob, Option.some.injEq] at hsame
    exact hmem (hsame ▸ hentry)
  intro hconserving
  refine hconserving jobId job ?_ hqueued providerId row ?_ hfits
  · rw [hauctions.other_job hkey, hjob]
  · rw [hother providerId hfree, hrow]

/-! ### Every table of providers -/

/-- A free provider that the job could have. -/
def providerFor (job : Job) : Provider :=
  let provider := offering (job.spec.maxPricePerHour.getD f64Max) 0
  { provider with caps := { provider.caps with maxJobRamGb := some (job.spec.minRamGb.getD 0) } }

theorem providerFor_eligible (job : Job) : (providerFor job).EligibleFor job :=
  ⟨rfl, ⟨_, rfl, le_rfl⟩, _, rfl, le_rfl⟩

/-- As many names as one likes. -/
def providerNames (n : Nat) : List ProviderId :=
  (List.range n).map fun i => String.ofList (List.replicate i 'p')

theorem nodup_providerNames (n : Nat) : (providerNames n).Nodup := by
  refine List.Nodup.map (fun i j heq => ?_) List.nodup_range
  have hlist := congrArg (fun name => name.toList.length) heq
  simpa using hlist

/-- Fifty-one providers that the job could have. -/
def crowdFor (job : Job) : Table ProviderId Provider where
  rows := (providerNames 51).map fun providerId => (providerId, providerFor job)
  nodupKeys := by
    rw [List.map_map]
    exact (List.map_id _).symm ▸ nodup_providerNames 51

theorem nodup_waitingJobs (s : Db) : s.waitingJobs.Nodup := by
  have hrows : s.jobs.rows.Nodup := s.jobs.nodupKeys.of_map
  exact (List.mergeSort_perm _ _).nodup_iff.mpr (hrows.filter _)

/-- Behind fifty queued jobs there is one that a cycle does not look at. -/
theorem exists_overlooked {s : Db} (hlong : 50 < s.waitingJobs.length) :
    ∃ jobId job, s.Overlooked jobId job := by
  have hmem := List.getElem_mem (l := s.waitingJobs) hlong
  obtain ⟨hjob, hqueued⟩ := mem_waitingJobs.mp hmem
  refine ⟨_, _, hjob, hqueued, fun hbatch => ?_⟩
  have hdrop : s.waitingJobs[50] ∈ s.waitingJobs.drop 50 := by
    rw [List.drop_eq_getElem_cons hlong]
    exact List.mem_cons_self
  exact List.disjoint_take_drop (nodup_waitingJobs s) le_rfl hbatch hdrop

/-- A cycle is work-conserving where no queued job behind the fifty oldest could have a free provider;
and over all the tables of providers it is so exactly where at most fifty jobs are queued. -/
theorem runAuctionCycle_workConserving (s : Db) :
    ((∀ jobId job, s.Overlooked jobId job → ∀ providerId row,
        s.providers.get? providerId = some row → ¬ row.EligibleFor job) →
      (Operation.runAuctionCycle.after s).WorkConserving) ∧
    ((∀ providers, (Operation.runAuctionCycle.after { s with providers }).WorkConserving) ↔
      (s.jobs.rows.filter fun row => row.2.state = .queued).length ≤ 50) := by
  have hlength : s.waitingJobs.length =
      (s.jobs.rows.filter fun row => row.2.state = .queued).length :=
    (List.mergeSort_perm _ _).length_eq
  refine ⟨workConserving_of_not_overlooked, ?_, ?_⟩
  · intro hall
    by_contra hlong
    obtain ⟨jobId, job, hoverlooked⟩ := exists_overlooked (s := s) (by omega)
    refine not_workConserving_of_overlooked (s := { s with providers := crowdFor job }) hoverlooked
      (nodup_providerNames 51) ?_ (fun providerId hmem => ?_) (hall (crowdFor job))
    · simp [providerNames]
    · exact ⟨_, Table.mem_rows_iff.mp (List.mem_map.mpr ⟨providerId, hmem, rfl⟩),
        providerFor_eligible job⟩
  · intro hshort providers
    refine workConserving_of_not_overlooked fun jobId job hoverlooked => ?_
    obtain ⟨hjob, hqueued, hmem⟩ := hoverlooked
    have hwaiting : (jobId, job) ∈ s.waitingJobs := mem_waitingJobs.mpr ⟨hjob, hqueued⟩
    have hbatch : ({ s with providers } : Db).batch = s.waitingJobs :=
      List.take_of_length_le (hlength.trans_le hshort)
    rw [hbatch] at hmem
    exact absurd hwaiting hmem

/-! ### Fifty jobs that nobody takes, and one behind them -/

/-- Without a job that could have a provider, nothing happens. -/
theorem Auctions.eq_of_nobody {s t : Db} {queued : List (JobId × Job)} (h : Auctions s queued t)
    (hnobody : ∀ entry ∈ queued, ∀ providerId row, s.providers.get? providerId = some row →
      ¬ row.EligibleFor entry.2) : t = s := by
  induction h with
  | nil => rfl
  | cons hhead _ ih =>
      cases hhead with
      | waits => exact ih fun entry hentry => hnobody entry (List.mem_cons_of_mem _ hentry)
      | leases hfound heligible => exact absurd heligible (hnobody _ List.mem_cons_self _ _ hfound)

/-- A queued job that pays up to some price. -/
def paying (createdAt : Time) (price : ℚ) : Job :=
  .submitted createdAt "alice"
    { runtime := none
      minRamGb := some 1
      maxDurationS := some 3600
      maxPricePerHour := some price
      bundleHash := none
      bundleUrl := none
      scriptName := none
      preferredRegion := none
      consumerSshPubkey := none
      consumerWgPubkey := none }

def stingyRows : List (JobId × Job) :=
  (providerNames 50).map fun jobId => (jobId, paying 0 0)

def starving : Db :=
  { Db.init with
    jobs := ⟨stingyRows ++ [("late", paying 1 5)], by decide +kernel⟩
    providers := ⟨[("p", offering 1 3)], by decide +kernel⟩ }

theorem waitingJobs_starving : starving.waitingJobs = stingyRows ++ [("late", paying 1 5)] := by
  have hqueued : ∀ row ∈ starving.jobs.rows, row.2.state = .queued := by
    intro row hrow
    rcases List.mem_append.mp hrow with hstingy | hlate
    · obtain ⟨_, _, rfl⟩ := List.mem_map.mp hstingy
      rfl
    · rw [List.mem_singleton.mp hlate]
      rfl
  rw [Db.waitingJobs, orderByAsc, List.filter_eq_self.mpr fun row hrow => decide_eq_true (hqueued row hrow)]
  refine List.mergeSort_of_pairwise (List.pairwise_append.mpr ⟨?_, List.pairwise_singleton _ _, ?_⟩)
  · refine List.pairwise_map.mpr (List.pairwise_of_forall fun i j => ?_)
    simp
  · intro row hrow other hother
    obtain ⟨i, _, rfl⟩ := List.mem_map.mp hrow
    rw [List.mem_singleton.mp hother]
    simp [paying, Job.submitted]

theorem batch_starving : starving.batch = stingyRows := by
  rw [Db.batch, waitingJobs_starving]
  exact List.take_left' (by decide)

/-- The provider costs one, and the jobs of the batch pay nothing. -/
theorem after_starving : Operation.runAuctionCycle.after starving = starving := by
  refine (auctions_batch starving).eq_of_nobody fun entry hentry providerId row hrow heligible => ?_
  rw [batch_starving] at hentry
  obtain ⟨jobId, _, rfl⟩ := List.mem_map.mp hentry
  have hmem := Table.mem_rows_iff.mpr hrow
  obtain ⟨rfl, rfl⟩ := Prod.mk.inj (List.mem_singleton.mp hmem)
  obtain ⟨floor, hfloor, hle⟩ := heligible.floor
  cases hfloor
  exact absurd hle (by norm_num [paying, Job.submitted])

theorem not_workConserving_starving :
    starving.jobs.get? "late" = some (paying 1 5) ∧ (paying 1 5).state = .queued ∧
      starving.providers.get? "p" = some (offering 1 3) ∧
      (offering 1 3).EligibleFor (paying 1 5) ∧
      Operation.runAuctionCycle.after starving = starving ∧
      ¬ (Operation.runAuctionCycle.after starving).WorkConserving := by
  have hjob : starving.jobs.get? "late" = some (paying 1 5) :=
    Table.mem_rows_iff.mp (List.mem_append_right _ (List.mem_singleton_self _))
  have hfits : (offering 1 3).EligibleFor (paying 1 5) :=
    ⟨rfl, ⟨16, rfl, by decide⟩, 1, rfl, by norm_num [paying, Job.submitted]⟩
  refine ⟨hjob, rfl, rfl, hfits, after_starving, ?_⟩
  rw [after_starving]
  intro hconserving
  exact hconserving "late" _ hjob rfl "p" _ rfl hfits

end NeuralMesh
