import NeuralMesh.Agent.IdleMonitor
import NeuralMesh.Base.OneAtATime
import NeuralMesh.System.Assignments

/-!
# A job in progress and the row of its provider

`assign_job` stores the link twice, in `jobs.provider_id` and in `providers.active_job_id`, and the
watcher finds a job only from the second. The rows stay linked as long as nothing else writes the
provider's row while a job in progress carries it; an agent's heartbeat does, since it names no job.
-/

namespace NeuralMesh

open Coordinator Program

/-- If the provider carries the job, its row is leased for it. -/
def Db.Linked (s : Db) (link : JobId × ProviderId) : Prop :=
  s.Carries link.1 link.2 → ∃ row ∈ s.providers.get? link.2, row.LeasedFor link.1

/-- The provider is leased for no job. -/
def Db.Unleased (s : Db) (p : ProviderId) : Prop :=
  ∀ row ∈ s.providers.get? p, ∀ k, ¬ row.LeasedFor k

/-- The write overwrites the state and the job of a provider with the row, other than by a lease. -/
def ProvidersWrite.Resets (now : Time) (p : ProviderId) (row : Provider) : ProvidersWrite → Prop
  | register providerId _ | heartbeat providerId _ _ _ _ | free providerId | freeCompleted providerId
  | offline providerId => p = providerId
  | freeOfJob jobId => row.activeJobId = some jobId
  | evict timeout => (row.state = .available ∨ row.state = .leased) ∧ row.staleAt now timeout
  | lease _ _ | seen _ _ _ | trust _ _ | penalize _ | addHours _ _ => False

/-- What a statement must find to leave the linked rows linked; `Treated` are the jobs its request
treats next. -/
def Action.KeepsLinked (s : Db) (Treated : JobId → Prop) : Action → Prop
  -- a provider leased for a job that it carries is reset only to treat the job next
  | .providers w =>
      ∀ p, ∀ row ∈ s.providers.get? p, ∀ k, s.Carries k p → row.LeasedFor k →
        w.Resets s.now p row → Treated k
  -- a job that is brought back is still the one its provider is leased for
  | .jobs w =>
      ∀ k p, w.BringsBack s k p → ∃ row ∈ s.providers.get? p, row.LeasedFor k
  | _ => True

/-- The request has begun, and is about to lease the provider for the job or to end the job. -/
def Request.HalfWay (r : Request Action.Answer Operation Unit) (link : JobId × ProviderId) : Prop :=
  r.begun = true ∧
    (r.rest.head? = some (.providers (.lease link.2 link.1)) ∨ TreatsJob link.1 r.rest)

/-- The request treats the job after the statement it is at. -/
def TreatsNext (p : Pool Action.Answer Db Operation Unit) (i : Nat) (jobId : JobId) : Prop :=
  ∃ op begun q next fail, p.requests[i]? = some ⟨op, begun, .query q next fail⟩ ∧
    ∀ a, TreatsJob jobId (next a)

/-- The auctions take turns, the statements leave linked rows linked, and no statement is lost that
was to link the rows again. -/
def KeepsLinked (p : Pool Action.Answer Db Operation Unit) : Event Action Db Operation → Prop
  | .ran i op q before _ => AuctionsTakeTurns p i op ∧ q.KeepsLinked before (TreatsNext p i)
  | .lost i _ _ => ∀ r, p.requests[i]? = some r → ∀ link, r.HalfWay link → p.store.Linked link
  | .refused _ _ _ | .environment => True

/-! ### The stages -/

/-- A request that leases a provider finds it leased for no job. -/
structure Leasing (r : Request Action.Answer Operation Unit) (s : Db) : Prop where
  orderly : r.Orderly
  agent : ∀ hb, r.op = .sendHeartbeat hb → Agent.FromAgent hb
  assign : ∀ jobId p pricePerHour restore,
    r.rest.head? = some (.jobs (.assign jobId p pricePerHour restore)) → s.Unleased p
  lease : ∀ jobId p, r.rest.head? = some (.providers (.lease p jobId)) → s.Unleased p

/-- What is in progress is linked, or some request is half-way on it. -/
abbrev LinksCovered (p : Pool Action.Answer Db Operation Unit) : Prop :=
  p.Covered Db.Consistent (fun _ r s => Leasing r s) (fun link s => s.Linked link)
    fun link r => r.HalfWay link

variable {s t : Db} {op : Operation} {begun : Bool} {q : Action}
  {next : q.Answer → Program Action.Answer Unit} {fail : Program Action.Answer Unit}

theorem Leasing.of_nothing {r : Request Action.Answer Operation Unit} (horderly : r.Orderly)
    (hagent : ∀ hb, r.op = .sendHeartbeat hb → Agent.FromAgent hb)
    (hnothing : AssignsNothing r.rest.head?) : Leasing r s :=
  ⟨horderly, hagent, fun _ _ _ _ hhead => (by cases hnothing _ hhead),
    fun _ _ hhead => (by cases hnothing _ hhead)⟩

theorem Leasing.mono {r : Request Action.Answer Operation Unit} (hr : Leasing r s)
    (hunleased : ∀ p, s.Unleased p → t.Unleased p) : Leasing r t :=
  ⟨hr.orderly, hr.agent, fun k p price restore hhead => hunleased p (hr.assign k p price restore hhead),
    fun k p hhead => hunleased p (hr.lease k p hhead)⟩

/-- A row is leased for a job by a lease, or by a heartbeat that names it. -/
theorem ProvidersWrite.edit_leasedFor {now : Time} {p : ProviderId} {w : ProvidersWrite}
    {row : Provider} {k : JobId} (hleased : (w.edit now p row).LeasedFor k) :
    row.LeasedFor k ∨ w = .lease p k ∨
      ∃ state gpuUtilPct ramUsedGb, w = .heartbeat p state gpuUtilPct ramUsedGb (some k) := by
  cases w with
  | heartbeat providerId state gpuUtilPct ramUsedGb activeJobId =>
      simp only [ProvidersWrite.edit] at hleased
      split at hleased
      · rename_i heq
        obtain ⟨-, hactive⟩ := hleased
        dsimp only at hactive
        exact .inr (.inr ⟨state, gpuUtilPct, ramUsedGb, by rw [heq, hactive]⟩)
      · exact .inl hleased
  | lease providerId jobId =>
      simp only [ProvidersWrite.edit] at hleased
      split at hleased
      · rename_i heq
        exact .inr (.inl (by rw [heq, Option.some.inj hleased.2]))
      · exact .inl hleased
  | register providerId caps =>
      simp only [ProvidersWrite.edit] at hleased
      split at hleased
      · cases hleased.1
      · exact .inl hleased
  | _ =>
      left
      simp only [ProvidersWrite.edit] at hleased
      split at hleased
      · first
        | exact hleased
        | cases hleased.1
      · exact hleased

/-- A row that is not reset stays leased. -/
theorem ProvidersWrite.leasedFor_edit {now : Time} {p : ProviderId} {w : ProvidersWrite}
    {row : Provider} {k : JobId} (hkept : ¬ w.Resets now p row)
    (hother : ∀ jobId, w ≠ .lease p jobId) (hleased : row.LeasedFor k) :
    (w.edit now p row).LeasedFor k := by
  cases w with
  | lease providerId jobId =>
      have hne : p ≠ providerId := fun heq => hother jobId (by rw [heq])
      simp only [ProvidersWrite.edit, if_neg hne]
      exact hleased
  | seen _ _ _ | trust _ _ | penalize _ | addHours _ _ =>
      simp only [ProvidersWrite.edit]
      split <;> exact hleased
  | _ =>
      simp only [ProvidersWrite.edit]
      split
      · rename_i hreset
        exact absurd hreset hkept
      · exact hleased

/-- The heartbeat of an agent is not stored with a job. -/
theorem heartbeat_names_no_job {p : ProviderId} {state : ProviderState} {gpuUtilPct : ℚ}
    {ramUsedGb : Int} {k : JobId}
    (hissues : op.Issues (.providers (.heartbeat p state gpuUtilPct ramUsedGb (some k))))
    (hagent : ∀ hb, op = .sendHeartbeat hb → Agent.FromAgent hb) : False := by
  have hwrites : op.WritesProvider (.heartbeat p state gpuUtilPct ramUsedGb (some k)) := hissues
  cases op with
  | sendHeartbeat hb =>
      have hactive : some k = Grpc.nullIfEmpty hb.activeJobId := by
        simp only [Operation.WritesProvider, ProvidersWrite.heartbeat.injEq] at hwrites
        exact hwrites.2.2.2.2
      rw [(hagent hb rfl).2, Grpc.nullIfEmpty, if_pos rfl] at hactive
      cases hactive
  | _ => simp [Operation.WritesProvider] at hwrites

/-! ### Half-way -/

section HalfWay

variable {link : JobId × ProviderId}

theorem halfWay_jobs {w : JobsWrite} {next : Unit → Program Action.Answer Unit}
    (hhalf : Request.HalfWay ⟨op, begun, .query (.jobs w) next fail⟩ link) :
    w = .requeue link.1 ∨ ∃ reason, w = .giveUp link.1 reason := by
  obtain ⟨-, hlease | hrequeue | ⟨reason, hgiveUp⟩⟩ := hhalf
  · cases hlease
  · cases hrequeue
    exact .inl rfl
  · cases hgiveUp
    exact .inr ⟨reason, rfl⟩

theorem halfWay_providers {w : ProvidersWrite} {next : Option Provider → Program Action.Answer Unit}
    (hhalf : Request.HalfWay ⟨op, begun, .query (.providers w) next fail⟩ link) :
    w = .lease link.2 link.1 := by
  obtain ⟨-, hlease | hrequeue | ⟨_, hgiveUp⟩⟩ := hhalf
  · cases hlease
    rfl
  · cases hrequeue
  · cases hgiveUp

/-- A job that is treated and in progress is ended next. -/
theorem halfWay_read {r : Read} {next : r.Answer → Program Action.Answer Unit}
    (hhalf : Request.HalfWay ⟨op, begun, .query (.read r) next fail⟩ link)
    (hcarries : s.Carries link.1 link.2) :
    Request.HalfWay ⟨op, true, next (r.eval s)⟩ link := by
  obtain ⟨-, hlease | htreats⟩ := hhalf
  · cases hlease
  cases r with
  | job jobId =>
      obtain ⟨rfl, hends⟩ := htreats
      obtain ⟨job, hjob, hprogress, -⟩ := hcarries
      refine ⟨rfl, .inr (EndsJob.treats ?_)⟩
      rw [show Read.eval s (.job link.1) = some job from hjob]
      exact hends job hprogress
  | _ =>
      rcases htreats with hrequeue | ⟨_, hgiveUp⟩
      · cases hrequeue
      · cases hgiveUp

/-- A job that was ended is carried no more. -/
theorem not_carries_of_ended {w : JobsWrite} {jobs : Table JobId Job}
    (happly : w.apply s = some jobs) {k : JobId}
    (hended : w = .requeue k ∨ ∃ reason, w = .giveUp k reason) (p : ProviderId) :
    ¬ ({ s with jobs } : Db).Carries k p := by
  rintro ⟨job', hjob', hprogress, hprovider⟩
  cases hjob : s.jobs.get? k with
  | none =>
      obtain ⟨_, _, -, rfl⟩ := JobsWrite.submitted_of_apply happly hjob hjob'
      cases hprovider
  | some job =>
      cases hjob'.symm.trans (JobsWrite.get?_apply happly hjob)
      rcases hended with rfl | ⟨reason, rfl⟩
      · simp only [JobsWrite.edit, if_true] at hprogress
        cases hprogress
      · simp only [JobsWrite.edit, if_true] at hprogress
        cases hprogress

end HalfWay

/-! ### One statement -/

section Statement

variable {p : Pool Action.Answer Db Operation Unit} {i : Nat}

/-- What a statement leaves, as the rule of stages asks for it. -/
def LeavesLinked (p : Pool Action.Answer Db Operation Unit) (i : Nat) (op : Operation)
    (begun : Bool) (old rest : Program Action.Answer Unit) (t : Db) : Prop :=
  t.Consistent ∧ Leasing ⟨op, true, rest⟩ t ∧
    (∀ (j : Nat) (r : Request Action.Answer Operation Unit), j ≠ i → p.requests[j]? = some r →
      Leasing r t) ∧
    ∀ link, p.store.Linked link ∨ Request.HalfWay ⟨op, begun, old⟩ link →
      t.Linked link ∨ Request.HalfWay ⟨op, true, rest⟩ link

/-- A statement that writes no provider's row. -/
theorem leavesLinked_of_sameProviders (hcovered : LinksCovered p)
    (hrequest : p.requests[i]? = some ⟨op, begun, .query q next fail⟩) {a : q.Answer}
    (hexec : q.exec p.store = some (a, t)) (hproviders : t.providers = p.store.providers)
    (hassign : ∀ k x price restore,
      (next a).head? = some (.jobs (.assign k x price restore)) → t.Unleased x)
    (hlease : ∀ k x, (next a).head? = some (.providers (.lease x k)) → t.Unleased x)
    (hlinks : ∀ link, t.Carries link.1 link.2 →
      p.store.Linked link ∨ Request.HalfWay ⟨op, begun, .query q next fail⟩ link →
      t.Linked link ∨ Request.HalfWay ⟨op, true, next a⟩ link) :
    LeavesLinked p i op begun (.query q next fail) (next a) t := by
  have hthis := hcovered.request i _ hrequest
  refine ⟨hcovered.store.exec hexec, ⟨hthis.orderly.answered a, hthis.agent, hassign, hlease⟩,
    fun j r _ hr => (hcovered.request j r hr).mono fun x hx => ?_, fun link hlink => ?_⟩
  · rw [Db.Unleased, hproviders]
    exact hx
  · by_cases hcarries : t.Carries link.1 link.2
    · exact hlinks link hcarries hlink
    · exact .inl fun h => absurd h hcarries

/-- The job that is assigned is leased for next. -/
theorem assign_leavesLinked (hcovered : LinksCovered p) {jobId : JobId} {providerId : ProviderId}
    {pricePerHour : ℚ} {restore : Bool} {next : Unit → Program Action.Answer Unit}
    (hrequest : p.requests[i]? =
      some ⟨op, begun, .query (.jobs (.assign jobId providerId pricePerHour restore)) next fail⟩)
    {jobs : Table JobId Job}
    (happly : JobsWrite.apply p.store (.assign jobId providerId pricePerHour restore) = some jobs)
    (hexec : Action.exec (.jobs (.assign jobId providerId pricePerHour restore)) p.store =
      some ((), { p.store with jobs })) :
    LeavesLinked p i op begun
      (.query (.jobs (.assign jobId providerId pricePerHour restore)) next fail) (next ())
      { p.store with jobs } := by
  have hthis := hcovered.request i _ hrequest
  have hunleased : p.store.Unleased providerId :=
    hthis.assign jobId providerId pricePerHour restore rfl
  have hnext : (next ()).head? = some (.providers (.lease providerId jobId)) :=
    (hthis.orderly.follows.1 ()).1
  refine leavesLinked_of_sameProviders hcovered hrequest hexec rfl (fun k x price restore hhead => ?_)
    (fun k x hhead => ?_) fun link hcarries hlink => ?_
  · cases hnext.symm.trans hhead
  · cases hnext.symm.trans hhead
    exact hunleased
  · rcases JobsWrite.carries_of_assign happly hcarries with ⟨hjob, hprovider⟩ | ⟨-, hold⟩
    · exact .inr ⟨rfl, .inl (by rw [hjob, hprovider]; exact hnext)⟩
    · rcases hlink with hlinked | hhalf
      · exact .inl fun _ => hlinked hold
      · rcases halfWay_jobs hhalf with hw | ⟨_, hw⟩ <;> cases hw

theorem writeJobs_leavesLinked (hcovered : LinksCovered p) {w : JobsWrite}
    {next : Unit → Program Action.Answer Unit}
    (hkeeps : Action.KeepsLinked p.store (TreatsNext p i) (.jobs w))
    (hrequest : p.requests[i]? = some ⟨op, begun, .query (.jobs w) next fail⟩)
    {jobs : Table JobId Job} (happly : w.apply p.store = some jobs)
    (hexec : Action.exec (.jobs w) p.store = some ((), { p.store with jobs })) :
    LeavesLinked p i op begun (.query (.jobs w) next fail) (next ()) { p.store with jobs } := by
  by_cases hassign : ∃ k x price restore, w = .assign k x price restore
  · obtain ⟨k, x, price, restore, rfl⟩ := hassign
    exact assign_leavesLinked hcovered hrequest happly hexec
  have hother : ∀ k x price restore, w ≠ .assign k x price restore :=
    fun k x price restore heq => hassign ⟨k, x, price, restore, heq⟩
  have hnothing : AssignsNothing (next ()).head? :=
    (hcovered.request i _ hrequest).orderly.assignsNothing_of_write hother
  refine leavesLinked_of_sameProviders hcovered hrequest hexec rfl (fun k x price restore hhead => ?_)
    (fun k x hhead => ?_) fun link hcarries hlink => ?_
  · cases hnothing _ hhead
  · cases hnothing _ hhead
  · left
    intro _
    rcases hlink with hlinked | hhalf
    · rcases JobsWrite.carries_of_apply happly hother hcarries with hold | hback
      · exact hlinked hold
      · exact hkeeps link.1 link.2 hback
    · exact absurd hcarries (not_carries_of_ended happly (halfWay_jobs hhalf) link.2)

/-- The lease links the provider's row to the job it carries, and breaks no other link. -/
theorem lease_leavesLinked (hcovered : LinksCovered p) {jobId : JobId} {providerId : ProviderId}
    {next : Option Provider → Program Action.Answer Unit} (hturns : AuctionsTakeTurns p i op)
    (hrequest : p.requests[i]? =
      some ⟨op, begun, .query (.providers (.lease providerId jobId)) next fail⟩)
    (a : Option Provider) :
    LeavesLinked p i op begun (.query (.providers (.lease providerId jobId)) next fail) (next a)
      { p.store with providers := (ProvidersWrite.apply p.store (.lease providerId jobId)).2 } := by
  have hthis := hcovered.request i _ hrequest
  have hunleased : p.store.Unleased providerId := hthis.lease jobId providerId rfl
  have hop : op = .runAuctionCycle := (hthis.orderly.underway rfl rfl).1
  subst hop
  have hedit : ∀ x row, p.store.providers.get? x = some row →
      (ProvidersWrite.apply p.store (.lease providerId jobId)).2.get? x =
        some ((ProvidersWrite.lease providerId jobId).edit p.store.now x row) :=
    fun x row hrow => ProvidersWrite.get?_apply _ hrow
  refine ⟨hcovered.store.exec (q := .providers (.lease providerId jobId)) rfl,
    .of_nothing (hthis.orderly.answered a) hthis.agent (hthis.orderly.follows.1 a).1,
    fun j r hj hr => ?_, fun link hlink => .inl fun hcarries => ?_⟩
  · -- no other auction is underway
    have hother := hcovered.request j r hr
    exact .of_nothing hother.orderly hother.agent (hturns.others hj hr hother.orderly)
  · have hcarried : p.store.Carries link.1 link.2 := hcarries
    by_cases heq : link = (jobId, providerId)
    · subst heq
      obtain ⟨job, hjob, -, hprovider⟩ := hcarried
      obtain ⟨row, hrow⟩ :=
        Option.isSome_iff_exists.mp (hcovered.store.provider _ job hjob _ hprovider)
      refine ⟨_, hedit _ row hrow, ?_⟩
      simp only [ProvidersWrite.edit, if_true]
      exact ⟨rfl, rfl⟩
    · rcases hlink with hlinked | hhalf
      · obtain ⟨row, hrow, hleased⟩ := hlinked hcarried
        have hne : link.2 ≠ providerId := by
          intro hsame
          exact hunleased row (hsame ▸ hrow) link.1 hleased
        refine ⟨_, hedit _ row hrow, ?_⟩
        simp only [ProvidersWrite.edit, if_neg hne]
        exact hleased
      · cases halfWay_providers hhalf
        exact absurd rfl heq

theorem writeProviders_leavesLinked (hcovered : LinksCovered p) {w : ProvidersWrite}
    {next : Option Provider → Program Action.Answer Unit} (hturns : AuctionsTakeTurns p i op)
    (hkeeps : Action.KeepsLinked p.store (TreatsNext p i) (.providers w))
    (hrequest : p.requests[i]? = some ⟨op, begun, .query (.providers w) next fail⟩)
    (a : Option Provider) :
    LeavesLinked p i op begun (.query (.providers w) next fail) (next a)
      { p.store with providers := (w.apply p.store).2 } := by
  by_cases hlease : ∃ x k, w = .lease x k
  · obtain ⟨x, k, rfl⟩ := hlease
    exact lease_leavesLinked hcovered hturns hrequest a
  have hother : ∀ x k, w ≠ .lease x k := fun x k heq => hlease ⟨x, k, heq⟩
  have hthis := hcovered.request i _ hrequest
  have hunleased : ∀ x, p.store.Unleased x →
      ({ p.store with providers := (w.apply p.store).2 } : Db).Unleased x := by
    intro x hx row' hrow' k hleased
    cases hrow : p.store.providers.get? x with
    | none =>
        obtain ⟨caps, -, rfl⟩ := w.registered_of_apply hrow hrow'
        cases hleased.1
    | some row =>
        cases hrow'.symm.trans (w.get?_apply hrow)
        rcases ProvidersWrite.edit_leasedFor hleased with hbefore | rfl | ⟨state, gpu, ram, rfl⟩
        · exact hx row hrow k hbefore
        · exact hother x k rfl
        · exact (heartbeat_names_no_job hthis.orderly.issues.1 hthis.agent).elim
  refine ⟨hcovered.store.exec (q := .providers w) rfl,
    .of_nothing (hthis.orderly.answered a) hthis.agent (hthis.orderly.follows.1 a).1,
    fun j r _ hr => (hcovered.request j r hr).mono hunleased, fun link hlink => ?_⟩
  by_cases hcarries : p.store.Carries link.1 link.2
  · rcases hlink with hlinked | hhalf
    · obtain ⟨row, hrow, hleased⟩ := hlinked hcarries
      by_cases hresets : w.Resets p.store.now link.2 row
      · obtain ⟨_, _, _, _, _, hrequest', htreats⟩ :=
          hkeeps link.2 row hrow link.1 hcarries hleased hresets
        cases hrequest.symm.trans hrequest'
        exact .inr ⟨rfl, .inr (htreats a)⟩
      · exact .inl fun _ =>
          ⟨_, w.get?_apply hrow, ProvidersWrite.leasedFor_edit hresets (hother link.2) hleased⟩
    · exact absurd (halfWay_providers hhalf) (hother link.2 link.1)
  · exact .inl fun h => absurd h hcarries

/-- Candidates are available, so they are not leased. -/
theorem candidates_unleased {minRamGb : Int} {maxPrice : ℚ} {row : ProviderId × Provider}
    (hrow : row ∈ (Read.eval s (.candidates minRamGb maxPrice) : List (ProviderId × Provider))) :
    s.Unleased row.1 := by
  obtain ⟨hget, havailable, -⟩ := Read.candidates_found hrow
  intro row' hrow' k hleased
  cases hrow'.symm.trans hget
  rw [hleased.1] at havailable
  cases havailable

/-- Every other statement leaves jobs and providers alone. -/
theorem other_leavesLinked (hcovered : LinksCovered p)
    (hrequest : p.requests[i]? = some ⟨op, begun, .query q next fail⟩) {a : q.Answer}
    (hexec : q.exec p.store = some (a, t)) (hjobs : q.touches .jobs = false)
    (hproviders : q.touches .providers = false) :
    LeavesLinked p i op begun (.query q next fail) (next a) t := by
  have hsameJobs : t.jobs = p.store.jobs := Action.exec_sameIn .jobs hjobs hexec
  have hsameProviders : t.providers = p.store.providers :=
    Action.exec_sameIn .providers hproviders hexec
  have horder := ((hcovered.request i _ hrequest).orderly.follows.1 a).1
  refine leavesLinked_of_sameProviders hcovered hrequest hexec hsameProviders
    (fun k x price restore hhead => ?_) (fun k x hhead => ?_) fun link hcarries hlink => ?_
  · unfold AuctionOrder at horder
    split at horder
    · obtain ⟨row, hrow, _, _, _, heq⟩ := horder _ hhead rfl
      cases heq
      cases hexec
      exact candidates_unleased hrow
    · cases hjobs
    · cases horder _ hhead
  · unfold AuctionOrder at horder
    split at horder
    · obtain ⟨_, _, _, _, _, heq⟩ := horder _ hhead rfl
      cases heq
    · cases hjobs
    · cases horder _ hhead
  · have hcarried : p.store.Carries link.1 link.2 := (Db.Carries.congr hsameJobs).mp hcarries
    rcases hlink with hlinked | hhalf
    · left
      intro _
      rw [hsameProviders]
      exact hlinked hcarried
    · cases q with
      | read r =>
          cases hexec
          exact .inr (halfWay_read hhalf hcarried)
      | jobs w => cases hjobs
      | providers w => cases hproviders
      | _ =>
          obtain ⟨-, hlease | hrequeue | ⟨_, hgiveUp⟩⟩ := hhalf
          · cases hlease
          · cases hrequeue
          · cases hgiveUp

end Statement

theorem linksCovered_of_runs {p p' : Pool Action.Answer Db Operation Unit}
    {es : List (Event Action Db Operation)}
    (hrun : p.Runs Action.exec Db.Shuffled KeepsLinked es p') (hstart : LinksCovered p) :
    LinksCovered p' := by
  refine hrun.covered ?_ ?_ ?_ hstart
  · intro p i op begun q next fail a t hcovered hguard hrequest hexec
    obtain ⟨hturns, hkeeps⟩ := hguard
    show LeavesLinked p i op begun (.query q next fail) (next a) t
    cases q with
    | jobs w =>
        obtain ⟨jobs, happly, heq⟩ := Option.map_eq_some_iff.mp hexec
        cases heq
        exact writeJobs_leavesLinked hcovered hkeeps hrequest happly hexec
    | providers w =>
        cases hexec
        exact writeProviders_leavesLinked hcovered hturns hkeeps hrequest _
    | _ => exact other_leavesLinked hcovered hrequest hexec rfl rfl
  · intro p i op begun q next fail hcovered hguard hrequest
    have hthis := hcovered.request i _ hrequest
    refine ⟨.of_nothing hthis.orderly.failed hthis.agent hthis.orderly.follows.2.1,
      fun link hhalf => ?_⟩
    left
    rcases hguard with ⟨-, hrefused⟩ | hlost
    · -- the statements that link the rows again are not refused
      intro hcarries
      cases q with
      | read r => cases hrefused
      | providers w => cases hrefused
      | jobs w =>
          rcases halfWay_jobs hhalf with rfl | ⟨_, rfl⟩ <;> cases hrefused
      | _ =>
          obtain ⟨-, hlease | hrequeue | ⟨_, hgiveUp⟩⟩ := hhalf
          · cases hlease
          · cases hrequeue
          · cases hgiveUp
    · exact hlost _ hrequest link hhalf
  · intro s t hshuffled
    have hunleased : ∀ p, s.Unleased p → t.Unleased p := by
      intro p hp
      rw [Db.Unleased, ← hshuffled.providers.get?_eq p]
      exact hp
    refine ⟨fun hs => hs.shuffled hshuffled, fun _ r hr => hr.mono hunleased, fun link hlinked => ?_⟩
    intro hcarries
    rw [← hshuffled.providers.get?_eq link.2]
    exact hlinked ((Db.Carries.shuffled hshuffled).mp hcarries)

theorem linksCovered_start {ops : List Operation}
    (hagent : ∀ hb, .sendHeartbeat hb ∈ ops → Agent.FromAgent hb) :
    LinksCovered (Pool.start Operation.program Db.init ops) where
  store := Reachable.consistent .refl
  request := by
    intro i r hr
    obtain ⟨op, hop, rfl⟩ := List.mem_map.mp (List.mem_of_getElem? hr)
    refine .of_nothing (.start op) (fun hb heq => hagent hb ?_) op.program_head
    rw [← heq]
    exact hop
  holds := by
    intro link
    left
    rintro ⟨job, hjob, -⟩
    cases hjob

/-- In every interleaving with the agents' heartbeats whose steps leave linked rows linked, a job in
progress is found from its provider, except while a request is half-way through linking or ending
it. -/
theorem rows_linked {ops : List Operation}
    (hagent : ∀ hb, .sendHeartbeat hb ∈ ops → Agent.FromAgent hb)
    {p : Pool Action.Answer Db Operation Unit} {es : List (Event Action Db Operation)}
    (hrun : (Pool.start Operation.program Db.init ops).Runs Action.exec Db.Shuffled KeepsLinked es p)
    {jobId : JobId} {providerId : ProviderId} (hcarries : p.store.Carries jobId providerId) :
    (∃ row ∈ p.store.providers.get? providerId, row.LeasedFor jobId) ∨
      ∃ r ∈ p.requests, r.HalfWay (jobId, providerId) := by
  rcases (linksCovered_of_runs hrun (linksCovered_start hagent)).holds (jobId, providerId) with
    hlinked | ⟨i, r, hr, hhalf⟩
  · exact .inl (hlinked hcarries)
  · exact .inr ⟨r, List.mem_of_getElem? hr, hhalf⟩

/-- A job that is assigned before the agent's next heartbeat. -/
def heartbeatAfter : List Operation :=
  [topUp "alice" 10, submitHour "a" "alice" 5, registration "p"] ++ Agent.idleAgent.take 2 ++
    [.runAuctionCycle] ++ Agent.idleAgent.drop 2

/-- The heartbeat names no job, and with it the coordinator has lost the job of the provider. -/
theorem heartbeat_unlinks :
    heartbeatAfter.filter Agent.isOfLoop = Agent.idleAgent ∧
      ∃ es p, (Pool.start Operation.program Db.init heartbeatAfter).Runs Action.exec Db.Shuffled
        (fun _ e => e.isLost = false) es p ∧ (∀ r ∈ p.requests, ¬ r.Underway) ∧
        p.store.Carries "a" "p" ∧ ¬ ∃ row ∈ p.store.providers.get? "p", row.LeasedFor "a" := by
  refine ⟨rfl, ?_⟩
  obtain ⟨es, rs, hrs, hrun⟩ := Pool.runs_inOrder Db.Shuffled
    (G := fun _ e => e.isLost = false) (fun _ _ _ _ _ _ _ => rfl) (fun _ _ _ _ _ _ => rfl)
    (eachInOrder_true Operation.program heartbeatAfter Db.init)
  refine ⟨es, _, hrun, hrs, ?_, ?_⟩
  · exact Db.carries_of_columns (s := afterAll heartbeatAfter Db.init)
      (by decide +kernel : _ = some (JobState.assigned, some "p")) rfl
  · rintro ⟨row, hrow, hleased⟩
    have hstate : ((afterAll heartbeatAfter Db.init).providers.get? "p").map Provider.state =
        some .available := by decide +kernel
    rw [show (afterAll heartbeatAfter Db.init).providers.get? "p" = some row from hrow,
      Option.map_some, hleased.1] at hstate
    cases hstate

/-- The provider that is assigned a job is leased for it. -/
theorem rows_linked_assigned :
    ∃ es rs, (Pool.start Operation.program Db.init assigned).Runs Action.exec Db.Shuffled KeepsLinked
        es ⟨afterAll assigned Db.init, rs⟩ ∧
      ((∃ row ∈ (afterAll assigned Db.init).providers.get? "p", row.LeasedFor "a") ∨
        ∃ r ∈ rs, r.HalfWay ("a", "p")) := by
  let Keeps (q : Action) (s : Db) : Prop := q.KeepsLinked s fun _ => False
  have hnew : ∀ {op : Operation} (s : Db), (∀ w, op.WritesJob w →
      (∃ k c spec, w = .insert k c spec) ∨ ∃ k p price restore, w = .assign k p price restore) →
      (∀ w, op.WritesProvider w → ∃ p k, w = .lease p k) →
      op.program.Each Action.exec Keeps s := by
    intro op s hjobs hproviders
    refine .of_uses (fun q s hissues => ?_) s op.program_issues
    cases q with
    | jobs w =>
        exact fun k p hback => absurd hback (JobsWrite.not_bringsBack (hjobs w hissues) k p)
    | providers w =>
        obtain ⟨_, _, rfl⟩ := hproviders w hissues
        exact fun p row _ k _ _ hresets => hresets
    | _ => trivial
  have heach : EachInOrder Action.exec Keeps Operation.program assigned Db.init := by
    refine ⟨hnew _ (fun _ => False.elim) fun _ => False.elim, hnew _ (fun w hw => ?_)
      fun _ => False.elim, ⟨?_, trivial⟩, ⟨?_, trivial⟩, hnew _ (fun w hw => ?_) fun w hw => hw,
      trivial⟩
    · exact .inl ⟨_, _, _, hw⟩
    · -- nothing is in progress yet
      intro p row _ k hcarries
      exact absurd hcarries (Db.not_carries
        (s := afterAll [topUp "alice" 10, submitHour "a" "alice" 5] Db.init) (by decide +kernel) k p)
    · intro p row _ k hcarries
      exact absurd hcarries (Db.not_carries (s := afterAll [topUp "alice" 10,
        submitHour "a" "alice" 5, registration "p"] Db.init) (by decide +kernel) k p)
    · exact .inr hw
  have hguard : ∀ (p : Pool Action.Answer Db Operation Unit) i op q t, p.Alone i →
      Keeps q p.store → KeepsLinked p (.ran i op q p.store t) := by
    intro p i op q t halone hkeeps
    refine ⟨fun _ j r hj hr _ => halone j r hj hr, ?_⟩
    cases q with
    | providers w =>
        exact fun x row hrow k hcarries hleased hresets =>
          (hkeeps x row hrow k hcarries hleased hresets).elim
    | _ => exact hkeeps
  obtain ⟨es, rs, -, hrun⟩ :=
    Pool.runs_inOrder Db.Shuffled hguard (fun _ _ _ _ _ _ => trivial) heach
  refine ⟨es, rs, hrun, rows_linked (fun hb hmem => ?_) hrun ?_⟩
  · have hsent : hb = ⟨"p", "available", 0, 0, ""⟩ := by
      simpa [assigned, topUp, submitHour, registration, agentHeartbeat] using hmem
    rw [hsent]
    exact ⟨⟨.available, rfl⟩, rfl⟩
  · exact Db.carries_of_columns (s := afterAll assigned Db.init)
      (by decide +kernel : _ = some (JobState.assigned, some "p")) rfl

end NeuralMesh
