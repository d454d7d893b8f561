import NeuralMesh.Base.OneAtATime
import NeuralMesh.Coordinator.StaleCheck
import NeuralMesh.System.Assignments

/-!
# The job of a provider that falls silent

The watcher finds a job in progress from the leased row of its provider, once that has been silent
for 120 s. The eviction loop takes the provider offline after 90 s and does not look at its job, so a
job is recovered only if the watcher comes first and keeps the statements that recover it.
-/

namespace NeuralMesh

open Coordinator Program

variable {jobId : JobId} {providerId : ProviderId}

/-- The job is assigned or running. -/
def Db.InProgress (s : Db) (jobId : JobId) : Prop :=
  ∃ job ∈ s.jobs.get? jobId, job.state.inProgress

/-- The provider is leased for the job. -/
def Db.LeasedFor (s : Db) (providerId : ProviderId) (jobId : JobId) : Prop :=
  ∃ row ∈ s.providers.get? providerId, row.LeasedFor jobId

/-- The provider has been silent for longer than the timeout of the watcher. -/
def Db.Silent (s : Db) (providerId : ProviderId) : Prop :=
  ∃ row ∈ s.providers.get? providerId, row.staleAt s.now (seconds providerTimeoutSecs)

/-- What happens beside the two loops while the provider is silent: time passes, and the row of the
job, the row of its provider and the escrow rows of the job stay as they are. -/
structure Db.Spares (jobId : JobId) (providerId : ProviderId) (s t : Db) : Prop where
  now : s.now ≤ t.now
  job : t.jobs.get? jobId = s.jobs.get? jobId
  provider : t.providers.get? providerId = s.providers.get? providerId
  escrow : ∀ (escrowId : EscrowId) (row : Escrow), row.jobId = jobId →
    (t.escrows.get? escrowId = some row ↔ s.escrows.get? escrowId = some row)

/-- No escrow of the job is locked, or one has been paid back by a statement that ran. -/
def Refunded (jobId : JobId) (s : Db) (ran : List Action) : Prop :=
  (∀ escrowId row, s.escrows.get? escrowId = some row → row.jobId = jobId → row.state ≠ .locked) ∨
    ∃ escrowId row, s.escrows.get? escrowId = some row ∧ row.jobId = jobId ∧
      .creditAccounts (.refund escrowId row.consumerId row.lockedNmc) ∈ ran

/-- The job is queued again, or it has failed and is refunded. -/
def Recovered (jobId : JobId) (s : Db) (ran : List Action) : Prop :=
  ∃ job ∈ s.jobs.get? jobId,
    job.state = .queued ∨ job.state = .failed ∧ Refunded jobId s ran

/-- The statement is one of the refund of the job. -/
def Action.Refunds (s : Db) (jobId : JobId) : Action → Prop
  | .read (.lockedEscrowOfJob jobId') => jobId' = jobId
  | .escrows (.release escrowId) | .creditAccounts (.refund escrowId _ _) =>
      ∃ row ∈ s.escrows.get? escrowId, row.jobId = jobId
  | _ => False

/-- An eviction does not find the provider leased for the job in progress. A stale check loses no
statement while the job is in progress and its provider is no longer leased for it, and none of the
job's refund. -/
def StrandsNothing (jobId : JobId) (providerId : ProviderId)
    (p : Pool Action.Answer Db LoopCycle Bool) : Event Action Db LoopCycle → Prop
  | .ran _ _ (.providers (.evict timeout)) before _ =>
      before.InProgress jobId → ∀ row ∈ before.providers.get? providerId, row.LeasedFor jobId →
        row.staleAt before.now timeout = false
  | .lost _ (.checkStale _) q =>
      (p.store.InProgress jobId → p.store.LeasedFor providerId jobId) ∧
        ¬ q.Refunds p.store jobId
  | _ => True

/-- The two loops run side by side, each cycle of the watcher after the one before. -/
def LoopSchedule (p : Pool Action.Answer Db LoopCycle Bool) (e : Event Action Db LoopCycle) : Prop :=
  p.TakesTurns LoopCycle.OfWatcher e

/-- A check that loses no statement while the job is in progress. -/
def Unbroken (jobId : JobId) (i : Nat) (p : Pool Action.Answer Db LoopCycle Bool) :
    Event Action Db LoopCycle → Prop
  | .lost j _ _ => j = i → ¬ p.store.InProgress jobId
  | _ => True

/-! ### What is kept -/

/-- From the first store and what ran there to the second: the job, its escrows and, while the job
is in progress, the lease are kept. -/
structure Kept (jobId : JobId) (providerId : ProviderId) (s t : Db × List Action) : Prop where
  job : ∀ job, s.1.jobs.get? jobId = some job → t.1.jobs.get? jobId = some job
  leased : s.1.InProgress jobId → s.1.LeasedFor providerId jobId → t.1.LeasedFor providerId jobId
  /-- the escrows of the job stay its escrows -/
  escrow : ∀ escrowId row, s.1.escrows.get? escrowId = some row → row.jobId = jobId →
    ∃ row', t.1.escrows.get? escrowId = some row' ∧ row'.jobId = jobId ∧
      row'.consumerId = row.consumerId ∧ row'.lockedNmc = row.lockedNmc
  /-- and none is locked that was not -/
  locked : ∀ escrowId row', t.1.escrows.get? escrowId = some row' → row'.jobId = jobId →
    row'.state = .locked →
      ∃ row, s.1.escrows.get? escrowId = some row ∧ row.jobId = jobId ∧ row.state = .locked
  ran : ∀ q ∈ s.2, q ∈ t.2

namespace Kept

variable {s t : Db × List Action}

theorem inProgress (hkept : Kept jobId providerId s t) (hprogress : s.1.InProgress jobId) :
    t.1.InProgress jobId := by
  obtain ⟨job, hjob, hstate⟩ := hprogress
  exact ⟨job, hkept.job job hjob, hstate⟩

theorem refunded (hkept : Kept jobId providerId s t) (hrefunded : Refunded jobId s.1 s.2) :
    Refunded jobId t.1 t.2 := by
  rcases hrefunded with hnone | ⟨escrowId, row, hrow, hjob, hran⟩
  · left
    intro escrowId row' hrow' hjob' hlocked
    obtain ⟨row, hrow, hjob, hstate⟩ := hkept.locked escrowId row' hrow' hjob' hlocked
    exact hnone escrowId row hrow hjob hstate
  · right
    obtain ⟨row', hrow', hjob', hconsumer, hamount⟩ := hkept.escrow escrowId row hrow hjob
    refine ⟨escrowId, row', hrow', hjob', ?_⟩
    rw [hconsumer, hamount]
    exact hkept.ran _ hran

theorem recovered (hkept : Kept jobId providerId s t) (hrecovered : Recovered jobId s.1 s.2) :
    Recovered jobId t.1 t.2 := by
  obtain ⟨job, hjob, hstate⟩ := hrecovered
  exact ⟨job, hkept.job job hjob, hstate.imp_right fun h => ⟨h.1, hkept.refunded h.2⟩⟩

/-- A statement that writes neither jobs, nor providers, nor escrows. -/
theorem of_spared {s t : Db} {ran : List Action} {q : Action} {a : q.Answer}
    (hexec : q.exec s = some (a, t)) (hjobs : q.touches .jobs = false)
    (hproviders : q.touches .providers = false) (hescrows : q.touches .escrows = false) :
    Kept jobId providerId (s, ran) (t, ran ++ [q]) := by
  have hsameJobs : t.jobs = s.jobs := Action.exec_sameIn .jobs hjobs hexec
  have hsameProviders : t.providers = s.providers := Action.exec_sameIn .providers hproviders hexec
  have hsameEscrows : t.escrows = s.escrows := Action.exec_sameIn .escrows hescrows hexec
  refine ⟨?_, ?_, ?_, ?_, fun q' hq' => List.mem_append_left _ hq'⟩
  · dsimp only
    rw [hsameJobs]
    exact fun _ hjob => hjob
  · dsimp only [Db.LeasedFor]
    rw [hsameProviders]
    exact fun _ hleased => hleased
  · dsimp only
    rw [hsameEscrows]
    exact fun _ row hrow hjob => ⟨row, hrow, hjob, rfl, rfl⟩
  · dsimp only
    rw [hsameEscrows]
    exact fun _ row hrow hjob hlocked => ⟨row, hrow, hjob, hlocked⟩

theorem of_spares {s t : Db} {ran : List Action} (hspares : s.Spares jobId providerId t) :
    Kept jobId providerId (s, ran) (t, ran) where
  job := by
    intro job hjob
    rw [hspares.job]
    exact hjob
  leased := by
    intro _ hleased
    rw [Db.LeasedFor, hspares.provider]
    exact hleased
  escrow := fun escrowId row hrow hjob =>
    ⟨row, (hspares.escrow escrowId row hjob).mpr hrow, hjob, rfl, rfl⟩
  locked := fun escrowId row hrow hjob hlocked =>
    ⟨row, (hspares.escrow escrowId row hjob).mp hrow, hjob, hlocked⟩
  ran := fun _ hq => hq

/-- A write of a job that leaves this one alone. -/
theorem of_jobs {s : Db} {ran : List Action} {w : JobsWrite} {jobs : Table JobId Job}
    (hjob : jobs.get? jobId = s.jobs.get? jobId) :
    Kept jobId providerId (s, ran) ({ s with jobs }, ran ++ [.jobs w]) where
  job := by
    intro job hrow
    exact hjob.trans hrow
  leased := fun _ hleased => hleased
  escrow := fun _ row hrow hof => ⟨row, hrow, hof, rfl, rfl⟩
  locked := fun _ row hrow hof hlocked => ⟨row, hrow, hof, hlocked⟩
  ran := fun _ hq => List.mem_append_left _ hq

/-- A write of a provider that, while the job is in progress, leaves the lease. -/
theorem of_providers {s : Db} {ran : List Action} {w : ProvidersWrite}
    (hleased : s.InProgress jobId → ∀ row, s.providers.get? providerId = some row →
      row.LeasedFor jobId → (w.edit s.now providerId row).LeasedFor jobId) :
    Kept jobId providerId (s, ran)
      ({ s with providers := (w.apply s).2 }, ran ++ [.providers w]) where
  job := fun _ hjob => hjob
  leased := by
    rintro hprogress ⟨row, hrow, hbefore⟩
    exact ⟨_, w.get?_apply hrow, hleased hprogress row hrow hbefore⟩
  escrow := fun _ row hrow hof => ⟨row, hrow, hof, rfl, rfl⟩
  locked := fun _ row hrow hof hlocked => ⟨row, hrow, hof, hlocked⟩
  ran := fun _ hq => List.mem_append_left _ hq

theorem of_release {s : Db} {ran : List Action} (released : EscrowId) :
    Kept jobId providerId (s, ran)
      ({ s with escrows := s.escrows.update released .release }, ran ++ [.escrows (.release released)])
    where
  job := fun _ hjob => hjob
  leased := fun _ hleased => hleased
  escrow := by
    intro escrowId row hrow hof
    dsimp only
    rw [Table.get?_update]
    split
    · rename_i heq
      rw [← heq, hrow]
      exact ⟨row.release, rfl, hof, rfl, rfl⟩
    · exact ⟨row, hrow, hof, rfl, rfl⟩
  locked := by
    intro escrowId row' hrow' hof hlocked
    rcases Table.get?_update_cases hrow' with ⟨row, -, -, rfl⟩ | ⟨-, hold⟩
    · cases hlocked
    · exact ⟨row', hold, hof, hlocked⟩
  ran := fun _ hq => List.mem_append_left _ hq

end Kept

/-! ### A stale check -/

namespace Coordinator.Stage

/-- The check is about to look the job up or to end it. -/
def Treats (jobId : JobId) : Stage → Prop
  | look jobId' _ | requeue jobId' | giveUp jobId' _ _ => jobId' = jobId
  | _ => False

/-- The next statement ends the job, whatever its state. -/
def Ends (jobId : JobId) : Stage → Prop
  | requeue jobId' | giveUp jobId' _ _ => jobId' = jobId
  | _ => False

/-- The check has given the job up and is refunding it. -/
def Refunds (jobId : JobId) : Stage → Prop
  | refund jobId' _ | release jobId' _ _ _ | pay jobId' _ _ _ => jobId' = jobId
  | _ => False

/-- The escrow the refund has read is one of the job. -/
def RefundOf (jobId : JobId) (s : Db) : Stage → Prop
  | release _ _ escrowId escrow | pay _ _ escrowId escrow =>
      ∃ row, s.escrows.get? escrowId = some row ∧ row.jobId = jobId ∧
        row.consumerId = escrow.consumerId ∧ row.lockedNmc = escrow.lockedNmc
  | _ => True

end Coordinator.Stage

/-- What a check that is underway knows of the job: it is recovered; or it is in progress, and the
check will treat it unless the provider is still leased for it and may be left to the next check; or
the check has given it up and is refunding it. -/
inductive Knows (jobId : JobId) (providerId : ProviderId) (s : Db × List Action) (mayLeave : Prop)
    (rows : List (ProviderId × Option JobId)) (stage : Stage) : Prop
  | recovered (hrecovered : Recovered jobId s.1 s.2) (hstage : ¬ stage.Ends jobId)
  | inProgress (hprogress : s.1.InProgress jobId)
      (hrows : ∀ k, (providerId, k) ∈ rows → k = some jobId) (hstage : ¬ stage.Refunds jobId)
      (hfound : stage.Treats jobId ∨ (providerId, some jobId) ∈ rows ∨
        mayLeave ∧ s.1.LeasedFor providerId jobId)
  | refunding (hfailed : ∃ job ∈ s.1.jobs.get? jobId, job.state = .failed)
      (hstage : stage.Refunds jobId) (hescrow : stage.RefundOf jobId s.1)

namespace Knows

variable {s t : Db × List Action} {mayLeave : Prop} {rows : List (ProviderId × Option JobId)}
  {stage : Stage}

theorem mono (hkept : Kept jobId providerId s t)
    (hknows : Knows jobId providerId s mayLeave rows stage) :
    Knows jobId providerId t mayLeave rows stage := by
  cases hknows with
  | recovered hrecovered hstage => exact .recovered (hkept.recovered hrecovered) hstage
  | inProgress hprogress hrows hstage hfound =>
      exact .inProgress (hkept.inProgress hprogress) hrows hstage
        (hfound.imp_right (Or.imp_right fun h => ⟨h.1, hkept.leased hprogress h.2⟩))
  | refunding hfailed hstage hescrow =>
      obtain ⟨job, hjob, hstate⟩ := hfailed
      refine .refunding ⟨job, hkept.job job hjob, hstate⟩ hstage ?_
      cases stage with
      | release _ _ _ _ | pay _ _ _ _ =>
          obtain ⟨row, hrow, hjob, hconsumer, hamount⟩ := hescrow
          obtain ⟨row', hrow', hjob', hconsumer', hamount'⟩ := hkept.escrow _ row hrow hjob
          exact ⟨row', hrow', hjob', hconsumer'.trans hconsumer, hamount'.trans hamount⟩
      | _ => trivial

/-- The check moves on without having touched the job. -/
theorem move {stage' : Stage} (hends : ¬ stage'.Ends jobId) (hrefunds : ¬ stage'.Refunds jobId)
    (hnot : ¬ stage.Refunds jobId) (htreats : stage.Treats jobId → stage'.Treats jobId)
    (hknows : Knows jobId providerId s mayLeave rows stage) :
    Knows jobId providerId s mayLeave rows stage' := by
  cases hknows with
  | recovered hrecovered _ => exact .recovered hrecovered hends
  | inProgress hprogress hrows _ hfound =>
      exact .inProgress hprogress hrows hrefunds (hfound.imp_left htreats)
  | refunding _ hstage _ => exact absurd hstage hnot

end Knows

theorem Recovered.not_inProgress {s : Db} {ran : List Action} (hrecovered : Recovered jobId s ran) :
    ¬ s.InProgress jobId := by
  rintro ⟨job, hjob, hprogress⟩
  obtain ⟨job', hjob', hstate⟩ := hrecovered
  cases hjob.symm.trans hjob'
  rcases hstate with hqueued | ⟨hfailed, -⟩
  · rw [hqueued] at hprogress
    cases hprogress
  · rw [hfailed] at hprogress
    cases hprogress

/-- A check is at this point of its program, and knows of the job what it needs to. -/
def CheckAt (jobId : JobId) (providerId : ProviderId) (mayLeave : Prop) (rest : Cycle)
    (s : Db × List Action) : Prop :=
  ∃ txIds n txId rows stage, rest = Stage.program txId (migrateStale txIds n rows) stage ∧
    Knows jobId providerId s mayLeave rows stage

/-- What a statement of a check leaves. -/
def CheckLeaves (jobId : JobId) (providerId : ProviderId) (mayLeave : Prop) (rest : Cycle)
    (s t : Db × List Action) : Prop :=
  CheckAt jobId providerId mayLeave rest t ∧
    (Recovered jobId s.1 s.2 → Recovered jobId t.1 t.2)

section Stages

variable {mayLeave : Prop} {s : Db} {ran : List Action} {txIds : Nat → TxId} {n : Nat} {txId : TxId}
  {rows : List (ProviderId × Option JobId)}

variable (txId) in
theorem CheckLeaves.of_kept {t : Db × List Action} {stage : Stage}
    (hknows : Knows jobId providerId (s, ran) mayLeave rows stage)
    (hkept : Kept jobId providerId (s, ran) t) (stage' : Stage) (hends : ¬ stage'.Ends jobId)
    (hrefunds : ¬ stage'.Refunds jobId) (hnot : ¬ stage.Refunds jobId)
    (htreats : stage.Treats jobId → stage'.Treats jobId) :
    CheckLeaves jobId providerId mayLeave (stage'.program txId (migrateStale txIds n rows)) (s, ran)
      t :=
  ⟨⟨txIds, n, txId, rows, stage', rfl, (hknows.mono hkept).move hends hrefunds hnot htreats⟩,
    hkept.recovered⟩

variable (txId) in
/-- The provider of the row is taken offline. -/
theorem scan_leaves {x : ProviderId} {k : Option JobId}
    (hknows : Knows jobId providerId (s, ran) mayLeave ((x, k) :: rows) .scan) :
    CheckLeaves jobId providerId mayLeave
      ((Stage.ofRow x k).program txId (migrateStale txIds n rows)) (s, ran)
      ({ s with providers := (ProvidersWrite.apply s (.offline x)).2 },
        ran ++ [.providers (.offline x)]) := by
  have hends : ¬ (Stage.ofRow x k).Ends jobId := by cases k <;> exact id
  have hrefunds : ¬ (Stage.ofRow x k).Refunds jobId := by cases k <;> exact id
  have hstage : ∀ {t : Db × List Action}, Knows jobId providerId t mayLeave rows (Stage.ofRow x k) →
      CheckAt jobId providerId mayLeave
        ((Stage.ofRow x k).program txId (migrateStale txIds n rows)) t :=
    fun hknows' => ⟨txIds, n, txId, rows, _, rfl, hknows'⟩
  cases hknows with
  | recovered hrecovered _ =>
      have hkept : Kept jobId providerId (s, ran) (_, ran ++ [.providers (.offline x)]) :=
        .of_providers fun hprogress => absurd hprogress hrecovered.not_inProgress
      exact ⟨hstage (.recovered (hkept.recovered hrecovered) hends), hkept.recovered⟩
  | inProgress hprogress hrows _ hfound =>
      refine ⟨hstage ?_, fun hrecovered => absurd hprogress hrecovered.not_inProgress⟩
      have hrows' : ∀ k, (providerId, k) ∈ rows → k = some jobId :=
        fun k hk => hrows k (List.mem_cons_of_mem _ hk)
      by_cases hx : x = providerId
      · subst hx
        obtain rfl : k = some jobId := hrows k List.mem_cons_self
        exact .inProgress hprogress hrows' hrefunds (.inl rfl)
      · have hkept : Kept jobId providerId (s, ran)
            ({ s with providers := (ProvidersWrite.apply s (.offline x)).2 },
              ran ++ [.providers (.offline x)]) := by
          refine .of_providers fun _ row _ hleased => ?_
          rw [ProvidersWrite.edit, if_neg (Ne.symm hx)]
          exact hleased
        refine .inProgress hprogress hrows' hrefunds (.inr ?_)
        rcases hfound with htreated | hmem | ⟨hleave, hleased⟩
        · exact htreated.elim
        · left
          rcases List.mem_cons.mp hmem with heq | hmem
          · exact absurd (congrArg Prod.fst heq).symm hx
          · exact hmem
        · exact .inr ⟨hleave, hkept.leased hprogress hleased⟩
  | refunding _ hstage _ => exact hstage.elim

/-- The check looks the job up. -/
theorem look_leaves {k : JobId} {x : ProviderId}
    (hknows : Knows jobId providerId (s, ran) mayLeave rows (.look k x)) :
    CheckLeaves jobId providerId mayLeave
      (match s.jobs.get? k with
        | none => migrateStale txIds n rows
        | some job =>
            if !job.state.inProgress then migrateStale txIds n rows
            else if restorable job then
              askOr false (.jobs (.requeue k)) fun _ => migrateStale txIds n rows
            else
              askOr false (.jobs (.giveUp k (failureReason job))) fun _ =>
              refundConsumerEscrow txId k <|
              attempt (.providers (.penalize x)) (migrateStale txIds n rows))
      (s, ran) (s, ran ++ [.read (.job k)]) := by
  have hkept : Kept jobId providerId (s, ran) (s, ran ++ [.read (.job k)]) :=
    .of_spared (q := .read (.job k)) rfl rfl rfl rfl
  -- the job looked up is another, or it is not in progress and so has been recovered
  have hscan : (k = jobId → ¬ s.InProgress jobId) →
      CheckLeaves jobId providerId mayLeave (migrateStale txIds n rows) (s, ran)
        (s, ran ++ [.read (.job k)]) := by
    intro hnot
    refine ⟨⟨txIds, n, txId, rows, .scan, rfl, ?_⟩, hkept.recovered⟩
    cases hknows with
    | recovered hrecovered _ => exact .recovered (hkept.recovered hrecovered) id
    | inProgress hprogress hrows _ hfound =>
        refine .inProgress hprogress hrows id (.inr (hfound.resolve_left fun hk => ?_))
        exact hnot hk hprogress
    | refunding _ hstage _ => exact hstage.elim
  have hends : ∀ (stage : Stage) {job : Job}, s.jobs.get? k = some job → job.state.inProgress →
      (stage.Ends jobId → k = jobId) → (k = jobId → stage.Treats jobId) → ¬ stage.Refunds jobId →
      CheckLeaves jobId providerId mayLeave (stage.program txId (migrateStale txIds n rows)) (s, ran)
        (s, ran ++ [.read (.job k)]) := by
    intro stage job hjob hprogress hends htreats hrefunds
    refine ⟨⟨txIds, n, txId, rows, stage, rfl, ?_⟩, hkept.recovered⟩
    cases hknows with
    | recovered hrecovered _ =>
        refine .recovered (hkept.recovered hrecovered) fun hstage => ?_
        exact hrecovered.not_inProgress ⟨job, hends hstage ▸ hjob, hprogress⟩
    | inProgress hprogress hrows _ hfound =>
        exact .inProgress hprogress hrows hrefunds (hfound.imp_left htreats)
    | refunding _ hstage _ => exact hstage.elim
  cases hjob : s.jobs.get? k with
  | none =>
      refine hscan ?_
      rintro rfl ⟨job, hjob', -⟩
      cases hjob.symm.trans hjob'
  | some job =>
      dsimp only
      cases hstate : job.state.inProgress with
      | false =>
          rw [Bool.not_false, if_pos rfl]
          refine hscan ?_
          rintro rfl ⟨job', hjob', hprogress⟩
          cases hjob.symm.trans hjob'
          rw [hstate] at hprogress
          cases hprogress
      | true =>
          rw [Bool.not_true, if_neg Bool.false_ne_true]
          split
          · exact hends (.requeue k) hjob hstate id id id
          · exact hends (.giveUp k x (failureReason job)) hjob hstate id id id

/-- The job is queued again. -/
theorem requeue_leaves {k : JobId}
    (hknows : Knows jobId providerId (s, ran) mayLeave rows (.requeue k)) :
    CheckLeaves jobId providerId mayLeave (migrateStale txIds n rows) (s, ran)
      ({ s with jobs := s.jobs.update k .requeue }, ran ++ [.jobs (.requeue k)]) := by
  by_cases hk : k = jobId
  · subst hk
    cases hknows with
    | recovered _ hstage => exact absurd rfl hstage
    | inProgress hprogress _ _ _ =>
        obtain ⟨job, hjob, hstate⟩ := hprogress
        have hrecovered : Recovered k ({ s with jobs := s.jobs.update k .requeue } : Db)
            (ran ++ [.jobs (.requeue k)]) := by
          refine ⟨job.requeue, ?_, .inl rfl⟩
          rw [Table.get?_update, if_pos rfl, show s.jobs.get? k = some job from hjob]
          rfl
        exact ⟨⟨txIds, n, "", rows, .scan, rfl, .recovered hrecovered id⟩, fun _ => hrecovered⟩
    | refunding _ hstage _ => exact hstage.elim
  · have hsame : (s.jobs.update k .requeue).get? jobId = s.jobs.get? jobId := by
      rw [Table.get?_update, if_neg (Ne.symm hk)]
    have hkept : Kept jobId providerId (s, ran)
        ({ s with jobs := s.jobs.update k .requeue }, ran ++ [.jobs (.requeue k)]) := .of_jobs hsame
    exact .of_kept "" hknows hkept .scan id id id hk

/-- The job has failed; its refund is next. -/
theorem giveUp_leaves {k : JobId} {x : ProviderId} {reason : String}
    (hknows : Knows jobId providerId (s, ran) mayLeave rows (.giveUp k x reason)) :
    CheckLeaves jobId providerId mayLeave
      ((Stage.refund k x).program txId (migrateStale txIds n rows)) (s, ran)
      ({ s with jobs := s.jobs.update k (.giveUp s.now reason) },
        ran ++ [.jobs (.giveUp k reason)]) := by
  by_cases hk : k = jobId
  · subst hk
    cases hknows with
    | recovered _ hstage => exact absurd rfl hstage
    | inProgress hprogress _ _ _ =>
        refine ⟨⟨txIds, n, txId, rows, .refund k x, rfl, .refunding ?_ rfl trivial⟩,
          fun hrecovered => absurd hprogress hrecovered.not_inProgress⟩
        obtain ⟨job, hjob, hstate⟩ := hprogress
        refine ⟨job.giveUp s.now reason, ?_, rfl⟩
        rw [Table.get?_update, if_pos rfl, show s.jobs.get? k = some job from hjob]
        rfl
    | refunding _ hstage _ => exact hstage.elim
  · have hsame : (s.jobs.update k (.giveUp s.now reason)).get? jobId = s.jobs.get? jobId := by
      rw [Table.get?_update, if_neg (Ne.symm hk)]
    have hkept : Kept jobId providerId (s, ran)
        ({ s with jobs := s.jobs.update k (.giveUp s.now reason) }, ran ++ [.jobs (.giveUp k reason)]) :=
      .of_jobs hsame
    exact .of_kept txId hknows hkept (.refund k x) id hk id hk

theorem Recovered.of_failed {s : Db} {ran : List Action}
    (hfailed : ∃ job ∈ s.jobs.get? jobId, job.state = .failed) (hrefunded : Refunded jobId s ran) :
    Recovered jobId s ran := by
  obtain ⟨job, hjob, hstate⟩ := hfailed
  exact ⟨job, hjob, .inr ⟨hstate, hrefunded⟩⟩

/-- The locked escrow is read, or none is locked. -/
theorem refund_leaves {k : JobId} {x : ProviderId}
    (hknows : Knows jobId providerId (s, ran) mayLeave rows (.refund k x)) :
    CheckLeaves jobId providerId mayLeave
      (match firstLocked s.escrows k with
        | none => (Stage.penalize x).program txId (migrateStale txIds n rows)
        | some (escrowId, escrow) =>
            (Stage.release k x escrowId escrow).program txId (migrateStale txIds n rows))
      (s, ran) (s, ran ++ [.read (.lockedEscrowOfJob k)]) := by
  have hkept : Kept jobId providerId (s, ran) (s, ran ++ [.read (.lockedEscrowOfJob k)]) :=
    .of_spared (q := .read (.lockedEscrowOfJob k)) rfl rfl rfl rfl
  by_cases hk : k = jobId
  · subst hk
    cases hfound : firstLocked s.escrows k with
    | none =>
        refine ⟨⟨txIds, n, txId, rows, .penalize x, rfl, ?_⟩, hkept.recovered⟩
        cases hknows with
        | recovered hrecovered _ => exact .recovered (hkept.recovered hrecovered) id
        | inProgress _ _ hstage _ => exact absurd rfl hstage
        | refunding hfailed _ _ =>
            refine .recovered (.of_failed hfailed (.inl ?_)) id
            intro escrowId row hrow hof hlocked
            have hnone := List.find?_eq_none.mp hfound (escrowId, row) (Table.mem_rows_iff.mpr hrow)
            exact hnone (decide_eq_true ⟨hof, hlocked⟩)
    | some found =>
        obtain ⟨escrowId, escrow⟩ := found
        refine ⟨⟨txIds, n, txId, rows, .release k x escrowId escrow, rfl, ?_⟩, hkept.recovered⟩
        cases hknows with
        | recovered hrecovered _ => exact .recovered (hkept.recovered hrecovered) id
        | inProgress _ _ hstage _ => exact absurd rfl hstage
        | refunding hfailed _ _ =>
            have hrow := Table.mem_rows_iff.mp (List.mem_of_find?_eq_some hfound)
            have hof : escrow.jobId = k ∧ escrow.state = .locked :=
              of_decide_eq_true (List.find?_some (p := fun row : EscrowId × Escrow =>
                decide (row.2.jobId = k ∧ row.2.state = .locked)) hfound)
            exact .refunding hfailed rfl ⟨escrow, hrow, hof.1, rfl, rfl⟩
  · cases firstLocked s.escrows k with
    | none => exact .of_kept txId hknows hkept (.penalize x) id id hk id
    | some found => exact .of_kept txId hknows hkept (.release k x found.1 found.2) id hk hk id

/-- The escrow is released; it is still the job's. -/
theorem release_leaves {k : JobId} {x : ProviderId} {escrowId : EscrowId} {escrow : Escrow}
    (hknows : Knows jobId providerId (s, ran) mayLeave rows (.release k x escrowId escrow)) :
    CheckLeaves jobId providerId mayLeave
      ((Stage.pay k x escrowId escrow).program txId (migrateStale txIds n rows)) (s, ran)
      ({ s with escrows := s.escrows.update escrowId .release },
        ran ++ [.escrows (.release escrowId)]) := by
  have hkept : Kept jobId providerId (s, ran)
      ({ s with escrows := s.escrows.update escrowId .release },
        ran ++ [.escrows (.release escrowId)]) := .of_release escrowId
  refine ⟨⟨txIds, n, txId, rows, .pay k x escrowId escrow, rfl, ?_⟩, hkept.recovered⟩
  cases hknows.mono hkept with
  | recovered hrecovered _ => exact .recovered hrecovered id
  | inProgress hprogress hrows hstage hfound => exact .inProgress hprogress hrows hstage hfound
  | refunding hfailed hstage hescrow => exact .refunding hfailed hstage hescrow

/-- The amount is paid back. -/
theorem pay_leaves {t : Db} {k : JobId} {x : ProviderId} {escrowId : EscrowId} {escrow : Escrow}
    {a : Nat}
    (hexec : Action.exec (.creditAccounts (.refund escrowId escrow.consumerId escrow.lockedNmc)) s =
      some (a, t))
    (hknows : Knows jobId providerId (s, ran) mayLeave rows (.pay k x escrowId escrow)) :
    CheckLeaves jobId providerId mayLeave
      ((Stage.record k x escrow).program txId (migrateStale txIds n rows)) (s, ran)
      (t, ran ++ [.creditAccounts (.refund escrowId escrow.consumerId escrow.lockedNmc)]) := by
  have hkept : Kept jobId providerId (s, ran)
      (t, ran ++ [.creditAccounts (.refund escrowId escrow.consumerId escrow.lockedNmc)]) :=
    .of_spared hexec rfl rfl rfl
  refine ⟨⟨txIds, n, txId, rows, .record k x escrow, rfl, ?_⟩, hkept.recovered⟩
  cases hknows.mono hkept with
  | recovered hrecovered _ => exact .recovered hrecovered id
  | inProgress hprogress hrows _ hfound => exact .inProgress hprogress hrows id hfound
  | refunding hfailed _ hescrow =>
      obtain ⟨row, hrow, hof, hconsumer, hamount⟩ := hescrow
      refine .recovered (.of_failed hfailed (.inr ⟨escrowId, row, hrow, hof, ?_⟩)) id
      rw [hconsumer, hamount]
      exact List.mem_append_right _ List.mem_cons_self

/-- The provider is still leased, or not, as it was. -/
theorem penalize_leaves {x : ProviderId}
    (hknows : Knows jobId providerId (s, ran) mayLeave rows (.penalize x)) :
    CheckLeaves jobId providerId mayLeave (migrateStale txIds n rows) (s, ran)
      ({ s with providers := (ProvidersWrite.apply s (.penalize x)).2 },
        ran ++ [.providers (.penalize x)]) := by
  have hkept : Kept jobId providerId (s, ran)
      ({ s with providers := (ProvidersWrite.apply s (.penalize x)).2 },
        ran ++ [.providers (.penalize x)]) := by
    refine .of_providers fun _ row _ hleased => ?_
    rw [ProvidersWrite.edit]
    split <;> exact hleased
  exact .of_kept "" hknows hkept .scan id id id id

end Stages

namespace CheckAt

variable {mayLeave : Prop} {s t : Db} {ran : List Action} {q : Action}
  {next : q.Answer → Cycle} {fail : Cycle}

/-- A statement of a check, whichever it is. -/
theorem ran_leaves (hat : CheckAt jobId providerId mayLeave (.query q next fail) (s, ran))
    {a : q.Answer} (hexec : q.exec s = some (a, t)) :
    CheckLeaves jobId providerId mayLeave (next a) (s, ran) (t, ran ++ [q]) := by
  obtain ⟨txIds, n, txId, rows, stage, hrest, hknows⟩ := hat
  cases stage with
  | scan =>
      cases rows with
      | nil => cases hrest
      | cons row rows =>
          obtain ⟨x, k⟩ := row
          cases hrest
          cases hexec
          cases k <;> exact scan_leaves (txIds n) hknows
  | look k x =>
      cases hrest
      cases hexec
      exact look_leaves hknows
  | requeue k =>
      cases hrest
      cases hexec
      exact requeue_leaves hknows
  | giveUp k x reason =>
      cases hrest
      cases hexec
      exact giveUp_leaves hknows
  | refund k x =>
      cases hrest
      cases hexec
      exact refund_leaves hknows
  | release k x escrowId escrow =>
      cases hrest
      cases hexec
      exact release_leaves hknows
  | pay k x escrowId escrow =>
      cases hrest
      exact pay_leaves hexec hknows
  | record k x escrow =>
      cases hrest
      exact .of_kept txId hknows (.of_spared hexec rfl rfl rfl) (.penalize x) id id id id
  | penalize x =>
      cases hrest
      cases hexec
      exact penalize_leaves hknows

/-- What a check that fails a statement leaves: it goes on, or it ends; then the provider is still
leased for the job, or the job is recovered, as it is if the check may not leave it. -/
def Abandons (jobId : JobId) (providerId : ProviderId) (mayLeave : Prop) (rest : Cycle)
    (s : Db × List Action) : Prop :=
  CheckAt jobId providerId mayLeave rest s ∨
    (∃ ok, rest = done ok) ∧
      (mayLeave ∧ s.1.InProgress jobId ∧ s.1.LeasedFor providerId jobId ∨ Recovered jobId s.1 s.2)

/-- A statement that fails was refused, and does not matter then, or it was lost where that is
allowed. -/
theorem failed_leaves (hat : CheckAt jobId providerId mayLeave (.query q next fail) (s, ran))
    (hfailed : q.exec s = none ∨
      (s.InProgress jobId → mayLeave ∧ s.LeasedFor providerId jobId) ∧ ¬ q.Refunds s jobId) :
    Abandons jobId providerId mayLeave fail (s, ran) := by
  obtain ⟨txIds, n, txId, rows, stage, hrest, hknows⟩ := hat
  have hends : ¬ stage.Refunds jobId →
      (s.InProgress jobId → mayLeave ∧ s.LeasedFor providerId jobId) →
      Abandons jobId providerId mayLeave (done false) (s, ran) := by
    intro hstage hleased
    refine .inr ⟨⟨false, rfl⟩, ?_⟩
    cases hknows with
    | recovered hrecovered _ => exact .inr hrecovered
    | inProgress hprogress _ _ _ =>
        exact .inl ⟨(hleased hprogress).1, hprogress, (hleased hprogress).2⟩
    | refunding _ hrefunds _ => exact absurd hrefunds hstage
  have hgoesOn : ∀ stage' : Stage, (stage.Refunds jobId → ¬ stage.RefundOf jobId s) →
      (stage.Treats jobId → stage'.Treats jobId) → ¬ stage'.Ends jobId → ¬ stage'.Refunds jobId →
      Abandons jobId providerId mayLeave (stage'.program txId (migrateStale txIds n rows))
        (s, ran) := by
    intro stage' hnot htreats hends hrefunds
    refine .inl ⟨txIds, n, txId, rows, stage', rfl, ?_⟩
    cases hknows with
    | recovered hrecovered _ => exact .recovered hrecovered hends
    | inProgress hprogress hrows _ hfound =>
        exact .inProgress hprogress hrows hrefunds (hfound.imp_left htreats)
    | refunding _ hstage hescrow => exact absurd hescrow (hnot hstage)
  cases stage with
  | scan =>
      cases rows with
      | nil => cases hrest
      | cons row rows =>
          cases hrest
          rcases hfailed with hrefused | ⟨hleased, -⟩
          · cases hrefused
          · exact hends id hleased
  | look k x =>
      cases hrest
      rcases hfailed with hrefused | ⟨hleased, -⟩
      · cases hrefused
      · exact hends id hleased
  | requeue k =>
      cases hrest
      rcases hfailed with hrefused | ⟨hleased, -⟩
      · cases hrefused
      · exact hends id hleased
  | giveUp k x reason =>
      cases hrest
      rcases hfailed with hrefused | ⟨hleased, -⟩
      · cases hrefused
      · exact hends id hleased
  | refund k x =>
      cases hrest
      rcases hfailed with hrefused | ⟨-, hother⟩
      · cases hrefused
      · exact hgoesOn (.penalize x) (fun hk => absurd hk hother) id id id
  | release k x escrowId escrow =>
      cases hrest
      rcases hfailed with hrefused | ⟨-, hother⟩
      · cases hrefused
      · refine hgoesOn (.penalize x) (fun _ hescrow => ?_) id id id
        obtain ⟨row, hrow, hof, -⟩ := hescrow
        exact hother ⟨row, hrow, hof⟩
  | pay k x escrowId escrow =>
      cases hrest
      rcases hfailed with hrefused | ⟨-, hother⟩
      · cases hrefused
      · refine hgoesOn (.penalize x) (fun _ hescrow => ?_) id id id
        obtain ⟨row, hrow, hof, -⟩ := hescrow
        exact hother ⟨row, hrow, hof⟩
  | record k x escrow =>
      cases hrest
      exact hgoesOn (.penalize x) False.elim id id id
  | penalize x =>
      cases hrest
      exact hgoesOn .scan False.elim id id id

/-- A check writes a provider to take it offline or to penalize it. -/
theorem writes_provider (hat : CheckAt jobId providerId mayLeave (.query q next fail) (s, ran))
    {w : ProvidersWrite} (hq : q = .providers w) : ∃ x, w = .offline x ∨ w = .penalize x := by
  obtain ⟨txIds, n, txId, rows, stage, hrest, -⟩ := hat
  cases stage with
  | scan =>
      cases rows with
      | nil => cases hrest
      | cons row rows =>
          cases hrest
          cases hq
          exact ⟨row.1, .inl rfl⟩
  | penalize x =>
      cases hrest
      cases hq
      exact ⟨x, .inr rfl⟩
  | _ =>
      cases hrest
      cases hq

/-- A check that has returned has recovered the job, or left it where the next one finds it. -/
theorem of_done {s : Db × List Action} {ok : Bool}
    (hat : CheckAt jobId providerId mayLeave (done ok) s) :
    mayLeave ∧ s.1.InProgress jobId ∧ s.1.LeasedFor providerId jobId ∨
      Recovered jobId s.1 s.2 := by
  obtain ⟨txIds, n, txId, rows, stage, hrest, hknows⟩ := hat
  cases stage with
  | scan =>
      cases rows with
      | cons row rows => cases hrest
      | nil =>
          cases hknows with
          | recovered hrecovered _ => exact .inr hrecovered
          | inProgress hprogress _ _ hfound =>
              rcases hfound with htreats | hmem | ⟨hleave, hleased⟩
              · exact htreats.elim
              · cases hmem
              · exact .inl ⟨hleave, hprogress, hleased⟩
          | refunding _ hstage _ => exact hstage.elim
  | _ => cases hrest

end CheckAt

/-! ### All requests -/

/-- The job is in progress and the next check will find it, or it is recovered. -/
def Findable (jobId : JobId) (providerId : ProviderId) (s : Db × List Action) : Prop :=
  s.1.InProgress jobId ∧ s.1.LeasedFor providerId jobId ∨ Recovered jobId s.1 s.2

/-- What request `i` has left to do; the watched one, if any, is a check that may not leave the
job. -/
inductive Tracks (jobId : JobId) (providerId : ProviderId) (watched : Option Nat) (i : Nat)
    (s : Db × List Action) : Request Action.Answer LoopCycle Bool → Prop
  | eviction {begun : Bool} {rest : Cycle}
      (huses : rest.Uses fun q => q = .providers (.evict (seconds 90))) (hother : watched ≠ some i) :
      Tracks jobId providerId watched i s ⟨.evictStale, begun, rest⟩
  | fresh (txIds : Nat → TxId) :
      Tracks jobId providerId watched i s ⟨.checkStale txIds, false, checkStaleProviders txIds⟩
  | ended (txIds : Nat → TxId) (ok : Bool) (hrecovered : watched = some i → Recovered jobId s.1 s.2) :
      Tracks jobId providerId watched i s ⟨.checkStale txIds, true, done ok⟩
  | underway (txIds : Nat → TxId) {rest : Cycle}
      (hat : CheckAt jobId providerId (watched ≠ some i) rest s) :
      Tracks jobId providerId watched i s ⟨.checkStale txIds, true, rest⟩

/-- The job can be found, or a check that is underway takes care of it. -/
abbrev JobCovered (jobId : JobId) (providerId : ProviderId) (watched : Option Nat)
    (p : Pool Action.Answer (Db × List Action) LoopCycle Bool) : Prop :=
  p.Covered (fun s => watched.isSome → s.1.Silent providerId)
    (fun i r s => Tracks jobId providerId watched i s r)
    (fun (_ : Unit) s => Findable jobId providerId s) fun _ r => r.op.OfWatcher ∧ r.Underway

section Requests

variable {watched : Option Nat} {i : Nat} {s t : Db × List Action}
  {r : Request Action.Answer LoopCycle Bool}

theorem Findable.mono (hkept : Kept jobId providerId s t) (hfound : Findable jobId providerId s) :
    Findable jobId providerId t := by
  rcases hfound with ⟨hprogress, hleased⟩ | hrecovered
  · exact .inl ⟨hkept.inProgress hprogress, hkept.leased hprogress hleased⟩
  · exact .inr (hkept.recovered hrecovered)

theorem Tracks.mono (hkept : Kept jobId providerId s t)
    (htracks : Tracks jobId providerId watched i s r) : Tracks jobId providerId watched i t r := by
  cases htracks with
  | eviction huses hother => exact .eviction huses hother
  | fresh txIds => exact .fresh txIds
  | ended txIds ok hrecovered => exact .ended txIds ok fun h => hkept.recovered (hrecovered h)
  | underway txIds hat =>
      obtain ⟨txIds', n, txId, rows, stage, hrest, hknows⟩ := hat
      exact .underway txIds ⟨txIds', n, txId, rows, stage, hrest, hknows.mono hkept⟩

/-- A check that is not underway knows only whether the job is recovered. -/
theorem Tracks.waiting (hwaits : r.op.OfWatcher → ¬ r.Underway)
    (hrecovered : Recovered jobId s.1 s.2 → Recovered jobId t.1 t.2)
    (htracks : Tracks jobId providerId watched i s r) : Tracks jobId providerId watched i t r := by
  cases htracks with
  | eviction huses hother => exact .eviction huses hother
  | fresh txIds => exact .fresh txIds
  | ended txIds ok hdone => exact .ended txIds ok fun h => hrecovered (hdone h)
  | @underway txIds rest hat =>
      by_cases hreturned : ∃ ok, rest = done ok
      · obtain ⟨ok, rfl⟩ := hreturned
        refine .ended txIds ok fun hwatched => hrecovered ?_
        exact hat.of_done.resolve_left fun h => h.1 hwatched
      · exact absurd ⟨rfl, hreturned⟩ (hwaits trivial)

/-- From here on request `i` is watched. -/
theorem Tracks.watch {j : Nat} (hj : j ≠ i) (htracks : Tracks jobId providerId none j s r) :
    Tracks jobId providerId (some i) j s r := by
  have hother : some i ≠ some j := fun h => hj (Option.some.inj h).symm
  cases htracks with
  | eviction huses _ => exact .eviction huses hother
  | fresh txIds => exact .fresh txIds
  | ended txIds ok _ => exact .ended txIds ok fun h => absurd h hother
  | underway txIds hat =>
      obtain ⟨txIds', n, txId, rows, stage, hrest, hknows⟩ := hat
      refine .underway txIds ⟨txIds', n, txId, rows, stage, hrest, ?_⟩
      cases hknows with
      | recovered hrecovered hstage => exact .recovered hrecovered hstage
      | inProgress hprogress hrows hstage hfound =>
          exact .inProgress hprogress hrows hstage
            (hfound.imp_right (Or.imp_right fun h => ⟨hother, h.2⟩))
      | refunding hfailed hstage hescrow => exact .refunding hfailed hstage hescrow

/-- A check that has gone on takes care of the job, or has returned and left it findable. -/
theorem CheckAt.findable_or_underway {mayLeave : Prop} {rest : Cycle}
    (hat : CheckAt jobId providerId mayLeave rest s) (txIds : Nat → TxId) :
    Findable jobId providerId s ∨
      LoopCycle.OfWatcher (.checkStale txIds) ∧
        Request.Underway (⟨.checkStale txIds, true, rest⟩ : Request Action.Answer LoopCycle Bool) := by
  by_cases hreturned : ∃ ok, rest = done ok
  · obtain ⟨ok, rfl⟩ := hreturned
    exact .inl (hat.of_done.imp_left And.right)
  · exact .inr ⟨trivial, rfl, hreturned⟩

/-- When a check begins and no other is underway, the job can be found. -/
theorem Findable.of_turn {p : Pool Action.Answer (Db × List Action) LoopCycle Bool}
    (hcovered : JobCovered jobId providerId watched p) {op : LoopCycle} {rest : Cycle}
    (hrequest : p.requests[i]? = some ⟨op, false, rest⟩)
    (hturns : ∀ (j : Nat) (r : Request Action.Answer LoopCycle Bool), j ≠ i →
      p.requests[j]? = some r → r.op.OfWatcher → ¬ r.Underway) :
    Findable jobId providerId p.store := by
  rcases hcovered.holds () with hfound | ⟨j, r, hr, hwatcher, hunderway⟩
  · exact hfound
  · by_cases hj : j = i
    · subst hj
      cases hrequest.symm.trans hr
      cases hunderway.1
    · exact absurd hunderway (hturns j r hj hr hwatcher)

end Requests

/-! ### Silence -/

theorem Db.Silent.exec {s t : Db} {q : Action} {a : q.Answer} (hexec : q.exec s = some (a, t))
    (hseen : ∀ w, q = .providers w → ∀ row,
      (ProvidersWrite.edit s.now providerId w row).lastSeen = row.lastSeen)
    (hsilent : s.Silent providerId) : t.Silent providerId := by
  obtain ⟨row, hrow, hstale⟩ := hsilent
  rw [Db.Silent, Action.exec_now hexec]
  rcases Action.exec_provider hexec hrow with hsame | ⟨w, hq, hwritten⟩
  · exact ⟨row, hsame, hstale⟩
  · refine ⟨_, hwritten, ?_⟩
    rw [Provider.staleAt, hseen w hq row]
    exact hstale

theorem Db.Silent.spares {s t : Db} (hspares : s.Spares jobId providerId t)
    (hsilent : s.Silent providerId) : t.Silent providerId := by
  obtain ⟨row, hrow, hstale⟩ := hsilent
  refine ⟨row, ?_, ?_⟩
  · rw [hspares.provider]
    exact hrow
  · rw [Provider.staleAt] at hstale ⊢
    obtain ⟨seen, hseen, hbefore⟩ := (Option.any_eq_true _ _).mp hstale
    refine (Option.any_eq_true _ _).mpr ⟨seen, hseen, ?_⟩
    have hlate : seen + seconds providerTimeoutSecs < s.now := of_decide_eq_true hbefore
    exact decide_eq_true (lt_of_lt_of_le hlate hspares.now)

/-! ### Runs -/

/-- The schedule of the two loops, and what must not happen in it. -/
def KeepsFindable (jobId : JobId) (providerId : ProviderId) (watched : Option Nat)
    (p : Pool Action.Answer Db LoopCycle Bool) (e : Event Action Db LoopCycle) : Prop :=
  LoopSchedule p e ∧ StrandsNothing jobId providerId p e ∧ ∀ i ∈ watched, Unbroken jobId i p e

section Run

variable {watched : Option Nat} {i : Nat} {p : Pool Action.Answer (Db × List Action) LoopCycle Bool}

/-- The pool without what is remembered. -/
abbrev unlogged (p : Pool Action.Answer (Db × List Action) LoopCycle Bool) :
    Pool Action.Answer Db LoopCycle Bool := ⟨p.store.1, p.requests⟩

/-- What a statement that runs leaves, as the rule of stages asks for it. -/
def LeavesCovered (jobId : JobId) (providerId : ProviderId) (watched : Option Nat)
    (p : Pool Action.Answer (Db × List Action) LoopCycle Bool) (i : Nat)
    (old new : Request Action.Answer LoopCycle Bool) (t : Db × List Action) : Prop :=
  (watched.isSome → t.1.Silent providerId) ∧ Tracks jobId providerId watched i t new ∧
    (∀ (j : Nat) (r : Request Action.Answer LoopCycle Bool), j ≠ i → p.requests[j]? = some r →
      Tracks jobId providerId watched j t r) ∧
    ∀ _ : Unit, Findable jobId providerId p.store ∨ (old.op.OfWatcher ∧ old.Underway) →
      Findable jobId providerId t ∨ (new.op.OfWatcher ∧ new.Underway)

/-- An eviction that does not find the provider leased for the job. -/
theorem eviction_leaves (hcovered : JobCovered jobId providerId watched p) {begun : Bool} {rest : Cycle}
    {old : Cycle} (huses : rest.Uses fun q => q = .providers (.evict (seconds 90)))
    (hother : watched ≠ some i)
    (hspares : p.store.1.InProgress jobId → ∀ row ∈ p.store.1.providers.get? providerId,
      row.LeasedFor jobId → row.staleAt p.store.1.now (seconds 90) = false) :
    LeavesCovered jobId providerId watched p i ⟨.evictStale, begun, old⟩ ⟨.evictStale, true, rest⟩
      ({ p.store.1 with providers := (ProvidersWrite.apply p.store.1 (.evict (seconds 90))).2 },
        p.store.2 ++ [.providers (.evict (seconds 90))]) := by
  have hkept : Kept jobId providerId p.store
      ({ p.store.1 with providers := (ProvidersWrite.apply p.store.1 (.evict (seconds 90))).2 },
        p.store.2 ++ [.providers (.evict (seconds 90))]) := by
    refine .of_providers fun hprogress row hrow hleased => ?_
    rw [ProvidersWrite.edit, if_neg]
    · exact hleased
    · rw [hspares hprogress row hrow hleased]
      exact fun h => Bool.false_ne_true h.2
  refine ⟨fun hwatched => ?_, .eviction huses hother,
    fun j r _ hr => (hcovered.request j r hr).mono hkept, fun _ hfound => .inl ?_⟩
  · refine (hcovered.store hwatched).exec (q := .providers (.evict (seconds 90))) rfl ?_
    rintro w hq row
    cases hq
    rw [ProvidersWrite.edit]
    split <;> rfl
  · rcases hfound with hfound | ⟨hwatcher, -⟩
    · exact hfound.mono hkept
    · exact hwatcher.elim

/-- The rows a stale check begins with. -/
theorem mem_staleProviders {s : Db} {timeout : Time} {x : ProviderId} {k : Option JobId} :
    (x, k) ∈ (Read.eval s (.staleProviders timeout) : List (ProviderId × Option JobId)) ↔
      ∃ row, s.providers.get? x = some row ∧ row.state = .leased ∧ row.staleAt s.now timeout = true ∧
        row.activeJobId = k := by
  simp only [Read.eval, List.mem_map, List.mem_filter, Prod.mk.injEq, decide_eq_true_eq]
  constructor
  · rintro ⟨⟨y, row⟩, ⟨hmem, hleased, hstale⟩, rfl, hactive⟩
    exact ⟨row, Table.mem_rows_iff.mp hmem, hleased, hstale, hactive⟩
  · rintro ⟨row, hrow, hleased, hstale, hactive⟩
    exact ⟨(x, row), ⟨Table.mem_rows_iff.mpr hrow, hleased, hstale⟩, rfl, hactive⟩

/-- A check begins with the list of the providers that are leased and silent. -/
theorem begin_leaves (hcovered : JobCovered jobId providerId watched p) (txIds : Nat → TxId)
    (hrequest : p.requests[i]? = some ⟨.checkStale txIds, false, checkStaleProviders txIds⟩)
    (hturns : ∀ (j : Nat) (r : Request Action.Answer LoopCycle Bool), j ≠ i →
      p.requests[j]? = some r → r.op.OfWatcher → ¬ r.Underway) :
    LeavesCovered jobId providerId watched p i
      ⟨.checkStale txIds, false, checkStaleProviders txIds⟩
      ⟨.checkStale txIds, true, migrateStale txIds 0
        (Read.eval p.store.1 (.staleProviders (seconds providerTimeoutSecs)))⟩
      (p.store.1, p.store.2 ++ [.read (.staleProviders (seconds providerTimeoutSecs))]) := by
  have hkept : Kept jobId providerId p.store
      (p.store.1, p.store.2 ++ [.read (.staleProviders (seconds providerTimeoutSecs))]) :=
    .of_spared (q := .read (.staleProviders (seconds providerTimeoutSecs))) rfl rfl rfl rfl
  have hat : CheckAt jobId providerId (watched ≠ some i)
      (migrateStale txIds 0 (Read.eval p.store.1 (.staleProviders (seconds providerTimeoutSecs))))
      (p.store.1, p.store.2 ++ [.read (.staleProviders (seconds providerTimeoutSecs))]) := by
    refine ⟨txIds, 0, "", _, .scan, rfl, ?_⟩
    rcases Findable.of_turn hcovered hrequest hturns with ⟨hprogress, hleased⟩ | hrecovered
    · obtain ⟨row, hrow, hstate, hactive⟩ := id hleased
      refine .inProgress hprogress (fun k hk => ?_) id (.inr ?_)
      · obtain ⟨row', hrow', -, -, hactive'⟩ := mem_staleProviders.mp hk
        cases hrow.symm.trans hrow'
        exact hactive'.symm.trans hactive
      · by_cases hwatched : watched = some i
        · left
          obtain ⟨row', hrow', hstale⟩ := hcovered.store (by rw [hwatched]; rfl)
          cases hrow.symm.trans hrow'
          exact mem_staleProviders.mpr ⟨row, hrow, hstate, hstale, hactive⟩
        · exact .inr ⟨hwatched, hleased⟩
    · exact .recovered (hkept.recovered hrecovered) id
  exact ⟨hcovered.store, .underway txIds hat,
    fun j r hj hr => (hcovered.request j r hr).waiting (hturns j r hj hr) hkept.recovered,
    fun _ _ => hat.findable_or_underway txIds⟩

/-- A check goes on. -/
theorem check_leaves (hcovered : JobCovered jobId providerId watched p) {txIds : Nat → TxId}
    {q : Action} {next : q.Answer → Cycle} {fail : Cycle} {a : q.Answer} {t : Db}
    (hat : CheckAt jobId providerId (watched ≠ some i) (.query q next fail) p.store)
    (hexec : q.exec p.store.1 = some (a, t))
    (hturns : ∀ (j : Nat) (r : Request Action.Answer LoopCycle Bool), j ≠ i →
      p.requests[j]? = some r → r.op.OfWatcher → ¬ r.Underway) :
    LeavesCovered jobId providerId watched p i ⟨.checkStale txIds, true, .query q next fail⟩
      ⟨.checkStale txIds, true, next a⟩ (t, p.store.2 ++ [q]) := by
  obtain ⟨hat', hrecovered⟩ := hat.ran_leaves hexec
  refine ⟨fun hwatched => (hcovered.store hwatched).exec hexec fun w hq row => ?_,
    .underway txIds hat',
    fun j r hj hr => (hcovered.request j r hr).waiting (hturns j r hj hr) hrecovered,
    fun _ _ => hat'.findable_or_underway txIds⟩
  obtain ⟨x, rfl | rfl⟩ := hat.writes_provider hq
  · rw [ProvidersWrite.edit]
    split <;> rfl
  · rw [ProvidersWrite.edit]
    split <;> rfl

/-- What a statement that fails leaves. -/
def FailLeavesCovered (jobId : JobId) (providerId : ProviderId) (watched : Option Nat) (i : Nat)
    (old new : Request Action.Answer LoopCycle Bool) (s : Db × List Action) : Prop :=
  Tracks jobId providerId watched i s new ∧
    ∀ _ : Unit, old.op.OfWatcher ∧ old.Underway →
      Findable jobId providerId s ∨ (new.op.OfWatcher ∧ new.Underway)

/-- A check that fails goes on, or it ends where that is allowed. -/
theorem check_fails {txIds : Nat → TxId} {q : Action} {next : q.Answer → Cycle} {fail : Cycle}
    {s : Db × List Action} {begun : Bool}
    (hat : CheckAt jobId providerId (watched ≠ some i) (.query q next fail) s)
    (hfailed : q.exec s.1 = none ∨
      (s.1.InProgress jobId → watched ≠ some i ∧ s.1.LeasedFor providerId jobId) ∧
        ¬ q.Refunds s.1 jobId) :
    FailLeavesCovered jobId providerId watched i ⟨.checkStale txIds, begun, .query q next fail⟩
      ⟨.checkStale txIds, true, fail⟩ s := by
  rcases hat.failed_leaves hfailed with hgoesOn | ⟨⟨ok, rfl⟩, hleft⟩
  · exact ⟨.underway txIds hgoesOn, fun _ _ => hgoesOn.findable_or_underway txIds⟩
  · refine ⟨.ended txIds ok fun hwatched => hleft.resolve_left fun h => h.1 hwatched, fun _ _ => ?_⟩
    exact .inl (hleft.imp_left And.right)

theorem covered_of_runs {p' : Pool Action.Answer (Db × List Action) LoopCycle Bool}
    {es : List (Event Action (Db × List Action) LoopCycle)}
    (hrun : p.Runs (Pool.logged Action.exec)
      (fun s t => s.1.Spares jobId providerId t.1 ∧ t.2 = s.2)
      (fun p e => KeepsFindable jobId providerId watched (unlogged p) (e.mapStore Prod.fst)) es p')
    (hstart : JobCovered jobId providerId watched p) : JobCovered jobId providerId watched p' := by
  refine hrun.covered ?_ ?_ ?_ hstart
  · intro p i op begun q next fail a t hcovered hguard hrequest hlogged
    obtain ⟨hturns, hspares, -⟩ := hguard
    obtain ⟨hexec, hlog⟩ := Pool.logged_eq_some hlogged
    obtain ⟨t, log⟩ := t
    cases hlog
    show LeavesCovered jobId providerId watched p i _ _ _
    cases hcovered.request i _ hrequest with
    | eviction huses hother =>
        obtain ⟨rfl, hnext, -⟩ := huses
        cases hexec
        exact eviction_leaves hcovered (hnext _) hother hspares
    | fresh txIds =>
        cases hexec
        exact begin_leaves hcovered txIds hrequest (hturns i _ rfl hrequest trivial)
    | underway txIds hat => exact check_leaves hcovered hat hexec (hturns i _ rfl hrequest trivial)
  · intro p i op begun q next fail hcovered hguard hrequest
    show FailLeavesCovered jobId providerId watched i _ _ _
    cases hcovered.request i _ hrequest with
    | eviction huses hother =>
        exact ⟨.eviction huses.2.2 hother, fun _ h => h.1.elim⟩
    | fresh txIds =>
        refine ⟨.ended txIds false fun hwatched => ?_, fun _ h => by cases h.2.1⟩
        rcases hguard with ⟨-, hrefused⟩ | ⟨hturns, -, hunbroken⟩
        · cases hrefused
        · have hfound := Findable.of_turn hcovered hrequest (hturns i _ rfl hrequest trivial)
          exact hfound.resolve_left fun h => hunbroken i hwatched rfl h.1
    | underway txIds hat =>
        refine check_fails hat ?_
        rcases hguard with ⟨-, hrefused⟩ | ⟨-, ⟨hleased, hother⟩, hunbroken⟩
        · exact .inl (Pool.logged_eq_none_iff.mp hrefused)
        · exact .inr ⟨fun hprogress => ⟨fun hwatched => hunbroken i hwatched rfl hprogress,
            hleased hprogress⟩, hother⟩
  · rintro s ⟨t, log⟩ ⟨hspares, rfl⟩
    have hkept : Kept jobId providerId s (t, s.2) := .of_spares hspares
    exact ⟨fun hsilent hwatched => (hsilent hwatched).spares hspares,
      fun _ _ htracks => htracks.mono hkept, fun _ hfound => hfound.mono hkept⟩

end Run

/-- The database at a time that is not past. -/
def Db.at (s : Db) (time : Time) : Db := { s with now := max s.now time }

theorem Db.spares_at (s : Db) (time : Time) : s.Spares jobId providerId (s.at time) where
  now := le_max_left _ _
  job := rfl
  provider := rfl
  escrow := fun _ _ _ => Iff.rfl

/-- The database after cycles that begin at the given times. -/
def afterCycles (schedule : List (Time × LoopCycle)) (s : Db) : Db :=
  schedule.foldl (fun s entry => (entry.2.program.run Action.exec (s.at entry.1)).2) s

variable (jobId providerId) in
/-- Cycles can follow one another at the given times. -/
theorem runs_schedule {G : Pool Action.Answer Db LoopCycle Bool → Event Action Db LoopCycle → Prop}
    {K : Action → Db → Prop}
    (hran : ∀ (p : Pool Action.Answer Db LoopCycle Bool) i op q t, p.Alone i → K q p.store →
      G p (.ran i op q p.store t))
    (hrefused : ∀ (p : Pool Action.Answer Db LoopCycle Bool) i op q, p.Alone i → K q p.store →
      G p (.refused i op q))
    (hpasses : ∀ p, G p .environment) (later : List LoopCycle) :
    ∀ (schedule : List (Time × LoopCycle))
      (earlier : List (Request Action.Answer LoopCycle Bool)) (s : Db),
      (∀ entry ∈ schedule, ∀ s, entry.2.program.Each Action.exec K s) →
      (∀ r ∈ earlier, r.Returned) →
      ∃ es earlier', (∀ r ∈ earlier', r.Returned) ∧
        Pool.Runs Action.exec (Db.Spares jobId providerId) G
          ⟨s, earlier ++ (schedule.map Prod.snd ++ later).map (Request.fresh LoopCycle.program)⟩ es
          ⟨afterCycles schedule s, earlier' ++ later.map (Request.fresh LoopCycle.program)⟩ := by
  intro schedule
  induction schedule with
  | nil => exact fun _ _ _ hearlier => ⟨[], _, hearlier, .nil _⟩
  | cons entry schedule ih =>
      intro earlier s heach hearlier
      obtain ⟨time, cycle⟩ := entry
      have hwaits : ∀ r ∈ earlier, ¬ r.Underway := fun r hr hunderway => hunderway.2 (hearlier r hr)
      obtain ⟨es, begun, hfirst⟩ := Pool.runs_next (Db.Spares jobId providerId) hran hrefused hwaits
        (heach (time, cycle) List.mem_cons_self (s.at time)) (schedule.map Prod.snd ++ later)
      have hreturned : ∀ r ∈ earlier ++ [⟨cycle, begun, done (cycle.program.run Action.exec
          (s.at time)).1⟩], r.Returned := by
        intro r hr
        rcases List.mem_append.mp hr with hr | hr
        · exact hearlier r hr
        · cases List.mem_singleton.mp hr
          exact ⟨_, rfl⟩
      obtain ⟨es', earlier', hearlier', hrest⟩ :=
        ih _ _ (fun entry hentry => heach entry (List.mem_cons_of_mem _ hentry)) hreturned
      exact ⟨_, earlier', hearlier',
        ((Pool.Runs.snoc (.nil _) (.environment (s.spares_at time)) (hpasses _)).trans
          hfirst).trans hrest⟩

theorem Db.inProgress_of_state {s : Db} {state : JobState}
    (hstate : (s.jobs.get? jobId).map Job.state = some state) (hprogress : state.inProgress) :
    s.InProgress jobId := by
  obtain ⟨job, hjob, heq⟩ := Option.map_eq_some_iff.mp hstate
  exact ⟨job, hjob, heq ▸ hprogress⟩

theorem Db.leasedFor_of_columns {s : Db}
    (hcolumns : (s.providers.get? providerId).map (fun row => (row.state, row.activeJobId)) =
      some (.leased, some jobId)) : s.LeasedFor providerId jobId := by
  obtain ⟨row, hrow, heq⟩ := Option.map_eq_some_iff.mp hcolumns
  exact ⟨row, hrow, congrArg Prod.fst heq, congrArg Prod.snd heq⟩

theorem Db.silent_of_stale {s : Db}
    (hstale : (s.providers.get? providerId).map
      (fun row => row.staleAt s.now (seconds providerTimeoutSecs)) = some true) :
    s.Silent providerId := by
  obtain ⟨row, hrow, heq⟩ := Option.map_eq_some_iff.mp hstale
  exact ⟨row, hrow, heq⟩

/-- An eviction 100 s after the last heartbeat. -/
def firstEviction : List (Time × LoopCycle) := [(seconds 100, .evictStale)]

/-- Two cycles of each loop, once a minute, from 130 s after the last heartbeat on. -/
def cyclesAfter : List (Time × LoopCycle) :=
  [(seconds 130, .checkStale fun _ => "refund"), (seconds 160, .evictStale),
    (seconds 190, .checkStale fun _ => "refund"), (seconds 220, .evictStale)]

end NeuralMesh
