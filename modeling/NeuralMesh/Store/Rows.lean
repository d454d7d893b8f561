import NeuralMesh.Store.Frame

/-!
# What a statement does to one row

`edit` is the change a write makes to the row under one key. Rows are never deleted, and a new one
appears only by the inserting statements.
-/

namespace NeuralMesh

namespace ProvidersWrite

/-- The row of provider `p` after the statement. -/
def edit (now : Time) (p : ProviderId) : ProvidersWrite → Provider → Provider
  | register providerId caps, row => if p = providerId then row.reregister caps else row
  | heartbeat providerId state gpuUtilPct ramUsedGb activeJobId, row =>
      if p = providerId then
        { row with
          state
          gpuUtilPct := some gpuUtilPct
          ramUsedGb := some ramUsedGb
          activeJobId
          lastSeen := some now }
      else row
  | seen providerId gpuUtilPct ramUsedGb, row =>
      if p = providerId then
        { row with
          lastSeen := some now, gpuUtilPct := some gpuUtilPct, ramUsedGb := some ramUsedGb }
      else row
  | lease providerId jobId, row =>
      if p = providerId then { row with state := .leased, activeJobId := some jobId } else row
  | freeOfJob jobId, row => if row.activeJobId = some jobId then row.free else row
  | free providerId, row => if p = providerId then row.free else row
  | freeCompleted providerId, row =>
      if p = providerId then { row.free with jobsCompleted := row.jobsCompleted.map (· + 1) }
      else row
  | offline providerId, row =>
      if p = providerId then { row with state := .offline, activeJobId := none } else row
  | evict timeout, row =>
      if (row.state = .available ∨ row.state = .leased) ∧ row.staleAt now timeout then
        { row with state := .offline, activeJobId := none }
      else row
  | trust providerId success, row => if p = providerId then row.trust success else row
  | penalize providerId, row =>
      if p = providerId then
        { row with trustScore := clampTrust (nullSub row.trustScore (some (20 / 100))) }
      else row
  | addHours providerId hours, row =>
      if p = providerId then
        { row with
          totalGpuHoursContributed := some (row.totalGpuHoursContributed.getD 0 + hours) }
      else row

theorem get?_apply {s : Db} {p : ProviderId} {row : Provider} (w : ProvidersWrite)
    (hrow : s.providers.get? p = some row) :
    (w.apply s).2.get? p = some (w.edit s.now p row) := by
  cases w with
  | register providerId caps =>
      simp only [apply, edit, Table.get?_upsert]
      split
      · rename_i heq
        rw [← heq, hrow]
        rfl
      · exact hrow
  | freeOfJob jobId =>
      simp only [apply, edit, Table.get?_updateWhere, hrow, Option.map_some, decide_eq_true_eq]
  | evict timeout =>
      simp only [apply, edit, Table.get?_updateWhere, hrow, Option.map_some, decide_eq_true_eq]
  | _ =>
      simp only [apply, edit, Table.get?_update]
      split
      · rename_i heq
        rw [← heq, hrow]
        rfl
      · exact hrow

/-- A provider that was not there has just registered. -/
theorem registered_of_apply {s : Db} {p : ProviderId} {row' : Provider} (w : ProvidersWrite)
    (hnone : s.providers.get? p = none) (hrow' : (w.apply s).2.get? p = some row') :
    ∃ caps, w = .register p caps ∧ row' = .registered caps := by
  cases w with
  | register providerId caps =>
      rcases Table.get?_upsert_cases hrow' with ⟨rfl, -, rfl⟩ | ⟨old, rfl, hold, -⟩ | ⟨-, hold⟩
      · exact ⟨caps, rfl, rfl⟩
      · cases hnone.symm.trans hold
      · cases hnone.symm.trans hold
  | freeOfJob jobId =>
      simp only [apply, Table.get?_updateWhere, hnone, Option.map_none] at hrow'
      cases hrow'
  | evict timeout =>
      simp only [apply, Table.get?_updateWhere, hnone, Option.map_none] at hrow'
      cases hrow'
  | _ =>
      rcases Table.get?_update_cases hrow' with ⟨old, rfl, hold, -⟩ | ⟨-, hold⟩
      · cases hnone.symm.trans hold
      · cases hnone.symm.trans hold

end ProvidersWrite

namespace JobsWrite

/-- The row of job `k` after the statement. -/
def edit (now : Time) (k : JobId) : JobsWrite → Job → Job
  | insert _ _ _, row => row
  | close jobId state, row => if k = jobId then row.close now state else row
  | cancelOwned jobId consumerId, row =>
      if k = jobId ∧ row.consumerId = consumerId then { row with state := .cancelled } else row
  | start jobId, row => if k = jobId then { row with state := .running } else row
  | heartbeat jobId providerId, row =>
      if k = jobId ∧ row.providerId = some providerId then row.heartbeat now else row
  | checkpoint jobId url iteration, row =>
      if k = jobId then
        { row with
          checkpointUrl := some url, checkpointIter := some iteration, lastHeartbeat := some now }
      else row
  | acknowledge jobId wireguardEndpoint sshPort, row =>
      if k = jobId then
        { row with
          state := .running, wireguardEndpoint := some wireguardEndpoint, sshPort := some sshPort }
      else row
  | report jobId state outputHash actualRuntimeS, row =>
      if k = jobId then row.report now state outputHash actualRuntimeS else row
  | assign jobId providerId pricePerHour restore, row =>
      if k = jobId then row.assign now providerId pricePerHour restore else row
  | requeue jobId, row => if k = jobId then row.requeue else row
  | giveUp jobId reason, row => if k = jobId then row.giveUp now reason else row

theorem edit_spec (now : Time) (k : JobId) (w : JobsWrite) (job : Job) :
    (w.edit now k job).spec = job.spec := by
  cases w with
  | insert jobId consumerId spec => rfl
  | _ =>
      simp only [edit]
      split <;> rfl

theorem edit_consumerId (now : Time) (k : JobId) (w : JobsWrite) (job : Job) :
    (w.edit now k job).consumerId = job.consumerId := by
  cases w with
  | insert jobId consumerId spec => rfl
  | _ =>
      simp only [edit]
      split <;> rfl

theorem get?_apply {s : Db} {w : JobsWrite} {jobs : Table JobId Job} (happly : w.apply s = some jobs)
    {k : JobId} {row : Job} (hrow : s.jobs.get? k = some row) :
    jobs.get? k = some (w.edit s.now k row) := by
  cases w with
  | insert jobId consumerId spec =>
      simp only [apply] at happly
      rw [Table.get?_of_insert? happly, if_neg]
      · exact hrow
      · rintro rfl
        rw [(Table.rows_of_insert? happly).1] at hrow
        cases hrow
  | cancelOwned jobId consumerId =>
      cases happly
      simp only [edit, Table.get?_updateWhere, hrow, Option.map_some, decide_eq_true_eq]
  | heartbeat jobId providerId =>
      cases happly
      simp only [edit, Table.get?_updateWhere, hrow, Option.map_some, decide_eq_true_eq]
  | assign jobId providerId pricePerHour restore =>
      simp only [apply] at happly
      split at happly
      · cases happly
      · cases happly
        simp only [edit, Table.get?_update]
        split
        · rename_i heq
          rw [← heq, hrow]
          rfl
        · exact hrow
  | _ =>
      cases happly
      simp only [edit, Table.get?_update]
      split
      · rename_i heq
        rw [← heq, hrow]
        rfl
      · exact hrow

/-- A job that was not there has just been submitted. -/
theorem submitted_of_apply {s : Db} {w : JobsWrite} {jobs : Table JobId Job}
    (happly : w.apply s = some jobs) {k : JobId} {row' : Job} (hnone : s.jobs.get? k = none)
    (hrow' : jobs.get? k = some row') :
    ∃ consumerId spec, w = .insert k consumerId spec ∧ row' = .submitted s.now consumerId spec := by
  cases w with
  | insert jobId consumerId spec =>
      rcases Table.get?_insert?_cases happly hrow' with ⟨rfl, rfl⟩ | ⟨-, hold⟩
      · exact ⟨consumerId, spec, rfl, rfl⟩
      · cases hnone.symm.trans hold
  | cancelOwned jobId consumerId =>
      cases happly
      simp only [Table.get?_updateWhere, hnone, Option.map_none] at hrow'
      cases hrow'
  | heartbeat jobId providerId =>
      cases happly
      simp only [Table.get?_updateWhere, hnone, Option.map_none] at hrow'
      cases hrow'
  | assign jobId providerId pricePerHour restore =>
      simp only [apply] at happly
      split at happly
      · cases happly
      · cases happly
        rcases Table.get?_update_cases hrow' with ⟨old, rfl, hold, -⟩ | ⟨-, hold⟩
        · cases hnone.symm.trans hold
        · cases hnone.symm.trans hold
  | _ =>
      cases happly
      rcases Table.get?_update_cases hrow' with ⟨old, rfl, hold, -⟩ | ⟨-, hold⟩
      · cases hnone.symm.trans hold
      · cases hnone.symm.trans hold

end JobsWrite

namespace Read

variable {s : Db}

theorem mem_orderByAsc {ρ : Type} {column : ρ → Option ℚ} {rows : List ρ} {row : ρ} :
    row ∈ orderByAsc column rows ↔ row ∈ rows := (List.mergeSort_perm _ _).mem_iff

/-- The job a poll finds is assigned to its provider. -/
theorem assignedJob_found {providerId : ProviderId} {row : JobId × Job}
    (hfound : Read.eval s (.assignedJob providerId) = some row) :
    s.jobs.get? row.1 = some row.2 ∧ row.2.providerId = some providerId ∧
      row.2.state = .assigned := by
  have hmem := mem_orderByAsc.mp (List.mem_of_head? hfound)
  rwa [List.mem_filter, Table.mem_rows_iff, decide_eq_true_eq] at hmem

theorem queuedJobs_found {row : JobId × Job}
    (hrow : row ∈ (Read.eval s .queuedJobs : List (JobId × Job))) :
    s.jobs.get? row.1 = some row.2 ∧ row.2.state = .queued := by
  have hmem := mem_orderByAsc.mp (List.mem_of_mem_take hrow)
  rwa [List.mem_filter, Table.mem_rows_iff, decide_eq_true_eq] at hmem

/-- A candidate is available, and its columns satisfy the query. -/
theorem candidates_found {minRamGb : Int} {maxPrice : ℚ} {row : ProviderId × Provider}
    (hrow : row ∈ (Read.eval s (.candidates minRamGb maxPrice) : List (ProviderId × Provider))) :
    s.providers.get? row.1 = some row.2 ∧ row.2.state = .available ∧
      (∃ ram ∈ row.2.caps.maxJobRamGb, minRamGb ≤ ram) ∧
      ∃ floor ∈ row.2.caps.floorPriceNmcPerHour, floor ≤ maxPrice := by
  have hmem := mem_orderByAsc.mp (List.mem_of_mem_take hrow)
  rw [List.mem_filter, Table.mem_rows_iff, decide_eq_true_eq] at hmem
  obtain ⟨hget, havailable, hram, hfloor⟩ := hmem
  obtain ⟨ram, hram, hleRam⟩ := (Option.any_eq_true _ _).mp hram
  obtain ⟨floor, hfloor, hleFloor⟩ := (Option.any_eq_true _ _).mp hfloor
  exact ⟨hget, havailable, ⟨ram, hram, of_decide_eq_true hleRam⟩, floor, hfloor,
    of_decide_eq_true hleFloor⟩

end Read

namespace Action

variable {q : Action} {s t : Db} {a : q.Answer}

/-- Only writes of `jobs` change the jobs. -/
theorem exec_jobs (hexec : q.exec s = some (a, t)) :
    t.jobs = s.jobs ∨ ∃ w, q = .jobs w ∧ w.apply s = some t.jobs := by
  cases q with
  | jobs w =>
      obtain ⟨jobs, happly, heq⟩ := Option.map_eq_some_iff.mp hexec
      cases heq
      exact .inr ⟨w, rfl, happly⟩
  | _ => exact .inl (exec_sameIn .jobs rfl hexec)

/-- Only writes of `providers` change the providers. -/
theorem exec_providers (hexec : q.exec s = some (a, t)) :
    t.providers = s.providers ∨ ∃ w, q = .providers w ∧ t.providers = (w.apply s).2 := by
  cases q with
  | providers w =>
      cases hexec
      exact .inr ⟨w, rfl, rfl⟩
  | _ => exact .inl (exec_sameIn .providers rfl hexec)

/-- Only writes of `escrows` change the escrow rows. -/
theorem exec_escrows (hexec : q.exec s = some (a, t)) :
    t.escrows = s.escrows ∨ ∃ w, q = .escrows w ∧ w.apply s = some t.escrows := by
  cases q with
  | escrows w =>
      obtain ⟨escrows, happly, heq⟩ := Option.map_eq_some_iff.mp hexec
      cases heq
      exact .inr ⟨w, rfl, happly⟩
  | _ => exact .inl (exec_sameIn .escrows rfl hexec)

/-- A provider keeps its row, edited by the write if it is one. -/
theorem exec_provider (hexec : q.exec s = some (a, t)) {p : ProviderId} {row : Provider}
    (hrow : s.providers.get? p = some row) :
    t.providers.get? p = some row ∨
      ∃ w : ProvidersWrite, q = .providers w ∧ t.providers.get? p = some (w.edit s.now p row) := by
  rcases exec_providers hexec with hsame | ⟨w, hq, happly⟩
  · left
    rwa [hsame]
  · right
    refine ⟨w, hq, ?_⟩
    rw [happly]
    exact w.get?_apply hrow

/-- A job keeps its row, edited by the write if it is one. -/
theorem exec_job (hexec : q.exec s = some (a, t)) {k : JobId} {row : Job}
    (hrow : s.jobs.get? k = some row) :
    t.jobs.get? k = some row ∨
      ∃ w : JobsWrite, q = .jobs w ∧ t.jobs.get? k = some (w.edit s.now k row) := by
  rcases exec_jobs hexec with hsame | ⟨w, hq, happly⟩
  · left
    rwa [hsame]
  · exact .inr ⟨w, hq, JobsWrite.get?_apply happly hrow⟩

/-- A transaction whose id is new can be recorded. -/
theorem exists_insert {s : Db} {txId : TxId} (row : NewTransaction)
    (hnew : s.transactions.get? txId = none) : ∃ t, row.insert s txId = some t := by
  rw [NewTransaction.insert, ← Option.ne_none_iff_exists', Ne, Table.insert?_eq_none_iff, hnew]
  simp

theorem exec_insertTransaction {s : Db} {txId : TxId} (row : NewTransaction)
    (hnew : s.transactions.get? txId = none) :
    ∃ t, Action.exec (.insertTransaction txId row) s = some ((), { s with transactions := t }) := by
  obtain ⟨t, ht⟩ := exists_insert row hnew
  exact ⟨t, by simp only [Action.exec, ht, Option.map_some]⟩

end Action

end NeuralMesh
