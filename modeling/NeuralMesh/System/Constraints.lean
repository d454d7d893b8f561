import NeuralMesh.Store.Rows
import NeuralMesh.System.Operation

/-!
# What every reachable database satisfies

The foreign keys from a job to its provider and from an escrow row to its job, and the columns of a
provider that start with a default and are never set to `NULL`.
-/

namespace NeuralMesh

structure Db.Consistent (s : Db) : Prop where
  provider : ∀ k job, s.jobs.get? k = some job → ∀ p ∈ job.providerId, (s.providers.get? p).isSome
  escrow : ∀ id e, s.escrows.get? id = some e → (s.jobs.get? e.jobId).isSome
  counters : ∀ p row, s.providers.get? p = some row →
    row.jobsCompleted.isSome ∧ row.totalGpuHoursContributed.isSome

/-- A job changes its provider by assignment only, or gives it up. -/
theorem JobsWrite.edit_providerId (now : Time) (k : JobId) (w : JobsWrite) (row : Job) :
    (w.edit now k row).providerId = row.providerId ∨ (w.edit now k row).providerId = none ∨
      ∃ p pricePerHour restore, w = .assign k p pricePerHour restore ∧
        (w.edit now k row).providerId = some p := by
  cases w with
  | insert jobId consumerId spec => exact .inl rfl
  | requeue jobId =>
      simp only [edit]
      split
      · exact .inr (.inl rfl)
      · exact .inl rfl
  | assign jobId providerId pricePerHour restore =>
      simp only [edit]
      split
      · rename_i heq
        exact .inr (.inr ⟨providerId, pricePerHour, restore, by rw [heq], rfl⟩)
      · exact .inl rfl
  | _ =>
      left
      simp only [edit]
      split <;> rfl

theorem ProvidersWrite.edit_counters (now : Time) (p : ProviderId) (w : ProvidersWrite)
    {row : Provider}
    (hrow : row.jobsCompleted.isSome ∧ row.totalGpuHoursContributed.isSome) :
    (w.edit now p row).jobsCompleted.isSome ∧
      (w.edit now p row).totalGpuHoursContributed.isSome := by
  cases w with
  | freeCompleted providerId =>
      simp only [edit]
      split
      · exact ⟨by rw [Option.isSome_map]; exact hrow.1, hrow.2⟩
      · exact hrow
  | addHours providerId hours =>
      simp only [edit]
      split
      · exact ⟨hrow.1, rfl⟩
      · exact hrow
  | _ =>
      simp only [edit]
      split <;> exact hrow

/-- A provider is never removed. -/
theorem Action.exec_provider_isSome {q : Action} {s t : Db} {a : q.Answer}
    (hexec : q.exec s = some (a, t)) {p : ProviderId} (hsome : (s.providers.get? p).isSome) :
    (t.providers.get? p).isSome := by
  obtain ⟨row, hrow⟩ := Option.isSome_iff_exists.mp hsome
  rcases Action.exec_provider hexec hrow with hkept | ⟨w, -, hedit⟩
  · rw [hkept]
    rfl
  · rw [hedit]
    rfl

/-- A job is never removed. -/
theorem Action.exec_job_isSome {q : Action} {s t : Db} {a : q.Answer}
    (hexec : q.exec s = some (a, t)) {k : JobId} (hsome : (s.jobs.get? k).isSome) :
    (t.jobs.get? k).isSome := by
  obtain ⟨row, hrow⟩ := Option.isSome_iff_exists.mp hsome
  rcases Action.exec_job hexec hrow with hkept | ⟨w, -, hedit⟩
  · rw [hkept]
    rfl
  · rw [hedit]
    rfl

/-- A row of `escrows` was there for the same job, or the foreign key was checked. -/
theorem EscrowsWrite.jobId_of_apply {s : Db} {w : EscrowsWrite} {escrows : Table EscrowId Escrow}
    (happly : w.apply s = some escrows) {id : EscrowId} {e' : Escrow}
    (he' : escrows.get? id = some e') :
    (∃ e, s.escrows.get? id = some e ∧ e'.jobId = e.jobId) ∨ (s.jobs.get? e'.jobId).isSome := by
  cases w with
  | insert escrowId jobId consumerId providerId lockedNmc =>
      simp only [apply] at happly
      split at happly
      · rename_i hjob
        rcases Table.get?_insert?_cases happly he' with ⟨-, rfl⟩ | ⟨-, hold⟩
        · exact .inr hjob
        · exact .inl ⟨e', hold, rfl⟩
      · cases happly
  | releaseOfJob jobId =>
      left
      cases happly
      rw [Table.get?_updateWhere] at he'
      obtain ⟨e, he, heq⟩ := Option.map_eq_some_iff.mp he'
      refine ⟨e, he, ?_⟩
      rw [← heq]
      split <;> rfl
  | release escrowId =>
      left
      cases happly
      rcases Table.get?_update_cases he' with ⟨e, rfl, he, rfl⟩ | ⟨-, he⟩
      · exact ⟨e, he, rfl⟩
      · exact ⟨e', he, rfl⟩

theorem Db.Consistent.exec {s t : Db} {q : Action} {a : q.Answer} (hs : s.Consistent)
    (hexec : q.exec s = some (a, t)) : t.Consistent := by
  constructor
  · intro k job' hjob' p hp
    cases hjob : s.jobs.get? k with
    | none =>
        rcases Action.exec_jobs hexec with hsame | ⟨w, -, happly⟩
        · rw [hsame, hjob] at hjob'
          cases hjob'
        · obtain ⟨consumerId, spec, -, rfl⟩ := JobsWrite.submitted_of_apply happly hjob hjob'
          cases hp
    | some job =>
        rcases Action.exec_job hexec hjob with hkept | ⟨w, hq, hedit⟩
        · rw [hkept] at hjob'
          cases hjob'
          exact Action.exec_provider_isSome hexec (hs.provider k _ hjob p hp)
        · rw [hedit] at hjob'
          cases hjob'
          rcases w.edit_providerId s.now k job with hsame | hnone | ⟨p', price, restore, hw, hassigned⟩
          · rw [hsame] at hp
            exact Action.exec_provider_isSome hexec (hs.provider k _ hjob p hp)
          · rw [hnone] at hp
            cases hp
          · -- the foreign key was checked
            rw [hassigned, Option.mem_some_iff] at hp
            subst hp hw hq
            apply Action.exec_provider_isSome hexec
            obtain ⟨jobs, happly, -⟩ := Option.map_eq_some_iff.mp hexec
            simp only [JobsWrite.apply] at happly
            split at happly
            · cases happly
            · rename_i hkey
              rw [hjob] at hkey
              simpa [Option.isSome_iff_ne_none] using hkey
  · intro id e' he'
    have hcases : (∃ e, s.escrows.get? id = some e ∧ e'.jobId = e.jobId) ∨
        (s.jobs.get? e'.jobId).isSome := by
      rcases Action.exec_escrows hexec with hsame | ⟨w, -, happly⟩
      · exact .inl ⟨e', by rwa [← hsame], rfl⟩
      · exact EscrowsWrite.jobId_of_apply happly he'
    rcases hcases with ⟨e, he, hjob⟩ | hjob
    · rw [hjob]
      exact Action.exec_job_isSome hexec (hs.escrow id e he)
    · exact Action.exec_job_isSome hexec hjob
  · intro p row' hrow'
    cases hrow : s.providers.get? p with
    | none =>
        rcases Action.exec_providers hexec with hsame | ⟨w, -, happly⟩
        · rw [hsame, hrow] at hrow'
          cases hrow'
        · rw [happly] at hrow'
          obtain ⟨caps, -, rfl⟩ := w.registered_of_apply hrow hrow'
          exact ⟨rfl, rfl⟩
    | some row =>
        have hcounters := hs.counters p row hrow
        rcases Action.exec_provider hexec hrow with hkept | ⟨w, -, hedit⟩
        · rw [hkept] at hrow'
          cases hrow'
          exact hcounters
        · rw [hedit] at hrow'
          cases hrow'
          exact w.edit_counters s.now p hcounters

theorem Db.Consistent.shuffled {s t : Db} (hshuffled : s.Shuffled t) (hs : s.Consistent) :
    t.Consistent := by
  constructor
  · intro k job hjob p hp
    rw [← hshuffled.jobs.get?_eq k] at hjob
    rw [← hshuffled.providers.get?_eq p]
    exact hs.provider k job hjob p hp
  · intro id e he
    rw [← hshuffled.escrows.get?_eq id] at he
    rw [← hshuffled.jobs.get?_eq e.jobId]
    exact hs.escrow id e he
  · intro p row hrow
    rw [← hshuffled.providers.get?_eq p] at hrow
    exact hs.counters p row hrow

theorem Db.Consistent.after {s : Db} (hs : s.Consistent) (op : Operation) :
    (op.after s).Consistent :=
  Program.run_preserves Action.exec (fun _ _ _ _ _ hs hexec => hs.exec hexec) _ s
    (Program.uses_true _) hs

theorem Reachable.consistent {s : Db} (hreach : Reachable s) : s.Consistent := by
  refine hreach.of_exec ?_ (fun q s a t hs hexec => hs.exec hexec)
    fun s t hshuffled hs => hs.shuffled hshuffled
  constructor
  · intro k job hjob
    cases hjob
  · intro id e he
    cases he
  · intro p row hrow
    cases hrow

end NeuralMesh
