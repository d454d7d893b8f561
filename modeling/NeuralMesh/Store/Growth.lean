import NeuralMesh.Base.Growth
import NeuralMesh.Store.Rows

/-!
# What the database keeps

`Became` says, for a kind of row, what an earlier version of it leaves in a later one: the columns
written once, the ones that are never emptied again, the stamps and counters that only move forward.
`Db.Grows` puts them together, and every statement issued against a database without stamps from the
future keeps it.
-/

namespace NeuralMesh

/-- An escrow keeps its job, its parties and its amount, and is released for good. -/
structure Escrow.Became (e e' : Escrow) : Prop where
  jobId : e'.jobId = e.jobId
  consumerId : e'.consumerId = e.consumerId
  providerId : e'.providerId = e.providerId
  lockedNmc : e'.lockedNmc = e.lockedNmc
  released : e.state = .released → e'.state = .released

/-- A job keeps what was submitted and when it first started. A reported output, a price, an
endpoint, a checkpoint and a reason of failure are replaced but not taken back. -/
structure Job.Became (j j' : Job) : Prop where
  consumerId : j'.consumerId = j.consumerId
  spec : j'.spec = j.spec
  createdAt : j'.createdAt = j.createdAt
  startedAt : Lasts Eq j.startedAt j'.startedAt
  completedAt : Lasts (· ≤ ·) j.completedAt j'.completedAt
  lastHeartbeat : Lasts (· ≤ ·) j.lastHeartbeat j'.lastHeartbeat
  restoreAttempts : Lasts (· ≤ ·) j.restoreAttempts j'.restoreAttempts
  pricePerHour : j.pricePerHour.isSome → j'.pricePerHour.isSome
  outputHash : j.outputHash.isSome → j'.outputHash.isSome
  actualRuntimeS : j.actualRuntimeS.isSome → j'.actualRuntimeS.isSome
  wireguardEndpoint : j.wireguardEndpoint.isSome → j'.wireguardEndpoint.isSome
  checkpointUrl : j.checkpointUrl.isSome → j'.checkpointUrl.isSome
  failureReason : j.failureReason.isSome → j'.failureReason.isSome

/-- The capabilities a second registration does not take over. -/
structure Capabilities.Became (c c' : Capabilities) : Prop where
  metalVersion : c'.metalVersion = c.metalVersion
  serialNumber : c'.serialNumber = c.serialNumber
  maxJobRamGb : c'.maxJobRamGb = c.maxJobRamGb
  bandwidthMbps : c'.bandwidthMbps = c.bandwidthMbps
  region : c'.region = c.region
  nmVersion : c'.nmVersion = c.nmVersion

/-- A provider keeps those and its count of completed jobs, and is seen later and later. -/
structure Provider.Became (p p' : Provider) : Prop where
  caps : p.caps.Became p'.caps
  jobsCompleted : Lasts (· ≤ ·) p.jobsCompleted p'.jobsCompleted
  lastSeen : Lasts (· ≤ ·) p.lastSeen p'.lastSeen

instance : Std.Refl Escrow.Became := ⟨fun _ => ⟨rfl, rfl, rfl, rfl, id⟩⟩

instance : IsTrans Escrow Escrow.Became where
  trans _ _ _ h h' :=
    { jobId := h'.jobId.trans h.jobId
      consumerId := h'.consumerId.trans h.consumerId
      providerId := h'.providerId.trans h.providerId
      lockedNmc := h'.lockedNmc.trans h.lockedNmc
      released := h'.released ∘ h.released }

theorem Job.Became.refl (j : Job) : j.Became j :=
  ⟨rfl, rfl, rfl, .refl _, .refl _, .refl _, .refl _, id, id, id, id, id, id⟩

instance : Std.Refl Job.Became := ⟨Job.Became.refl⟩

instance : IsTrans Job Job.Became where
  trans _ _ _ h h' :=
    { consumerId := h'.consumerId.trans h.consumerId
      spec := h'.spec.trans h.spec
      createdAt := h'.createdAt.trans h.createdAt
      startedAt := h.startedAt.trans h'.startedAt
      completedAt := h.completedAt.trans h'.completedAt
      lastHeartbeat := h.lastHeartbeat.trans h'.lastHeartbeat
      restoreAttempts := h.restoreAttempts.trans h'.restoreAttempts
      pricePerHour := h'.pricePerHour ∘ h.pricePerHour
      outputHash := h'.outputHash ∘ h.outputHash
      actualRuntimeS := h'.actualRuntimeS ∘ h.actualRuntimeS
      wireguardEndpoint := h'.wireguardEndpoint ∘ h.wireguardEndpoint
      checkpointUrl := h'.checkpointUrl ∘ h.checkpointUrl
      failureReason := h'.failureReason ∘ h.failureReason }

theorem Capabilities.Became.refl (c : Capabilities) : c.Became c :=
  ⟨rfl, rfl, rfl, rfl, rfl, rfl⟩

theorem Capabilities.Became.trans {c c' c'' : Capabilities} (h : c.Became c') (h' : c'.Became c'') :
    c.Became c'' where
  metalVersion := h'.metalVersion.trans h.metalVersion
  serialNumber := h'.serialNumber.trans h.serialNumber
  maxJobRamGb := h'.maxJobRamGb.trans h.maxJobRamGb
  bandwidthMbps := h'.bandwidthMbps.trans h.bandwidthMbps
  region := h'.region.trans h.region
  nmVersion := h'.nmVersion.trans h.nmVersion

theorem Provider.Became.refl (p : Provider) : p.Became p := ⟨.refl _, .refl _, .refl _⟩

instance : Std.Refl Provider.Became := ⟨Provider.Became.refl⟩

instance : IsTrans Provider Provider.Became where
  trans _ _ _ h h' :=
    ⟨h.caps.trans h'.caps, h.jobsCompleted.trans h'.jobsCompleted, h.lastSeen.trans h'.lastSeen⟩

/-! ### Stamps -/

/-- No stamp of the job is later than the clock. -/
structure Job.StampedBy (now : Time) (j : Job) : Prop where
  createdAt : j.createdAt ≤ now
  startedAt : ∀ t ∈ j.startedAt, t ≤ now
  completedAt : ∀ t ∈ j.completedAt, t ≤ now
  lastHeartbeat : ∀ t ∈ j.lastHeartbeat, t ≤ now

/-- No stamp in the database is later than its clock. -/
structure Db.Clocked (s : Db) : Prop where
  jobs : ∀ k j, s.jobs.get? k = some j → j.StampedBy s.now
  providers : ∀ k p, s.providers.get? k = some p → ∀ t ∈ p.lastSeen, t ≤ s.now
  depositRecords : ∀ k d, s.depositRecords.get? k = some d → d.depositedAt ≤ s.now

theorem Db.Clocked.init : Db.init.Clocked where
  jobs _ _ hj := by cases hj
  providers _ _ hp := by cases hp
  depositRecords _ _ hd := by cases hd

theorem Db.Clocked.shuffled {s t : Db} (hclock : s.Clocked) (hshuffled : s.Shuffled t) :
    t.Clocked where
  jobs k j hj := by
    rw [← hshuffled.jobs.get?_eq] at hj
    obtain ⟨hcreated, hstarted, hcompleted, hheartbeat⟩ := hclock.jobs k j hj
    exact ⟨hcreated.trans hshuffled.now, fun t ht => (hstarted t ht).trans hshuffled.now,
      fun t ht => (hcompleted t ht).trans hshuffled.now,
      fun t ht => (hheartbeat t ht).trans hshuffled.now⟩
  providers k p hp seen hseen := by
    rw [← hshuffled.providers.get?_eq] at hp
    exact (hclock.providers k p hp seen hseen).trans hshuffled.now
  depositRecords k d hd := by
    rw [← hshuffled.depositRecords.get?_eq] at hd
    exact (hclock.depositRecords k d hd).trans hshuffled.now

/-- A job's row after a write still has only stamps from the past. -/
theorem JobsWrite.edit_stampedBy {now : Time} {k : JobId} (w : JobsWrite) {j : Job}
    (h : j.StampedBy now) : (w.edit now k j).StampedBy now := by
  have hnow : ∀ t ∈ some now, t ≤ now := by simp
  cases w with
  | insert jobId consumerId spec => exact h
  | close jobId state =>
      rw [edit]
      split
      · exact { h with completedAt := hnow }
      · exact h
  | report jobId state outputHash actualRuntimeS =>
      rw [edit]
      split
      · exact { h with completedAt := hnow }
      · exact h
  | giveUp jobId reason =>
      rw [edit]
      split
      · exact { h with completedAt := hnow }
      · exact h
  | heartbeat jobId providerId =>
      rw [edit]
      split
      · exact { h with lastHeartbeat := hnow }
      · exact h
  | checkpoint jobId url iteration =>
      rw [edit]
      split
      · exact { h with lastHeartbeat := hnow }
      · exact h
  | assign jobId providerId pricePerHour restore =>
      rw [edit]
      split
      · refine { h with startedAt := fun t ht => ?_ }
        cases ht
        cases hstarted : j.startedAt with
        | none => exact le_refl now
        | some first => exact h.startedAt first hstarted
      · exact h
  | cancelOwned _ _ | start _ | acknowledge _ _ _ | requeue _ =>
      rw [edit]
      split
      · exact { h with }
      · exact h

/-- A job's row after a write is a later version of it. -/
theorem JobsWrite.edit_became {now : Time} {k : JobId} (w : JobsWrite) {j : Job}
    (h : j.StampedBy now) : j.Became (w.edit now k j) := by
  have hsame := Job.Became.refl j
  cases w with
  | insert jobId consumerId spec => exact hsame
  | close jobId state =>
      rw [edit]
      split
      · exact { hsame with completedAt := .overwrite h.completedAt }
      · exact hsame
  | report jobId state outputHash actualRuntimeS =>
      rw [edit]
      split
      · exact { hsame with
          completedAt := .overwrite h.completedAt
          outputHash := fun _ => rfl
          actualRuntimeS := fun _ => rfl }
      · exact hsame
  | giveUp jobId reason =>
      rw [edit]
      split
      · exact { hsame with
          completedAt := .overwrite h.completedAt
          failureReason := fun _ => rfl }
      · exact hsame
  | heartbeat jobId providerId =>
      rw [edit]
      split
      · exact { hsame with lastHeartbeat := .overwrite h.lastHeartbeat }
      · exact hsame
  | checkpoint jobId url iteration =>
      rw [edit]
      split
      · exact { hsame with
          lastHeartbeat := .overwrite h.lastHeartbeat
          checkpointUrl := fun _ => rfl }
      · exact hsame
  | acknowledge jobId wireguardEndpoint sshPort =>
      rw [edit]
      split
      · exact { hsame with wireguardEndpoint := fun _ => rfl }
      · exact hsame
  | assign jobId providerId pricePerHour restore =>
      rw [edit]
      split
      · refine { hsame with
          pricePerHour := fun _ => rfl
          startedAt := .overwrite fun t ht => ?_
          restoreAttempts := .map fun n _ => ?_ }
        · rw [Option.mem_def.mp ht, Option.getD_some]
        · -- a restore is one more attempt, a first assignment none
          split <;> omega
      · exact hsame
  | requeue jobId =>
      rw [edit]
      split
      · exact { hsame with failureReason := fun _ => rfl }
      · exact hsame
  | cancelOwned _ _ | start _ =>
      rw [edit]
      split
      · exact { hsame with }
      · exact hsame

/-- A provider's row after a write has not been seen in the future. -/
theorem ProvidersWrite.edit_stampedBy {now : Time} {k : ProviderId} (w : ProvidersWrite)
    {p : Provider} (h : ∀ t ∈ p.lastSeen, t ≤ now) : ∀ t ∈ (w.edit now k p).lastSeen, t ≤ now := by
  cases w with
  | heartbeat providerId state gpuUtilPct ramUsedGb activeJobId =>
      rw [edit]
      split
      · simp
      · exact h
  | seen providerId gpuUtilPct ramUsedGb =>
      rw [edit]
      split
      · simp
      · exact h
  | _ =>
      rw [edit]
      split <;> exact h

/-- A provider's row after a write is a later version of it. -/
theorem ProvidersWrite.edit_became {now : Time} {k : ProviderId} (w : ProvidersWrite) {p : Provider}
    (h : ∀ t ∈ p.lastSeen, t ≤ now) : p.Became (w.edit now k p) := by
  have hsame := Provider.Became.refl p
  cases w with
  | register providerId caps =>
      rw [edit]
      split
      · exact { hsame with caps := { Capabilities.Became.refl p.caps with } }
      · exact hsame
  | heartbeat providerId state gpuUtilPct ramUsedGb activeJobId =>
      rw [edit]
      split
      · exact { hsame with lastSeen := .overwrite h }
      · exact hsame
  | seen providerId gpuUtilPct ramUsedGb =>
      rw [edit]
      split
      · exact { hsame with lastSeen := .overwrite h }
      · exact hsame
  | freeCompleted providerId =>
      rw [edit]
      split
      · exact { hsame with jobsCompleted := .map fun n _ => (Int.lt_succ n).le }
      · exact hsame
  | _ =>
      rw [edit]
      split
      · exact { hsame with }
      · exact hsame

/-! ### Every statement -/

/-- Whatever an earlier database holds is still there in a later one: entries of the books as they
were written, accounts, and the other rows as later versions of themselves. -/
structure Db.Grows (s t : Db) : Prop where
  now : s.now ≤ t.now
  accounts : s.accounts.Grows Eq t.accounts
  creditAccounts : ∀ c, (s.creditAccounts.get? c).isSome → (t.creditAccounts.get? c).isSome
  escrows : s.escrows.Grows Escrow.Became t.escrows
  jobs : s.jobs.Grows Job.Became t.jobs
  providers : s.providers.Grows Provider.Became t.providers
  transactions : s.transactions.Grows Eq t.transactions
  depositRecords : s.depositRecords.Grows Eq t.depositRecords
  milestoneRewards : s.milestoneRewards.Grows Eq t.milestoneRewards
  jobCheckpoints : s.jobCheckpoints.Grows Eq t.jobCheckpoints
  oracleRequests : s.oracleRequests <+: t.oracleRequests

namespace Db.Grows

variable {s t u : Db}

theorem refl (s : Db) : s.Grows s :=
  ⟨le_refl _, .refl _, fun _ => id, .refl _, .refl _, .refl _, .refl _, .refl _, .refl _, .refl _,
    List.prefix_refl _⟩

theorem trans (h : s.Grows t) (h' : t.Grows u) : s.Grows u where
  now := h.now.trans h'.now
  accounts := h.accounts.trans h'.accounts
  creditAccounts c := h'.creditAccounts c ∘ h.creditAccounts c
  escrows := h.escrows.trans h'.escrows
  jobs := h.jobs.trans h'.jobs
  providers := h.providers.trans h'.providers
  transactions := h.transactions.trans h'.transactions
  depositRecords := h.depositRecords.trans h'.depositRecords
  milestoneRewards := h.milestoneRewards.trans h'.milestoneRewards
  jobCheckpoints := h.jobCheckpoints.trans h'.jobCheckpoints
  oracleRequests := h.oracleRequests.trans h'.oracleRequests

theorem shuffled (hshuffled : s.Shuffled t) : s.Grows t where
  now := hshuffled.now
  accounts := .reordered hshuffled.accounts
  creditAccounts c := by
    rw [hshuffled.creditAccounts.get?_eq]
    exact id
  escrows := .reordered hshuffled.escrows
  jobs := .reordered hshuffled.jobs
  providers := .reordered hshuffled.providers
  transactions := .reordered hshuffled.transactions
  depositRecords := .reordered hshuffled.depositRecords
  milestoneRewards := .reordered hshuffled.milestoneRewards
  jobCheckpoints := .reordered hshuffled.jobCheckpoints
  oracleRequests := ⟨[], (List.append_nil _).trans hshuffled.oracleRequests⟩

end Db.Grows

theorem EscrowsWrite.apply_grows {s : Db} {w : EscrowsWrite} {escrows : Table EscrowId Escrow}
    (happly : w.apply s = some escrows) : s.escrows.Grows Escrow.Became escrows := by
  have hrelease : ∀ e : Escrow, e.Became e.release := fun _ => ⟨rfl, rfl, rfl, rfl, fun _ => rfl⟩
  cases w with
  | insert escrowId jobId consumerId providerId lockedNmc =>
      rw [apply] at happly
      split at happly
      · exact .insert? happly
      · cases happly
  | releaseOfJob jobId =>
      cases happly
      exact .updateWhere fun _ e _ _ => hrelease e
  | release escrowId =>
      cases happly
      exact .update fun e _ => hrelease e

/-- A credit account is never closed. -/
theorem AccountsWrite.apply_keeps {s : Db} (w : AccountsWrite) {c : AccountId}
    (hopen : (s.creditAccounts.get? c).isSome) : ((w.apply s).2.get? c).isSome := by
  have hgrows : s.creditAccounts.Grows (fun _ _ => True) (w.apply s).2 := by
    have hrefl : Std.Refl fun _ _ : CreditAccount => True := ⟨fun _ => trivial⟩
    cases w with
    | register accountId =>
        rw [apply]
        split
        · rename_i accounts hinsert
          exact .insert? hinsert
        · exact .refl _
    | earn _ _ | credit _ _ | refund _ _ _ => exact .upsert fun _ _ => trivial
    | releaseAll jobId =>
        rw [apply]
        split
        · rw [updateAccount_all]
          exact .update fun _ _ => trivial
        · exact .refl _
    | _ =>
        rw [apply, updateAccount]
        split
        · exact .update fun _ _ => trivial
        · exact .refl _
  obtain ⟨a, ha⟩ := Option.isSome_iff_exists.mp hopen
  obtain ⟨a', ha', -⟩ := hgrows c a ha
  rw [Option.mem_def.mp ha']
  rfl

theorem Account.insert_grows {s : Db} {accountId : AccountId} {row : Account}
    {accounts : Table AccountId Account} (hinsert : row.insert s accountId = some accounts) :
    s.accounts.Grows Eq accounts := by
  rw [Account.insert] at hinsert
  split at hinsert
  · cases hinsert
    exact .refl _
  · split at hinsert
    · cases hinsert
    · exact .insert? hinsert

theorem NewDeposit.rows_of_insert {s : Db} {d : NewDeposit} {records : Table String DepositRecord}
    (hinsert : d.insert s = some records) :
    ∃ row, row.depositedAt = s.now ∧ s.depositRecords.insert? d.stripeSessionId row = some records := by
  simp only [NewDeposit.insert, Option.bind_eq_bind, Option.bind_eq_some_iff] at hinsert
  obtain ⟨_, _, _, _, _, _, hchecks⟩ := hinsert
  split at hchecks
  · obtain ⟨_, _, hrefused⟩ := hchecks
    cases hrefused
  · obtain ⟨inserted, hinserted, hlimit⟩ := hchecks
    split at hlimit
    · cases hlimit
    · cases hlimit
      exact ⟨_, rfl, hinserted⟩

namespace Action

variable {q : Action} {s t : Db} {a : q.Answer}

/-- Only a deposit changes the deposit records. -/
theorem exec_depositRecords (hexec : q.exec s = some (a, t)) :
    t.depositRecords = s.depositRecords ∨
      ∃ row, q = .insertDeposit row ∧ row.insert s = some t.depositRecords := by
  cases q with
  | insertDeposit row =>
      obtain ⟨records, hinsert, heq⟩ := Option.map_eq_some_iff.mp hexec
      cases heq
      exact .inr ⟨row, rfl, hinsert⟩
  | read _ | creditAccounts _ | providers _ | oracle _ =>
      cases hexec
      exact .inl rfl
  | escrows _ | jobs _ | insertTransaction _ _ | insertAccount _ _ =>
      obtain ⟨_, _, heq⟩ := Option.map_eq_some_iff.mp hexec
      cases heq
      exact .inl rfl
  | insertMilestone providerId milestoneHours row =>
      rw [exec] at hexec
      split at hexec <;> cases hexec
      exact .inl rfl
  | insertCheckpoint checkpointId row =>
      rw [exec] at hexec
      split at hexec
      · obtain ⟨_, _, heq⟩ := Option.map_eq_some_iff.mp hexec
        cases heq
        exact .inl rfl
      · cases hexec
  | ledgerDeposit accountId amount reference txId =>
      simp only [exec] at hexec
      split at hexec <;> cases hexec <;> exact .inl rfl

theorem exec_clocked (hclock : s.Clocked) (hexec : q.exec s = some (a, t)) : t.Clocked where
  jobs k j hj := by
    rw [exec_now hexec]
    rcases exec_jobs hexec with hsame | ⟨w, -, happly⟩
    · rw [hsame] at hj
      exact hclock.jobs k j hj
    · cases hold : s.jobs.get? k with
      | none =>
          obtain ⟨consumerId, spec, -, rfl⟩ := JobsWrite.submitted_of_apply happly hold hj
          refine ⟨le_refl _, ?_, ?_, ?_⟩ <;> simp [Job.submitted]
      | some old =>
          rw [JobsWrite.get?_apply happly hold] at hj
          cases hj
          exact w.edit_stampedBy (hclock.jobs k old hold)
  providers k p hp := by
    rw [exec_now hexec]
    rcases exec_providers hexec with hsame | ⟨w, -, happly⟩
    · rw [hsame] at hp
      exact hclock.providers k p hp
    · rw [happly] at hp
      cases hold : s.providers.get? k with
      | none =>
          obtain ⟨caps, -, rfl⟩ := w.registered_of_apply hold hp
          simp [Provider.registered]
      | some old =>
          rw [w.get?_apply hold] at hp
          cases hp
          exact w.edit_stampedBy (hclock.providers k old hold)
  depositRecords k d hd := by
    rw [exec_now hexec]
    rcases exec_depositRecords hexec with hsame | ⟨row, -, hinsert⟩
    · rw [hsame] at hd
      exact hclock.depositRecords k d hd
    · obtain ⟨new, hnow, hinserted⟩ := row.rows_of_insert hinsert
      rcases Table.get?_insert?_cases hinserted hd with ⟨-, rfl⟩ | ⟨-, hold⟩
      · exact hnow.le
      · exact hclock.depositRecords k d hold

/-- A statement loses nothing that was written before it. -/
theorem exec_grows (hclock : s.Clocked) (hexec : q.exec s = some (a, t)) : s.Grows t := by
  have hsame := Db.Grows.refl s
  cases q with
  | read r =>
      cases hexec
      exact hsame
  | creditAccounts w =>
      cases hexec
      exact { hsame with creditAccounts := fun _ => w.apply_keeps }
  | escrows w =>
      obtain ⟨escrows, happly, heq⟩ := Option.map_eq_some_iff.mp hexec
      cases heq
      exact { hsame with escrows := EscrowsWrite.apply_grows happly }
  | jobs w =>
      obtain ⟨jobs, happly, heq⟩ := Option.map_eq_some_iff.mp hexec
      cases heq
      refine { hsame with jobs := fun k j hj => ?_ }
      exact ⟨_, JobsWrite.get?_apply happly hj, w.edit_became (hclock.jobs k j hj)⟩
  | providers w =>
      cases hexec
      refine { hsame with providers := fun k p hp => ?_ }
      exact ⟨_, w.get?_apply hp, w.edit_became (hclock.providers k p hp)⟩
  | insertTransaction txId row =>
      obtain ⟨transactions, hinsert, heq⟩ := Option.map_eq_some_iff.mp hexec
      cases heq
      exact { hsame with transactions := .insert? hinsert }
  | insertDeposit row =>
      obtain ⟨records, hinsert, heq⟩ := Option.map_eq_some_iff.mp hexec
      cases heq
      obtain ⟨_, _, hinserted⟩ := row.rows_of_insert hinsert
      exact { hsame with depositRecords := .insert? hinserted }
  | insertMilestone providerId milestoneHours row =>
      rw [exec] at hexec
      split at hexec
      · cases hexec
        -- a milestone that is already there stays as it is
        exact { hsame with milestoneRewards := .upsert fun _ _ => rfl }
      · cases hexec
  | insertCheckpoint checkpointId row =>
      rw [exec] at hexec
      split at hexec
      · obtain ⟨checkpoints, hinsert, heq⟩ := Option.map_eq_some_iff.mp hexec
        cases heq
        exact { hsame with jobCheckpoints := .insert? hinsert }
      · cases hexec
  | insertAccount accountId row =>
      obtain ⟨accounts, hinsert, heq⟩ := Option.map_eq_some_iff.mp hexec
      cases heq
      exact { hsame with accounts := Account.insert_grows hinsert }
  | oracle request =>
      cases hexec
      exact { hsame with oracleRequests := List.prefix_append _ _ }
  | ledgerDeposit accountId amount reference txId =>
      have hcredited : ∀ c, (s.creditAccounts.get? c).isSome →
          ((AccountsWrite.apply s (.credit accountId amount)).2.get? c).isSome :=
        fun _ => AccountsWrite.apply_keeps _
      simp only [exec] at hexec
      split at hexec
      · rename_i transactions hinsert
        cases hexec
        exact { hsame with creditAccounts := hcredited, transactions := .insert? hinsert }
      · cases hexec
        exact { hsame with creditAccounts := hcredited }

end Action

end NeuralMesh
