import NeuralMesh.System.Statements
import NeuralMesh.Coordinator.Books
import NeuralMesh.Proof.Credits
import Mathlib.Tactic.Linarith

/-!
# The escrow column and the escrow rows

`escrowed_nmc` of an account is meant to be the sum of its locked rows in `escrows`. Each job
operation writes one of the two sides, or both; `Booked` is what they have to restore together, and
`KeepsColumn` says from which databases they do.
-/

namespace NeuralMesh

open Coordinator

/-- What is locked for an account according to `escrows`. -/
def lockedOf (escrows : Table EscrowId Escrow) (c : AccountId) : ℚ :=
  escrows.sum fun _ e => if e.consumerId = c ∧ e.state = .locked then e.lockedNmc else 0

/-- Every account's column is the sum of its locked rows, and zero once all its jobs are final. -/
structure EscrowColumn (s : Db) : Prop where
  column : ∀ c, ∀ a ∈ s.creditAccounts.get? c, a.escrowedNmc = some (lockedOf s.escrows c)
  settled : ∀ c, (∀ jobId, ∀ job ∈ s.jobs.get? jobId, job.consumerId = c → job.state.isTerminal) →
    ∀ a ∈ s.creditAccounts.get? c, a.escrowedNmc = some 0

/-! ### Balances and rows -/

/-- The balances fit the rows; an account that has no row yet has nothing locked. -/
structure Balanced (accounts : Table AccountId CreditAccount) (escrows : Table EscrowId Escrow) :
    Prop where
  column : ∀ c, ∀ a ∈ accounts.get? c, a.escrowedNmc = some (lockedOf escrows c)
  missing : ∀ escrowId, ∀ e ∈ escrows.get? escrowId, e.state = .locked →
    accounts.get? e.consumerId = none → e.lockedNmc = 0

theorem lockedOf_eq_zero {escrows : Table EscrowId Escrow} {c : AccountId}
    (hzero : ∀ escrowId, ∀ e ∈ escrows.get? escrowId, e.consumerId = c → e.state = .locked →
      e.lockedNmc = 0) : lockedOf escrows c = 0 := by
  refine Table.sum_eq_zero fun escrowId e he => ?_
  split
  · rename_i hlocked
    exact hzero escrowId e he hlocked.1 hlocked.2
  · rfl

/-- Releasing a locked row takes its amount off its consumer's sum. -/
theorem lockedOf_release {escrows : Table EscrowId Escrow} {escrowId : EscrowId} {e : Escrow}
    (hget : escrows.get? escrowId = some e) (hlocked : e.state = .locked) (c : AccountId) :
    lockedOf (escrows.update escrowId .release) c =
      lockedOf escrows c - if e.consumerId = c then e.lockedNmc else 0 := by
  unfold lockedOf
  rw [Table.sum_update, hget, Option.elim_some]
  simp [Escrow.release, hlocked, sub_eq_add_neg]

theorem lockedOf_insert {escrows escrows' : Table EscrowId Escrow} {escrowId : EscrowId}
    {e : Escrow} (hinsert : escrows.insert? escrowId e = some escrows') (hlocked : e.state = .locked)
    (c : AccountId) :
    lockedOf escrows' c = lockedOf escrows c + if e.consumerId = c then e.lockedNmc else 0 := by
  unfold lockedOf
  rw [Table.sum_of_insert? hinsert]
  simp [hlocked]

/-- A row of the table after one of its rows was released. -/
theorem get?_release {escrows : Table EscrowId Escrow} {escrowId k : EscrowId} {r : Escrow}
    (hget : (escrows.update escrowId .release).get? k = some r) :
    ∃ r₀, escrows.get? k = some r₀ ∧ r.jobId = r₀.jobId ∧ r.consumerId = r₀.consumerId ∧
      r.lockedNmc = r₀.lockedNmc ∧ (r.state = .locked → r = r₀ ∧ k ≠ escrowId) := by
  rcases Table.get?_update_cases hget with ⟨r₀, rfl, hr₀, rfl⟩ | ⟨hne, hold⟩
  · exact ⟨r₀, hr₀, rfl, rfl, rfl, fun hlocked => by cases hlocked⟩
  · exact ⟨r, hold, rfl, rfl, rfl, fun _ => ⟨rfl, hne⟩⟩

namespace Balanced

variable {accounts accounts' : Table AccountId CreditAccount} {escrows : Table EscrowId Escrow}

theorem lockedOf_missing (hb : Balanced accounts escrows) {c : AccountId}
    (hnone : accounts.get? c = none) : lockedOf escrows c = 0 :=
  lockedOf_eq_zero fun escrowId e he heq hlocked => hb.missing escrowId e he hlocked (heq ▸ hnone)

/-- An update that leaves the column as it is. -/
theorem update (hb : Balanced accounts escrows) (c : AccountId) {f : CreditAccount → CreditAccount}
    (hf : ∀ a ∈ accounts.get? c, (f a).escrowedNmc = a.escrowedNmc) :
    Balanced (accounts.update c f) escrows where
  column := by
    intro c' a' ha'
    rcases Table.get?_update_cases ha' with ⟨a, rfl, ha, rfl⟩ | ⟨-, hold⟩
    · rw [hf a ha]
      exact hb.column c' a ha
    · exact hb.column c' a' hold
  missing := by
    intro escrowId e he hlocked hnone
    refine hb.missing escrowId e he hlocked ?_
    rw [Table.get?_update] at hnone
    split at hnone
    · rename_i heq
      exact heq ▸ Option.map_eq_none_iff.mp hnone
    · exact hnone

/-- A credit that leaves the column as it is, or opens an account. -/
theorem upsert (hb : Balanced accounts escrows) (c : AccountId) {a : CreditAccount}
    {f : CreditAccount → CreditAccount} (ha : a.escrowedNmc = some 0)
    (hf : ∀ a, (f a).escrowedNmc = a.escrowedNmc) : Balanced (accounts.upsert c a f) escrows where
  column := by
    intro c' a' ha'
    rcases Table.get?_upsert_cases ha' with ⟨rfl, hget, rfl⟩ | ⟨b, rfl, hget, rfl⟩ | ⟨-, hold⟩
    · rw [hb.lockedOf_missing hget, ha]
    · rw [hf]
      exact hb.column c' b hget
    · exact hb.column c' a' hold
  missing := by
    intro escrowId e he hlocked hnone
    refine hb.missing escrowId e he hlocked ?_
    rw [Table.get?_upsert] at hnone
    split at hnone
    · cases hnone
    · exact hnone

/-- Recording a locked row and adding its amount to the column. -/
theorem lock (hb : Balanced accounts escrows) {escrows' : Table EscrowId Escrow}
    {escrowId : EscrowId} {e : Escrow} (hinsert : escrows.insert? escrowId e = some escrows')
    (hlocked : e.state = .locked) (hnone : accounts.get? e.consumerId = none → e.lockedNmc = 0) :
    Balanced (accounts.update e.consumerId (.lock e.lockedNmc)) escrows' where
  column := by
    intro c a' ha'
    rw [lockedOf_insert hinsert hlocked]
    rcases Table.get?_update_cases ha' with ⟨a, rfl, ha, rfl⟩ | ⟨hne, hold⟩
    · rw [if_pos rfl, CreditAccount.lock, hb.column _ a ha, nullAdd_some]
    · rw [if_neg (Ne.symm hne), add_zero]
      exact hb.column c a' hold
  missing := by
    intro k r hr hrlocked hmissing
    have hbefore : accounts.get? r.consumerId = none := by
      rw [Table.get?_update] at hmissing
      split at hmissing
      · rename_i heq
        exact heq ▸ Option.map_eq_none_iff.mp hmissing
      · exact hmissing
    rcases Table.get?_insert?_cases hinsert hr with ⟨-, rfl⟩ | ⟨-, hr₀⟩
    · exact hnone hbefore
    · exact hb.missing k r hr₀ hrlocked hbefore

/-- Releasing a locked row and taking its amount off the column. -/
theorem release (hb : Balanced accounts escrows) {escrowId : EscrowId} {e : Escrow}
    (hget : escrows.get? escrowId = some e) (hlocked : e.state = .locked)
    (hother : ∀ c, c ≠ e.consumerId → accounts'.get? c = accounts.get? c)
    (hself : ∀ a ∈ accounts'.get? e.consumerId,
      a.escrowedNmc = some (lockedOf escrows e.consumerId - e.lockedNmc))
    (hpresent : accounts'.get? e.consumerId = none → accounts.get? e.consumerId = none) :
    Balanced accounts' (escrows.update escrowId .release) where
  column := by
    intro c a ha
    rw [lockedOf_release hget hlocked]
    by_cases heq : e.consumerId = c
    · subst heq
      rw [if_pos rfl]
      exact hself a ha
    · rw [if_neg heq, sub_zero]
      exact hb.column c a (hother c (Ne.symm heq) ▸ ha)
  missing := by
    intro k r hr hrlocked hnone
    obtain ⟨r₀, hr₀, -, hconsumer, hamount, hsame⟩ := get?_release hr
    obtain ⟨rfl, -⟩ := hsame hrlocked
    refine hb.missing k r hr₀ hrlocked ?_
    by_cases heq : r.consumerId = e.consumerId
    · rw [heq] at hnone ⊢
      exact hpresent hnone
    · rwa [← hother _ heq]

end Balanced

/-! ### Rows and jobs -/

/-- Every escrow row belongs to a job of its consumer, no two to the same job, and what a row still
locks belongs to a job that is not final. -/
structure Linked (escrows : Table EscrowId Escrow) (jobs : Table JobId Job) : Prop where
  owner : ∀ escrowId, ∀ e ∈ escrows.get? escrowId,
    ∃ job ∈ jobs.get? e.jobId, job.consumerId = e.consumerId
  single : ∀ escrowId escrowId', ∀ e ∈ escrows.get? escrowId, ∀ e' ∈ escrows.get? escrowId',
    e.jobId = e'.jobId → escrowId = escrowId'
  live : ∀ escrowId, ∀ e ∈ escrows.get? escrowId, e.state = .locked → e.lockedNmc ≠ 0 →
    ∀ job ∈ jobs.get? e.jobId, job.state.isTerminal = false

/-- Nothing but zero is locked for the job. -/
def Unlocked (escrows : Table EscrowId Escrow) (jobId : JobId) : Prop :=
  ∀ row ∈ firstLocked escrows jobId, row.2.lockedNmc = 0

namespace Linked

variable {escrows : Table EscrowId Escrow} {jobs : Table JobId Job}

/-- The locked row of a job, if it has one, is the one a settlement finds. -/
theorem firstLocked_eq (hl : Linked escrows jobs) {escrowId : EscrowId} {e : Escrow}
    (hget : escrows.get? escrowId = some e) (hlocked : e.state = .locked) :
    firstLocked escrows e.jobId = some (escrowId, e) := by
  cases hfirst : firstLocked escrows e.jobId with
  | none =>
      have hnone := List.find?_eq_none.mp hfirst _ (Table.mem_rows_iff.mpr hget)
      simp [hlocked] at hnone
  | some row =>
      obtain ⟨hrow, hjob, -⟩ := firstLocked_eq_some hfirst
      have hid := hl.single row.1 escrowId row.2 hrow e hget hjob
      obtain ⟨k, r⟩ := row
      simp only at hid hrow
      subst hid
      rw [hrow] at hget
      cases hget
      rfl

/-- Releasing the rows of a job releases the one row it has, if that is locked. -/
theorem releaseOfJob_eq (hl : Linked escrows jobs) (jobId : JobId) :
    escrows.updateWhere (fun _ e => e.jobId = jobId ∧ e.state = .locked) .release =
      match firstLocked escrows jobId with
      | none => escrows
      | some row => escrows.update row.1 .release := by
  cases hfirst : firstLocked escrows jobId with
  | none =>
      refine Table.updateWhere_of_forall_not (fun row hrow => ?_) _
      simpa using List.find?_eq_none.mp hfirst row hrow
  | some first =>
      obtain ⟨hget, hjob, hlocked⟩ := firstLocked_eq_some hfirst
      refine Table.updateWhere_congr (fun row hrow => ?_) _
      have hrowget := Table.mem_rows_iff.mp hrow
      rw [decide_eq_decide]
      constructor
      · rintro ⟨hrowjob, hrowlocked⟩
        exact hl.single _ _ _ hrowget _ hget (hrowjob.trans hjob.symm)
      · intro hid
        rw [hid, hget] at hrowget
        rw [← Option.some.inj hrowget]
        exact ⟨hjob, hlocked⟩

theorem release (hl : Linked escrows jobs) (escrowId : EscrowId) :
    Linked (escrows.update escrowId .release) jobs where
  owner := by
    intro k r hr
    obtain ⟨r₀, hr₀, hjob, hconsumer, -, -⟩ := get?_release hr
    rw [hjob, hconsumer]
    exact hl.owner k r₀ hr₀
  single := by
    intro k k' r hr r' hr' heq
    obtain ⟨r₀, hr₀, hjob, -⟩ := get?_release hr
    obtain ⟨r₀', hr₀', hjob', -⟩ := get?_release hr'
    exact hl.single k k' r₀ hr₀ r₀' hr₀' (hjob ▸ hjob' ▸ heq)
  live := by
    intro k r hr hlocked hamount
    obtain ⟨r₀, hr₀, -, -, -, hsame⟩ := get?_release hr
    obtain ⟨rfl, -⟩ := hsame hlocked
    exact hl.live k r hr₀ hlocked hamount

/-- After its row was released, nothing is locked for a job. -/
theorem unlocked_release (hl : Linked escrows jobs) {escrowId : EscrowId} {e : Escrow}
    (hget : escrows.get? escrowId = some e) :
    Unlocked (escrows.update escrowId .release) e.jobId := by
  intro row hrow
  obtain ⟨hrowget, hjob, hlocked⟩ := firstLocked_eq_some hrow
  obtain ⟨r₀, hr₀, hjob₀, -, -, hsame⟩ := get?_release hrowget
  obtain ⟨heq, hne⟩ := hsame hlocked
  exact (hne (hl.single _ _ r₀ hr₀ e hget (hjob₀ ▸ hjob))).elim

/-- The jobs move on: each keeps its consumer, and ends only when nothing is locked for it. -/
theorem move (hl : Linked escrows jobs) {jobs' : Table JobId Job}
    (hmoved : ∀ jobId, ∀ job ∈ jobs.get? jobId, ∃ job' ∈ jobs'.get? jobId,
      job'.consumerId = job.consumerId ∧
        (job.state.isTerminal = false → job'.state.isTerminal → Unlocked escrows jobId)) :
    Linked escrows jobs' where
  owner := by
    intro k e he
    obtain ⟨job, hjob, hconsumer⟩ := hl.owner k e he
    obtain ⟨job', hjob', hsame, -⟩ := hmoved _ job hjob
    exact ⟨job', hjob', hsame.trans hconsumer⟩
  single := hl.single
  live := by
    intro k e he hlocked hamount job' hjob'
    obtain ⟨job, hjob, -⟩ := hl.owner k e he
    obtain ⟨job'', hjob'', -, hends⟩ := hmoved _ job hjob
    cases hjob'.symm.trans hjob''
    by_contra hterminal
    have hunlocked := hends (hl.live k e he hlocked hamount job hjob) (by simpa using hterminal)
    exact hamount (hunlocked _ (hl.firstLocked_eq he hlocked))

/-- Some jobs move on in the same way. -/
theorem updateWhere (hl : Linked escrows jobs) {p : JobId → Job → Bool} {f : Job → Job}
    (hconsumer : ∀ job, (f job).consumerId = job.consumerId)
    (hends : ∀ jobId, ∀ job ∈ jobs.get? jobId, p jobId job → job.state.isTerminal = false →
      (f job).state.isTerminal → Unlocked escrows jobId) :
    Linked escrows (jobs.updateWhere p f) := by
  refine hl.move fun k job hjob => ⟨if p k job then f job else job, ?_, ?_, fun hlive => ?_⟩
  · rw [Option.mem_def, Table.get?_updateWhere, Option.mem_def.mp hjob, Option.map_some]
  · split
    · exact hconsumer job
    · rfl
  · split
    · rename_i hp
      exact hends k job hjob hp hlive
    · intro hterminal
      rw [hlive] at hterminal
      cases hterminal

/-- One job moves on. -/
theorem update (hl : Linked escrows jobs) {k : JobId} {f : Job → Job}
    (hconsumer : ∀ job, (f job).consumerId = job.consumerId)
    (hends : ∀ job ∈ jobs.get? k, job.state.isTerminal = false → (f job).state.isTerminal →
      Unlocked escrows k) : Linked escrows (jobs.update k f) := by
  refine hl.updateWhere hconsumer fun k' job hjob hk hlive hterminal => ?_
  have heq : k' = k := of_decide_eq_true hk
  subst heq
  exact hends job hjob hlive hterminal

theorem insert (hl : Linked escrows jobs) {jobs' : Table JobId Job} {jobId : JobId} {job : Job}
    (hinsert : jobs.insert? jobId job = some jobs') : Linked escrows jobs' := by
  refine hl.move fun k j hj => ⟨j, ?_, rfl, fun hlive hterminal => ?_⟩
  · rw [Option.mem_def, Table.get?_of_insert? hinsert, if_neg]
    · exact hj
    · rintro rfl
      rw [(Table.rows_of_insert? hinsert).1] at hj
      cases hj
  · rw [hlive] at hterminal
    cases hterminal

/-- The first row of a job that is not final is recorded. -/
theorem record (hl : Linked escrows jobs) {escrows' : Table EscrowId Escrow}
    {escrowId : EscrowId} {e : Escrow} (hinsert : escrows.insert? escrowId e = some escrows')
    (hfirst : ∀ k, ∀ r ∈ escrows.get? k, r.jobId ≠ e.jobId) {j : Job}
    (hjob : jobs.get? e.jobId = some j) (hconsumer : j.consumerId = e.consumerId)
    (hstate : j.state.isTerminal = false) : Linked escrows' jobs where
  owner := by
    intro k r hr
    rcases Table.get?_insert?_cases hinsert hr with ⟨-, rfl⟩ | ⟨-, hr₀⟩
    · exact ⟨j, hjob, hconsumer⟩
    · exact hl.owner k r hr₀
  single := by
    intro k k' r hr r' hr' heq
    rcases Table.get?_insert?_cases hinsert hr with ⟨rfl, rfl⟩ | ⟨-, hr₀⟩
    · rcases Table.get?_insert?_cases hinsert hr' with ⟨rfl, -⟩ | ⟨-, hr₀'⟩
      · rfl
      · exact (hfirst k' r' hr₀' heq.symm).elim
    · rcases Table.get?_insert?_cases hinsert hr' with ⟨-, rfl⟩ | ⟨-, hr₀'⟩
      · exact (hfirst k r hr₀ heq).elim
      · exact hl.single k k' r hr₀ r' hr₀' heq
  live := by
    intro k r hr hlocked hamount job' hjob'
    rcases Table.get?_insert?_cases hinsert hr with ⟨-, rfl⟩ | ⟨-, hr₀⟩
    · cases hjob.symm.trans hjob'
      exact hstate
    · exact hl.live k r hr₀ hlocked hamount job' hjob'

end Linked

/-! ### The invariant -/

/-- The books of the job handlers are in order. -/
structure Booked (b : Books) : Prop where
  balanced : Balanced b.accounts b.escrows
  linked : Linked b.escrows b.jobs

theorem Booked.parts {s : Db} (hb : Booked s.books) :
    Balanced s.creditAccounts s.escrows ∧ Linked s.escrows s.jobs :=
  ⟨hb.balanced, hb.linked⟩

theorem Booked.escrowColumn {s : Db} (hb : Booked s.books) : EscrowColumn s where
  column := hb.balanced.column
  settled := by
    intro c hfinal a ha
    rw [hb.balanced.column c a ha]
    refine congrArg some (lockedOf_eq_zero fun escrowId e he hconsumer hlocked => ?_)
    by_contra hamount
    obtain ⟨job, hjob, howner⟩ := hb.linked.owner escrowId e he
    have hlive := hb.linked.live escrowId e he hlocked hamount job hjob
    rw [hfinal _ job hjob (howner.trans hconsumer)] at hlive
    cases hlive

theorem booked_init : Booked Db.init.books where
  balanced := ⟨fun _ _ h => (by cases h), fun _ _ h => (by cases h)⟩
  linked := ⟨fun _ _ h => (by cases h), fun _ _ _ h => (by cases h), fun _ _ h => (by cases h)⟩

theorem Booked.shuffled {s t : Db} (hb : Booked s.books) (hshuffled : s.Shuffled t) :
    Booked t.books := by
  have haccounts := hshuffled.creditAccounts.get?_eq
  have hescrows := hshuffled.escrows.get?_eq
  have hjobs := hshuffled.jobs.get?_eq
  have hlocked : ∀ c, lockedOf s.escrows c = lockedOf t.escrows c := fun c =>
    hshuffled.escrows.sum_eq _
  constructor
  · constructor
    · intro c a ha
      have hcolumn := hb.balanced.column c a ((haccounts c).trans ha)
      exact hcolumn.trans (congrArg some (hlocked c))
    · intro k e he hstate hnone
      exact hb.balanced.missing k e ((hescrows k).trans he) hstate ((haccounts _).trans hnone)
  · constructor
    · intro k e he
      obtain ⟨job, hjob, hconsumer⟩ := hb.linked.owner k e ((hescrows k).trans he)
      exact ⟨job, (hjobs _).symm.trans hjob, hconsumer⟩
    · intro k k' e he e' he' heq
      exact hb.linked.single k k' e ((hescrows k).trans he) e' ((hescrows k').trans he') heq
    · intro k e he hstate hamount job hjob
      exact hb.linked.live k e ((hescrows k).trans he) hstate hamount job ((hjobs _).trans hjob)

/-! ### The operations -/

/-- The submission locks nothing for an account that does not exist. -/
def SubmitKeeps (s : Db) (body : SubmitJobBody) : Prop :=
  (s.creditAccounts.get? body.accountId).isNone → 0 ≤ body.maxCost

instance (s : Db) (body : SubmitJobBody) : Decidable (SubmitKeeps s body) :=
  inferInstanceAs (Decidable (_ → _))

theorem submitJob_booked {s : Db} (hb : Booked s.books) {ids : SubmitIds} {body : SubmitJobBody}
    (hsucceeds : (submitJob ids body).Succeeds Action.exec s) (hkeeps : SubmitKeeps s body) :
    Booked ((submitJob ids body).run Action.exec s).2.books := by
  rcases submitJob_books s ids body with
    hsame | ⟨hcovered, jobs, hjobs, ⟨escrows, hescrows, hlocked⟩ | ⟨hfails, -⟩⟩
  · rw [hsame]
    exact hb
  · rw [hlocked]
    have hfresh := (Table.rows_of_insert? hjobs).1
    have hnone : s.creditAccounts.get? body.accountId = none → body.maxCost = 0 := by
      intro hmissing
      have hpos := hkeeps (by rw [hmissing]; rfl)
      rw [availableOrZero, hmissing] at hcovered
      exact le_antisymm hcovered hpos
    refine ⟨hb.balanced.lock hescrows rfl hnone, (hb.linked.insert hjobs).record hescrows
      (j := .submitted s.now body.accountId body.spec) ?_ ?_ rfl rfl⟩
    · intro k r hr heq
      obtain ⟨job, hjob, -⟩ := hb.linked.owner k r hr
      rw [heq] at hjob
      cases hfresh.symm.trans hjob
    · rw [Table.get?_of_insert? hjobs]
      exact if_pos rfl
  · exact (hfails hsucceeds).elim

/-- A clamped refund of what is covered takes it off the column. -/
theorem refundJob_escrowed {a : CreditAccount} {locked e : ℚ} (he : a.escrowedNmc = some e)
    (hcovered : locked ≤ e) : (a.refundJob (some locked)).escrowedNmc = some (e - locked) := by
  rw [CreditAccount.refundJob, he, nullSub_some, greatestZero_some, max_eq_right (by linarith)]

/-- The cancelled job's locked row is covered by the column, or, without one, the column is
zero. -/
def CancelClears (s : Db) (jobId : JobId) : Prop :=
  ∀ job ∈ s.jobs.get? jobId, job.state.isTerminal = false →
    ∀ a ∈ s.creditAccounts.get? job.consumerId,
      (∀ row ∈ firstLocked s.escrows jobId, row.2.lockedNmc ≤ a.escrowedNmc.getD 0) ∧
        ((firstLocked s.escrows jobId).isNone → a.escrowedNmc.getD 0 = 0)

instance (s : Db) (jobId : JobId) : Decidable (CancelClears s jobId) :=
  inferInstanceAs (Decidable (∀ job ∈ s.jobs.get? jobId, _))

theorem cancelJob_booked {s : Db} (hb : Booked s.books) {jobId : JobId}
    (hclears : CancelClears s jobId) :
    Booked ((cancelJob jobId).run Action.exec s).2.books := by
  obtain ⟨hbalanced, hlink⟩ := hb.parts
  have hrelease : s.escrows.updateWhere (fun _ e => e.jobId = jobId ∧ e.state = .locked) .release =
    _ := hlink.releaseOfJob_eq jobId
  rw [cancelJob_books, hrelease]
  cases hjob : s.jobs.get? jobId with
  | none => exact hb
  | some job =>
      dsimp only
      split
      · exact hb
      rename_i hstate
      have hrow := hclears job hjob (by simpa using hstate)
      cases hfirst : firstLocked s.escrows jobId with
      | none =>
          refine ⟨hbalanced.update _ fun a ha => ?_, hlink.update (fun _ => rfl) ?_⟩
          · have hzero := (hrow a ha).2 (by rw [hfirst]; rfl)
            have hcolumn : a.escrowedNmc = _ := hbalanced.column _ a ha
            rw [hcolumn, Option.getD_some] at hzero
            rw [hcolumn, hzero]
            simp [CreditAccount.refundJob]
          · intro _ _ _ _ row hfound
            cases hfirst.symm.trans hfound
      | some row =>
          obtain ⟨escrowId, e⟩ := row
          obtain ⟨hget, hejob, hlocked⟩ := firstLocked_eq_some hfirst
          obtain ⟨job', hjob', howner⟩ := hlink.owner _ e hget
          have hconsumer : job.consumerId = e.consumerId := by
            rw [hejob, hjob] at hjob'
            cases hjob'
            exact howner
          have hlinked : Linked _ _ :=
            (hlink.release escrowId).update (f := .close s.now .cancelled) (k := jobId)
              (fun _ => rfl) fun _ _ _ _ => hejob ▸ hlink.unlocked_release hget
          refine ⟨hbalanced.release hget hlocked ?_ ?_ ?_, hlinked⟩
          · intro c hne
            exact Table.get?_update_of_ne _ _ (hconsumer ▸ hne)
          · intro a' ha'
            rw [hconsumer, Option.mem_def, Table.get?_update_self] at ha'
            obtain ⟨a, ha, rfl⟩ := Option.map_eq_some_iff.mp ha'
            have hcolumn : a.escrowedNmc = _ := hbalanced.column _ a ha
            have hcovered := (hrow a (hconsumer ▸ ha)).1 _ hfirst
            rw [hcolumn, Option.getD_some] at hcovered
            exact refundJob_escrowed hcolumn hcovered
          · intro hmissing
            rw [hconsumer, Table.get?_update_self] at hmissing
            exact Option.map_eq_none_iff.mp hmissing

/-- The completed job has nothing locked, and charging its consumer leaves the column as it is. -/
def CompleteClears (s : Db) (jobId : JobId) (body : CompleteJobBody) : Prop :=
  ∀ job ∈ s.jobs.get? jobId, job.providerId = some body.providerId →
    Unlocked s.escrows jobId ∧
      ((s.creditAccounts.get? job.consumerId).isSome ∨ job.consumerId = body.providerId →
        let escrowed := ((s.creditAccounts.get? job.consumerId).bind CreditAccount.escrowedNmc).getD 0
        let gross := grossNmc job body
        gross = 0 ∧ 0 ≤ escrowed ∨ escrowed = 0 ∧ 0 ≤ gross)

theorem completeJob_booked {s : Db} (hb : Booked s.books) {config : Config} {txId : TxId}
    {jobId : JobId} {body : CompleteJobBody} (hclears : CompleteClears s jobId body) :
    Booked ((completeJob config txId jobId body).run Action.exec s).2.books := by
  rw [completeJob_books]
  split
  · exact hb
  · rename_i job hjob
    obtain ⟨hget, hprovider⟩ := Option.filter_eq_some_iff.mp hjob
    obtain ⟨hunlocked, hcharge⟩ := hclears job hget (by simpa using hprovider)
    refine ⟨?_, hb.linked.update (fun _ => rfl) fun _ _ _ _ => hunlocked⟩
    generalize grossNmc job body = gross at hcharge ⊢
    dsimp only
    generalize gross * (1 - platformFee) = net
    have hearned : Balanced (s.creditAccounts.upsert body.providerId (.opened net net) (.earn net))
        s.escrows := hb.balanced.upsert _ rfl fun _ => rfl
    refine hearned.update _ fun a ha => ?_
    have hcolumn : a.escrowedNmc = _ := hearned.column _ a ha
    have hpresent : (s.creditAccounts.get? job.consumerId).isSome ∨
        job.consumerId = body.providerId := by
      rw [Option.mem_def, Table.get?_upsert] at ha
      split at ha <;> simp_all
    have hescrowed : ((s.creditAccounts.get? job.consumerId).bind CreditAccount.escrowedNmc).getD 0 =
        lockedOf s.escrows job.consumerId := by
      cases hb₀ : s.creditAccounts.get? job.consumerId with
      | none => exact (hb.balanced.lockedOf_missing hb₀).symm
      | some b =>
          rw [Option.bind_some, show b.escrowedNmc = _ from hb.balanced.column _ b hb₀]
          rfl
    have hclamp := hcharge hpresent
    dsimp only at hclamp
    rw [hescrowed] at hclamp
    rw [CreditAccount.charge, hcolumn, nullSub_some, greatestZero_some]
    rcases hclamp with ⟨hzero, hpos⟩ | ⟨hzero, hpos⟩
    · rw [hzero, sub_zero, max_eq_right hpos]
    · rw [hzero, zero_sub, max_eq_left (by linarith)]

/-- The failed job has nothing locked, and neither has its consumer. -/
def FailClears (s : Db) (jobId : JobId) : Prop :=
  ∀ job ∈ s.jobs.get? jobId, Unlocked s.escrows jobId ∧
    ∀ a ∈ s.creditAccounts.get? job.consumerId, a.escrowedNmc.getD 0 = 0

theorem failJob_booked {s : Db} (hb : Booked s.books) {config : Config} {jobId : JobId}
    {body : FailJobBody} (hclears : FailClears s jobId) :
    Booked ((failJob config jobId body).run Action.exec s).2.books := by
  rw [failJob_books]
  refine ⟨?_, hb.linked.update (fun _ => rfl) fun job hjob _ _ => (hclears job hjob).1⟩
  dsimp only
  cases hjob : s.jobs.get? jobId with
  | none => exact hb.balanced
  | some job =>
      refine hb.balanced.update _ fun a ha => ?_
      have hzero := (hclears job hjob).2 a ha
      have hcolumn : a.escrowedNmc = _ := hb.balanced.column _ a ha
      rw [hcolumn, Option.getD_some] at hzero
      rw [hcolumn, hzero]
      rfl

/-- The locked row of the job given up is covered by the column. -/
def MigrateClears (s : Db) (jobId : JobId) : Prop :=
  ∀ job ∈ s.jobs.get? jobId, job.state.inProgress → restorable job = false →
    ∀ row ∈ firstLocked s.escrows jobId, ∀ a ∈ s.creditAccounts.get? row.2.consumerId,
      row.2.lockedNmc ≤ a.escrowedNmc.getD 0

theorem migrateOrFail_booked {s : Db} (hb : Booked s.books) {jobId : JobId}
    (hclears : MigrateClears s jobId) : Booked (s.books.migrateOrFail s.now jobId) := by
  unfold Books.migrateOrFail
  dsimp only [Db.books] at hb ⊢
  cases hjob : s.jobs.get? jobId with
  | none => exact hb
  | some job =>
      dsimp only
      split
      · exact hb
      rename_i hstate
      split
      · exact ⟨hb.balanced, hb.linked.update (fun _ => rfl) fun _ _ _ hterminal => by
          simp [Job.requeue, JobState.isTerminal] at hterminal⟩
      rename_i hrestorable
      have hrow := hclears job hjob (by simpa using hstate) (by simpa using hrestorable)
      unfold Books.refundJob
      dsimp only
      cases hfirst : firstLocked s.escrows jobId with
      | none =>
          refine ⟨hb.balanced, hb.linked.update (fun _ => rfl) ?_⟩
          intro _ _ _ _ row hfound
          cases hfirst.symm.trans hfound
      | some row =>
          obtain ⟨escrowId, e⟩ := row
          obtain ⟨hget, hejob, hlocked⟩ := firstLocked_eq_some hfirst
          have hlinked : Linked _ _ :=
            (hb.linked.release escrowId).update (f := .giveUp s.now (failureReason job))
              (k := jobId) (fun _ => rfl) fun _ _ _ _ => hejob ▸ hb.linked.unlocked_release hget
          refine ⟨hb.balanced.release hget hlocked ?_ ?_ ?_, hlinked⟩
          · intro c hne
            rw [Table.get?_upsert, if_neg hne]
          · intro a' ha'
            rw [Option.mem_def, Table.get?_upsert, if_pos rfl] at ha'
            cases ha : s.creditAccounts.get? e.consumerId with
            | none =>
                have hzero := hb.balanced.missing _ e hget hlocked ha
                rw [ha] at ha'
                cases ha'
                rw [hb.balanced.lockedOf_missing ha, hzero]
                simp [CreditAccount.opened, CreditAccount.fresh]
            | some a =>
                rw [ha] at ha'
                cases ha'
                have hcolumn : a.escrowedNmc = _ := hb.balanced.column _ a ha
                have hcovered := hrow _ hfirst a ha
                rw [hcolumn, Option.getD_some] at hcovered
                exact refundJob_escrowed hcolumn hcovered
          · intro hmissing
            rw [Table.get?_upsert, if_pos rfl] at hmissing
            cases hmissing

/-! ### Everything else -/

/-- The writes of `credit_accounts` that leave `escrowed_nmc` alone. -/
def AccountsWrite.SparesColumn : AccountsWrite → Prop
  | register _ | credit _ _ | debit _ _ | debitIfCovered _ _ => True
  | _ => False

/-- The writes of `jobs` that end no job. -/
def JobsWrite.EndsNone : JobsWrite → Prop
  | insert _ _ _ | start _ | heartbeat _ _ | checkpoint _ _ _ | acknowledge _ _ _ | assign _ _ _ _
  | requeue _ => True
  | _ => False

/-- The statements that neither settle an escrow nor end a job. -/
def Action.SparesEscrows : Action → Prop
  | creditAccounts w => w.SparesColumn
  | jobs w => w.EndsNone
  | escrows _ => False
  | _ => True

theorem Balanced.updateAccount {accounts : Table AccountId CreditAccount}
    {escrows : Table EscrowId Escrow} (hb : Balanced accounts escrows) (c : AccountId)
    (guard : CreditAccount → Bool) {f : CreditAccount → CreditAccount}
    (hf : ∀ a, (f a).escrowedNmc = a.escrowedNmc) :
    Balanced (NeuralMesh.updateAccount accounts c guard f).2 escrows := by
  unfold NeuralMesh.updateAccount
  split
  · exact hb.update c fun a _ => hf a
  · exact hb

theorem Balanced.apply {s : Db} (hb : Balanced s.creditAccounts s.escrows) {w : AccountsWrite}
    (hspares : w.SparesColumn) : Balanced (w.apply s).2 s.escrows := by
  cases w with
  | register c =>
      have hupsert := hb.upsert c (a := .fresh) (f := id) rfl fun _ => rfl
      rw [Table.upsert] at hupsert
      simp only [AccountsWrite.apply]
      split
      · rename_i accounts hinsert
        rwa [hinsert] at hupsert
      · exact hb
  | credit c amount => exact hb.upsert c rfl fun _ => rfl
  | debit c amount => exact hb.updateAccount _ _ fun _ => rfl
  | debitIfCovered c amount => exact hb.updateAccount _ _ fun _ => rfl
  | _ => exact hspares.elim

theorem Linked.apply {s : Db} (hl : Linked s.escrows s.jobs) {w : JobsWrite}
    (hends : w.EndsNone) {jobs : Table JobId Job} (happly : w.apply s = some jobs) :
    Linked s.escrows jobs := by
  cases w with
  | insert jobId consumerId spec => exact hl.insert happly
  | start jobId =>
      cases happly
      exact hl.update (fun _ => rfl) fun _ _ _ hterminal => by cases hterminal
  | heartbeat jobId providerId =>
      cases happly
      exact hl.updateWhere (fun _ => rfl) fun _ _ _ _ _ hterminal => by cases hterminal
  | checkpoint jobId url iteration =>
      cases happly
      exact hl.update (fun _ => rfl) fun _ _ hlive hterminal => by simp_all
  | acknowledge jobId wireguardEndpoint sshPort =>
      cases happly
      exact hl.update (fun _ => rfl) fun _ _ _ hterminal => by cases hterminal
  | assign jobId providerId pricePerHour restore =>
      simp only [JobsWrite.apply] at happly
      split at happly
      · cases happly
      · cases happly
        exact hl.update (fun _ => rfl) fun _ _ _ hterminal => by cases hterminal
  | requeue jobId =>
      cases happly
      exact hl.update (fun _ => rfl) fun _ _ _ hterminal => by cases hterminal
  | _ => exact hends.elim

theorem Action.exec_booked {q : Action} {s t : Db} {a : q.Answer} (hspares : q.SparesEscrows)
    (hb : Booked s.books) (hexec : q.exec s = some (a, t)) : Booked t.books := by
  obtain ⟨hbalanced, hlink⟩ := hb.parts
  cases q with
  | creditAccounts w =>
      cases hexec
      exact ⟨hbalanced.apply hspares, hlink⟩
  | jobs w =>
      obtain ⟨jobs, happly, heq⟩ := Option.map_eq_some_iff.mp hexec
      cases heq
      exact ⟨hbalanced, hlink.apply hspares happly⟩
  | escrows w => exact hspares.elim
  | ledgerDeposit accountId amount reference txId =>
      have hcredited := hbalanced.apply (w := .credit accountId amount) trivial
      simp only [Action.exec] at hexec
      split at hexec
      · cases hexec
        exact ⟨hcredited, hlink⟩
      · cases hexec
        exact ⟨hcredited, hlink⟩
  | _ => exact (Action.exec_books (by trivial) hexec) ▸ hb

namespace Operation

/-- The operations that neither settle an escrow nor end a job. -/
def IsNeutral : Operation → Prop
  | getAssignedJob _ | saveCheckpoint _ _ _ | jobHeartbeat _ _ | registerAccount _ _
  | stripeCredit _ _ _ _ | withdraw _ _ | registerProvider _ | sendHeartbeat _ | acknowledgeJob _
  | grpcSubmitJob _ _ | runAuctionCycle | evictStaleProviders | ledgerDeposit _ _ _
  | ledgerWithdraw _ _ _ => True
  | _ => False

theorem program_uses {op : Operation} (hneutral : op.IsNeutral) :
    op.program.Uses Action.SparesEscrows := by
  refine Program.Uses.mono (fun q hmay => ?_) op.program_mayIssue
  cases q with
  | creditAccounts w =>
      cases op <;> first
        | exact hneutral.elim
        | exact hmay.elim
        | (cases hmay; trivial)
  | jobs w =>
      cases op <;> first
        | exact hneutral.elim
        | exact hmay.elim
        | (cases hmay; trivial)
        | (obtain ⟨_, rfl⟩ := hmay; trivial)
        | (obtain ⟨_, _, rfl⟩ := hmay; trivial)
        | (obtain ⟨_, _, _, _, rfl⟩ := hmay; trivial)
  | escrows w => cases op <;> first | exact hneutral.elim | exact hmay.elim
  | _ => trivial

/-- The databases from which an operation restores the column; operations that settle escrows
otherwise are not among those the column is meant for. -/
def KeepsColumn (s : Db) : Operation → Prop
  | submitJob _ body => SubmitKeeps s body
  | cancelJob jobId => CancelClears s jobId
  | completeJob _ _ jobId body => CompleteClears s jobId body
  | failJob _ jobId _ => FailClears s jobId
  | migrateOrFailJob _ jobId _ => MigrateClears s jobId
  | _ => False

theorem after_books (op : Operation) {α : Type} {p : Program Action.Answer α} (s : Db)
    (hprogram : op.program = p.forget) : (op.after s).books = (p.run Action.exec s).2.books := by
  rw [after, hprogram, Program.run_forget]

theorem after_booked {s : Db} (hb : Booked s.books) {op : Operation}
    (hsucceeds : op.program.Succeeds Action.exec s) (hkeeps : op.KeepsColumn s) :
    Booked (op.after s).books := by
  cases op with
  | submitJob ids body =>
      rw [after_books _ s rfl]
      exact submitJob_booked hb ((Program.succeeds_forget _ _ _).mp hsucceeds) hkeeps
  | cancelJob jobId =>
      rw [after_books _ s rfl]
      exact cancelJob_booked hb hkeeps
  | completeJob config txId jobId body =>
      rw [after_books _ s rfl]
      exact completeJob_booked hb hkeeps
  | failJob config jobId body =>
      rw [after_books _ s rfl]
      exact failJob_booked hb hkeeps
  | migrateOrFailJob txId jobId providerId =>
      obtain ⟨t, hrun, hbooks, -⟩ := migrateOrFailJob_run s txId jobId providerId (.done true)
      rw [after_books _ s rfl, hrun]
      exact (hbooks.symm ▸ migrateOrFail_booked hb hkeeps : Booked t.books)
  | _ => exact hkeeps.elim

end Operation

end NeuralMesh
