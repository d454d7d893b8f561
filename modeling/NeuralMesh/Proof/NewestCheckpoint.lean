import NeuralMesh.Base.Newest
import NeuralMesh.System.Constraints
import NeuralMesh.System.History
import NeuralMesh.System.Statements

/-!
# Which checkpoint a restore gets

`save_checkpoint` keeps every report and writes the last one into the row of the job.
`get_checkpoint` takes the report with the greatest number, and every session numbers its reports
from the beginning.
-/

namespace NeuralMesh

open Coordinator Program

/-- The row that a report is kept in. -/
def CheckpointBody.row (jobId : JobId) (body : CheckpointBody) : JobCheckpoint where
  jobId := jobId
  providerId := body.providerId
  iteration := body.iteration
  checkpointDir := body.checkpointDir
  dmtcpFiles := body.dmtcpFiles
  elapsedSecs := body.elapsedSecs

/-- The row of the job after it. -/
def Job.checkpointed (now : Time) (body : CheckpointBody) (job : Job) : Job :=
  { job with
    checkpointUrl := some ("file://" ++ trimEndSlashes body.checkpointDir)
    checkpointIter := some body.iteration
    lastHeartbeat := some now }

/-- The report of a job that an operation keeps, under the identifier it drew. -/
def reportOf (jobId : JobId) (s : Db) : Operation → Option (String × JobCheckpoint)
  | .saveCheckpoint checkpointId k body =>
      if k = jobId ∧ (s.jobs.get? k).isSome ∧ s.jobCheckpoints.get? checkpointId = none then
        some (checkpointId, CheckpointBody.row k body)
      else none
  | _ => none

/-- The reports of a job, oldest first. -/
def reports (jobId : JobId) (log : List (Db × Operation)) : List (String × JobCheckpoint) :=
  log.filterMap fun entry => reportOf jobId entry.1 entry.2

/-- The row of the job names this report. -/
def Names (jobId : JobId) (report : String × JobCheckpoint) (s : Db) : Prop :=
  ∃ job, s.jobs.get? jobId = some job ∧
    job.checkpointUrl = some ("file://" ++ trimEndSlashes report.2.checkpointDir) ∧
    job.checkpointIter = some report.2.iteration

/-- `get_checkpoint` answers with this report, and the row of the job names it. -/
structure RestoresFrom (jobId : JobId) (report : String × JobCheckpoint) (s : Db) : Prop where
  row : Read.eval s (.latestCheckpoint jobId) = some report
  reply : ((getCheckpoint jobId).run Action.exec s).1 = .json (checkpointJson jobId report.2)
  names : Names jobId report s

/-- The numbers of a session's reports increase. -/
def NumberedUpwards (session : String → Nat) (reports : List (String × JobCheckpoint)) : Prop :=
  reports.Pairwise fun a b => session a.1 = session b.1 → a.2.iteration < b.2.iteration

instance (session : String → Nat) (reports : List (String × JobCheckpoint)) :
    Decidable (NumberedUpwards session reports) := inferInstanceAs (Decidable (List.Pairwise _ _))

variable {s t : Db} {jobId : JobId}

theorem getCheckpoint_reply (s : Db) (jobId : JobId) :
    ((getCheckpoint jobId).run Action.exec s).1 =
      match Read.eval s (.latestCheckpoint jobId) with
      | none => .error .notFound
      | some report => .json (checkpointJson jobId report.2) := by
  have hread : Action.exec (.read (.latestCheckpoint jobId)) s =
      some (Read.eval s (.latestCheckpoint jobId), s) := rfl
  rw [getCheckpoint, askOrError, askOr, run_query_of_some _ hread]
  cases Read.eval s (.latestCheckpoint jobId) <;> rfl

/-! ### What the operations leave -/

/-- The reports are kept, and the row of the job names the same one. -/
structure SameCheckpoints (jobId : JobId) (s t : Db) : Prop where
  jobCheckpoints : t.jobCheckpoints = s.jobCheckpoints
  job : ∀ job, s.jobs.get? jobId = some job → ∃ job', t.jobs.get? jobId = some job' ∧
    job'.checkpointUrl = job.checkpointUrl ∧ job'.checkpointIter = job.checkpointIter

namespace SameCheckpoints

theorem refl (s : Db) : SameCheckpoints jobId s s := ⟨rfl, fun job hjob => ⟨job, hjob, rfl, rfl⟩⟩

theorem trans {u : Db} (hst : SameCheckpoints jobId s t) (htu : SameCheckpoints jobId t u) :
    SameCheckpoints jobId s u := by
  refine ⟨htu.jobCheckpoints.trans hst.jobCheckpoints, fun job hjob => ?_⟩
  obtain ⟨job', hjob', hurl, hiter⟩ := hst.job job hjob
  obtain ⟨job'', hjob'', hurl', hiter'⟩ := htu.job job' hjob'
  exact ⟨job'', hjob'', hurl'.trans hurl, hiter'.trans hiter⟩

end SameCheckpoints

/-- The statement saves no checkpoint of the job. -/
def Action.SparesCheckpoints (jobId : JobId) : Action → Prop
  | .insertCheckpoint _ _ => False
  | .jobs (.checkpoint k _ _) => k ≠ jobId
  | _ => True

theorem JobsWrite.edit_checkpoint (now : Time) {w : JobsWrite}
    (hspares : (Action.jobs w).SparesCheckpoints jobId) (job : Job) :
    (w.edit now jobId job).checkpointUrl = job.checkpointUrl ∧
      (w.edit now jobId job).checkpointIter = job.checkpointIter := by
  cases w with
  | insert k consumerId spec => exact ⟨rfl, rfl⟩
  | checkpoint k url iteration =>
      rw [JobsWrite.edit, if_neg fun heq => hspares heq.symm]
      exact ⟨rfl, rfl⟩
  | _ =>
      simp only [JobsWrite.edit]
      split <;> exact ⟨rfl, rfl⟩

theorem Action.exec_jobCheckpoints {q : Action} {a : q.Answer}
    (hnot : ∀ checkpointId row, q ≠ .insertCheckpoint checkpointId row)
    (hexec : q.exec s = some (a, t)) : t.jobCheckpoints = s.jobCheckpoints := by
  cases q with
  | insertCheckpoint checkpointId row => exact absurd rfl (hnot checkpointId row)
  | read _ | creditAccounts _ | providers _ | oracle _ =>
      cases hexec
      rfl
  | escrows _ | jobs _ | insertTransaction _ _ | insertDeposit _ | insertAccount _ _ =>
      obtain ⟨_, _, heq⟩ := Option.map_eq_some_iff.mp hexec
      cases heq
      rfl
  | insertMilestone providerId milestoneHours row =>
      simp only [Action.exec] at hexec
      split at hexec
      · cases hexec
        rfl
      · cases hexec
  | ledgerDeposit accountId amount reference txId =>
      simp only [Action.exec] at hexec
      split at hexec <;> cases hexec <;> rfl

theorem Action.exec_sameCheckpoints {q : Action} {a : q.Answer}
    (hspares : q.SparesCheckpoints jobId) (hexec : q.exec s = some (a, t)) :
    SameCheckpoints jobId s t := by
  refine ⟨exec_jobCheckpoints (fun _ _ heq => by rw [heq] at hspares; exact hspares) hexec,
    fun job hjob => ?_⟩
  rcases exec_job hexec hjob with hkept | ⟨w, rfl, hedit⟩
  · exact ⟨job, hkept, rfl, rfl⟩
  · exact ⟨_, hedit, JobsWrite.edit_checkpoint _ hspares job⟩

/-- Only `save_checkpoint` saves checkpoints. -/
theorem Operation.sameCheckpoints {op : Operation}
    (hnot : ∀ checkpointId k body, op ≠ .saveCheckpoint checkpointId k body) (s : Db) :
    SameCheckpoints jobId s (op.after s) := by
  refine run_rel Action.exec (R := SameCheckpoints jobId) .refl (fun _ _ _ => .trans)
    (fun q s a t hspares hexec => Action.exec_sameCheckpoints hspares hexec) _ s
    (Uses.mono (fun q hmay => ?_) op.program_mayIssue)
  cases q with
  | insertCheckpoint id row =>
      cases op <;> first | exact hmay.elim | exact absurd rfl (hnot _ _ _)
  | jobs w =>
      cases w with
      | checkpoint k url iteration =>
          cases op with
          | saveCheckpoint checkpointId k body => exact absurd rfl (hnot _ _ _)
          | _ => simp [Operation.MayIssue, Operation.WritesJob] at hmay
      | _ => trivial
  | _ => trivial

/-! ### What a report leaves -/

theorem saveCheckpoint_after {checkpointId : String} {k : JobId} {body : CheckpointBody}
    (hjob : (s.jobs.get? k).isSome) {checkpoints : Table String JobCheckpoint}
    (hinsert : s.jobCheckpoints.insert? checkpointId (CheckpointBody.row k body) =
      some checkpoints) :
    (Operation.saveCheckpoint checkpointId k body).after s =
      { s with
        jobCheckpoints := checkpoints
        jobs := s.jobs.update k (.checkpointed s.now body) } := by
  have hsave : Action.exec (.insertCheckpoint checkpointId (CheckpointBody.row k body)) s =
      some ((), { s with jobCheckpoints := checkpoints }) := by
    have hrow : (s.jobs.get? (CheckpointBody.row k body).jobId).isSome := hjob
    rw [Action.exec, if_pos hrow, hinsert, Option.map_some]
  rw [Operation.after, Operation.program, run_forget]
  exact congrArg Prod.snd (run_query_of_some _ hsave)

theorem saveCheckpoint_refused {checkpointId : String} {k : JobId} {body : CheckpointBody}
    (hnot : ¬ ((s.jobs.get? k).isSome ∧ s.jobCheckpoints.get? checkpointId = none)) :
    (Operation.saveCheckpoint checkpointId k body).after s = s := by
  have hrefused : Action.exec (.insertCheckpoint checkpointId (CheckpointBody.row k body)) s =
      none := by
    simp only [Action.exec]
    split
    · rename_i hjob
      rw [Table.insert?_eq_none_iff.mpr fun hnew => hnot ⟨hjob, hnew⟩, Option.map_none]
    · rfl
  rw [Operation.after, Operation.program, run_forget]
  exact congrArg Prod.snd (run_query_of_none _ hrefused)

/-- The reports of the job are kept, and its row names the last one. -/
structure Recorded (jobId : JobId) (reports : List (String × JobCheckpoint)) (s : Db) : Prop where
  rows : ∀ report, report ∈ reports ↔ report ∈ s.jobCheckpoints.rows ∧ report.2.jobId = jobId
  names : ∀ last ∈ reports.getLast?, Names jobId last s

namespace Recorded

variable {found : List (String × JobCheckpoint)}

theorem init (jobId : JobId) : Recorded jobId [] Db.init :=
  ⟨fun _ => ⟨nofun, fun h => absurd h.1 nofun⟩, nofun⟩

theorem same (hrecorded : Recorded jobId found s) (hsame : SameCheckpoints jobId s t) :
    Recorded jobId found t := by
  refine ⟨fun report => ?_, fun last hlast => ?_⟩
  · rw [hsame.jobCheckpoints]
    exact hrecorded.rows report
  · obtain ⟨job, hjob, hurl, hiter⟩ := hrecorded.names last hlast
    obtain ⟨job', hjob', hurl', hiter'⟩ := hsame.job job hjob
    exact ⟨job', hjob', hurl'.trans hurl, hiter'.trans hiter⟩

theorem shuffled (hrecorded : Recorded jobId found s) (hshuffled : s.Shuffled t) :
    Recorded jobId found t := by
  refine ⟨fun report => ?_, fun last hlast => ?_⟩
  · rw [hrecorded.rows, hshuffled.jobCheckpoints.mem_iff]
  · rw [Names, ← hshuffled.jobs.get?_eq jobId]
    exact hrecorded.names last hlast

/-- A report that is kept is the last one, if it is of this job. -/
theorem saved (hrecorded : Recorded jobId found s) (body : CheckpointBody) {checkpointId : String}
    {k : JobId} (hjob : (s.jobs.get? k).isSome)
    (hnew : s.jobCheckpoints.get? checkpointId = none) :
    Recorded jobId (found ++ if k = jobId then [(checkpointId, CheckpointBody.row k body)] else [])
      ((Operation.saveCheckpoint checkpointId k body).after s) := by
  obtain ⟨checkpoints, hinsert⟩ := Option.ne_none_iff_exists'.mp
    fun h => Table.insert?_eq_none_iff.mp h hnew
  rw [saveCheckpoint_after hjob hinsert]
  obtain ⟨-, hrows⟩ := Table.rows_of_insert? hinsert
  obtain ⟨row, hrow⟩ := Option.isSome_iff_exists.mp hjob
  by_cases hk : k = jobId
  · subst hk
    rw [if_pos rfl]
    refine ⟨fun report => ?_, fun last hlast => ?_⟩
    · dsimp only
      rw [hrows, List.mem_append, List.mem_append, hrecorded.rows, List.mem_singleton]
      constructor
      · rintro (⟨hmem, hof⟩ | rfl)
        · exact ⟨.inl hmem, hof⟩
        · exact ⟨.inr rfl, rfl⟩
      · rintro ⟨hmem | hlast, hof⟩
        · exact .inl ⟨hmem, hof⟩
        · exact .inr hlast
    · rw [List.getLast?_concat] at hlast
      cases hlast
      refine ⟨row.checkpointed s.now body, ?_, rfl, rfl⟩
      rw [Table.get?_update_self, hrow, Option.map_some]
  · have hne : jobId ≠ k := fun heq => hk heq.symm
    rw [if_neg hk, List.append_nil]
    refine ⟨fun report => ?_, fun last hlast => ?_⟩
    · dsimp only
      rw [hrecorded.rows, hrows, List.mem_append, List.mem_singleton]
      constructor
      · exact fun h => ⟨.inl h.1, h.2⟩
      · rintro ⟨hmem | rfl, hof⟩
        · exact ⟨hmem, hof⟩
        · exact absurd hof hk
    · rw [Names]
      dsimp only
      rw [Table.get?_update_of_ne _ _ hne]
      exact hrecorded.names last hlast

theorem step (hrecorded : Recorded jobId found s) (op : Operation) :
    Recorded jobId (found ++ (reportOf jobId s op).toList) (op.after s) := by
  by_cases hsaves : ∃ checkpointId k body, op = .saveCheckpoint checkpointId k body
  · obtain ⟨checkpointId, k, body, rfl⟩ := hsaves
    by_cases hkept : (s.jobs.get? k).isSome ∧ s.jobCheckpoints.get? checkpointId = none
    · have hsaved := hrecorded.saved body hkept.1 hkept.2
      rw [reportOf]
      by_cases hk : k = jobId
      · rw [if_pos hk] at hsaved
        rw [if_pos ⟨hk, hkept⟩]
        exact hsaved
      · rw [if_neg hk] at hsaved
        rw [if_neg fun h => hk h.1]
        exact hsaved
    · rw [saveCheckpoint_refused hkept, reportOf, if_neg fun h => hkept h.2, Option.toList_none,
        List.append_nil]
      exact hrecorded
  · have hnot : ∀ checkpointId k body, op ≠ .saveCheckpoint checkpointId k body :=
      fun checkpointId k body heq => hsaves ⟨checkpointId, k, body, heq⟩
    have hnone : reportOf jobId s op = none := by
      cases op <;> first | rfl | exact absurd rfl (hnot _ _ _)
    rw [hnone, Option.toList_none, List.append_nil]
    exact hrecorded.same (Operation.sameCheckpoints hnot s)

end Recorded

theorem History.recorded {P : Db → Operation → Prop} {log : List (Db × Operation)}
    (hrun : History P Db.init log t) : Recorded jobId (reports jobId log) t := by
  induction hrun with
  | start => exact .init jobId
  | operation _ _ ih =>
      rw [reports, List.filterMap_append]
      exact ih.step _
  | idle _ hshuffled ih => exact ih.shuffled hshuffled

/-! ### Which report is found -/

/-- The reports that the query sorts. -/
theorem mem_filter_iff {found : List (String × JobCheckpoint)} (hrecorded : Recorded jobId found s)
    (report : String × JobCheckpoint) :
    report ∈ s.jobCheckpoints.rows.filter (fun row => row.2.jobId = jobId) ↔ report ∈ found := by
  rw [List.mem_filter, decide_eq_true_eq, hrecorded.rows]

theorem latestCheckpoint_eq (s : Db) (jobId : JobId) :
    Read.eval s (.latestCheckpoint jobId) =
      (descending (fun row : String × JobCheckpoint => row.2.iteration)
        (s.jobCheckpoints.rows.filter fun row => row.2.jobId = jobId)).head? := rfl

/-- Where a report has the greatest number, every scan finds it. -/
theorem Recorded.restoresFrom {earlier : List (String × JobCheckpoint)}
    {last : String × JobCheckpoint} (hrecorded : Recorded jobId (earlier ++ [last]) s)
    (hgreatest : ∀ c ∈ earlier, c.2.iteration < last.2.iteration) : RestoresFrom jobId last s := by
  have hrow : Read.eval s (.latestCheckpoint jobId) = some last := by
    rw [latestCheckpoint_eq]
    refine head?_of_greatest ((mem_filter_iff hrecorded last).mpr (by simp)) fun c hc hne => ?_
    rcases List.mem_append.mp ((mem_filter_iff hrecorded c).mp hc) with hearlier | hlast
    · exact hgreatest c hearlier
    · exact absurd (List.mem_singleton.mp hlast) hne
  refine ⟨hrow, ?_, hrecorded.names last (by simp)⟩
  rw [getCheckpoint_reply, hrow]

/-- The same database with a report stored first. -/
theorem exists_shuffled_first {report : String × JobCheckpoint}
    (hmem : report ∈ s.jobCheckpoints.rows) :
    ∃ t rest, s.Shuffled t ∧ t.jobCheckpoints.rows = report :: rest := by
  obtain ⟨before, after, hrows⟩ := List.append_of_mem hmem
  have hperm : s.jobCheckpoints.rows.Perm (report :: (before ++ after)) :=
    hrows ▸ List.perm_middle
  let checkpoints : Table String JobCheckpoint :=
    ⟨report :: (before ++ after),
      (hperm.map Prod.fst).nodup_iff.mp s.jobCheckpoints.nodupKeys⟩
  exact ⟨{ s with jobCheckpoints := checkpoints }, _,
    { Db.Shuffled.refl s with jobCheckpoints := hperm }, rfl⟩

/-- A report with a number as great is found in some scan. -/
theorem Recorded.exists_other {found : List (String × JobCheckpoint)}
    {c last : String × JobCheckpoint} (hrecorded : Recorded jobId found s) (hc : c ∈ found)
    (hne : c ≠ last) (hle : last.2.iteration ≤ c.2.iteration) :
    ∃ t, s.Shuffled t ∧ Read.eval t (.latestCheckpoint jobId) ≠ some last := by
  by_cases hrow : Read.eval s (.latestCheckpoint jobId) = some last
  · -- the two numbers are equal, and the scan that meets `c` first finds it
    obtain ⟨hmem, hof⟩ := (hrecorded.rows c).mp hc
    obtain ⟨t, rest, hshuffled, hrows⟩ := exists_shuffled_first hmem
    refine ⟨t, hshuffled, fun hlast => hne (Option.some.inj (Eq.trans ?_ hlast))⟩
    rw [latestCheckpoint_eq, hrows, List.filter_cons_of_pos (by simpa using hof)]
    refine (head?_cons_of_le fun b hb => ?_).symm
    have hbmem : b ∈ t.jobCheckpoints.rows := by
      rw [hrows]
      exact List.mem_cons_of_mem _ (List.mem_filter.mp hb).1
    rw [← hshuffled.jobCheckpoints.mem_iff] at hbmem
    have hbfilter : b ∈ s.jobCheckpoints.rows.filter fun row => row.2.jobId = jobId :=
      List.mem_filter.mpr ⟨hbmem, (List.mem_filter.mp hb).2⟩
    exact (key_le_of_head? (latestCheckpoint_eq s jobId ▸ hrow) hbfilter).trans hle
  · exact ⟨s, .refl s, hrow⟩

theorem NumberedUpwards.ne {session : String → Nat} {earlier : List (String × JobCheckpoint)}
    {c last : String × JobCheckpoint} (hsessions : NumberedUpwards session (earlier ++ [last]))
    (hc : c ∈ earlier) (hsame : session c.1 = session last.1) :
    c.2.iteration < last.2.iteration :=
  (List.pairwise_append.mp hsessions).2.2 c hc last (List.mem_singleton_self last) hsame

/-- `get_checkpoint` finds the last report of a job, in whatever order the rows are stored, exactly
when no report of another session has a number as great. -/
theorem newest_checkpoint_iff {log : List (Db × Operation)} {session : String → Nat}
    {earlier : List (String × JobCheckpoint)} {last : String × JobCheckpoint}
    (hrun : History (fun _ _ => True) Db.init log t)
    (hreports : reports jobId log = earlier ++ [last])
    (hsessions : NumberedUpwards session (reports jobId log)) :
    (∀ u, t.Shuffled u → RestoresFrom jobId last u) ↔
      ∀ c ∈ earlier, session c.1 ≠ session last.1 → c.2.iteration < last.2.iteration := by
  have hrecorded : Recorded jobId (earlier ++ [last]) t := hreports ▸ hrun.recorded
  rw [hreports] at hsessions
  constructor
  · intro hrestores c hc hother
    by_contra hnot
    have hne : c ≠ last := fun heq => hother (heq ▸ rfl)
    obtain ⟨u, hshuffled, hfound⟩ :=
      hrecorded.exists_other (List.mem_append_left _ hc) hne (not_lt.mp hnot)
    exact hfound (hrestores u hshuffled).row
  · intro hgreatest u hshuffled
    refine (hrecorded.shuffled hshuffled).restoresFrom fun c hc => ?_
    by_cases hsame : session c.1 = session last.1
    · exact hsessions.ne hc hsame
    · exact hgreatest c hc hsame

/-! ### Two sessions of a job -/

def snapshot (checkpointId : String) (providerId : ProviderId) (iteration elapsedSecs : Int) :
    Operation :=
  .saveCheckpoint checkpointId "a"
    ⟨providerId, iteration, elapsedSecs, "/var/neuralmesh/checkpoints/a", ["ckpt_python.dmtcp"]⟩

/-- Two checkpoints of one session and then one of another. -/
def restoredOnce (iteration : Int) : List Operation :=
  assigned ++ [snapshot "c1" "p" 1 300, snapshot "c2" "p" 2 600, snapshot "c3" "q" iteration 300]

def sessionOf (checkpointId : String) : Nat := if checkpointId = "c3" then 1 else 0

def kept (checkpointId : String) (providerId : ProviderId) (iteration elapsedSecs : Int) :
    String × JobCheckpoint :=
  (checkpointId, ⟨"a", providerId, iteration, "/var/neuralmesh/checkpoints/a",
    ["ckpt_python.dmtcp"], elapsedSecs⟩)

/-- The commands of the second session failed twice before they made a checkpoint. -/
theorem newest_checkpoint_third :
    (reports "a" (logOf (restoredOnce 3) Db.init)).getLast? = some (kept "c3" "q" 3 300) ∧
      ∀ u, (afterAll (restoredOnce 3) Db.init).Shuffled u →
        RestoresFrom "a" (kept "c3" "q" 3 300) u := by
  have hrun := History.afterAll (meetsAll_true Db.init (restoredOnce 3))
  have hreports : reports "a" (logOf (restoredOnce 3) Db.init) =
      [kept "c1" "p" 1 300, kept "c2" "p" 2 600] ++ [kept "c3" "q" 3 300] := by
    decide +kernel
  have hsessions : NumberedUpwards sessionOf (reports "a" (logOf (restoredOnce 3) Db.init)) := by
    decide +kernel
  exact ⟨by rw [hreports]; exact List.getLast?_concat,
    (newest_checkpoint_iff hrun hreports hsessions).mpr (by decide +kernel)⟩

/-- The first checkpoint of the second session loses to the last one of the first. -/
theorem stale_checkpoint :
    ∃ log t, History (fun _ _ => True) Db.init log t ∧
      NumberedUpwards sessionOf (reports "a" log) ∧
      (reports "a" log).getLast? = some (kept "c3" "q" 1 300) ∧
      Read.eval t (.latestCheckpoint "a") = some (kept "c2" "p" 2 600) ∧
      (t.jobs.get? "a").bind Job.checkpointIter = some 1 := by
  refine ⟨_, _, .afterAll (meetsAll_true Db.init (restoredOnce 1)), by decide +kernel,
    by decide +kernel, ?_, by decide +kernel⟩
  have hrows : (afterAll (restoredOnce 1) Db.init).jobCheckpoints.rows.filter
      (fun row => row.2.jobId = "a") =
      [kept "c1" "p" 1 300, kept "c2" "p" 2 600, kept "c3" "q" 1 300] := by
    decide +kernel
  rw [latestCheckpoint_eq, hrows]
  exact head?_of_greatest (by decide +kernel) (by decide +kernel)

end NeuralMesh
