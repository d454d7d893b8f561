import NeuralMesh.Base.Interleaving
import NeuralMesh.Proof.ChainRequests

/-!
# Who is handed a job

A poll reads a job that is assigned and sets it to running with a second statement, which asks for
nothing and whose failure it ignores. An assignment is numbered by how often its job has moved to
'assigned' in the run.
-/

namespace NeuralMesh

open Coordinator Program

/-- A poll, or another operation of the coordinator. -/
inductive Caller where
  | poll (providerId : ProviderId)
  | other (op : Operation)

def Caller.program : Caller → Program Action.Answer (Option Reply)
  | poll providerId => (getAssignedJob providerId).map some
  | other op => op.program.map fun _ => none

abbrev Calls := Pool Action.Answer Db Caller (Option Reply)

abbrev CallEvent := Event Action Db Caller

/-- The reply that hands out a job. -/
def handing (jobId : JobId) (job : Job) : Reply := .json [("job", assignedJobJson jobId job)]

/-! ### What happened to an assignment -/

instance (s t : Db) (jobId : JobId) (state : JobState) : Decidable (Enters s t jobId state) :=
  inferInstanceAs (Decidable (_ ∧ _))

def movesToAssigned (jobId : JobId) : CallEvent → Bool
  | .ran _ _ _ s t => decide (Enters s t jobId .assigned)
  | _ => false

/-- How often the job has moved to 'assigned'. -/
def assignmentsOf (jobId : JobId) (es : List CallEvent) : Nat := es.countP (movesToAssigned jobId)

/-- Poll `i` finds the job. -/
def FoundBy (e : CallEvent) (i : Nat) (jobId : JobId) : Prop :=
  ∃ providerId s t job, e = .ran i (.poll providerId) (.read (.assignedJob providerId)) s t ∧
    Read.eval s (.assignedJob providerId) = some (jobId, job)

/-- Poll `i` found the job under its `n`-th assignment. -/
def Finds (es : List CallEvent) (i : Nat) (jobId : JobId) (n : Nat) : Prop :=
  ∃ before e, before ++ [e] <+: es ∧ FoundBy e i jobId ∧ assignmentsOf jobId before = n

/-- The update of poll `i` ran. -/
def Updates (e : CallEvent) (i : Nat) (jobId : JobId) : Prop :=
  ∃ providerId s t, e = .ran i (.poll providerId) (.jobs (.start jobId)) s t

/-- It moved the job to 'running'. -/
def Starts (e : CallEvent) (i : Nat) (jobId : JobId) : Prop :=
  ∃ providerId s t, e = .ran i (.poll providerId) (.jobs (.start jobId)) s t ∧
    Enters s t jobId .running

/-- Poll `i` has returned the job. -/
def Returns (p : Calls) (i : Nat) (jobId : JobId) : Prop :=
  ∃ providerId begun job,
    p.requests[i]? = some ⟨.poll providerId, begun, .done (some (handing jobId job))⟩

/-- Every job that is returned was found under an assignment that no other poll returns, and moved to
'running' by the poll. -/
structure HandedOutOnce (es : List CallEvent) (p : Calls) : Prop where
  found : ∀ i jobId, Returns p i jobId → ∃ n, Finds es i jobId n
  once : ∀ i j jobId n, Returns p i jobId → Returns p j jobId → Finds es i jobId n →
    Finds es j jobId n → i = j
  running : ∀ i jobId, Returns p i jobId → ∃ e ∈ es, Starts e i jobId

/-- A poll finds an assignment only when the updates of all that found it before have run; its own
update runs, and does so while the job is not running. -/
def Serves (before : List CallEvent) : CallEvent → Prop
  | .ran _ (.poll _) (.read (.assignedJob providerId)) s _ =>
      ∀ jobId job, Read.eval s (.assignedJob providerId) = some (jobId, job) →
        ∀ j, Finds before j jobId (assignmentsOf jobId before) → ∃ e ∈ before, Updates e j jobId
  | .ran _ (.poll _) (.jobs (.start jobId)) s _ => s.stateOf jobId ≠ some .running
  | .refused _ (.poll _) (.jobs (.start _)) => False
  | .lost _ (.poll _) (.jobs (.start _)) => False
  | _ => True

def ServesAll (es : List CallEvent) : Prop := ∀ before e, before ++ [e] <+: es → Serves before e

/-! ### One event more -/

variable {es : List CallEvent} {e : CallEvent} {i j n : Nat} {jobId : JobId} {p : Calls} {s t : Db}

theorem assignmentsOf_concat (jobId : JobId) (es : List CallEvent) (e : CallEvent) :
    assignmentsOf jobId (es ++ [e]) =
      assignmentsOf jobId es + if movesToAssigned jobId e then 1 else 0 := by
  rw [assignmentsOf, List.countP_append, List.countP_singleton]
  rfl

theorem prefix_concat_cases {before : List CallEvent} {e' : CallEvent}
    (hpre : before ++ [e'] <+: es ++ [e]) : before = es ∧ e' = e ∨ before ++ [e'] <+: es := by
  rcases List.prefix_concat_iff.mp hpre with heq | hpre
  · obtain ⟨hbefore, hlast⟩ := List.append_inj' heq rfl
    exact .inl ⟨hbefore, List.cons.inj hlast |>.1⟩
  · exact .inr hpre

theorem finds_concat : Finds (es ++ [e]) i jobId n ↔
    Finds es i jobId n ∨ FoundBy e i jobId ∧ assignmentsOf jobId es = n := by
  constructor
  · rintro ⟨before, e', hpre, hfound, hn⟩
    rcases prefix_concat_cases hpre with ⟨rfl, rfl⟩ | hpre
    · exact .inr ⟨hfound, hn⟩
    · exact .inl ⟨before, e', hpre, hfound, hn⟩
  · rintro (⟨before, e', hpre, hfound, hn⟩ | ⟨hfound, hn⟩)
    · exact ⟨before, e', hpre.trans (List.prefix_append _ _), hfound, hn⟩
    · exact ⟨es, e, List.prefix_rfl, hfound, hn⟩

theorem not_finds_nil : ¬ Finds [] i jobId n := by
  rintro ⟨before, e, hpre, -⟩
  exact absurd (List.prefix_nil.mp hpre) (List.append_ne_nil_of_right_ne_nil _ (List.cons_ne_nil _ _))

theorem Finds.concat (hfinds : Finds es i jobId n) : Finds (es ++ [e]) i jobId n :=
  finds_concat.mpr (.inl hfinds)

theorem stateOf_of_found {providerId : ProviderId} {job : Job}
    (hfound : Read.eval s (.assignedJob providerId) = some (jobId, job)) :
    s.stateOf jobId = some .assigned := by
  obtain ⟨hget, -, hassigned⟩ := Read.assignedJob_found hfound
  rw [Db.stateOf, hget, Option.map_some, hassigned]

theorem isSome_of_exec {q : Action} {a : q.Answer} (hexec : q.exec s = some (a, t))
    (hrow : (s.stateOf jobId).isSome) : (t.stateOf jobId).isSome := by
  rw [Db.stateOf, Option.isSome_map] at hrow ⊢
  obtain ⟨row, hrow⟩ := Option.isSome_iff_exists.mp hrow
  rcases Action.exec_job hexec hrow with hkept | ⟨w, -, hedit⟩
  · rw [hkept]
    rfl
  · rw [hedit]
    rfl

/-- The update sets a job that is there to running. -/
theorem stateOf_start {a : Unit} (hexec : Action.exec (.jobs (.start jobId)) s = some (a, t))
    (hrow : (s.stateOf jobId).isSome) : t.stateOf jobId = some .running := by
  rw [Db.stateOf, Option.isSome_map] at hrow
  obtain ⟨row, hrow⟩ := Option.isSome_iff_exists.mp hrow
  have hafter : t.jobs.get? jobId = some ((JobsWrite.start jobId).edit s.now jobId row) := by
    cases hexec
    exact JobsWrite.get?_apply (w := .start jobId) rfl hrow
  rw [Db.stateOf, hafter, Option.map_some, JobsWrite.edit, if_pos rfl]

theorem handing_inj {jobId' : JobId} {job job' : Job} (heq : handing jobId job = handing jobId' job') :
    jobId = jobId' := by
  simp only [handing, Reply.json, assignedJobJson, Reply.mk.injEq, List.cons.injEq, Prod.mk.injEq,
    Json.obj.injEq, Json.str.injEq] at heq
  exact heq.2.1.2.1.2

/-! ### Where a poll stands -/

/-- How a poll goes on when it has read. -/
def afterRead : Option (JobId × Job) → Program Action.Answer (Option Reply)
  | none => done (some (.json [("job", .null)]))
  | some (jobId, job) =>
      query (.jobs (.start jobId)) (fun _ => done (some (handing jobId job)))
        (done (some (handing jobId job)))

theorem program_poll (providerId : ProviderId) : (Caller.poll providerId).program =
    .query (.read (.assignedJob providerId)) afterRead
      (.done (some (.error .internalServerError))) := by
  rw [Caller.program, getAssignedJob, Program.map]
  congr 1
  funext found
  cases found with
  | none => rfl
  | some row => rfl

/-- What poll `i` has left to do, with what it did. -/
inductive PollStage (es : List CallEvent) (i : Nat) (providerId : ProviderId) :
    Program Action.Answer (Option Reply) → Prop
  | fresh (hnone : ∀ jobId n, ¬ Finds es i jobId n) (hidle : ∀ e ∈ es, ∀ jobId, ¬ Updates e i jobId) :
      PollStage es i providerId (.query (.read (.assignedJob providerId)) afterRead
        (.done (some (.error .internalServerError))))
  | found {jobId : JobId} {job : Job} {n : Nat} (hfinds : Finds es i jobId n) :
      PollStage es i providerId (.query (.jobs (.start jobId))
        (fun _ => .done (some (handing jobId job))) (.done (some (handing jobId job))))
  | empty {reply : Reply} (hnothing : ∀ jobId job, reply ≠ handing jobId job) :
      PollStage es i providerId (.done (some reply))
  | handed {jobId : JobId} {job : Job} {n : Nat} (hfinds : Finds es i jobId n)
      (hstarts : ∃ e ∈ es, Starts e i jobId) :
      PollStage es i providerId (.done (some (handing jobId job)))

def CallStage (es : List CallEvent) (i : Nat) (r : Request Action.Answer Caller (Option Reply)) : Prop :=
  match r.op with
  | .poll providerId => PollStage es i providerId r.rest
  | .other _ => ∃ rest : Program Action.Answer Unit, r.rest = rest.map fun _ => none

/-- An event of another request. -/
theorem CallStage.concat {r : Request Action.Answer Caller (Option Reply)} (hstage : CallStage es i r)
    (hother : e.who ≠ some i) : CallStage (es ++ [e]) i r := by
  have hnotFound : ∀ jobId, ¬ FoundBy e i jobId := by
    rintro jobId ⟨providerId, s, t, job, rfl, -⟩
    exact hother rfl
  have hnotUpdates : ∀ jobId, ¬ Updates e i jobId := by
    rintro jobId ⟨providerId, s, t, rfl⟩
    exact hother rfl
  obtain ⟨op, begun, rest⟩ := r
  cases op with
  | other op => exact hstage
  | poll providerId =>
      show PollStage (es ++ [e]) i providerId rest
      have hpoll : PollStage es i providerId rest := hstage
      cases hpoll with
      | fresh hnone hidle =>
          refine .fresh (fun jobId n hfinds => ?_) fun e' he' jobId hupdates => ?_
          · rcases finds_concat.mp hfinds with hold | hnew
            · exact hnone jobId n hold
            · exact hnotFound jobId hnew.1
          · rcases List.mem_append.mp he' with hold | hnew
            · exact hidle e' hold jobId hupdates
            · exact hnotUpdates jobId (List.mem_singleton.mp hnew ▸ hupdates)
      | found hfinds => exact .found hfinds.concat
      | empty hnothing => exact .empty hnothing
      | handed hfinds hstarts =>
          obtain ⟨e', he', hstarts⟩ := hstarts
          exact .handed hfinds.concat ⟨e', List.mem_append_left _ he', hstarts⟩

/-! ### The invariant -/

structure Orderly (es : List CallEvent) (p : Calls) : Prop where
  stage : ∀ i r, p.requests[i]? = some r → CallStage es i r
  present : ∀ i jobId n, Finds es i jobId n → (p.store.stateOf jobId).isSome
  bound : ∀ i jobId n, Finds es i jobId n → n ≤ assignmentsOf jobId es
  /-- An assignment whose job was set to running is over. -/
  spent : ∀ i jobId n, Finds es i jobId n → (∃ e ∈ es, Updates e i jobId) →
    n = assignmentsOf jobId es → p.store.stateOf jobId ≠ some .assigned
  distinct : ∀ i j jobId n, Finds es i jobId n → Finds es j jobId n → i = j

theorem Orderly.start (s : Db) (callers : List Caller) :
    Orderly [] (Pool.start Caller.program s callers) := by
  refine ⟨fun i r hr => ?_, fun i k n h => absurd h not_finds_nil,
    fun i k n h => absurd h not_finds_nil, fun i k n h => absurd h not_finds_nil,
    fun i j k n h => absurd h not_finds_nil⟩
  rw [Pool.start, List.getElem?_map] at hr
  obtain ⟨caller, -, rfl⟩ := Option.map_eq_some_iff.mp hr
  cases caller with
  | poll providerId =>
      have hfresh : PollStage [] i providerId (Caller.poll providerId).program := by
        rw [program_poll]
        exact .fresh (fun jobId n => not_finds_nil) fun e he => absurd he List.not_mem_nil
      exact hfresh
  | other op => exact ⟨op.program, rfl⟩

/-! ### One step -/

section Steps

variable {op : Caller} {begun : Bool} {q : Action} {a : q.Answer}
  {next : q.Answer → Program Action.Answer (Option Reply)} {fail : Program Action.Answer (Option Reply)}

theorem CallStage.ran (hstage : CallStage es i ⟨op, begun, .query q next fail⟩)
    (hexec : q.exec s = some (a, t)) (hserves : Serves es (.ran i op q s t))
    (hpresent : ∀ jobId n, Finds es i jobId n → (s.stateOf jobId).isSome) :
    CallStage (es ++ [.ran i op q s t]) i ⟨op, true, next a⟩ := by
  cases op with
  | other op =>
      obtain ⟨rest, hrest⟩ := hstage
      exact (left_of_map hrest).1 a
  | poll providerId =>
      have hpoll : PollStage es i providerId (.query q next fail) := hstage
      suffices hnext : PollStage (es ++ [.ran i (.poll providerId) q s t]) i providerId (next a) from
        hnext
      cases hpoll with
      | fresh hnone hidle =>
          cases hexec
          cases hfound : Read.eval s (.assignedJob providerId) with
          | none => exact .empty fun jobId job heq => by cases heq
          | some row =>
              exact .found (finds_concat.mpr (.inr ⟨⟨providerId, s, s, row.2, rfl, hfound⟩, rfl⟩))
      | found hfinds =>
          have hrunning := stateOf_start hexec (hpresent _ _ hfinds)
          exact .handed hfinds.concat ⟨_, List.mem_append_right _ (List.mem_singleton_self _),
            providerId, s, t, rfl, hrunning, hserves⟩

/-- A statement that fails is not the update of a poll. -/
theorem CallStage.failed (hstage : CallStage es i ⟨op, begun, .query q next fail⟩) (e : CallEvent)
    (hupdate : ∀ providerId jobId, op = .poll providerId → q ≠ .jobs (.start jobId)) :
    CallStage (es ++ [e]) i ⟨op, true, fail⟩ := by
  cases op with
  | other op =>
      obtain ⟨rest, hrest⟩ := hstage
      exact (left_of_map hrest).2
  | poll providerId =>
      have hpoll : PollStage es i providerId (.query q next fail) := hstage
      suffices hfail : PollStage (es ++ [e]) i providerId fail from hfail
      cases hpoll with
      | fresh hnone hidle => exact .empty fun jobId job heq => by cases heq
      | found hfinds => exact absurd rfl (hupdate providerId _ rfl)

/-- A poll that reads has not found or updated anything yet. -/
theorem CallStage.fresh_of_read {providerId : ProviderId} {r : Read}
    {next : r.Answer → Program Action.Answer (Option Reply)}
    (hstage : CallStage es i ⟨.poll providerId, begun, .query (.read r) next fail⟩) :
    (∀ jobId n, ¬ Finds es i jobId n) ∧ ∀ e ∈ es, ∀ jobId, ¬ Updates e i jobId := by
  have hpoll : PollStage es i providerId (.query (.read r) next fail) := hstage
  cases hpoll with
  | fresh hnone hidle => exact ⟨hnone, hidle⟩

theorem Orderly.ran {rs : List (Request Action.Answer Caller (Option Reply))}
    (horderly : Orderly es ⟨s, rs⟩) (hrequest : rs[i]? = some ⟨op, begun, .query q next fail⟩)
    (hexec : q.exec s = some (a, t)) (hserves : Serves es (.ran i op q s t)) :
    Orderly (es ++ [.ran i op q s t]) ⟨t, rs.set i ⟨op, true, next a⟩⟩ := by
  have hstage : CallStage es i ⟨op, begun, .query q next fail⟩ := horderly.stage i _ hrequest
  -- What is found now was not found by this poll before, and it is assigned.
  have hnew : ∀ j jobId, FoundBy (.ran i op q s t) j jobId →
      j = i ∧ (∀ k n, ¬ Finds es i k n) ∧ (∀ e ∈ es, ∀ k, ¬ Updates e i k) ∧
        (∀ k, ¬ Updates (.ran i op q s t) i k) ∧ s.stateOf jobId = some .assigned ∧
        ∀ j', Finds es j' jobId (assignmentsOf jobId es) → ∃ e ∈ es, Updates e j' jobId := by
    rintro j jobId ⟨providerId, s', t', job, heq, hfound⟩
    cases heq
    obtain ⟨hnone, hidle⟩ := hstage.fresh_of_read
    refine ⟨rfl, hnone, hidle, ?_, stateOf_of_found hfound, hserves jobId job hfound⟩
    rintro k ⟨providerId', s'', t'', heq⟩
    cases heq
  refine ⟨?_, ?_, ?_, ?_, ?_⟩
  · refine Pool.forall_places_set (fun j r hne hr => ?_)
      (hstage.ran hexec hserves fun k n => horderly.present i k n)
    exact (horderly.stage j r hr).concat fun heq => hne (Option.some.inj heq).symm
  · intro j jobId n hfinds
    rcases finds_concat.mp hfinds with hold | ⟨hfound, -⟩
    · exact isSome_of_exec hexec (horderly.present j jobId n hold)
    · refine isSome_of_exec hexec ?_
      rw [(hnew j jobId hfound).2.2.2.2.1]
      rfl
  · intro j jobId n hfinds
    rw [assignmentsOf_concat]
    rcases finds_concat.mp hfinds with hold | ⟨-, hn⟩
    · exact (horderly.bound j jobId n hold).trans (Nat.le_add_right _ _)
    · exact hn ▸ Nat.le_add_right _ _
  · intro j jobId n hfinds ⟨e, he, hupdates⟩ hn hassigned
    rcases finds_concat.mp hfinds with hold | ⟨hfound, -⟩
    · have hbound := horderly.bound j jobId n hold
      rw [assignmentsOf_concat] at hn
      -- The job has not moved to 'assigned' just now, so it was there before.
      have hstill : movesToAssigned jobId (.ran i op q s t) = false := by
        by_contra hmoves
        rw [if_pos (Bool.not_eq_false _ ▸ hmoves)] at hn
        omega
      have hbefore : s.stateOf jobId = some .assigned := by
        by_contra hnot
        exact absurd (show Enters s t jobId .assigned from ⟨hassigned, hnot⟩)
          (of_decide_eq_false hstill)
      rw [hstill] at hn
      rcases List.mem_append.mp he with hpast | hnow
      · exact horderly.spent j jobId n hold ⟨e, hpast, hupdates⟩ hn hbefore
      · obtain rfl := List.mem_singleton.mp hnow
        obtain ⟨providerId, s', t', heq⟩ := hupdates
        cases heq
        have hrunning := stateOf_start hexec (horderly.present _ _ _ hold)
        cases hassigned.symm.trans hrunning
    · obtain ⟨rfl, -, hidle, hnot, -⟩ := hnew j jobId hfound
      rcases List.mem_append.mp he with hpast | hnow
      · exact hidle e hpast jobId hupdates
      · exact hnot jobId (List.mem_singleton.mp hnow ▸ hupdates)
  · intro j j' jobId n hfinds hfinds'
    -- An assignment that is found now was found by nobody before.
    have hfirst : ∀ j, FoundBy (.ran i op q s t) j jobId → assignmentsOf jobId es = n →
        ∀ j', ¬ Finds es j' jobId n := by
      rintro j hfound rfl j' hold
      obtain ⟨-, -, -, -, hassigned, hserved⟩ := hnew j jobId hfound
      exact horderly.spent j' jobId _ hold (hserved j' hold) rfl hassigned
    rcases finds_concat.mp hfinds with hold | ⟨hfound, hn⟩
    · rcases finds_concat.mp hfinds' with hold' | ⟨hfound', hn'⟩
      · exact horderly.distinct j j' jobId n hold hold'
      · exact absurd hold (hfirst j' hfound' hn' j)
    · rcases finds_concat.mp hfinds' with hold' | ⟨hfound', -⟩
      · exact absurd hold' (hfirst j hfound hn j')
      · rw [(hnew j jobId hfound).1, (hnew j' jobId hfound').1]

/-- An event that runs no statement. -/
theorem Orderly.still (horderly : Orderly es p) {p' : Calls} (hnot : ∀ i op q s t, e ≠ .ran i op q s t)
    (hstage : ∀ i r, p'.requests[i]? = some r → CallStage (es ++ [e]) i r)
    (hstore : ∀ jobId, p'.store.stateOf jobId = p.store.stateOf jobId) : Orderly (es ++ [e]) p' := by
  have hfinds : ∀ {i jobId n}, Finds (es ++ [e]) i jobId n → Finds es i jobId n := by
    intro i jobId n hfinds
    rcases finds_concat.mp hfinds with hold | ⟨⟨providerId, s, t, job, heq, -⟩, -⟩
    · exact hold
    · exact absurd heq (hnot _ _ _ _ _)
  have hcount : ∀ jobId, assignmentsOf jobId (es ++ [e]) = assignmentsOf jobId es := by
    intro jobId
    rw [assignmentsOf_concat, if_neg, Nat.add_zero]
    cases e with
    | ran i op q s t => exact absurd rfl (hnot i op q s t)
    | _ => exact Bool.false_ne_true
  refine ⟨hstage, fun i jobId n h => ?_, fun i jobId n h => ?_, fun i jobId n h hupdates hn => ?_,
    fun i j jobId n h h' => horderly.distinct i j jobId n (hfinds h) (hfinds h')⟩
  · rw [hstore]
    exact horderly.present i jobId n (hfinds h)
  · rw [hcount]
    exact horderly.bound i jobId n (hfinds h)
  · obtain ⟨e', he', hupdates⟩ := hupdates
    rw [hstore]
    refine horderly.spent i jobId n (hfinds h) ⟨e', ?_, hupdates⟩ (hn.trans (hcount jobId))
    rcases List.mem_append.mp he' with hpast | hnow
    · exact hpast
    · obtain rfl := List.mem_singleton.mp hnow
      obtain ⟨providerId, s, t, heq⟩ := hupdates
      exact absurd heq (hnot _ _ _ _ _)

/-- A statement that fails changes the request alone. -/
theorem Orderly.failed {rs : List (Request Action.Answer Caller (Option Reply))}
    (horderly : Orderly es ⟨s, rs⟩) (hrequest : rs[i]? = some ⟨op, begun, .query q next fail⟩)
    (hwho : e.who = some i) (hnot : ∀ i op q s t, e ≠ .ran i op q s t)
    (hupdate : ∀ providerId jobId, op = .poll providerId → q ≠ .jobs (.start jobId)) :
    Orderly (es ++ [e]) ⟨s, rs.set i ⟨op, true, fail⟩⟩ := by
  have hstage : CallStage es i ⟨op, begun, .query q next fail⟩ := horderly.stage i _ hrequest
  refine horderly.still hnot (Pool.forall_places_set (fun j r hne hr => ?_)
    (hstage.failed e hupdate)) fun _ => rfl
  exact (horderly.stage j r hr).concat fun heq => hne (Option.some.inj (heq.symm.trans hwho))

end Steps

theorem Orderly.step {p' : Calls} (horderly : Orderly es p)
    (hstep : Pool.Step Action.exec Db.Shuffled p e p') (hserves : Serves es e) :
    Orderly (es ++ [e]) p' := by
  cases hstep with
  | ran hrequest hexec => exact horderly.ran hrequest hexec hserves
  | refused hrequest hexec =>
      refine horderly.failed hrequest rfl (fun _ _ _ _ _ heq => by cases heq) ?_
      rintro providerId jobId rfl rfl
      exact hserves
  | lost hrequest =>
      refine horderly.failed hrequest rfl (fun _ _ _ _ _ heq => by cases heq) ?_
      rintro providerId jobId rfl rfl
      exact hserves
  | environment henv =>
      refine horderly.still (fun _ _ _ _ _ heq => by cases heq)
        (fun j r hr => (horderly.stage j r hr).concat nofun) fun jobId => ?_
      rw [Db.stateOf, Db.stateOf, henv.jobs.get?_eq jobId]

/-- The property follows. -/
theorem Orderly.handedOutOnce (horderly : Orderly es p) : HandedOutOnce es p := by
  have hhanded : ∀ i jobId, Returns p i jobId →
      (∃ n, Finds es i jobId n) ∧ ∃ e ∈ es, Starts e i jobId := by
    rintro i jobId ⟨providerId, begun, job, hrequest⟩
    have hstage : PollStage es i providerId (.done (some (handing jobId job))) :=
      horderly.stage i _ hrequest
    generalize hreply : handing jobId job = reply at hstage
    cases hstage with
    | empty hnothing => exact absurd hreply.symm (hnothing jobId job)
    | handed hfinds hstarts =>
        rw [handing_inj hreply]
        exact ⟨⟨_, hfinds⟩, hstarts⟩
  exact ⟨fun i jobId hreturns => (hhanded i jobId hreturns).1,
    fun i j jobId n _ _ => horderly.distinct i j jobId n,
    fun i jobId hreturns => (hhanded i jobId hreturns).2⟩

/-- In every run whose steps all serve the polls, each assignment is returned to one poll at most, and
each job that is returned was set to running by its poll. -/
theorem handed_out_once {callers : List Caller}
    (hrun : (Pool.start Caller.program s callers).Runs Action.exec Db.Shuffled (fun _ _ => True) es p)
    (hserves : ServesAll es) : HandedOutOnce es p := by
  suffices horderly : Orderly es p from horderly.handedOutOnce
  induction hrun with
  | nil => exact .start s callers
  | snoc hrun hstep _ ih =>
      exact (ih fun before e hpre => hserves before e (hpre.trans (List.prefix_append _ _))).step hstep
        (hserves _ _ List.prefix_rfl)

/-! ### Two polls and one assignment -/

section Samples

variable {providerId : ProviderId} {job : Job}

/-- Two polls read before either updates. -/
def inFlight (providerId : ProviderId) (jobId : JobId) (s t u : Db) : List CallEvent :=
  [.ran 0 (.poll providerId) (.read (.assignedJob providerId)) s s,
    .ran 1 (.poll providerId) (.read (.assignedJob providerId)) s s,
    .ran 0 (.poll providerId) (.jobs (.start jobId)) s t,
    .ran 1 (.poll providerId) (.jobs (.start jobId)) t u]

/-- The update of the first poll is lost, and the second poll comes later. -/
def unanswered (providerId : ProviderId) (jobId : JobId) (s t : Db) : List CallEvent :=
  [.ran 0 (.poll providerId) (.read (.assignedJob providerId)) s s,
    .lost 0 (.poll providerId) (.jobs (.start jobId)),
    .ran 1 (.poll providerId) (.read (.assignedJob providerId)) s s,
    .ran 1 (.poll providerId) (.jobs (.start jobId)) s t]

/-- The second poll comes when the first has updated. -/
def inTurn (providerId : ProviderId) (jobId : JobId) (s t : Db) : List CallEvent :=
  [.ran 0 (.poll providerId) (.read (.assignedJob providerId)) s s,
    .ran 0 (.poll providerId) (.jobs (.start jobId)) s t,
    .ran 1 (.poll providerId) (.read (.assignedJob providerId)) t t]

/-- A poll that has not begun. -/
def waiting (providerId : ProviderId) : Request Action.Answer Caller (Option Reply) :=
  ⟨.poll providerId, false, .query (.read (.assignedJob providerId)) afterRead
    (.done (some (.error .internalServerError)))⟩

/-- A poll that has returned the job. -/
def handed (providerId : ProviderId) (jobId : JobId) (job : Job) :
    Request Action.Answer Caller (Option Reply) :=
  ⟨.poll providerId, true, .done (some (handing jobId job))⟩

theorem start_polls (s : Db) (providerId : ProviderId) :
    Pool.start Caller.program s [.poll providerId, .poll providerId] =
      ⟨s, [waiting providerId, waiting providerId]⟩ := by
  rw [Pool.start, List.map_cons, List.map_cons, List.map_nil, Request.fresh, program_poll]
  rfl

theorem exec_start (s : Db) (jobId : JobId) :
    ∃ t, Action.exec (.jobs (.start jobId)) s = some ((), t) := ⟨_, rfl⟩

theorem exec_assignedJob (hfound : Read.eval s (.assignedJob providerId) = some (jobId, job)) :
    Action.exec (.read (.assignedJob providerId)) s = some (some (jobId, job), s) :=
  congrArg (fun found => some (found, s)) hfound

theorem returns_of_handed (job : Job) {rs : List (Request Action.Answer Caller (Option Reply))}
    (hrequest : rs[i]? = some (handed providerId jobId job)) : Returns ⟨s, rs⟩ i jobId :=
  ⟨providerId, true, job, hrequest⟩

/-- Two polls that return what they found in the same assignment. -/
theorem not_handedOutOnce_of_both (hfirst : Returns p 0 jobId) (hsecond : Returns p 1 jobId)
    (hfound : Finds es 0 jobId n) (hagain : Finds es 1 jobId n) : ¬ HandedOutOnce es p :=
  fun honce => absurd (honce.once 0 1 jobId n hfirst hsecond hfound hagain) Nat.zero_ne_one

/-- A statement that leaves the table as it is assigns nothing. -/
theorem movesToAssigned_same (jobId : JobId) (i : Nat) (op : Caller) (q : Action) (s : Db) :
    movesToAssigned jobId (.ran i op q s s) = false :=
  decide_eq_false fun henters => henters.2 henters.1

theorem inFlight_runs {u : Db}
    (hfound : Read.eval s (.assignedJob providerId) = some (jobId, job))
    (hfirst : Action.exec (.jobs (.start jobId)) s = some ((), t))
    (hsecond : Action.exec (.jobs (.start jobId)) t = some ((), u)) :
    ∃ p, (Pool.start Caller.program s [.poll providerId, .poll providerId]).Runs Action.exec
      Db.Shuffled (fun _ _ => True) (inFlight providerId jobId s t u) p ∧
      ¬ HandedOutOnce (inFlight providerId jobId s t u) p := by
  have hread := exec_assignedJob hfound
  rw [start_polls]
  refine ⟨_, ((((Pool.Runs.nil _).snoc (.ran rfl hread) trivial).snoc (.ran rfl hread)
    trivial).snoc (.ran rfl hfirst) trivial).snoc (.ran rfl hsecond) trivial, ?_⟩
  have hfinds : Finds (inFlight providerId jobId s t u) 0 jobId 0 :=
    ⟨[], _, ⟨_, rfl⟩, ⟨providerId, s, s, job, rfl, hfound⟩, rfl⟩
  have hagain : Finds (inFlight providerId jobId s t u) 1 jobId 0 := by
    refine ⟨[.ran 0 (.poll providerId) (.read (.assignedJob providerId)) s s], _, ⟨_, rfl⟩,
      ⟨providerId, s, s, job, rfl, hfound⟩, ?_⟩
    rw [assignmentsOf, List.countP_singleton, movesToAssigned_same]
    rfl
  exact not_handedOutOnce_of_both (returns_of_handed job rfl) (returns_of_handed job rfl)
    hfinds hagain

theorem unanswered_runs (hfound : Read.eval s (.assignedJob providerId) = some (jobId, job))
    (hstart : Action.exec (.jobs (.start jobId)) s = some ((), t)) :
    ∃ p, (Pool.start Caller.program s [.poll providerId, .poll providerId]).Runs Action.exec
      Db.Shuffled (fun _ _ => True) (unanswered providerId jobId s t) p ∧
      ¬ HandedOutOnce (unanswered providerId jobId s t) p := by
  have hread := exec_assignedJob hfound
  rw [start_polls]
  refine ⟨_, ((((Pool.Runs.nil _).snoc (.ran rfl hread) trivial).snoc (.lost rfl)
    trivial).snoc (.ran rfl hread) trivial).snoc (.ran rfl hstart) trivial, ?_⟩
  have hfinds : Finds (unanswered providerId jobId s t) 0 jobId 0 :=
    ⟨[], _, ⟨_, rfl⟩, ⟨providerId, s, s, job, rfl, hfound⟩, rfl⟩
  have hagain : Finds (unanswered providerId jobId s t) 1 jobId 0 := by
    refine ⟨[.ran 0 (.poll providerId) (.read (.assignedJob providerId)) s s,
      .lost 0 (.poll providerId) (.jobs (.start jobId))], _, ⟨_, rfl⟩,
      ⟨providerId, s, s, job, rfl, hfound⟩, ?_⟩
    rw [assignmentsOf, List.countP_cons, List.countP_singleton, movesToAssigned_same]
    rfl
  exact not_handedOutOnce_of_both (returns_of_handed job rfl) (returns_of_handed job rfl)
    hfinds hagain

theorem servesAll_concat (hserves : ServesAll es) (hlast : Serves es e) : ServesAll (es ++ [e]) := by
  intro before e' hpre
  rcases prefix_concat_cases hpre with ⟨rfl, rfl⟩ | hpre
  · exact hlast
  · exact hserves before e' hpre

theorem servesAll_nil : ServesAll [] := fun _ _ hpre =>
  absurd (List.prefix_nil.mp hpre) (List.append_ne_nil_of_right_ne_nil _ (List.cons_ne_nil _ _))

theorem inTurn_runs (hfound : Read.eval s (.assignedJob providerId) = some (jobId, job))
    (hstart : Action.exec (.jobs (.start jobId)) s = some ((), t))
    (hnothing : Read.eval t (.assignedJob providerId) = none) :
    (∃ p, (Pool.start Caller.program s [.poll providerId, .poll providerId]).Runs Action.exec
      Db.Shuffled (fun _ _ => True) (inTurn providerId jobId s t) p ∧ Returns p 0 jobId) ∧
      ServesAll (inTurn providerId jobId s t) := by
  have hread := exec_assignedJob hfound
  have hagain : Action.exec (.read (.assignedJob providerId)) t = some (none, t) :=
    congrArg (fun found => some (found, t)) hnothing
  constructor
  · rw [start_polls]
    exact ⟨_, (((Pool.Runs.nil _).snoc (.ran rfl hread) trivial).snoc (.ran rfl hstart)
      trivial).snoc (.ran rfl hagain) trivial, returns_of_handed job rfl⟩
  · refine servesAll_concat (servesAll_concat (servesAll_concat servesAll_nil ?_) ?_) ?_
    · exact fun k row _ j hfinds => absurd hfinds not_finds_nil
    · intro hrunning
      cases (stateOf_of_found hfound).symm.trans hrunning
    · exact fun k row hrow => absurd (hrow.symm.trans hnothing) (Option.some_ne_none _)

end Samples

/-- The job of `assigned`, which its provider finds. -/
theorem assigned_found :
    ∃ job, Read.eval (afterAll assigned Db.init) (.assignedJob "p") = some ("a", job) := by
  have hfound : (Read.eval (afterAll assigned Db.init) (.assignedJob "p")).map Prod.fst =
      some "a" := by decide +kernel
  obtain ⟨⟨jobId, job⟩, hread, heq⟩ := Option.map_eq_some_iff.mp hfound
  exact ⟨job, heq ▸ hread⟩

/-- Two polls in flight are both handed the job, and so is a second poll when the first one's update
is lost. -/
theorem assigned_not_handedOutOnce :
    ∃ jobId t u p p', (Pool.start Caller.program (afterAll assigned Db.init)
        [.poll "p", .poll "p"]).Runs Action.exec Db.Shuffled (fun _ _ => True)
        (inFlight "p" jobId (afterAll assigned Db.init) t u) p ∧
      ¬ HandedOutOnce (inFlight "p" jobId (afterAll assigned Db.init) t u) p ∧
      (Pool.start Caller.program (afterAll assigned Db.init)
        [.poll "p", .poll "p"]).Runs Action.exec Db.Shuffled (fun _ _ => True)
        (unanswered "p" jobId (afterAll assigned Db.init) t) p' ∧
      ¬ HandedOutOnce (unanswered "p" jobId (afterAll assigned Db.init) t) p' := by
  obtain ⟨job, hfound⟩ := assigned_found
  obtain ⟨t, hfirst⟩ := exec_start (afterAll assigned Db.init) "a"
  obtain ⟨u, hsecond⟩ := exec_start t "a"
  obtain ⟨p, hboth, hnot⟩ := inFlight_runs hfound hfirst hsecond
  obtain ⟨p', hlost, hnot'⟩ := unanswered_runs hfound hfirst
  exact ⟨"a", t, u, p, p', hboth, hnot, hlost, hnot'⟩

/-- Two polls one after the other. -/
theorem handed_out_once_inTurn :
    ∃ t p, Returns p 0 "a" ∧ HandedOutOnce (inTurn "p" "a" (afterAll assigned Db.init) t) p := by
  obtain ⟨job, hfound⟩ := assigned_found
  have hnothing : ((Action.exec (.jobs (.start "a")) (afterAll assigned Db.init)).bind fun started =>
      Read.eval started.2 (.assignedJob "p")).isNone := by decide +kernel
  obtain ⟨t, hstart⟩ := exec_start (afterAll assigned Db.init) "a"
  rw [hstart, Option.bind_some, Option.isNone_iff_eq_none] at hnothing
  obtain ⟨⟨p, hrun, hreturns⟩, hserves⟩ := inTurn_runs hfound hstart hnothing
  exact ⟨t, p, hreturns, handed_out_once hrun hserves⟩

end NeuralMesh
