import NeuralMesh.Coordinator.Rest
import NeuralMesh.Sdk.StreamLogs
import NeuralMesh.System.LogChanges

/-!
# The SDK counts characters where the server counts bytes

The offset of the SDK's `stream_logs` is the number of code points it yielded, and the coordinator
takes it for a position in bytes.
-/

namespace NeuralMesh

open Coordinator

/-- One byte for each character. -/
def IsAscii (text : String) : Prop := ∀ c ∈ text.toList, c.utf8Size = 1

instance (text : String) : Decidable (IsAscii text) :=
  List.decidableBAll (fun c : Char => c.utf8Size = 1) text.toList

/-- The coordinator and one generator. -/
structure SdkSession where
  server : LogDb
  stream : Sdk.Stream

namespace SdkSession

variable (timeText : Time → String) (jobId : JobId)

/-- The generator goes on by a step; both queries are answered. -/
def advance (s : SdkSession) : SdkSession :=
  { s with
    stream := s.stream.next (fun offset => Coordinator.getJobLogs jobId (some offset) s.server)
      (some ((Coordinator.getJob timeText jobId).run Action.exec s.server.db).1) }

/-- A run until the generator ends, with the moments before the last and the outputs that its polls
found, oldest first. -/
inductive History (server : LogDb) : List SdkSession → List String → SdkSession → Prop
  | start : History server [] [] ⟨server, .start⟩
  | server {moments : List SdkSession} {polls : List String} {s : SdkSession} {t : LogDb}
      (hrun : History server moments polls s) (hopen : s.stream.phase ≠ .ended)
      (hchanges : s.server.Changes t) :
      History server (moments ++ [s]) polls { s with server := t }
  | poll {moments : List SdkSession} {polls : List String} {s : SdkSession}
      (hrun : History server moments polls s) (hasking : s.stream.phase = .asking) :
      History server (moments ++ [s]) (polls ++ [s.server.fullLog jobId])
        (s.advance timeText jobId)
  | resume {moments : List SdkSession} {polls : List String} {s : SdkSession}
      (hrun : History server moments polls s) (hother : s.stream.phase ≠ .asking)
      (hopen : s.stream.phase ≠ .ended) :
      History server (moments ++ [s]) polls (s.advance timeText jobId)

/-- Nothing repeated or failed so far, and nothing lost at the end. -/
structure Faithful (s : SdkSession) : Prop where
  notRaised : s.stream.phase ≠ .raised
  yields_prefix : s.stream.yields.toList <+: (s.server.fullLog jobId).toList
  complete : s.stream.phase = .ended → s.stream.yields = s.server.fullLog jobId

/-- Every poll but the last found an output in ASCII, and the last one found all there is when the
generator ends. -/
structure CountsRight (polls : List String) (s : SdkSession) : Prop where
  ascii : ∀ log ∈ polls.dropLast, IsAscii log
  last : s.stream.phase = .ended → polls.getLast? = some (s.server.fullLog jobId)

end SdkSession

/-! ### The state query -/

/-- The reply has members that the constructor does not know. -/
theorem getJob_raises (timeText : Time → String) (jobId : JobId) (s : Db) :
    Sdk.getJob (some ((Coordinator.getJob timeText jobId).run Action.exec s).1) = none := by
  have hread : Action.exec (.read (.job jobId)) s = some (s.jobs.get? jobId, s) := rfl
  rw [Coordinator.getJob, askOrError, Program.askOr, Program.run_query_of_some _ hread]
  cases s.jobs.get? jobId with
  | none => rfl
  | some job =>
      change (Sdk.Job.ofKwargs (jobJson timeText jobId job ++ [("_client", .null)])) = none
      rw [Sdk.Job.ofKwargs, if_neg]
      rintro ⟨hall, -⟩
      rw [List.all_eq_true] at hall
      have hid : "job_id" ∈ Sdk.Job.required ++ Sdk.Job.optional :=
        of_decide_eq_true (hall ("job_id", .str jobId) (by simp [jobJson]))
      exact absurd hid (by decide)

/-! ### One step -/

theorem getJobLogs_answer {jobId : JobId} {s : LogDb} {job : Job} (offset : Nat)
    (hjob : s.db.jobs.get? jobId = some job) :
    Sdk.getJobLogs (Coordinator.getJobLogs jobId (some offset) s) =
      (restFrom Char.utf8Size offset (s.fullLog jobId).toList).map fun rest =>
        (String.ofList rest, job.state.isTerminal) := by
  rw [getJobLogs_of_job offset hjob]
  cases restFrom Char.utf8Size offset (s.fullLog jobId).toList <;> rfl

theorem length_eq (text : String) : text.length = textWidth (fun _ => 1) text.toList := by
  rw [← String.length_toList]
  simp [textWidth]

theorem isAscii_iff (text : String) :
    IsAscii text ↔ text.length = textWidth Char.utf8Size text.toList := by
  rw [length_eq, textWidth_eq_iff fun c => Char.utf8Size_pos c, IsAscii]
  exact forall₂_congr fun c _ => eq_comm

theorem length_lt_of_not_isAscii {text : String} (hascii : ¬ IsAscii text) :
    text.length < textWidth Char.utf8Size text.toList := by
  rw [isAscii_iff, length_eq] at hascii
  rw [length_eq]
  exact lt_of_le_of_ne (textWidth_le (fun c => Char.utf8Size_pos c) _) hascii

namespace SdkSession

/-- What was yielded and is not counted yet. -/
def pending (s : SdkSession) : Nat :=
  match s.stream.phase with
  | .yielded chunk _ => chunk.length
  | _ => 0

variable {timeText : Time → String} {jobId : JobId} {initial : LogDb}
  {moments : List SdkSession} {polls : List String} {s : SdkSession}

/-- The generator yielded the output as its last poll found it, and counted its characters. -/
structure Sound (jobId : JobId) (polls : List String) (s : SdkSession) : Prop where
  yields_eq : s.stream.yields = polls.getLast?.getD ""
  yields_prefix : s.stream.yields.toList <+: (s.server.fullLog jobId).toList
  count : s.stream.offset + s.pending = s.stream.yields.length
  notRaised : s.stream.phase ≠ .raised
  polled : s.stream.phase ≠ .asking → polls ≠ []

theorem Sound.start (server : LogDb) : Sound jobId [] ⟨server, .start⟩ :=
  ⟨rfl, List.nil_prefix, rfl, nofun, fun h => absurd rfl h⟩

theorem Sound.server (hsound : s.Sound jobId polls) {t : LogDb} (hchanges : s.server.Changes t) :
    Sound jobId polls { s with server := t } := by
  obtain ⟨more, hmore⟩ := hchanges.fullLog jobId
  refine ⟨hsound.yields_eq, ?_, hsound.count, hsound.notRaised, hsound.polled⟩
  rw [hmore, String.toList_append]
  exact hsound.yields_prefix.trans (List.prefix_append _ _)

/-- A poll behind an output in ASCII yields what is missing. -/
theorem Sound.poll (hsound : s.Sound jobId polls) (hasking : s.stream.phase = .asking)
    (hjob : (s.server.db.jobs.get? jobId).isSome) (hascii : IsAscii s.stream.yields) :
    (s.advance timeText jobId).Sound jobId (polls ++ [s.server.fullLog jobId]) := by
  obtain ⟨job, hjob⟩ := Option.isSome_iff_exists.mp hjob
  have hcount := hsound.count
  rw [pending, hasking, Nat.add_zero, (isAscii_iff _).mp hascii] at hcount
  obtain ⟨rest, hrest⟩ := hsound.yields_prefix
  have hfrom : restFrom Char.utf8Size s.stream.offset (s.server.fullLog jobId).toList = some rest := by
    rw [hcount, ← hrest]
    exact restFrom_append Char.utf8Size_pos _ rest
  have hnext : (s.advance timeText jobId).stream =
      { s.stream with
        yields := s.stream.yields ++ String.ofList rest
        phase := .yielded (String.ofList rest) job.state.isTerminal } := by
    rw [advance, Sdk.Stream.next, hasking]
    dsimp only
    rw [getJobLogs_answer _ hjob, hfrom, Option.map_some]
  have hall : s.stream.yields ++ String.ofList rest = s.server.fullLog jobId := by
    rw [← String.toList_inj, String.toList_append, String.toList_ofList, hrest]
  refine ⟨?_, ?_, ?_, ?_, fun _ => by simp⟩
  · rw [hnext, List.getLast?_concat, Option.getD_some, ← hall]
  · have hyields : (s.advance timeText jobId).stream.yields = s.server.fullLog jobId := by
      rw [hnext]
      exact hall
    change (s.advance timeText jobId).stream.yields.toList <+: (s.server.fullLog jobId).toList
    exact hyields ▸ List.prefix_rfl
  · rw [pending, hnext, String.length_append, hcount, ← (isAscii_iff _).mp hascii]
  · rw [hnext]
    nofun

/-- A poll behind an output that is not in ASCII repeats some of it or fails. -/
theorem Sound.poll_repeats (hsound : s.Sound jobId polls) (hasking : s.stream.phase = .asking)
    (hjob : (s.server.db.jobs.get? jobId).isSome) (hascii : ¬ IsAscii s.stream.yields) :
    ¬ (s.advance timeText jobId).Faithful jobId := by
  intro hfaithful
  obtain ⟨job, hjob⟩ := Option.isSome_iff_exists.mp hjob
  have hcount := hsound.count
  rw [pending, hasking, Nat.add_zero] at hcount
  have hbehind := length_lt_of_not_isAscii hascii
  rw [← hcount] at hbehind
  have hanswer := getJobLogs_answer s.stream.offset hjob
  cases hfrom : restFrom Char.utf8Size s.stream.offset (s.server.fullLog jobId).toList with
  | none =>
      refine hfaithful.notRaised ?_
      rw [advance, Sdk.Stream.next, hasking]
      dsimp only
      rw [hanswer, hfrom]
      rfl
  | some rest =>
      refine not_prefix_of_behind hbehind hsound.yields_prefix hfrom ?_
      have hprefix := hfaithful.yields_prefix
      rw [advance, Sdk.Stream.next, hasking] at hprefix
      dsimp only at hprefix
      rw [hanswer, hfrom, Option.map_some] at hprefix
      dsimp only at hprefix
      rwa [String.toList_append, String.toList_ofList] at hprefix

/-- Between two polls the generator counts what it yielded. -/
theorem Sound.resume (hsound : s.Sound jobId polls) (hother : s.stream.phase ≠ .asking) :
    (s.advance timeText jobId).Sound jobId polls := by
  have hpolls := hsound.polled hother
  cases hphase : s.stream.phase with
  | asking => exact absurd hphase hother
  | yielded chunk done =>
      have hcount := hsound.count
      rw [pending, hphase] at hcount
      have hnext : (s.advance timeText jobId).stream =
          { s.stream with
            offset := s.stream.offset + chunk.length
            phase := if done then .ended else .checking } := by
        rw [advance, Sdk.Stream.next, hphase]
        cases done <;> rfl
      refine ⟨by rw [hnext]; exact hsound.yields_eq, by rw [hnext]; exact hsound.yields_prefix, ?_,
        ?_, fun _ => hpolls⟩
      · rw [pending, hnext]
        cases done <;> exact hcount
      · rw [hnext]
        cases done <;> nofun
  | checking =>
      have hcount := hsound.count
      rw [pending, hphase] at hcount
      have hnext : (s.advance timeText jobId).stream = { s.stream with phase := .asking } := by
        rw [advance, Sdk.Stream.next, hphase]
        dsimp only
        rw [getJob_raises]
      refine ⟨by rw [hnext]; exact hsound.yields_eq, by rw [hnext]; exact hsound.yields_prefix, ?_,
        ?_, fun _ => hpolls⟩
      · rw [pending, hnext]
        exact hcount
      · rw [hnext]
        nofun
  | ended =>
      have hnext : (s.advance timeText jobId) = s := by
        rw [advance, Sdk.Stream.next, hphase]
      rw [hnext]
      exact hsound
  | raised => exact absurd hphase hsound.notRaised

/-! ### A whole run -/

theorem History.exists_job (hrun : History timeText jobId initial moments polls s)
    (hjob : (initial.db.jobs.get? jobId).isSome) : (s.server.db.jobs.get? jobId).isSome := by
  induction hrun with
  | start => exact hjob
  | server _ _ hchanges ih => exact hchanges.exists_job ih
  | poll _ _ ih => exact ih
  | resume _ _ _ ih => exact ih

theorem Sound.faithful (hsound : s.Sound jobId polls) (hopen : s.stream.phase ≠ .ended) :
    s.Faithful jobId :=
  ⟨hsound.notRaised, hsound.yields_prefix, fun hended => absurd hended hopen⟩

theorem Sound.faithful_moments (hsound : s.Sound jobId polls) (hopen : s.stream.phase ≠ .ended)
    (hmoments : ∀ u ∈ moments, u.Faithful jobId) : ∀ u ∈ moments ++ [s], u.Faithful jobId := by
  intro u hmem
  rcases List.mem_append.mp hmem with hmem | hlast
  · exact hmoments u hmem
  · rw [List.mem_singleton.mp hlast]
    exact hsound.faithful hopen

/-- The last poll found what was yielded. -/
theorem Sound.ascii_iff (hsound : s.Sound jobId polls) :
    (∀ log ∈ polls, IsAscii log) ↔ (∀ log ∈ polls.dropLast, IsAscii log) ∧ IsAscii s.stream.yields
    := by
  rw [hsound.yields_eq]
  rcases List.eq_nil_or_concat' polls with rfl | ⟨before, last, rfl⟩
  · exact ⟨fun _ => ⟨nofun, nofun⟩, fun _ => nofun⟩
  · rw [List.getLast?_concat, Option.getD_some, List.dropLast_concat, List.forall_mem_append,
      List.forall_mem_singleton]

/-- The generator is sound as long as every poll but the last found an output in ASCII; from the
next poll on it is not faithful. -/
theorem History.sound_or (hrun : History timeText jobId initial moments polls s)
    (hjob : (initial.db.jobs.get? jobId).isSome) :
    ((∀ log ∈ polls.dropLast, IsAscii log) ∧ s.Sound jobId polls ∧
        ∀ u ∈ moments, u.Faithful jobId) ∨
      (∃ log ∈ polls.dropLast, ¬ IsAscii log) ∧ ∃ u ∈ moments ++ [s], ¬ u.Faithful jobId := by
  have kept : ∀ {moments : List SdkSession} {s t : SdkSession},
      (∃ u ∈ moments ++ [s], ¬ u.Faithful jobId) →
        ∃ u ∈ moments ++ [s] ++ [t], ¬ u.Faithful jobId := by
    intro moments s t hbad
    obtain ⟨u, hmem, hnot⟩ := hbad
    exact ⟨u, List.mem_append_left _ hmem, hnot⟩
  induction hrun with
  | start => exact .inl ⟨nofun, .start _, nofun⟩
  | server _ hopen hchanges ih =>
      rcases ih with ⟨hascii, hsound, hmoments⟩ | ⟨hnot, hbad⟩
      · exact .inl ⟨hascii, hsound.server hchanges, hsound.faithful_moments hopen hmoments⟩
      · exact .inr ⟨hnot, kept hbad⟩
  | resume _ hother hopen ih =>
      rcases ih with ⟨hascii, hsound, hmoments⟩ | ⟨hnot, hbad⟩
      · exact .inl ⟨hascii, hsound.resume hother, hsound.faithful_moments hopen hmoments⟩
      · exact .inr ⟨hnot, kept hbad⟩
  | @poll moments polls s hbefore hasking ih =>
      have hexists := hbefore.exists_job hjob
      rw [List.dropLast_concat]
      rcases ih with ⟨hascii, hsound, hmoments⟩ | ⟨⟨log, hmem, hnot⟩, hbad⟩
      · by_cases hlast : IsAscii s.stream.yields
        · exact .inl ⟨hsound.ascii_iff.mpr ⟨hascii, hlast⟩, hsound.poll hasking hexists hlast,
            hsound.faithful_moments (by rw [hasking]; nofun) hmoments⟩
        · have hnot : ¬ ∀ log ∈ polls, IsAscii log := fun hall => hlast (hsound.ascii_iff.mp hall).2
          rw [not_forall₂] at hnot
          obtain ⟨log, hmem, hlog⟩ := hnot
          exact .inr ⟨⟨log, hmem, hlog⟩, _, List.mem_append_right _ (List.mem_singleton_self _),
            hsound.poll_repeats hasking hexists hlast⟩
      · exact .inr ⟨⟨log, List.dropLast_subset _ hmem, hnot⟩, kept hbad⟩

end SdkSession

/-- A run is faithful at every moment exactly when the outputs that were found are in ASCII, the
last one excepted, and the last one was the whole output. -/
theorem sdk_stream_logs_iff {timeText : Time → String} {jobId : JobId} {server : LogDb}
    {moments : List SdkSession} {polls : List String} {s : SdkSession}
    (hjob : (server.db.jobs.get? jobId).isSome)
    (hrun : SdkSession.History timeText jobId server moments polls s) :
    (∀ u ∈ moments ++ [s], u.Faithful jobId) ↔ SdkSession.CountsRight jobId polls s := by
  have hlast : s ∈ moments ++ [s] := List.mem_append_right _ (List.mem_singleton_self s)
  rcases hrun.sound_or hjob with ⟨hascii, hsound, hmoments⟩ | ⟨⟨log, hmem, hnot⟩, u, hu, hbad⟩
  · constructor
    · intro hfaithful
      refine ⟨hascii, fun hended => ?_⟩
      have hpolls := hsound.polled (by rw [hended]; nofun)
      have hyields := hsound.yields_eq
      rw [(hfaithful s hlast).complete hended] at hyields
      rcases List.eq_nil_or_concat' polls with rfl | ⟨before, last, rfl⟩
      · exact absurd rfl hpolls
      · rw [List.getLast?_concat, Option.getD_some] at hyields
        rw [List.getLast?_concat, hyields]
    · intro hcounts u hmem
      rcases List.mem_append.mp hmem with hmem | hmem
      · exact hmoments u hmem
      · rw [List.mem_singleton.mp hmem]
        refine ⟨hsound.notRaised, hsound.yields_prefix, fun hended => ?_⟩
        rw [hsound.yields_eq, hcounts.last hended, Option.getD_some]
  · constructor
    · exact fun hfaithful => absurd (hfaithful u hu) hbad
    · exact fun hcounts => absurd (hcounts.ascii log hmem) hnot

/-! ### A poll of a job in progress, and one when it is complete -/

def printing (output : String) : LogDb := quietJob.append "a" output

def goOn (s : SdkSession) : SdkSession := s.advance (fun _ => "") "a"

/-- A poll, its resumption and the query of the state. -/
def firstTurn (output : String) : SdkSession := goOn (goOn (goOn ⟨printing output, .start⟩))

/-- The job completes. -/
def completing (s : SdkSession) : SdkSession :=
  { s with
    server := s.server.withDb
      { s.server.db with
        jobs := s.server.db.jobs.update "a" (.report s.server.db.now .complete "" 1) }
      fun _ => Action.exec_job_isSome (q := .jobs (.report "a" .complete "" 1)) rfl }

/-- The next poll and its resumption. -/
def secondTurn (output : String) : SdkSession := goOn (goOn (completing (firstTurn output)))

theorem history_firstTurn {output : String}
    (hpolled : (goOn ⟨printing output, .start⟩).stream.phase = .yielded output false) :
    SdkSession.History (fun _ => "") "a" (printing output)
      [⟨printing output, .start⟩, goOn ⟨printing output, .start⟩,
        goOn (goOn ⟨printing output, .start⟩)]
      [(printing output).fullLog "a"] (firstTurn output) := by
  have hchecking : (goOn (goOn ⟨printing output, .start⟩)).stream.phase = .checking := by
    rw [goOn, SdkSession.advance, Sdk.Stream.next, hpolled]
    rfl
  exact ((SdkSession.History.start.poll rfl).resume (by rw [← goOn, hpolled]; nofun)
    (by rw [← goOn, hpolled]; nofun)).resume (by rw [← goOn, ← goOn, hchecking]; nofun)
    (by rw [← goOn, ← goOn, hchecking]; nofun)

theorem history_secondTurn (output rest : String)
    (hpolled : (goOn ⟨printing output, .start⟩).stream.phase = .yielded output false)
    (hasking : (firstTurn output).stream.phase = .asking)
    (hagain : (goOn (completing (firstTurn output))).stream.phase = .yielded rest true) :
    ∃ moments, SdkSession.History (fun _ => "") "a" (printing output) moments
      [(printing output).fullLog "a", (completing (firstTurn output)).server.fullLog "a"]
      (secondTurn output) := by
  have hcompleted := (history_firstTurn hpolled).server (by rw [hasking]; nofun)
    (.statement (q := .jobs (.report "a" .complete "" 1)) rfl)
  refine ⟨_, (hcompleted.poll hasking).resume ?_ ?_⟩
  · change (goOn (completing (firstTurn output))).stream.phase ≠ _
    rw [hagain]
    nofun
  · change (goOn (completing (firstTurn output))).stream.phase ≠ _
    rw [hagain]
    nofun

theorem sdk_stream_logs_ok :
    ∃ moments polls,
      SdkSession.History (fun _ => "") "a" (printing "ok") moments polls (secondTurn "ok") ∧
        ∀ u ∈ moments ++ [secondTurn "ok"], u.Faithful "a" := by
  obtain ⟨moments, hrun⟩ := history_secondTurn "ok" "" (by decide +kernel)
    (by decide +kernel) (by decide +kernel)
  refine ⟨moments, _, hrun, (sdk_stream_logs_iff (by decide +kernel) hrun).mpr ⟨?_, fun _ => ?_⟩⟩
  · intro log hmem
    rw [List.mem_singleton.mp hmem]
    decide +kernel
  · have hbefore : (completing (firstTurn "ok")).server.fullLog "a" = "ok" := by decide +kernel
    have hafter : (secondTurn "ok").server.fullLog "a" = "ok" := by decide +kernel
    rw [List.getLast?_cons_cons, List.getLast?_singleton, hbefore, hafter]

/-- A character of two bytes makes the second poll start one byte early. -/
theorem sdk_repeats :
    ∃ moments polls,
      SdkSession.History (fun _ => "") "a" (printing "é.") moments polls (secondTurn "é.") ∧
        (secondTurn "é.").stream.phase = .ended ∧ (secondTurn "é.").stream.yields = "é.." ∧
          (secondTurn "é.").server.fullLog "a" = "é." := by
  obtain ⟨moments, hrun⟩ := history_secondTurn "é." "." (by decide +kernel)
    (by decide +kernel) (by decide +kernel)
  exact ⟨moments, _, hrun, by decide +kernel, by decide +kernel, by decide +kernel⟩

end NeuralMesh
