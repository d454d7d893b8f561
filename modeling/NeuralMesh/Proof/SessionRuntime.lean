import NeuralMesh.Agent.Checkpoint
import NeuralMesh.Proof.NewestCheckpoint

/-!
# The run time of a job over its sessions

The clock of a ticker starts with its session, and nothing adds what earlier sessions ran. A
restore adds the seconds of the checkpoint it started from, which are those of one session.
-/

namespace NeuralMesh

open Agent

/-- A session of a job: the clock when it started, when its ticker did, at the ticks and when it
ended, and the code its process exited with. -/
structure Session where
  providerId : ProviderId
  start : Instant
  spawned : Instant
  ticks : List Tick
  ended : Instant
  exitCode : Int

namespace Session

variable (jobId : JobId) (coordPort : Nat) (checkpointDir : String)

/-- The rows the coordinator keeps of the session's checkpoints. -/
def rows (session : Session) : List JobCheckpoint :=
  ((spawnCheckpointTicker jobId coordPort checkpointDir session.spawned).run session.ticks).map
    fun snapshot => CheckpointBody.row jobId (snapshot.report session.providerId)

/-- How long the session had run at each of its checkpoints. -/
def checkpointTimes (session : Session) : List Nat :=
  (session.ticks.filter fun tick => tick.dmtcpFiles.isSome).map fun tick =>
    asSecs session.spawned tick.now

/-- How long the session ran up to the checkpoint the next one starts from. -/
def used (session : Session) : Nat := session.checkpointTimes.getLast?.getD 0

/-- How long the last session ran. -/
def full (session : Session) : Nat := asSecs session.start session.ended

/-- The run time reported at the end of a session, which starts afresh or from the last checkpoint
of the session before. -/
def report (before : Option Session) (session : Session) : Except String Nat :=
  match before.bind fun previous => (previous.rows jobId coordPort checkpointDir).getLast? with
  | none => runSandboxed session.start session.ended session.exitCode
  | some row =>
      runRestore (CheckpointMeta.ofRow row) session.start session.ended session.exitCode

end Session

/-- The run time of the sessions up to the checkpoints that were used. -/
def usedIn (sessions : List Session) : Nat := (sessions.map Session.used).sum

section Accounts

variable (jobId : JobId) (coordPort : Nat) (checkpointDir : String)

/-- Each checkpoint is stored with the run time over all sessions, and so is the end reported. -/
structure AccountedOnce (before : List Session) (last : Session) : Prop where
  stored : ∀ earlier session later, before ++ [last] = earlier ++ session :: later →
    (session.rows jobId coordPort checkpointDir).map JobCheckpoint.elapsedSecs =
      session.checkpointTimes.map fun time : Nat => ((usedIn earlier + time : Nat) : Int)
  reported : last.exitCode = 0 →
    last.report jobId coordPort checkpointDir before.getLast? = .ok (usedIn before + last.full)

/-- No time was used before a session that makes a checkpoint, nor before the session that the last
one was restored from. -/
structure NothingLost (before : List Session) (last : Session) : Prop where
  checkpoints : ∀ earlier session later, before ++ [last] = earlier ++ session :: later →
    session.checkpointTimes ≠ [] → usedIn earlier = 0
  restore : last.exitCode = 0 → usedIn before.dropLast = 0

end Accounts

variable {jobId : JobId} {coordPort : Nat} {checkpointDir : String}

/-- The ticker stores its own time. -/
theorem elapsedSecs_run (t : Ticker) (ticks : List Tick) :
    (t.run ticks).map CheckpointMeta.elapsedSecs =
      (ticks.filter fun tick => tick.dmtcpFiles.isSome).map fun tick =>
        asSecs t.startedAt tick.now := by
  induction ticks generalizing t with
  | nil => rfl
  | cons tick ticks ih =>
      rw [Ticker.run, List.map_append, ih]
      cases hfiles : tick.dmtcpFiles with
      | none => simp [Ticker.tick, hfiles]
      | some files => simp [Ticker.tick, hfiles]

theorem elapsedSecs_rows (session : Session) :
    (session.rows jobId coordPort checkpointDir).map JobCheckpoint.elapsedSecs =
      session.checkpointTimes.map fun time : Nat => (time : Int) := by
  have hrun := elapsedSecs_run
    (spawnCheckpointTicker jobId coordPort checkpointDir session.spawned) session.ticks
  rw [Session.rows, Session.checkpointTimes, List.map_map]
  have hstored : (JobCheckpoint.elapsedSecs ∘ fun snapshot : CheckpointMeta =>
      CheckpointBody.row jobId (snapshot.report session.providerId)) =
      (fun n : Nat => (n : Int)) ∘ CheckpointMeta.elapsedSecs := rfl
  rw [hstored, ← List.map_map, hrun]
  rfl

theorem elapsedSecs_last (jobId : JobId) (coordPort : Nat) (checkpointDir : String)
    (session : Session) :
    (session.rows jobId coordPort checkpointDir).getLast?.map JobCheckpoint.elapsedSecs =
      session.checkpointTimes.getLast?.map fun time : Nat => (time : Int) := by
  rw [← List.getLast?_map, ← List.getLast?_map, elapsedSecs_rows]

/-- A list of times is itself with a time added only where nothing is added. -/
theorem map_add_eq_iff (times : List Nat) (n : Nat) :
    times.map (fun time : Nat => (time : Int)) = times.map (fun time : Nat => ((n + time : Nat) : Int)) ↔
      (times ≠ [] → n = 0) := by
  rw [List.map_inj_left]
  constructor
  · intro hsame hne
    obtain ⟨time, htime⟩ := List.exists_mem_of_ne_nil times hne
    have htime := hsame time htime
    omega
  · intro hzero time htime
    rw [hzero (List.ne_nil_of_mem htime), Nat.zero_add]

/-- A restore adds the time of one session to that of the last. -/
theorem report_restored {previous last : Session} (hcheckpoints : previous.checkpointTimes ≠ [])
    (hexit : last.exitCode = 0) :
    last.report jobId coordPort checkpointDir (some previous) =
      .ok (last.full + previous.used) := by
  obtain ⟨earlier, time, htimes⟩ : ∃ earlier time, previous.checkpointTimes = earlier ++ [time] :=
    ⟨_, _, (List.dropLast_append_getLast hcheckpoints).symm⟩
  have hlast := elapsedSecs_last jobId coordPort checkpointDir previous
  rw [htimes, List.getLast?_concat, Option.map_some] at hlast
  obtain ⟨row, hrow, helapsed⟩ := Option.map_eq_some_iff.mp hlast
  rw [Session.report, Option.bind_some, hrow]
  dsimp only
  rw [runRestore, if_neg (not_not_intro hexit), Session.used, htimes, List.getLast?_concat,
    CheckpointMeta.ofRow, helapsed]
  rfl

theorem usedIn_concat (earlier : List Session) (previous : Session) :
    usedIn (earlier ++ [previous]) = usedIn earlier + previous.used := by
  rw [usedIn, List.map_append, List.sum_append]
  simp [usedIn]

/-- The run time is accounted once exactly when no time was used before a session that makes a
checkpoint, nor before the last but one. -/
theorem accounted_once_iff {before : List Session} {last : Session}
    (hcheckpoints : ∀ session ∈ before, session.checkpointTimes ≠ []) :
    AccountedOnce jobId coordPort checkpointDir before last ↔ NothingLost before last := by
  have hstored : ∀ earlier (session : Session),
      ((session.rows jobId coordPort checkpointDir).map JobCheckpoint.elapsedSecs =
        session.checkpointTimes.map fun time : Nat => ((usedIn earlier + time : Nat) : Int)) ↔
      (session.checkpointTimes ≠ [] → usedIn earlier = 0) := by
    intro earlier session
    rw [elapsedSecs_rows]
    exact map_add_eq_iff _ _
  have hreported : last.exitCode = 0 →
      (last.report jobId coordPort checkpointDir before.getLast? =
        .ok (usedIn before + last.full) ↔ usedIn before.dropLast = 0) := by
    intro hexit
    rcases List.eq_nil_or_concat' before with rfl | ⟨earlier, previous, rfl⟩
    · refine iff_of_true ?_ rfl
      rw [List.getLast?_nil, Session.report, Option.bind_none, runSandboxed,
        if_neg (not_not_intro hexit), usedIn, List.map_nil, List.sum_nil, Nat.zero_add]
      rfl
    · rw [List.getLast?_concat, List.dropLast_concat,
        report_restored (hcheckpoints previous (by simp)) hexit, usedIn_concat, Except.ok.injEq]
      omega
  constructor
  · intro haccounted
    exact ⟨fun earlier session later hsplit => (hstored earlier session).mp
      (haccounted.stored earlier session later hsplit),
      fun hexit => (hreported hexit).mp (haccounted.reported hexit)⟩
  · intro hnothing
    exact ⟨fun earlier session later hsplit => (hstored earlier session).mpr
      (hnothing.checkpoints earlier session later hsplit),
      fun hexit => (hreported hexit).mpr (hnothing.restore hexit)⟩

/-! ### Three sessions -/

/-- A session with checkpoints at these seconds. -/
def sessionAt (providerId : ProviderId) (times : List Nat) (ended : Nat) : Session where
  providerId := providerId
  start := 0
  spawned := 0
  ticks := times.map fun time => ⟨time * 10 ^ 9, some ["ckpt_python.dmtcp"]⟩
  ended := ended * 10 ^ 9
  exitCode := 0

theorem accounted_once_restored :
    (∀ session ∈ [sessionAt "p" [300, 600] 700], session.checkpointTimes ≠ []) ∧
      (AccountedOnce "a" 7780 "/var/neuralmesh/checkpoints/a" [sessionAt "p" [300, 600] 700]
          (sessionAt "q" [] 100) ↔
        NothingLost [sessionAt "p" [300, 600] 700] (sessionAt "q" [] 100)) :=
  ⟨by decide, accounted_once_iff (by decide)⟩

/-- A second restore loses the ten minutes of the first session. -/
theorem first_session_lost :
    let before := [sessionAt "p" [300, 600] 700, sessionAt "q" [300] 400]
    let last := sessionAt "r" [] 100
    (∀ session ∈ before, session.checkpointTimes ≠ []) ∧
      last.report "a" 7780 "/var/neuralmesh/checkpoints/a" before.getLast? = .ok 400 ∧
      usedIn before + last.full = 1000 ∧
      ¬ AccountedOnce "a" 7780 "/var/neuralmesh/checkpoints/a" before last := by
  refine ⟨by decide, by rfl, by decide, fun haccounted => ?_⟩
  have hreported := haccounted.reported rfl
  exact absurd (Except.ok.inj hreported) (by decide)

end NeuralMesh
