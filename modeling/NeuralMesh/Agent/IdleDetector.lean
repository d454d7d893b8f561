import NeuralMesh.Agent.IdleMonitor

/-!
# The idle detector and its callers

The methods of `IdleDetector` in `macos/src/idle.rs`, called in any order, and what a poll observes of
the machine. A poll reads a clock that does not go back.
-/

namespace NeuralMesh.Agent

/-- What a poll finds. -/
structure Observation where
  /-- `sample_gpu_utilization`, `none` where it cannot be read -/
  gpuUtilPct : Option ℚ
  screensaverActive : Bool
  /-- `user_idle_seconds` -/
  idleSecs : Option Nat
  /-- `NM_FORCE_AVAILABLE` is `1`. -/
  force : Bool

namespace Observation

/-- `is_screen_locked` -/
def isScreenLocked (seen : Observation) : Bool :=
  seen.screensaverActive || 300 < seen.idleSecs.getD 0

/-- `is_gpu_idle` -/
def isGpuIdle (thresholdPct : ℚ) (seen : Observation) : Bool :=
  seen.gpuUtilPct.elim true fun utilizationPct => utilizationPct < thresholdPct

/-- What `poll` goes by; it looks at the lock too, but only logs it. -/
def userIdle (thresholdPct : ℚ) (seen : Observation) : Bool :=
  seen.isGpuIdle thresholdPct || seen.force

end Observation

namespace IdleDetector

def setLeased (d : IdleDetector) : IdleDetector := { d with state := .leased, coolDownSince := none }

def releaseLease (d : IdleDetector) : IdleDetector := { d with state := .busy }

def pause (d : IdleDetector) : IdleDetector := { d with state := .paused }

def resume (d : IdleDetector) : IdleDetector :=
  if d.state = .paused then { d with state := .busy } else d

/-! ### What a poll does -/

variable {d : IdleDetector} {now : Time} {userIdle : Bool}

theorem poll_coolDown : (d.poll now userIdle).1.coolDown = d.coolDown := by
  unfold poll
  repeat' split
  all_goals rfl

/-- A poll ends in `CoolingDown` when it begins to wait or goes on waiting. -/
theorem poll_coolingDown (hstate : (d.poll now userIdle).1.state = .coolingDown) :
    userIdle = true ∧
      (d.state = .busy ∧ (d.poll now userIdle).1.coolDownSince = some now ∨
        d.state = .coolingDown ∧ (d.poll now userIdle).1.coolDownSince = d.coolDownSince) := by
  unfold poll at hstate ⊢
  cases hbefore : d.state <;> cases userIdle <;> simp_all
  split at hstate
  · split at hstate
    · cases hstate
    · rename_i hearly
      rw [if_neg hearly]
  · rfl

/-- The detector has waited long enough. -/
def CooledDown (d : IdleDetector) (now : Time) : Prop :=
  d.state = .coolingDown ∧ ∃ since ∈ d.coolDownSince, since + d.coolDown ≤ now

/-- A poll ends in `Available` when it stays there or has waited long enough. -/
theorem poll_available_iff : (d.poll now userIdle).1.state = .available ↔
    userIdle = true ∧ (d.state = .available ∨ d.CooledDown now) := by
  unfold poll CooledDown
  cases hbefore : d.state <;> cases userIdle <;> simp_all
  cases d.coolDownSince with
  | none => simp [hbefore]
  | some since =>
      by_cases hlate : since + d.coolDown ≤ now
      · simp [hlate]
      · simp [hlate, hbefore]

/-- A poll answers `Available` when it has just waited long enough. -/
theorem poll_answer_available (hanswer : (d.poll now userIdle).2 = some .available) :
    userIdle = true ∧ d.CooledDown now := by
  unfold poll at hanswer
  unfold CooledDown
  cases hbefore : d.state <;> cases userIdle <;> simp_all
  cases hsince : d.coolDownSince with
  | none =>
      rw [hsince] at hanswer
      cases hanswer
  | some since =>
      rw [hsince] at hanswer
      refine ⟨since, rfl, ?_⟩
      by_contra hearly
      dsimp only at hanswer
      rw [if_neg hearly] at hanswer
      cases hanswer

theorem poll_answer_state (hanswer : (d.poll now userIdle).2 = some .available) :
    (d.poll now userIdle).1.state = .available := by
  obtain ⟨hidle, hcooled⟩ := poll_answer_available hanswer
  exact poll_available_iff.mpr ⟨hidle, .inr hcooled⟩

end IdleDetector

/-! ### Calls -/

/-- A call of one of the methods; a poll comes some time after what was before it. -/
inductive Call where
  | poll (elapsed : Time) (seen : Observation)
  | setLeased
  | releaseLease
  | pause
  | resume

/-- The detector and the clock. -/
structure Clocked where
  now : Time
  detector : IdleDetector

namespace Clocked

variable (thresholdPct : ℚ)

def fresh (coolDownMinutes : Nat) (now : Time) : Clocked := ⟨now, .new coolDownMinutes⟩

def step (c : Clocked) : Call → Clocked
  | .poll elapsed seen =>
      ⟨c.now + elapsed, (c.detector.poll (c.now + elapsed) (seen.userIdle thresholdPct)).1⟩
  | .setLeased => { c with detector := c.detector.setLeased }
  | .releaseLease => { c with detector := c.detector.releaseLease }
  | .pause => { c with detector := c.detector.pause }
  | .resume => { c with detector := c.detector.resume }

/-- The new state that a poll returns, if it changed. -/
def answer (c : Clocked) : Call → Option IdleState
  | .poll elapsed seen => (c.detector.poll (c.now + elapsed) (seen.userIdle thresholdPct)).2
  | _ => none

def run (calls : List Call) (c : Clocked) : Clocked := calls.foldl (step thresholdPct) c

variable {thresholdPct} {c : Clocked} {call : Call} {calls more : List Call}

theorem run_append : run thresholdPct (calls ++ more) c =
    run thresholdPct more (run thresholdPct calls c) := List.foldl_append

theorem run_concat : run thresholdPct (calls ++ [call]) c =
    step thresholdPct (run thresholdPct calls c) call := by
  rw [run_append]
  rfl

@[simp]
theorem step_coolDown : (step thresholdPct c call).detector.coolDown = c.detector.coolDown := by
  cases call with
  | poll elapsed seen => exact IdleDetector.poll_coolDown
  | resume =>
      rw [step, IdleDetector.resume]
      split <;> rfl
  | _ => rfl

theorem run_coolDown : (run thresholdPct calls c).detector.coolDown = c.detector.coolDown := by
  induction calls generalizing c with
  | nil => rfl
  | cons call calls ih =>
      show (run thresholdPct calls (step thresholdPct c call)).detector.coolDown = _
      rw [ih, step_coolDown]

theorem answer_state (hanswer : answer thresholdPct c call = some .available) :
    (step thresholdPct c call).detector.state = .available := by
  cases call with
  | poll elapsed seen => exact IdleDetector.poll_answer_state hanswer
  | _ => cases hanswer

end Clocked

end NeuralMesh.Agent
