import Mathlib.Data.List.Induction
import NeuralMesh.Agent.IdleDetector
import NeuralMesh.Base.Along

/-!
# When a provider is available

What the detector keeps of the past is a state and the time at which it began to wait. The time is
only read while it waits, so one that a pause or a lease left behind does no harm. The state holds one
thing at a time: a lease that ends under a pause, or a pause under a lease, is forgotten. The lock of
the screen is not part of it.
-/

namespace NeuralMesh.Agent

open Clocked

variable {thresholdPct : ℚ} {c : Clocked} {call : Call} {calls : List Call}

/-! ### The cool-down -/

/-- The call leaves a detector that waits as it is. -/
def Call.KeepsWaiting (thresholdPct : ℚ) : Call → Prop
  | .poll _ seen => seen.userIdle thresholdPct = true
  | .resume => True
  | _ => False

/-- The calls end with a poll that saw the machine idle, and others that left the detector waiting
from then on. -/
structure WaitedFrom (thresholdPct : ℚ) (c : Clocked) (calls before middle : List Call)
    (elapsed : Time) (first : Observation) : Prop where
  split : calls = before ++ .poll elapsed first :: middle
  began : first.userIdle thresholdPct = true
  kept : ∀ call ∈ middle, call.KeepsWaiting thresholdPct
  waiting : ∀ part, part <+: middle →
    (run thresholdPct (before ++ .poll elapsed first :: part) c).detector.state = .coolingDown

/-- The time of the last call of a run. -/
def polledAt (thresholdPct : ℚ) (c : Clocked) (calls : List Call) : Time :=
  (run thresholdPct calls c).now

theorem WaitedFrom.concat {before middle : List Call} {elapsed : Time} {first : Observation}
    (hwaited : WaitedFrom thresholdPct c calls before middle elapsed first)
    (hkeeps : call.KeepsWaiting thresholdPct)
    (hstate : (run thresholdPct (calls ++ [call]) c).detector.state = .coolingDown) :
    WaitedFrom thresholdPct c (calls ++ [call]) before (middle ++ [call]) elapsed first := by
  have hcalls : calls ++ [call] = before ++ .poll elapsed first :: (middle ++ [call]) := by
    rw [hwaited.split, List.append_assoc, List.cons_append]
  refine ⟨hcalls, hwaited.began, fun other hother => ?_, fun part hpart => ?_⟩
  · rcases List.mem_append.mp hother with hold | hnew
    · exact hwaited.kept other hold
    · rw [List.mem_singleton.mp hnew]
      exact hkeeps
  · rcases List.prefix_concat_iff.mp hpart with rfl | hpart
    · rw [← hcalls]
      exact hstate
    · exact hwaited.waiting part hpart

/-- While the detector waits, it has waited since the time it keeps. -/
theorem waited_of_coolingDown (calls : List Call) (minutes : Nat) (start : Time)
    (hstate : (run thresholdPct calls (fresh minutes start)).detector.state = .coolingDown) :
    ∃ before middle elapsed first,
      WaitedFrom thresholdPct (fresh minutes start) calls before middle elapsed first ∧
        (run thresholdPct calls (fresh minutes start)).detector.coolDownSince =
          some (polledAt thresholdPct (fresh minutes start) (before ++ [.poll elapsed first])) := by
  induction calls using List.reverseRecOn with
  | nil => cases hstate
  | append_singleton calls call ih =>
      have hafter := hstate
      rw [run_concat] at hafter ⊢
      cases call with
      | poll elapsed seen =>
          obtain ⟨hidle, hbegins | ⟨hgoes, hsince⟩⟩ := IdleDetector.poll_coolingDown hafter
          · refine ⟨calls, [], elapsed, seen, ⟨rfl, hidle, nofun, fun part hpart => ?_⟩, ?_⟩
            · rw [List.prefix_nil.mp hpart]
              exact hstate
            · rw [polledAt, run_concat]
              exact hbegins.2
          · obtain ⟨before, middle, elapsed', first, hwaited, hkept⟩ := ih hgoes
            have hkeeps : (Call.poll elapsed seen).KeepsWaiting thresholdPct := hidle
            exact ⟨before, middle ++ [.poll elapsed seen], elapsed', first,
              hwaited.concat hkeeps hstate, hsince.trans hkept⟩
      | resume =>
          rw [step, IdleDetector.resume] at hafter ⊢
          split at hafter
          · cases hafter
          · rename_i hnot
            rw [if_neg hnot]
            obtain ⟨before, middle, elapsed', first, hwaited, hkept⟩ := ih hafter
            have hkeeps : Call.resume.KeepsWaiting thresholdPct := trivial
            exact ⟨before, middle ++ [.resume], elapsed', first, hwaited.concat hkeeps hstate, hkept⟩
      | setLeased => cases hafter
      | releaseLease => cases hafter
      | pause => cases hafter

/-- A poll that answers `Available` ends a time as long as the cool-down in which every poll saw the
machine idle and no other call ended the wait. -/
theorem available_waited {minutes : Nat} {start elapsed : Time} {seen : Observation}
    (havailable : answer thresholdPct (run thresholdPct calls (fresh minutes start))
      (.poll elapsed seen) = some .available) :
    seen.userIdle thresholdPct = true ∧ ∃ before middle elapsed' first,
      WaitedFrom thresholdPct (fresh minutes start) calls before middle elapsed' first ∧
        polledAt thresholdPct (fresh minutes start) (before ++ [.poll elapsed' first]) +
            seconds (minutes * 60) ≤
          polledAt thresholdPct (fresh minutes start) (calls ++ [.poll elapsed seen]) := by
  obtain ⟨hidle, hwaits, since, hsince, hlate⟩ := IdleDetector.poll_answer_available havailable
  obtain ⟨before, middle, elapsed', first, hwaited, hkept⟩ :=
    waited_of_coolingDown calls minutes start hwaits
  refine ⟨hidle, before, middle, elapsed', first, hwaited, ?_⟩
  cases hkept.symm.trans hsince
  have hlast : polledAt thresholdPct (fresh minutes start) (calls ++ [.poll elapsed seen]) =
      (run thresholdPct calls (fresh minutes start)).now + elapsed := by
    rw [polledAt, run_concat]
    rfl
  rw [run_coolDown] at hlate
  rw [hlast]
  exact hlate

/-- Nobody is there and the GPU cannot be read. -/
def idleMac : Observation := ⟨none, false, none, false⟩

/-- Two polls of an idle machine, five minutes apart. -/
theorem available_waited_twoPolls :
    answer 5 (run 5 [.poll 0 idleMac] (fresh 5 0)) (.poll (seconds 300) idleMac) = some .available ∧
      idleMac.userIdle 5 = true ∧ ∃ before middle elapsed' first,
        WaitedFrom 5 (fresh 5 0) [.poll 0 idleMac] before middle elapsed' first ∧
          polledAt 5 (fresh 5 0) (before ++ [.poll elapsed' first]) + seconds (5 * 60) ≤
            polledAt 5 (fresh 5 0) ([.poll 0 idleMac] ++ [.poll (seconds 300) idleMac]) := by
  have havailable : answer 5 (run 5 [.poll 0 idleMac] (fresh 5 0)) (.poll (seconds 300) idleMac) =
      some .available := by decide +kernel
  exact ⟨havailable, available_waited havailable⟩

/-! ### Pauses and leases -/

/-- The provider paused and did not resume yet; a lease was set and not released yet. -/
structure Held where
  paused : Bool
  leased : Bool

namespace Held

def after (held : Held) : Call → Held
  | .pause => { held with paused := true }
  | .resume => { held with paused := false }
  | .setLeased => { held with leased := true }
  | .releaseLease => { held with leased := false }
  | .poll _ _ => held

def Holds (held : Held) : Prop := held.paused = true ∨ held.leased = true

end Held

/-- The detector with what holds it. -/
def follow (thresholdPct : ℚ) (s : Clocked × Held) (call : Call) : Clocked × Held :=
  (s.1.step thresholdPct call, s.2.after call)

variable {s : Clocked × Held}

/-- While something holds the detector it is not available, and no poll says so. -/
structure Respects (thresholdPct : ℚ) (s : Clocked × Held) (calls : List Call) : Prop where
  state : ∀ part, part <+: calls → (part.foldl (follow thresholdPct) s).2.Holds →
    (part.foldl (follow thresholdPct) s).1.detector.state ≠ .available
  answer : ∀ part elapsed seen, part ++ [.poll elapsed seen] <+: calls →
    (part.foldl (follow thresholdPct) s).2.Holds →
    answer thresholdPct (part.foldl (follow thresholdPct) s).1 (.poll elapsed seen) ≠ some .available

def Call.isPoll : Call → Bool
  | .poll _ _ => true
  | _ => false

/-- They are respected however the detector is polled after any of the calls. -/
def RespectsWithPolls (thresholdPct : ℚ) (s : Clocked × Held) (calls : List Call) : Prop :=
  ∀ part polls, part <+: calls → (∀ call ∈ polls, call.isPoll) →
    Respects thresholdPct s (part ++ polls)

/-- No lease ends under a pause, and no pause ends under a lease. -/
def LeavesHeld (s : Clocked × Held) : Call → Prop
  | .releaseLease => s.2.paused = false
  | .resume => s.2.leased = true → s.1.detector.state ≠ .paused
  | _ => True

/-- What holds the detector is its state. -/
def ShowsHeld (s : Clocked × Held) : Prop :=
  s.2.Holds → s.1.detector.state = .leased ∨ s.1.detector.state = .paused

theorem showsHeld_follow (hleaves : LeavesHeld s call) (hshows : ShowsHeld s) :
    ShowsHeld (follow thresholdPct s call) := by
  intro hholds
  cases call with
  | poll elapsed seen =>
      have hbefore := hshows hholds
      rw [follow, step]
      unfold IdleDetector.poll
      rcases hbefore with hstate | hstate <;> simp [hstate]
  | setLeased => exact .inl rfl
  | releaseLease =>
      rcases hholds with hpaused | hleased
      · cases hpaused.symm.trans hleaves
      · cases hleased
  | pause => exact .inr rfl
  | resume =>
      have hleased : s.2.leased = true := by
        rcases hholds with hpaused | hleased
        · cases hpaused
        · exact hleased
      have hnot : s.1.detector.state ≠ .paused := hleaves hleased
      rw [follow, step, IdleDetector.resume, if_neg hnot]
      exact hshows (.inr hleased)

theorem respects_of_leavesHeld (hcalls : Along (follow thresholdPct) LeavesHeld s calls)
    (hshows : ShowsHeld s) : Respects thresholdPct s calls := by
  have hstate : ∀ part, part <+: calls → (part.foldl (follow thresholdPct) s).2.Holds →
      (part.foldl (follow thresholdPct) s).1.detector.state ≠ .available := by
    rintro part ⟨rest, rfl⟩ hholds havailable
    have hthis := (along_append.mp hcalls).1.preserves (fun _ _ => showsHeld_follow) hshows hholds
    rw [havailable] at hthis
    rcases hthis with hleased | hpaused
    · cases hleased
    · cases hpaused
  refine ⟨hstate, fun part elapsed seen hpart hholds hanswer => ?_⟩
  have hlast := hstate (part ++ [.poll elapsed seen]) hpart
  rw [List.foldl_append] at hlast
  exact hlast hholds (answer_state hanswer)

/-- A detector that is busy becomes available when it is polled. -/
theorem available_of_busy (hbusy : c.detector.state = .busy) :
    (run thresholdPct [.poll 0 idleMac, .poll c.detector.coolDown idleMac] c).detector.state =
      .available := by
  have hidle : idleMac.userIdle thresholdPct = true := rfl
  have hwaits : c.detector.poll c.now true =
      ({ c.detector with state := .coolingDown, coolDownSince := some c.now },
        some .coolingDown) := by
    rw [IdleDetector.poll, hbusy]
    rfl
  rw [run, List.foldl_cons, List.foldl_cons, List.foldl_nil, step, step, hidle, Nat.add_zero]
  refine IdleDetector.poll_available_iff.mpr ⟨rfl, .inr ?_⟩
  rw [hwaits]
  exact ⟨rfl, c.now, rfl, Nat.le_refl _⟩

theorem foldl_follow (calls : List Call) :
    (calls.foldl (follow thresholdPct) s).1 = run thresholdPct calls s.1 := by
  induction calls generalizing s with
  | nil => rfl
  | cons call calls ih =>
      rw [List.foldl_cons, ih]
      rfl

/-- A call that forgets what holds the detector leaves it busy. -/
theorem busy_of_not_leavesHeld (hforgets : ¬ LeavesHeld s call) :
    (follow thresholdPct s call).2.Holds ∧
      (follow thresholdPct s call).1.detector.state = .busy := by
  cases call with
  | releaseLease => exact ⟨.inl (Bool.not_eq_false _ ▸ hforgets), rfl⟩
  | resume =>
      obtain ⟨hleased, hpaused⟩ := Classical.not_imp.mp hforgets
      rw [not_not] at hpaused
      refine ⟨.inr hleased, ?_⟩
      rw [follow, step, IdleDetector.resume, if_pos hpaused]
  | _ => exact absurd trivial hforgets

theorem leavesHeld_of_respects (hrespects : RespectsWithPolls thresholdPct s calls) :
    Along (follow thresholdPct) LeavesHeld s calls := by
  induction calls generalizing s with
  | nil => trivial
  | cons call calls ih =>
      constructor
      · by_contra hforgets
        obtain ⟨hholds, hbusy⟩ := @busy_of_not_leavesHeld thresholdPct call s hforgets
        let after := follow thresholdPct s call
        let polls : List Call := [.poll 0 idleMac, .poll after.1.detector.coolDown idleMac]
        have hpolls : ∀ poll ∈ polls, poll.isPoll := by simp [polls, Call.isPoll]
        have hstate := (hrespects [call] polls ⟨calls, rfl⟩ hpolls).state _ List.prefix_rfl hholds
        refine hstate ?_
        show (polls.foldl (follow thresholdPct) after).1.detector.state = .available
        rw [foldl_follow]
        exact available_of_busy hbusy
      · refine ih fun part polls hpart hpolls => ?_
        have hthis := hrespects (call :: part) polls (List.cons_prefix_cons.mpr ⟨rfl, hpart⟩) hpolls
        exact ⟨fun more hmore => hthis.state (call :: more) (List.cons_prefix_cons.mpr ⟨rfl, hmore⟩),
          fun more elapsed seen hmore =>
            hthis.answer (call :: more) elapsed seen (List.cons_prefix_cons.mpr ⟨rfl, hmore⟩)⟩

theorem along_polls (polls : List Call) (hpolls : ∀ call ∈ polls, call.isPoll) :
    Along (follow thresholdPct) LeavesHeld s polls := by
  induction polls generalizing s with
  | nil => trivial
  | cons call polls ih =>
      refine ⟨?_, ih fun other hother => hpolls other (List.mem_cons_of_mem _ hother)⟩
      have hpoll := hpolls call List.mem_cons_self
      cases call with
      | poll elapsed seen => trivial
      | _ => cases hpoll

/-- A detector that nothing holds yet. -/
def unheld (minutes : Nat) (start : Time) : Clocked × Held := (fresh minutes start, ⟨false, false⟩)

/-- Pauses and leases are respected, however the detector is polled, exactly when no lease ends under a
pause and no pause ends under a lease. -/
theorem respectsWithPolls_iff (thresholdPct : ℚ) (minutes : Nat) (start : Time)
    (calls : List Call) : RespectsWithPolls thresholdPct (unheld minutes start) calls ↔
      Along (follow thresholdPct) LeavesHeld (unheld minutes start) calls := by
  refine ⟨leavesHeld_of_respects, ?_⟩
  rintro hcalls part polls ⟨rest, rfl⟩ hpolls
  have hshows : ShowsHeld (unheld minutes start) := by
    rintro (hpaused | hleased)
    · cases hpaused
    · cases hleased
  exact respects_of_leavesHeld
    (along_append.mpr ⟨(along_append.mp hcalls).1, along_polls polls hpolls⟩) hshows

/-- A lease is set and released while the provider has paused. -/
def leaseUnderPause : List Call := [.pause, .setLeased, .releaseLease]

theorem leaseUnderPause_not_respected :
    ¬ RespectsWithPolls 5 (unheld 5 0) leaseUnderPause := by
  intro hrespects
  have hstate := (hrespects leaseUnderPause [.poll 0 idleMac, .poll (seconds 300) idleMac]
    List.prefix_rfl (by decide)).state _ List.prefix_rfl (.inl rfl)
  exact hstate (by decide +kernel)

/-! ### The lock of the screen -/

/-- An unforced poll ends in `Available` only with the screen locked, and ends the offer when it finds
the screen unlocked. -/
def OfferedLocked (thresholdPct : ℚ) (c : Clocked) : Call → Prop
  | .poll elapsed seen => seen.force = false →
      ((c.step thresholdPct (.poll elapsed seen)).detector.state = .available →
        seen.isScreenLocked = true) ∧
      (seen.isScreenLocked = false → c.detector.state = .available →
        (c.step thresholdPct (.poll elapsed seen)).detector.state = .busy)
  | _ => True

/-- No unforced poll finds the GPU idle under an unlocked screen while it is offered or has been idle
for long enough. -/
def LockedWhenDue (thresholdPct : ℚ) (c : Clocked) : Call → Prop
  | .poll elapsed seen => seen.force = false → seen.isScreenLocked = false →
      seen.isGpuIdle thresholdPct = true →
      c.detector.state ≠ .available ∧ ¬ c.detector.CooledDown (c.now + elapsed)
  | _ => True

theorem userIdle_of_unforced {seen : Observation} (hforce : seen.force = false) :
    seen.userIdle thresholdPct = seen.isGpuIdle thresholdPct := by
  rw [Observation.userIdle, hforce, Bool.or_false]

theorem offeredLocked_iff : OfferedLocked thresholdPct c call ↔ LockedWhenDue thresholdPct c call := by
  cases call with
  | poll elapsed seen =>
      refine forall_congr' fun hforce => ?_
      have hends : (c.step thresholdPct (.poll elapsed seen)).detector.state = .available ↔
          seen.isGpuIdle thresholdPct = true ∧ (c.detector.state = .available ∨
            c.detector.CooledDown (c.now + elapsed)) := by
        rw [← userIdle_of_unforced hforce]
        exact IdleDetector.poll_available_iff
      constructor
      · rintro ⟨honly, -⟩ hunlocked hidle
        refine ⟨fun hoffered => ?_, fun hcooled => ?_⟩
        · cases hunlocked.symm.trans (honly (hends.mpr ⟨hidle, .inl hoffered⟩))
        · cases hunlocked.symm.trans (honly (hends.mpr ⟨hidle, .inr hcooled⟩))
      · intro hdue
        refine ⟨fun hafter => ?_, fun hunlocked hoffered => ?_⟩
        · obtain ⟨hidle, hready⟩ := hends.mp hafter
          by_contra hunlocked
          obtain ⟨hnot, hnotCooled⟩ := hdue (Bool.not_eq_true _ ▸ hunlocked) hidle
          rcases hready with hoffered | hcooled
          · exact hnot hoffered
          · exact hnotCooled hcooled
        · have hbusyGpu : seen.userIdle thresholdPct = false := by
            rw [userIdle_of_unforced hforce]
            by_contra hidle
            exact (hdue hunlocked (Bool.not_eq_false _ ▸ hidle)).1 hoffered
          rw [step, IdleDetector.poll, hoffered, hbusyGpu]
          rfl
  | _ => exact Iff.rfl

/-- The GPU is offered only while the screen is locked, exactly in the runs in which the screen is
locked whenever the GPU alone would offer it. -/
theorem offeredLocked_run_iff (thresholdPct : ℚ) (minutes : Nat) (start : Time)
    (calls : List Call) :
    Along (step thresholdPct) (OfferedLocked thresholdPct) (fresh minutes start) calls ↔
      Along (step thresholdPct) (LockedWhenDue thresholdPct) (fresh minutes start) calls :=
  along_congr (fun _ _ => offeredLocked_iff) _ _

/-- The user is there, and the GPU idle. -/
def userPresent : Observation := ⟨some 0, false, some 0, false⟩

theorem userPresent_offered :
    ¬ Along (step 5) (OfferedLocked 5) (fresh 5 0)
      [.poll 0 userPresent, .poll (seconds 300) userPresent] := by
  rintro ⟨-, hsecond, -⟩
  have hlocked : userPresent.isScreenLocked = true := (hsecond rfl).1 (by decide +kernel)
  exact absurd hlocked (by decide)

end NeuralMesh.Agent
