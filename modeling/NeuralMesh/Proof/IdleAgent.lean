import Mathlib.Algebra.Order.BigOperators.Group.List
import NeuralMesh.Proof.BusyAgent

/-!
# An agent that is done

The loop leaves the lease only when the detector reports a change. While every sample since the job
was accepted is idle the detector is still available, and reports none.
-/

namespace NeuralMesh.Agent

/-- An idle sample in the cool-down. -/
theorem poll_coolingDown {d : IdleDetector} {t : Time} (now : Time) (hstate : d.state = .coolingDown)
    (hcool : d.coolDownSince = some t) :
    d.poll now true =
      if t + d.coolDown ≤ now then
        ({ d with state := .available, coolDownSince := none }, some .available)
      else (d, none) := by
  simp only [IdleDetector.poll, hstate, hcool, Bool.not_true, Bool.false_eq_true, if_false]

theorem poll_available {d : IdleDetector} {now : Time} (hstate : d.state = .available) :
    d.poll now true = (d, none) := by
  simp only [IdleDetector.poll, hstate, if_true]

/-- The cool-down began at a poll. -/
theorem coolDownSince_poll {d : IdleDetector} {now t : Time} {userIdle : Bool}
    (hcool : (d.poll now userIdle).1.coolDownSince = some t) :
    d.coolDownSince = some t ∨ now = t := by
  unfold IdleDetector.poll at hcool
  cases hstate : d.state with
  | leased | paused =>
      rw [hstate] at hcool
      exact .inl hcool
  | busy =>
      rw [hstate] at hcool
      cases userIdle with
      | true =>
          cases hcool
          exact .inr rfl
      | false => cases hcool
  | available =>
      rw [hstate] at hcool
      cases userIdle with
      | true => exact .inl hcool
      | false => cases hcool
  | coolingDown =>
      rw [hstate] at hcool
      cases userIdle with
      | false => cases hcool
      | true =>
          cases hsince : d.coolDownSince with
          | none =>
              simp only [hsince, Bool.not_true, Bool.false_eq_true, if_false] at hcool
              cases hcool
          | some since =>
              simp only [hsince, Bool.not_true, Bool.false_eq_true, if_false] at hcool
              split at hcool
              · cases hcool
              · rw [hsince] at hcool
                exact .inl hcool

/-- The loop polls in the order of time. -/
def Chronological (rounds : List Round) : Prop :=
  rounds.Pairwise fun x y => x.sample.polledAt ≤ y.sample.polledAt

/-- Every sample is idle, and the last is at least the cool-down after the first. -/
structure IdlePeriod (coolDown : Time) (rounds : List Round) : Prop where
  idle : ∀ x ∈ rounds, x.sample.userIdle
  lasts : ∃ first inner last, rounds = first :: (inner ++ [last]) ∧
    first.sample.polledAt + coolDown ≤ last.sample.polledAt

/-- The machine was used since the last job was accepted, if one was. -/
def UsedSince (since : Option (List Sample)) : Prop :=
  ∀ samples ∈ since, ∃ x ∈ samples, x.userIdle = false

namespace AgentLoop

/-- `current_state` becomes available in one of the rounds. -/
def Reaches (providerId : ProviderId) (l : AgentLoop) (rounds : List Round) : Prop :=
  ∃ before x rest, rounds = before ++ x :: rest ∧
    (after providerId before l).monitor.polledState x.sample = .available

section Idle

variable {providerId : ProviderId} {l : AgentLoop} {x : Round} {rounds : List Round}

theorem reaches_now (hstate : l.monitor.polledState x.sample = .available) :
    Reaches providerId l (x :: rounds) := ⟨[], x, rounds, rfl, hstate⟩

theorem reaches_later (hreaches : Reaches providerId (l.turn providerId x) rounds) :
    Reaches providerId l (x :: rounds) := by
  obtain ⟨before, y, rest, rfl, hstate⟩ := hreaches
  refine ⟨x :: before, y, rest, rfl, ?_⟩
  rwa [after_cons]

theorem currentState_turn_of_ne (hne : l.monitor.polledState x.sample ≠ .available) :
    (l.turn providerId x).monitor.currentState = l.monitor.polledState x.sample := by
  rw [currentState_turn, IdleMonitor.stateAfter, if_neg fun haccepts => hne haccepts.1]

theorem coolDown_after (rounds : List Round) (l : AgentLoop) :
    (after providerId rounds l).monitor.detector.coolDown = l.monitor.detector.coolDown := by
  induction rounds generalizing l with
  | nil => rfl
  | cons x rounds ih => rw [after_cons, ih, detector_turn, coolDown_poll]

theorem coolDownSince_after {t : Time} (hnone : l.monitor.detector.coolDownSince = none)
    (hcool : (after providerId rounds l).monitor.detector.coolDownSince = some t) :
    ∃ x ∈ rounds, x.sample.polledAt = t := by
  induction rounds using List.reverseRecOn with
  | nil =>
      rw [after, List.foldl_nil, hnone] at hcool
      cases hcool
  | append_singleton rounds x ih =>
      rw [after_concat, detector_turn] at hcool
      cases coolDownSince_poll hcool with
      | inl hbefore =>
          obtain ⟨y, hy, htime⟩ := ih hbefore
          exact ⟨y, List.mem_append_left _ hy, htime⟩
      | inr htime => exact ⟨x, List.mem_append_right _ (List.mem_singleton_self x), htime⟩

/-- A cool-down that is not interrupted comes to its end. -/
theorem reaches_of_coolingDown {t : Time} {inner : List Round} {last : Round}
    (hcurrent : l.monitor.currentState = .coolingDown)
    (hstate : l.monitor.detector.state = .coolingDown)
    (hcool : l.monitor.detector.coolDownSince = some t)
    (hidle : ∀ y ∈ inner ++ [last], y.sample.userIdle)
    (hlasts : t + l.monitor.detector.coolDown ≤ last.sample.polledAt) :
    Reaches providerId l (inner ++ [last]) := by
  induction inner generalizing l with
  | nil =>
      apply reaches_now
      rw [IdleMonitor.polledState, hidle last (List.mem_singleton_self last),
        poll_coolingDown _ hstate hcool, if_pos hlasts]
      rfl
  | cons x inner ih =>
      have hx : x.sample.userIdle := hidle x List.mem_cons_self
      have hpoll := poll_coolingDown x.sample.polledAt hstate hcool
      split at hpoll
      · apply reaches_now
        rw [IdleMonitor.polledState, hx, hpoll]
        rfl
      · have hpolled : l.monitor.polledState x.sample = .coolingDown := by
          rw [IdleMonitor.polledState, hx, hpoll]
          exact hcurrent
        have hdetector : (l.turn providerId x).monitor.detector = l.monitor.detector := by
          rw [detector_turn, hx, hpoll]
        have hne : l.monitor.polledState x.sample ≠ .available := by
          rw [hpolled]
          decide
        refine reaches_later (ih ?_ ?_ ?_ (fun y hy => hidle y (List.mem_cons_of_mem x hy)) ?_)
        · rw [currentState_turn_of_ne hne, hpolled]
        · rw [hdetector, hstate]
        · rw [hdetector, hcool]
        · rwa [hdetector]

variable (providerId) in
/-- A detector that was never told of the lease has nothing to report while the machine is idle. -/
theorem leased_of_idle (hcurrent : l.monitor.currentState = .leased)
    (hstate : l.monitor.detector.state = .available) (hidle : ∀ y ∈ rounds, y.sample.userIdle) :
    (after providerId rounds l).monitor.currentState = .leased ∧
      (after providerId rounds l).monitor.detector.state = .available := by
  induction rounds generalizing l with
  | nil => exact ⟨hcurrent, hstate⟩
  | cons x rounds ih =>
      have hpoll : l.monitor.detector.poll x.sample.polledAt x.sample.userIdle =
          (l.monitor.detector, none) := by
        rw [hidle x List.mem_cons_self, poll_available hstate]
      have hpolled : l.monitor.polledState x.sample = .leased := by
        rw [IdleMonitor.polledState, hpoll]
        exact hcurrent
      have hne : l.monitor.polledState x.sample ≠ .available := by
        rw [hpolled]
        decide
      rw [after_cons]
      refine ih ?_ ?_ fun y hy => hidle y (List.mem_cons_of_mem x hy)
      · rw [currentState_turn_of_ne hne, hpolled]
      · rw [detector_turn, hpoll, hstate]

theorem not_reaches_of_leased (hcurrent : l.monitor.currentState = .leased)
    (hstate : l.monitor.detector.state = .available) (hidle : ∀ y ∈ rounds, y.sample.userIdle) :
    ¬Reaches providerId l rounds := by
  rintro ⟨before, x, rest, rfl, hreached⟩
  rw [List.forall_mem_append, List.forall_mem_cons] at hidle
  obtain ⟨hbefore, hx, -⟩ := hidle
  obtain ⟨hleased, havailable⟩ := leased_of_idle providerId hcurrent hstate hbefore
  rw [IdleMonitor.polledState, hx, poll_available havailable, Option.getD_none, hleased] at hreached
  cases hreached

end Idle

section Again

variable {providerId : ProviderId} {coolDownMinutes : Nat} {start : Time} {rounds : List Round}

variable (providerId coolDownMinutes start) in
theorem coolDown_new (rounds : List Round) :
    (after providerId rounds (new coolDownMinutes start)).monitor.detector.coolDown =
      seconds (coolDownMinutes * 60) := by
  rw [coolDown_after]
  rfl

/-- The lease is kept exactly when the machine was not used during it. -/
theorem leased_or_used {l : AgentLoop} {since : Option (List Sample)}
    (hphase : Phase l.monitor.detector l.monitor.currentState since) :
    (l.monitor.currentState = .leased ∧ l.monitor.detector.state = .available ∧
        ¬UsedSince since) ∨
      (l.monitor.currentState ≠ .leased ∧ UsedSince since) := by
  cases hphase with
  | leased hcurrent hstate hsince hall =>
      refine .inl ⟨hcurrent, hstate, fun hused => ?_⟩
      obtain ⟨y, hy, hbusy⟩ := hused _ hsince
      rw [hall y hy] at hbusy
      cases hbusy
  | busy hcurrent _ hsince =>
      exact .inr ⟨by rw [hcurrent]; decide, fun samples hmem => (hsince samples hmem).2⟩
  | coolingDown hcurrent _ _ hsince =>
      exact .inr ⟨by rw [hcurrent]; decide, fun samples hmem => (hsince samples hmem).2⟩
  | available hcurrent _ hsince => exact .inr ⟨by rw [hcurrent]; decide, hsince⟩

theorem reaches_of_used {later : List Round} (hchron : Chronological (rounds ++ later))
    (hperiod : IdlePeriod (seconds (coolDownMinutes * 60)) later)
    (hused : UsedSince (sinceAccepted providerId rounds (new coolDownMinutes start) none)) :
    Reaches providerId (after providerId rounds (new coolDownMinutes start)) later := by
  have hphase := (followed_new providerId coolDownMinutes start rounds).phase
  have hcoolDown := coolDown_new providerId coolDownMinutes start rounds
  have hsince : ∀ t, (after providerId rounds
      (new coolDownMinutes start)).monitor.detector.coolDownSince = some t →
      ∃ x ∈ rounds, x.sample.polledAt = t := fun _ => coolDownSince_after rfl
  generalize after providerId rounds (new coolDownMinutes start) = l at *
  obtain ⟨hidle, first, inner, last, rfl, hlasts⟩ := hperiod
  have hfirst : first.sample.userIdle := hidle first List.mem_cons_self
  have hrest : ∀ y ∈ inner ++ [last], y.sample.userIdle :=
    fun y hy => hidle y (List.mem_cons_of_mem first hy)
  cases hphase with
  | leased _ _ hsome hall =>
      obtain ⟨y, hy, hbusy⟩ := hused _ hsome
      rw [hall y hy] at hbusy
      cases hbusy
  | available hcurrent hstate _ =>
      apply reaches_now
      rw [IdleMonitor.polledState, hfirst, poll_available hstate]
      exact hcurrent
  | busy _ hstate _ =>
      have hpoll : l.monitor.detector.poll first.sample.polledAt first.sample.userIdle =
          ({ l.monitor.detector with
              state := .coolingDown, coolDownSince := some first.sample.polledAt },
            some .coolingDown) := by
        simp only [IdleDetector.poll, hstate, hfirst, if_true]
      have hpolled : l.monitor.polledState first.sample = .coolingDown := by
        rw [IdleMonitor.polledState, hpoll]
        rfl
      apply reaches_later
      refine reaches_of_coolingDown (t := first.sample.polledAt) ?_ ?_ ?_ hrest ?_
      · rw [currentState_turn_of_ne (by rw [hpolled]; decide), hpolled]
      · rw [detector_turn, hpoll]
      · rw [detector_turn, hpoll]
      · rwa [detector_turn, coolDown_poll, hcoolDown]
  | @coolingDown hcurrent hstate t hcool _ =>
      obtain ⟨x, hx, htime⟩ := hsince t hcool
      have hbegan : t ≤ first.sample.polledAt := by
        rw [← htime]
        exact (List.pairwise_append.mp hchron).2.2 x hx first List.mem_cons_self
      rw [← List.cons_append]
      refine reaches_of_coolingDown hcurrent hstate hcool hidle ?_
      rw [hcoolDown]
      exact (Nat.add_le_add_right hbegan _).trans hlasts

/-- A round in which the loop samples an idle machine and finds no job. -/
def idleAt (t : Time) : Round := ⟨⟨t, true, false, t, 0, 0⟩, 0, 0, 0⟩

/-- The machine can always be left idle for the cool-down. -/
theorem exists_idlePeriod (hchron : Chronological rounds) (coolDown : Time) :
    ∃ later, Chronological (rounds ++ later) ∧ IdlePeriod coolDown later := by
  have hbound : ∃ t, ∀ x ∈ rounds, x.sample.polledAt ≤ t :=
    ⟨_, fun x hx => List.le_sum_of_mem (List.mem_map_of_mem (f := fun x => x.sample.polledAt) hx)⟩
  obtain ⟨t, hbound⟩ := hbound
  refine ⟨[idleAt t, idleAt (t + coolDown)], ?_, ?_, idleAt t, [], _, rfl, le_rfl⟩
  · refine List.pairwise_append.mpr ⟨hchron, ?_, ?_⟩
    · exact List.pairwise_pair.mpr (Nat.le_add_right t coolDown)
    · intro x hx y hy
      have ht : t ≤ y.sample.polledAt := by
        obtain rfl | rfl := List.mem_pair.mp hy
        · exact le_rfl
        · exact Nat.le_add_right t coolDown
      exact (hbound x hx).trans ht
  · intro y hy
    obtain rfl | rfl := List.mem_pair.mp hy <;> rfl

/-- The loop comes back to available, whenever the machine is left idle for the cool-down, exactly
when the machine was used since the last job was accepted. Otherwise it stays leased. -/
theorem available_again_iff (providerId : ProviderId) (coolDownMinutes : Nat) (start : Time)
    (rounds : List Round) (hchron : Chronological rounds) :
    ((∀ later, Chronological (rounds ++ later) →
        IdlePeriod (seconds (coolDownMinutes * 60)) later →
        Reaches providerId (after providerId rounds (new coolDownMinutes start)) later) ↔
      UsedSince (sinceAccepted providerId rounds (new coolDownMinutes start) none)) ∧
    ((∀ later, Chronological (rounds ++ later) → (∀ x ∈ later, x.sample.userIdle) →
        (after providerId (rounds ++ later) (new coolDownMinutes start)).monitor.currentState =
          .leased) ↔
      ¬UsedSince (sinceAccepted providerId rounds (new coolDownMinutes start) none)) := by
  have hphase := (followed_new providerId coolDownMinutes start rounds).phase
  refine ⟨⟨fun hreaches => ?_, fun hused later hlater hperiod => ?_⟩,
    ⟨fun hleased => ?_, fun hunused later _ hidle => ?_⟩⟩
  · cases leased_or_used hphase with
    | inl hstuck =>
        obtain ⟨hcurrent, hstate, -⟩ := hstuck
        obtain ⟨later, hlater, hperiod⟩ := exists_idlePeriod hchron (seconds (coolDownMinutes * 60))
        exact absurd (hreaches later hlater hperiod)
          (not_reaches_of_leased hcurrent hstate hperiod.idle)
    | inr hused => exact hused.2
  · exact reaches_of_used hlater hperiod hused
  · have hcurrent := hleased [] (by rwa [List.append_nil]) (by simp only [List.not_mem_nil,
      false_implies, implies_true])
    rw [List.append_nil] at hcurrent
    cases leased_or_used hphase with
    | inl hstuck => exact hstuck.2.2
    | inr hused => exact absurd hcurrent hused.1
  · rw [after_append]
    cases leased_or_used hphase with
    | inl hstuck => exact (leased_of_idle providerId hstuck.1 hstuck.2.1 hidle).1
    | inr hused => exact absurd hused.2 hunused

end Again

/-- After a lease in which the machine was used, the agent becomes available again. -/
theorem available_again_usedMachine : Chronological usedMachine ∧
    ∀ later, Chronological (usedMachine ++ later) → IdlePeriod (seconds (5 * 60)) later →
      Reaches "p" (after "p" usedMachine (new 5 0)) later := by
  have hchron : Chronological usedMachine := by
    simp only [Chronological]
    decide
  refine ⟨hchron, (available_again_iff "p" 5 0 usedMachine hchron).1.mpr ?_⟩
  unfold UsedSince
  decide +kernel

/-- An idle machine is given a job, which reports while the loop sleeps. -/
def unusedLease : List Round :=
  [idleAt 0, ⟨⟨seconds 300, true, true, seconds 300, 0, 0⟩, 0, 0, 1⟩]

/-- No task is running, and the agent stays leased for as long as the machine is idle. -/
theorem idle_agent_leased :
    (after "p" unusedLease (new 5 0)).running = 0 ∧
      (∀ later, (∀ x ∈ later, x.sample.userIdle) →
        (after "p" later (after "p" unusedLease (new 5 0))).monitor.currentState = .leased) ∧
      Chronological (unusedLease ++ [idleAt (seconds 330), idleAt (seconds 660)]) ∧
      IdlePeriod (seconds (5 * 60)) [idleAt (seconds 330), idleAt (seconds 660)] ∧
      ¬Reaches "p" (after "p" unusedLease (new 5 0))
        [idleAt (seconds 330), idleAt (seconds 660)] := by
  have hcurrent : (after "p" unusedLease (new 5 0)).monitor.currentState = .leased := by
    decide +kernel
  have hstate : (after "p" unusedLease (new 5 0)).monitor.detector.state = .available := by
    decide +kernel
  have hidle : ∀ x ∈ [idleAt (seconds 330), idleAt (seconds 660)], x.sample.userIdle := by
    decide
  refine ⟨by decide +kernel, fun later hlater => (leased_of_idle "p" hcurrent hstate hlater).1,
    by simp only [Chronological]; decide, ⟨hidle, _, [], _, rfl, by decide⟩,
    not_reaches_of_leased hcurrent hstate hidle⟩

end AgentLoop

end NeuralMesh.Agent
