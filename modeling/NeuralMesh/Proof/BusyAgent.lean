import Mathlib.Data.List.Induction
import NeuralMesh.Agent.MainLoop

/-!
# A busy agent

The detector never learns of a job. After one is accepted it stays available until a sample is busy,
and from there it can come back to available while the job runs.
-/

namespace NeuralMesh.Agent

/-- Where the loop stands between two turns, and what was sampled since it last accepted a job. -/
inductive Phase (d : IdleDetector) (current : IdleState) (since : Option (List Sample)) : Prop
  | leased (hcurrent : current = .leased) (hstate : d.state = .available) {samples : List Sample}
      (hsince : since = some samples) (hidle : ∀ x ∈ samples, x.userIdle)
  | busy (hcurrent : current = .busy) (hstate : d.state = .busy)
      (hsince : ∀ samples ∈ since, idleSince samples = none ∧ ∃ x ∈ samples, x.userIdle = false)
  | coolingDown (hcurrent : current = .coolingDown) (hstate : d.state = .coolingDown) {t : Time}
      (hcool : d.coolDownSince = some t)
      (hsince : ∀ samples ∈ since, idleSince samples = some t ∧ ∃ x ∈ samples, x.userIdle = false)
  | available (hcurrent : current = .available) (hstate : d.state = .available)
      (hsince : ∀ samples ∈ since, ∃ x ∈ samples, x.userIdle = false)

section Phases

variable {d : IdleDetector} {current : IdleState} {since : Option (List Sample)} {x : Sample}

/-- A busy sample is kept among those since the last job. -/
theorem busy_concat {samples : List Sample} (hbusy : ∃ y ∈ samples, y.userIdle = false) :
    ∃ y ∈ samples ++ [x], y.userIdle = false := by
  obtain ⟨y, hy, hnot⟩ := hbusy
  exact ⟨y, List.mem_append_left _ hy, hnot⟩

theorem forall_mem_map_concat {P : List Sample → Prop}
    (hall : ∀ samples ∈ since, P (samples ++ [x])) :
    ∀ samples ∈ since.map (· ++ [x]), P samples := by
  intro samples hmem
  obtain ⟨before, hbefore, rfl⟩ := Option.map_eq_some_iff.mp hmem
  exact hall before hbefore

/-- A poll with a busy sample. -/
theorem Phase.poll_busy (hphase : Phase d current since) (hbusy : x.userIdle = false) :
    (d.poll x.polledAt x.userIdle).2.getD current = .busy ∧
      Phase (d.poll x.polledAt x.userIdle).1 .busy (since.map (· ++ [x])) := by
  have hsince : ∀ samples ∈ since.map (· ++ [x]),
      idleSince samples = none ∧ ∃ y ∈ samples, y.userIdle = false :=
    forall_mem_map_concat fun samples _ => ⟨idleSince_concat_busy hbusy, x,
      List.mem_append_right _ (List.mem_singleton_self x), hbusy⟩
  rw [hbusy]
  cases hphase with
  | leased _ hstate _ _ | available _ hstate _ | coolingDown _ hstate _ _ =>
      simp only [IdleDetector.poll, hstate]
      exact ⟨rfl, .busy rfl rfl hsince⟩
  | busy hcurrent hstate _ =>
      simp only [IdleDetector.poll, hstate]
      exact ⟨hcurrent, .busy rfl rfl hsince⟩

/-- A poll with an idle sample, by where the loop stands. -/
inductive IdlePoll (d : IdleDetector) (current : IdleState) (since : Option (List Sample))
    (x : Sample) : IdleDetector × Option IdleState → Prop
  | leased (hcurrent : current = .leased) (hstate : d.state = .available) {samples : List Sample}
      (hsince : since = some samples) (hidle : ∀ x ∈ samples, x.userIdle) :
      IdlePoll d current since x (d, none)
  | starts (hcurrent : current = .busy) (hstate : d.state = .busy)
      (hsince : ∀ samples ∈ since, idleSince samples = none ∧ ∃ y ∈ samples, y.userIdle = false) :
      IdlePoll d current since x
        ({ d with state := .coolingDown, coolDownSince := some x.polledAt }, some .coolingDown)
  | waits (hcurrent : current = .coolingDown) (hstate : d.state = .coolingDown) {t : Time}
      (hcool : d.coolDownSince = some t)
      (hsince : ∀ samples ∈ since, idleSince samples = some t ∧ ∃ y ∈ samples, y.userIdle = false)
      (hlate : x.polledAt < t + d.coolDown) : IdlePoll d current since x (d, none)
  | finishes (hcurrent : current = .coolingDown) (hstate : d.state = .coolingDown) {t : Time}
      (hcool : d.coolDownSince = some t)
      (hsince : ∀ samples ∈ since, idleSince samples = some t ∧ ∃ y ∈ samples, y.userIdle = false)
      (hover : t + d.coolDown ≤ x.polledAt) :
      IdlePoll d current since x
        ({ d with state := .available, coolDownSince := none }, some .available)
  | stays (hcurrent : current = .available) (hstate : d.state = .available)
      (hsince : ∀ samples ∈ since, ∃ y ∈ samples, y.userIdle = false) :
      IdlePoll d current since x (d, none)

theorem Phase.idlePoll (hphase : Phase d current since) (hidle : x.userIdle) :
    IdlePoll d current since x (d.poll x.polledAt x.userIdle) := by
  rw [hidle]
  cases hphase with
  | leased hcurrent hstate hsince hall =>
      simp only [IdleDetector.poll, hstate, if_true]
      exact .leased hcurrent hstate hsince hall
  | busy hcurrent hstate hsince =>
      simp only [IdleDetector.poll, hstate, if_true]
      exact .starts hcurrent hstate hsince
  | @coolingDown hcurrent hstate t hcool hsince =>
      simp only [IdleDetector.poll, hstate, hcool, Bool.not_true, Bool.false_eq_true, if_false]
      split
      · rename_i hover
        exact .finishes hcurrent hstate hcool hsince hover
      · rename_i hlate
        exact .waits hcurrent hstate hcool hsince (Nat.lt_of_not_le hlate)
  | available hcurrent hstate hsince =>
      simp only [IdleDetector.poll, hstate, if_true]
      exact .stays hcurrent hstate hsince

theorem IdlePoll.phase {polled : IdleDetector × Option IdleState} (hidle : x.userIdle)
    (hpoll : IdlePoll d current since x polled) :
    Phase polled.1 (polled.2.getD current) (since.map (· ++ [x])) := by
  cases hpoll with
  | leased hcurrent hstate hsince hall =>
      refine .leased hcurrent hstate (by rw [hsince]; rfl) ?_
      rw [List.forall_mem_append]
      exact ⟨hall, List.forall_mem_singleton.mpr hidle⟩
  | starts hcurrent hstate hsince =>
      refine .coolingDown rfl rfl rfl (forall_mem_map_concat fun samples hmem => ?_)
      obtain ⟨hnone, hbusy⟩ := hsince samples hmem
      refine ⟨?_, busy_concat hbusy⟩
      rw [idleSince_concat_idle hidle, hnone]
      rfl
  | waits hcurrent hstate hcool hsince _ =>
      refine .coolingDown hcurrent hstate hcool (forall_mem_map_concat fun samples hmem => ?_)
      obtain ⟨hsome, hbusy⟩ := hsince samples hmem
      refine ⟨?_, busy_concat hbusy⟩
      rw [idleSince_concat_idle hidle, hsome]
      rfl
  | finishes _ _ _ hsince _ =>
      exact .available rfl rfl
        (forall_mem_map_concat fun samples hmem => busy_concat (hsince samples hmem).2)
  | stays hcurrent hstate hsince =>
      exact .available hcurrent hstate
        (forall_mem_map_concat fun samples hmem => busy_concat (hsince samples hmem))

theorem Phase.poll (hphase : Phase d current since) (x : Sample) :
    Phase (d.poll x.polledAt x.userIdle).1 ((d.poll x.polledAt x.userIdle).2.getD current)
      (since.map (· ++ [x])) := by
  cases hidle : x.userIdle with
  | false =>
      obtain ⟨hcurrent, hafter⟩ := hphase.poll_busy hidle
      rw [hidle] at hcurrent hafter
      rwa [hcurrent]
  | true =>
      have hafter := (hphase.idlePoll hidle).phase hidle
      rwa [hidle] at hafter

theorem coolDown_poll (d : IdleDetector) (now : Time) (userIdle : Bool) :
    (d.poll now userIdle).1.coolDown = d.coolDown := by
  unfold IdleDetector.poll
  cases d.state with
  | leased | paused => rfl
  | busy | available => cases userIdle <;> rfl
  | coolingDown =>
      cases userIdle with
      | false => rfl
      | true =>
          cases d.coolDownSince with
          | none => rfl
          | some t =>
              simp only [Bool.not_true, Bool.false_eq_true, if_false]
              split <;> rfl

end Phases

/-- Each turn of the rounds, given the rounds before it. -/
def EachTurn (P : List Round → Round → Prop) (rounds : List Round) : Prop :=
  ∀ before x rest, rounds = before ++ x :: rest → P before x

section EachTurn

variable {P : List Round → Round → Prop}

theorem eachTurn_nil : EachTurn P [] := by
  intro before x rest hsplit
  cases List.append_eq_nil_iff.mp hsplit.symm with
  | intro _ hcons => cases hcons

theorem eachTurn_concat {rounds : List Round} {x : Round} :
    EachTurn P (rounds ++ [x]) ↔ EachTurn P rounds ∧ P rounds x := by
  constructor
  · intro hall
    refine ⟨fun before y rest hsplit => hall before y (rest ++ [x]) ?_, hall rounds x [] rfl⟩
    rw [hsplit, List.append_assoc, List.cons_append]
  · rintro ⟨hbefore, hlast⟩ before y rest hsplit
    obtain rfl | ⟨inner, z, rfl⟩ := List.eq_nil_or_concat rest
    · obtain ⟨rfl, hx⟩ := List.append_inj' hsplit rfl
      cases hx
      exact hlast
    · rw [List.concat_eq_append, ← List.cons_append, ← List.append_assoc] at hsplit
      exact hbefore before y inner (List.append_inj' hsplit rfl).1

end EachTurn

namespace AgentLoop

/-- Nothing offers the provider while a task has not reported. -/
def QuietTurn (providerId : ProviderId) (l : AgentLoop) (x : Round) : Prop :=
  ∀ sent ∈ l.sent providerId x, sent.running ≠ 0 → sent.offers = false

/-- An idle stretch after a busy sample has not lasted for the cool-down, if a task is running. -/
def CalmTurn (l : AgentLoop) (since : Option (List Sample)) (x : Sample) : Prop :=
  l.running ≠ 0 → x.userIdle → ∀ samples ∈ since, (∃ y ∈ samples, y.userIdle = false) →
    ∀ t ∈ idleSince samples, x.polledAt < t + l.monitor.detector.coolDown

section Turns

variable {providerId : ProviderId} {l : AgentLoop} {x : Round}

theorem announce_offers {n : Nat} {newState : Option IdleState} :
    (∀ request ∈ IdleMonitor.announce providerId newState, Sent.offers ⟨n, request⟩ = false) ↔
      newState ≠ some .available := by
  cases newState with
  | none => simp [IdleMonitor.announce]
  | some state => cases state <;> simp [IdleMonitor.announce, Sent.offers, heartbeat]

theorem pollForJob_offers {n : Nat} {state : IdleState} :
    (∀ request ∈ IdleMonitor.pollForJob providerId state, Sent.offers ⟨n, request⟩ = false) ↔
      state ≠ .available := by
  cases state <;> simp [IdleMonitor.pollForJob, Sent.offers]

theorem stateToStr_eq_available {state : IdleState} :
    stateToStr state = "available" ↔ state = .available := by
  cases state <;> decide

theorem beat_offers {n : Nat} (hstate : l.monitor.stateAfter x.sample ≠ .available) :
    ∀ request ∈ l.monitor.beat providerId x.sample, Sent.offers ⟨n, request⟩ = false := by
  intro request hmem
  rw [IdleMonitor.beat] at hmem
  split at hmem
  · cases List.mem_singleton.mp hmem
    exact decide_eq_false (mt stateToStr_eq_available.mp hstate)
  · cases hmem

/-- Three kinds of requests. -/
theorem quietTurn_of
    (hannounced : l.running ≠ 0 →
      (l.monitor.detector.poll x.sample.polledAt x.sample.userIdle).2 ≠ some .available)
    (hasked : l.runningAtAsk x ≠ 0 → l.monitor.polledState x.sample ≠ .available)
    (hbeat : l.runningAtBeat x ≠ 0 → l.monitor.stateAfter x.sample ≠ .available) :
    QuietTurn providerId l x := by
  simp only [QuietTurn, sent, List.forall_mem_append, List.forall_mem_map]
  refine ⟨⟨fun request hmem hrunning => ?_, fun request hmem hrunning => ?_⟩,
    fun request hmem hrunning => ?_⟩
  · exact announce_offers.mpr (hannounced hrunning) request hmem
  · exact pollForJob_offers.mpr (hasked hrunning) request hmem
  · exact beat_offers (hbeat hrunning) request hmem

theorem quietTurn_of_running_eq_zero (hrunning : l.running = 0) : QuietTurn providerId l x := by
  have hask : l.runningAtAsk x = 0 := by rw [runningAtAsk, hrunning, Nat.zero_sub]
  refine quietTurn_of (absurd hrunning) (absurd hask) fun hbeat hstate => hbeat ?_
  rw [IdleMonitor.stateAfter] at hstate
  split at hstate
  · cases hstate
  · rename_i hnot
    rw [runningAtBeat, hask, if_neg hnot, Nat.zero_sub]

theorem quietTurn_of_polledState (hstate : l.monitor.polledState x.sample ≠ .available) :
    QuietTurn providerId l x := by
  refine quietTurn_of (fun _ hnew => hstate ?_) (fun _ => hstate) fun _ => ?_
  · rw [IdleMonitor.polledState, hnew]
    rfl
  · rw [IdleMonitor.stateAfter, if_neg fun haccepts => hstate haccepts.1]
    exact hstate

/-- The announcement that the cool-down is over is made whatever is running. -/
theorem not_quietTurn (hrunning : l.running ≠ 0)
    (hnew : (l.monitor.detector.poll x.sample.polledAt x.sample.userIdle).2 = some .available) :
    ¬QuietTurn providerId l x := by
  simp only [QuietTurn, sent, List.forall_mem_append, List.forall_mem_map]
  rintro ⟨⟨hannounced, -⟩, -⟩
  exact announce_offers.mp (fun request hmem => hannounced request hmem hrunning) hnew

end Turns

/-- The provider counts as available although a task has not reported. -/
def Offered (l : AgentLoop) : Prop := l.monitor.currentState = .available ∧ l.running ≠ 0

section Step

variable {providerId : ProviderId} {l : AgentLoop} {x : Round} {since : Option (List Sample)}

theorem running_of_turn (hnot : ¬l.monitor.Accepts x.sample)
    (hrunning : (l.turn providerId x).running ≠ 0) : l.running ≠ 0 := by
  intro hzero
  apply hrunning
  rw [running_turn, runningAtBeat, runningAtAsk, if_neg hnot, hzero]
  simp only [Nat.zero_sub, Nat.add_zero]

theorem phase_turn (hphase : Phase l.monitor.detector l.monitor.currentState since) :
    Phase (l.turn providerId x).monitor.detector (l.turn providerId x).monitor.currentState
      (if l.monitor.Accepts x.sample then some [] else since.map (· ++ [x.sample])) := by
  have hpolled := hphase.poll x.sample
  rw [detector_turn, currentState_turn, IdleMonitor.stateAfter]
  split
  · rename_i haccepts
    change Phase _ (l.monitor.polledState x.sample) _ at hpolled
    rw [haccepts.1] at hpolled
    cases hpolled with
    | leased hcurrent _ _ _ | busy hcurrent _ _ | coolingDown hcurrent _ _ _ => cases hcurrent
    | available _ hstate _ =>
        exact .leased rfl hstate rfl (by simp only [List.not_mem_nil, false_implies, implies_true])
  · exact hpolled

/-- A running task was accepted. -/
theorem isSome_turn (hsome : l.running ≠ 0 → since.isSome)
    (hrunning : (l.turn providerId x).running ≠ 0) :
    (if l.monitor.Accepts x.sample then some [] else since.map (· ++ [x.sample])).isSome := by
  split
  · rfl
  · rename_i hnot
    rw [Option.isSome_map]
    exact hsome (running_of_turn hnot hrunning)

/-- From the lease a running task comes back to available only by the announcement. -/
theorem offered_turn (hoffered : (l.turn providerId x).Offered) :
    l.Offered ∨ ¬QuietTurn providerId l x := by
  obtain ⟨hcurrent, hrunning⟩ := hoffered
  rw [currentState_turn, IdleMonitor.stateAfter] at hcurrent
  split at hcurrent
  · cases hcurrent
  · rename_i hnot
    have hbefore : l.running ≠ 0 := running_of_turn hnot hrunning
    rw [IdleMonitor.polledState] at hcurrent
    cases hnew : (l.monitor.detector.poll x.sample.polledAt x.sample.userIdle).2 with
    | none => exact .inl ⟨by rwa [hnew] at hcurrent, hbefore⟩
    | some state =>
        rw [hnew, Option.getD_some] at hcurrent
        rw [hcurrent] at hnew
        exact .inr (not_quietTurn hbefore hnew)

theorem quietTurn_iff_calmTurn
    (hphase : Phase l.monitor.detector l.monitor.currentState since)
    (hsome : l.running ≠ 0 → since.isSome) (hnot : ¬l.Offered) :
    QuietTurn providerId l x ↔ CalmTurn l since x.sample := by
  by_cases hrunning : l.running = 0
  · exact iff_of_true (quietTurn_of_running_eq_zero hrunning) (absurd hrunning)
  · cases hidle : x.sample.userIdle with
    | false =>
        refine iff_of_true (quietTurn_of_polledState ?_) fun _ hcontra => ?_
        · rw [IdleMonitor.polledState, (hphase.poll_busy hidle).1]
          decide
        · rw [hidle] at hcontra
          cases hcontra
    | true =>
        have hpoll := hphase.idlePoll hidle
        generalize hpolled : l.monitor.detector.poll x.sample.polledAt x.sample.userIdle = polled
          at hpoll
        have hstate : l.monitor.polledState x.sample = polled.2.getD l.monitor.currentState := by
          rw [IdleMonitor.polledState, hpolled]
        cases hpoll with
        | leased hcurrent _ hsince hall =>
            refine iff_of_true (quietTurn_of_polledState ?_) ?_
            · rw [hstate, Option.getD_none, hcurrent]
              decide
            · rintro _ _ samples hmem ⟨y, hy, hbusy⟩
              rw [hsince] at hmem
              cases hmem
              rw [hall y hy] at hbusy
              cases hbusy
        | starts _ _ hsince =>
            refine iff_of_true (quietTurn_of_polledState ?_) ?_
            · rw [hstate, Option.getD_some]
              decide
            · intro _ _ samples hmem _ t ht
              rw [(hsince samples hmem).1] at ht
              cases ht
        | waits hcurrent _ _ hsince hlate =>
            refine iff_of_true (quietTurn_of_polledState ?_) ?_
            · rw [hstate, Option.getD_none, hcurrent]
              decide
            · intro _ _ samples hmem _ t ht
              rw [(hsince samples hmem).1] at ht
              cases ht
              exact hlate
        | @finishes _ _ t _ hsince hover =>
            refine iff_of_false (not_quietTurn hrunning (by rw [hpolled])) fun hcalm => ?_
            obtain ⟨samples, hsamples⟩ := Option.isSome_iff_exists.mp (hsome hrunning)
            obtain ⟨hstretch, hbusy⟩ := hsince samples hsamples
            exact absurd (hcalm hrunning hidle samples hsamples hbusy t hstretch)
              (Nat.not_lt.mpr hover)
        | stays hcurrent _ _ => exact absurd ⟨hcurrent, hrunning⟩ hnot

end Step

section Run

variable (providerId : ProviderId) (l : AgentLoop) (rounds : List Round)

/-- Between the moment a job is accepted and its task's report, no request offers the provider. -/
def Quiet : Prop :=
  EachTurn (fun before x => QuietTurn providerId (after providerId before l) x) rounds

/-- While a task is running, no idle stretch after a busy sample lasts for the cool-down. -/
def Calm : Prop :=
  EachTurn (fun before x => CalmTurn (after providerId before l)
    (sinceAccepted providerId before l none) x.sample) rounds

/-- What holds between two turns, after these rounds. -/
structure Followed : Prop where
  phase : Phase (after providerId rounds l).monitor.detector
    (after providerId rounds l).monitor.currentState (sinceAccepted providerId rounds l none)
  accepted : (after providerId rounds l).running ≠ 0 →
    (sinceAccepted providerId rounds l none).isSome
  quiet_iff_calm : Quiet providerId l rounds ↔ Calm providerId l rounds
  not_quiet : (after providerId rounds l).Offered → ¬Quiet providerId l rounds

end Run

variable {providerId : ProviderId} {l : AgentLoop} {rounds : List Round}

theorem Followed.concat (h : Followed providerId l rounds) (x : Round) :
    Followed providerId l (rounds ++ [x]) where
  phase := by
    rw [after_concat, sinceAccepted_concat]
    exact phase_turn h.phase
  accepted hrunning := by
    rw [after_concat] at hrunning
    rw [sinceAccepted_concat]
    exact isSome_turn h.accepted hrunning
  quiet_iff_calm := by
    rw [Quiet, Calm, eachTurn_concat, eachTurn_concat]
    by_cases hoffered : (after providerId rounds l).Offered
    · have hnot : ¬Quiet providerId l rounds := h.not_quiet hoffered
      exact iff_of_false (fun hboth => hnot hboth.1)
        fun hboth => hnot (h.quiet_iff_calm.mpr hboth.1)
    · exact and_congr h.quiet_iff_calm (quietTurn_iff_calmTurn h.phase h.accepted hoffered)
  not_quiet hoffered := by
    rw [after_concat] at hoffered
    rw [Quiet, eachTurn_concat]
    rintro ⟨hquiet, hturn⟩
    cases offered_turn hoffered with
    | inl hbefore => exact h.not_quiet hbefore hquiet
    | inr hnot => exact hnot hturn

variable (providerId) in
theorem followed_new (coolDownMinutes : Nat) (start : Time) (rounds : List Round) :
    Followed providerId (new coolDownMinutes start) rounds := by
  induction rounds using List.reverseRecOn with
  | nil => exact ⟨.busy rfl rfl (by rintro _ ⟨⟩), absurd rfl, iff_of_true eachTurn_nil eachTurn_nil,
      fun hoffered => absurd rfl hoffered.2⟩
  | append_singleton rounds x ih => exact ih.concat x

/-- While a task runs the loop keeps quiet exactly until an idle stretch that follows a busy sample
has lasted for the cool-down. -/
theorem quiet_iff_calm (providerId : ProviderId) (coolDownMinutes : Nat) (start : Time)
    (rounds : List Round) :
    Quiet providerId (new coolDownMinutes start) rounds ↔
      Calm providerId (new coolDownMinutes start) rounds :=
  (followed_new providerId coolDownMinutes start rounds).quiet_iff_calm

/-- An idle machine is given a job, and is then used for half a minute. The task goes on. -/
def usedMachine : List Round :=
  [⟨⟨0, true, false, 0, 0, 0⟩, 0, 0, 0⟩,
    ⟨⟨seconds 300, true, true, seconds 300, 0, 0⟩, 0, 0, 0⟩,
    ⟨⟨seconds 330, false, false, seconds 330, 0, 0⟩, 0, 0, 0⟩,
    ⟨⟨seconds 360, true, false, seconds 360, 0, 0⟩, 0, 0, 0⟩]

/-- Five minutes later the busy agent offers itself. -/
theorem busy_agent_offered :
    ¬Quiet "p" (new 5 0) (usedMachine ++ [⟨⟨seconds 660, true, false, seconds 660, 0, 0⟩, 0, 0, 0⟩]) := by
  intro hquiet
  refine not_quietTurn ?_ ?_ (eachTurn_concat.mp hquiet).2
  · decide +kernel
  · decide +kernel

end AgentLoop

end NeuralMesh.Agent
