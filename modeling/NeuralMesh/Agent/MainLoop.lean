import NeuralMesh.Agent.IdleMonitor

/-!
# The main loop and the jobs it starts

A job that `poll_for_job` brings runs in a task of its own, and the loop goes on. A round is a turn
of the loop with the tasks that report during it. `sinceAccepted` keeps what the loop has sampled
since it last accepted a job; no step reads it.
-/

namespace NeuralMesh.Agent

/-- A turn of the loop, and how many tasks have reported completion or failure by each of its
requests. -/
structure Round where
  sample : Sample
  reportedBeforeAsk : Nat
  reportedBeforeBeat : Nat
  reportedAsleep : Nat

/-- The loop between two turns, and how many tasks have not reported yet. -/
structure AgentLoop where
  monitor : IdleMonitor
  running : Nat

/-- A request of the loop, with the number of tasks that have not reported when it is sent. -/
structure Sent where
  running : Nat
  request : Operation

/-- The provider is offered for another job. -/
def Sent.offers (sent : Sent) : Bool :=
  match sent.request with
  | .sendHeartbeat hb => hb.state = "available"
  | .getAssignedJob _ => true
  | _ => false

namespace IdleMonitor

/-- `current_state` once the detector was polled. -/
def polledState (m : IdleMonitor) (x : Sample) : IdleState :=
  (m.detector.poll x.polledAt x.userIdle).2.getD m.currentState

/-- The loop asks for a job and gets one. -/
def Accepts (m : IdleMonitor) (x : Sample) : Prop := m.polledState x = .available ∧ x.jobAssigned

instance (m : IdleMonitor) (x : Sample) : Decidable (m.Accepts x) :=
  inferInstanceAs (Decidable (_ ∧ _))

/-- `current_state` at the end of the turn. -/
def stateAfter (m : IdleMonitor) (x : Sample) : IdleState :=
  if m.Accepts x then .leased else m.polledState x

/-- The heartbeat of the turn, if it is due. -/
def beat (providerId : ProviderId) (m : IdleMonitor) (x : Sample) : List Operation :=
  if m.lastHeartbeat + seconds 30 ≤ x.sentAt then
    [.sendHeartbeat
      (heartbeat providerId (stateToStr (m.stateAfter x)) x.gpuUtilPct x.ramUsedGb none)]
  else []

/-- A turn sends what it announces, what it asks and its heartbeat. -/
theorem turn_requests (providerId : ProviderId) (m : IdleMonitor) (x : Sample) :
    (m.turn providerId x).2 =
      announce providerId (m.detector.poll x.polledAt x.userIdle).2 ++
        pollForJob providerId (m.polledState x) ++ m.beat providerId x := by
  simp only [turn, beat, stateAfter, Accepts, polledState]
  split
  · rfl
  · rw [List.append_nil]

theorem turn_detector (providerId : ProviderId) (m : IdleMonitor) (x : Sample) :
    (m.turn providerId x).1.detector = (m.detector.poll x.polledAt x.userIdle).1 := by
  simp only [turn]
  split <;> rfl

theorem turn_currentState (providerId : ProviderId) (m : IdleMonitor) (x : Sample) :
    (m.turn providerId x).1.currentState = m.stateAfter x := by
  simp only [turn, stateAfter, Accepts, polledState]
  split <;> rfl

end IdleMonitor

namespace AgentLoop

def new (coolDownMinutes : Nat) (start : Time) : AgentLoop := ⟨.new coolDownMinutes start, 0⟩

section

variable (providerId : ProviderId) (l : AgentLoop) (x : Round)

/-- Tasks that have not reported when the loop asks for a job. -/
def runningAtAsk : Nat := l.running - x.reportedBeforeAsk

/-- The same when it sends its heartbeat: a job it was given has its task by then. -/
def runningAtBeat : Nat :=
  l.runningAtAsk x + (if l.monitor.Accepts x.sample then 1 else 0) - x.reportedBeforeBeat

/-- The requests of a turn, as they are sent. -/
def sent : List Sent :=
  (IdleMonitor.announce providerId
      (l.monitor.detector.poll x.sample.polledAt x.sample.userIdle).2).map (.mk l.running) ++
    (IdleMonitor.pollForJob providerId (l.monitor.polledState x.sample)).map
      (.mk (l.runningAtAsk x)) ++
    (l.monitor.beat providerId x.sample).map (.mk (l.runningAtBeat x))

def turn : AgentLoop where
  monitor := (l.monitor.turn providerId x.sample).1
  running := l.runningAtBeat x - x.reportedAsleep

theorem turn_eq :
    l.turn providerId x =
      ⟨(l.monitor.turn providerId x.sample).1, l.runningAtBeat x - x.reportedAsleep⟩ := by
  rw [turn]

-- The fields are taken of a pair of variables: to unfold the turn is to count its thirty seconds.

theorem mk_monitor (m : IdleMonitor) (n : Nat) : (AgentLoop.mk m n).monitor = m := rfl

theorem mk_running (m : IdleMonitor) (n : Nat) : (AgentLoop.mk m n).running = n := rfl

theorem monitor_turn : (l.turn providerId x).monitor = (l.monitor.turn providerId x.sample).1 := by
  rw [turn_eq, mk_monitor]

theorem detector_turn :
    (l.turn providerId x).monitor.detector =
      (l.monitor.detector.poll x.sample.polledAt x.sample.userIdle).1 := by
  rw [monitor_turn, IdleMonitor.turn_detector]

theorem currentState_turn :
    (l.turn providerId x).monitor.currentState = l.monitor.stateAfter x.sample := by
  rw [monitor_turn, IdleMonitor.turn_currentState]

theorem running_turn : (l.turn providerId x).running = l.runningAtBeat x - x.reportedAsleep := by
  rw [turn_eq, mk_running]

/-- These are the requests of the turn. -/
theorem sent_requests :
    (l.sent providerId x).map Sent.request = (l.monitor.turn providerId x.sample).2 := by
  have hmap : ∀ (n : Nat) (requests : List Operation),
      (requests.map (Sent.mk n)).map Sent.request = requests := by
    intro n requests
    rw [List.map_map]
    exact List.map_id _
  rw [IdleMonitor.turn_requests, sent, List.map_append, List.map_append, hmap, hmap, hmap]

end

/-- The loop after these rounds. -/
def after (providerId : ProviderId) (rounds : List Round) (l : AgentLoop) : AgentLoop :=
  rounds.foldl (fun l x => l.turn providerId x) l

/-- What was sampled since the last job was accepted, if one was. -/
def sinceAccepted (providerId : ProviderId) :
    List Round → AgentLoop → Option (List Sample) → Option (List Sample)
  | [], _, samples => samples
  | x :: rounds, l, samples =>
      sinceAccepted providerId rounds (l.turn providerId x)
        (if l.monitor.Accepts x.sample then some [] else samples.map (· ++ [x.sample]))

variable {providerId : ProviderId}

theorem after_cons (x : Round) (rounds : List Round) (l : AgentLoop) :
    after providerId (x :: rounds) l = after providerId rounds (l.turn providerId x) := by
  rw [after, List.foldl_cons, after]

theorem after_append (first second : List Round) (l : AgentLoop) :
    after providerId (first ++ second) l = after providerId second (after providerId first l) := by
  rw [after, List.foldl_append, after, after]

theorem after_concat (rounds : List Round) (x : Round) (l : AgentLoop) :
    after providerId (rounds ++ [x]) l = (after providerId rounds l).turn providerId x := by
  rw [after_append, after_cons, after, List.foldl_nil]

theorem sinceAccepted_concat (rounds : List Round) (x : Round) (l : AgentLoop)
    (samples : Option (List Sample)) :
    sinceAccepted providerId (rounds ++ [x]) l samples =
      if (after providerId rounds l).monitor.Accepts x.sample then some []
      else (sinceAccepted providerId rounds l samples).map (· ++ [x.sample]) := by
  induction rounds generalizing l samples with
  | nil => rfl
  | cons y rounds ih =>
      rw [List.cons_append, sinceAccepted, ih, sinceAccepted, after_cons]

end AgentLoop

/-- Since when the samples at the end are idle. -/
def idleSince (samples : List Sample) : Option Time :=
  (samples.reverse.takeWhile Sample.userIdle).getLast?.map Sample.polledAt

theorem idleSince_concat_busy {samples : List Sample} {x : Sample} (hbusy : x.userIdle = false) :
    idleSince (samples ++ [x]) = none := by
  rw [idleSince, List.reverse_concat, List.takeWhile_cons_of_neg (by rw [hbusy]; decide)]
  rfl

/-- Idle samples go on from when they began. -/
theorem idleSince_concat_idle {samples : List Sample} {x : Sample} (hidle : x.userIdle) :
    idleSince (samples ++ [x]) = some ((idleSince samples).getD x.polledAt) := by
  rw [idleSince, List.reverse_concat, List.takeWhile_cons_of_pos hidle, List.getLast?_cons,
    Option.map_some, idleSince]
  cases (samples.reverse.takeWhile Sample.userIdle).getLast? with
  | none => rfl
  | some y => rfl

end NeuralMesh.Agent
