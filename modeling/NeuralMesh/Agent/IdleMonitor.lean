import NeuralMesh.System.Operation

/-!
# The agent's main loop

`agent/src/idle_monitor.rs` over `macos/src/idle.rs`, as far as it decides what the provider tells
the coordinator. What the loop samples from the machine is the argument of each turn; the job it
starts runs in a task of its own, and the detector goes on while it does: nothing calls its
`set_leased`.
-/

namespace NeuralMesh.Agent

open Coordinator

inductive IdleState where
  | busy | coolingDown | available | leased | paused
  deriving DecidableEq, Repr

def stateToStr : IdleState → String
  | .busy => "busy"
  | .coolingDown => "cooling_down"
  | .available => "available"
  | .leased => "leased"
  | .paused => "paused"

structure IdleDetector where
  coolDown : Time
  state : IdleState
  coolDownSince : Option Time

namespace IdleDetector

def new (coolDownMinutes : Nat) : IdleDetector := ⟨seconds (coolDownMinutes * 60), .busy, none⟩

/-- `userIdle` is a GPU below the threshold, or `NM_FORCE_AVAILABLE`. Answers the new state if it
changed. -/
def poll (now : Time) (userIdle : Bool) (d : IdleDetector) : IdleDetector × Option IdleState :=
  match d.state with
  | .leased | .paused => (d, none)
  | .busy =>
      if userIdle then
        ({ d with state := .coolingDown, coolDownSince := some now }, some .coolingDown)
      else ({ d with coolDownSince := none }, none)
  | .available =>
      if userIdle then (d, none)
      else ({ d with state := .busy, coolDownSince := none }, some .busy)
  | .coolingDown =>
      if !userIdle then ({ d with state := .busy, coolDownSince := none }, some .busy)
      else
        match d.coolDownSince with
        | some since =>
            if since + d.coolDown ≤ now then
              ({ d with state := .available, coolDownSince := none }, some .available)
            else (d, none)
        | none => (d, none)

end IdleDetector

/-- `CoordinatorClient::heartbeat` -/
def heartbeat (providerId : ProviderId) (state : String) (gpuUtilPct : ℚ) (ramUsedGb : UInt32)
    (activeJobId : Option JobId) : Grpc.ProviderHeartbeat :=
  ⟨providerId, state, gpuUtilPct, ramUsedGb, activeJobId.getD ""⟩

structure IdleMonitor where
  detector : IdleDetector
  currentState : IdleState
  lastHeartbeat : Time

/-- What one turn of the loop finds. -/
structure Sample where
  polledAt : Time
  userIdle : Bool
  /-- The coordinator answers the poll with a job. -/
  jobAssigned : Bool
  sentAt : Time
  gpuUtilPct : ℚ
  ramUsedGb : UInt32

namespace IdleMonitor

def new (coolDownMinutes : Nat) (now : Time) : IdleMonitor := ⟨.new coolDownMinutes, .busy, now⟩

/-- What the loop sends when the detector's state has changed. -/
def announce (providerId : ProviderId) : Option IdleState → List Operation
  | some .available => [.sendHeartbeat (heartbeat providerId "available" 0 0 none)]
  | some .busy => [.sendHeartbeat (heartbeat providerId "busy" 0 0 none)]
  | _ => []

def pollForJob (providerId : ProviderId) (currentState : IdleState) : List Operation :=
  if currentState = .available then [.getAssignedJob providerId] else []

/-- One turn of the loop, with the requests it sends in order. -/
def turn (providerId : ProviderId) (x : Sample) (m : IdleMonitor) : IdleMonitor × List Operation :=
  let (detector, newState) := m.detector.poll x.polledAt x.userIdle
  let polledState := newState.getD m.currentState
  let currentState := if polledState = .available ∧ x.jobAssigned then .leased else polledState
  let requests := announce providerId newState ++ pollForJob providerId polledState
  if m.lastHeartbeat + seconds 30 ≤ x.sentAt then
    (⟨detector, currentState, x.sentAt⟩, requests ++
      [.sendHeartbeat (heartbeat providerId (stateToStr currentState) x.gpuUtilPct x.ramUsedGb none)])
  else (⟨detector, currentState, m.lastHeartbeat⟩, requests)

/-- The requests of the loop, turn after turn. -/
def run (providerId : ProviderId) : List Sample → IdleMonitor → List Operation
  | [], _ => []
  | x :: xs, m => (m.turn providerId x).2 ++ run providerId xs (m.turn providerId x).1

end IdleMonitor

/-- A heartbeat as the loop sends it: in one of the five states, and never with a job. -/
def FromAgent (hb : Grpc.ProviderHeartbeat) : Prop :=
  (∃ state, hb.state = stateToStr state) ∧ hb.activeJobId = ""

namespace IdleMonitor

variable {providerId : ProviderId} {hb : Grpc.ProviderHeartbeat}

theorem announce_fromAgent {newState : Option IdleState}
    (hsent : .sendHeartbeat hb ∈ announce providerId newState) : FromAgent hb := by
  unfold announce at hsent
  split at hsent
  · cases List.mem_singleton.mp hsent
    exact ⟨⟨.available, rfl⟩, rfl⟩
  · cases List.mem_singleton.mp hsent
    exact ⟨⟨.busy, rfl⟩, rfl⟩
  · cases hsent

theorem turn_fromAgent {x : Sample} {m : IdleMonitor}
    (hsent : .sendHeartbeat hb ∈ (m.turn providerId x).2) : FromAgent hb := by
  have hrequests : ∀ newState polledState, .sendHeartbeat hb ∈
      announce providerId newState ++ pollForJob providerId polledState → FromAgent hb := by
    intro newState polledState hmem
    rcases List.mem_append.mp hmem with hmem | hmem
    · exact announce_fromAgent hmem
    · unfold pollForJob at hmem
      split at hmem
      · cases List.mem_singleton.mp hmem
      · cases hmem
  simp only [turn] at hsent
  split at hsent
  · rcases List.mem_append.mp hsent with hmem | hmem
    · exact hrequests _ _ hmem
    · cases List.mem_singleton.mp hmem
      exact ⟨⟨_, rfl⟩, rfl⟩
  · exact hrequests _ _ hsent

/-- Whatever the machine does, no heartbeat of the agent names a job. -/
theorem run_fromAgent {xs : List Sample} {m : IdleMonitor}
    (hsent : .sendHeartbeat hb ∈ run providerId xs m) : FromAgent hb := by
  induction xs generalizing m with
  | nil => cases hsent
  | cons x xs ih =>
      rcases List.mem_append.mp hsent with hmem | hmem
      · exact turn_fromAgent hmem
      · exact ih hmem

end IdleMonitor

/-! ### A sample loop -/

/-- The requests the loop sends; the job it runs reports by itself. -/
def isOfLoop : Operation → Bool
  | .sendHeartbeat _ | .getAssignedJob _ => true
  | _ => false

/-- The loop of an agent whose machine has been idle for five minutes: it announces that it is
available, asks for a job, finds none, and sends its heartbeat. -/
def idleAgent : List Operation :=
  IdleMonitor.run "p" [⟨0, true, false, 0, 0, 0⟩, ⟨seconds 300, true, false, seconds 300, 0, 0⟩]
    (.new 5 0)

end NeuralMesh.Agent
