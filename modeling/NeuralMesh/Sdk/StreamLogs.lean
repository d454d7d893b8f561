import NeuralMesh.Base.Http

/-!
# Following a job

`get_job_logs`, `get_job`, the generator `stream_logs` and `wait_for_job` of
`sdk/python/neuralmesh/client.py`, with the `Job` and the `JobResult` of `job.py`. An exception is
`none`. The generator runs in steps: a query, the resumption after the chunk was yielded, and the
query of the state.
-/

namespace NeuralMesh.Sdk

/-- The `Job` dataclass; Python does not check the types of its fields. -/
structure Job where
  id : Json
  state : Json
  runtime : Json
  minRamGb : Json
  maxPricePerHour : Json
  createdAt : Json
  startedAt : Json
  completedAt : Json
  providerId : Json
  exitCode : Json
  actualCostNmc : Json

namespace Job

/-- The parameters without a default. -/
def required : List String := ["id", "state", "runtime", "min_ram_gb", "max_price_per_hour"]

def optional : List String :=
  ["created_at", "started_at", "completed_at", "provider_id", "exit_code", "actual_cost_nmc",
    "_client"]

/-- `Job(**kwargs)`: an unexpected or a missing argument raises. -/
def ofKwargs (kwargs : List (String × Json)) : Option Job :=
  let arg name := (kwargs.lookup name).getD .null
  if (kwargs.all fun kw => kw.1 ∈ required ++ optional) ∧
      (required.all fun name => (kwargs.lookup name).isSome) then
    some
      { id := arg "id"
        state := arg "state"
        runtime := arg "runtime"
        minRamGb := arg "min_ram_gb"
        maxPricePerHour := arg "max_price_per_hour"
        createdAt := arg "created_at"
        startedAt := arg "started_at"
        completedAt := arg "completed_at"
        providerId := arg "provider_id"
        exitCode := arg "exit_code"
        actualCostNmc := arg "actual_cost_nmc" }
  else none

end Job

/-- `raise_for_status` and `json`; the bodies that are read are objects. -/
def getJson (resp : Option Reply) : Option (List (String × Json)) :=
  match resp with
  | some ⟨.ok, .obj members⟩ => some members
  | _ => none

def getJob (resp : Option Reply) : Option Job := do
  let members ← getJson resp
  -- `_client` is the client itself, which is no JSON value
  Job.ofKwargs (members ++ [("_client", .null)])

/-- The chunk and whether the job is complete. -/
def getJobLogs (resp : Option Reply) : Option (String × Bool) := do
  let members ← getJson resp
  let output ← ((members.lookup "output").getD (.str "")).asStr
  let isComplete ←
    match (members.lookup "is_complete").getD (.bool false) with
    | .bool isComplete => some isComplete
    | _ => none
  return (output, isComplete)

def isTerminalState (state : Json) : Bool :=
  match state with
  | .str text => text ∈ ["complete", "failed", "cancelled"]
  | _ => false

/-- Where the generator is. -/
inductive Phase where
  /-- before `get_job_logs` -/
  | asking
  /-- after it, with the chunk yielded -/
  | yielded (chunk : String) (done : Bool)
  /-- before `get_job` -/
  | checking
  | ended
  | raised
  deriving DecidableEq

structure Stream where
  offset : Nat
  /-- the chunks that were yielded, one after the other -/
  yields : String
  phase : Phase
  deriving DecidableEq

namespace Stream

def start : Stream := ⟨0, "", .asking⟩

/-- The next step, with the responses to the two queries it may make. -/
def next (logs : Nat → Option Reply) (job : Option Reply) (s : Stream) : Stream :=
  match s.phase with
  | .asking =>
      match getJobLogs (logs s.offset) with
      | none => { s with phase := .raised }
      | some (chunk, done) =>
          { s with yields := s.yields ++ chunk, phase := .yielded chunk done }
  | .yielded chunk done =>
      -- `len` counts code points
      let s := { s with offset := s.offset + chunk.length }
      if done then { s with phase := .ended } else { s with phase := .checking }
  | .checking =>
      match getJob job with
      | none => { s with phase := .asking }
      | some job =>
          if isTerminalState job.state then { s with phase := .ended }
          else { s with phase := .asking }
  | .ended | .raised => s

end Stream

/-! ### The end of a job -/

structure JobResult where
  jobId : String
  state : Json
  exitCode : Json
  actualCostNmc : Json

/-- `exit_code == 0`; in Python `False` is zero too. -/
def isZero : Json → Bool
  | .num x => x = 0
  | .bool b => !b
  | _ => false

def JobResult.succeeded (result : JobResult) : Bool :=
  (match result.state with
    | .str text => text = "complete"
    | _ => false) && isZero result.exitCode

/-- Where `wait_for_job` is. -/
inductive Wait where
  | polling
  | returned (result : JobResult)
  | raised

/-- `wait_for_job`, with the responses to its polls so far, oldest first. -/
def waitForJob (jobId : String) : List (Option Reply) → Wait
  | [] => .polling
  | resp :: later =>
      match getJob resp with
      | none => .raised
      | some job =>
          if isTerminalState job.state then
            .returned ⟨jobId, job.state, job.exitCode, job.actualCostNmc⟩
          else waitForJob jobId later

end NeuralMesh.Sdk
