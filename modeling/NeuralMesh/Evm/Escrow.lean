import NeuralMesh.Evm.Message

/-!
# The escrow contract

`contracts/evm/src/Escrow.sol`. A revert undoes the whole call, so a function is a computation in
`Except` that answers with the NMC the contract sent. `nonReentrant` is left out: the token calls
nobody back. Amounts are naturals, and a checked operation reverts when its result does not fit.
-/

namespace NeuralMesh.Evm

inductive EscrowState where
  | «open» | locked | settled | cancelled
  deriving DecidableEq, Repr

structure Job where
  consumer : Address
  provider : Address
  lockedNmc : Nat
  pricePerHourNmc : Nat
  maxDurationSecs : UInt32
  deadline : UInt64
  state : EscrowState
  actualCost : Nat
  feeCollected : Nat
  createdAt : UInt64
  settledAt : UInt64

/-- What an unwritten key of the mapping reads as. -/
def Job.zero : Job := ⟨0, 0, 0, 0, 0, 0, .open, 0, 0, 0, 0⟩

inductive Role where
  | admin | oracle
  deriving DecidableEq, Repr

inductive Revert where
  | jobNotFound
  | wrongState (current : EscrowState)
  | providerNotVerified
  | costExceedsLocked
  | deadlineNotPassed
  | callerNotConsumer
  | feeTooHigh
  | alreadyExists
  /-- `require` with its reason -/
  | reason (text : String)
  /-- `onlyRole` -/
  | missingRole (role : Role)
  | token (e : TokenError)
  /-- Checked arithmetic -/
  | panic
  deriving DecidableEq, Repr

/-- The storage of the contract, and what it reads of the others. -/
structure Contracts where
  nmc : Erc20
  /-- `providerNft.isProvider` -/
  isProvider : Address → Bool
  hasRole : Role → Address → Bool
  feeCollector : Address
  platformFeeBps : UInt16
  jobs : Key → Job

/-- Where the contract lives, and the hash of a job id's bytes. -/
structure Site where
  /-- `address(this)` -/
  self : Address
  keccak256 : String → Key

abbrev Result := Except Revert (List Payout × Contracts)

def maxFeeBps : UInt16 := 1000

def checkedMul (a b : Nat) : Except Revert Nat := do
  ensure (a * b ≤ uint256Max) .panic
  return a * b

def checkedSub (a b : Nat) : Except Revert Nat := do
  ensure (b ≤ a) .panic
  return a - b

def checkedAdd64 (a : UInt64) (b : UInt32) : Except Revert UInt64 := do
  ensure (a.toNat + b.toNat < 2 ^ 64) .panic
  return a + b.toUInt64

namespace Contracts

def setJob (s : Contracts) (key : Key) (job : Job) : Contracts :=
  { s with jobs := Function.update s.jobs key job }

/-- `nmc.transfer`, for each payout in turn. -/
def sendAll (self : Address) : List Payout → Contracts → Except Revert Contracts
  | [], s => .ok s
  | p :: ps, s => do
      let nmc ← (s.nmc.move self p.dest p.amount).mapError .token
      sendAll self ps { s with nmc }

end Contracts

/-- The constructor. -/
def deploy (nmc : Erc20) (isProvider : Address → Bool) (feeCollector : Address)
    (platformFeeBps : UInt16) (admin oracle : Address) : Except Revert Contracts := do
  ensure (platformFeeBps ≤ maxFeeBps) (.reason "Escrow: fee too high")
  return {
    nmc
    isProvider
    hasRole := fun
      | .admin, a => a = admin
      | .oracle, a => a = oracle
    feeCollector
    platformFeeBps
    jobs := fun _ => .zero }

section Functions

variable (site : Site) (msg : Message)

def createEscrow (jobId : String) (provider : Address) (amount pricePerHourNmc : Nat)
    (maxDurationSecs : UInt32) (s : Contracts) : Result := do
  let key := site.keccak256 jobId
  ensure ((s.jobs key).createdAt = 0) .alreadyExists
  ensure (s.isProvider provider) .providerNotVerified
  let nmc ← (s.nmc.transferFrom site.self msg.sender site.self amount).mapError .token
  return ([], { s with nmc }.setJob key {
    consumer := msg.sender
    provider
    lockedNmc := amount
    pricePerHourNmc
    maxDurationSecs
    deadline := 0
    state := .open
    actualCost := 0
    feeCollected := 0
    createdAt := msg.timestamp64
    settledAt := 0 })

def lockEscrow (jobId : String) (s : Contracts) : Result := do
  let key := site.keccak256 jobId
  let job := s.jobs key
  ensure (job.createdAt ≠ 0) .jobNotFound
  ensure (job.state = .open) (.wrongState job.state)
  ensure (msg.sender = job.provider) (.reason "Escrow: not provider")
  ensure (s.isProvider msg.sender) .providerNotVerified
  let deadline ← checkedAdd64 msg.timestamp64 job.maxDurationSecs
  return ([], s.setJob key { job with state := .locked, deadline })

/-- The transfers of a settlement; a leg without an amount is skipped. -/
def settlementLegs (job : Job) (feeCollector : Address) (providerAmount fee consumerRefund : Nat) :
    List Payout :=
  [⟨job.provider, providerAmount⟩, ⟨feeCollector, fee⟩, ⟨job.consumer, consumerRefund⟩].filter
    fun p => 0 < p.amount

def releaseEscrow (jobId : String) (actualCost : Nat) (s : Contracts) : Result := do
  ensure (s.hasRole .oracle msg.sender) (.missingRole .oracle)
  let key := site.keccak256 jobId
  let job := s.jobs key
  ensure (job.createdAt ≠ 0) .jobNotFound
  ensure (job.state = .locked) (.wrongState job.state)
  ensure (actualCost ≤ job.lockedNmc) .costExceedsLocked
  let fee := (← checkedMul actualCost s.platformFeeBps.toNat) / 10000
  let providerAmount ← checkedSub actualCost fee
  let consumerRefund ← checkedSub job.lockedNmc actualCost
  let legs := settlementLegs job s.feeCollector providerAmount fee consumerRefund
  let settled := { job with
    state := .settled
    actualCost
    feeCollected := fee
    settledAt := msg.timestamp64 }
  return (legs, ← Contracts.sendAll site.self legs (s.setJob key settled))

/-- Who may cancel, and when. -/
def cancelGuard (job : Job) (s : Contracts) : Except Revert Unit :=
  let isOracleOrConsumer := msg.sender = job.consumer ∨ s.hasRole .oracle msg.sender
  match job.state with
  | .open => ensure isOracleOrConsumer .callerNotConsumer
  | .locked => ensure (job.deadline.toNat < msg.timestamp ∨ isOracleOrConsumer) .deadlineNotPassed
  | .settled | .cancelled => .error (.wrongState job.state)

def cancelEscrow (jobId : String) (s : Contracts) : Result := do
  let key := site.keccak256 jobId
  let job := s.jobs key
  ensure (job.createdAt ≠ 0) .jobNotFound
  cancelGuard msg job s
  let refund : List Payout := [⟨job.consumer, job.lockedNmc⟩]
  return (refund, ← Contracts.sendAll site.self refund
    (s.setJob key { job with state := .cancelled }))

def setFee (feeBps : UInt16) (s : Contracts) : Result := do
  ensure (s.hasRole .admin msg.sender) (.missingRole .admin)
  ensure (feeBps ≤ maxFeeBps) .feeTooHigh
  return ([], { s with platformFeeBps := feeBps })

def setFeeCollector (collector : Address) (s : Contracts) : Result := do
  ensure (s.hasRole .admin msg.sender) (.missingRole .admin)
  return ([], { s with feeCollector := collector })

end Functions

inductive Method where
  | createEscrow (jobId : String) (provider : Address) (amount pricePerHourNmc : Nat)
      (maxDurationSecs : UInt32)
  | lockEscrow (jobId : String)
  | releaseEscrow (jobId : String) (actualCost : Nat)
  | cancelEscrow (jobId : String)
  | setFee (feeBps : UInt16)
  | setFeeCollector (collector : Address)

structure Call where
  msg : Message
  method : Method

def Call.exec (site : Site) (c : Call) : Contracts → Result :=
  match c.method with
  | .createEscrow jobId provider amount pricePerHourNmc maxDurationSecs =>
      Evm.createEscrow site c.msg jobId provider amount pricePerHourNmc maxDurationSecs
  | .lockEscrow jobId => Evm.lockEscrow site c.msg jobId
  | .releaseEscrow jobId actualCost => Evm.releaseEscrow site c.msg jobId actualCost
  | .cancelEscrow jobId => Evm.cancelEscrow site c.msg jobId
  | .setFee feeBps => Evm.setFee c.msg feeBps
  | .setFeeCollector collector => Evm.setFeeCollector c.msg collector

/-- The job a call is about. -/
def Call.key? (site : Site) (c : Call) : Option Key :=
  match c.method with
  | .createEscrow jobId _ _ _ _ | .lockEscrow jobId | .releaseEscrow jobId _
  | .cancelEscrow jobId => some (site.keccak256 jobId)
  | .setFee _ | .setFeeCollector _ => none

/-- What happens elsewhere: other accounts use the token, providers come and go, roles change. -/
inductive Elsewhere (self : Address) : Contracts → Contracts → Prop
  | token {s : Contracts} {nmc : Erc20} {sender : Address} {c : TokenCall} (hother : sender ≠ self)
      (hexec : c.exec sender s.nmc = .ok nmc) : Elsewhere self s { s with nmc }
  | providers (s : Contracts) (isProvider : Address → Bool) :
      Elsewhere self s { s with isProvider }
  | roles (s : Contracts) (hasRole : Role → Address → Bool) : Elsewhere self s { s with hasRole }

/-- Runs of the contract. -/
abbrev Runs (site : Site) : Contracts → List (Taken Call Contracts (List Payout)) → Contracts → Prop :=
  CallRun (Call.exec site) (Elsewhere site.self)

end NeuralMesh.Evm
