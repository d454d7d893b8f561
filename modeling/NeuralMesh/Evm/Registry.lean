import NeuralMesh.Evm.Message

/-!
# The staking registry

`contracts/evm/src/Registry.sol`. A function is a computation in `Except` that answers with the NMC
the contract sent. `nonReentrant` is left out (the token calls nobody back), and so are the events
and the reason of a slash, which only an event carries. Amounts are naturals, and a checked
operation reverts when its result does not fit.
-/

namespace NeuralMesh.Evm

structure ProviderRecord where
  stakedNmc : Nat
  unbondingNmc : Nat
  unbondingEndsAt : UInt64
  slashCount : UInt32
  active : Bool
  /-- `bytes20` -/
  providerIdPrefix : BitVec 160
  deriving DecidableEq, Repr

/-- What an unwritten key of the mapping reads as. -/
def ProviderRecord.zero : ProviderRecord := ⟨0, 0, 0, 0, false, 0⟩

inductive RegistryRole where
  | admin | slash | pauser
  deriving DecidableEq, Repr

inductive RegistryRevert where
  | insufficientStake (amount need : Nat)
  | alreadyActive
  | notActive
  | unbondingPending
  | unbondingNotComplete
  | nothingToUnstake
  | contractPaused
  | zeroAmount
  /-- `onlyRole` -/
  | missingRole (role : RegistryRole)
  | token (e : TokenError)
  /-- Checked arithmetic -/
  | panic
  deriving DecidableEq, Repr

/-- The storage of the contract, and the token. -/
structure Registry where
  nmc : Erc20
  treasury : Address
  paused : Bool
  hasRole : RegistryRole → Address → Bool
  providers : Address → ProviderRecord
  providerList : List Address

/-- 100 NMC -/
def tier1MinStake : Nat := 100 * 10 ^ 18

/-- 500 NMC -/
def tier2MinStake : Nat := 500 * 10 ^ 18

/-- 2000 NMC -/
def tier3MinStake : Nat := 2000 * 10 ^ 18

/-- Seven days, in seconds. -/
def unbondingPeriod : Nat := 7 * 24 * 60 * 60

/-- `_tier` -/
def tier (staked : Nat) : Nat :=
  if tier3MinStake ≤ staked then 3
  else if tier2MinStake ≤ staked then 2
  else if tier1MinStake ≤ staked then 1
  else 0

namespace Registry

abbrev Result := Except RegistryRevert (List Payout × Registry)

def setRecord (s : Registry) (provider : Address) (record : ProviderRecord) : Registry :=
  { s with providers := Function.update s.providers provider record }

def tierOf (s : Registry) (provider : Address) : Nat := tier (s.providers provider).stakedNmc

def isActive (s : Registry) (provider : Address) : Bool := (s.providers provider).active

def providerCount (s : Registry) : Nat := s.providerList.length

/-- The constructor. -/
def deploy (nmc : Erc20) (treasury admin slasher : Address) : Registry where
  nmc
  treasury
  paused := false
  hasRole
    | .admin, a | .pauser, a => a = admin
    | .slash, a => a = slasher
  providers := fun _ => .zero
  providerList := []

/-- A checked addition of `uint256`s. -/
def checkedAdd (a b : Nat) : Except RegistryRevert Nat := do
  ensure (a + b ≤ uint256Max) .panic
  return a + b

/-- `slashCount++` -/
def checkedSucc32 (n : UInt32) : Except RegistryRevert UInt32 := do
  ensure (n.toNat + 1 < 2 ^ 32) .panic
  return n + 1

section Functions

variable (self : ContractAddress) (msg : Message)

/-- `nmc.transferFrom(msg.sender, address(this), amount)` -/
def collect (amount : Nat) (s : Registry) : Except RegistryRevert Registry := do
  let nmc ← (s.nmc.transferFrom self msg.sender self amount).mapError .token
  return { s with nmc }

/-- `nmc.transfer` -/
def pay (payout : Payout) (s : Registry) : Except RegistryRevert Registry := do
  let nmc ← (s.nmc.move self payout.dest payout.amount).mapError .token
  return { s with nmc }

def registerAndStake (amount : Nat) (providerIdPrefix : BitVec 160) (s : Registry) : Result := do
  ensure (s.paused = false) .contractPaused
  ensure (amount ≠ 0) .zeroAmount
  ensure (tier1MinStake ≤ amount) (.insufficientStake amount tier1MinStake)
  let record := s.providers msg.sender
  ensure (record.active = false) .alreadyActive
  ensure (record.unbondingNmc = 0) .unbondingPending
  let s ← s.collect self msg amount
  let registered := { record with stakedNmc := amount, active := true, providerIdPrefix }
  return ([], { s.setRecord msg.sender registered with
    providerList := s.providerList ++ [msg.sender] })

def addStake (amount : Nat) (s : Registry) : Result := do
  ensure (s.paused = false) .contractPaused
  ensure (amount ≠ 0) .zeroAmount
  let record := s.providers msg.sender
  ensure record.active .notActive
  let s ← s.collect self msg amount
  let stakedNmc ← checkedAdd record.stakedNmc amount
  return ([], s.setRecord msg.sender { record with stakedNmc })

def queueUnstake (amount : Nat) (s : Registry) : Result := do
  let record := s.providers msg.sender
  ensure record.active .notActive
  ensure (amount ≠ 0) .zeroAmount
  ensure (amount ≤ record.stakedNmc) (.insufficientStake record.stakedNmc amount)
  ensure (record.unbondingNmc = 0) .unbondingPending
  let remaining := record.stakedNmc - amount
  ensure (remaining = 0 ∨ tier1MinStake ≤ remaining) (.insufficientStake remaining tier1MinStake)
  let endsAt ← checkedAdd msg.timestamp unbondingPeriod
  return ([], s.setRecord msg.sender { record with
    stakedNmc := remaining
    unbondingNmc := amount
    unbondingEndsAt := .ofNat endsAt
    active := if remaining = 0 then false else record.active })

def claimUnstake (s : Registry) : Result := do
  let record := s.providers msg.sender
  ensure (record.unbondingNmc ≠ 0) .nothingToUnstake
  ensure (record.unbondingEndsAt.toNat ≤ msg.timestamp) .unbondingNotComplete
  let payout : Payout := ⟨msg.sender, record.unbondingNmc⟩
  let claimed := { record with unbondingNmc := 0, unbondingEndsAt := 0 }
  return ([payout], ← (s.setRecord msg.sender claimed).pay self payout)

/-- What a slash of this amount takes. -/
def slashAmount (amount : Nat) (record : ProviderRecord) : Nat :=
  if record.stakedNmc < amount then record.stakedNmc else amount

def slash (provider : Address) (amount : Nat) (s : Registry) : Result := do
  ensure (s.hasRole .slash msg.sender) (.missingRole .slash)
  let record := s.providers provider
  ensure (record.active ∨ record.stakedNmc ≠ 0) .notActive
  let taken := slashAmount amount record
  let remaining := record.stakedNmc - taken
  let slashCount ← checkedSucc32 record.slashCount
  let slashed := s.setRecord provider { record with
    stakedNmc := remaining
    slashCount
    active := if remaining < tier1MinStake ∧ record.active then false else record.active }
  if 0 < taken then
    let payout : Payout := ⟨s.treasury, taken⟩
    return ([payout], ← slashed.pay self payout)
  else return ([], slashed)

def setTreasury (treasury : Address) (s : Registry) : Result := do
  ensure (s.hasRole .admin msg.sender) (.missingRole .admin)
  return ([], { s with treasury })

def setPaused (paused : Bool) (s : Registry) : Result := do
  ensure (s.hasRole .pauser msg.sender) (.missingRole .pauser)
  return ([], { s with paused })

end Functions

inductive Method where
  | registerAndStake (amount : Nat) (providerIdPrefix : BitVec 160)
  | addStake (amount : Nat)
  | queueUnstake (amount : Nat)
  | claimUnstake
  | slash (provider : Address) (amount : Nat)
  | setTreasury (treasury : Address)
  | setPaused (paused : Bool)

structure Call where
  msg : Message
  method : Method

def Call.exec (self : ContractAddress) (c : Call) : Registry → Result :=
  match c.method with
  | .registerAndStake amount providerIdPrefix =>
      Registry.registerAndStake self c.msg amount providerIdPrefix
  | .addStake amount => Registry.addStake self c.msg amount
  | .queueUnstake amount => Registry.queueUnstake c.msg amount
  | .claimUnstake => Registry.claimUnstake self c.msg
  | .slash provider amount => Registry.slash self c.msg provider amount
  | .setTreasury treasury => Registry.setTreasury c.msg treasury
  | .setPaused paused => Registry.setPaused c.msg paused

/-- What happens elsewhere: other accounts use the token, roles change. -/
inductive Elsewhere (self : Address) : Registry → Registry → Prop
  | token {s : Registry} {nmc : Erc20} {sender : Address} {c : TokenCall} (hother : sender ≠ self)
      (hexec : c.exec sender s.nmc = .ok nmc) : Elsewhere self s { s with nmc }
  | roles (s : Registry) (hasRole : RegistryRole → Address → Bool) :
      Elsewhere self s { s with hasRole }

/-- Runs of the contract. -/
abbrev Runs (self : ContractAddress) :
    Registry → List (Taken Call Registry (List Payout)) → Registry → Prop :=
  CallRun (Call.exec self) (Elsewhere self)

end Registry

end NeuralMesh.Evm
