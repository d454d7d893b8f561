import NeuralMesh.Evm.Message

/-!
# The NMC token

`contracts/evm/src/NMCToken.sol` over OpenZeppelin's `ERC20`, `ERC20Burnable`, `ERC20Permit` and
`ERC20Votes`. Of the votes only the delegations and the cap on the supply are kept, since the
checkpoints bear on nothing else. A signature comes into a call as the account that it recovers to.
-/

namespace NeuralMesh.Evm

inductive NmcRole where
  | admin | bridge | pauser
  deriving DecidableEq, Repr

inductive NmcRevert where
  | maxSupplyExceeded
  | mintLimitExceeded
  | nonceAlreadyUsed
  | contractPaused
  | zeroAmount
  /-- `onlyRole` -/
  | missingRole (role : NmcRole)
  | token (e : TokenError)
  /-- `ERC20ExceededSafeSupply` -/
  | exceededSafeSupply
  /-- `ERC2612ExpiredSignature`, `VotesExpiredSignature` -/
  | expiredSignature
  /-- `ERC2612InvalidSigner` -/
  | invalidSigner
  /-- `InvalidAccountNonce` -/
  | invalidAccountNonce
  /-- Checked arithmetic -/
  | panic
  deriving DecidableEq, Repr

structure NmcToken where
  erc20 : Erc20
  totalSupply : Nat
  paused : Bool
  hasRole : NmcRole → Address → Bool
  /-- The bridge nonces that were used. -/
  usedNonces : Nat → Bool
  /-- The next nonce of an account's signatures. -/
  nonces : Address → Nat
  delegates : Address → Address

/-- One billion NMC -/
def maxSupply : Nat := 1000000000 * 10 ^ 18

/-- One million NMC in one call -/
def maxBridgeMint : Nat := 1000000 * 10 ^ 18

/-- `type(uint208).max` -/
def maxSafeSupply : Nat := 2 ^ 208 - 1

/-- A subtraction of `uint256`s that is not checked. -/
def uncheckedSub (a b : Nat) : Nat := (a + 2 ^ 256 - b) % 2 ^ 256

namespace NmcToken

/-- No function of the token answers with more than its success. -/
abbrev Result := Except NmcRevert (Unit × NmcToken)

/-- The constructor; nothing is minted. -/
def deploy (admin bridge : Address) : NmcToken where
  erc20 := ⟨fun _ => 0, fun _ _ => 0⟩
  totalSupply := 0
  paused := false
  hasRole
    | .admin, a | .pauser, a => a = admin
    | .bridge, a => a = bridge
  usedNonces := fun _ => false
  nonces := fun _ => 0
  delegates := fun _ => 0

/-- An operation on balances and allowances alone. -/
def onErc20 (operation : Erc20 → Erc20.Result) (s : NmcToken) : Result := do
  let erc20 ← (operation s.erc20).mapError .token
  return ((), { s with erc20 })

/-- `_mint`, with the cap of `ERC20Votes`. -/
def mint (dest : Address) (value : Nat) (s : NmcToken) : Result := do
  let erc20 ← (s.erc20.mint dest value).mapError .token
  ensure (s.totalSupply + value ≤ uint256Max) .panic
  ensure (s.totalSupply + value ≤ maxSafeSupply) .exceededSafeSupply
  return ((), { s with erc20, totalSupply := s.totalSupply + value })

/-- `_burn` -/
def burn (source : Address) (value : Nat) (s : NmcToken) : Result := do
  let erc20 ← (s.erc20.burn source value).mapError .token
  return ((), { s with erc20, totalSupply := uncheckedSub s.totalSupply value })

section Functions

variable (msg : Message)

def bridgeMint (recipient : Address) (amount nonce : Nat) (s : NmcToken) : Result := do
  ensure (s.hasRole .bridge msg.sender) (.missingRole .bridge)
  ensure (s.paused = false) .contractPaused
  ensure (amount ≠ 0) .zeroAmount
  ensure (amount ≤ maxBridgeMint) .mintLimitExceeded
  ensure (s.usedNonces nonce = false) .nonceAlreadyUsed
  ensure (s.totalSupply + amount ≤ uint256Max) .panic
  ensure (s.totalSupply + amount ≤ maxSupply) .maxSupplyExceeded
  mint recipient amount { s with usedNonces := Function.update s.usedNonces nonce true }

/-- The account on the other side only goes into an event. -/
def bridgeBurn (amount : Nat) (s : NmcToken) : Result := do
  ensure (s.paused = false) .contractPaused
  ensure (amount ≠ 0) .zeroAmount
  burn msg.sender amount s

def setPaused (paused : Bool) (s : NmcToken) : Result := do
  ensure (s.hasRole .pauser msg.sender) (.missingRole .pauser)
  return ((), { s with paused })

/-- `burnFrom` of `ERC20Burnable` -/
def burnFrom (source : Address) (value : Nat) (s : NmcToken) : Result := do
  let (_, s) ← s.onErc20 (Erc20.spendAllowance source msg.sender value)
  burn source value s

/-- `permit` of `ERC20Permit`, with a signature of `signer` -/
def permit (owner spender : Address) (value deadline : Nat) (signer : Address) (s : NmcToken) :
    Result := do
  ensure (msg.timestamp ≤ deadline) .expiredSignature
  ensure (signer = owner) .invalidSigner
  onErc20 (Erc20.approve owner spender value)
    { s with nonces := Function.update s.nonces owner (s.nonces owner + 1) }

/-- `delegate` of `Votes` -/
def delegate (delegator delegatee : Address) (s : NmcToken) : Result :=
  .ok ((), { s with delegates := Function.update s.delegates delegator delegatee })

/-- `delegateBySig` of `Votes`, with a signature of `signer` -/
def delegateBySig (delegatee : Address) (nonce expiry : Nat) (signer : Address) (s : NmcToken) :
    Result := do
  ensure (msg.timestamp ≤ expiry) .expiredSignature
  ensure (nonce = s.nonces signer) .invalidAccountNonce
  delegate signer delegatee
    { s with nonces := Function.update s.nonces signer (s.nonces signer + 1) }

end Functions

inductive Method where
  | bridgeMint (recipient : Address) (amount nonce : Nat)
  | bridgeBurn (amount : Nat)
  | setPaused (paused : Bool)
  | transfer (dest : Address) (value : Nat)
  | approve (spender : Address) (value : Nat)
  | transferFrom (source dest : Address) (value : Nat)
  | burn (value : Nat)
  | burnFrom (source : Address) (value : Nat)
  | permit (owner spender : Address) (value deadline : Nat) (signer : Address)
  | delegate (delegatee : Address)
  | delegateBySig (delegatee : Address) (nonce expiry : Nat) (signer : Address)

structure Call where
  msg : Message
  method : Method

def Call.exec (c : Call) : NmcToken → Result :=
  match c.method with
  | .bridgeMint recipient amount nonce => NmcToken.bridgeMint c.msg recipient amount nonce
  | .bridgeBurn amount => NmcToken.bridgeBurn c.msg amount
  | .setPaused paused => NmcToken.setPaused c.msg paused
  | .transfer dest value => NmcToken.onErc20 (Erc20.move c.msg.sender dest value)
  | .approve spender value => NmcToken.onErc20 (Erc20.approve c.msg.sender spender value)
  | .transferFrom source dest value =>
      NmcToken.onErc20 (Erc20.transferFrom c.msg.sender source dest value)
  | .burn value => NmcToken.burn c.msg.sender value
  | .burnFrom source value => NmcToken.burnFrom c.msg source value
  | .permit owner spender value deadline signer =>
      NmcToken.permit c.msg owner spender value deadline signer
  | .delegate delegatee => NmcToken.delegate c.msg.sender delegatee
  | .delegateBySig delegatee nonce expiry signer =>
      NmcToken.delegateBySig c.msg delegatee nonce expiry signer

/-- What happens elsewhere: roles change. -/
inductive Elsewhere : NmcToken → NmcToken → Prop
  | roles (s : NmcToken) (hasRole : NmcRole → Address → Bool) : Elsewhere s { s with hasRole }

/-- Runs of the contract. -/
abbrev Runs : NmcToken → List (Taken Call NmcToken Unit) → NmcToken → Prop :=
  CallRun Call.exec Elsewhere

end NmcToken

end NeuralMesh.Evm
