import NeuralMesh.Solana.Token
import Mathlib.Data.FinEnum

/-!
# The Solana programme

`contracts/solana/programs/neuralmesh`: the configuration, the bridge and the job escrows. An
instruction that fails changes nothing, so it is a computation in `Except`; it answers with the token
transfers it made. The constraints of an account structure are checked before the body runs. The
provider NFT, rent and the emitted events are left out, and so are the accounts that can only be one
address (the token and system programmes).
-/

namespace NeuralMesh.Solana

structure ProgramConfig where
  authority : Pubkey
  nmcMint : Pubkey
  platformFeeBps : UInt16
  feeCollector : Pubkey
  bridgeMintLimit : UInt64
  totalMinted : UInt64
  totalBurned : UInt64
  bump : UInt8
  deriving DecidableEq, Repr

inductive EscrowState where
  | «open» | locked | settled | cancelled
  deriving DecidableEq, Repr

/-- `job_id` and `job_id_len`: at most 64 bytes, padded with zeros. -/
structure JobId where
  jobId : Vector UInt8 64
  jobIdLen : UInt8
  jobIdLen_le : jobIdLen.toNat ≤ 64
  deriving DecidableEq

namespace JobId

/-- `&job_id[..job_id_len]` -/
def bytes (j : JobId) : Seed := j.jobId.toList.take j.jobIdLen.toNat

/-- The bytes as the programme stores them, unless there are too many. -/
def ofBytes (b : Seed) : Option JobId :=
  if h : b.length ≤ 64 then
    some {
      jobId := .ofFn fun i => b.getD i 0
      jobIdLen := .ofNat b.length
      jobIdLen_le := by rwa [UInt8.toNat_ofNat_of_lt' (Nat.lt_of_le_of_lt h (by decide))] }
  else none

/-- What is stored is read back without the padding. -/
theorem bytes_of_ofBytes {b : Seed} {j : JobId} (hstored : ofBytes b = some j) : j.bytes = b := by
  unfold ofBytes at hstored
  split at hstored
  · rename_i hlen
    rw [← Option.some.inj hstored]
    have hcount : (UInt8.ofNat b.length).toNat = b.length :=
      UInt8.toNat_ofNat_of_lt' (Nat.lt_of_le_of_lt hlen (by decide))
    simp only [bytes, hcount]
    apply List.ext_getElem
    · simp [hlen]
    · intro i _ hi
      simp [hi]
  · cases hstored

end JobId

structure JobEscrow where
  id : JobId
  consumer : Pubkey
  provider : Pubkey
  lockedNmc : UInt64
  pricePerHour : UInt64
  maxDurationSecs : UInt32
  deadline : Int64
  state : EscrowState
  actualCost : UInt64
  consumerTokenAccount : Pubkey
  providerTokenAccount : Pubkey
  vault : Pubkey
  feeCollected : UInt64
  createdAt : Int64
  settledAt : Int64
  bump : UInt8
  deriving DecidableEq

/-- What `init` leaves in a new escrow account. -/
def JobEscrow.zeroed : JobEscrow where
  id := ⟨.replicate 64 0, 0, Nat.zero_le _⟩
  consumer := 0
  provider := 0
  lockedNmc := 0
  pricePerHour := 0
  maxDurationSecs := 0
  deadline := 0
  state := .open
  actualCost := 0
  consumerTokenAccount := 0
  providerTokenAccount := 0
  vault := 0
  feeCollected := 0
  createdAt := 0
  settledAt := 0
  bump := 0

structure BridgeNonce where
  authority : Pubkey
  nextNonce : UInt64
  bump : UInt8
  deriving DecidableEq, Repr

/-- The data of an account of the programme. -/
inductive Record where
  | config (c : ProgramConfig)
  | escrow (e : JobEscrow)
  | bridgeNonce (n : BridgeNonce)
  deriving DecidableEq

abbrev State := Accounts Record

inductive NmError where
  | unauthorized | mintLimitExceeded | escrowNotOpen | escrowNotLocked | costExceedsLocked
  | feeTooHigh | jobIdTooLong
  deriving DecidableEq, Repr

/-- A constraint of an account structure that does not hold. -/
inductive AnchorError where
  | accountNotInitialized
  /-- The account belongs to another programme or is of another type. -/
  | accountMismatch
  | accountNotSigner
  | accountInUse
  | constraintSeeds
  | constraintAddress
  | constraintTokenMint
  | constraintTokenOwner
  deriving DecidableEq, Repr

inductive Failure where
  | nm (e : NmError)
  | anchor (e : AnchorError)
  | pubkey (e : PubkeyError)
  | token (e : TokenError)
  | panic
  deriving DecidableEq, Repr

/-- A token transfer, with the signer seeds when the programme signs for the authority. -/
structure Transfer where
  source : Pubkey
  dest : Pubkey
  authority : Pubkey
  amount : UInt64
  seeds : Option (List Seed)
  deriving DecidableEq

abbrev Result := Except Failure (List Transfer × State)

/-- Who signed a transaction, and the clock it sees. -/
structure Tx where
  signers : List Pubkey
  unixTimestamp : Int64

def maxFeeBps : UInt16 := 1000

/-- The bytes of a text, as in `b"config"` and `job_id.as_bytes()`. -/
def utf8 (text : String) : Seed := text.toUTF8.toList

def configSeeds : List Seed := [utf8 "config"]

def bridgeNonceSeeds (authority : Pubkey) : List Seed :=
  [utf8 "bridge_nonce", Pubkey.bytes authority]

def escrowSeeds (id : Seed) : List Seed := [utf8 "escrow", id]

def vaultSeeds (id : Seed) : List Seed := [utf8 "vault", id]

/-- `[b"escrow", job_id, [bump]]` -/
def JobEscrow.signerSeeds (e : JobEscrow) : List Seed := escrowSeeds e.id.bytes ++ [[e.bump]]

section Constraints

variable {α : Type} (key : Pubkey) (s : State)

/-- `Account<'info, T>` -/
def load (pick : Account Record → Option α) : Except Failure α := do
  let a ← orFail (s.read key) (.anchor .accountNotInitialized)
  orFail (pick a) (.anchor .accountMismatch)

def asConfig : Account Record → Option ProgramConfig
  | .data (.config c) => some c
  | _ => none

def asEscrow : Account Record → Option JobEscrow
  | .data (.escrow e) => some e
  | _ => none

def asBridgeNonce : Account Record → Option BridgeNonce
  | .data (.bridgeNonce n) => some n
  | _ => none

def asToken : Account Record → Option TokenAccount
  | .token t => some t
  | _ => none

def asMint : Account Record → Option Mint
  | .mint m => some m
  | _ => none

/-- `Signer<'info>` -/
def signer (tx : Tx) : Except Failure Unit := ensure (key ∈ tx.signers) (.anchor .accountNotSigner)

/-- `seeds = [..], bump = ..` -/
def pda (runtime : Runtime) (seeds : List Seed) (bump : UInt8) : Except Failure Unit := do
  let address ← (runtime.createProgramAddress (seeds ++ [[bump]])).mapError fun _ =>
    .anchor .constraintSeeds
  ensure (key = address) (.anchor .constraintSeeds)

/-- `init, seeds = [..], bump`: nothing is at the derived address yet. -/
def initPda (runtime : Runtime) (seeds : List Seed) : Except Failure UInt8 := do
  let found ← orFail (runtime.findProgramAddress seeds) .panic
  ensure (key = found.1) (.anchor .constraintSeeds)
  ensure (s.read key = none) (.anchor .accountInUse)
  return found.2

end Constraints

section Accounts

structure Initialize where
  config : Pubkey
  authority : Pubkey
  nmcMint : Pubkey
  feeCollector : Pubkey

structure BridgeMint where
  config : Pubkey
  nmcMint : Pubkey
  recipientTokenAccount : Pubkey
  bridgeNonce : Pubkey
  authority : Pubkey

structure BridgeBurn where
  config : Pubkey
  nmcMint : Pubkey
  userTokenAccount : Pubkey
  user : Pubkey

structure CreateEscrow where
  config : Pubkey
  escrow : Pubkey
  consumer : Pubkey
  provider : Pubkey
  consumerTokenAccount : Pubkey
  providerTokenAccount : Pubkey
  vault : Pubkey
  nmcMint : Pubkey

structure LockEscrow where
  escrow : Pubkey
  provider : Pubkey

structure ReleaseEscrow where
  config : Pubkey
  escrow : Pubkey
  vault : Pubkey
  providerTokenAccount : Pubkey
  consumerTokenAccount : Pubkey
  feeCollector : Pubkey
  authority : Pubkey

structure CancelEscrow where
  config : Pubkey
  escrow : Pubkey
  vault : Pubkey
  consumerTokenAccount : Pubkey
  signer : Pubkey

structure UpdateConfig where
  config : Pubkey
  authority : Pubkey

end Accounts

section Instructions

variable (runtime : Runtime) (tx : Tx)

/-- The address that signer seeds derive. -/
def derivedSigners : Option (List Seed) → Except Failure (List Pubkey)
  | none => .ok []
  | some seeds => do
      let address ← (runtime.createProgramAddress seeds).mapError .pubkey
      return [address]

/-- `token::transfer`, signed by the wallets and by the address the signer seeds derive. -/
def send (t : Transfer) (s : State) : Except Failure State := do
  let derived ← derivedSigners runtime t.seeds
  (s.transfer (derived ++ tx.signers) t.source t.dest t.authority t.amount).mapError .token

def sendAll : List Transfer → State → Except Failure State
  | [], s => .ok s
  | t :: ts, s => do
      let s ← send runtime tx t s
      sendAll ts s

/-- `initialize` -/
def initializeConfig (accounts : Initialize) (platformFeeBps : UInt16) (bridgeMintLimit : UInt64)
    (s : State) : Result := do
  signer accounts.authority tx
  let _ ← load accounts.nmcMint s asMint
  let bump ← initPda accounts.config s runtime configSeeds
  ensure (platformFeeBps ≤ maxFeeBps) (.nm .feeTooHigh)
  return ([], s.write accounts.config (.data (.config {
    authority := accounts.authority
    nmcMint := accounts.nmcMint
    platformFeeBps
    feeCollector := accounts.feeCollector
    bridgeMintLimit
    totalMinted := 0
    totalBurned := 0
    bump })))

def bridgeMint (accounts : BridgeMint) (amount nonce : UInt64) (s : State) : Result := do
  let cfg ← load accounts.config s asConfig
  let _ ← load accounts.nmcMint s asMint
  let _ ← load accounts.recipientTokenAccount s asToken
  let nonceAcc ← load accounts.bridgeNonce s asBridgeNonce
  signer accounts.authority tx
  pda accounts.config runtime configSeeds cfg.bump
  ensure (cfg.authority = accounts.authority) (.nm .unauthorized)
  ensure (accounts.nmcMint = cfg.nmcMint) (.anchor .constraintAddress)
  pda accounts.bridgeNonce runtime (bridgeNonceSeeds accounts.authority) nonceAcc.bump
  ensure (nonceAcc.authority = accounts.authority) (.nm .unauthorized)
  ensure (amount ≤ cfg.bridgeMintLimit) (.nm .mintLimitExceeded)
  ensure (nonce = nonceAcc.nextNonce) (.nm .unauthorized)
  let nextNonce ← orFail (checkedAdd nonce 1) .panic
  let derived ← (runtime.createProgramAddress (configSeeds ++ [[cfg.bump]])).mapError .pubkey
  let s ← (s.mintTo (derived :: tx.signers) accounts.nmcMint accounts.recipientTokenAccount
    accounts.config amount).mapError .token
  let totalMinted ← orFail (checkedAdd cfg.totalMinted amount) .panic
  return ([], (s.write accounts.config (.data (.config { cfg with totalMinted }))).write
    accounts.bridgeNonce (.data (.bridgeNonce { nonceAcc with nextNonce })))

def bridgeBurn (accounts : BridgeBurn) (amount : UInt64) (s : State) : Result := do
  let cfg ← load accounts.config s asConfig
  let _ ← load accounts.nmcMint s asMint
  let userToken ← load accounts.userTokenAccount s asToken
  signer accounts.user tx
  pda accounts.config runtime configSeeds cfg.bump
  ensure (accounts.nmcMint = cfg.nmcMint) (.anchor .constraintAddress)
  ensure (userToken.owner = accounts.user) (.anchor .constraintTokenOwner)
  ensure (userToken.mint = accounts.nmcMint) (.anchor .constraintTokenMint)
  let s ← (s.burn tx.signers accounts.nmcMint accounts.userTokenAccount accounts.user
    amount).mapError .token
  let totalBurned ← orFail (checkedAdd cfg.totalBurned amount) .panic
  return ([], s.write accounts.config (.data (.config { cfg with totalBurned })))

def createEscrow (accounts : CreateEscrow) (jobId : String) (lockedNmc pricePerHour : UInt64)
    (maxDurationSecs : UInt32) (s : State) : Result := do
  let jobIdBytes := utf8 jobId
  let cfg ← load accounts.config s asConfig
  signer accounts.consumer tx
  let consumerToken ← load accounts.consumerTokenAccount s asToken
  let _ ← load accounts.nmcMint s asMint
  let bump ← initPda accounts.escrow s runtime (escrowSeeds jobIdBytes)
  let s := s.write accounts.escrow (.data (.escrow .zeroed))
  let _ ← initPda accounts.vault s runtime (vaultSeeds jobIdBytes)
  let s := s.write accounts.vault (.token {
    mint := accounts.nmcMint
    owner := accounts.escrow
    amount := 0
    delegate := none
    delegatedAmount := 0
    frozen := false })
  pda accounts.config runtime configSeeds cfg.bump
  ensure (consumerToken.owner = accounts.consumer) (.anchor .constraintTokenOwner)
  ensure (consumerToken.mint = cfg.nmcMint) (.anchor .constraintTokenMint)
  ensure (accounts.nmcMint = cfg.nmcMint) (.anchor .constraintAddress)
  let id ← orFail (JobId.ofBytes jobIdBytes) (.nm .jobIdTooLong)
  let deposit : Transfer := {
    source := accounts.consumerTokenAccount
    dest := accounts.vault
    authority := accounts.consumer
    amount := lockedNmc
    seeds := none }
  let s ← send runtime tx deposit s
  return ([deposit], s.write accounts.escrow (.data (.escrow {
    JobEscrow.zeroed with
    id
    consumer := accounts.consumer
    provider := accounts.provider
    lockedNmc
    pricePerHour
    maxDurationSecs
    state := .open
    consumerTokenAccount := accounts.consumerTokenAccount
    providerTokenAccount := accounts.providerTokenAccount
    vault := accounts.vault
    createdAt := tx.unixTimestamp
    bump })))

def lockEscrow (accounts : LockEscrow) (s : State) : Result := do
  let esc ← load accounts.escrow s asEscrow
  signer accounts.provider tx
  pda accounts.escrow runtime (escrowSeeds esc.id.bytes) esc.bump
  ensure (esc.provider = accounts.provider) (.nm .unauthorized)
  ensure (esc.state = .open) (.nm .escrowNotOpen)
  return ([], s.write accounts.escrow (.data (.escrow { esc with
    state := .locked
    deadline := tx.unixTimestamp + .ofNat esc.maxDurationSecs.toNat })))

/-- A payment out of an escrow. -/
def JobEscrow.payment (esc : JobEscrow) (escrow vault dest : Pubkey) (amount : UInt64) :
    Transfer where
  source := vault
  dest
  authority := escrow
  amount
  seeds := some esc.signerSeeds

/-- The payments of a settlement; one without an amount is not made. -/
def settlementLegs (accounts : ReleaseEscrow) (esc : JobEscrow)
    (providerAmount fee consumerRefund : UInt64) : List Transfer :=
  [esc.payment accounts.escrow accounts.vault accounts.providerTokenAccount providerAmount,
    esc.payment accounts.escrow accounts.vault accounts.feeCollector fee,
    esc.payment accounts.escrow accounts.vault accounts.consumerTokenAccount consumerRefund].filter
    fun leg => 0 < leg.amount

def releaseEscrow (accounts : ReleaseEscrow) (actualCost : UInt64) (s : State) : Result := do
  let cfg ← load accounts.config s asConfig
  let esc ← load accounts.escrow s asEscrow
  let _ ← load accounts.vault s asToken
  let _ ← load accounts.providerTokenAccount s asToken
  let _ ← load accounts.consumerTokenAccount s asToken
  let _ ← load accounts.feeCollector s asToken
  signer accounts.authority tx
  pda accounts.config runtime configSeeds cfg.bump
  ensure (cfg.authority = accounts.authority) (.nm .unauthorized)
  pda accounts.escrow runtime (escrowSeeds esc.id.bytes) esc.bump
  ensure (accounts.feeCollector = cfg.feeCollector) (.anchor .constraintAddress)
  ensure (esc.state = .locked) (.nm .escrowNotLocked)
  ensure (actualCost ≤ esc.lockedNmc) (.nm .costExceedsLocked)
  let fee := (← orFail (checkedMul actualCost cfg.platformFeeBps.toUInt64) .panic) / 10000
  let providerAmount ← orFail (checkedSub actualCost fee) .panic
  let consumerRefund ← orFail (checkedSub esc.lockedNmc actualCost) .panic
  let legs := settlementLegs accounts esc providerAmount fee consumerRefund
  let s ← sendAll runtime tx legs s
  return (legs, s.write accounts.escrow (.data (.escrow { esc with
    actualCost
    feeCollected := fee
    state := .settled
    settledAt := tx.unixTimestamp })))

def cancelEscrow (accounts : CancelEscrow) (s : State) : Result := do
  let cfg ← load accounts.config s asConfig
  let esc ← load accounts.escrow s asEscrow
  let _ ← load accounts.vault s asToken
  let _ ← load accounts.consumerTokenAccount s asToken
  signer accounts.signer tx
  pda accounts.config runtime configSeeds cfg.bump
  pda accounts.escrow runtime (escrowSeeds esc.id.bytes) esc.bump
  ensure (esc.state = .open ∨ esc.state = .locked) (.nm .escrowNotOpen)
  let refund := esc.payment accounts.escrow accounts.vault accounts.consumerTokenAccount
    esc.lockedNmc
  let s ← send runtime tx refund s
  return ([refund], s.write accounts.escrow (.data (.escrow { esc with state := .cancelled })))

def updateConfig (accounts : UpdateConfig) (platformFeeBps : Option UInt16)
    (bridgeMintLimit : Option UInt64) (s : State) : Result := do
  let cfg ← load accounts.config s asConfig
  signer accounts.authority tx
  pda accounts.config runtime configSeeds cfg.bump
  ensure (cfg.authority = accounts.authority) (.nm .unauthorized)
  ensure (∀ fee ∈ platformFeeBps, fee ≤ maxFeeBps) (.nm .feeTooHigh)
  return ([], s.write accounts.config (.data (.config { cfg with
    platformFeeBps := platformFeeBps.getD cfg.platformFeeBps
    bridgeMintLimit := bridgeMintLimit.getD cfg.bridgeMintLimit })))

end Instructions

/-! ### What a passed check says -/

section Passed

variable {α : Type} {runtime : Runtime} {tx : Tx} {key : Pubkey} {s t : State} {seeds : List Seed}
  {bump : UInt8} {x : α}

theorem load_eq_ok {pick : Account Record → Option α} :
    load key s pick = .ok x ↔ ∃ a, s.read key = some a ∧ pick a = some x := by
  simp only [load, bind_eq_ok, orFail_eq_ok]

@[simp] theorem asConfig_eq_some {a : Account Record} {c : ProgramConfig} :
    asConfig a = some c ↔ a = .data (.config c) := by
  unfold asConfig
  split <;> simp_all

@[simp] theorem asEscrow_eq_some {a : Account Record} {e : JobEscrow} :
    asEscrow a = some e ↔ a = .data (.escrow e) := by
  unfold asEscrow
  split <;> simp_all

@[simp] theorem asBridgeNonce_eq_some {a : Account Record} {n : BridgeNonce} :
    asBridgeNonce a = some n ↔ a = .data (.bridgeNonce n) := by
  unfold asBridgeNonce
  split <;> simp_all

@[simp] theorem asToken_eq_some {a : Account Record} {v : TokenAccount} :
    asToken a = some v ↔ a = .token v := by
  unfold asToken
  split <;> simp_all

@[simp] theorem asMint_eq_some {a : Account Record} {m : Mint} :
    asMint a = some m ↔ a = .mint m := by
  unfold asMint
  split <;> simp_all

theorem load_config {c : ProgramConfig} :
    load key s asConfig = .ok c ↔ s.read key = some (.data (.config c)) := by
  simp [load_eq_ok]

theorem load_escrow {e : JobEscrow} :
    load key s asEscrow = .ok e ↔ s.read key = some (.data (.escrow e)) := by
  simp [load_eq_ok]

theorem load_bridgeNonce {n : BridgeNonce} :
    load key s asBridgeNonce = .ok n ↔ s.read key = some (.data (.bridgeNonce n)) := by
  simp [load_eq_ok]

theorem load_token {v : TokenAccount} :
    load key s asToken = .ok v ↔ s.read key = some (.token v) := by
  simp [load_eq_ok]

theorem load_mint {m : Mint} : load key s asMint = .ok m ↔ s.read key = some (.mint m) := by
  simp [load_eq_ok]

theorem signer_eq_ok {u : Unit} : signer key tx = .ok u ↔ key ∈ tx.signers := ensure_eq_ok

theorem pda_eq_ok {u : Unit} :
    pda key runtime seeds bump = .ok u ↔
      runtime.createProgramAddress (seeds ++ [[bump]]) = .ok key := by
  simp only [pda, bind_eq_ok, mapError_eq_ok, ensure_eq_ok]
  constructor
  · rintro ⟨address, hderived, rfl⟩
    exact hderived
  · exact fun hderived => ⟨key, hderived, rfl⟩

theorem initPda_eq_ok :
    initPda key s runtime seeds = .ok bump ↔
      runtime.findProgramAddress seeds = some (key, bump) ∧ s.read key = none := by
  simp only [initPda, bind_eq_ok, orFail_eq_ok, ensure_eq_ok, pure_eq_ok, exists_const]
  constructor
  · rintro ⟨⟨address, found⟩, hfind, rfl, hvacant, rfl⟩
    exact ⟨hfind, hvacant⟩
  · rintro ⟨hfind, hvacant⟩
    exact ⟨(key, bump), hfind, rfl, hvacant, rfl⟩

end Passed

inductive Instruction where
  | initializeConfig (accounts : Initialize) (platformFeeBps : UInt16) (bridgeMintLimit : UInt64)
  | bridgeMint (accounts : BridgeMint) (amount nonce : UInt64)
  | bridgeBurn (accounts : BridgeBurn) (amount : UInt64)
  | createEscrow (accounts : CreateEscrow) (jobId : String) (lockedNmc pricePerHour : UInt64)
      (maxDurationSecs : UInt32)
  | lockEscrow (accounts : LockEscrow)
  | releaseEscrow (accounts : ReleaseEscrow) (actualCost : UInt64)
  | cancelEscrow (accounts : CancelEscrow)
  | updateConfig (accounts : UpdateConfig) (platformFeeBps : Option UInt16)
      (bridgeMintLimit : Option UInt64)

structure Call where
  tx : Tx
  instruction : Instruction

def Call.exec (runtime : Runtime) (c : Call) : State → Result :=
  match c.instruction with
  | .initializeConfig accounts platformFeeBps bridgeMintLimit =>
      Solana.initializeConfig runtime c.tx accounts platformFeeBps bridgeMintLimit
  | .bridgeMint accounts amount nonce => Solana.bridgeMint runtime c.tx accounts amount nonce
  | .bridgeBurn accounts amount => Solana.bridgeBurn runtime c.tx accounts amount
  | .createEscrow accounts jobId lockedNmc pricePerHour maxDurationSecs =>
      Solana.createEscrow runtime c.tx accounts jobId lockedNmc pricePerHour maxDurationSecs
  | .lockEscrow accounts => Solana.lockEscrow runtime c.tx accounts
  | .releaseEscrow accounts actualCost => Solana.releaseEscrow runtime c.tx accounts actualCost
  | .cancelEscrow accounts => Solana.cancelEscrow runtime c.tx accounts
  | .updateConfig accounts platformFeeBps bridgeMintLimit =>
      Solana.updateConfig runtime c.tx accounts platformFeeBps bridgeMintLimit

/-- What other programmes do. They cannot sign for an address of this one. -/
structure Elsewhere (runtime : Runtime) (s t : State) : Prop where
  records : s.SameRecords t
  vacant : ∀ seeds key, runtime.createProgramAddress seeds = .ok key → s.read key = none →
    t.read key = none
  vaults : ∀ vaultSeeds seeds key v, runtime.createProgramAddress vaultSeeds = .ok key →
    runtime.createProgramAddress seeds = .ok v.owner → v.delegate = none →
    s.read key = some (.token v) →
    ∃ amount frozen, v.amount ≤ amount ∧ t.read key = some (.token { v with amount, frozen })

/-- Runs of attempted instructions; a refused one changes nothing. -/
abbrev Runs (runtime : Runtime) :
    State → List (Taken Call State (Except Failure (List Transfer))) → State → Prop :=
  CallRun (tryCall (Call.exec runtime)) (Elsewhere runtime)

end NeuralMesh.Solana
