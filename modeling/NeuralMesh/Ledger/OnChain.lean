import NeuralMesh.Base.Http
import NeuralMesh.Ledger.SendTx

/-!
# On-chain settlement endpoints

`on_chain_release` and `on_chain_cancel` of `ledger/src/main.rs`, and the calls of `ArbitrumOracle`
they make. An amount is an exact rational where the code has an `f64`.
-/

namespace NeuralMesh.Ledger

open Program

/-- The `k256` and `sha3` crates. -/
structure Crypto where
  k256 : K256
  keccak256 : List UInt8 → Vector UInt8 32

/-! ### Calldata -/

/-- The first four bytes of the hash of a signature. -/
def Crypto.selector (crypto : Crypto) (sig : String) : List UInt8 :=
  (crypto.keccak256 sig.toUTF8.toList).toList.take 4

/-- Sixteen zero bytes and a `u128`. -/
def uint256Be (val : U128) : List UInt8 := List.replicate 16 0 ++ toBigEndian 16 val.toNat

/-- The length word, the bytes, and zeros up to a multiple of 32. -/
def abiTail (s : String) : List UInt8 :=
  let bytes := s.toUTF8.toList
  uint256Be (BitVec.ofNat 128 bytes.length) ++ bytes ++
    List.replicate ((32 - bytes.length % 32) % 32) 0

def abiEncodeString (s : String) : List UInt8 := uint256Be 32 ++ abiTail s

def abiEncodeStringUint256 (s : String) (value : U128) : List UInt8 :=
  uint256Be 64 ++ uint256Be value ++ abiTail s

inductive OnChainError where
  /-- `nmc_to_wei: negative amount` -/
  | negativeAmount
  /-- `NMC amount too large for u128` -/
  | amountTooLarge
  /-- the allocation of the calldata panics -/
  | capacity
  | send (e : SendError)

/-- The whole part saturates as it is cast, and the fraction is rounded half away from zero. -/
def nmcToWeiU128 (nmc : ℚ) : Except OnChainError U128 :=
  if nmc < 0 then .error .negativeAmount
  else
    let whole := min ⌊nmc⌋.toNat (2 ^ 128 - 1)
    let frac := ⌊(nmc - ⌊nmc⌋) * 10 ^ 18 + 1 / 2⌋.toNat
    let wei := whole * 10 ^ 18 + frac
    if wei < 2 ^ 128 then .ok (BitVec.ofNat 128 wei) else .error .amountTooLarge

/-! ### `ArbitrumOracle` -/

abbrev OnChainCall := Program Rpc.Answer (Except OnChainError (Option String))

/-- `send_tx(calldata).await?` -/
def sendCalldata (crypto : Crypto) (oracle : ArbitrumOracle) (calldata : List UInt8) : OnChainCall :=
  if h : calldata.length < 2 ^ 63 then
    (sendTx crypto.k256 oracle ⟨calldata, h⟩).map fun sent => (sent.mapError .send).map some
  else done (.error .capacity)

def ArbitrumOracle.releaseEscrow (crypto : Crypto) (oracle : ArbitrumOracle) (jobId : String)
    (actualCostNmc : ℚ) : OnChainCall :=
  if !oracle.enabled then done (.ok none)
  else
    match nmcToWeiU128 actualCostNmc with
    | .error e => done (.error e)
    | .ok costWei =>
        sendCalldata crypto oracle (crypto.selector "releaseEscrow(string,uint256)" ++
          abiEncodeStringUint256 jobId costWei)

def ArbitrumOracle.cancelEscrow (crypto : Crypto) (oracle : ArbitrumOracle) (jobId : String) :
    OnChainCall :=
  if !oracle.enabled then done (.ok none)
  else
    sendCalldata crypto oracle (crypto.selector "cancelEscrow(string)" ++ abiEncodeString jobId)

/-! ### The endpoints -/

abbrev OnChainHandler := Program Rpc.Answer Reply

/-- Against the `INTERNAL_SECRET` of the environment. -/
def verifySecret (internalSecret : Option String) (provided : String) : Bool :=
  let expected := internalSecret.getD ""
  !expected.isEmpty && provided == expected

structure OnChainReleaseBody where
  jobId : String
  actualCostNmc : ℚ
  secret : String

def onChainRelease (internalSecret : Option String) (crypto : Crypto) (oracle : ArbitrumOracle)
    (body : OnChainReleaseBody) : OnChainHandler :=
  if !verifySecret internalSecret body.secret then done (.error .unauthorized)
  else if body.actualCostNmc < 0 then done (.error .badRequest)
  else
    (oracle.releaseEscrow crypto body.jobId body.actualCostNmc).map fun
      | .ok (some txHash) =>
          .json [("ok", .bool true), ("tx_hash", .str txHash), ("job_id", .str body.jobId)]
      | .ok none =>
          .json [
            ("ok", .bool true),
            ("tx_hash", .null),
            ("message", .str "on-chain oracle disabled — off-chain settlement only")]
      | .error _ => .error .internalServerError

structure OnChainCancelBody where
  jobId : String
  secret : String

def onChainCancel (internalSecret : Option String) (crypto : Crypto) (oracle : ArbitrumOracle)
    (body : OnChainCancelBody) : OnChainHandler :=
  if !verifySecret internalSecret body.secret then done (.error .unauthorized)
  else
    (oracle.cancelEscrow crypto body.jobId).map fun
      | .ok (some txHash) => .json [("ok", .bool true), ("tx_hash", .str txHash)]
      | .ok none => .json [("ok", .bool true), ("tx_hash", .null)]
      | .error _ => .error .internalServerError

end NeuralMesh.Ledger
