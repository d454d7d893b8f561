import NeuralMesh.Base.Interleaving
import NeuralMesh.Ledger.Arbitrum

/-!
# Sending a settlement transaction

`ArbitrumOracle::send_tx` of `ledger/src/on_chain/arbitrum.rs`, a program of JSON-RPC requests to a
node. Each request is an await point: other calls, and the chain, go on between two of them.
-/

namespace NeuralMesh.Ledger

open Program

abbrev EthAddress := Vector UInt8 20

/-! ### Hexadecimal -/

/-- `trim_start_matches("0x")` -/
def trimZeroX : List Char → List Char
  | '0' :: 'x' :: rest => trimZeroX rest
  | text => text

def hexValue (c : Char) : Option UInt8 :=
  if '0' ≤ c ∧ c ≤ '9' then some (UInt8.ofNat (c.toNat - 48))
  else if 'a' ≤ c ∧ c ≤ 'f' then some (UInt8.ofNat (c.toNat - 87))
  else if 'A' ≤ c ∧ c ≤ 'F' then some (UInt8.ofNat (c.toNat - 55))
  else none

/-- `hex::decode` -/
def hexDecode : List Char → Option (List UInt8)
  | [] => some []
  | [_] => none
  | high :: low :: rest => do
      let high ← hexValue high
      let low ← hexValue low
      let bytes ← hexDecode rest
      return (16 * high + low) :: bytes

def parseAddress (addr : String) : Option EthAddress := do
  let bytes ← hexDecode (trimZeroX addr.toList)
  if h : bytes.length = 20 then return ⟨bytes.toArray, by simp [h]⟩ else none

/-! ### The key -/

/-- A signing key with its public key, uncompressed. -/
structure Signer where
  key : SigningKey
  encodedPoint : Vector UInt8 65

/-- `SigningKey::from_bytes` of the `k256` crate. -/
structure K256 where
  fromBytes : List UInt8 → Option Signer

/-- The last 20 bytes of the hash of the public key without its first byte. -/
def signingKeyToAddress (signer : Signer) : EthAddress :=
  (signer.key.keccak256 (signer.encodedPoint.toList.drop 1)).drop 12

structure ArbitrumOracle where
  oraclePkHex : String
  escrowAddrHex : String
  enabled : Bool

def ArbitrumOracle.signingKey (oracle : ArbitrumOracle) (k256 : K256) : Option Signer := do
  k256.fromBytes (← hexDecode oracle.oraclePkHex.toList)

/-! ### The node -/

structure Receipt where
  status : Option String

/-- What a node knows of the chain, and how it answers to a transaction. -/
structure Chain where
  /-- the mined transactions of each account -/
  transactionCount : EthAddress → Nat
  gasPrice : Nat
  chainId : Nat
  admits : List UInt8 → Option String
  receipts : String → Option Receipt
  mempool : List (List UInt8)

/-- An encoded transaction with the key that signed it. -/
structure SignedTx where
  key : SigningKey
  tx : Eip1559Tx
  raw : List UInt8
  encoded : tx.signAndEncode key = some raw

inductive Rpc where
  /-- `eth_getTransactionCount` of the `latest` block -/
  | getTransactionCount (address : EthAddress)
  | gasPrice
  | chainId
  | sendRawTransaction (signed : SignedTx)
  | getTransactionReceipt (txHash : String)

namespace Rpc

abbrev Answer : Rpc → Type
  | getTransactionCount _ => UInt64
  | gasPrice => U128
  | chainId => UInt64
  | sendRawTransaction _ => String
  | getTransactionReceipt _ => Option Receipt

/-- A number that does not fit its type is an error of the caller, as is every error of the node. -/
def exec : (q : Rpc) → Chain → Option (q.Answer × Chain)
  | getTransactionCount address, c =>
      if c.transactionCount address < 2 ^ 64 then
        some (UInt64.ofNat (c.transactionCount address), c)
      else none
  | gasPrice, c => if c.gasPrice < 2 ^ 128 then some (BitVec.ofNat 128 c.gasPrice, c) else none
  | chainId, c => if c.chainId < 2 ^ 64 then some (UInt64.ofNat c.chainId, c) else none
  | sendRawTransaction signed, c =>
      (c.admits signed.raw).map fun txHash => (txHash, { c with mempool := c.mempool ++ [signed.raw] })
  | getTransactionReceipt txHash, c => some (c.receipts txHash, c)

end Rpc

/-- Blocks come and prices move; what was mined stays mined. -/
def Chain.Advances (c d : Chain) : Prop :=
  ∀ address, c.transactionCount address ≤ d.transactionCount address

/-! ### `send_tx` -/

inductive SendError where
  | signingKey | rpc | address | signing
  | timedOut (txHash : String) (attempts : Nat)
  | reverted (txHash : String)

/-- A call of the oracle: its calldata goes in, the hash of the transaction comes out. -/
abbrev Call := Program Rpc.Answer (Except SendError String)

abbrev askNode (q : Rpc) (next : q.Answer → Call) : Call := askOr (.error .rpc) q next

/-- One request every two seconds until there is a receipt. -/
def waitForReceipt (txHash : String) (maxAttempts : Nat) (next : Receipt → Call) : Nat → Call
  | 0 => .done (.error (.timedOut txHash maxAttempts))
  | left + 1 =>
      askNode (.getTransactionReceipt txHash) fun
        | some receipt => next receipt
        | none => waitForReceipt txHash maxAttempts next left

/-- The transaction that `send_tx` builds from what the node told it. A `u128` wraps around, as in a
release build. -/
def settlementTx (nonce : UInt64) (gasPrice : U128) (chainId : UInt64) (toAddr : EthAddress)
    (calldata : Vec) : Eip1559Tx :=
  let priorityFee : U128 := 100000000
  { chainId
    nonce
    maxPriorityFeePerGas := priorityFee
    maxFeePerGas := gasPrice * 3 / 2 + priorityFee
    gasLimit := 150000
    toAddr
    value := 0
    data := calldata
    accessList := .new }

def sendSigned (signed : SignedTx) : Call :=
  askNode (.sendRawTransaction signed) fun txHash =>
  waitForReceipt txHash 30 (fun receipt =>
    if receipt.status.getD "0x0" = "0x1" then .done (.ok txHash)
    else .done (.error (.reverted txHash))) 30

def signAndSend (key : SigningKey) (tx : Eip1559Tx) : Call :=
  match h : tx.signAndEncode key with
  | none => .done (.error .signing)
  | some raw => sendSigned ⟨key, tx, raw, h⟩

def sendTx (k256 : K256) (oracle : ArbitrumOracle) (calldata : Vec) : Call :=
  match oracle.signingKey k256 with
  | none => .done (.error .signingKey)
  | some signer =>
      askNode (.getTransactionCount (signingKeyToAddress signer)) fun nonce =>
      askNode .gasPrice fun gasPrice =>
      askNode .chainId fun chainId =>
      match parseAddress oracle.escrowAddrHex with
      | none => .done (.error .address)
      | some toAddr =>
          signAndSend signer.key (settlementTx nonce gasPrice chainId toAddr calldata)

end NeuralMesh.Ledger
