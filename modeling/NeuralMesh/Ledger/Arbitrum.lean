import NeuralMesh.Base.Rlp

/-!
# The transactions of the settlement oracle

`ledger/src/on_chain/arbitrum.rs`: the EIP-1559 transaction and the RLP helpers it is built with. The
hash and the signature come from other crates; a signing key is what it answers.
-/

namespace NeuralMesh.Ledger

/-- A `Vec<u8>`; it holds at most `isize::MAX` bytes. -/
abbrev Vec := { bytes : List UInt8 // bytes.length < 2 ^ 63 }

/-- `Vec::new()` -/
def Vec.new : Vec := ⟨[], by decide⟩

abbrev U128 := BitVec 128

/-- `as u128` -/
def asU128 (val : UInt64) : U128 := BitVec.ofNat 128 val.toNat

/-! ### RLP helpers -/

/-- `&bytes[start..]`, from the first byte that is not zero, or else from `last` on. -/
def fromFirstNonzero (bytes : List UInt8) (last : Nat) : List UInt8 :=
  bytes.drop ((bytes.findIdx? fun b => b ≠ 0).getD last)

def rlpUintBytes (val : UInt64) : List UInt8 := fromFirstNonzero (toBigEndian 8 val.toNat) 7

def rlpLengthEncode (len : Nat) : List UInt8 :=
  if len < 56 then [0x80 + UInt8.ofNat len]
  else
    let lenBytes := rlpUintBytes (UInt64.ofNat len)
    [0xB7 + UInt8.ofNat lenBytes.length] ++ lenBytes

def rlpAppendUint (buf : List UInt8) (val : U128) : List UInt8 :=
  if val = 0 then buf ++ [0x80]
  else
    let bytes := fromFirstNonzero (toBigEndian 16 val.toNat) 15
    -- a single byte below 0x80 is its own encoding
    if bytes.length = 1 ∧ bytes.headD 0 < 0x80 then buf ++ [bytes.headD 0]
    else buf ++ rlpLengthEncode bytes.length ++ bytes

def rlpAppendBytes (buf data : List UInt8) : List UInt8 :=
  if data = [] then buf ++ [0x80] else buf ++ rlpLengthEncode data.length ++ data

def rlpEncodeList (contents : List UInt8) : List UInt8 :=
  let len := contents.length
  let head :=
    if len < 56 then [0xC0 + UInt8.ofNat len]
    else
      let lenBytes := rlpUintBytes (UInt64.ofNat len)
      [0xF7 + UInt8.ofNat lenBytes.length] ++ lenBytes
  head ++ contents

/-! ### The transaction -/

structure Eip1559Tx where
  chainId : UInt64
  nonce : UInt64
  maxPriorityFeePerGas : U128
  maxFeePerGas : U128
  gasLimit : UInt64
  toAddr : Vector UInt8 20
  value : U128
  data : Vec
  accessList : Vec

/-- `keccak256` and `sign_prehash_recoverable` of a key. -/
structure SigningKey where
  keccak256 : List UInt8 → Vector UInt8 32
  sign : Vector UInt8 32 → Option (Vector UInt8 64 × UInt8)

namespace Eip1559Tx

/-- The nine fields, as both encodings begin. -/
def appendFields (tx : Eip1559Tx) : List UInt8 :=
  let rlp := rlpAppendUint [] (asU128 tx.chainId)
  let rlp := rlpAppendUint rlp (asU128 tx.nonce)
  let rlp := rlpAppendUint rlp tx.maxPriorityFeePerGas
  let rlp := rlpAppendUint rlp tx.maxFeePerGas
  let rlp := rlpAppendUint rlp (asU128 tx.gasLimit)
  let rlp := rlpAppendBytes rlp tx.toAddr.toList
  let rlp := rlpAppendUint rlp tx.value
  let rlp := rlpAppendBytes rlp tx.data.val
  rlpAppendBytes rlp tx.accessList.val

def signingPayload (tx : Eip1559Tx) : List UInt8 := [0x02] ++ rlpEncodeList tx.appendFields

def signAndEncode (tx : Eip1559Tx) (signingKey : SigningKey) : Option (List UInt8) := do
  let (sigBytes, recid) ← signingKey.sign (signingKey.keccak256 tx.signingPayload)
  let r := sigBytes.toList.take 32
  let s := sigBytes.toList.drop 32
  let v : U128 := BitVec.ofNat 128 recid.toNat
  let rlp := rlpAppendUint tx.appendFields v
  let rlp := rlpAppendBytes rlp r
  let rlp := rlpAppendBytes rlp s
  return [0x02] ++ rlpEncodeList rlp

end Eip1559Tx

end NeuralMesh.Ledger
