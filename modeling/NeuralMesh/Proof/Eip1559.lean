import NeuralMesh.Ledger.Arbitrum

/-!
# What a node makes of the oracle's transactions

A node reads an EIP-1559 transaction as `0x02` and an RLP list, of nine items to be signed and of
twelve when signed. The RLP helpers write canonical integers, addresses and calldata; the access
list, however, goes out as an empty byte string where a list is due.
-/

namespace NeuralMesh.Ledger

open Rlp

/-! ### The strict reader -/

/-- The fields of an EIP-1559 transaction. -/
structure TxFields where
  chainId : Nat
  nonce : Nat
  maxPriorityFeePerGas : Nat
  maxFeePerGas : Nat
  gasLimit : Nat
  toAddr : List UInt8
  value : Nat
  data : List UInt8
  accessList : List (List UInt8 × List (List UInt8))
  deriving DecidableEq

/-- An integer of at most `width` bytes, without leading zeros. -/
def readUint (width : Nat) : Item → Option Nat
  | .bytes bytes =>
      if bytes.length ≤ width ∧ bytes.head? ≠ some 0 then some (ofBigEndian bytes) else none
  | .list _ => none

def readBytes : Item → Option (List UInt8)
  | .bytes bytes => some bytes
  | .list _ => none

def readFixed (width : Nat) (item : Item) : Option (List UInt8) :=
  (readBytes item).filter fun bytes => bytes.length = width

/-- An address, or nothing where a contract is created. -/
def readTo (item : Item) : Option (List UInt8) :=
  (readBytes item).filter fun bytes => bytes.length = 20 ∨ bytes = []

def readAccess : Item → Option (List UInt8 × List (List UInt8))
  | .list [address, .list storageKeys] => do
      return (← readFixed 20 address, ← storageKeys.mapM (readFixed 32))
  | _ => none

def readAccessList : Item → Option (List (List UInt8 × List (List UInt8)))
  | .list entries => entries.mapM readAccess
  | .bytes _ => none

def readFields : List Item → Option TxFields
  | [chainId, nonce, maxPriorityFeePerGas, maxFeePerGas, gasLimit, toAddr, value, data,
      accessList] => do
      return {
        chainId := ← readUint 32 chainId
        nonce := ← readUint 8 nonce
        maxPriorityFeePerGas := ← readUint 32 maxPriorityFeePerGas
        maxFeePerGas := ← readUint 32 maxFeePerGas
        gasLimit := ← readUint 8 gasLimit
        toAddr := ← readTo toAddr
        value := ← readUint 32 value
        data := ← readBytes data
        accessList := ← readAccessList accessList }
  | _ => none

/-- The items of a typed transaction. -/
def readItems : List UInt8 → Option (List Item)
  | 0x02 :: bytes =>
      match decode bytes with
      | some (.list items) => some items
      | _ => none
  | _ => none

/-- The transaction to be signed. -/
def readUnsigned (bytes : List UInt8) : Option TxFields := (readItems bytes).bind readFields

/-- The signed transaction: its fields, the parity, `r` and `s`. -/
def readSigned (bytes : List UInt8) : Option (TxFields × Nat × Nat × Nat) := do
  let items ← readItems bytes
  let fields ← readFields (items.take 9)
  match items.drop 9 with
  | [v, r, s] =>
      let yParity ← readUint 1 v
      if 1 < yParity then none
      else return (fields, yParity, ← readUint 32 r, ← readUint 32 s)
  | _ => none

namespace Eip1559Tx

/-- What the transaction says, when its access list is empty. -/
def fields (tx : Eip1559Tx) : TxFields where
  chainId := tx.chainId.toNat
  nonce := tx.nonce.toNat
  maxPriorityFeePerGas := tx.maxPriorityFeePerGas.toNat
  maxFeePerGas := tx.maxFeePerGas.toNat
  gasLimit := tx.gasLimit.toNat
  toAddr := tx.toAddr.toList
  value := tx.value.toNat
  data := tx.data.val
  accessList := []

/-- A node reads both encodings as what the transaction says. -/
def Conforms (tx : Eip1559Tx) (signature : Vector UInt8 64) (recid : UInt8) : Prop :=
  readUnsigned tx.signingPayload = some tx.fields ∧
    ∀ signingKey : SigningKey,
      signingKey.sign (signingKey.keccak256 tx.signingPayload) = some (signature, recid) →
      ∃ raw ∈ tx.signAndEncode signingKey,
        readSigned raw = some (tx.fields, recid.toNat, ofBigEndian (signature.toList.take 32),
          ofBigEndian (signature.toList.drop 32))

end Eip1559Tx

/-! ### The helpers -/

theorem fromFirstNonzero_eq {bytes : List UInt8} (last : Nat)
    (hnonzero : bytes.dropWhile (fun b => b = 0) ≠ []) :
    fromFirstNonzero bytes last = bytes.dropWhile fun b => b = 0 := by
  have hdrop : bytes.dropWhile (fun b => decide (b = 0)) =
      bytes.drop (bytes.findIdx fun b => decide (b ≠ 0)) := by
    rw [List.dropWhile_eq_drop_findIdx_not]
    simp only [ne_eq, decide_not]
  rw [hdrop] at hnonzero ⊢
  have hlt : bytes.findIdx (fun b => decide (b ≠ 0)) < bytes.length := by
    by_contra hle
    exact hnonzero (List.drop_eq_nil_of_le (Nat.le_of_not_lt hle))
  rw [fromFirstNonzero, List.findIdx?_eq_some_iff_findIdx_eq.mpr ⟨hlt, rfl⟩, Option.getD_some]

/-- The bytes the helpers keep of a number. -/
theorem fromFirstNonzero_toBigEndian {width n : Nat} (hn : n < 256 ^ width) (hpos : n ≠ 0)
    (last : Nat) : fromFirstNonzero (toBigEndian width n) last = minimalBigEndian width n :=
  fromFirstNonzero_eq last fun hnil => hpos ((minimal_eq_nil_iff hn).mp hnil)

theorem rlpUintBytes_eq {len : Nat} (hlen : len < 2 ^ 64) (hpos : len ≠ 0) :
    rlpUintBytes (UInt64.ofNat len) = minimalBigEndian 8 len := by
  have hvalue : (UInt64.ofNat len).toNat = len := UInt64.toNat_ofNat_of_lt' hlen
  rw [rlpUintBytes, hvalue, fromFirstNonzero_toBigEndian (by omega) hpos]

theorem rlpLengthEncode_eq {len : Nat} (hlen : len < 2 ^ 64) :
    rlpLengthEncode len = header 0x80 len := by
  rw [rlpLengthEncode, header]
  split
  · rfl
  · rw [rlpUintBytes_eq hlen (by omega)]
    rfl

theorem rlpEncodeList_eq {contents : List UInt8} (hlen : contents.length < 2 ^ 64) :
    rlpEncodeList contents = header 0xC0 contents.length ++ contents := by
  rw [rlpEncodeList, header]
  dsimp only
  split
  · rfl
  · rw [rlpUintBytes_eq hlen (by omega)]
    rfl

theorem rlpAppendBytes_eq (buf : List UInt8) {data : List UInt8} (hlen : data.length < 2 ^ 64) :
    rlpAppendBytes buf data = buf ++ (header 0x80 data.length ++ data) := by
  rw [rlpAppendBytes]
  split
  · rename_i hnil
    subst hnil
    rfl
  · rw [rlpLengthEncode_eq hlen, List.append_assoc]

/-- An integer is written without leading zeros. -/
theorem rlpAppendUint_eq (buf : List UInt8) (val : U128) :
    rlpAppendUint buf val = buf ++ encode (.bytes (minimalBigEndian 16 val.toNat)) := by
  have hval : val.toNat < 256 ^ 16 := val.isLt
  rw [rlpAppendUint, encode, encodeBytes]
  split
  · rename_i hzero
    rw [hzero]
    rfl
  · rename_i hpos
    have hne : val.toNat ≠ 0 := fun h => hpos (BitVec.eq_of_toNat_eq h)
    have hle := length_minimal_le 16 val.toNat
    rw [fromFirstNonzero_toBigEndian hval hne]
    generalize minimalBigEndian 16 val.toNat = bytes at hle
    dsimp only
    rcases bytes with _ | ⟨b, _ | ⟨c, bytes⟩⟩
    · rw [if_neg (by simp), if_neg (by simp), rlpLengthEncode_eq (by simp), List.append_assoc]
    · by_cases hb : b < 0x80
      · rw [if_pos (by simpa using hb), if_pos (by simpa using hb)]
        rfl
      · rw [if_neg (by simpa using hb), if_neg (by simpa using hb), rlpLengthEncode_eq (by simp),
          List.append_assoc]
    · rw [if_neg (by simp), if_neg (by simp), rlpLengthEncode_eq (by omega), List.append_assoc]

theorem encode_of_length_ne {data : List UInt8} (hlength : data.length ≠ 1) :
    encode (.bytes data) = header 0x80 data.length ++ data := by
  rw [encode, encodeBytes, if_neg fun h => hlength h.1]

/-! ### What is written -/

namespace Eip1559Tx

variable (tx : Eip1559Tx)

/-- The items before the calldata. -/
def leading : List Item :=
  [.bytes (minimalBigEndian 16 tx.chainId.toNat), .bytes (minimalBigEndian 16 tx.nonce.toNat),
    .bytes (minimalBigEndian 16 tx.maxPriorityFeePerGas.toNat),
    .bytes (minimalBigEndian 16 tx.maxFeePerGas.toNat),
    .bytes (minimalBigEndian 16 tx.gasLimit.toNat), .bytes tx.toAddr.toList,
    .bytes (minimalBigEndian 16 tx.value.toNat)]

/-- The item written for the access list is no list. -/
def written : List Item := tx.leading ++ [.bytes tx.data.val, .bytes []]

/-- The calldata is one byte that is its own encoding. -/
def SmallData : Prop := tx.data.val.length = 1 ∧ ∀ b ∈ tx.data.val, b < 0x80

theorem asU128_toNat (val : UInt64) : (asU128 val).toNat = val.toNat := by
  rw [asU128, BitVec.toNat_ofNat]
  exact Nat.mod_eq_of_lt (lt_trans val.toNat_lt (by decide))

variable {tx}

theorem appendFields_eq (hempty : tx.accessList.val = []) :
    tx.appendFields = encodeAll tx.leading ++
      (header 0x80 tx.data.val.length ++ (tx.data.val ++ [0x80])) := by
  have hdata : tx.data.val.length < 2 ^ 64 := lt_trans tx.data.property (by decide)
  have hto : ∀ buf, rlpAppendBytes buf tx.toAddr.toList =
      buf ++ encode (.bytes tx.toAddr.toList) := by
    intro buf
    have hlength : tx.toAddr.toList.length = 20 := tx.toAddr.length_toList
    rw [rlpAppendBytes_eq buf (by omega), encode_of_length_ne (by omega)]
  have hlist : ∀ buf, rlpAppendBytes buf [] = buf ++ [0x80] := fun buf => if_pos rfl
  rw [appendFields, hempty, hlist, rlpAppendBytes_eq _ hdata, hto]
  simp only [rlpAppendUint_eq, asU128_toNat, leading, encodeAll, List.nil_append, List.append_nil,
    List.append_assoc]

theorem appendFields_written (hempty : tx.accessList.val = []) (hdata : ¬ tx.SmallData) :
    tx.appendFields = encodeAll tx.written := by
  have hbytes : encode (.bytes tx.data.val) = header 0x80 tx.data.val.length ++ tx.data.val := by
    rw [encode, encodeBytes]
    exact if_neg hdata
  rw [appendFields_eq hempty, written, encodeAll_append, encodeAll, encodeAll, encodeAll, hbytes,
    List.append_assoc, List.append_nil]
  rfl

theorem allFit_leading : AllFit tx.leading := by
  have hminimal : ∀ n, (minimalBigEndian 16 n).length < 2 ^ 64 := fun n =>
    lt_of_le_of_lt (length_minimal_le 16 n) (by decide)
  have hto : tx.toAddr.toList.length < 2 ^ 64 := by
    rw [tx.toAddr.length_toList]
    decide
  exact ⟨hminimal _, hminimal _, hminimal _, hminimal _, hminimal _, hto, hminimal _, trivial⟩

theorem length_leading_le : (encodeAll tx.leading).length ≤ 179 := by
  have hminimal : ∀ n, (encode (.bytes (minimalBigEndian 16 n))).length ≤ 25 := by
    intro n
    have hle := length_encodeBytes_le (minimalBigEndian 16 n)
    have hwidth := length_minimal_le 16 n
    rw [encode]
    omega
  have hto : (encode (.bytes tx.toAddr.toList)).length ≤ 29 := by
    have hle := length_encodeBytes_le tx.toAddr.toList
    rw [tx.toAddr.length_toList] at hle
    rw [encode]
    exact hle
  have hchain := hminimal tx.chainId.toNat
  have hnonce := hminimal tx.nonce.toNat
  have hpriority := hminimal tx.maxPriorityFeePerGas.toNat
  have hfee := hminimal tx.maxFeePerGas.toNat
  have hgas := hminimal tx.gasLimit.toNat
  have hvalue := hminimal tx.value.toNat
  simp only [leading, encodeAll, List.length_append, List.length_nil]
  omega

theorem length_appendFields_le (hempty : tx.accessList.val = []) :
    tx.appendFields.length ≤ tx.data.val.length + 189 := by
  have hleading : (encodeAll tx.leading).length ≤ 179 := length_leading_le
  have hheader := length_header_le 0x80 tx.data.val.length
  rw [appendFields_eq hempty]
  simp only [List.length_append, List.length_singleton]
  omega

/-- One small byte of calldata is written under a size of its own, and nothing reads it. -/
theorem decodeItems_smallData (hempty : tx.accessList.val = []) (hdata : tx.SmallData)
    {tail : List UInt8} {fuel : Nat} (hfuel : 2 * (tx.appendFields ++ tail).length < fuel) :
    decodeItems fuel (tx.appendFields ++ tail) = none := by
  have hlength : tx.data.val.length < 2 ^ 64 := lt_trans tx.data.property (by decide)
  obtain ⟨d, sizeBytes, -, hheader, -⟩ := header_eq 0x80 hlength
  have hnonempty : header 0x80 tx.data.val.length ++ (tx.data.val ++ ([0x80] ++ tail)) ≠ [] := by
    rw [hheader]
    exact List.cons_ne_nil _ _
  have hseven : tx.leading.length = 7 := rfl
  have hleading := length_le_encodeAll tx.leading
  have hlong : 2 * (encodeAll tx.leading).length + 2 < fuel := by
    rw [appendFields_eq hempty, hheader] at hfuel
    simp only [List.length_append, List.length_cons] at hfuel
    omega
  obtain ⟨fuel', hfuel'⟩ : ∃ fuel', fuel - tx.leading.length = fuel' + 1 + 1 :=
    ⟨fuel - tx.leading.length - 2, by omega⟩
  have hnone : decodeItem (fuel' + 1)
      (header 0x80 tx.data.val.length ++ (tx.data.val ++ ([0x80] ++ tail))) = none := by
    rw [decodeItem_sized hlength]
    exact if_pos hdata
  rw [appendFields_eq hempty, List.append_assoc, List.append_assoc, List.append_assoc,
    decodeItems_encodeAll _ _ allFit_leading (by omega), hfuel', decodeItems_of_none hnonempty hnone,
    Option.map_none]

end Eip1559Tx

/-! ### What is read -/

/-- The items of a list of items, read whole. -/
theorem readItems_list {contents : List UInt8} (hlength : contents.length < 2 ^ 64) :
    ∃ fuel, 2 * contents.length < fuel ∧
      readItems ([0x02] ++ rlpEncodeList contents) = decodeItems fuel contents := by
  obtain ⟨fuel, hfuel, hdecode⟩ := decode_list hlength
  refine ⟨fuel, hfuel, ?_⟩
  rw [rlpEncodeList_eq hlength, List.singleton_append, readItems, hdecode]
  cases decodeItems fuel contents <;> rfl

/-- Where a byte string stands for the access list, there are no fields. -/
theorem readFields_written (tx : Eip1559Tx) : readFields tx.written = none := by
  simp [Eip1559Tx.written, Eip1559Tx.leading, readFields, readAccessList]

namespace Eip1559Tx

variable {tx : Eip1559Tx}

/-- A node finds no items, or those that are written. -/
theorem readItems_fields (hempty : tx.accessList.val = []) {others : List Item}
    (hfit : AllFit others) (hlength : (encodeAll others).length ≤ 2 ^ 62) :
    readItems ([0x02] ++ rlpEncodeList (tx.appendFields ++ encodeAll others)) = none ∨
      readItems ([0x02] ++ rlpEncodeList (tx.appendFields ++ encodeAll others)) =
        some (tx.written ++ others) := by
  have hdata : tx.data.val.length < 2 ^ 63 := tx.data.property
  have hfields := length_appendFields_le hempty
  have hcontents : (tx.appendFields ++ encodeAll others).length < 2 ^ 64 := by
    rw [List.length_append]
    omega
  obtain ⟨fuel, hfuel, hread⟩ := readItems_list hcontents
  rw [hread]
  by_cases hsmall : tx.SmallData
  · exact .inl (decodeItems_smallData hempty hsmall hfuel)
  · right
    have hfits : AllFit tx.leading := allFit_leading
    obtain ⟨hchain, hnonce, hpriority, hfee, hgas, hto, hvalue, -⟩ := hfits
    have hall : AllFit (tx.written ++ others) :=
      ⟨hchain, hnonce, hpriority, hfee, hgas, hto, hvalue, lt_trans hdata (by decide),
        (by decide : 0 < 2 ^ 64), hfit⟩
    rw [appendFields_written hempty hsmall, ← encodeAll_append] at hfuel ⊢
    have hitems := decodeItems_encodeAll (tx.written ++ others) [] hall hfuel
    rw [List.append_nil, decodeItems, Option.map_some, List.append_nil] at hitems
    exact hitems

/-- The items a signature adds. -/
def signatureItems (signature : Vector UInt8 64) (recid : UInt8) : List Item :=
  [.bytes (minimalBigEndian 16 recid.toNat), .bytes (signature.toList.take 32),
    .bytes (signature.toList.drop 32)]

theorem signAndEncode_eq {signingKey : SigningKey} {raw : List UInt8}
    (hraw : tx.signAndEncode signingKey = some raw) :
    ∃ signature recid, signingKey.sign (signingKey.keccak256 tx.signingPayload) =
        some (signature, recid) ∧
      raw = [0x02] ++ rlpEncodeList (tx.appendFields ++ encodeAll (signatureItems signature recid)) := by
  obtain ⟨⟨signature, recid⟩, hsign, hencode⟩ := Option.bind_eq_some_iff.mp hraw
  refine ⟨signature, recid, hsign, ?_⟩
  have hhalf : (signature.toList.take 32).length = 32 ∧ (signature.toList.drop 32).length = 32 := by
    simp
  have hrecid : (BitVec.ofNat 128 recid.toNat).toNat = recid.toNat := by
    rw [BitVec.toNat_ofNat]
    exact Nat.mod_eq_of_lt (lt_trans recid.toNat_lt (by decide))
  rw [← Option.some.inj hencode, rlpAppendUint_eq, rlpAppendBytes_eq _ (by omega),
    rlpAppendBytes_eq _ (by omega), ← encode_of_length_ne (by omega),
    ← encode_of_length_ne (by omega), hrecid]
  simp only [signatureItems, encodeAll, List.append_nil, List.append_assoc]

theorem signatureItems_fit (signature : Vector UInt8 64) (recid : UInt8) :
    AllFit (signatureItems signature recid) ∧
      (encodeAll (signatureItems signature recid)).length ≤ 2 ^ 62 := by
  have hv := length_minimal_le 16 recid.toNat
  have hhalf : (signature.toList.take 32).length = 32 ∧ (signature.toList.drop 32).length = 32 := by
    simp
  have hlength := length_encodeBytes_le (minimalBigEndian 16 recid.toNat)
  have hr := length_encodeBytes_le (signature.toList.take 32)
  have hs := length_encodeBytes_le (signature.toList.drop 32)
  constructor
  · refine ⟨?_, ?_, ?_, trivial⟩ <;> rw [Fits] <;> omega
  · simp only [signatureItems, encodeAll, encode, List.length_append, List.length_nil]
    omega

/-- No transaction of the oracle with an empty access list is read, neither the payload that is
signed nor, under any signature, the transaction that is sent. -/
theorem never_read (tx : Eip1559Tx) (hempty : tx.accessList.val = []) (signingKey : SigningKey) :
    readUnsigned tx.signingPayload = none ∧
      ∀ raw ∈ tx.signAndEncode signingKey, readSigned raw = none := by
  constructor
  · have hitems := readItems_fields hempty (show AllFit [] from trivial) (Nat.zero_le _)
    rw [encodeAll, List.append_nil, List.append_nil] at hitems
    rw [readUnsigned, signingPayload]
    rcases hitems with hnone | hsome
    · rw [hnone, Option.bind_none]
    · rw [hsome, Option.bind_some, readFields_written]
  · intro raw hraw
    obtain ⟨signature, recid, -, rfl⟩ := signAndEncode_eq hraw
    obtain ⟨hfit, hlength⟩ := signatureItems_fit signature recid
    rw [readSigned]
    rcases readItems_fields hempty hfit hlength with hnone | hsome
    · rw [hnone]
      rfl
    · have hnine : (tx.written ++ signatureItems signature recid).take 9 = tx.written := rfl
      rw [hsome]
      simp only [Option.bind_eq_bind, Option.bind_some, hnine, readFields_written, Option.bind_none]

/-- A call of the escrow contract; the calldata is cut short. -/
def sampleTx : Eip1559Tx where
  chainId := 421614
  nonce := 0
  maxPriorityFeePerGas := 100000000
  maxFeePerGas := 250000000
  gasLimit := 150000
  toAddr := Vector.replicate 20 0x11
  value := 0
  data := ⟨[0xDE, 0xAD, 0xBE, 0xEF], by decide⟩
  accessList := .new

/-- `r` and `s` of its payload under the key `0x46..46`, the 32 bytes `0x46`. -/
def sampleSignature : Vector UInt8 64 :=
  ⟨(toBigEndian 32 0x966e66cea269a7869a40b9e5d55d6b27855271911b153302ef7234225aea5f52 ++
    toBigEndian 32 0x5bde7b8baecf0a0f09e91b97acd950647e9d8d2ce6b3e325851d53feed1c622b).toArray,
    by simp⟩

/-- What hash and key answer for it. -/
def sampleKey : SigningKey where
  keccak256 _ :=
    ⟨(toBigEndian 32 0x9c97cc6a23b9eefabf7f2f7756e8dcab4d48c9e89e4d5c5bd78d160b443767df).toArray,
      by simp⟩
  sign _ := some (sampleSignature, 1)

theorem never_read_sample :
    readUnsigned sampleTx.signingPayload = none ∧
      ∀ raw ∈ sampleTx.signAndEncode sampleKey, readSigned raw = none :=
  never_read sampleTx rfl sampleKey

/-- What is signed is not what the transaction says. -/
theorem not_conforms : ¬ sampleTx.Conforms sampleSignature 1 := by
  intro hconforms
  have hnone : readUnsigned sampleTx.signingPayload = none := by decide +kernel
  rw [hconforms.1] at hnone
  cases hnone

/-- With a list in its place the same fields are read. -/
example : readUnsigned ([0x02] ++ rlpEncodeList (encodeAll (sampleTx.leading ++
    [.bytes sampleTx.data.val, .list []]))) = some sampleTx.fields := by decide +kernel

end Eip1559Tx

end NeuralMesh.Ledger
