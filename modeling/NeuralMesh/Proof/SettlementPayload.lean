import NeuralMesh.Proof.Calldata
import NeuralMesh.Proof.Eip1559
import NeuralMesh.Proof.OracleNonces

/-!
# One signature, one settlement

The oracle signs the hash of a payload. Whatever can be said against its access list, every other
field can be read back from the payload, and the settlement from the calldata in it. So a signature
covers one settlement, at one nonce of one chain, and what was signed once is no other transaction.
-/

namespace NeuralMesh.Ledger

open Rlp

/-! ### Transactions -/

namespace Eip1559Tx

variable {tx tx' : Eip1559Tx}

/-- The items of what is written, with more of them behind. -/
theorem readItems_written (hempty : tx.accessList.val = []) (hdata : ¬ tx.SmallData)
    {others : List Item} (hfit : AllFit others) (hlength : (encodeAll others).length ≤ 2 ^ 62) :
    readItems ([0x02] ++ rlpEncodeList (tx.appendFields ++ encodeAll others)) =
      some (tx.written ++ others) := by
  have hbytes : tx.data.val.length < 2 ^ 63 := tx.data.property
  have hfields := length_appendFields_le hempty
  have hcontents : (tx.appendFields ++ encodeAll others).length < 2 ^ 64 := by
    rw [List.length_append]
    omega
  obtain ⟨fuel, hfuel, hread⟩ := readItems_list hcontents
  have hleading : AllFit tx.leading := allFit_leading
  obtain ⟨hchain, hnonce, hpriority, hfee, hgas, hto, hvalue, -⟩ := hleading
  have hall : AllFit (tx.written ++ others) :=
    ⟨hchain, hnonce, hpriority, hfee, hgas, hto, hvalue, lt_trans hbytes (by decide),
      (by decide : 0 < 2 ^ 64), hfit⟩
  rw [appendFields_written hempty hdata, ← encodeAll_append] at hfuel hread ⊢
  have hitems := decodeItems_encodeAll (tx.written ++ others) [] hall hfuel
  rw [List.append_nil, decodeItems, Option.map_some, List.append_nil] at hitems
  rw [hread, hitems]

theorem minimal_injective {m n : Nat} (hm : m < 256 ^ 16) (hn : n < 256 ^ 16)
    (hsame : minimalBigEndian 16 m = minimalBigEndian 16 n) : m = n := by
  rw [← ofBigEndian_minimal hm, ← ofBigEndian_minimal hn, hsame]

/-- The items say everything about the transaction but its access list. -/
theorem written_injective (hempty : tx.accessList.val = []) (hempty' : tx'.accessList.val = [])
    (hsame : tx.written = tx'.written) : tx = tx' := by
  have hword : ∀ val : UInt64, val.toNat < 256 ^ 16 := fun val =>
    lt_trans val.toNat_lt (by decide)
  have hwide : ∀ val : U128, val.toNat < 256 ^ 16 := fun val => val.isLt
  simp only [written, leading, List.cons_append, List.nil_append, List.cons.injEq,
    Item.bytes.injEq, and_true] at hsame
  obtain ⟨hchain, hnonce, hpriority, hfee, hgas, hto, hvalue, hdata⟩ := hsame
  have hlist : tx.accessList = tx'.accessList := Subtype.ext (hempty.trans hempty'.symm)
  obtain ⟨chainId, nonce, priority, fee, gas, toAddr, value, data, accessList⟩ := tx
  obtain ⟨chainId', nonce', priority', fee', gas', toAddr', value', data', accessList'⟩ := tx'
  obtain rfl := UInt64.toNat_inj.mp (minimal_injective (hword chainId) (hword chainId') hchain)
  obtain rfl := UInt64.toNat_inj.mp (minimal_injective (hword nonce) (hword nonce') hnonce)
  obtain rfl := BitVec.eq_of_toNat_eq (minimal_injective (hwide priority) (hwide priority') hpriority)
  obtain rfl := BitVec.eq_of_toNat_eq (minimal_injective (hwide fee) (hwide fee') hfee)
  obtain rfl := UInt64.toNat_inj.mp (minimal_injective (hword gas) (hword gas') hgas)
  obtain rfl := BitVec.eq_of_toNat_eq (minimal_injective (hwide value) (hwide value') hvalue)
  obtain rfl := Subtype.ext hdata
  obtain rfl : toAddr = toAddr' := Vector.toList_inj.mp hto
  obtain rfl := hlist
  rfl

/-- The payload of a transaction, read back. -/
theorem readItems_payload (hempty : tx.accessList.val = []) (hdata : ¬ tx.SmallData) :
    readItems tx.signingPayload = some tx.written := by
  have hread := readItems_written hempty hdata (show AllFit [] from trivial) (Nat.zero_le _)
  rwa [encodeAll, List.append_nil, List.append_nil] at hread

theorem signingPayload_injective (hempty : tx.accessList.val = []) (hempty' : tx'.accessList.val = [])
    (hdata : ¬ tx.SmallData) (hdata' : ¬ tx'.SmallData)
    (hsame : tx.signingPayload = tx'.signingPayload) : tx = tx' := by
  have hread := readItems_payload hempty hdata
  rw [hsame, readItems_payload hempty' hdata'] at hread
  exact written_injective hempty hempty' (Option.some.inj hread).symm

/-- The transaction under a signature, read back. -/
theorem readItems_signed (hempty : tx.accessList.val = []) (hdata : ¬ tx.SmallData)
    {key : SigningKey} {raw : List UInt8} (hraw : tx.signAndEncode key = some raw) :
    ∃ signature recid, key.sign (key.keccak256 tx.signingPayload) = some (signature, recid) ∧
      readItems raw = some (tx.written ++ signatureItems signature recid) := by
  obtain ⟨signature, recid, hsign, rfl⟩ := signAndEncode_eq hraw
  obtain ⟨hfit, hlength⟩ := signatureItems_fit signature recid
  exact ⟨signature, recid, hsign, readItems_written hempty hdata hfit hlength⟩

end Eip1559Tx

/-! ### Settlements -/

/-- What the oracle asks of the escrow contract. -/
inductive Settlement where
  | release (jobId : Str) (costWei : U128)
  | cancel (jobId : Str)

/-- The calldata of `release_escrow` and of `cancel_escrow`. -/
def Settlement.calldata (crypto : Crypto) : Settlement → List UInt8
  | release jobId costWei =>
      crypto.selector "releaseEscrow(string,uint256)" ++ abiEncodeStringUint256 jobId.val costWei
  | cancel jobId => crypto.selector "cancelEscrow(string)" ++ abiEncodeString jobId.val

/-- The transaction carries the settlement, at some nonce and fees and to some contract. -/
def SignedTx.Settles (crypto : Crypto) (x : Settlement) (signed : SignedTx) : Prop :=
  ∃ nonce gasPrice chainId toAddr, ∃ hfits : (x.calldata crypto).length < 2 ^ 63,
    signed.tx = settlementTx nonce gasPrice chainId toAddr ⟨x.calldata crypto, hfits⟩

/-- A request that sends no transaction but those with the property. -/
def SendsOnly (P : SignedTx → Prop) (q : Rpc) : Prop :=
  ∀ signed, q = .sendRawTransaction signed → P signed

section

variable {crypto : Crypto} {oracle : ArbitrumOracle} {x y : Settlement}

theorem length_selector (sig : String) : (crypto.selector sig).length = 4 := by
  rw [Crypto.selector, List.length_take, Vector.length_toList]
  rfl

/-- Different settlements have different calldata, when the two functions have different selectors. -/
theorem Settlement.calldata_injective
    (hselectors : crypto.selector "releaseEscrow(string,uint256)" ≠
      crypto.selector "cancelEscrow(string)")
    (hsame : x.calldata crypto = y.calldata crypto) : x = y := by
  have hlength : (crypto.selector "releaseEscrow(string,uint256)").length =
      (crypto.selector "cancelEscrow(string)").length := by
    rw [length_selector, length_selector]
  cases x with
  | release jobId costWei =>
      cases y with
      | release jobId' costWei' =>
          have hargs := List.append_cancel_left hsame
          have hread := readStringUint256_abiEncodeStringUint256 jobId costWei
          rw [hargs, readStringUint256_abiEncodeStringUint256, Option.some.injEq,
            Prod.mk.injEq] at hread
          obtain ⟨hjob, hcost⟩ := hread
          rw [Subtype.ext hjob, BitVec.eq_of_toNat_eq hcost]
      | cancel jobId' => exact absurd (List.append_inj_left hsame hlength) hselectors
  | cancel jobId =>
      cases y with
      | release jobId' costWei' =>
          exact absurd (List.append_inj_left hsame hlength.symm).symm hselectors
      | cancel jobId' =>
          have hargs := List.append_cancel_left hsame
          have hread := readString_abiEncodeString jobId
          rw [hargs, readString_abiEncodeString, Option.some.injEq] at hread
          rw [Subtype.ext hread]

theorem Settlement.length_calldata (crypto : Crypto) (x : Settlement) : 4 ≤ (x.calldata crypto).length := by
  cases x <;> rw [calldata, List.length_append, length_selector] <;> exact Nat.le_add_right _ _

/-- What a settlement's transaction needs to be read back. -/
theorem SignedTx.Settles.readable {signed : SignedTx} (h : signed.Settles crypto x) :
    signed.tx.accessList.val = [] ∧ ¬ signed.tx.SmallData ∧ signed.tx.data.val = x.calldata crypto := by
  obtain ⟨nonce, gasPrice, chainId, toAddr, hfits, htx⟩ := h
  have hlength := x.length_calldata crypto
  rw [htx]
  refine ⟨rfl, ?_, rfl⟩
  intro hsmall
  have hone : (x.calldata crypto).length = 1 := hsmall.1
  omega

/-! ### What the oracle sends -/

theorem waitForReceipt_sendsOnly {P : SignedTx → Prop} {txHash : String} {attempts : Nat}
    {next : Receipt → Call} (hnext : ∀ receipt, (next receipt).Uses (SendsOnly P)) (left : Nat) :
    (waitForReceipt txHash attempts next left).Uses (SendsOnly P) := by
  induction left with
  | zero => trivial
  | succ left ih =>
      refine ⟨fun _ heq => (by cases heq), fun receipt => ?_, trivial⟩
      cases receipt with
      | none => exact ih
      | some receipt => exact hnext receipt

theorem signAndSend_sendsOnly {P : SignedTx → Prop} {key : SigningKey} {tx : Eip1559Tx}
    (hsigned : ∀ signed : SignedTx, signed.tx = tx → P signed) :
    (signAndSend key tx).Uses (SendsOnly P) := by
  rw [signAndSend]
  split
  · trivial
  · refine ⟨fun signed heq => ?_, fun txHash => ?_, trivial⟩
    · cases heq
      exact hsigned _ rfl
    · refine waitForReceipt_sendsOnly (fun receipt => ?_) 30
      split <;> trivial

/-- The only transaction a call sends carries the calldata it was given. -/
theorem sendCalldata_sendsOnly (crypto : Crypto) (oracle : ArbitrumOracle) (x : Settlement) :
    (sendCalldata crypto oracle (x.calldata crypto)).Uses
      (SendsOnly (SignedTx.Settles crypto x)) := by
  rw [sendCalldata]
  split
  · rename_i hfits
    rw [Program.uses_map, sendTx]
    split
    · trivial
    · refine ⟨fun _ heq => (by cases heq), fun nonce => ⟨fun _ heq => (by cases heq), fun gasPrice =>
        ⟨fun _ heq => (by cases heq), fun chainId => ?_, trivial⟩, trivial⟩, trivial⟩
      dsimp only
      split
      · trivial
      · rename_i toAddr _
        exact signAndSend_sendsOnly fun signed htx => ⟨nonce, gasPrice, chainId, toAddr, hfits, htx⟩
  · trivial

theorem releaseEscrow_sendsOnly (jobId : Str) (costNmc : ℚ) :
    (oracle.releaseEscrow crypto jobId.val costNmc).Uses (SendsOnly fun signed =>
      ∃ costWei, nmcToWeiU128 costNmc = .ok costWei ∧
        signed.Settles crypto (.release jobId costWei)) := by
  rw [ArbitrumOracle.releaseEscrow]
  split
  · trivial
  · split
    · trivial
    · rename_i costWei hwei
      have hsends := sendCalldata_sendsOnly crypto oracle (.release jobId costWei)
      refine hsends.mono fun q hq signed heq => ⟨costWei, hwei, hq signed heq⟩

theorem cancelEscrow_sendsOnly (jobId : Str) :
    (oracle.cancelEscrow crypto jobId.val).Uses
      (SendsOnly (SignedTx.Settles crypto (.cancel jobId))) := by
  rw [ArbitrumOracle.cancelEscrow]
  split
  · trivial
  · exact sendCalldata_sendsOnly crypto oracle (.cancel jobId)

end

/-- The sample key, and the hashes of the two signatures. -/
def sampleCrypto : Crypto where
  k256 := sampleK256
  keccak256 bytes :=
    if bytes = "releaseEscrow(string,uint256)".toUTF8.toList then
      ⟨(toBigEndian 32 0x0ef89efa5d056545ddbdd333f562fad300a3a17572d47efcd8074483c443becf).toArray,
        by simp⟩
    else
      ⟨(toBigEndian 32 0x220a91b60b160f5488c5850327d5ac43acfc617b8c49efbfad28bb5d15596a42).toArray,
        by simp⟩

end NeuralMesh.Ledger
