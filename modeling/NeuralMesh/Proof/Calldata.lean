import NeuralMesh.Base.Abi
import NeuralMesh.Base.Files
import NeuralMesh.Ledger.OnChain

/-!
# The calldata of a settlement

The two encoders write what the contract ABI writes for the same arguments, so the escrow contract
reads the job id and the cost that the ledger settled.
-/

namespace NeuralMesh.Ledger

/-- A `&str`; it holds at most `isize::MAX` bytes. -/
abbrev Str := { text : String // text.utf8ByteSize < 2 ^ 63 }

/-! ### Reading the arguments -/

/-- `abi.decode(data, (string))` -/
def readString (data : List UInt8) : Option String :=
  match Abi.decode [.string] data with
  | some [.string jobId] => fromUtf8 jobId
  | _ => none

/-- `abi.decode(data, (string, uint256))` -/
def readStringUint256 (data : List UInt8) : Option (String × Nat) :=
  match Abi.decode [.string, .uint256] data with
  | some [.string jobId, .uint256 actualCost] => (fromUtf8 jobId).map fun text => (text, actualCost)
  | _ => none

/-! ### The encoders -/

variable {s : Str}

theorem uint256Be_eq (val : U128) : uint256Be val = Abi.word val.toNat :=
  (toBigEndian_add (show val.toNat < 256 ^ 16 from val.isLt) 16).symm

theorem length_utf8_lt (s : Str) : (utf8 s.val).length < 2 ^ 63 := by
  rw [← utf8ByteSize_eq]
  exact s.property

theorem abiTail_eq (s : Str) : abiTail s.val = Abi.sized (utf8 s.val) := by
  have hlength := length_utf8_lt s
  have hcount : (BitVec.ofNat 128 (utf8 s.val).length).toNat = (utf8 s.val).length := by
    rw [BitVec.toNat_ofNat]
    omega
  rw [abiTail, toList_toUTF8, uint256Be_eq, hcount]
  rfl

theorem abiEncodeString_eq (s : Str) :
    abiEncodeString s.val = Abi.encode [.string (utf8 s.val)] := by
  rw [abiEncodeString, abiTail_eq, uint256Be_eq]
  simp [Abi.encode, Abi.heads, Abi.tails]

theorem abiEncodeStringUint256_eq (s : Str) (value : U128) :
    abiEncodeStringUint256 s.val value = Abi.encode [.string (utf8 s.val), .uint256 value.toNat] := by
  rw [abiEncodeStringUint256, abiTail_eq, uint256Be_eq, uint256Be_eq]
  simp [Abi.encode, Abi.heads, Abi.tails]

/-! ### Round trip -/

theorem abiEncodeString_encodes (s : Str) :
    Abi.Encodes (abiEncodeString s.val) [.string (utf8 s.val)] := by
  rw [abiEncodeString_eq]
  have hlength := length_utf8_lt s
  refine Abi.encodes_encode ⟨by simp, ?_⟩
  simp only [Abi.encode, Abi.tails, List.length_append, Abi.length_heads, Abi.length_sized,
    List.length_singleton, List.length_nil, Abi.padding]
  omega

theorem abiEncodeStringUint256_encodes (s : Str) (value : U128) :
    Abi.Encodes (abiEncodeStringUint256 s.val value)
      [.string (utf8 s.val), .uint256 value.toNat] := by
  rw [abiEncodeStringUint256_eq]
  have hlength := length_utf8_lt s
  have hvalue := value.isLt
  refine Abi.encodes_encode ⟨?_, ?_⟩
  · intro n hn
    simp only [List.mem_cons, reduceCtorEq, Abi.Value.uint256.injEq, List.not_mem_nil, or_false,
      false_or] at hn
    omega
  · simp only [Abi.encode, Abi.tails, List.length_append, Abi.length_heads, Abi.length_sized,
      List.length_cons, List.length_nil, Abi.padding]
    omega

theorem readString_abiEncodeString (s : Str) : readString (abiEncodeString s.val) = some s.val := by
  have hdecoded : Abi.decode [.string] (abiEncodeString s.val) = some [.string (utf8 s.val)] :=
    (abiEncodeString_encodes s).decoded
  rw [readString, hdecoded]
  exact fromUtf8_utf8 s.val

theorem readStringUint256_abiEncodeStringUint256 (s : Str) (value : U128) :
    readStringUint256 (abiEncodeStringUint256 s.val value) = some (s.val, value.toNat) := by
  have hdecoded : Abi.decode [.string, .uint256] (abiEncodeStringUint256 s.val value) =
      some [.string (utf8 s.val), .uint256 value.toNat] := (abiEncodeStringUint256_encodes s value).decoded
  rw [readStringUint256, hdecoded]
  dsimp only
  rw [fromUtf8_utf8, Option.map_some]

/-- For every job id and every amount, both encodings follow the ABI, and a decoder gets back what was
encoded. -/
theorem calldata_roundTrip (s : Str) (value : U128) :
    (readString (abiEncodeString s.val) = some s.val ∧
        Abi.Encodes (abiEncodeString s.val) [.string (utf8 s.val)]) ∧
      readStringUint256 (abiEncodeStringUint256 s.val value) = some (s.val, value.toNat) ∧
        Abi.Encodes (abiEncodeStringUint256 s.val value)
          [.string (utf8 s.val), .uint256 value.toNat] :=
  ⟨⟨readString_abiEncodeString s, abiEncodeString_encodes s⟩,
    readStringUint256_abiEncodeStringUint256 s value, abiEncodeStringUint256_encodes s value⟩

/-! ### The whole calldata -/

theorem drop_selector (crypto : Crypto) (sig : String) (args : List UInt8) :
    (crypto.selector sig ++ args).drop 4 = args :=
  List.drop_left' (by rw [Crypto.selector, List.length_take, Vector.length_toList]; rfl)

/-- The contract cuts off the selector and hashes the job id it finds behind it, for a release as for
a cancellation. -/
theorem contract_hashes_jobId (crypto : Crypto) (s : Str) (costWei : U128) {κ : Type}
    (hash : String → κ) :
    ((readStringUint256 ((crypto.selector "releaseEscrow(string,uint256)" ++
        abiEncodeStringUint256 s.val costWei).drop 4)).map fun args => hash args.1) =
        some (hash s.val) ∧
      ((readString ((crypto.selector "cancelEscrow(string)" ++ abiEncodeString s.val).drop 4)).map
        hash) = some (hash s.val) := by
  rw [drop_selector, drop_selector, readStringUint256_abiEncodeStringUint256,
    readString_abiEncodeString]
  exact ⟨rfl, rfl⟩

example : abiEncodeString "hello" =
    List.replicate 31 0 ++ [32] ++ List.replicate 31 0 ++ [5] ++ [104, 101, 108, 108, 111] ++
      List.replicate 27 0 := by decide +kernel

end NeuralMesh.Ledger
