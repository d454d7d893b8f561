import NeuralMesh.Base.Files
import Mathlib.Algebra.GroupWithZero.Nat

/-!
# Hexadecimal text

The `hex` crate: two digits a byte, small letters written and both read. The position in an error
counts the bytes of the text.
-/

namespace NeuralMesh.Hex

/-- `FromHexError` -/
inductive FromHexError where
  | oddLength
  | invalidHexCharacter (c : UInt8) (index : Nat)
  deriving DecidableEq

def FromHexError.display : FromHexError → String
  | .oddLength => "Odd number of digits"
  | .invalidHexCharacter c index =>
      "Invalid character " ++ (Char.ofNat c.toNat).quote ++ " at position " ++ toString index

/-- The value of a digit. -/
def value (c : UInt8) : Option UInt8 :=
  if 65 ≤ c ∧ c ≤ 70 then some (c - 65 + 10)
  else if 97 ≤ c ∧ c ≤ 102 then some (c - 97 + 10)
  else if 48 ≤ c ∧ c ≤ 57 then some (c - 48)
  else none

/-- Two digits at a time, the first of them at this position. -/
def decodePairs : Nat → Bytes → Except FromHexError Bytes
  | index, high :: low :: rest =>
      match value high, value low with
      | some h, some l => do return (16 * h + l) :: (← decodePairs (index + 2) rest)
      | none, _ => .error (.invalidHexCharacter high index)
      | some _, none => .error (.invalidHexCharacter low (index + 1))
  | _, _ => .ok []

/-- `hex::decode` -/
def decode (text : String) : Except FromHexError Bytes :=
  if (utf8 text).length % 2 ≠ 0 then .error .oddLength else decodePairs 0 (utf8 text)

def encodeByte (b : UInt8) : List Char :=
  [Nat.digitChar (b.toNat / 16), Nat.digitChar (b.toNat % 16)]

/-- `hex::encode` -/
def encode (bytes : Bytes) : String := String.ofList (bytes.flatMap encodeByte)

/-- The digits that are written are single bytes, which are read as what they stand for. -/
theorem value_digitChar {n : Nat} (hn : n < 16) :
    ∃ c, String.utf8EncodeChar (Nat.digitChar n) = [c] ∧ value c = some (UInt8.ofNat n) := by
  have hall : ∀ i : Fin 16, ∃ c : Fin 256, String.utf8EncodeChar (Nat.digitChar i) =
      [UInt8.ofNat c] ∧ value (UInt8.ofNat c) = some (UInt8.ofNat i) := by
    decide +kernel
  obtain ⟨c, hc⟩ := hall ⟨n, hn⟩
  exact ⟨_, hc⟩

theorem halves (b : UInt8) : 16 * UInt8.ofNat (b.toNat / 16) + UInt8.ofNat (b.toNat % 16) = b := by
  apply UInt8.toNat_inj.mp
  have hb := b.toNat_lt
  simp only [UInt8.toNat_add, UInt8.toNat_mul, UInt8.toNat_ofNat',
    show (16 : UInt8).toNat = 16 from rfl]
  omega

/-- The two digits of a byte, as bytes. -/
theorem encodeByte_eq (b : UInt8) :
    ∃ high low, (encodeByte b).flatMap String.utf8EncodeChar = [high, low] ∧
      value high = some (UInt8.ofNat (b.toNat / 16)) ∧
      value low = some (UInt8.ofNat (b.toNat % 16)) := by
  have hb := b.toNat_lt
  obtain ⟨high, hhigh, hvalue⟩ := value_digitChar (n := b.toNat / 16) (by omega)
  obtain ⟨low, hlow, hvalue'⟩ := value_digitChar (n := b.toNat % 16) (by omega)
  refine ⟨high, low, ?_, hvalue, hvalue'⟩
  rw [encodeByte, List.flatMap_cons, List.flatMap_singleton, hhigh, hlow]
  rfl

theorem utf8_encode (bytes : Bytes) :
    utf8 (encode bytes) =
      bytes.flatMap fun b => (encodeByte b).flatMap String.utf8EncodeChar := by
  rw [utf8, encode, String.toList_ofList, List.flatMap_assoc]

theorem utf8_encode_cons (b : UInt8) (bytes : Bytes) :
    utf8 (encode (b :: bytes)) =
      (encodeByte b).flatMap String.utf8EncodeChar ++ utf8 (encode bytes) := by
  rw [utf8_encode, utf8_encode, List.flatMap_cons]

theorem length_utf8_encode (bytes : Bytes) : (utf8 (encode bytes)).length = 2 * bytes.length := by
  induction bytes with
  | nil => rfl
  | cons b bytes ih =>
      obtain ⟨high, low, hdigits, -⟩ := encodeByte_eq b
      rw [utf8_encode_cons, hdigits, List.length_append, ih, List.length_cons]
      simp only [List.length_cons, List.length_nil]
      omega

theorem decodePairs_encode (bytes : Bytes) (index : Nat) :
    decodePairs index (utf8 (encode bytes)) = .ok bytes := by
  induction bytes generalizing index with
  | nil => rfl
  | cons b bytes ih =>
      obtain ⟨high, low, hdigits, hhigh, hlow⟩ := encodeByte_eq b
      rw [utf8_encode_cons, hdigits, List.cons_append, List.cons_append, List.nil_append,
        decodePairs, hhigh, hlow, ih]
      show Except.ok _ = _
      rw [halves]

/-- What is written is read back. -/
theorem decode_encode (bytes : Bytes) : decode (encode bytes) = .ok bytes := by
  rw [decode, length_utf8_encode, if_neg, decodePairs_encode]
  omega

example : (decode "0aFf").toOption = some [10, 255] := by decide +kernel

end NeuralMesh.Hex
