import Mathlib.Data.Nat.Digits.Lemmas
import NeuralMesh.Base.Files

/-!
# Base 58 text

A text of the 58 digits stands for bytes: each zero that it begins with for a byte of zero, and the
number that the rest spells for the bytes of that number. A text is at least as long as its bytes, and
up to 32 bytes at most twelve characters longer.
-/

namespace NeuralMesh.Base58

def alphabet : List Char := "123456789ABCDEFGHJKLMNPQRSTUVWXYZabcdefghijkmnopqrstuvwxyz".toList

/-- The number that digits spell, the highest first. -/
def number (digits : List Nat) : Nat := Nat.ofDigits 58 digits.reverse

/-- The bytes that digits stand for. -/
def toBytes (digits : List Nat) : Bytes :=
  List.replicate (digits.takeWhile (· = 0)).length 0 ++
    (Nat.digits 256 (number digits)).reverse.map UInt8.ofNat

/-- The bytes that a text stands for, if it is one of these digits. -/
def decode (text : String) : Option Bytes :=
  if text.toList.all alphabet.contains then some (toBytes (text.toList.map alphabet.idxOf)) else none

section Digits

variable {digits : List Nat}

theorem number_dropWhile (digits : List Nat) : number (digits.dropWhile (· = 0)) = number digits := by
  induction digits with
  | nil => rfl
  | cons d digits ih =>
      by_cases hd : d = 0
      · rw [List.dropWhile_cons_of_pos (by simpa using hd), ih, number, number, List.reverse_cons,
          Nat.ofDigits_append, hd]
        simp
      · rw [List.dropWhile_cons_of_neg (by simpa using hd)]

/-- The digits without the zeros at their start are those of the number. -/
theorem digits_number (hdigits : ∀ d ∈ digits, d < 58) :
    Nat.digits 58 (number digits) = (digits.dropWhile (· = 0)).reverse := by
  rw [← number_dropWhile, number]
  refine Nat.digits_ofDigits 58 (by decide) _ (fun d hd => ?_) fun hne => ?_
  · exact hdigits d ((List.dropWhile_sublist _).mem (List.mem_reverse.mp hd))
  · rw [List.getLast_reverse]
    have hhead := List.head_dropWhile_not (fun d => decide (d = 0)) (l := digits)
      (List.reverse_ne_nil_iff.mp hne)
    simpa using hhead

theorem length_digits (hdigits : ∀ d ∈ digits, d < 58) :
    digits.length = (digits.takeWhile (· = 0)).length + (Nat.digits 58 (number digits)).length := by
  rw [digits_number hdigits, List.length_reverse, ← List.length_append, List.takeWhile_append_dropWhile]

theorem length_toBytes : (toBytes digits).length =
    (digits.takeWhile (· = 0)).length + (Nat.digits 256 (number digits)).length := by
  rw [toBytes, List.length_append, List.length_replicate, List.length_map, List.length_reverse]

/-- A byte holds more than a digit. -/
theorem length_bytes_le (n : Nat) : (Nat.digits 256 n).length ≤ (Nat.digits 58 n).length := by
  rw [Nat.digits_length_le_iff (by decide)]
  calc n < 58 ^ (Nat.digits 58 n).length := Nat.lt_base_pow_length_digits (by decide)
    _ ≤ 256 ^ (Nat.digits 58 n).length := Nat.pow_le_pow_left (by decide) _

theorem pow_le_pow {k : Nat} (hk : k ≤ 32) : 256 ^ k ≤ 58 ^ (k + 12) := by
  have hall : ∀ i : Fin 33, 256 ^ i.val ≤ 58 ^ (i.val + 12) := by decide
  exact hall ⟨k, by omega⟩

theorem length_digits_le {n : Nat} (hn : (Nat.digits 256 n).length ≤ 32) :
    (Nat.digits 58 n).length ≤ (Nat.digits 256 n).length + 12 := by
  rw [Nat.digits_length_le_iff (by decide)]
  calc n < 256 ^ (Nat.digits 256 n).length := Nat.lt_base_pow_length_digits (by decide)
    _ ≤ 58 ^ ((Nat.digits 256 n).length + 12) := pow_le_pow hn

end Digits

variable {text : String} {bytes : Bytes}

/-- Such a text is of these digits, and as long as its bytes or up to twelve characters longer. -/
theorem length_of_decode (hdecode : decode text = some bytes) :
    (∀ c ∈ text.toList, c ∈ alphabet) ∧ bytes.length ≤ text.toList.length ∧
      (bytes.length ≤ 32 → text.toList.length ≤ bytes.length + 12) := by
  rw [decode] at hdecode
  split at hdecode
  · rename_i hall
    cases hdecode
    have halphabet : ∀ c ∈ text.toList, c ∈ alphabet := fun c hc =>
      List.contains_iff_mem.mp (List.all_eq_true.mp hall c hc)
    have hdigits : ∀ d ∈ text.toList.map alphabet.idxOf, d < 58 := by
      intro d hd
      obtain ⟨c, hc, rfl⟩ := List.mem_map.mp hd
      exact List.idxOf_lt_length_iff.mpr (halphabet c hc)
    have htext := length_digits hdigits
    rw [List.length_map] at htext
    rw [length_toBytes]
    have hle := length_bytes_le (number (text.toList.map alphabet.idxOf))
    refine ⟨halphabet, by omega, fun hshort => ?_⟩
    have hle' := length_digits_le (n := number (text.toList.map alphabet.idxOf)) (by omega)
    omega
  · cases hdecode

/-- A digit is one byte, and not the digit zero of the other notations. -/
theorem mem_alphabet {c : Char} (hc : c ∈ alphabet) : c.utf8Size = 1 ∧ c ≠ '0' := by
  have hall : (alphabet.all fun c => decide (c.utf8Size = 1 ∧ c ≠ '0')) = true := by decide
  exact of_decide_eq_true (List.all_eq_true.mp hall c hc)

end NeuralMesh.Base58
