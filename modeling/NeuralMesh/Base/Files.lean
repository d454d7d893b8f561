import Mathlib.Algebra.GroupWithZero.Nat
import Mathlib.Data.Nat.Notation

/-!
# Files and their names

Bytes, the last component of a path, multipart forms and hexadecimal digits.
-/

namespace NeuralMesh

abbrev Bytes := List UInt8

/-- The UTF-8 encoding of a text. -/
def utf8 (text : String) : Bytes := text.toList.flatMap String.utf8EncodeChar

/-- The text that bytes encode, if they are valid UTF-8. -/
def fromUtf8 (bytes : Bytes) : Option String := String.fromUTF8? bytes.toByteArray

theorem toByteArray_utf8 (text : String) : (utf8 text).toByteArray = text.toByteArray := by
  rw [utf8, ← String.utf8Encode_toList]
  rfl

theorem utf8ByteSize_eq (text : String) : text.utf8ByteSize = (utf8 text).length := by
  have hsize := congrArg ByteArray.size (toByteArray_utf8 text)
  rw [List.size_toByteArray] at hsize
  exact hsize.symm

/-- The rest of the bytes, behind those already taken. -/
theorem toList_loop (bytes : ByteArray) (i : Nat) (taken : List UInt8) :
    ByteArray.toList.loop bytes i taken = taken.reverse ++ bytes.data.toList.drop i := by
  fun_induction ByteArray.toList.loop bytes i taken with
  | case1 i taken hlt ih =>
      have hlt' : i < bytes.data.toList.length := hlt
      have hget : bytes.get! i = bytes.data.toList[i] := by
        rw [ByteArray.get!, getElem!_pos bytes.data i hlt]
        rfl
      rw [ih, hget, List.reverse_cons, List.append_assoc, List.drop_eq_getElem_cons hlt']
      rfl
  | case2 i taken hge =>
      rw [List.drop_eq_nil_of_le (Nat.le_of_not_lt hge), List.append_nil]

theorem toList_toUTF8 (text : String) : text.toUTF8.toList = utf8 text := by
  have hdata : text.toUTF8.data = (utf8 text).toArray := by
    rw [← List.data_toByteArray, toByteArray_utf8]
    rfl
  rw [ByteArray.toList, toList_loop, hdata, List.reverse_nil, List.nil_append, List.drop_zero]

theorem fromUtf8_utf8 (text : String) : fromUtf8 (utf8 text) = some text := by
  rw [fromUtf8, toByteArray_utf8, String.fromUTF8?, dif_pos text.isValidUTF8]
  rfl

theorem utf8_inj {text text' : String} (h : utf8 text = utf8 text') : text = text' := by
  have hdecoded := fromUtf8_utf8 text
  rw [h, fromUtf8_utf8] at hdecoded
  exact (Option.some.inj hdecoded).symm

theorem utf8_eq_nil {text : String} : utf8 text = [] ↔ text = "" := by
  constructor
  · intro hnil
    exact utf8_inj (hnil.trans (show [] = utf8 "" from rfl))
  · rintro rfl
    rfl

/-- `Path::file_name`: the last component, unless there is none or it is `..`. -/
def fileName (path : String) : Option String :=
  (((path.toList.splitOn '/').map String.ofList).filter
    fun component => component ≠ "" ∧ component ≠ ".").getLast?.filter (· ≠ "..")

/-- A file that can be read, under the last component of its path. -/
structure LocalFile where
  name : String
  content : Bytes

/-- A field of a multipart form. -/
structure FormPart where
  name : Option String
  fileName : Option String
  data : Bytes

/-- A form field with a text, as a client writes it. -/
def FormPart.text (name value : String) : FormPart := ⟨some name, none, utf8 value⟩

/-- `is_ascii_hexdigit` -/
def isAsciiHexdigit (c : Char) : Bool :=
  ('0' ≤ c ∧ c ≤ '9') ∨ ('a' ≤ c ∧ c ≤ 'f') ∨ ('A' ≤ c ∧ c ≤ 'F')

/-- `format!("{:016x}", n)` -/
def hex16 (n : UInt64) : String :=
  String.ofList ((List.range 16).reverse.map fun i => Nat.digitChar (n.toNat / 16 ^ i % 16))

theorem length_hex16 (n : UInt64) : (hex16 n).length = 16 := by
  rw [hex16, String.length_ofList, List.length_map, List.length_reverse, List.length_range]

theorem isAsciiHexdigit_digitChar {d : Nat} (hd : d < 16) :
    isAsciiHexdigit (Nat.digitChar d) = true := by
  have hall : ∀ i : Fin 16, isAsciiHexdigit (Nat.digitChar i) = true := by decide
  exact hall ⟨d, hd⟩

theorem all_hex16 (n : UInt64) : (hex16 n).toList.all isAsciiHexdigit = true := by
  rw [hex16, String.toList_ofList, List.all_map, List.all_eq_true]
  intro i _
  exact isAsciiHexdigit_digitChar (Nat.mod_lt _ (by decide))

example : fileName "dir/./run.py/" = some "run.py" := by decide +kernel

example : fileName "dir/.." = none := by decide +kernel

end NeuralMesh
