import NeuralMesh.Proof.Eip1559

/-!
# The RLP helpers, item by item

Whatever integers and byte strings are appended, the list around them is canonical and a strict
decoder finds them all again. The byte strings of the callers are never one byte long; one below
`0x80` would be written under a size of its own.
-/

namespace NeuralMesh.Ledger

open Rlp

/-- What the callers append. -/
inductive Field where
  | uint (val : U128)
  | bytes (data : List UInt8) (hlength : data.length ≠ 1)

inductive FieldKind where
  | uint | bytes

namespace Field

def kind : Field → FieldKind
  | uint _ => .uint
  | bytes _ _ => .bytes

def append (buf : List UInt8) : Field → List UInt8
  | uint val => rlpAppendUint buf val
  | bytes data _ => rlpAppendBytes buf data

/-- The buffer after a sequence of calls. -/
def appendAll (fields : List Field) : List UInt8 := fields.foldl append []

/-- The canonical item. -/
def item : Field → Item
  | uint val => .bytes (minimalBigEndian 16 val.toNat)
  | bytes data _ => .bytes data

/-- Reading an item as an integer without leading zeros, or as a byte string. -/
def read : FieldKind → Item → Option Field
  | .uint, item =>
      (readUint 16 item).map fun n => .uint (BitVec.ofNat 128 n)
  | .bytes, .bytes data => if h : data.length ≠ 1 then some (.bytes data h) else none
  | .bytes, .list _ => none

def readAll : List FieldKind → List Item → Option (List Field)
  | [], [] => some []
  | kind :: kinds, item :: items => do
      let field ← read kind item
      let fields ← readAll kinds items
      return field :: fields
  | _, _ => none

end Field

/-- The fields of a list, if the bytes are one, in canonical form. -/
def readList (kinds : List FieldKind) (bytes : List UInt8) : Option (List Field) :=
  match decode bytes with
  | some (.list items) => Field.readAll kinds items
  | _ => none

/-- Fields that a `Vec` holds. -/
abbrev Fields := { fields : List Field // (Field.appendAll fields).length < 2 ^ 63 }

/-! ### What is written -/

theorem length_le_rlpAppendBytes (buf data : List UInt8) :
    data.length ≤ (rlpAppendBytes buf data).length := by
  rw [rlpAppendBytes]
  split
  · rename_i hnil
    rw [hnil]
    exact Nat.zero_le _
  · rw [List.length_append]
    exact Nat.le_add_left _ _

namespace Field

/-- One call appends the canonical encoding of its item. -/
theorem append_eq (buf : List UInt8) {f : Field} (hfits : (f.append buf).length < 2 ^ 63) :
    f.append buf = buf ++ encode f.item ∧ Fits f.item := by
  cases f with
  | uint val =>
      refine ⟨rlpAppendUint_eq buf val, ?_⟩
      have hle := length_minimal_le 16 val.toNat
      show (minimalBigEndian 16 val.toNat).length < 2 ^ 64
      omega
  | bytes data hlength =>
      have hle := length_le_rlpAppendBytes buf data
      have hdata : data.length < 2 ^ 64 := by
        rw [append] at hfits
        omega
      refine ⟨?_, hdata⟩
      rw [append, rlpAppendBytes_eq buf hdata, item, encode_of_length_ne hlength]

theorem foldl_append {fields : List Field} {buf : List UInt8}
    (hfits : (fields.foldl append buf).length < 2 ^ 63) :
    fields.foldl append buf = buf ++ encodeAll (fields.map item) ∧ AllFit (fields.map item) ∧
      buf.length ≤ (fields.foldl append buf).length := by
  induction fields generalizing buf with
  | nil => exact ⟨(List.append_nil buf).symm, trivial, le_refl _⟩
  | cons f fields ih =>
      rw [List.foldl_cons] at hfits ⊢
      obtain ⟨hrest, hall, hle⟩ := ih hfits
      obtain ⟨hfirst, hfit⟩ := append_eq buf (lt_of_le_of_lt hle hfits)
      refine ⟨?_, ⟨hfit, hall⟩, ?_⟩
      · rw [hrest, hfirst, List.append_assoc]
        rfl
      · have hlonger : buf.length ≤ (f.append buf).length := by
          rw [hfirst, List.length_append]
          exact Nat.le_add_right _ _
        exact hlonger.trans hle

theorem appendAll_eq {fields : List Field} (hfits : (appendAll fields).length < 2 ^ 63) :
    appendAll fields = encodeAll (fields.map item) ∧ AllFit (fields.map item) := by
  obtain ⟨hfields, hall, -⟩ := foldl_append hfits
  exact ⟨hfields, hall⟩

/-! ### What is read -/

theorem readUint_minimal (val : U128) :
    readUint 16 (.bytes (minimalBigEndian 16 val.toNat)) = some val.toNat := by
  rw [readUint, if_pos ⟨length_minimal_le 16 val.toNat, head_minimal_ne 16 val.toNat⟩,
    ofBigEndian_minimal (show val.toNat < 256 ^ 16 from val.isLt)]

theorem read_item (f : Field) : read f.kind f.item = some f := by
  cases f with
  | uint val =>
      rw [kind, item, read, readUint_minimal, Option.map_some, BitVec.ofNat_toNat,
        BitVec.setWidth_eq]
  | bytes data hlength => rw [kind, item, read, dif_pos hlength]

theorem readAll_items (fields : List Field) :
    readAll (fields.map kind) (fields.map item) = some fields := by
  induction fields with
  | nil => rfl
  | cons f fields ih =>
      rw [List.map_cons, List.map_cons, readAll, read_item, ih]
      rfl

end Field

/-- For every sequence of integers and byte strings, the list around what the helpers append is read
as exactly this sequence, in canonical form throughout. -/
theorem rlp_roundTrip (fields : Fields) :
    readList (fields.val.map Field.kind) (rlpEncodeList (Field.appendAll fields.val)) =
      some fields.val := by
  obtain ⟨hwritten, hall⟩ := Field.appendAll_eq fields.property
  have hlength : (encodeAll (fields.val.map Field.item)).length < 2 ^ 64 := by
    rw [← hwritten]
    exact lt_trans fields.property (by decide)
  obtain ⟨fuel, hfuel, hdecode⟩ := decode_list hlength
  have hitems := decodeItems_encodeAll (fields.val.map Field.item) [] hall hfuel
  rw [List.append_nil, decodeItems, Option.map_some, List.append_nil] at hitems
  rw [hwritten, rlpEncodeList_eq hlength, readList, hdecode, hitems, Option.map_some]
  exact Field.readAll_items fields.val

end NeuralMesh.Ledger
