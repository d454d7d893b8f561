import Mathlib.Data.List.Basic
import Mathlib.Tactic.Ring
import Mathlib.Data.FinEnum

/-!
# RLP

The recursive length prefix encoding of byte strings and lists of items, with sizes below `2 ^ 64`,
and a decoder that accepts nothing but the canonical form: no size with a leading zero, none written
long that fits the short form, and no single byte under a size of its own.
-/

namespace NeuralMesh

/-! ### Big-endian numbers -/

/-- The last `width` bytes of a number, the most significant first. -/
def toBigEndian : Nat → Nat → List UInt8
  | 0, _ => []
  | width + 1, n => toBigEndian width (n / 256) ++ [UInt8.ofNat n]

/-- The number that the bytes spell. -/
def ofBigEndian (bytes : List UInt8) : Nat := bytes.foldl (fun n b => 256 * n + b.toNat) 0

/-- The bytes of a number without leading zeros. -/
def minimalBigEndian (width n : Nat) : List UInt8 := (toBigEndian width n).dropWhile (· = 0)

@[simp] theorem length_toBigEndian (width n : Nat) : (toBigEndian width n).length = width := by
  induction width generalizing n with
  | zero => rfl
  | succ width ih => simp [toBigEndian, ih]

/-- More places than the number needs are zeros. -/
theorem toBigEndian_add {width n : Nat} (hn : n < 256 ^ width) (places : Nat) :
    toBigEndian (places + width) n = List.replicate places 0 ++ toBigEndian width n := by
  induction width generalizing n with
  | zero =>
      rw [pow_zero] at hn
      obtain rfl : n = 0 := by omega
      induction places with
      | zero => rfl
      | succ places ih =>
          rw [Nat.add_zero, toBigEndian, List.append_nil] at ih
          rw [Nat.add_zero, toBigEndian.eq_def]
          dsimp only
          rw [Nat.zero_div, ih, toBigEndian, List.append_nil, List.replicate_succ']
          rfl
  | succ width ih =>
      have hrest : n / 256 < 256 ^ width := by
        rw [pow_succ] at hn
        omega
      rw [← Nat.add_assoc, toBigEndian, ih hrest, toBigEndian, List.append_assoc]
theorem ofBigEndian_append (bytes : List UInt8) (b : UInt8) :
    ofBigEndian (bytes ++ [b]) = 256 * ofBigEndian bytes + b.toNat := by
  simp [ofBigEndian]

theorem ofBigEndian_toBigEndian {width n : Nat} (hn : n < 256 ^ width) :
    ofBigEndian (toBigEndian width n) = n := by
  induction width generalizing n with
  | zero =>
      rw [pow_zero] at hn
      rw [toBigEndian, ofBigEndian, List.foldl_nil]
      omega
  | succ width ih =>
      rw [toBigEndian, ofBigEndian_append, ih (by rw [pow_succ] at hn; omega), UInt8.toNat_ofNat']
      omega

theorem ofBigEndian_dropWhile (bytes : List UInt8) :
    ofBigEndian (bytes.dropWhile (· = 0)) = ofBigEndian bytes := by
  induction bytes with
  | nil => rfl
  | cons b bytes ih =>
      rw [List.dropWhile_cons]
      split
      · rename_i hb
        rw [ih, of_decide_eq_true hb]
        rfl
      · rfl

theorem ofBigEndian_minimal {width n : Nat} (hn : n < 256 ^ width) :
    ofBigEndian (minimalBigEndian width n) = n := by
  rw [minimalBigEndian, ofBigEndian_dropWhile, ofBigEndian_toBigEndian hn]

theorem length_minimal_le (width n : Nat) : (minimalBigEndian width n).length ≤ width := by
  have hle := (List.dropWhile_suffix (· = 0) (l := toBigEndian width n)).length_le
  rwa [length_toBigEndian] at hle

theorem head_minimal_ne (width n : Nat) : (minimalBigEndian width n).head? ≠ some 0 := by
  intro hhead
  have hnot := List.head?_dropWhile_not (fun b : UInt8 => decide (b = 0)) (toBigEndian width n)
  rw [minimalBigEndian] at hhead
  rw [hhead] at hnot
  simp at hnot

theorem minimal_eq_nil_iff {width n : Nat} (hn : n < 256 ^ width) :
    minimalBigEndian width n = [] ↔ n = 0 := by
  constructor
  · intro hnil
    rw [← ofBigEndian_minimal hn, hnil]
    rfl
  · rintro rfl
    have hzero : ∀ width, (toBigEndian width 0).dropWhile (fun b => decide (b = 0)) = [] := by
      intro width
      induction width with
      | zero => rfl
      | succ width ih =>
          rw [toBigEndian, List.dropWhile_append, ih]
          rfl
    exact hzero width

namespace Rlp

/-! ### Encoding -/

inductive Item where
  | bytes (bytes : List UInt8)
  | list (items : List Item)

/-- The size of what follows; `offset` is `0x80` before bytes and `0xC0` before a list. -/
def header (offset : UInt8) (size : Nat) : List UInt8 :=
  if size < 56 then [offset + UInt8.ofNat size]
  else
    let sizeBytes := minimalBigEndian 8 size
    (offset + 55 + UInt8.ofNat sizeBytes.length) :: sizeBytes

/-- A byte below `0x80` is its own encoding. -/
def encodeBytes (bytes : List UInt8) : List UInt8 :=
  if bytes.length = 1 ∧ ∀ b ∈ bytes, b < 0x80 then bytes else header 0x80 bytes.length ++ bytes

mutual

def encode : Item → List UInt8
  | .bytes bytes => encodeBytes bytes
  | .list items => header 0xC0 (encodeAll items).length ++ encodeAll items

def encodeAll : List Item → List UInt8
  | [] => []
  | item :: items => encode item ++ encodeAll items

end

theorem encodeAll_append (items others : List Item) :
    encodeAll (items ++ others) = encodeAll items ++ encodeAll others := by
  induction items with
  | nil => rfl
  | cons item items ih => rw [List.cons_append, encodeAll, encodeAll, ih, List.append_assoc]

/-! ### Decoding -/

/-- The size after a first byte that is `d` above its offset. -/
def readSize (d : Nat) (rest : List UInt8) : Option (Nat × List UInt8) :=
  if d < 56 then some (d, rest)
  else
    let sizeBytes := rest.take (d - 55)
    if sizeBytes.length < d - 55 ∨ sizeBytes.head? = some 0 ∨ ofBigEndian sizeBytes < 56 then none
    else some (ofBigEndian sizeBytes, rest.drop (d - 55))

/-- The first `size` bytes and the rest. -/
def takeExactly (size : Nat) (rest : List UInt8) : Option (List UInt8 × List UInt8) :=
  if rest.length < size then none else some (rest.take size, rest.drop size)

mutual

/-- The first item and the rest; every level of nesting and every item uses fuel. -/
def decodeItem : Nat → List UInt8 → Option (Item × List UInt8)
  | 0, _ | _ + 1, [] => none
  | fuel + 1, b :: rest =>
      if b < 0x80 then some (.bytes [b], rest)
      else if b < 0xC0 then
        (readSize (b - 0x80).toNat rest).bind fun (size, rest) =>
        (takeExactly size rest).bind fun (bytes, rest) =>
        if bytes.length = 1 ∧ ∀ b ∈ bytes, b < 0x80 then none else some (.bytes bytes, rest)
      else
        (readSize (b - 0xC0).toNat rest).bind fun (size, rest) =>
        (takeExactly size rest).bind fun (payload, rest) =>
        (decodeItems fuel payload).map fun items => (.list items, rest)

/-- The items that fill the bytes. -/
def decodeItems : Nat → List UInt8 → Option (List Item)
  | _, [] => some []
  | 0, _ => none
  | fuel + 1, bytes =>
      (decodeItem fuel bytes).bind fun (item, rest) =>
      (decodeItems fuel rest).map fun items => item :: items

end

/-- The item that fills the bytes. -/
def decode (bytes : List UInt8) : Option Item :=
  (decodeItem (2 * bytes.length) bytes).bind fun (item, rest) =>
  if rest = [] then some item else none

/-! ### Round trip -/

/-- A header reads back, whatever follows. -/
theorem header_eq (offset : UInt8) {size : Nat} (hsize : size < 2 ^ 64) :
    ∃ d sizeBytes, d < 64 ∧ header offset size = (offset + UInt8.ofNat d) :: sizeBytes ∧
      ∀ rest, readSize d (sizeBytes ++ rest) = some (size, rest) := by
  by_cases hshort : size < 56
  · refine ⟨size, [], by omega, ?_, fun rest => ?_⟩
    · rw [header, if_pos hshort]
    · rw [readSize, if_pos hshort, List.nil_append]
  · have hle := length_minimal_le 8 size
    have hvalue : ofBigEndian (minimalBigEndian 8 size) = size := ofBigEndian_minimal (by omega)
    refine ⟨55 + (minimalBigEndian 8 size).length, minimalBigEndian 8 size, by omega, ?_,
      fun rest => ?_⟩
    · rw [header, if_neg hshort, UInt8.ofNat_add]
      dsimp only
      rw [UInt8.add_assoc]
      rfl
    · have hnonempty : minimalBigEndian 8 size ≠ [] := by
        rw [Ne, minimal_eq_nil_iff (by omega)]
        omega
      have hpos := List.length_pos_iff.mpr hnonempty
      rw [readSize, if_neg (by omega), Nat.add_sub_cancel_left, List.take_left, List.drop_left]
      dsimp only
      rw [hvalue, if_neg]
      simp only [lt_irrefl, head_minimal_ne, hshort, or_self, not_false_eq_true]

theorem takeExactly_append (bytes rest : List UInt8) :
    takeExactly bytes.length (bytes ++ rest) = some (bytes, rest) := by
  rw [takeExactly, if_neg (by rw [List.length_append]; omega), List.take_left, List.drop_left]

theorem offset_bytes {d : Nat} (hd : d < 64) :
    ¬ 0x80 + UInt8.ofNat d < 0x80 ∧ 0x80 + UInt8.ofNat d < 0xC0 ∧
      (0x80 + UInt8.ofNat d - 0x80).toNat = d := by
  simp only [UInt8.lt_iff_toNat_lt, UInt8.toNat_add, UInt8.toNat_ofNat', UInt8.toNat_sub]
  have h80 : (0x80 : UInt8).toNat = 128 := rfl
  have hC0 : (0xC0 : UInt8).toNat = 192 := rfl
  omega

theorem offset_list {d : Nat} (hd : d < 64) :
    ¬ 0xC0 + UInt8.ofNat d < 0x80 ∧ ¬ 0xC0 + UInt8.ofNat d < 0xC0 ∧
      (0xC0 + UInt8.ofNat d - 0xC0).toNat = d := by
  simp only [UInt8.lt_iff_toNat_lt, UInt8.toNat_add, UInt8.toNat_ofNat', UInt8.toNat_sub]
  have h80 : (0x80 : UInt8).toNat = 128 := rfl
  have hC0 : (0xC0 : UInt8).toNat = 192 := rfl
  omega

/-- Bytes under a size are read, unless they are a byte that is its own encoding. -/
theorem decodeItem_sized {bytes : List UInt8} (hsize : bytes.length < 2 ^ 64) (fuel : Nat)
    (rest : List UInt8) :
    decodeItem (fuel + 1) (header 0x80 bytes.length ++ (bytes ++ rest)) =
      if bytes.length = 1 ∧ ∀ b ∈ bytes, b < 0x80 then none else some (.bytes bytes, rest) := by
  obtain ⟨d, sizeBytes, hd, hheader, hread⟩ := header_eq 0x80 hsize
  obtain ⟨hnotByte, hbytes, hoffset⟩ := offset_bytes hd
  rw [hheader, List.cons_append, decodeItem, if_neg hnotByte, if_pos hbytes, hoffset, hread,
    Option.bind_some]
  dsimp only
  rw [takeExactly_append, Option.bind_some]

theorem decodeItem_bytes {bytes : List UInt8} (hsize : bytes.length < 2 ^ 64) (fuel : Nat)
    (rest : List UInt8) :
    decodeItem (fuel + 1) (encodeBytes bytes ++ rest) = some (.bytes bytes, rest) := by
  rw [encodeBytes]
  split
  · rename_i hsingle
    obtain ⟨hlength, hsmall⟩ := hsingle
    obtain ⟨b, rfl⟩ := List.length_eq_one_iff.mp hlength
    rw [List.singleton_append, decodeItem, if_pos (hsmall b List.mem_cons_self)]
  · rename_i hsingle
    rw [List.append_assoc, decodeItem_sized hsize, if_neg hsingle]

/-- A list is read as what its payload is read as. -/
theorem decodeItem_list {payload : List UInt8} (hsize : payload.length < 2 ^ 64) (fuel : Nat)
    (rest : List UInt8) :
    decodeItem (fuel + 1) (header 0xC0 payload.length ++ (payload ++ rest)) =
      (decodeItems fuel payload).map fun items => (.list items, rest) := by
  obtain ⟨d, sizeBytes, hd, hheader, hread⟩ := header_eq 0xC0 hsize
  obtain ⟨hnotByte, hnotBytes, hoffset⟩ := offset_list hd
  rw [hheader, List.cons_append, decodeItem, if_neg hnotByte, if_neg hnotBytes, hoffset, hread,
    Option.bind_some]
  dsimp only
  rw [takeExactly_append, Option.bind_some]

theorem encode_ne_nil (item : Item) : encode item ≠ [] := by
  cases item with
  | bytes bytes =>
      rw [encode, encodeBytes]
      split
      · rename_i hsingle
        rintro rfl
        cases hsingle.1
      · rw [header]
        split <;> exact List.cons_ne_nil _ _
  | list items =>
      rw [encode, header]
      split <;> exact List.cons_ne_nil _ _

theorem length_le_encodeAll (items : List Item) : items.length ≤ (encodeAll items).length := by
  induction items with
  | nil => exact le_refl _
  | cons item items ih =>
      have hpos := List.length_pos_iff.mpr (encode_ne_nil item)
      rw [encodeAll, List.length_append, List.length_cons]
      omega

/-- The first of the items that fill the bytes. -/
theorem decodeItems_append {item : Item} {fuel : Nat} {rest : List UInt8}
    (hitem : decodeItem fuel (encode item ++ rest) = some (item, rest)) :
    decodeItems (fuel + 1) (encode item ++ rest) =
      (decodeItems fuel rest).map fun items => item :: items := by
  obtain ⟨b, bytes, hbytes⟩ := List.exists_cons_of_ne_nil (encode_ne_nil item)
  rw [hbytes, List.cons_append] at hitem ⊢
  rw [decodeItems, hitem, Option.bind_some]
  exact List.cons_ne_nil _ _

theorem decodeItems_of_none {fuel : Nat} {bytes : List UInt8} (hnonempty : bytes ≠ [])
    (hitem : decodeItem fuel bytes = none) : decodeItems (fuel + 1) bytes = none := by
  rw [decodeItems, hitem, Option.bind_none]
  exact hnonempty

mutual

/-- Every size in the item's encoding is below `2 ^ 64`. -/
def Fits : Item → Prop
  | .bytes bytes => bytes.length < 2 ^ 64
  | .list items => (encodeAll items).length < 2 ^ 64 ∧ AllFit items

def AllFit : List Item → Prop
  | [] => True
  | item :: items => Fits item ∧ AllFit items

end

mutual

theorem decodeItem_encode : ∀ (item : Item) {fuel : Nat} (rest : List UInt8), Fits item →
    2 * (encode item).length ≤ fuel → decodeItem fuel (encode item ++ rest) = some (item, rest)
  | .bytes bytes, fuel, rest, hfits, hfuel => by
      have hpos := List.length_pos_iff.mpr (encode_ne_nil (.bytes bytes))
      obtain ⟨fuel, rfl⟩ := Nat.exists_eq_add_one.mpr (by omega : 0 < fuel)
      rw [encode]
      exact decodeItem_bytes hfits fuel rest
  | .list items, fuel, rest, hfits, hfuel => by
      obtain ⟨hsize, hall⟩ := hfits
      obtain ⟨d, sizeBytes, -, hheader, -⟩ := header_eq 0xC0 hsize
      rw [encode] at hfuel ⊢
      rw [hheader, List.cons_append, List.length_cons, List.length_append] at hfuel
      obtain ⟨fuel, rfl⟩ := Nat.exists_eq_add_one.mpr (by omega : 0 < fuel)
      have hitems := decodeItems_encodeAll items [] hall
        (by omega : 2 * (encodeAll items).length < fuel)
      rw [List.append_nil, decodeItems, Option.map_some, List.append_nil] at hitems
      rw [List.append_assoc, decodeItem_list hsize, hitems, Option.map_some]

theorem decodeItems_encodeAll : ∀ (items : List Item) {fuel : Nat} (rest : List UInt8),
    AllFit items → 2 * (encodeAll items).length < fuel →
    decodeItems fuel (encodeAll items ++ rest) =
      (decodeItems (fuel - items.length) rest).map fun others => items ++ others
  | [], fuel, rest, _, _ => by
      rw [encodeAll, List.nil_append, List.length_nil, Nat.sub_zero]
      exact Option.map_id'.symm
  | item :: items, fuel, rest, hfits, hfuel => by
      have hpos := List.length_pos_iff.mpr (encode_ne_nil item)
      rw [encodeAll] at hfuel ⊢
      rw [List.length_append] at hfuel
      obtain ⟨fuel, rfl⟩ := Nat.exists_eq_add_one.mpr (by omega : 0 < fuel)
      rw [List.append_assoc,
        decodeItems_append (decodeItem_encode item _ hfits.1 (by omega)),
        decodeItems_encodeAll items rest hfits.2 (by omega), Option.map_map, List.length_cons,
        Nat.add_sub_add_right]
      rfl

end

/-- The whole of a list. -/
theorem decode_list {payload : List UInt8} (hsize : payload.length < 2 ^ 64) :
    ∃ fuel, 2 * payload.length < fuel ∧
      decode (header 0xC0 payload.length ++ payload) = (decodeItems fuel payload).map .list := by
  obtain ⟨d, sizeBytes, -, hheader, -⟩ := header_eq 0xC0 hsize
  have hlength : (header 0xC0 payload.length ++ payload).length =
      sizeBytes.length + payload.length + 1 := by
    rw [hheader, List.cons_append, List.length_cons, List.length_append]
  refine ⟨2 * (sizeBytes.length + payload.length) + 1, by omega, ?_⟩
  have hitem := decodeItem_list hsize (2 * (sizeBytes.length + payload.length) + 1) []
  rw [List.append_nil] at hitem
  rw [decode, hlength, show 2 * (sizeBytes.length + payload.length + 1) =
    2 * (sizeBytes.length + payload.length) + 1 + 1 by ring, hitem]
  cases decodeItems (2 * (sizeBytes.length + payload.length) + 1) payload <;> rfl

theorem length_header_le (offset : UInt8) (size : Nat) : (header offset size).length ≤ 9 := by
  have hle := length_minimal_le 8 size
  rw [header]
  split
  · rw [List.length_singleton]
    omega
  · rw [List.length_cons]
    omega

theorem length_encodeBytes_le (bytes : List UInt8) :
    (encodeBytes bytes).length ≤ bytes.length + 9 := by
  rw [encodeBytes]
  split
  · omega
  · have hle := length_header_le 0x80 bytes.length
    rw [List.length_append]
    omega

end Rlp

end NeuralMesh
