import Mathlib.Data.List.Induction
import Mathlib.Algebra.Order.Group.Nat

/-!
# Lists of attributes

A sequence of records of a type, a length and a value, padded to a multiple of some alignment, with
type and length in two bytes each. `Reached` says which headers a walk over the bytes comes to that
goes by the lengths it reads and stops at the first header of a given kind. It makes sense of any
bytes; over the encoding of a list, the walk comes to the attributes one after the other.
-/

namespace NeuralMesh.Attributes

/-- The number that two bytes spell. -/
def be16 (high low : UInt8) : UInt16 := UInt16.ofNat (256 * high.toNat + low.toNat)

def bytes16 (n : UInt16) : List UInt8 := [UInt8.ofNat (n.toNat / 256), UInt8.ofNat n.toNat]

@[simp] theorem length_bytes16 (n : UInt16) : (bytes16 n).length = 2 := rfl

theorem be16_bytes16 (n : UInt16) :
    be16 (UInt8.ofNat (n.toNat / 256)) (UInt8.ofNat n.toNat) = n := by
  have hlt : n.toNat < 65536 := n.toNat_lt
  have hhigh : (UInt8.ofNat (n.toNat / 256)).toNat = n.toNat / 256 := by
    rw [UInt8.toNat_ofNat']
    omega
  have hlow : (UInt8.ofNat n.toNat).toNat = n.toNat % 256 := UInt8.toNat_ofNat'
  apply UInt16.toNat_inj.mp
  rw [be16, UInt16.toNat_ofNat', hhigh, hlow]
  omega

/-- The next multiple of `align`. -/
def roundUp (align n : Nat) : Nat := (n + (align - 1)) / align * align

/-- The type and the length at a position, if there are four bytes. -/
def header (buf : List UInt8) (pos : Nat) : Option (UInt16 × Nat) := do
  let type := be16 (← buf[pos]?) (← buf[pos + 1]?)
  let length := (be16 (← buf[pos + 2]?) (← buf[pos + 3]?)).toNat
  return (type, length)

variable {align start pos : Nat} {stop : UInt16 → Nat → Prop} {buf : List UInt8} {type : UInt16}
  {length : Nat}

theorem header_of_le (hpos : pos + 4 ≤ buf.length) :
    header buf pos = some (be16 buf[pos] buf[pos + 1],
      (be16 buf[pos + 2] buf[pos + 3]).toNat) := by
  have h0 : pos < buf.length := by omega
  have h1 : pos + 1 < buf.length := by omega
  have h2 : pos + 2 < buf.length := by omega
  have h3 : pos + 3 < buf.length := by omega
  simp only [header, List.getElem?_eq_getElem, h0, h1, h2, h3, Option.bind_eq_bind, Option.bind_some,
    Option.pure_def]

theorem header_eq_none : header buf pos = none ↔ buf.length < pos + 4 := by
  constructor
  · intro h
    by_contra hpos
    rw [header_of_le (by omega)] at h
    cases h
  · intro h
    have hlast : buf[pos + 3]? = none := List.getElem?_eq_none (by omega)
    simp [header, hlast]

theorem le_of_header (h : header buf pos = some (type, length)) : pos + 4 ≤ buf.length := by
  by_contra hpos
  rw [header_eq_none.mpr (by omega)] at h
  cases h

/-- The positions of the headers that a walk comes to. -/
inductive Reached (align : Nat) (stop : UInt16 → Nat → Prop) (buf : List UInt8) (start : Nat) :
    Nat → Prop
  | start : Reached align stop buf start start
  | next {pos : Nat} {type : UInt16} {length : Nat} (before : Reached align stop buf start pos)
      (read : header buf pos = some (type, length)) (goesOn : ¬ stop type length) :
      Reached align stop buf start (pos + 4 + roundUp align length)

/-- Every header that a walk passes takes it four bytes on, so it comes to the end of the bytes or to
a header at which it stops. -/
theorem exists_last (hreached : Reached align stop buf start pos) :
    ∃ last, Reached align stop buf start last ∧
      (header buf last = none ∨ ∃ type length, header buf last = some (type, length) ∧
        stop type length) := by
  induction hrest : buf.length - pos using Nat.strong_induction_on generalizing pos with
  | h rest ih =>
      cases hread : header buf pos with
      | none => exact ⟨pos, hreached, .inl hread⟩
      | some found =>
          obtain ⟨type, length⟩ := found
          by_cases hstop : stop type length
          · exact ⟨pos, hreached, .inr ⟨type, length, hread, hstop⟩⟩
          · have hle := le_of_header hread
            exact ih _ (by omega) (hreached.next hread hstop) rfl

/-! ### Encodings -/

/-- A record, with the bytes that fill it up. -/
structure Attribute (align : Nat) where
  type : UInt16
  value : List UInt8
  padding : List UInt8
  fits : value.length < 65536
  padded : value.length + padding.length = roundUp align value.length

namespace Attribute

variable {align : Nat} (a : Attribute align) (rest : List UInt8)

def encode : List UInt8 :=
  bytes16 a.type ++ bytes16 (UInt16.ofNat a.value.length) ++ a.value ++ a.padding

theorem length_encode : a.encode.length = 4 + roundUp align a.value.length := by
  rw [encode, List.length_append, List.length_append, List.length_append, length_bytes16,
    length_bytes16, ← a.padded]
  omega

variable (front : List UInt8)

theorem header_encode :
    header (front ++ (a.encode ++ rest)) front.length = some (a.type, a.value.length) := by
  have hlength : (UInt16.ofNat a.value.length).toNat = a.value.length := by
    rw [UInt16.toNat_ofNat']
    exact Nat.mod_eq_of_lt a.fits
  have hat : ∀ k, (front ++ (a.encode ++ rest))[front.length + k]? = (a.encode ++ rest)[k]? := by
    intro k
    rw [List.getElem?_append_right (by omega), Nat.add_sub_cancel_left]
  rw [header, show (front ++ (a.encode ++ rest))[front.length]? = _ from hat 0, hat 1, hat 2, hat 3]
  show some (be16 _ _, (be16 _ _).toNat) = _
  rw [be16_bytes16, be16_bytes16, hlength]

/-- The bytes of the value, where the walk looks for them. -/
theorem getElem?_value (k : Nat) (hk : k < a.value.length) :
    (front ++ (a.encode ++ rest))[front.length + 4 + k]? = a.value[k]? := by
  rw [List.getElem?_append_right (by omega), Nat.add_assoc, Nat.add_sub_cancel_left, Nat.add_comm 4 k]
  simp only [encode, List.append_assoc]
  show (a.value ++ (a.padding ++ rest))[k]? = _
  exact List.getElem?_append_left hk

end Attribute

def encodeAll (attributes : List (Attribute align)) : List UInt8 := attributes.flatMap Attribute.encode

theorem encodeAll_concat (attributes : List (Attribute align)) (a : Attribute align) :
    encodeAll (attributes ++ [a]) = encodeAll attributes ++ a.encode := by
  rw [encodeAll, List.flatMap_append, List.flatMap_singleton, encodeAll]

/-- The walk passes the attributes of other kinds, whatever follows them. -/
theorem reached_encodeAll (front rest : List UInt8) (attributes : List (Attribute align))
    (hpassed : ∀ a ∈ attributes, ¬ stop a.type a.value.length) :
    Reached align stop (front ++ (encodeAll attributes ++ rest)) front.length
      (front ++ encodeAll attributes).length := by
  induction attributes using List.reverseRecOn generalizing rest with
  | nil =>
      rw [show encodeAll [] = ([] : List UInt8) from rfl, List.append_nil]
      exact .start
  | append_singleton attributes a ih =>
      rw [encodeAll_concat, List.append_assoc]
      have hbefore := ih (a.encode ++ rest) fun b hb => hpassed b (List.mem_append_left _ hb)
      have hread := a.header_encode rest (front ++ encodeAll attributes)
      rw [List.append_assoc] at hread
      have hnext := hbefore.next hread (hpassed a (List.mem_append_right _ List.mem_cons_self))
      rwa [Nat.add_assoc, ← a.length_encode, ← List.length_append, List.append_assoc] at hnext

end NeuralMesh.Attributes
