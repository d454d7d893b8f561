import NeuralMesh.Base.Rlp

/-!
# The contract ABI

The encoding of call arguments as Solidity reads and writes them, for numbers and texts: one word of
32 bytes for each argument in the head, and behind the head, for each text, its length and its bytes
padded to whole words. The head word of a text says where it is. The decoder follows these words
wherever they point to, and refuses what points past the end.
-/

namespace NeuralMesh.Abi

inductive Kind where
  | uint256 | string
  deriving DecidableEq, Repr

inductive Value where
  | uint256 (n : Nat)
  | string (bytes : List UInt8)
  deriving DecidableEq, Repr

def Value.kind : Value → Kind
  | uint256 _ => .uint256
  | string _ => .string

/-! ### Encoding -/

def word (n : Nat) : List UInt8 := toBigEndian 32 n

/-- How many zeros fill the last word. -/
def padding (size : Nat) : Nat := (32 - size % 32) % 32

/-- A text behind the head. -/
def sized (bytes : List UInt8) : List UInt8 :=
  word bytes.length ++ bytes ++ List.replicate (padding bytes.length) 0

/-- The head, with the first text at `start`. -/
def heads : Nat → List Value → List UInt8
  | _, [] => []
  | start, .uint256 n :: values => word n ++ heads start values
  | start, .string bytes :: values => word start ++ heads (start + (sized bytes).length) values

def tails : List Value → List UInt8
  | [] => []
  | .uint256 _ :: values => tails values
  | .string bytes :: values => sized bytes ++ tails values

def encode (values : List Value) : List UInt8 := heads (32 * values.length) values ++ tails values

/-! ### Decoding -/

def readWord (data : List UInt8) (position : Nat) : Option Nat :=
  if position + 32 ≤ data.length then some (ofBigEndian ((data.drop position).take 32)) else none

def readSized (data : List UInt8) (offset : Nat) : Option (List UInt8) := do
  let size ← readWord data offset
  if offset + 32 + size ≤ data.length then some ((data.drop (offset + 32)).take size) else none

/-- The arguments whose head words begin at `position`. -/
def decodeFrom (data : List UInt8) : Nat → List Kind → Option (List Value)
  | _, [] => some []
  | position, .uint256 :: kinds => do
      let n ← readWord data position
      let values ← decodeFrom data (position + 32) kinds
      return .uint256 n :: values
  | position, .string :: kinds => do
      let offset ← readWord data position
      let bytes ← readSized data offset
      let values ← decodeFrom data (position + 32) kinds
      return .string bytes :: values

def decode (kinds : List Kind) (data : List UInt8) : Option (List Value) := decodeFrom data 0 kinds

/-- The text is at `offset`, inside the data, and zeros fill its last word. -/
structure PaddedAt (data : List UInt8) (offset : Nat) (bytes : List UInt8) : Prop where
  read : readSized data offset = some bytes
  inside : offset + 32 + bytes.length + padding bytes.length ≤ data.length
  zeros : (data.drop (offset + 32 + bytes.length)).take (padding bytes.length) =
    List.replicate (padding bytes.length) 0

/-- The head words from `position` on stand for the values. -/
def Holds (data : List UInt8) : Nat → List Value → Prop
  | _, [] => True
  | position, .uint256 n :: values =>
      readWord data position = some n ∧ Holds data (position + 32) values
  | position, .string bytes :: values =>
      (∃ offset, readWord data position = some offset ∧ PaddedAt data offset bytes) ∧
        Holds data (position + 32) values

/-- The data decode to the values; they are whole words, every offset points inside, and every text
is padded with zeros. -/
structure Encodes (data : List UInt8) (values : List Value) : Prop where
  decoded : decode (values.map Value.kind) data = some values
  words : 32 ∣ data.length
  holds : Holds data 0 values

/-! ### Sizes -/

@[simp] theorem length_word (n : Nat) : (word n).length = 32 := length_toBigEndian 32 n

theorem dvd_padding (size : Nat) : 32 ∣ size + padding size := by
  unfold padding
  omega

@[simp] theorem length_sized (bytes : List UInt8) :
    (sized bytes).length = 32 + bytes.length + padding bytes.length := by
  rw [sized, List.length_append, List.length_append, length_word, List.length_replicate]

@[simp] theorem length_heads (start : Nat) (values : List Value) :
    (heads start values).length = 32 * values.length := by
  induction values generalizing start with
  | nil => rfl
  | cons value values ih =>
      cases value with
      | uint256 n =>
          rw [heads, List.length_append, length_word, ih, List.length_cons]
          omega
      | string bytes =>
          rw [heads, List.length_append, length_word, ih, List.length_cons]
          omega

theorem dvd_tails (values : List Value) : 32 ∣ (tails values).length := by
  induction values with
  | nil => exact dvd_zero 32
  | cons value values ih =>
      cases value with
      | uint256 n => exact ih
      | string bytes =>
          have hpadded := dvd_padding bytes.length
          rw [tails, List.length_append, length_sized]
          omega

theorem dvd_encode (values : List Value) : 32 ∣ (encode values).length := by
  rw [encode, List.length_append, length_heads]
  exact Nat.dvd_add (Nat.dvd_mul_right 32 _) (dvd_tails values)

/-! ### Round trip -/

variable {front rest : List UInt8}

theorem readWord_append {n : Nat} (hn : n < 2 ^ 256) :
    readWord (front ++ (word n ++ rest)) front.length = some n := by
  have hread : ofBigEndian (word n) = n := ofBigEndian_toBigEndian hn
  have htake : (word n ++ rest).take 32 = word n := by
    rw [← length_word n, List.take_left]
  rw [readWord, if_pos (by simp), List.drop_left, htake, hread]

theorem readSized_append {bytes : List UInt8} (hbytes : bytes.length < 2 ^ 256) :
    readSized (front ++ (sized bytes ++ rest)) front.length = some bytes := by
  have hsplit : front ++ (sized bytes ++ rest) =
      front ++ (word bytes.length ++ (bytes ++ (List.replicate (padding bytes.length) 0 ++ rest))) := by
    simp [sized]
  have hdrop : (front ++ (word bytes.length ++
      (bytes ++ (List.replicate (padding bytes.length) 0 ++ rest)))).drop (front.length + 32) =
      bytes ++ (List.replicate (padding bytes.length) 0 ++ rest) := by
    rw [← List.append_assoc, List.drop_left' (by simp)]
  rw [readSized, hsplit, readWord_append hbytes, Option.bind_eq_bind, Option.bind_some,
    if_pos (by simp; omega), hdrop, List.take_left]

theorem paddedAt_append {bytes : List UInt8} (hbytes : bytes.length < 2 ^ 256) :
    PaddedAt (front ++ (sized bytes ++ rest)) front.length bytes := by
  refine ⟨readSized_append hbytes, by simp; omega, ?_⟩
  have hsplit : front ++ (sized bytes ++ rest) =
      (front ++ (word bytes.length ++ bytes)) ++
        (List.replicate (padding bytes.length) 0 ++ rest) := by
    simp [sized]
  rw [hsplit, List.drop_left' (by simp; omega), List.take_left' (by simp)]

/-- The numbers and the whole encoding fit into words. -/
structure Fits (values : List Value) : Prop where
  numbers : ∀ n, .uint256 n ∈ values → n < 2 ^ 256
  size : (encode values).length < 2 ^ 256

/-- The head words that are left, behind those already read, with the texts those point to. -/
theorem holds_heads {values : List Value} {front mid : List UInt8} {start : Nat}
    (hstart : start = front.length + 32 * values.length + mid.length)
    (hnumbers : ∀ n, .uint256 n ∈ values → n < 2 ^ 256)
    (hsize : start + (tails values).length < 2 ^ 256) :
    Holds (front ++ (heads start values ++ (mid ++ tails values))) front.length values := by
  induction values generalizing front mid start with
  | nil => trivial
  | cons value values ih =>
      rw [List.length_cons] at hstart
      have hlater : ∀ n, .uint256 n ∈ values → n < 2 ^ 256 := fun n hn =>
        hnumbers n (List.mem_cons_of_mem _ hn)
      cases value with
      | uint256 n =>
          have hn : n < 2 ^ 256 := hnumbers n List.mem_cons_self
          have hrest := @ih (front ++ word n) mid start (by simp; omega) hlater hsize
          rw [List.length_append, length_word, List.append_assoc, ← List.append_assoc (word n)] at hrest
          refine ⟨?_, hrest⟩
          rw [heads, tails, List.append_assoc]
          exact readWord_append hn
      | string bytes =>
          rw [tails, List.length_append] at hsize
          have hbytes : bytes.length < 2 ^ 256 := by
            rw [length_sized] at hsize
            omega
          have hrest := @ih (front ++ word start) (mid ++ sized bytes)
            (start + (sized bytes).length) (by simp; omega) hlater (by omega)
          have hwhole : front ++ word start ++ (heads (start + (sized bytes).length) values ++
              (mid ++ sized bytes ++ tails values)) =
              front ++ (heads start (.string bytes :: values) ++
                (mid ++ tails (.string bytes :: values))) := by
            simp only [heads, tails, List.append_assoc]
          rw [List.length_append, length_word, hwhole] at hrest
          refine ⟨⟨start, ?_, ?_⟩, hrest⟩
          · rw [heads, List.append_assoc]
            exact readWord_append (by omega)
          · have hplace : (front ++ word start ++ heads (start + (sized bytes).length) values ++
                mid).length = start := by
              simp only [List.length_append, length_word, length_heads]
              omega
            have hpadded := @paddedAt_append (front ++ word start ++
              heads (start + (sized bytes).length) values ++ mid) (tails values) bytes hbytes
            rw [hplace] at hpadded
            rw [← hwhole]
            simpa only [List.append_assoc] using hpadded

theorem holds_encode {values : List Value} (hfits : Fits values) : Holds (encode values) 0 values := by
  have hsize : 32 * values.length + (tails values).length < 2 ^ 256 := by
    have hlength := hfits.size
    rwa [encode, List.length_append, length_heads] at hlength
  have hholds := @holds_heads values [] [] (32 * values.length) (by simp) hfits.numbers hsize
  rwa [List.nil_append, List.nil_append] at hholds

/-- What the head words stand for is what is decoded. -/
theorem decodeFrom_of_holds {data : List UInt8} {values : List Value} {position : Nat}
    (hholds : Holds data position values) :
    decodeFrom data position (values.map Value.kind) = some values := by
  induction values generalizing position with
  | nil => rfl
  | cons value values ih =>
      cases value with
      | uint256 n =>
          obtain ⟨hword, hrest⟩ := hholds
          rw [List.map_cons, Value.kind, decodeFrom, hword, ih hrest]
          rfl
      | string bytes =>
          obtain ⟨⟨offset, hword, hpadded⟩, hrest⟩ := hholds
          rw [List.map_cons, Value.kind, decodeFrom, hword]
          simp only [Option.bind_eq_bind, Option.bind_some, hpadded.read, ih hrest]
          rfl

theorem encodes_encode {values : List Value} (hfits : Fits values) :
    Encodes (encode values) values where
  decoded := decodeFrom_of_holds (holds_encode hfits)
  words := dvd_encode values
  holds := holds_encode hfits

end NeuralMesh.Abi
