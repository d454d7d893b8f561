import Mathlib.Algebra.Order.BigOperators.Group.List
import Mathlib.Algebra.Order.Group.Nat
import NeuralMesh.Base.Files
import Mathlib.Algebra.GroupWithZero.Nat

/-!
# Reading a text that grows

A text is a list of symbols, each of some width, and a position in it is the width of what stands
before. A reader counts what it is shown to know where to go on. Its count may use other widths than
the text is cut by, as where a text in UTF-8 is cut at bytes and counted in characters.
-/

namespace NeuralMesh

section Widths

variable {α : Type} (width count : α → Nat)

def textWidth (text : List α) : Nat := (text.map width).sum

/-- The text from a position on; `none` inside a symbol and past the end. -/
def dropWidth : Nat → List α → Option (List α)
  | 0, text => some text
  | _ + 1, [] => none
  | n + 1, a :: text => if width a ≤ n + 1 then dropWidth (n + 1 - width a) text else none

/-- The text up to a position; `none` inside a symbol and past the end. -/
def takeWidth : Nat → List α → Option (List α)
  | 0, _ => some []
  | _ + 1, [] => none
  | n + 1, a :: text =>
      if width a ≤ n + 1 then (takeWidth (n + 1 - width a) text).map (a :: ·) else none

/-- The position lies between two symbols, or at an end of the text. -/
def IsBoundary (n : Nat) (text : List α) : Prop :=
  ∃ front, front <+: text ∧ textWidth width front = n

/-- What there is from a position on: nothing past the end, and `none` inside a symbol. -/
def restFrom (n : Nat) (text : List α) : Option (List α) :=
  if n < textWidth width text then dropWidth width n text else some []

variable {width count} {text front rest more : List α} {n : Nat}

theorem textWidth_append (front rest : List α) :
    textWidth width (front ++ rest) = textWidth width front + textWidth width rest := by
  rw [textWidth, List.map_append, List.sum_append]
  rfl

theorem textWidth_eq_zero (hpos : ∀ a, 0 < width a) : textWidth width text = 0 ↔ text = [] := by
  cases text with
  | nil => exact iff_of_true rfl rfl
  | cons a text =>
      rw [textWidth, List.map_cons, List.sum_cons]
      have ha := hpos a
      exact iff_of_false (by omega) (by simp)

theorem dropWidth_append (hpos : ∀ a, 0 < width a) (front rest : List α) :
    dropWidth width (textWidth width front) (front ++ rest) = some rest := by
  induction front with
  | nil => cases rest <;> rfl
  | cons a front ih =>
      obtain ⟨m, hm⟩ : ∃ m, textWidth width (a :: front) = m + 1 :=
        Nat.exists_eq_succ_of_ne_zero (by rw [Ne, textWidth_eq_zero hpos]; simp)
      have hsum : m + 1 = width a + textWidth width front := by
        rw [← hm, textWidth, List.map_cons, List.sum_cons]
        rfl
      rw [hm, List.cons_append, dropWidth, if_pos (by omega),
        show m + 1 - width a = textWidth width front by omega, ih]

/-- A cut ends where a front of the text does. -/
theorem takeWidth_eq_some_iff (hpos : ∀ a, 0 < width a) :
    takeWidth width n text = some front ↔ front <+: text ∧ textWidth width front = n := by
  induction text generalizing n front with
  | nil =>
      rw [List.prefix_nil]
      cases n with
      | zero =>
          rw [takeWidth, Option.some_inj]
          constructor
          · rintro rfl
            exact ⟨rfl, rfl⟩
          · exact fun hboth => hboth.1.symm
      | succ n =>
          refine iff_of_false nofun ?_
          rintro ⟨rfl, hwidth⟩
          cases hwidth
  | cons a text ih =>
      cases n with
      | zero =>
          rw [takeWidth, Option.some_inj, textWidth_eq_zero hpos]
          constructor
          · rintro rfl
            exact ⟨List.nil_prefix, rfl⟩
          · exact fun hboth => hboth.2.symm
      | succ n =>
          have hcons : ∀ rest, textWidth width (a :: rest) = width a + textWidth width rest := by
            intro rest
            rw [textWidth, List.map_cons, List.sum_cons]
            rfl
          rw [takeWidth]
          split
          · rename_i hfits
            rw [Option.map_eq_some_iff]
            constructor
            · rintro ⟨rest, hrest, rfl⟩
              obtain ⟨hpre, hwidth⟩ := ih.mp hrest
              rw [List.cons_prefix_cons, hcons]
              exact ⟨⟨rfl, hpre⟩, by omega⟩
            · rintro ⟨hpre, hwidth⟩
              cases front with
              | nil => cases hwidth
              | cons b rest =>
                  obtain ⟨rfl, htail⟩ := List.cons_prefix_cons.mp hpre
                  rw [hcons] at hwidth
                  exact ⟨rest, ih.mpr ⟨htail, by omega⟩, rfl⟩
          · rename_i hwide
            refine iff_of_false nofun ?_
            rintro ⟨hpre, hwidth⟩
            cases front with
            | nil => cases hwidth
            | cons b rest =>
                obtain ⟨rfl, -⟩ := List.cons_prefix_cons.mp hpre
                rw [hcons] at hwidth
                omega

/-- What a cut leaves is as wide as it should be. -/
theorem textWidth_of_dropWidth (hdrop : dropWidth width n text = some rest) :
    textWidth width text = n + textWidth width rest := by
  induction text generalizing n with
  | nil =>
      cases n with
      | zero =>
          cases hdrop
          rw [Nat.zero_add]
      | succ n => cases hdrop
  | cons a text ih =>
      cases n with
      | zero =>
          cases hdrop
          rw [Nat.zero_add]
      | succ n =>
          rw [dropWidth] at hdrop
          split at hdrop
          · have htail := ih hdrop
            rw [textWidth, List.map_cons, List.sum_cons]
            change width a + textWidth width text = _
            omega
          · cases hdrop

/-- A text can be cut where a symbol ends, and nowhere else. -/
theorem takeWidth_isSome_iff (hpos : ∀ a, 0 < width a) :
    (takeWidth width n text).isSome ↔ IsBoundary width n text := by
  rw [Option.isSome_iff_exists]
  exact exists_congr fun front => takeWidth_eq_some_iff hpos

theorem IsBoundary.cons {a : α} (htail : IsBoundary width n text) :
    IsBoundary width (width a + n) (a :: text) := by
  obtain ⟨front, hfront, rfl⟩ := htail
  refine ⟨a :: front, List.cons_prefix_cons.mpr ⟨rfl, hfront⟩, ?_⟩
  rw [textWidth, List.map_cons, List.sum_cons]
  rfl

theorem isBoundary_of_dropWidth (hdrop : dropWidth width n text = some rest) :
    IsBoundary width n text := by
  induction text generalizing n with
  | nil =>
      cases n with
      | zero => exact ⟨[], List.nil_prefix, rfl⟩
      | succ n => cases hdrop
  | cons a text ih =>
      cases n with
      | zero => exact ⟨[], List.nil_prefix, rfl⟩
      | succ n =>
          rw [dropWidth] at hdrop
          split at hdrop
          · rename_i hfits
            have hcons := (ih hdrop).cons (a := a)
            rwa [Nat.add_sub_cancel' hfits] at hcons
          · cases hdrop

theorem dropWidth_isSome_iff (hpos : ∀ a, 0 < width a) :
    (dropWidth width n text).isSome ↔ IsBoundary width n text := by
  constructor
  · intro hsome
    obtain ⟨rest, hrest⟩ := Option.isSome_iff_exists.mp hsome
    exact isBoundary_of_dropWidth hrest
  · rintro ⟨front, ⟨rest, rfl⟩, rfl⟩
    rw [dropWidth_append hpos]
    rfl

theorem restFrom_append (hpos : ∀ a, 0 < width a) (front rest : List α) :
    restFrom width (textWidth width front) (front ++ rest) = some rest := by
  rw [restFrom, textWidth_append]
  split
  · exact dropWidth_append hpos front rest
  · rename_i hend
    rw [(textWidth_eq_zero hpos).mp (by omega : textWidth width rest = 0)]

/-- A position that lies before the end of what was shown repeats some of it. -/
theorem not_prefix_of_behind (hbehind : n < textWidth width front) (hfront : front <+: text)
    (hrest : restFrom width n text = some rest) : ¬ (front ++ rest) <+: text := by
  rintro ⟨more, hmore⟩
  obtain ⟨tail, htail⟩ := hfront
  have hle : textWidth width front ≤ textWidth width text := by
    rw [← htail, textWidth_append]
    omega
  rw [restFrom, if_pos (by omega)] at hrest
  have hdropped := textWidth_of_dropWidth hrest
  have hwhole : textWidth width text =
      textWidth width front + textWidth width rest + textWidth width more := by
    rw [← hmore, textWidth_append, textWidth_append]
  omega

/-- Counts that are no larger than the widths and agree in sum agree on every symbol. -/
theorem textWidth_eq_iff (hle : ∀ a, count a ≤ width a) :
    textWidth count text = textWidth width text ↔ ∀ a ∈ text, count a = width a := by
  induction text with
  | nil => exact iff_of_true rfl nofun
  | cons a text ih =>
      have hhead := hle a
      have htail : textWidth count text ≤ textWidth width text :=
        List.sum_le_sum fun b _ => hle b
      rw [List.forall_mem_cons, ← ih]
      simp only [textWidth, List.map_cons, List.sum_cons] at htail ⊢
      omega

theorem textWidth_le (hle : ∀ a, count a ≤ width a) (text : List α) :
    textWidth count text ≤ textWidth width text := List.sum_le_sum fun a _ => hle a

/-- A reader that has been shown the text up to its position. -/
structure ShownUpTo (width : α → Nat) (text shown : List α) (offset : Nat) : Prop where
  shown_prefix : shown <+: text
  offset_eq : offset = textWidth width shown

namespace ShownUpTo

variable {shown : List α} {offset : Nat}

theorem nil (text : List α) : ShownUpTo width text [] 0 := ⟨List.nil_prefix, rfl⟩

theorem grow (hfollows : ShownUpTo width text shown offset) (more : List α) :
    ShownUpTo width (text ++ more) shown offset :=
  ⟨hfollows.shown_prefix.trans (List.prefix_append _ _), hfollows.offset_eq⟩

/-- Such a reader finds what it was not shown yet. -/
theorem restFrom (hpos : ∀ a, 0 < width a) (hfollows : ShownUpTo width text shown offset) :
    ∃ rest, NeuralMesh.restFrom width offset text = some rest ∧ text = shown ++ rest := by
  obtain ⟨⟨rest, rfl⟩, rfl⟩ := hfollows
  exact ⟨rest, restFrom_append hpos shown rest, rfl⟩

theorem all {rest : List α} (hfollows : ShownUpTo width (shown ++ rest) shown offset) :
    ShownUpTo width (shown ++ rest) (shown ++ rest) (offset + textWidth width rest) :=
  ⟨List.prefix_rfl, by rw [hfollows.offset_eq, textWidth_append]⟩

end ShownUpTo

end Widths

/-! ### Texts in UTF-8 -/

/-- `str::len` -/
def byteLength (text : String) : Nat := (utf8 text).length

/-- `text[offset..]`; `none` where it panics. -/
def sliceFrom (text : String) (offset : Nat) : Option String :=
  (dropWidth Char.utf8Size offset text.toList).map String.ofList

/-- `text[..end]`; `none` where it panics. -/
def sliceTo (text : String) (stop : Nat) : Option String :=
  (takeWidth Char.utf8Size stop text.toList).map String.ofList

theorem byteLength_eq (text : String) : byteLength text = textWidth Char.utf8Size text.toList := by
  rw [byteLength, utf8, List.length_flatMap, textWidth]
  simp only [String.length_utf8EncodeChar]

theorem sliceFrom_eq (text : String) (offset : Nat) :
    (if offset < byteLength text then sliceFrom text offset else some "") =
      (restFrom Char.utf8Size offset text.toList).map String.ofList := by
  rw [restFrom, byteLength_eq]
  split <;> rfl

end NeuralMesh
