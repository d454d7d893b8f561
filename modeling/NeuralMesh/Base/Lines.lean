import Mathlib.Data.List.Infix
import Mathlib.Algebra.Group.Nat.Even

/-!
# Lines of text

A text as the lines of it, what is left of a line without the characters at its ends, and the part
after the first occurrence of a character.
-/

namespace NeuralMesh.Text

/-- `char::is_whitespace` -/
def isWhitespace (c : Char) : Bool :=
  (9 ≤ c.toNat ∧ c.toNat ≤ 13) ∨ (0x2000 ≤ c.toNat ∧ c.toNat ≤ 0x200A) ∨
    c.toNat ∈ [0x20, 0x85, 0xA0, 0x1680, 0x2028, 0x2029, 0x202F, 0x205F, 0x3000]

/-- `str::trim_matches` -/
def trimMatches (p : Char → Bool) (text : List Char) : List Char :=
  ((text.dropWhile p).reverse.dropWhile p).reverse

/-- `str::trim` -/
def trim (text : List Char) : List Char := trimMatches isWhitespace text

/-- The second part of `splitn(2, sep)`, if there are two. -/
def afterFirst (sep : Char) (text : List Char) : Option (List Char) :=
  (text.dropWhile (· ≠ sep)).tail?

/-- A line that ends in a carriage return and a line feed ends before both. -/
def stripReturn (line : List Char) : List Char :=
  if line.getLast? = some '\r' then line.dropLast else line

/-- `str::lines` -/
def lines (text : List Char) : List (List Char) :=
  let parts := text.splitOn '\n'
  parts.dropLast.map stripReturn ++ (parts.getLast?.filter (· ≠ [])).toList

variable {p : Char → Bool} {sep : Char} {text : List Char}

/-- Nothing is taken from a text between two characters of other kinds. -/
theorem trimMatches_of_ends {first last : Char} (hfirst : p first = false) (hlast : p last = false)
    (middle : List Char) : trimMatches p (first :: (middle ++ [last])) = first :: (middle ++ [last]) := by
  have hback : (first :: (middle ++ [last])).reverse = last :: (first :: middle).reverse := by
    rw [← List.cons_append, List.reverse_append]
    rfl
  rw [trimMatches, List.dropWhile_cons_of_neg (by rw [hfirst]; exact Bool.false_ne_true), hback,
    List.dropWhile_cons_of_neg (by rw [hlast]; exact Bool.false_ne_true), ← hback, List.reverse_reverse]

theorem trimMatches_eq_self (htext : ∀ c ∈ text, p c = false) : trimMatches p text = text := by
  have hdrop : ∀ l : List Char, (∀ c ∈ l, p c = false) → l.dropWhile p = l := by
    intro l hl
    cases l with
    | nil => rfl
    | cons c l => exact List.dropWhile_cons_of_neg (by simp [hl c List.mem_cons_self])
  rw [trimMatches, hdrop text htext, hdrop text.reverse fun c hc => htext c (List.mem_reverse.mp hc),
    List.reverse_reverse]

/-- The characters before are dropped, if they are all of the kind. -/
theorem trimMatches_append {front : List Char} (hfront : ∀ c ∈ front, p c = true) :
    trimMatches p (front ++ text) = trimMatches p text := by
  rw [trimMatches, List.dropWhile_append_of_pos hfront, trimMatches]

theorem afterFirst_append {front : List Char} (hfront : sep ∉ front) :
    afterFirst sep (front ++ sep :: text) = some text := by
  have hpassed : ∀ c ∈ front, decide (c ≠ sep) = true := by
    intro c hc
    refine decide_eq_true fun heq => ?_
    exact hfront (heq ▸ hc)
  rw [afterFirst, List.dropWhile_append_of_pos hpassed, List.dropWhile_cons_of_neg (by simp)]
  rfl

theorem afterFirst_eq_none : afterFirst sep text = none ↔ sep ∉ text := by
  induction text with
  | nil => simp [afterFirst]
  | cons c text ih =>
      by_cases hc : c = sep
      · subst hc
        simp [afterFirst]
      · rw [List.mem_cons, not_or, afterFirst, List.dropWhile_cons_of_pos (by simpa using hc),
          ← afterFirst, ih]
        exact ⟨fun h => ⟨fun heq => hc heq.symm, h⟩, fun h => h.2⟩

/-! ### Texts that are made of lines -/

theorem splitOn_flatMap {ls : List (List Char)} (hls : ∀ line ∈ ls, '\n' ∉ line) :
    (ls.flatMap (· ++ ['\n'])).splitOn '\n' = ls ++ [[]] := by
  induction ls with
  | nil => rfl
  | cons line ls ih =>
      rw [List.flatMap_cons, List.append_assoc, List.singleton_append,
        List.splitOn_append_cons_self_of_not_mem (hls line List.mem_cons_self),
        ih fun l hl => hls l (List.mem_cons_of_mem _ hl)]
      rfl

theorem lines_flatMap {ls : List (List Char)} (hls : ∀ line ∈ ls, '\n' ∉ line) :
    lines (ls.flatMap (· ++ ['\n'])) = ls.map stripReturn := by
  rw [lines, splitOn_flatMap hls]
  simp

end NeuralMesh.Text
