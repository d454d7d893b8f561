import Mathlib.Data.List.Basic
import Mathlib.Algebra.GroupWithZero.Nat

/-!
# PostgreSQL's `format`

A template is text with specifiers `%[position$][-][width]type`; the type is `s`, `I` or `L`, and `%%`
stands for a percent sign. Every other specifier is an error, and so is one that the template breaks
off. What a value looks like under each type is a parameter.
-/

namespace NeuralMesh.PgFormat

inductive Conversion where
  | s | I | L
  deriving DecidableEq, Repr

def Conversion.ofChar : Char → Option Conversion
  | 's' => some .s
  | 'I' => some .I
  | 'L' => some .L
  | _ => none

/-- A width is a number of the template, or an argument: the one of a position, or the next. -/
inductive Width where
  | given (n : Nat)
  | argument (position : Option Nat)

structure Specifier where
  position : Option Nat
  minus : Bool
  width : Option Width
  conversion : Conversion

inductive Piece where
  | char (c : Char)
  | specifier (spec : Specifier)

/-! ### Reading the template -/

/-- The number at the head of the text, if there is one. The text goes on after it, and a number fits
an `int`. -/
def number (found : Option Nat) : List Char → Option (Option Nat × List Char)
  | [] => none
  | c :: rest =>
      if c.isDigit then
        let n := found.getD 0 * 10 + (c.toNat - '0'.toNat)
        if n < 2 ^ 31 then number (some n) rest else none
      else some (found, c :: rest)

/-- The type ends the specifier. -/
def conversion (position : Option Nat) (minus : Bool) (width : Option Width) :
    List Char → Option (Specifier × List Char)
  | [] => none
  | c :: rest => (Conversion.ofChar c).map fun type => (⟨position, minus, width, type⟩, rest)

/-- What follows the position. -/
def flagsAndWidth (position : Option Nat) (text : List Char) : Option (Specifier × List Char) :=
  let minus := text.head? = some '-'
  match text.dropWhile (· = '-') with
  | '*' :: rest =>
      match number none rest with
      | some (some n, '$' :: rest) =>
          if n = 0 then none else conversion position minus (some (.argument (some n))) rest
      | some (none, rest) => conversion position minus (some (.argument none)) rest
      | _ => none
  | text => do
      let (width, rest) ← number none text
      conversion position minus (width.map .given) rest

/-- What follows a percent sign that is not doubled. -/
def specifier (text : List Char) : Option (Specifier × List Char) :=
  match number none text with
  | some (some n, '$' :: rest) => if n = 0 then none else flagsAndWidth (some n) rest
  | some (some n, rest) => conversion none false (some (.given n)) rest
  | some (none, rest) => flagsAndWidth none rest
  | none => none

/-- The pieces of a template of at most `fuel` characters. -/
def pieces : (fuel : Nat) → List Char → Option (List Piece)
  | _, [] => some []
  | 0, _ :: _ => none
  | fuel + 1, '%' :: '%' :: rest => (pieces fuel rest).map (.char '%' :: ·)
  | fuel + 1, '%' :: rest => do
      let (spec, rest) ← specifier rest
      return .specifier spec :: (← pieces fuel rest)
  | fuel + 1, c :: rest => (pieces fuel rest).map (.char c :: ·)

/-! ### Writing the values -/

/-- How the values of a type are written, and read as a width. -/
structure Values (α : Type) where
  text : Conversion → α → Option String
  width : α → Option Int

variable {α : Type}

/-- Fill up to the width, on the right if it is negative or the flag is set. -/
def pad (minus : Bool) (width : Int) (text : String) : String :=
  let fill := String.ofList (List.replicate (width.natAbs - text.length) ' ')
  if minus ∨ width < 0 then text ++ fill else fill ++ text

/-- The width a specifier asks for, and the last argument it used. -/
def widthOf (values : Values α) (args : List α) (used : Nat) : Option Width → Option (Int × Nat)
  | none => some (0, used)
  | some (.given n) => some (n, used)
  | some (.argument position) => do
      let place := position.getD (used + 1)
      let arg ← args[place - 1]?
      return (← values.width arg, place)

/-- The arguments are taken in order; one that is named by its position sets where the next is. -/
def write (values : Values α) (args : List α) : (used : Nat) → List Piece → Option String
  | _, [] => some ""
  | used, .char c :: rest => (write values args used rest).map (c.toString ++ ·)
  | used, .specifier spec :: rest => do
      let (width, used) ← widthOf values args used spec.width
      let place := spec.position.getD (used + 1)
      let arg ← args[place - 1]?
      let text ← values.text spec.conversion arg
      return pad spec.minus width text ++ (← write values args place rest)

def format (values : Values α) (template : String) (args : List α) : Option String := do
  write values args 0 (← pieces template.length template.toList)

/-! ### Types that are none -/

/-- The character can begin none of the parts of a specifier. -/
def Unknown (c : Char) : Prop :=
  c ≠ '%' ∧ c ≠ '-' ∧ c ≠ '*' ∧ c.isDigit = false ∧ Conversion.ofChar c = none

theorem specifier_eq_none {c : Char} (hunknown : Unknown c) (rest : List Char) :
    specifier (c :: rest) = none := by
  obtain ⟨_, hminus, hstar, hdigit, htype⟩ := hunknown
  have hnumber : number none (c :: rest) = some (none, c :: rest) := by
    rw [number, hdigit]
    rfl
  have hflags : (c :: rest).dropWhile (· = '-') = c :: rest := by
    rw [List.dropWhile_cons, if_neg (by simpa using hminus)]
  rw [specifier, hnumber]
  dsimp only
  rw [flagsAndWidth, hflags]
  split
  · rename_i heq
    exact absurd (List.cons.inj heq).1 hstar
  · rw [hnumber]
    show (Conversion.ofChar c).map _ = none
    rw [htype, Option.map_none]

theorem pieces_eq_none {c : Char} (hunknown : Unknown c) (rest : List Char) (fuel : Nat)
    (literal : List Char) (hliteral : '%' ∉ literal) :
    pieces fuel (literal ++ '%' :: c :: rest) = none := by
  induction literal generalizing fuel with
  | nil =>
      cases fuel with
      | zero => rfl
      | succ fuel =>
          rw [List.nil_append, pieces]
          · rw [specifier_eq_none hunknown]
            rfl
          · intro rest' heq
            exact hunknown.1 (List.cons.inj heq).1
  | cons d literal ih =>
      rw [List.mem_cons, not_or] at hliteral
      cases fuel with
      | zero => rfl
      | succ fuel =>
          rw [List.cons_append, pieces]
          · rw [ih fuel hliteral.2, Option.map_none]
          · intro rest' heq
            exact absurd heq.symm hliteral.1
          · intro heq
            exact absurd heq.symm hliteral.1

/-- A template whose first specifier has an unknown type is an error, whatever its arguments. -/
theorem format_eq_none (values : Values α) (args : List α) {template : String}
    (literal rest : List Char) {c : Char} (htemplate : template.toList = literal ++ '%' :: c :: rest)
    (hliteral : '%' ∉ literal) (hunknown : Unknown c) : format values template args = none := by
  rw [format, htemplate, pieces_eq_none hunknown rest _ literal hliteral]
  rfl

end NeuralMesh.PgFormat
