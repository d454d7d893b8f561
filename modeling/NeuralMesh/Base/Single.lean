import Mathlib.Data.Int.Log
import Mathlib.Data.List.TakeWhile
import Mathlib.Data.Rat.Floor
import Mathlib.Algebra.Order.Field.Rat

/-!
# Single precision numbers, as texts

The numbers of the format `f32`, without the sign of zero; the nearest of them to an exact number, the
even one of two; and what a decimal text stands for. Whole numbers up to `2 ^ 24` are among them.
-/

namespace NeuralMesh

inductive F32 where
  | finite (value : ℚ)
  | infinite (negative : Bool)
  | nan
  deriving DecidableEq

/-- The nearest integer, the even one of two. -/
def roundHalfEven (q : ℚ) : Int :=
  let rest := q - q.floor
  if rest < 1 / 2 then q.floor
  else if 1 / 2 < rest then q.floor + 1
  else if q.floor % 2 = 0 then q.floor
  else q.floor + 1

theorem roundHalfEven_intCast (n : Int) : roundHalfEven n = n := by
  have hfloor : (n : ℚ).floor = n := Rat.floor_intCast n
  rw [roundHalfEven, hfloor, sub_self]
  exact if_pos (by norm_num)

namespace F32

/-- The distance of the numbers around `q`, which have 24 binary digits, fewer below `2 ^ -126`. -/
def unit (q : ℚ) : ℚ := 2 ^ (max (Int.log 2 |q|) (-126) - 23)

/-- The nearest number. -/
def round (q : ℚ) : F32 :=
  let nearest := roundHalfEven (q / unit q) * unit q
  if 2 ^ 128 ≤ |nearest| then .infinite (q < 0) else .finite nearest

/-- The order; `nan` is in no relation. -/
def lt : F32 → F32 → Bool
  | .nan, _ => false
  | _, .nan => false
  | .finite a, .finite b => a < b
  | .finite _, .infinite negative => !negative
  | .infinite negative, .finite _ => negative
  | .infinite a, .infinite b => a && !b

theorem zpow_log_le {n : Int} (hne : n ≠ 0) : (2 : ℚ) ^ Int.log 2 |(n : ℚ)| ≤ |(n : ℚ)| := by
  have hpos : (0 : ℚ) < |(n : ℚ)| := by
    rw [abs_pos]
    exact_mod_cast hne
  exact_mod_cast Int.zpow_log_le_self (by norm_num) hpos

/-- A whole number of this size is a multiple of the distance. -/
theorem exists_multiple {n : Int} (hn : |n| ≤ 2 ^ 24) : ∃ m : Int, (n : ℚ) / unit n = m := by
  by_cases hne : n = 0
  · subst hne
    exact ⟨0, by simp⟩
  have hle : |(n : ℚ)| ≤ (2 : ℚ) ^ (24 : ℤ) := by exact_mod_cast hn
  have hlog : Int.log 2 |(n : ℚ)| ≤ 24 :=
    (zpow_le_zpow_iff_right₀ (a := (2 : ℚ)) (by norm_num)).mp ((zpow_log_le hne).trans hle)
  rw [unit]
  generalize hexponent : max (Int.log 2 |(n : ℚ)|) (-126) = exponent
  by_cases hsmall : exponent ≤ 23
  · -- the distance is one over a whole number
    obtain ⟨k, hk⟩ := Int.eq_ofNat_of_zero_le (show 0 ≤ 23 - exponent by omega)
    refine ⟨n * 2 ^ k, ?_⟩
    rw [show exponent - 23 = -(k : ℤ) by omega, zpow_neg, zpow_natCast, div_inv_eq_mul]
    push_cast
    rfl
  · -- the distance is two, and the number is one of the two greatest
    have heq : Int.log 2 |(n : ℚ)| = 24 := by omega
    have hge : (2 : ℚ) ^ (24 : ℤ) ≤ |(n : ℚ)| := heq ▸ zpow_log_le hne
    have habs : |n| = 2 ^ 24 := le_antisymm hn (by exact_mod_cast hge)
    rw [show exponent - 23 = 1 by omega, zpow_one]
    rcases abs_eq (by norm_num) |>.mp habs with rfl | rfl
    · exact ⟨2 ^ 23, by norm_num⟩
    · exact ⟨-2 ^ 23, by norm_num⟩

theorem round_intCast {n : Int} (hn : |n| ≤ 2 ^ 24) : round n = .finite n := by
  obtain ⟨m, hm⟩ := exists_multiple hn
  have hunit : unit n ≠ 0 := zpow_ne_zero _ (by norm_num)
  have hnearest : (roundHalfEven (n / unit n) : ℚ) * unit n = n := by
    rw [hm, roundHalfEven_intCast, ← hm, div_mul_cancel₀ _ hunit]
  have hsmall : ¬ (2 : ℚ) ^ 128 ≤ |(n : ℚ)| := by
    have hle : |(n : ℚ)| ≤ (2 : ℚ) ^ 24 := by exact_mod_cast hn
    intro hlarge
    exact absurd (hlarge.trans hle) (by norm_num)
  rw [round, hnearest, if_neg hsmall]

/-! ### Texts -/

/-- A decimal without a sign. -/
def decimal (text : List Char) : Option ℚ :=
  let whole := text.takeWhile Char.isDigit
  let (fraction, rest) :=
    match text.dropWhile Char.isDigit with
    | '.' :: rest => (rest.takeWhile Char.isDigit, rest.dropWhile Char.isDigit)
    | rest => ([], rest)
  if whole ++ fraction = [] then none
  else (exponent rest).map fun (e : Int) =>
    (Nat.ofDigitChars 10 (whole ++ fraction) 0 : ℚ) * (10 : ℚ) ^ (e - fraction.length)
where
  /-- The power of ten at the end. -/
  exponent : List Char → Option Int
    | [] => some 0
    | e :: rest =>
        let (negative, digits) :=
          match rest with
          | '-' :: digits => (true, digits)
          | '+' :: digits => (false, digits)
          | digits => (false, digits)
        if (e = 'e' ∨ e = 'E') ∧ digits ≠ [] ∧ digits.all Char.isDigit then
          let n : Int := Nat.ofDigitChars 10 digits 0
          some (if negative then -n else n)
        else none

/-- What follows a sign. -/
def unsigned (negative : Bool) (digits : List Char) : Option F32 :=
  let name := String.ofList (digits.map Char.toLower)
  if name = "inf" ∨ name = "infinity" then some (.infinite negative)
  else if name = "nan" then some .nan
  else (decimal digits).map fun q => round (if negative then -q else q)

/-- `f32::from_str` -/
def fromStr : List Char → Option F32
  | '-' :: digits => unsigned true digits
  | '+' :: digits => unsigned false digits
  | digits => unsigned false digits

end F32

/-- `u64::from_str` -/
def u64FromStr (text : List Char) : Option Nat :=
  let digits := if text.head? = some '+' then text.tail else text
  let n := Nat.ofDigitChars 10 digits 0
  if digits ≠ [] ∧ digits.all Char.isDigit ∧ n < 2 ^ 64 then some n else none

/-! ### Whole numbers, as they are written -/

theorem isDigit_of_mem_repr {n : Nat} {c : Char} (hc : c ∈ n.repr.toList) : c.isDigit = true := by
  rw [Nat.toList_repr] at hc
  exact Nat.isDigit_of_mem_toDigits (by decide) (by decide) hc

theorem ofDigitChars_repr (n : Nat) : Nat.ofDigitChars 10 n.repr.toList 0 = n := by
  rw [Nat.toList_repr]
  exact Nat.ofDigitChars_toDigits (by decide) (by decide)

theorem repr_ne_nil (n : Nat) : n.repr.toList ≠ [] := by
  rw [Nat.toList_repr]
  exact Nat.toDigits_ne_nil

theorem u64FromStr_repr {n : Nat} (hn : n < 2 ^ 64) : u64FromStr n.repr.toList = some n := by
  have hplus : n.repr.toList.head? ≠ some '+' := by
    intro hhead
    exact absurd (isDigit_of_mem_repr (List.mem_of_mem_head? hhead)) (by decide)
  rw [u64FromStr, if_neg hplus, ofDigitChars_repr]
  exact if_pos ⟨repr_ne_nil n, List.all_eq_true.mpr fun c hc => isDigit_of_mem_repr hc, hn⟩

namespace F32

/-- A text of digits alone. -/
theorem decimal_repr (n : Nat) : decimal n.repr.toList = some (n : ℚ) := by
  have htake : n.repr.toList.takeWhile Char.isDigit = n.repr.toList :=
    List.takeWhile_eq_self_iff.mpr fun c hc => isDigit_of_mem_repr hc
  have hdrop : n.repr.toList.dropWhile Char.isDigit = [] :=
    List.dropWhile_eq_nil_iff.mpr fun c hc => isDigit_of_mem_repr hc
  rw [decimal, htake, hdrop]
  simp [decimal.exponent]

theorem toLower_of_isDigit {c : Char} (hc : c.isDigit = true) : c.toLower = c := by
  simp only [Char.isDigit, Bool.and_eq_true, decide_eq_true_eq] at hc
  apply dif_neg
  rintro ⟨hlow, _⟩
  have h1 : c.val.toNat ≤ 57 := UInt32.le_iff_toNat_le.mp hc.2
  have h2 : 65 ≤ c.val.toNat := UInt32.le_iff_toNat_le.mp hlow
  omega

/-- Digits are no name. -/
theorem repr_ne_name (n : Nat) {name : String} (hname : name.toList.any Char.isDigit = false) :
    String.ofList (n.repr.toList.map Char.toLower) ≠ name := by
  rintro rfl
  obtain ⟨c, hc⟩ := List.exists_mem_of_ne_nil _ (repr_ne_nil n)
  have hmem : c ∈ (String.ofList (n.repr.toList.map Char.toLower)).toList := by
    rw [String.toList_ofList]
    exact List.mem_map.mpr ⟨c, hc, toLower_of_isDigit (isDigit_of_mem_repr hc)⟩
  exact List.any_eq_false.mp hname c hmem (isDigit_of_mem_repr hc)

theorem unsigned_repr (negative : Bool) (n : Nat) :
    unsigned negative n.repr.toList = some (round (if negative then -n else n)) := by
  have hinf : String.ofList (n.repr.toList.map Char.toLower) ≠ "inf" := repr_ne_name n (by decide)
  have hinfinity : String.ofList (n.repr.toList.map Char.toLower) ≠ "infinity" :=
    repr_ne_name n (by decide)
  have hnan : String.ofList (n.repr.toList.map Char.toLower) ≠ "nan" := repr_ne_name n (by decide)
  simp only [unsigned, hinf, hinfinity, hnan, or_self, if_false, decimal_repr, Option.map_some]

/-- A whole number is read as the nearest number. -/
theorem fromStr_repr (n : Int) : fromStr n.repr.toList = some (round n) := by
  rw [Int.repr_eq_if]
  split
  · rename_i hn
    have hvalue : ((n.toNat : ℕ) : ℚ) = n := by exact_mod_cast Int.toNat_of_nonneg hn
    have hread : fromStr n.toNat.repr.toList = unsigned false n.toNat.repr.toList := by
      cases hdigits : n.toNat.repr.toList with
      | nil => rfl
      | cons c rest =>
          have hdigit : c.isDigit = true := isDigit_of_mem_repr (hdigits ▸ List.mem_cons_self)
          have hminus : c ≠ '-' := fun heq => absurd (heq ▸ hdigit) (by decide)
          have hplus : c ≠ '+' := fun heq => absurd (heq ▸ hdigit) (by decide)
          simp [fromStr, hminus, hplus]
    rw [hread, unsigned_repr, ← hvalue]
    rfl
  · rename_i hn
    have hvalue : -(((-n).toNat : ℕ) : ℚ) = n := by
      have : ((-n).toNat : ℤ) = -n := Int.toNat_of_nonneg (by omega)
      have hcast : (((-n).toNat : ℕ) : ℚ) = -n := by exact_mod_cast this
      rw [hcast, neg_neg]
    rw [String.toList_append]
    show unsigned true (-n).toNat.repr.toList = _
    rw [unsigned_repr, ← hvalue]
    rfl

end F32

end NeuralMesh
