import Mathlib.Data.List.Nodup
import Mathlib.Data.List.Perm.Basic
import Mathlib.Order.Lattice

/-!
# Pages of a sorted list

A page is cut out of the rows as they were sorted for it. Rows with the same key may come in another
order for another page, so that the pages are together what was sorted only where the places of a key
all lie on one page.
-/

namespace NeuralMesh

variable {α κ : Type} [LinearOrder κ]

/-- The rows in an order by their keys. -/
structure Arrangement (key : α → κ) (rows sorted : List α) : Prop where
  perm : sorted.Perm rows
  sorted : sorted.Pairwise fun a b => key a ≤ key b

section Pages

variable (key : α → κ) (size : Nat) (rows : List α)

/-- The page with this number, from 0. -/
def page (k : Nat) (sorted : List α) : List α := (sorted.drop (k * size)).take size

/-- So many pages, each of its own arrangement. -/
def pages (count : Nat) (arranged : Nat → List α) : List α :=
  (List.range count).flatMap fun k => page size k (arranged k)

/-- The rows that come before every row with this key. -/
def countBelow (a : α) : Nat := rows.countP fun b => decide (key b < key a)

/-- The rows that come before every row with a greater key. -/
def countUpTo (a : α) : Nat := rows.countP fun b => decide (key b ≤ key a)

/-- The first place and the last one that a row may have lie on the same page. -/
def OnOnePage : Prop := ∀ a ∈ rows, countBelow key rows a / size = (countUpTo key rows a - 1) / size

instance : Decidable (OnOnePage key size rows) :=
  inferInstanceAs (Decidable (∀ a ∈ rows, _))

end Pages

variable {key : α → κ} {size count : Nat} {rows sorted sorted' front back : List α} {a b x y : α}

/-! ### Places in a sorted list -/

/-- Where what satisfies a condition comes first, a row satisfies it if and only if its place is among
so many. -/
theorem sat_iff_lt_countP {P : α → Bool}
    (hmono : (front ++ x :: back).Pairwise fun a b => P b → P a) :
    P x ↔ front.length < (front ++ x :: back).countP P := by
  obtain ⟨-, hback, hfront⟩ := List.pairwise_append.mp hmono
  rw [List.countP_append, List.countP_cons]
  by_cases hx : P x
  · have hall : front.countP P = front.length :=
      List.countP_eq_length.mpr fun a ha => hfront a ha x List.mem_cons_self hx
    rw [hall, if_pos hx]
    exact iff_of_true hx (by omega)
  · have hnone : back.countP P = 0 :=
      List.countP_eq_zero.mpr fun b hb hsat => hx ((List.pairwise_cons.mp hback).1 b hb hsat)
    have hle := List.countP_le_length (p := P) (l := front)
    rw [hnone, if_neg hx]
    exact iff_of_false hx (by omega)

namespace Arrangement

variable (harranged : Arrangement key rows (front ++ x :: back))

include harranged

theorem lt_iff (a : α) : key x < key a ↔ front.length < countBelow key rows a := by
  rw [countBelow, ← harranged.perm.countP_eq, ← sat_iff_lt_countP, decide_eq_true_eq]
  refine harranged.sorted.imp fun hle hlt => ?_
  exact decide_eq_true (hle.trans_lt (of_decide_eq_true hlt))

theorem le_iff (a : α) : key x ≤ key a ↔ front.length < countUpTo key rows a := by
  rw [countUpTo, ← harranged.perm.countP_eq, ← sat_iff_lt_countP, decide_eq_true_eq]
  refine harranged.sorted.imp fun hle hle' => ?_
  exact decide_eq_true (hle.trans (of_decide_eq_true hle'))

theorem countBelow_le : countBelow key rows x ≤ front.length :=
  Nat.le_of_not_lt fun hlt => lt_irrefl _ ((harranged.lt_iff x).mpr hlt)

theorem lt_countUpTo : front.length < countUpTo key rows x := (harranged.le_iff x).mp le_rfl

/-- The places of a key have rows with this key. -/
theorem key_eq (hbelow : countBelow key rows a ≤ front.length)
    (hupTo : front.length < countUpTo key rows a) : key x = key a := by
  refine le_antisymm ((harranged.le_iff a).mpr hupTo) (not_lt.mp fun hlt => ?_)
  exact absurd ((harranged.lt_iff a).mp hlt) (Nat.not_lt.mpr hbelow)

end Arrangement

theorem Arrangement.length_eq (harranged : Arrangement key rows sorted) :
    sorted.length = rows.length := harranged.perm.length_eq

/-! ### Where the order does not matter -/

theorem countUpTo_eq (key : α → κ) (rows : List α) (a : α) :
    countUpTo key rows a = countBelow key rows a + (rows.map key).count (key a) := by
  rw [countUpTo, countBelow, List.count, List.countP_map]
  induction rows with
  | nil => rfl
  | cons b rows ih =>
      rw [List.countP_cons, List.countP_cons, List.countP_cons, ih, Function.comp_apply]
      rcases lt_trichotomy (key b) (key a) with hlt | heq | hgt
      · simp [hlt.le, hlt, hlt.ne]
        omega
      · simp [heq]
        omega
      · simp [hgt.not_ge, hgt.not_gt, hgt.ne']

/-- A key of its own leaves a row one place only. -/
theorem onOnePage_of_nodup_keys (hnodup : (rows.map key).Nodup) : OnOnePage key size rows := by
  intro a ha
  rw [countUpTo_eq, List.count_eq_one_of_mem hnodup (List.mem_map_of_mem ha), Nat.add_sub_cancel]

theorem onOnePage_of_length_le (hfew : rows.length ≤ size) : OnOnePage key size rows := by
  intro a ha
  have hcount := countUpTo_eq key rows a
  have hpos : 0 < (rows.map key).count (key a) := List.count_pos_iff.mpr (List.mem_map_of_mem ha)
  have hle : countUpTo key rows a ≤ rows.length := List.countP_le_length
  rw [Nat.div_eq_of_lt (by omega), Nat.div_eq_of_lt (by omega)]

theorem countUpTo_le_of_countBelow_lt (hpage : OnOnePage key size rows) (hsize : 0 < size)
    (hmem : a ∈ rows) {k : Nat} (hbelow : countBelow key rows a < k * size) :
    countUpTo key rows a ≤ k * size := by
  rw [← Nat.div_lt_iff_lt_mul hsize, hpage a hmem, Nat.div_lt_iff_lt_mul hsize] at hbelow
  omega

/-- The rows before a page are those that have to be. -/
theorem take_eq_filter (harranged : Arrangement key rows sorted) (hpage : OnOnePage key size rows)
    (hsize : 0 < size) (k : Nat) :
    sorted.take (k * size) = sorted.filter fun a => decide (countUpTo key rows a ≤ k * size) := by
  have hsplit := List.take_append_drop (k * size) sorted
  have hbefore : ∀ a ∈ sorted.take (k * size), decide (countUpTo key rows a ≤ k * size) = true := by
    intro a ha
    obtain ⟨front, back, htake⟩ := List.append_of_mem ha
    have hlength : front.length < k * size := by
      have hle := List.length_take_le (k * size) sorted
      rw [htake, List.length_append, List.length_cons] at hle
      omega
    rw [htake, List.append_assoc, List.cons_append] at hsplit
    rw [← hsplit] at harranged
    have hmem : a ∈ rows := harranged.perm.mem_iff.mp (List.mem_append_right _ List.mem_cons_self)
    exact decide_eq_true (countUpTo_le_of_countBelow_lt hpage hsize hmem
      (Nat.lt_of_le_of_lt harranged.countBelow_le hlength))
  have hafter : ∀ a ∈ sorted.drop (k * size), ¬ decide (countUpTo key rows a ≤ k * size) = true := by
    intro a ha
    obtain ⟨front, back, hdrop⟩ := List.append_of_mem ha
    have hlength : (sorted.take (k * size)).length = k * size := by
      have hsome := congrArg List.length hdrop
      rw [List.length_drop, List.length_append, List.length_cons] at hsome
      exact List.length_take_of_le (by omega)
    rw [hdrop, ← List.append_assoc] at hsplit
    rw [← hsplit] at harranged
    have hlt := harranged.lt_countUpTo
    rw [List.length_append, hlength] at hlt
    rw [decide_eq_true_eq]
    omega
  conv_rhs =>
    rw [← hsplit, List.filter_append, List.filter_eq_self.mpr hbefore,
      List.filter_eq_nil_iff.mpr hafter, List.append_nil]

theorem take_perm (harranged : Arrangement key rows sorted)
    (harranged' : Arrangement key rows sorted') (hpage : OnOnePage key size rows) (hsize : 0 < size)
    (k : Nat) : (sorted.take (k * size)).Perm (sorted'.take (k * size)) := by
  rw [take_eq_filter harranged hpage hsize, take_eq_filter harranged' hpage hsize]
  exact (harranged.perm.trans harranged'.perm.symm).filter _

theorem take_succ_mul (k : Nat) (sorted : List α) :
    sorted.take ((k + 1) * size) = sorted.take (k * size) ++ page size k sorted := by
  rw [Nat.succ_mul, List.take_add, page]

theorem page_perm (harranged : Arrangement key rows sorted)
    (harranged' : Arrangement key rows sorted') (hpage : OnOnePage key size rows) (hsize : 0 < size)
    (k : Nat) : (page size k sorted).Perm (page size k sorted') := by
  have hsucc := take_perm harranged harranged' hpage hsize (k + 1)
  rw [take_succ_mul, take_succ_mul] at hsucc
  have hsame := take_perm harranged harranged' hpage hsize k
  exact (List.perm_append_left_iff _).mp (hsucc.trans (hsame.symm.append_right _))

/-- The pages of one list are its front. -/
theorem pages_const (count : Nat) (sorted : List α) :
    pages size count (fun _ => sorted) = sorted.take (count * size) := by
  induction count with
  | zero => rw [Nat.zero_mul, List.take_zero, pages, List.range_zero, List.flatMap_nil]
  | succ count ih =>
      rw [pages] at ih
      rw [pages, List.range_succ, List.flatMap_append, ih, List.flatMap_singleton, take_succ_mul]

/-- Where the places of every key lie on one page, the pages are all the rows. -/
theorem pages_perm (hpage : OnOnePage key size rows) (hsize : 0 < size)
    (hcount : rows.length ≤ count * size) {arranged : Nat → List α}
    (harranged : ∀ k, Arrangement key rows (arranged k)) :
    (pages size count arranged).Perm rows := by
  have hsame : (pages size count arranged).Perm (pages size count fun _ => arranged 0) :=
    List.Perm.flatMap_left _ fun k _ => page_perm (harranged k) (harranged 0) hpage hsize k
  rw [pages_const, List.take_of_length_le ((harranged 0).length_eq.trans_le hcount)] at hsame
  exact hsame.trans (harranged 0).perm

/-! ### Where it does -/

theorem Arrangement.swap (harranged : Arrangement key rows (front ++ x :: y :: back))
    (hsame : key x = key y) : Arrangement key rows (front ++ y :: x :: back) := by
  refine ⟨((List.Perm.swap x y back).append_left front).trans harranged.perm, ?_⟩
  have hsorted := harranged.sorted
  simp only [List.pairwise_append, List.pairwise_cons, List.mem_cons, forall_eq_or_imp, hsame]
    at hsorted ⊢
  exact ⟨hsorted.1, ⟨⟨le_rfl, hsorted.2.1.2.1⟩, hsorted.2.1.1.2, hsorted.2.1.2.2⟩,
    fun b hb => ⟨(hsorted.2.2 b hb).1, (hsorted.2.2 b hb).1, (hsorted.2.2 b hb).2.2⟩⟩

theorem exists_adjacent {n : Nat} (hn : n + 1 < sorted.length) :
    ∃ front x y back, sorted = front ++ x :: y :: back ∧ front.length = n := by
  refine ⟨sorted.take n, sorted[n], sorted[n + 1], sorted.drop (n + 2), ?_, ?_⟩
  · rw [← List.drop_eq_getElem_cons, ← List.drop_eq_getElem_cons, List.take_append_drop]
  · exact List.length_take_of_le (by omega)

/-- A row is on the page of its place. -/
theorem mem_page {k : Nat} (hfirst : k * size ≤ front.length) (hlast : front.length < (k + 1) * size) :
    x ∈ page size k (front ++ x :: back) := by
  rw [page, List.drop_append_of_le_length hfirst, List.take_append]
  have hlength : (front.drop (k * size)).length < size := by
    rw [List.length_drop]
    rw [Nat.succ_mul] at hlast
    omega
  obtain ⟨more, hmore⟩ := Nat.exists_eq_add_of_lt hlength
  have hroom : size - (front.drop (k * size)).length = more + 1 := by omega
  rw [hroom, List.take_succ_cons]
  exact List.mem_append_right _ List.mem_cons_self

/-- The rows of two pages are different ones. -/
theorem not_mem_both {arranged : Nat → List α} (hnodup : (pages size count arranged).Nodup) {i j : Nat}
    (hij : i < j) (hj : j < count) (hmem : x ∈ page size i (arranged i)) :
    x ∉ page size j (arranged j) := by
  have hdisjoint := List.pairwise_iff_getElem.mp (List.nodup_flatMap.mp hnodup).2 i j
    (by rw [List.length_range]; omega) (by rwa [List.length_range]) hij
  rw [List.getElem_range, List.getElem_range] at hdisjoint
  exact fun hagain => hdisjoint hmem hagain

/-- Places that are not on one page have the end of a page among them. -/
theorem exists_break {below upTo : Nat} (hsize : 0 < size) (hlt : below < upTo)
    (hne : below / size ≠ (upTo - 1) / size) :
    ∃ i, below < (i + 1) * size ∧ (i + 1) * size < upTo := by
  have hle : below / size ≤ (upTo - 1) / size := Nat.div_le_div_right (by omega)
  have hless : below / size < (upTo - 1) / size := Nat.lt_of_le_of_ne hle hne
  have hmul := Nat.div_mul_le_self (upTo - 1) size
  obtain ⟨i, hi⟩ := Nat.exists_eq_succ_of_ne_zero (Nat.ne_zero_of_lt hless)
  rw [hi] at hless hmul
  exact ⟨i, (Nat.div_lt_iff_lt_mul hsize).mp hless, hmul.trans_lt (by omega)⟩

/-- Two places of a key, one after the other, have rows with this key. -/
theorem Arrangement.exists_tie (harranged : Arrangement key rows sorted) {n : Nat}
    (hbelow : countBelow key rows a ≤ n) (hupTo : n + 1 < countUpTo key rows a) :
    ∃ front x y back, sorted = front ++ x :: y :: back ∧ front.length = n ∧ key x = key y := by
  have hlong : n + 1 < sorted.length := by
    rw [harranged.length_eq]
    exact hupTo.trans_le List.countP_le_length
  obtain ⟨front, x, y, back, rfl, rfl⟩ := exists_adjacent hlong
  have hlater : Arrangement key rows ((front ++ [x]) ++ y :: back) := by
    rwa [List.append_assoc, List.singleton_append]
  have hlength : (front ++ [x]).length = front.length + 1 := List.length_append
  have hx : key x = key a := harranged.key_eq hbelow (by omega)
  have hy : key y = key a := hlater.key_eq (by omega) (by omega)
  exact ⟨front, x, y, back, rfl, rfl, hx.trans hy.symm⟩

/-- Of two rows with the same key, one at the end of a page and one at the start of the next, the same
one may be on both pages. -/
theorem Arrangement.exists_repeat (harranged : Arrangement key rows (front ++ x :: y :: back))
    (hsame : key x = key y) (hsize : 0 < size) {i : Nat} (hend : front.length + 1 = (i + 1) * size)
    (hinside : i + 1 < count) :
    ∃ arranged : Nat → List α, (∀ k, Arrangement key rows (arranged k)) ∧
      ¬ (pages size count arranged).Nodup := by
  -- the page with `y` is cut out of the list in which `x` has changed places with it
  let arranged : Nat → List α := fun j =>
    if j = i + 1 then front ++ y :: x :: back else front ++ x :: y :: back
  have hfirst : arranged i = front ++ x :: y :: back := if_neg (Nat.ne_of_lt (Nat.lt_succ_self i))
  have hsecond : arranged (i + 1) = (front ++ [y]) ++ x :: back := by
    rw [show arranged (i + 1) = _ from if_pos rfl, List.append_cons]
  have hlength : (front ++ [y]).length = front.length + 1 := List.length_append
  have hends : x ∈ page size i (arranged i) := by
    rw [hfirst]
    rw [Nat.succ_mul] at hend
    exact mem_page (by omega) (by rw [Nat.succ_mul]; omega)
  have hbegins : x ∈ page size (i + 1) (arranged (i + 1)) := by
    rw [hsecond]
    exact mem_page (by omega) (by rw [Nat.succ_mul (i + 1)]; omega)
  refine ⟨arranged, fun j => ?_, fun hnodup => ?_⟩
  · by_cases hj : j = i + 1
    · rw [show arranged j = _ from if_pos hj]
      exact harranged.swap hsame
    · rw [show arranged j = _ from if_neg hj]
      exact harranged
  · exact not_mem_both hnodup (Nat.lt_succ_self i) hinside hends hbegins

/-- Where no arrangements repeat a row, the places of every key lie on one page. -/
theorem onOnePage_of_nodup (hsize : 0 < size) (hcount : rows.length ≤ count * size)
    (harranged : Arrangement key rows sorted)
    (hall : ∀ arranged : Nat → List α, (∀ k, Arrangement key rows (arranged k)) →
      (pages size count arranged).Nodup) :
    OnOnePage key size rows := by
  intro a ha
  by_contra hne
  have hlt : countBelow key rows a < countUpTo key rows a := by
    obtain ⟨front, back, rfl⟩ := List.append_of_mem (harranged.perm.mem_iff.mpr ha)
    exact Nat.lt_of_le_of_lt harranged.countBelow_le harranged.lt_countUpTo
  obtain ⟨i, hbelow, hupTo⟩ := exists_break hsize hlt hne
  obtain ⟨n, hn⟩ : ∃ n, (i + 1) * size = n + 1 := ⟨(i + 1) * size - 1, by omega⟩
  obtain ⟨front, x, y, back, rfl, rfl, hsame⟩ :=
    harranged.exists_tie (n := n) (Nat.le_of_lt_succ (hn ▸ hbelow)) (hn ▸ hupTo)
  have hlength : countUpTo key rows a ≤ rows.length := List.countP_le_length
  have hinside : i + 1 < count := Nat.lt_of_mul_lt_mul_right (a := size) (by omega)
  obtain ⟨arranged, harrangements, hrepeats⟩ :=
    harranged.exists_repeat hsame hsize hn.symm hinside
  exact hrepeats (hall arranged harrangements)

end NeuralMesh
