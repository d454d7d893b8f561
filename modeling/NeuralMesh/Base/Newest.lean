import Mathlib.Order.Defs.LinearOrder
import Mathlib.Order.Basic
import Mathlib.Order.Lattice

/-!
# The first of the rows in descending order

What `ORDER BY key DESC LIMIT 1` may find: the row with the greatest key, and of several with that
key the one the scan meets first.
-/

namespace NeuralMesh

variable {α κ : Type} [LinearOrder κ] (key : α → κ)

/-- `ORDER BY key DESC` -/
def descending (rows : List α) : List α := rows.mergeSort fun a b => decide (key b ≤ key a)

variable {key} {rows : List α} {a b : α}

theorem descending_trans (a b c : α) (hab : decide (key b ≤ key a) = true)
    (hbc : decide (key c ≤ key b) = true) : decide (key c ≤ key a) = true :=
  decide_eq_true ((of_decide_eq_true hbc).trans (of_decide_eq_true hab))

theorem descending_total (a b : α) : (decide (key b ≤ key a) || decide (key a ≤ key b)) = true := by
  rw [Bool.or_eq_true, decide_eq_true_eq, decide_eq_true_eq]
  exact le_total _ _

/-- No key is greater than the first. -/
theorem key_le_of_head? (hhead : (descending key rows).head? = some a) (hb : b ∈ rows) :
    key b ≤ key a := by
  have hsorted : (descending key rows).Pairwise fun a b => decide (key b ≤ key a) = true :=
    List.pairwise_mergeSort descending_trans descending_total rows
  have hmem : b ∈ descending key rows := List.mem_mergeSort.mpr hb
  cases hrows : descending key rows with
  | nil =>
      rw [hrows] at hmem
      cases hmem
  | cons first rest =>
      rw [hrows] at hhead hmem
      cases hhead
      rw [hrows] at hsorted
      rcases List.mem_cons.mp hmem with rfl | hrest
      · exact le_rfl
      · exact of_decide_eq_true ((List.pairwise_cons.mp hsorted).1 b hrest)

/-- A key that is greater than all others comes first. -/
theorem head?_of_greatest (ha : a ∈ rows) (hgreatest : ∀ b ∈ rows, b ≠ a → key b < key a) :
    (descending key rows).head? = some a := by
  cases hhead : (descending key rows).head? with
  | none =>
      have hempty : descending key rows = [] := List.head?_eq_none_iff.mp hhead
      have hmem : a ∈ descending key rows := List.mem_mergeSort.mpr ha
      rw [hempty] at hmem
      cases hmem
  | some first =>
      have hfirst : first ∈ rows := List.mem_mergeSort.mp (List.mem_of_head? hhead)
      by_cases hsame : first = a
      · rw [hsame]
      · exact absurd (hgreatest first hfirst hsame) (not_lt.mpr (key_le_of_head? hhead ha))

/-- The scan's first row comes first where no key is greater. -/
theorem head?_cons_of_le (hle : ∀ b ∈ rows, key b ≤ key a) :
    (descending key (a :: rows)).head? = some a := by
  obtain ⟨greater, others, hsorted, -, hgreater⟩ :=
    @List.mergeSort_cons α (fun a b => decide (key b ≤ key a)) descending_trans descending_total a
      rows
  rw [descending, hsorted]
  cases greater with
  | nil => rfl
  | cons b greater =>
      have hmem : b ∈ (a :: rows).mergeSort fun a b => decide (key b ≤ key a) := by
        rw [hsorted]
        exact List.mem_cons_self
      have hnot := hgreater b List.mem_cons_self
      rcases List.mem_cons.mp (List.mem_mergeSort.mp hmem) with rfl | hb
      · simp at hnot
      · simp [hle b hb] at hnot

end NeuralMesh
