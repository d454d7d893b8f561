import Mathlib.Algebra.BigOperators.Group.Finset.Basic
import Mathlib.Algebra.Order.BigOperators.Group.Finset
import Mathlib.Algebra.Order.Group.Nat

/-!
# A reserve and what it owes

One pool against a map of amounts, of which only finitely many are ever looked at together. What
keeps the pool sufficient is the balance of one step: it gains at least what its debts grow by.
-/

namespace NeuralMesh

open Finset

variable {κ : Type}

/-- The reserve backs what is owed on any set of keys. -/
def Backs (reserve : Nat) (owed : κ → Nat) : Prop :=
  ∀ keys : Finset κ, ∑ key ∈ keys, owed key ≤ reserve

namespace Backs

variable {reserve reserve' : Nat} {owed owed' : κ → Nat}

theorem zero (reserve : Nat) : Backs reserve fun _ : κ => 0 := by
  intro keys
  rw [sum_const_zero]
  exact Nat.zero_le _

theorem mono (hbacks : Backs reserve owed) (hle : reserve ≤ reserve') : Backs reserve' owed :=
  fun keys => (hbacks keys).trans hle

theorem le (hbacks : Backs reserve owed) (key : κ) : owed key ≤ reserve := by
  have hone := hbacks {key}
  rwa [sum_singleton] at hone

/-- One amount changes, and the reserve with it. -/
theorem update (hbacks : Backs reserve owed) (key : κ) (hothers : ∀ k, k ≠ key → owed' k = owed k)
    (hbalance : reserve + owed' key ≤ reserve' + owed key) : Backs reserve' owed' := by
  classical
  intro keys
  have hmem : key ∈ insert key keys := mem_insert_self key keys
  have hbefore := hbacks (insert key keys)
  rw [← add_sum_erase _ _ hmem] at hbefore
  have hsame : ∑ k ∈ (insert key keys).erase key, owed' k =
      ∑ k ∈ (insert key keys).erase key, owed k :=
    sum_congr rfl fun k hk => hothers k (ne_of_mem_erase hk)
  calc ∑ k ∈ keys, owed' k
      ≤ ∑ k ∈ insert key keys, owed' k := sum_le_sum_of_subset (subset_insert key keys)
    _ = owed' key + ∑ k ∈ (insert key keys).erase key, owed k := by
        rw [← add_sum_erase _ _ hmem, hsame]
    _ ≤ reserve' := by omega

/-- An amount passes from one key to another. -/
theorem move (hbacks : Backs reserve owed) {source dest : κ} (hne : source ≠ dest) (moved : Nat)
    (hsource : owed' source + moved = owed source) (hdest : owed' dest = owed dest + moved)
    (hothers : ∀ k, k ≠ source → k ≠ dest → owed' k = owed k) : Backs reserve owed' := by
  classical
  have hle : owed source ≤ reserve := hbacks.le source
  have hdebited : Backs (reserve - moved) (Function.update owed source (owed' source)) := by
    refine hbacks.update source (fun k hk => Function.update_of_ne hk _ _) ?_
    rw [Function.update_self]
    omega
  refine hdebited.update dest (fun k hk => ?_) ?_
  · by_cases hkey : k = source
    · rw [hkey, Function.update_self]
    · rw [Function.update_of_ne hkey, hothers k hkey hk]
  · rw [Function.update_of_ne hne.symm]
    omega

end Backs

end NeuralMesh
