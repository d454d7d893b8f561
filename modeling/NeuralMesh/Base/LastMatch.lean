import Mathlib.Data.List.Basic

/-!
# Lists of rules

Rules that allow or deny what they apply to, read in order: the last one that applies decides, and
where none does a default.
-/

namespace NeuralMesh

variable {ρ ι : Type} (applies : ρ → ι → Bool) (allows : ρ → Bool)

def verdict (default : Bool) (rules : List ρ) (request : ι) : Bool :=
  rules.foldl (fun soFar rule => if applies rule request then allows rule else soFar) default

variable {applies allows} {default : Bool} {rules : List ρ} {request : ι}

theorem verdict_append (front back : List ρ) :
    verdict applies allows default (front ++ back) request =
      verdict applies allows (verdict applies allows default front request) back request := by
  rw [verdict, List.foldl_append]
  rfl

theorem verdict_of_none (hnone : ∀ rule ∈ rules, applies rule request = false) :
    verdict applies allows default rules request = default := by
  induction rules with
  | nil => rfl
  | cons rule rules ih =>
      have hrest := ih fun r hr => hnone r (List.mem_cons_of_mem _ hr)
      rw [← List.singleton_append, verdict_append]
      simpa [verdict, hnone rule List.mem_cons_self] using hrest

/-- Rules that do not deny only add to what is allowed. -/
theorem verdict_of_allows
    (hallows : ∀ rule ∈ rules, applies rule request = true → allows rule = true) :
    verdict applies allows default rules request =
      (default || rules.any fun rule => applies rule request) := by
  induction rules generalizing default with
  | nil => exact (Bool.or_false default).symm
  | cons rule rules ih =>
      have hrest := fun r hr => hallows r (List.mem_cons_of_mem _ hr)
      rw [← List.singleton_append, verdict_append, ih hrest, List.singleton_append, List.any_cons]
      by_cases happlies : applies rule request = true
      · simp [verdict, happlies, hallows rule List.mem_cons_self happlies]
      · simp [verdict, happlies]

end NeuralMesh
