import Mathlib.Order.Lattice

/-!
# The best of a shortlist

The last of the elements with the greatest key, as `max_by` finds it, and when the best of the first
elements of a list is the best of all.
-/

namespace NeuralMesh

variable {α κ : Type} [LinearOrder κ] (key : α → κ)

/-- The better of two, the second if they are alike. -/
def better (best : Option α) (a : α) : Option α :=
  match best with
  | none => some a
  | some b => if key b ≤ key a then some a else some b

/-- `max_by` -/
def lastGreatest (rows : List α) : Option α := rows.foldl (better key) none

variable {key} {rows : List α} {a : α}

variable (key) in
theorem better_eq (best : Option α) (a : α) :
    ∃ b, better key best a = some b ∧ key a ≤ key b ∧ (b = a ∨ best = some b) ∧
      ∀ c ∈ best, key c ≤ key b := by
  cases best with
  | none => exact ⟨a, rfl, le_rfl, .inl rfl, nofun⟩
  | some b =>
      by_cases hle : key b ≤ key a
      · refine ⟨a, if_pos hle, le_rfl, .inl rfl, fun c hc => ?_⟩
        cases hc
        exact hle
      · refine ⟨b, if_neg hle, (not_le.mp hle).le, .inr rfl, fun c hc => ?_⟩
        cases hc
        exact le_rfl

/-- What a scan ends with was met in it, or the scan began with it; no key that it met is greater. -/
theorem foldl_better (rows : List α) (best : Option α) (hfold : rows.foldl (better key) best = some a) :
    (best = some a ∨ a ∈ rows) ∧ (∀ b ∈ best, key b ≤ key a) ∧ ∀ b ∈ rows, key b ≤ key a := by
  induction rows generalizing best with
  | nil =>
      rw [List.foldl_nil] at hfold
      subst hfold
      refine ⟨.inl rfl, fun b hb => ?_, nofun⟩
      cases hb
      exact le_rfl
  | cons c rows ih =>
      rw [List.foldl_cons] at hfold
      obtain ⟨b, hb, hcb, hfrom, hbest⟩ := better_eq key best c
      obtain ⟨hmem, hle, hrows⟩ := ih _ hfold
      have hba : key b ≤ key a := hle b hb
      refine ⟨?_, fun d hd => (hbest d hd).trans hba, fun d hd => ?_⟩
      · rcases hmem with hthis | hmem
        · rw [hb, Option.some.injEq] at hthis
          subst hthis
          rcases hfrom with rfl | hfrom
          · exact .inr List.mem_cons_self
          · exact .inl hfrom
        · exact .inr (List.mem_cons_of_mem _ hmem)
      · rcases List.mem_cons.mp hd with rfl | hd
        · exact hcb.trans hba
        · exact hrows d hd

theorem lastGreatest_mem (hbest : lastGreatest key rows = some a) : a ∈ rows := by
  rcases (foldl_better rows none hbest).1 with hnone | hmem
  · cases hnone
  · exact hmem

theorem le_lastGreatest (hbest : lastGreatest key rows = some a) {b : α} (hb : b ∈ rows) :
    key b ≤ key a := (foldl_better rows none hbest).2.2 b hb

theorem lastGreatest_eq_none_iff : lastGreatest key rows = none ↔ rows = [] := by
  have hsome : ∀ (rows : List α) (best : Option α), best.isSome →
      (rows.foldl (better key) best).isSome := by
    intro rows
    induction rows with
    | nil => exact fun _ hbest => hbest
    | cons c rows ih =>
        intro best _
        obtain ⟨b, hb, _⟩ := better_eq key best c
        exact ih _ (by rw [hb]; rfl)
  cases rows with
  | nil => exact iff_of_true rfl rfl
  | cons c rows =>
      refine iff_of_false (fun hnone => ?_) nofun
      have hfound := hsome rows (some c) rfl
      rw [lastGreatest, List.foldl_cons] at hnone
      rw [show better key none c = some c from rfl] at hnone
      rw [hnone] at hfound
      cases hfound

/-- The best of the first `n` is the best of all exactly when one that is best of all is among the
first. -/
theorem lastGreatest_take_iff {n : Nat} :
    (∀ a, lastGreatest key (rows.take n) = some a → ∀ b ∈ rows, key b ≤ key a) ↔
      rows.take n = [] ∨ ∃ a ∈ rows.take n, ∀ b ∈ rows, key b ≤ key a := by
  constructor
  · intro hbest
    cases hfound : lastGreatest key (rows.take n) with
    | none => exact .inl (lastGreatest_eq_none_iff.mp hfound)
    | some a => exact .inr ⟨a, lastGreatest_mem hfound, hbest a hfound⟩
  · rintro (hnone | ⟨a, ha, hall⟩) c hfound b hb
    · rw [hnone] at hfound
      cases hfound
    · exact (hall b hb).trans (le_lastGreatest hfound ha)

end NeuralMesh
