import Mathlib.Logic.Basic

/-!
# Runs of a step function

A run takes one step for each entry of a list. `Along step P` says that every step meets `P` where it
is taken.
-/

namespace NeuralMesh

variable {σ α : Type} (step : σ → α → σ)

def Along (P : σ → α → Prop) : σ → List α → Prop
  | _, [] => True
  | s, a :: rest => P s a ∧ Along P (step s a) rest

variable {step} {P Q : σ → α → Prop}

theorem along_congr (hiff : ∀ s a, P s a ↔ Q s a) (s : σ) (run : List α) :
    Along step P s run ↔ Along step Q s run := by
  induction run generalizing s with
  | nil => exact Iff.rfl
  | cons a rest ih => rw [Along, Along, hiff, ih]

theorem along_append {s : σ} {run rest : List α} :
    Along step P s (run ++ rest) ↔ Along step P s run ∧ Along step P (run.foldl step s) rest := by
  induction run generalizing s with
  | nil => exact ⟨fun hrest => ⟨trivial, hrest⟩, fun h => h.2⟩
  | cons a run ih => rw [List.cons_append, Along, Along, ih, List.foldl_cons, and_assoc]

/-- What every step that meets `P` preserves holds at the end. -/
theorem Along.preserves {I : σ → Prop} (hstep : ∀ s a, P s a → I s → I (step s a)) {s : σ}
    {run : List α} (hrun : Along step P s run) (hs : I s) : I (run.foldl step s) := by
  induction run generalizing s with
  | nil => exact hs
  | cons a rest ih => exact ih hrun.2 (hstep s a hrun.1 hs)

end NeuralMesh
