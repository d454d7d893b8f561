import NeuralMesh.Base.Program
import Mathlib.Logic.Relation

/-!
# A program among others

Between two statements of a program, and before its first, the environment may take any number of
steps, and a statement may fail for whatever reason.
-/

namespace NeuralMesh.Program

variable {Q : Type} {A : Q → Type} {α β σ : Type}
  (exec : (q : Q) → σ → Option (A q × σ)) (env : σ → σ → Prop)

/-- From a store the program comes to a result and a store. -/
inductive Amid : Program A α → σ → α → σ → Prop
  | done (result : α) (s : σ) : Amid (.done result) s result s
  | environment {p : Program A α} {s s' t : σ} {result : α} (henv : env s s')
      (hrest : Amid p s' result t) : Amid p s result t
  | ran {q : Q} {next : A q → Program A α} {fail : Program A α} {a : A q} {s s' t : σ} {result : α}
      (hexec : exec q s = some (a, s')) (hrest : Amid (next a) s' result t) :
      Amid (.query q next fail) s result t
  | failed {q : Q} {next : A q → Program A α} {fail : Program A α} {s t : σ} {result : α}
      (hrest : Amid fail s result t) : Amid (.query q next fail) s result t

/-- Where the program returns a result that satisfies `P`, one of its statements has established
`I`. -/
def Establishes (I : σ → Prop) (P : α → Prop) : Program A α → Prop
  | done result => ¬ P result
  | query q next fail =>
      (∀ s a s', exec q s = some (a, s') → I s' ∨ Establishes I P (next a)) ∧ Establishes I P fail

/-- In one piece. -/
theorem Amid.of_run (p : Program A α) (s : σ) :
    Amid exec env p s (p.run exec s).1 (p.run exec s).2 := by
  induction p generalizing s with
  | done result => exact .done result s
  | query q next fail ihnext ihfail =>
      rw [run_query]
      split
      · rename_i a s' hexec
        exact .ran hexec (ihnext a s')
      · exact .failed (ihfail s)

variable {exec env}

theorem Amid.keeps {I : σ → Prop} (hexec : ∀ q s a t, I s → exec q s = some (a, t) → I t)
    (henv : ∀ s t, env s t → I s → I t) {p : Program A α} {s t : σ} {result : α}
    (hamid : p.Amid exec env s result t) (hs : I s) : I t := by
  induction hamid with
  | done result s => exact hs
  | environment hchange _ ih => exact ih (henv _ _ hchange hs)
  | ran hran _ ih => exact ih (hexec _ _ _ _ hs hran)
  | failed _ ih => exact ih hs

/-- What a statement established holds at the end, if nothing undoes it. -/
theorem Amid.established {I : σ → Prop} (hexec : ∀ q s a t, I s → exec q s = some (a, t) → I t)
    (henv : ∀ s t, env s t → I s → I t) {P : α → Prop} {p : Program A α} {s t : σ} {result : α}
    (hamid : p.Amid exec env s result t) (hestablishes : p.Establishes exec I P)
    (hresult : P result) : I t := by
  induction hamid with
  | done result s => exact absurd hresult hestablishes
  | environment _ _ ih => exact ih hestablishes hresult
  | ran hran hrest ih =>
      rcases hestablishes.1 _ _ _ hran with hI | hnext
      · exact hrest.keeps hexec henv hI
      · exact ih hnext hresult
  | failed _ ih => exact ih hestablishes.2 hresult

theorem establishes_map {I : σ → Prop} {P : β → Prop} {f : α → β} {p : Program A α} :
    (p.map f).Establishes exec I P ↔ p.Establishes exec I fun result => P (f result) := by
  induction p with
  | done result => rfl
  | query q next fail ihnext ihfail => simp only [map, Establishes, ihnext, ihfail]

end NeuralMesh.Program
