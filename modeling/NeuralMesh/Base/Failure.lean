import NeuralMesh.Base.Program

/-!
# Programs whose statement fails

`failsAfter n` is what a program does when its first `n` statements commit and the next one fails,
`afterFirst n` the store those statements leave. A program that leaves with an error wherever a
statement fails undoes nothing: the two agree on the store.
-/

namespace NeuralMesh.Program

variable {Q : Type} {A : Q → Type} {α β σ : Type}

variable (exec : (q : Q) → σ → Option (A q × σ))

/-- The outcome when the first `n` statements commit and the one after them fails, for whatever
reason. -/
def failsAfter : Nat → Program A α → σ → Option (α × σ)
  | _, done _, _ => none
  | 0, query _ _ fail, s => some (run exec fail s)
  | n + 1, query q next _, s =>
      match exec q s with
      | some (a, s') => failsAfter n (next a) s'
      | none => none

theorem failsAfter_done (result : α) (n : Nat) (s : σ) :
    failsAfter exec n (done result : Program A α) s = none := by
  cases n <;> rfl

theorem failsAfter_succ_of_some {q : Q} {next : A q → Program A α} {fail : Program A α} {s s' : σ}
    {a : A q} (h : exec q s = some (a, s')) (n : Nat) :
    failsAfter exec (n + 1) (query q next fail) s = failsAfter exec n (next a) s' := by
  rw [failsAfter, h]

/-- The store after the first `n` statements, when they all commit. -/
def afterFirst : Nat → Program A α → σ → Option σ
  | 0, _, s => some s
  | _ + 1, done _, _ => none
  | n + 1, query q next _, s =>
      match exec q s with
      | some (a, s') => afterFirst n (next a) s'
      | none => none

theorem afterFirst_succ_of_some {q : Q} {next : A q → Program A α} {fail : Program A α} {s s' : σ}
    {a : A q} (h : exec q s = some (a, s')) (n : Nat) :
    afterFirst exec (n + 1) (query q next fail) s = afterFirst exec n (next a) s' := by
  rw [afterFirst, h]

/-- What the statement finds and answers, when the program goes on after it. -/
theorem afterFirst_succ {q : Q} {next : A q → Program A α} {fail : Program A α} {s t : σ} {n : Nat}
    (h : afterFirst exec (n + 1) (query q next fail) s = some t) :
    ∃ a s', exec q s = some (a, s') ∧ afterFirst exec n (next a) s' = some t := by
  rw [afterFirst] at h
  split at h
  · rename_i a s' hexec
    exact ⟨a, s', hexec, h⟩
  · cases h

/-- What every statement of a program respects relates its start to the store after `n` of them. -/
theorem afterFirst_rel {R : σ → σ → Prop} (hrefl : ∀ s, R s s)
    (htrans : ∀ s₁ s₂ s₃, R s₁ s₂ → R s₂ s₃ → R s₁ s₃) {P : Q → Prop}
    (hstep : ∀ q s a s', P q → exec q s = some (a, s') → R s s') {p : Program A α} {s t : σ}
    {n : Nat} (huses : Uses P p) (h : afterFirst exec n p s = some t) : R s t := by
  induction p generalizing s n with
  | done result =>
      cases n with
      | zero => exact Option.some.inj h ▸ hrefl s
      | succ n => cases h
  | query q next fail ihnext ihfail =>
      cases n with
      | zero => exact Option.some.inj h ▸ hrefl s
      | succ n =>
          obtain ⟨a, s', hexec, hrest⟩ := afterFirst_succ exec h
          exact htrans s s' t (hstep q s a s' huses.1 hexec) (ihnext a (huses.2.1 a) hrest)

/-- Every result the program can return satisfies `P`. -/
def Returns (P : α → Prop) : Program A α → Prop
  | done result => P result
  | query _ next fail => (∀ a, Returns P (next a)) ∧ Returns P fail

theorem Returns.run {P : α → Prop} {p : Program A α} (hreturns : p.Returns P) (s : σ) :
    P (Program.run exec p s).1 := by
  induction p generalizing s with
  | done result => exact hreturns
  | query q next fail ihnext ihfail =>
      rw [run_query]
      split
      · exact ihnext _ (hreturns.1 _) _
      · exact ihfail hreturns.2 _

/-- Where a statement fails, the program leaves at once, or goes on and returns no error. -/
def LeavesOnError (isError : α → Prop) : Program A α → Prop
  | done _ => True
  | query _ next fail =>
      (∀ a, LeavesOnError isError (next a)) ∧
        ((∃ result, fail = done result) ∨ fail.Returns fun result => ¬ isError result)

/-- A failure that is returned as an error leaves the store as the statements before it did. -/
theorem LeavesOnError.afterFirst {isError : α → Prop} {p : Program A α}
    (hleaves : p.LeavesOnError isError) {n : Nat} {s t : σ} {result : α}
    (hfails : p.failsAfter exec n s = some (result, t)) (herror : isError result) :
    p.afterFirst exec n s = some t := by
  induction p generalizing n s with
  | done result =>
      rw [failsAfter_done] at hfails
      cases hfails
  | query q next fail ihnext ihfail =>
      obtain ⟨hnext, hfail⟩ := hleaves
      cases n with
      | zero =>
          rw [failsAfter, Option.some.injEq] at hfails
          rcases hfail with ⟨result', rfl⟩ | hreturns
          · rw [run_done, Prod.mk.injEq] at hfails
            rw [Program.afterFirst, hfails.2]
          · have hgood := hreturns.run exec s
            rw [hfails] at hgood
            exact absurd herror hgood
      | succ n =>
          rw [failsAfter] at hfails
          rw [Program.afterFirst]
          split at hfails
          · rename_i a s' hexec
            exact ihnext a (hnext a) hfails
          · cases hfails

end NeuralMesh.Program
