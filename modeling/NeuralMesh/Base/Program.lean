import Mathlib.Logic.Basic

/-!
# Programs of atomic statements

A program issues statements to a store, one at a time, and goes on with each answer. A statement
either commits and answers, or fails and changes nothing; the program says how it goes on in both
cases. What a statement does to the store is a parameter, `exec`, so the same program can be run
in one piece (`Program.run`) or statement by statement among others.

Programs are written with their continuations: `askElse` goes on with the answer or with another
program when the statement fails, `askOr` leaves with a given result then, and `attempt` goes on
either way.
-/

namespace NeuralMesh

/-- A program over statements `q`, each answered by an `A q`. -/
inductive Program {Q : Type} (A : Q → Type) (α : Type) : Type where
  | done (result : α)
  | query (q : Q) (next : A q → Program A α) (fail : Program A α)

namespace Program

variable {Q : Type} {A : Q → Type} {α β : Type} {σ : Type}

/-- Run a program in one piece. -/
def run (exec : (q : Q) → σ → Option (A q × σ)) : Program A α → σ → α × σ
  | done result, s => (result, s)
  | query q next fail, s =>
      match exec q s with
      | some (a, s') => run exec (next a) s'
      | none => run exec fail s

/-- Go on with the answer of `q`, or with `fail` when it fails. -/
abbrev askElse (fail : Program A α) (q : Q) (next : A q → Program A α) : Program A α :=
  query q next fail

/-- Go on with the answer of `q`, or leave with `result` when it fails. -/
abbrev askOr (result : α) (q : Q) (next : A q → Program A α) : Program A α :=
  query q next (done result)

/-- Issue `q` and go on, whether it fails or not. -/
abbrev attempt (q : Q) (next : Program A α) : Program A α := query q (fun _ => next) next

/-- Run to the end with every statement committing. -/
def Succeeds (exec : (q : Q) → σ → Option (A q × σ)) : Program A α → σ → Prop
  | done _, _ => True
  | query q next _, s =>
      match exec q s with
      | some (a, s') => Succeeds exec (next a) s'
      | none => False

instance decidableSucceeds (exec : (q : Q) → σ → Option (A q × σ)) :
    (p : Program A α) → (s : σ) → Decidable (Succeeds exec p s)
  | done _, _ => .isTrue trivial
  | query q next _, s =>
      match h : exec q s with
      | some (a, s') =>
          @decidable_of_iff _ (Succeeds exec (next a) s') (by rw [Succeeds, h])
            (decidableSucceeds exec (next a) s')
      | none => .isFalse (by rw [Succeeds, h]; exact not_false)

/-- The same program with its result forgotten. -/
def forget : Program A α → Program A Unit
  | done _ => done ()
  | query q next fail => query q (fun a => forget (next a)) (forget fail)

/-- The same program with its result translated. -/
def map (f : α → β) : Program A α → Program A β
  | done result => done (f result)
  | query q next fail => query q (fun a => map f (next a)) (map f fail)

/-- Run a program and go on with its result. -/
def bind (f : α → Program A β) : Program A α → Program A β
  | done result => f result
  | query q next fail => query q (fun a => bind f (next a)) (bind f fail)

/-- The statements that commit in a run, in order. -/
def committed (exec : (q : Q) → σ → Option (A q × σ)) : Program A α → σ → List Q
  | done _, _ => []
  | query q next fail, s =>
      match exec q s with
      | some (a, s') => q :: committed exec (next a) s'
      | none => committed exec fail s

/-- Every statement the program can issue satisfies `P`. -/
def Uses (P : Q → Prop) : Program A α → Prop
  | done _ => True
  | query q next fail => P q ∧ (∀ a, Uses P (next a)) ∧ Uses P fail

/-- Every statement the program can issue satisfies `P`, as long as its answers satisfy `told`. -/
def UsesGiven (told : (q : Q) → A q → Prop) (P : Q → Prop) : Program A α → Prop
  | done _ => True
  | query q next fail =>
      P q ∧ (∀ a, told q a → UsesGiven told P (next a)) ∧ UsesGiven told P fail

variable (exec : (q : Q) → σ → Option (A q × σ))

@[simp] theorem run_done (result : α) (s : σ) :
    run exec (done result : Program A α) s = (result, s) := rfl

theorem run_query (q : Q) (next : A q → Program A α) (fail : Program A α) (s : σ) :
    run exec (query q next fail) s =
      match exec q s with
      | some (a, s') => run exec (next a) s'
      | none => run exec fail s := by
  rw [run]

theorem run_query_of_some {q : Q} {next : A q → Program A α} {fail : Program A α} {s s' : σ}
    {a : A q} (h : exec q s = some (a, s')) :
    run exec (query q next fail) s = run exec (next a) s' := by
  rw [run_query, h]

theorem run_query_of_none {q : Q} {next : A q → Program A α} {fail : Program A α} {s : σ}
    (h : exec q s = none) : run exec (query q next fail) s = run exec fail s := by
  rw [run_query, h]

theorem run_forget (p : Program A α) (s : σ) : (run exec p.forget s).2 = (run exec p s).2 := by
  induction p generalizing s with
  | done result => rfl
  | query q next fail ihnext ihfail =>
      rw [forget, run_query, run_query]
      split
      · exact ihnext _ _
      · exact ihfail _

theorem succeeds_forget (p : Program A α) (s : σ) :
    Succeeds exec p.forget s ↔ Succeeds exec p s := by
  induction p generalizing s with
  | done result => rfl
  | query q next fail ihnext ihfail =>
      rw [forget, Succeeds, Succeeds]
      split
      · exact ihnext _ _
      · rfl

theorem uses_forget {P : Q → Prop} {p : Program A α} : Uses P p.forget ↔ Uses P p := by
  induction p with
  | done result => rfl
  | query q next fail ihnext ihfail => simp only [forget, Uses, ihnext, ihfail]

/-- What a mapped program has left after one of its statements is mapped too. -/
theorem left_of_map {f : α → β} {p : Program A α} {q : Q} {next : A q → Program A β}
    {fail : Program A β} (hquery : query q next fail = map f p) :
    (∀ a, ∃ left, next a = map f left) ∧ ∃ left, fail = map f left := by
  cases p with
  | done result => cases hquery
  | query q' next' fail' =>
      cases hquery
      exact ⟨fun a => ⟨next' a, rfl⟩, fail', rfl⟩

theorem uses_map {P : Q → Prop} {f : α → β} {p : Program A α} : Uses P (p.map f) ↔ Uses P p := by
  induction p with
  | done result => rfl
  | query q next fail ihnext ihfail => simp only [map, Uses, ihnext, ihfail]

theorem run_bind (f : α → Program A β) (p : Program A α) (s : σ) :
    run exec (p.bind f) s = run exec (f (run exec p s).1) (run exec p s).2 := by
  induction p generalizing s with
  | done result => rfl
  | query q next fail ihnext ihfail =>
      rw [bind, run_query, run_query]
      split
      · exact ihnext _ _
      · exact ihfail _

theorem committed_query_of_some {q : Q} {next : A q → Program A α} {fail : Program A α} {s s' : σ}
    {a : A q} (h : exec q s = some (a, s')) :
    committed exec (query q next fail) s = q :: committed exec (next a) s' := by
  rw [committed, h]

theorem committed_forget (p : Program A α) (s : σ) :
    committed exec p.forget s = committed exec p s := by
  induction p generalizing s with
  | done result => rfl
  | query q next fail ihnext ihfail =>
      rw [forget, committed, committed]
      split
      · rw [ihnext]
      · rw [ihfail]

theorem committed_bind (f : α → Program A β) (p : Program A α) (s : σ) :
    committed exec (p.bind f) s =
      committed exec p s ++ committed exec (f (run exec p s).1) (run exec p s).2 := by
  induction p generalizing s with
  | done result => rfl
  | query q next fail ihnext ihfail =>
      rw [bind, committed, committed, run_query]
      split
      · rw [ihnext, List.cons_append]
      · rw [ihfail]

theorem Uses.committed {P : Q → Prop} {p : Program A α} (huses : p.Uses P) (s : σ) :
    ∀ q ∈ p.committed exec s, P q := by
  induction p generalizing s with
  | done result =>
      intro q hq
      cases hq
  | query q next fail ihnext ihfail =>
      rw [Program.committed]
      split
      · rename_i a s' _
        intro q' hq'
        rcases List.mem_cons.mp hq' with rfl | hq'
        · exact huses.1
        · exact ihnext a (huses.2.1 a) s' q' hq'
      · exact ihfail huses.2.2 s

theorem succeeds_query_of_some {q : Q} {next : A q → Program A α} {fail : Program A α} {s s' : σ}
    {a : A q} (h : exec q s = some (a, s')) :
    Succeeds exec (query q next fail) s ↔ Succeeds exec (next a) s' := by
  rw [Succeeds, h]

theorem not_succeeds_query_of_none {q : Q} {next : A q → Program A α} {fail : Program A α} {s : σ}
    (h : exec q s = none) : ¬ Succeeds exec (query q next fail) s := by
  rw [Succeeds, h]
  exact not_false

theorem uses_true : ∀ p : Program A α, Uses (fun _ => True) p
  | done _ => trivial
  | query _ next fail => ⟨trivial, fun a => uses_true (next a), uses_true fail⟩

theorem Uses.mono {P R : Q → Prop} (h : ∀ q, P q → R q) :
    ∀ {p : Program A α}, Uses P p → Uses R p
  | done _, _ => trivial
  | query q _ _, ⟨hq, hnext, hfail⟩ => ⟨h q hq, fun a => Uses.mono h (hnext a), Uses.mono h hfail⟩

theorem Uses.given {told : (q : Q) → A q → Prop} {P : Q → Prop} :
    ∀ {p : Program A α}, Uses P p → UsesGiven told P p
  | done _, _ => trivial
  | query _ _ _, ⟨hq, hnext, hfail⟩ =>
      ⟨hq, fun a _ => Uses.given (hnext a), Uses.given hfail⟩

theorem usesGiven_forget {told : (q : Q) → A q → Prop} {P : Q → Prop} {p : Program A α} :
    UsesGiven told P p.forget ↔ UsesGiven told P p := by
  induction p with
  | done result => rfl
  | query q next fail ihnext ihfail => simp only [forget, UsesGiven, ihnext, ihfail]

/-- A relation that every statement of a program respects relates its start to its end. -/
theorem run_rel {R : σ → σ → Prop} (hrefl : ∀ s, R s s)
    (htrans : ∀ s₁ s₂ s₃, R s₁ s₂ → R s₂ s₃ → R s₁ s₃) {P : Q → Prop}
    (hstep : ∀ q s a s', P q → exec q s = some (a, s') → R s s') :
    ∀ (p : Program A α) (s : σ), Uses P p → R s (run exec p s).2
  | done _, s, _ => hrefl s
  | query q next fail, s, ⟨hq, hnext, hfail⟩ => by
      rw [run_query]
      split
      · rename_i a s' hexec
        exact htrans s s' _ (hstep q s a s' hq hexec)
          (run_rel hrefl htrans hstep (next a) s' (hnext a))
      · exact run_rel hrefl htrans hstep fail s hfail

/-- A property that every statement of a program preserves holds at its end. -/
theorem run_preserves {I : σ → Prop} {P : Q → Prop}
    (hstep : ∀ q s a s', P q → I s → exec q s = some (a, s') → I s') (p : Program A α) (s : σ)
    (huses : Uses P p) (hs : I s) : I (run exec p s).2 :=
  run_rel exec (R := fun s s' => I s → I s') (fun _ h => h) (fun _ _ _ h₁ h₂ h => h₂ (h₁ h))
    (fun q s a s' hq hexec h => hstep q s a s' hq h hexec) p s huses hs

end Program

end NeuralMesh
