import Mathlib.Logic.Basic
import Mathlib.Algebra.GroupWithZero.Nat

/-!
# Systems of calls

A call either fails with an error and changes nothing, or succeeds, leaves a new state and says what
it did. `CallRun` is a run of successful calls with whatever the environment does between them, and
records each call with the states around it; `tryCall` makes refused calls part of a run.

A call is written as a sequence of checks in `Except`; the lemmas on `>>=`, `ensure` and `orFail`
turn its success into the list of checks that were passed.
-/

namespace NeuralMesh

section Checks

variable {ε α β : Type}

/-- Refuse with `e` unless `p` holds. -/
def ensure (p : Prop) [Decidable p] (e : ε) : Except ε Unit := if p then .ok () else .error e

/-- Refuse with `e` when there is no value. -/
def orFail (x : Option α) (e : ε) : Except ε α := x.elim (.error e) .ok

theorem bind_eq_ok {x : Except ε α} {f : α → Except ε β} {b : β} :
    x >>= f = .ok b ↔ ∃ a, x = .ok a ∧ f a = .ok b := by
  constructor
  · intro h
    cases x with
    | error e => cases h
    | ok a => exact ⟨a, rfl, h⟩
  · rintro ⟨a, rfl, h⟩
    exact h

theorem ok_bind (a : α) (f : α → Except ε β) : .ok a >>= f = f a := rfl

theorem pure_eq_ok {a b : α} : (pure a : Except ε α) = .ok b ↔ b = a := by
  constructor
  · intro h
    cases h
    rfl
  · rintro rfl
    rfl

theorem ensure_eq_ok {p : Prop} [Decidable p] {e : ε} {u : Unit} : ensure p e = .ok u ↔ p := by
  unfold ensure
  split
  · rename_i hp
    exact iff_of_true rfl hp
  · rename_i hp
    refine iff_of_false (fun h => ?_) hp
    cases h

theorem orFail_eq_ok {x : Option α} {e : ε} {a : α} : orFail x e = .ok a ↔ x = some a := by
  constructor
  · intro h
    cases x with
    | none => cases h
    | some b =>
        cases h
        rfl
  · rintro rfl
    rfl

theorem mapError_eq_ok {ε' : Type} {f : ε → ε'} {x : Except ε α} {a : α} :
    x.mapError f = .ok a ↔ x = .ok a := by
  cases x with
  | error e => exact iff_of_false (fun h => by cases h) (fun h => by cases h)
  | ok b => exact ⟨fun h => by cases h; rfl, fun h => by cases h; rfl⟩

/-- A sequence fails in its first part or after it. -/
theorem bind_eq_error {x : Except ε α} {f : α → Except ε β} {e : ε} :
    x >>= f = .error e ↔ x = .error e ∨ ∃ a, x = .ok a ∧ f a = .error e := by
  cases x with
  | error e' =>
      constructor
      · intro h
        exact .inl (by cases h; rfl)
      · rintro (h | ⟨a, h, _⟩)
        · cases h
          rfl
        · cases h
  | ok a =>
      constructor
      · intro h
        exact .inr ⟨a, rfl, h⟩
      · rintro (h | ⟨a', h, hf⟩)
        · cases h
        · cases h
          exact hf

theorem mapError_eq_error {ε' : Type} {f : ε → ε'} {x : Except ε α} {e : ε'} :
    x.mapError f = .error e ↔ ∃ e', x = .error e' ∧ f e' = e := by
  cases x with
  | error e' =>
      constructor
      · intro h
        exact ⟨e', rfl, Except.error.inj h⟩
      · rintro ⟨_, h, hf⟩
        cases h
        exact congrArg Except.error hf
  | ok a =>
      constructor
      · intro h
        cases h
      · rintro ⟨_, h, -⟩
        cases h

/-- A computation whose output is known has succeeded. -/
theorem ok_of_output {x : Except ε (α × β)} {a : α} (h : x.toOption.map Prod.fst = some a) :
    ∃ b, x = .ok (a, b) := by
  cases x with
  | error e => cases h
  | ok r =>
      cases h
      exact ⟨r.2, rfl⟩

end Checks

variable {κ σ ε ο : Type}

/-- The outcome of a call that may be refused; then nothing changes. -/
def perform (exec : κ → σ → Except ε (ο × σ)) (c : κ) (s : σ) : Except ε ο × σ :=
  match exec c s with
  | .ok (o, t) => (.ok o, t)
  | .error e => (.error e, s)

/-- Refused calls take part in a run of attempts. -/
def tryCall (exec : κ → σ → Except ε (ο × σ)) (c : κ) (s : σ) : Except Empty (Except ε ο × σ) :=
  .ok (perform exec c s)

section Attempt

variable {exec : κ → σ → Except ε (ο × σ)} {c : κ} {s t : σ}

theorem tryCall_eq_ok {o : ο} : tryCall exec c s = .ok (.ok o, t) ↔ exec c s = .ok (o, t) := by
  unfold tryCall perform
  split
  · rename_i hexec
    rw [hexec]
    simp
  · rename_i hexec
    rw [hexec]
    simp

/-- A call leaves what its execution leaves, or everything as it was. -/
theorem tryCall_cases {r : Except ε ο} (hattempt : tryCall exec c s = .ok (r, t)) :
    (∃ o, r = .ok o ∧ exec c s = .ok (o, t)) ∨ (∃ e, r = .error e ∧ exec c s = .error e ∧ t = s) := by
  unfold tryCall perform at hattempt
  split at hattempt
  · rename_i o u hexec
    cases hattempt
    exact .inl ⟨o, rfl, hexec⟩
  · rename_i e hexec
    cases hattempt
    exact .inr ⟨e, rfl, hexec, rfl⟩

theorem perform_of_ok {o : ο} (hexec : exec c s = .ok (o, t)) : (perform exec c s).2 = t := by
  unfold perform
  rw [hexec]

theorem perform_of_refused (hrefused : ∀ o t, exec c s ≠ .ok (o, t)) : (perform exec c s).2 = s := by
  unfold perform
  split
  · rename_i o t hexec
    exact absurd hexec (hrefused o t)
  · rfl

/-- Two calls that succeed alike leave the same. -/
theorem perform_congr {c' : κ} (hsame : ∀ o t, exec c s = .ok (o, t) ↔ exec c' s = .ok (o, t)) :
    (perform exec c s).2 = (perform exec c' s).2 := by
  cases hexec : exec c s with
  | ok r => rw [perform_of_ok hexec, perform_of_ok ((hsame r.1 r.2).mp hexec)]
  | error e =>
      have hrefused : ∀ o t, exec c s ≠ .ok (o, t) := by
        intro o t hok
        rw [hexec] at hok
        cases hok
      rw [perform_of_refused hrefused, perform_of_refused]
      exact fun o t hok => hrefused o t ((hsame o t).mpr hok)

/-- A change of the state that a call carries along, refused or not. -/
theorem perform_comm {f : σ → σ}
    (hcomm : ∀ o t, exec c (f s) = .ok (o, t) ↔ ∃ u, exec c s = .ok (o, u) ∧ t = f u) :
    (perform exec c (f s)).2 = f (perform exec c s).2 := by
  cases hexec : exec c s with
  | ok r =>
      obtain ⟨o, u⟩ := r
      rw [perform_of_ok hexec, perform_of_ok ((hcomm o (f u)).mpr ⟨u, hexec, rfl⟩)]
  | error e =>
      have hrefused : ∀ o t, exec c s ≠ .ok (o, t) := by
        intro o t hok
        rw [hexec] at hok
        cases hok
      rw [perform_of_refused hrefused, perform_of_refused]
      intro o t hok
      obtain ⟨u, hok, _⟩ := (hcomm o t).mp hok
      exact hrefused o u hok

end Attempt

/-- A successful call, with the states around it and what it did. -/
structure Taken (κ σ ο : Type) where
  before : σ
  call : κ
  output : ο
  after : σ

/-- The sum of an amount over the calls of a run. -/
def totalOf (f : Taken κ σ ο → Nat) (calls : List (Taken κ σ ο)) : Nat := (calls.map f).sum

@[simp] theorem totalOf_nil (f : Taken κ σ ο → Nat) : totalOf f [] = 0 := rfl

theorem totalOf_concat (f : Taken κ σ ο → Nat) (calls : List (Taken κ σ ο)) (taken : Taken κ σ ο) :
    totalOf f (calls ++ [taken]) = totalOf f calls + f taken := by
  rw [totalOf, totalOf, List.map_append, List.sum_append, List.map_singleton, List.sum_singleton]

theorem totalOf_eq_zero {f : Taken κ σ ο → Nat} {calls : List (Taken κ σ ο)} :
    totalOf f calls = 0 ↔ ∀ taken ∈ calls, f taken = 0 := by
  rw [totalOf, List.sum_eq_zero_iff_forall_eq_nat]
  exact List.forall_mem_map

theorem forall_mem_concat {P : Taken κ σ ο → Prop} {calls : List (Taken κ σ ο)}
    {last : Taken κ σ ο} (hall : ∀ taken ∈ calls, P taken) (hlast : P last) :
    ∀ taken ∈ calls ++ [last], P taken := by
  rw [List.forall_mem_append]
  exact ⟨hall, List.forall_mem_singleton.mpr hlast⟩

variable (exec : κ → σ → Except ε (ο × σ)) (env : σ → σ → Prop)

/-- Runs of successful calls, with the calls in order; the environment may act between them. -/
inductive CallRun : σ → List (Taken κ σ ο) → σ → Prop
  | nil (s : σ) : CallRun s [] s
  | call {s t u : σ} {calls : List (Taken κ σ ο)} {c : κ} {o : ο} (hrun : CallRun s calls t)
      (hexec : exec c t = .ok (o, u)) : CallRun s (calls ++ [⟨t, c, o, u⟩]) u
  | env {s t u : σ} {calls : List (Taken κ σ ο)} (hrun : CallRun s calls t) (henv : env t u) :
      CallRun s calls u

namespace CallRun

variable {exec env} {s t u : σ} {calls calls' : List (Taken κ σ ο)}

/-- An invariant that may speak of the calls so far. -/
theorem invariant {I : List (Taken κ σ ο) → σ → Prop} (hinit : I [] s)
    (hcall : ∀ calls c t o u, I calls t → exec c t = .ok (o, u) → I (calls ++ [⟨t, c, o, u⟩]) u)
    (henv : ∀ calls t u, I calls t → env t u → I calls u) (hrun : CallRun exec env s calls t) :
    I calls t := by
  induction hrun with
  | nil => exact hinit
  | call _ hexec ih => exact hcall _ _ _ _ _ ih hexec
  | env _ hchange ih => exact henv _ _ _ ih hchange

/-- An invariant of the states. -/
theorem preserves {I : σ → Prop} (hinit : I s)
    (hcall : ∀ c t o u, I t → exec c t = .ok (o, u) → I u) (henv : ∀ t u, I t → env t u → I u)
    (hrun : CallRun exec env s calls t) : I t :=
  hrun.invariant (I := fun _ => I) hinit (fun _ => hcall) fun _ => henv

/-- An invariant of the states holds before each call of the run. -/
theorem holds_before {I : σ → Prop} (hinit : I s)
    (hcall : ∀ c t o u, I t → exec c t = .ok (o, u) → I u) (henv : ∀ t u, I t → env t u → I u)
    (hrun : CallRun exec env s calls t) {taken : Taken κ σ ο} (hmem : taken ∈ calls) :
    I taken.before := by
  refine (hrun.invariant (I := fun calls t => I t ∧ ∀ taken ∈ calls, I taken.before) ⟨hinit, ?_⟩
    ?_ ?_).2 taken hmem
  · intro taken hmem
    cases hmem
  · intro calls c t o u ⟨ht, hall⟩ hexec
    exact ⟨hcall c t o u ht hexec, forall_mem_concat hall ht⟩
  · exact fun _ t u ⟨ht, hall⟩ hchange => ⟨henv t u ht hchange, hall⟩

/-- What a call establishes lasts, if every later step keeps it. -/
theorem lasting {P : Taken κ σ ο → σ → Prop}
    (hestablish : ∀ c t o u, exec c t = .ok (o, u) → P ⟨t, c, o, u⟩ u)
    (hcall : ∀ taken c t o u, P taken t → exec c t = .ok (o, u) → P taken u)
    (henv : ∀ taken t u, P taken t → env t u → P taken u) (hrun : CallRun exec env s calls t) :
    ∀ taken ∈ calls, P taken t := by
  refine hrun.invariant (I := fun calls t => ∀ taken ∈ calls, P taken t) ?_ ?_ ?_
  · intro taken hmem
    cases hmem
  · intro calls c t o u hall hexec
    apply forall_mem_concat
    · exact fun taken hmem => hcall taken c t o u (hall taken hmem) hexec
    · exact hestablish c t o u hexec
  · exact fun calls t u hall hchange taken hmem => henv taken t u (hall taken hmem) hchange

theorem exec_of_mem (hrun : CallRun exec env s calls t) {taken : Taken κ σ ο}
    (hmem : taken ∈ calls) : exec taken.call taken.before = .ok (taken.output, taken.after) :=
  hrun.lasting (P := fun taken _ => exec taken.call taken.before = .ok (taken.output, taken.after))
    (fun _ _ _ _ hexec => hexec) (fun _ _ _ _ _ h _ => h) (fun _ _ _ h _ => h) taken hmem

theorem trans (hfirst : CallRun exec env s calls t) (hsecond : CallRun exec env t calls' u) :
    CallRun exec env s (calls ++ calls') u := by
  induction hsecond with
  | nil => rwa [List.append_nil]
  | call _ hexec ih =>
      rw [← List.append_assoc]
      exact ih.call hexec
  | env _ hchange ih => exact ih.env hchange

end CallRun

/-- The run of these calls, if none of them is refused. -/
def replay (exec : κ → σ → Except ε (ο × σ)) : List κ → σ → Except ε (List (Taken κ σ ο) × σ)
  | [], s => .ok ([], s)
  | c :: cs, s => do
      let (o, t) ← exec c s
      let (calls, u) ← replay exec cs t
      return (⟨s, c, o, t⟩ :: calls, u)

theorem CallRun.of_replay {exec : κ → σ → Except ε (ο × σ)} {env : σ → σ → Prop} {cs : List κ}
    {s t : σ} {calls : List (Taken κ σ ο)} (hreplay : replay exec cs s = .ok (calls, t)) :
    CallRun exec env s calls t := by
  induction cs generalizing s calls with
  | nil =>
      cases hreplay
      exact .nil _
  | cons c cs ih =>
      simp only [replay, bind_eq_ok, pure_eq_ok, Prod.exists, Prod.mk.injEq] at hreplay
      obtain ⟨o, u, hexec, rest, _, hrest, rfl, rfl⟩ := hreplay
      have hfirst : CallRun exec env s [⟨s, c, o, u⟩] u := (CallRun.nil s).call hexec
      exact hfirst.trans (ih hrest)

/-- The attempts of these calls, one after the other. -/
def attempts (exec : κ → σ → Except ε (ο × σ)) :
    List κ → σ → List (Taken κ σ (Except ε ο))
  | [], _ => []
  | c :: cs, s => ⟨s, c, (perform exec c s).1, (perform exec c s).2⟩ ::
      attempts exec cs (perform exec c s).2

def stateAfter (exec : κ → σ → Except ε (ο × σ)) (cs : List κ) (s : σ) : σ :=
  cs.foldl (fun s c => (perform exec c s).2) s

theorem CallRun.attempts (exec : κ → σ → Except ε (ο × σ)) (env : σ → σ → Prop) (cs : List κ)
    (s : σ) : CallRun (tryCall exec) env s (attempts exec cs s) (stateAfter exec cs s) := by
  induction cs generalizing s with
  | nil => exact .nil s
  | cons c cs ih =>
      have hfirst : CallRun (tryCall exec) env s
          [⟨s, c, (perform exec c s).1, (perform exec c s).2⟩] (perform exec c s).2 :=
        (CallRun.nil s).call rfl
      exact hfirst.trans (ih _)

end NeuralMesh
