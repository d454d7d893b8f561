import NeuralMesh.Base.Interleaving

/-!
# What requests are half-way through

Between two of its statements a request may leave the store as it must not stay. `Pool.Covered` says
that whatever does not hold of the store is excused by a request that has yet to put it right, and
that every request still knows of the store what its next statements rest on. One statement at a
time, this is kept by a whole run.
-/

namespace NeuralMesh

variable {Q : Type} {A : Q → Type} {σ τ α β X : Type}

namespace Program

/-- The statement the program issues next. -/
def head? : Program A α → Option Q
  | done _ => none
  | query q _ _ => some q

/-- `R` relates every statement and its answer to the statement that follows, and `F` holds of the
statement that follows one that fails. -/
def Follows (R : (q : Q) → A q → Option Q → Prop) (F : Option Q → Prop) : Program A α → Prop
  | done _ => True
  | query q next fail =>
      (∀ a, R q a (next a).head? ∧ Follows R F (next a)) ∧ F fail.head? ∧ Follows R F fail

theorem head?_forget (p : Program A α) : p.forget.head? = p.head? := by
  cases p <;> rfl

theorem follows_forget {R : (q : Q) → A q → Option Q → Prop} {F : Option Q → Prop}
    {p : Program A α} : p.forget.Follows R F ↔ p.Follows R F := by
  induction p with
  | done result => rfl
  | query q next fail ihnext ihfail => simp only [forget, Follows, head?_forget, ihnext, ihfail]

/-- The next statement is one of those the program uses. -/
theorem Uses.head {P : Q → Prop} {p : Program A α} (huses : p.Uses P) {q : Q}
    (hq : p.head? = some q) : P q := by
  cases p with
  | done result => cases hq
  | query q' next fail =>
      cases hq
      exact huses.1

/-- Where any statement of `P` may follow any other, the order of a program of such statements is
right. -/
theorem Follows.of_uses {R : (q : Q) → A q → Option Q → Prop} {F : Option Q → Prop} {P : Q → Prop}
    (hnext : ∀ q a h, P q → (∀ q' ∈ h, P q') → R q a h) (hfail : ∀ h, (∀ q' ∈ h, P q') → F h) :
    ∀ {p : Program A α}, p.Uses P → p.Follows R F
  | done _, _ => trivial
  | query q _ _, ⟨hq, hn, hf⟩ =>
      ⟨fun a => ⟨hnext q a _ hq fun _ hq' => (hn a).head hq', of_uses hnext hfail (hn a)⟩,
        hfail _ fun _ hq' => hf.head hq', of_uses hnext hfail hf⟩

end Program

namespace Pool

variable (I : σ → Prop) (T : Nat → Request A τ α → σ → Prop) (Holds : X → σ → Prop)
  (Excuses : X → Request A τ α → Prop)

/-- The store is sound, each request knows what it rests on, and what does not hold is excused. -/
structure Covered (p : Pool A σ τ α) : Prop where
  store : I p.store
  request : ∀ (i : Nat) (r : Request A τ α), p.requests[i]? = some r → T i r p.store
  holds : ∀ x, Holds x p.store ∨
    ∃ (i : Nat) (r : Request A τ α), p.requests[i]? = some r ∧ Excuses x r

variable {I T Holds Excuses} {exec : (q : Q) → σ → Option (A q × σ)} {env : σ → σ → Prop}
  {G : Pool A σ τ α → Event Q σ τ → Prop}

/-- One request goes on. -/
private theorem Covered.set {s s' : σ} {rs : List (Request A τ α)} {i : Nat} {op : τ} {begun : Bool}
    {old rest : Program A α} (hcovered : (⟨s, rs⟩ : Pool A σ τ α).Covered I T Holds Excuses)
    (hrequest : rs[i]? = some ⟨op, begun, old⟩) (hstore : I s') (hown : T i ⟨op, true, rest⟩ s')
    (hothers : ∀ (j : Nat) (r : Request A τ α), j ≠ i → rs[j]? = some r → T j r s')
    (hholds : ∀ x, Holds x s ∨ Excuses x ⟨op, begun, old⟩ →
      Holds x s' ∨ Excuses x ⟨op, true, rest⟩) :
    (⟨s', rs.set i ⟨op, true, rest⟩⟩ : Pool A σ τ α).Covered I T Holds Excuses := by
  have hi : i < rs.length := (List.getElem?_eq_some_iff.mp hrequest).1
  have hat : (rs.set i ⟨op, true, rest⟩)[i]? = some ⟨op, true, rest⟩ := List.getElem?_set_self hi
  refine ⟨hstore, fun j r hr => ?_, fun x => ?_⟩
  · by_cases hj : j = i
    · subst hj
      cases hat.symm.trans hr
      exact hown
    · exact hothers j r hj ((List.getElem?_set_ne (Ne.symm hj)).symm.trans hr)
  · have hthis : Holds x s ∨ Excuses x ⟨op, begun, old⟩ → Holds x s' ∨
        ∃ (j : Nat) (r : Request A τ α), (rs.set i ⟨op, true, rest⟩)[j]? = some r ∧ Excuses x r :=
      fun h => (hholds x h).imp_right fun hexcuses => ⟨i, _, hat, hexcuses⟩
    rcases hcovered.holds x with hheld | ⟨j, r, hr, hexcuses⟩
    · exact hthis (.inl hheld)
    · by_cases hj : j = i
      · subst hj
        cases hrequest.symm.trans hr
        exact hthis (.inr hexcuses)
      · exact .inr ⟨j, r, (List.getElem?_set_ne (Ne.symm hj)).trans hr, hexcuses⟩

/-- The rule of stages. A statement that runs keeps the store sound, gives its own request what it
rests on next and takes nothing from the others, and what it breaks or was to put right either holds
then or is still excused by its request; a statement that fails leaves nothing that only it
excused. -/
theorem Runs.covered
    (hran : ∀ (p : Pool A σ τ α) i op begun q next fail a s', p.Covered I T Holds Excuses →
      G p (.ran i op q p.store s') → p.requests[i]? = some ⟨op, begun, .query q next fail⟩ →
      exec q p.store = some (a, s') →
      I s' ∧ T i ⟨op, true, next a⟩ s' ∧
        (∀ (j : Nat) (r : Request A τ α), j ≠ i → p.requests[j]? = some r → T j r s') ∧
        ∀ x, Holds x p.store ∨ Excuses x ⟨op, begun, .query q next fail⟩ →
          Holds x s' ∨ Excuses x ⟨op, true, next a⟩)
    (hfail : ∀ (p : Pool A σ τ α) i op begun q next fail, p.Covered I T Holds Excuses →
      G p (.refused i op q) ∧ exec q p.store = none ∨ G p (.lost i op q) →
      p.requests[i]? = some ⟨op, begun, .query q next fail⟩ →
      T i ⟨op, true, fail⟩ p.store ∧
        ∀ x, Excuses x ⟨op, begun, .query q next fail⟩ →
          Holds x p.store ∨ Excuses x ⟨op, true, fail⟩)
    (henv : ∀ s s', env s s' →
      (I s → I s') ∧ (∀ i r, T i r s → T i r s') ∧ ∀ x, Holds x s → Holds x s')
    {p p' : Pool A σ τ α} {es : List (Event Q σ τ)} (hrun : Runs exec env G p es p')
    (hstart : p.Covered I T Holds Excuses) : p'.Covered I T Holds Excuses := by
  induction hrun with
  | nil => exact hstart
  | snoc _ hstep hguard hcovered =>
      cases hstep with
      | ran hrequest hexec =>
          obtain ⟨hstore, hown, hothers, hholds⟩ :=
            hran _ _ _ _ _ _ _ _ _ hcovered hguard hrequest hexec
          exact hcovered.set hrequest hstore hown hothers hholds
      | refused hrequest hexec =>
          obtain ⟨hown, hexcuses⟩ :=
            hfail _ _ _ _ _ _ _ hcovered (.inl ⟨hguard, hexec⟩) hrequest
          exact hcovered.set hrequest hcovered.store hown (fun j r _ hr => hcovered.request j r hr)
            fun x => Or.rec .inl (hexcuses x)
      | lost hrequest =>
          obtain ⟨hown, hexcuses⟩ := hfail _ _ _ _ _ _ _ hcovered (.inr hguard) hrequest
          exact hcovered.set hrequest hcovered.store hown (fun j r _ hr => hcovered.request j r hr)
            fun x => Or.rec .inl (hexcuses x)
      | environment hchange =>
          obtain ⟨hstore, hrequest, hholds⟩ := henv _ _ hchange
          exact ⟨hstore hcovered.store, fun i r hr => hrequest i r (hcovered.request i r hr),
            fun x => (hcovered.holds x).imp_left (hholds x)⟩

end Pool

end NeuralMesh
