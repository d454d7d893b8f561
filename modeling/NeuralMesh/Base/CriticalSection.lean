import NeuralMesh.Base.OneAtATime

/-!
# Critical sections

Some of the requests of a pool are in a section that no two may be in. `free` says what holds of the
store and the weight of the run while nobody is, `held` what holds while a request is; the rule
follows the section through a run whose guard lets a request enter only while no other is inside.
-/

namespace NeuralMesh

variable {Q : Type} {A : Q → Type} {σ τ α M : Type}

/-- A step of one request, the `i`-th, from the store `s`. -/
inductive Request.Move (exec : (q : Q) → σ → Option (A q × σ)) (s : σ) (i : Nat) :
    Request A τ α → Event Q σ τ → σ → Request A τ α → Prop
  | ran {op : τ} {begun : Bool} {q : Q} {next : A q → Program A α} {fail : Program A α} {a : A q}
      {t : σ} (hexec : exec q s = some (a, t)) :
      Move exec s i ⟨op, begun, .query q next fail⟩ (.ran i op q s t) t ⟨op, true, next a⟩
  | refused {op : τ} {begun : Bool} {q : Q} {next : A q → Program A α} {fail : Program A α}
      (hexec : exec q s = none) :
      Move exec s i ⟨op, begun, .query q next fail⟩ (.refused i op q) s ⟨op, true, fail⟩
  | lost {op : τ} {begun : Bool} {q : Q} {next : A q → Program A α} {fail : Program A α} :
      Move exec s i ⟨op, begun, .query q next fail⟩ (.lost i op q) s ⟨op, true, fail⟩

/-- The next statement ran, was refused, or was lost. -/
theorem Request.Move.cases_query {exec : (q : Q) → σ → Option (A q × σ)} {s t : σ} {i : Nat}
    {r r' : Request A τ α} {e : Event Q σ τ} (hmove : Request.Move exec s i r e t r') {q : Q}
    {next : A q → Program A α} {fail : Program A α} (hrest : r.rest = .query q next fail) :
    (∃ a, exec q s = some (a, t) ∧ e = .ran i r.op q s t ∧ r' = ⟨r.op, true, next a⟩) ∨
      (exec q s = none ∧ e = .refused i r.op q ∧ t = s ∧ r' = ⟨r.op, true, fail⟩) ∨
      (e = .lost i r.op q ∧ t = s ∧ r' = ⟨r.op, true, fail⟩) := by
  cases hmove with
  | ran hexec =>
      cases hrest
      exact .inl ⟨_, hexec, rfl, rfl⟩
  | refused hexec =>
      cases hrest
      exact .inr (.inl ⟨hexec, rfl, rfl, rfl⟩)
  | lost =>
      cases hrest
      exact .inr (.inr ⟨rfl, rfl, rfl⟩)

/-- The next statement of the program satisfies `P`. -/
def Program.Next (P : Q → Prop) : Program A α → Prop
  | .done _ => False
  | .query q _ _ => P q

theorem Program.Uses.not_next {P R : Q → Prop} (hnot : ∀ q, P q → ¬ R q) {p : Program A α}
    (huses : p.Uses P) : ¬ p.Next R := by
  cases p with
  | done result => exact not_false
  | query q next fail => exact hnot q huses.1

variable (A σ τ α M) in
/-- A section, with what is known of a request outside, of the store while nobody is inside, and of
the store and the request that is. -/
structure CriticalSection where
  inside : Request A τ α → Prop
  outside : Request A τ α → Prop
  free : M → σ → Prop
  held : M → σ → Request A τ α → Prop

/-- No request but the `i`-th is in the section. -/
def Pool.NoOther (inside : Request A τ α → Prop) (p : Pool A σ τ α) (i : Nat) : Prop :=
  ∀ (j : Nat) (r : Request A τ α), j ≠ i → p.requests[j]? = some r → ¬ inside r

namespace CriticalSection

variable (K : CriticalSection A σ τ α M)

/-- The request is still inside and holds the section, or has left it free. -/
inductive Left (m : M) (s : σ) (r : Request A τ α) : Prop
  | inside (hinside : K.inside r) (hheld : K.held m s r)
  | outside (hinside : ¬ K.inside r) (houtside : K.outside r) (hfree : K.free m s)

/-- A step from outside: it leaves the section as it is, and enters only while nobody is inside. -/
structure Spares (p : Pool A σ τ α) (i : Nat) (t : σ) (r : Request A τ α) : Prop where
  free : ∀ m, K.free m p.store → K.free m t
  held : ∀ m r₀, K.held m p.store r₀ → K.held m t r₀
  next : ¬ K.inside r ∧ K.outside r ∨
    K.inside r ∧ p.NoOther K.inside i ∧ ∀ m, K.free m p.store → K.held m t r

/-- At most one request is inside. -/
inductive Kept (m : M) (p : Pool A σ τ α) : Prop
  | free (hnone : ∀ (i : Nat) (r : Request A τ α), p.requests[i]? = some r → ¬ K.inside r)
      (hfree : K.free m p.store)
  | held (i : Nat) (r : Request A τ α) (hrequest : p.requests[i]? = some r)
      (hinside : K.inside r) (hothers : p.NoOther K.inside i) (hheld : K.held m p.store r)

variable {K}

/-- Whoever is outside is so after a step of another. -/
private theorem noOther_set {p : Pool A σ τ α} {i : Nat} {t : σ} {r' : Request A τ α}
    (hothers : p.NoOther K.inside i) :
    (⟨t, p.requests.set i r'⟩ : Pool A σ τ α).NoOther K.inside i := by
  intro j r hj hr
  exact hothers j r hj ((List.getElem?_set_ne hj.symm).symm.trans hr)

/-- The request in the section takes a step. -/
private theorem Kept.step_inside {m : M} {p : Pool A σ τ α} {i : Nat} {t : σ}
    {r r' : Request A τ α} (hrequest : p.requests[i]? = some r) (hothers : p.NoOther K.inside i)
    (hleft : K.Left m t r') : K.Kept m ⟨t, p.requests.set i r'⟩ := by
  have hi : i < p.requests.length := (List.getElem?_eq_some_iff.mp hrequest).1
  cases hleft with
  | inside hinside hheld =>
      exact .held i r' (List.getElem?_set_self hi) hinside (noOther_set hothers) hheld
  | outside hinside _ hfree =>
      exact .free (Pool.forall_places_set (P := fun _ r => ¬ K.inside r) hothers hinside) hfree

/-- A request outside takes a step. -/
private theorem Kept.step_outside {m : M} {p : Pool A σ τ α} {i : Nat} {t : σ}
    {r r' : Request A τ α} (hrequest : p.requests[i]? = some r) (houtside : ¬ K.inside r)
    (hspares : K.Spares p i t r') (hkept : K.Kept m p) :
    K.Kept m ⟨t, p.requests.set i r'⟩ := by
  have hi : i < p.requests.length := (List.getElem?_eq_some_iff.mp hrequest).1
  cases hkept with
  | free hnone hfree =>
      rcases hspares.next with ⟨hinside, _⟩ | ⟨hinside, hothers, hheld⟩
      · exact .free (Pool.forall_places_set (P := fun _ r => ¬ K.inside r)
          (fun j r _ hr => hnone j r hr) hinside) (hspares.free m hfree)
      · exact .held i r' (List.getElem?_set_self hi) hinside (noOther_set hothers)
          (hheld m hfree)
  | held k r₀ hrequest₀ hinside₀ hothers₀ hheld₀ =>
      have hk : k ≠ i := by
        rintro rfl
        cases hrequest.symm.trans hrequest₀
        exact houtside hinside₀
      refine .held k r₀ ((List.getElem?_set_ne hk.symm).trans hrequest₀) hinside₀ ?_
        (hspares.held m r₀ hheld₀)
      rcases hspares.next with ⟨hinside, _⟩ | ⟨_, hothers, _⟩
      · intro j r hj hr
        exact Pool.forall_places_set (P := fun j r => j ≠ k → ¬ K.inside r)
          (fun j r _ hr hjk => hothers₀ j r hjk hr) (fun _ => hinside) j r hr hj
      · exact absurd hinside₀ (hothers k r₀ hk hrequest₀)

end CriticalSection

namespace Pool

variable [AddMonoid M] {exec : (q : Q) → σ → Option (A q × σ)} {env : σ → σ → Prop}
  {G : Pool A σ τ α → Event Q σ τ → Prop} {K : CriticalSection A σ τ α M}

/-- A step is one of a request, or the environment's. -/
theorem Step.move {p p' : Pool A σ τ α} {e : Event Q σ τ} (hstep : Step exec env p e p') :
    (∃ i r t r', p.requests[i]? = some r ∧ Request.Move exec p.store i r e t r' ∧
      p' = ⟨t, p.requests.set i r'⟩) ∨
    e = .environment ∧ env p.store p'.store ∧ p'.requests = p.requests := by
  cases hstep with
  | ran hrequest hexec => exact .inl ⟨_, _, _, _, hrequest, .ran hexec, rfl⟩
  | refused hrequest hexec => exact .inl ⟨_, _, _, _, hrequest, .refused hexec, rfl⟩
  | lost hrequest => exact .inl ⟨_, _, _, _, hrequest, .lost, rfl⟩
  | environment henv => exact .inr ⟨rfl, henv, rfl⟩

/-- The rule for critical sections: only the request inside adds to the weight. -/
theorem Runs.critical (weigh : Q → σ → σ → M)
    (hinside : ∀ p i r e t r' m, Request.Move exec p.store i r e t r' → G p e → K.inside r →
      K.held m p.store r → K.Left (m + e.weight weigh) t r')
    (houtside : ∀ p i r e t r', Request.Move exec p.store i r e t r' → G p e → ¬ K.inside r →
      K.outside r → e.weight weigh = 0 ∧ K.Spares p i t r')
    (henv : ∀ s s', env s s' → (∀ m, K.free m s → K.free m s') ∧
      ∀ m r, K.held m s r → K.held m s' r)
    {p p' : Pool A σ τ α} {es : List (Event Q σ τ)} (hrun : Runs exec env G p es p')
    (hrequests : ∀ r ∈ p.requests, ¬ K.inside r ∧ K.outside r) (hstore : K.free 0 p.store) :
    K.Kept (totalWeight weigh es) p' := by
  suffices h : (∀ r ∈ p'.requests, ¬ K.inside r → K.outside r) ∧
      K.Kept (totalWeight weigh es) p' from h.2
  induction hrun with
  | nil =>
      exact ⟨fun r hr _ => (hrequests r hr).2,
        .free (fun i r hr => (hrequests r (List.mem_of_getElem? hr)).1) hstore⟩
  | snoc _ hstep hguard ih =>
      obtain ⟨hout, hkept⟩ := ih
      rw [totalWeight_append]
      rcases hstep.move with ⟨i, r, t, r', hrequest, hmove, rfl⟩ | ⟨rfl, hchange, hsame⟩
      · by_cases hin : K.inside r
        · cases hkept with
          | free hnone _ => exact absurd hin (hnone i r hrequest)
          | held k r₀ hrequest₀ _ hothers hheld =>
              have hik : i = k := by
                by_contra hik
                exact hothers i r hik hrequest hin
              subst hik
              cases hrequest.symm.trans hrequest₀
              have hleft := hinside _ i r _ t r' _ hmove hguard hin hheld
              refine ⟨forall_requests_set hout fun hnot => ?_, .step_inside hrequest hothers hleft⟩
              cases hleft with
              | inside hinside _ => exact absurd hinside hnot
              | outside _ houtside _ => exact houtside
        · obtain ⟨hzero, hspares⟩ := houtside _ i r _ t r' hmove hguard hin
            (hout r (List.mem_of_getElem? hrequest) hin)
          rw [hzero, add_zero]
          refine ⟨forall_requests_set hout fun hnot => ?_, hkept.step_outside hrequest hin hspares⟩
          rcases hspares.next with ⟨_, houtside⟩ | ⟨hinside, _⟩
          · exact houtside
          · exact absurd hinside hnot
      · rw [hsame, Event.weight, add_zero]
        refine ⟨hout, ?_⟩
        obtain ⟨hfree, hheld⟩ := henv _ _ hchange
        cases hkept with
        | free hnone hI => exact .free (by rwa [hsame]) (hfree _ hI)
        | held k r₀ hrequest₀ hinside₀ hothers hJ =>
            refine .held k r₀ (by rwa [hsame]) hinside₀ ?_ (hheld _ _ hJ)
            intro j r hj hr
            rw [hsame] at hr
            exact hothers j r hj hr

end Pool

end NeuralMesh
