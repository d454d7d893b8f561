import NeuralMesh.Base.Interleaving
import Mathlib.Algebra.BigOperators.Group.List.Basic
import Mathlib.Algebra.Order.BigOperators.Group.List
import Mathlib.Algebra.Order.Group.Unbundled.Basic
import Mathlib.Tactic.Abel

/-!
# Requests with debts

Each request of a pool owes something: what the statements it has left will still take from the
store. A statement may change the debt of its own request only, so the debts of a pool change with
it, and an invariant `I` of all debts together and the store is an obligation about one statement at
a time.
-/

namespace NeuralMesh

variable {Q : Type} {A : Q → Type} {σ τ α M : Type} [AddCommGroup M]

namespace Pool

/-- What all requests of the pool owe together. -/
def totalOwed (owed : Program A α → M) (p : Pool A σ τ α) : M :=
  (p.requests.map fun r => owed r.rest).sum

/-- One request goes on: its old debt is replaced by its new one. -/
theorem totalOwed_set (owed : Program A α → M) {rs : List (Request A τ α)} {i : Nat}
    {r : Request A τ α} (hrequest : rs[i]? = some r) (s s' : σ) (r' : Request A τ α) :
    (⟨s', rs.set i r'⟩ : Pool A σ τ α).totalOwed owed =
      (⟨s, rs⟩ : Pool A σ τ α).totalOwed owed - owed r.rest + owed r'.rest := by
  induction rs generalizing i with
  | nil => cases hrequest
  | cons first rs ih =>
      cases i with
      | zero =>
          cases hrequest
          simp only [totalOwed, List.set_cons_zero, List.map_cons, List.sum_cons]
          abel
      | succ i =>
          have hrest := ih (i := i) hrequest
          simp only [totalOwed, List.set_cons_succ, List.map_cons, List.sum_cons] at hrest ⊢
          rw [hrest]
          abel

variable [PartialOrder M] [IsOrderedAddMonoid M]

theorem totalOwed_nonneg {owed : Program A α → M} {p : Pool A σ τ α}
    (hnonneg : ∀ r ∈ p.requests, 0 ≤ owed r.rest) : 0 ≤ p.totalOwed owed := by
  apply List.sum_nonneg
  intro m hm
  obtain ⟨r, hr, rfl⟩ := List.mem_map.mp hm
  exact hnonneg r hr

/-- A failed statement leaves the debts of the others. -/
theorem totalOwed_set_le {owed : Program A α → M} {rs : List (Request A τ α)} {i : Nat} {op : τ}
    {begun : Bool} {p fail : Program A α} {s : σ} (hrequest : rs[i]? = some ⟨op, begun, p⟩)
    (hle : owed fail ≤ owed p) :
    (⟨s, rs.set i ⟨op, true, fail⟩⟩ : Pool A σ τ α).totalOwed owed ≤
      (⟨s, rs⟩ : Pool A σ τ α).totalOwed owed := by
  rw [totalOwed_set owed hrequest s, sub_add_eq_add_sub, sub_le_iff_le_add]
  exact add_le_add_right hle _

variable {exec : (q : Q) → σ → Option (A q × σ)} {env : σ → σ → Prop}
  {G : Pool A σ τ α → Event Q σ τ → Prop} {owed : Program A α → M} {I : M → σ → Prop}
  {T : τ → Program A α → Prop}

variable (owed) in
/-- The debt rule: `I` holds of the debts and the store, and `T` of what each request has left to
do, when every statement keeps `I` with the new debt of its request and a failure cancels debts
only. -/
theorem Runs.debts (hfewer : ∀ m m' s, m' ≤ m → I m s → I m' s)
    (hran : ∀ p i op begun q next fail a s', G p (.ran i op q p.store s') →
      p.requests[i]? = some ⟨op, begun, .query q next fail⟩ → T op (.query q next fail) →
      I (p.totalOwed owed) p.store → exec q p.store = some (a, s') →
      I (p.totalOwed owed - owed (.query q next fail) + owed (next a)) s' ∧ T op (next a))
    (hfail : ∀ op q next fail, T op (.query q next fail) →
      owed fail ≤ owed (.query q next fail) ∧ T op fail)
    (henv : ∀ m s s', env s s' → I m s → I m s') {p p' : Pool A σ τ α}
    {es : List (Event Q σ τ)} (hrun : Runs exec env G p es p')
    (hstore : I (p.totalOwed owed) p.store) (hrequests : ∀ r ∈ p.requests, T r.op r.rest) :
    I (p'.totalOwed owed) p'.store ∧ ∀ r ∈ p'.requests, T r.op r.rest := by
  induction hrun with
  | nil => exact ⟨hstore, hrequests⟩
  | snoc _ hstep hguard ih =>
      obtain ⟨hI, hT⟩ := ih
      cases hstep with
      | @ran s s' rs i op begun q next fail a hrequest hexec =>
          have hthis := hT _ (List.mem_of_getElem? hrequest)
          obtain ⟨hI', hrest⟩ := hran _ _ _ _ _ _ _ _ _ hguard hrequest hthis hI hexec
          constructor
          · rw [totalOwed_set owed hrequest s]
            exact hI'
          · exact forall_requests_set hT hrest
      | refused hrequest hexec =>
          obtain ⟨hle, hrest⟩ := hfail _ _ _ _ (hT _ (List.mem_of_getElem? hrequest))
          exact ⟨hfewer _ _ _ (totalOwed_set_le hrequest hle) hI, forall_requests_set hT hrest⟩
      | lost hrequest =>
          obtain ⟨hle, hrest⟩ := hfail _ _ _ _ (hT _ (List.mem_of_getElem? hrequest))
          exact ⟨hfewer _ _ _ (totalOwed_set_le hrequest hle) hI, forall_requests_set hT hrest⟩
      | environment hchange => exact ⟨henv _ _ _ hchange hI, hT⟩

end Pool

end NeuralMesh
