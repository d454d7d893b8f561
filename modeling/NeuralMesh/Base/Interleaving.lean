import NeuralMesh.Base.Program
import Mathlib.Algebra.BigOperators.Fin

/-!
# Interleaved programs

A pool is a store and a list of requests, each with the rest of its program. A step takes one
request one statement further, or lets the environment touch the store. A statement that fails
changes nothing: the store refuses it, or it is lost.

`Runs G` are the runs whose steps all meet a guard `G`. The rules below reduce what holds throughout
a run to what one statement does.
-/

namespace NeuralMesh

variable {Q : Type} {A : Q → Type} {σ τ α : Type}

/-- A request: what it was, whether it has begun, and what it has left to do. -/
structure Request (A : Q → Type) (τ α : Type) where
  op : τ
  begun : Bool
  rest : Program A α

/-- A request that has not begun. -/
def Request.fresh (program : τ → Program A α) (op : τ) : Request A τ α := ⟨op, false, program op⟩

namespace Request

/-- The request has returned. -/
def Returned (r : Request A τ α) : Prop := ∃ result, r.rest = .done result

/-- The request is between two of its statements. -/
def Underway (r : Request A τ α) : Prop := r.begun = true ∧ ¬ r.Returned

theorem underway_query {op : τ} {q : Q} {next : A q → Program A α} {fail : Program A α} :
    (⟨op, true, .query q next fail⟩ : Request A τ α).Underway := by
  refine ⟨rfl, ?_⟩
  rintro ⟨result, hdone⟩
  cases hdone

end Request

structure Pool (A : Q → Type) (σ τ α : Type) where
  store : σ
  requests : List (Request A τ α)

/-- The pool of requests that have not begun. -/
def Pool.start (program : τ → Program A α) (s : σ) (ops : List τ) : Pool A σ τ α :=
  ⟨s, ops.map (Request.fresh program)⟩

/-- What a step did; `who` is the place of the request in the pool. -/
inductive Event (Q σ τ : Type) where
  | ran (who : Nat) (op : τ) (q : Q) (before after : σ)
  | refused (who : Nat) (op : τ) (q : Q)
  | lost (who : Nat) (op : τ) (q : Q)
  | environment

namespace Event

/-- The request that took the step. -/
def who : Event Q σ τ → Option Nat
  | ran who _ _ _ _ | refused who _ _ | lost who _ _ => some who
  | environment => none

def isLost : Event Q σ τ → Bool
  | lost _ _ _ => true
  | _ => false

/-- The same step on the image of the store. -/
def mapStore {ρ : Type} (f : σ → ρ) : Event Q σ τ → Event Q ρ τ
  | ran who op q before after => ran who op q (f before) (f after)
  | refused who op q => refused who op q
  | lost who op q => lost who op q
  | environment => environment

end Event

/-- The statements that ran, in order. -/
def statements : List (Event Q σ τ) → List Q
  | [] => []
  | .ran _ _ q _ _ :: es => q :: statements es
  | .refused _ _ _ :: es | .lost _ _ _ :: es | .environment :: es => statements es

theorem statements_append (es es' : List (Event Q σ τ)) :
    statements (es ++ es') = statements es ++ statements es' := by
  induction es with
  | nil => rfl
  | cons e es ih => cases e <;> simp only [List.cons_append, statements, ih]

variable (exec : (q : Q) → σ → Option (A q × σ)) (env : σ → σ → Prop)

inductive Pool.Step : Pool A σ τ α → Event Q σ τ → Pool A σ τ α → Prop
  | ran {s s' : σ} {rs : List (Request A τ α)} {i : Nat} {op : τ} {begun : Bool} {q : Q}
      {next : A q → Program A α} {fail : Program A α} {a : A q}
      (hrequest : rs[i]? = some ⟨op, begun, .query q next fail⟩)
      (hexec : exec q s = some (a, s')) :
      Step ⟨s, rs⟩ (.ran i op q s s') ⟨s', rs.set i ⟨op, true, next a⟩⟩
  | refused {s : σ} {rs : List (Request A τ α)} {i : Nat} {op : τ} {begun : Bool} {q : Q}
      {next : A q → Program A α} {fail : Program A α}
      (hrequest : rs[i]? = some ⟨op, begun, .query q next fail⟩) (hexec : exec q s = none) :
      Step ⟨s, rs⟩ (.refused i op q) ⟨s, rs.set i ⟨op, true, fail⟩⟩
  | lost {s : σ} {rs : List (Request A τ α)} {i : Nat} {op : τ} {begun : Bool} {q : Q}
      {next : A q → Program A α} {fail : Program A α}
      (hrequest : rs[i]? = some ⟨op, begun, .query q next fail⟩) :
      Step ⟨s, rs⟩ (.lost i op q) ⟨s, rs.set i ⟨op, true, fail⟩⟩
  | environment {s s' : σ} {rs : List (Request A τ α)} (henv : env s s') :
      Step ⟨s, rs⟩ .environment ⟨s', rs⟩

/-- Runs whose every step meets the guard, with the events in order. -/
inductive Pool.Runs (G : Pool A σ τ α → Event Q σ τ → Prop) :
    Pool A σ τ α → List (Event Q σ τ) → Pool A σ τ α → Prop
  | nil (p : Pool A σ τ α) : Runs G p [] p
  | snoc {p p' p'' : Pool A σ τ α} {es : List (Event Q σ τ)} {e : Event Q σ τ}
      (hrun : Runs G p es p') (hstep : Pool.Step exec env p' e p'') (hguard : G p' e) :
      Runs G p (es ++ [e]) p''

namespace Pool

variable {exec env} {G : Pool A σ τ α → Event Q σ τ → Prop}

theorem Runs.trans {p p' p'' : Pool A σ τ α} {es es' : List (Event Q σ τ)}
    (hfirst : Runs exec env G p es p') (hsecond : Runs exec env G p' es' p'') :
    Runs exec env G p (es ++ es') p'' := by
  induction hsecond with
  | nil => rwa [List.append_nil]
  | snoc hrun hstep hguard ih =>
      rw [← List.append_assoc]
      exact ih.snoc hstep hguard

theorem Runs.mono {G' : Pool A σ τ α → Event Q σ τ → Prop} (hguard : ∀ p e, G p e → G' p e)
    {p p' : Pool A σ τ α} {es : List (Event Q σ τ)} (hrun : Runs exec env G p es p') :
    Runs exec env G' p es p' := by
  induction hrun with
  | nil => exact .nil _
  | snoc _ hstep hmeets ih => exact ih.snoc hstep (hguard _ _ hmeets)

/-! ### A store that remembers -/

/-- The statement, on a store that also remembers what ran. -/
def logged (exec : (q : Q) → σ → Option (A q × σ)) (q : Q) (s : σ × List Q) :
    Option (A q × σ × List Q) :=
  (exec q s.1).map fun answered => (answered.1, answered.2, s.2 ++ [q])

theorem logged_eq_some {q : Q} {s t : σ × List Q} {a : A q} (hexec : logged exec q s = some (a, t)) :
    exec q s.1 = some (a, t.1) ∧ t.2 = s.2 ++ [q] := by
  obtain ⟨answered, hanswered, heq⟩ := Option.map_eq_some_iff.mp hexec
  cases heq
  exact ⟨hanswered, rfl⟩

theorem logged_eq_none_iff {q : Q} {s : σ × List Q} :
    logged exec q s = none ↔ exec q s.1 = none := Option.map_eq_none_iff

theorem logged_of_some {q : Q} {s t : σ} {a : A q} (hexec : exec q s = some (a, t)) (log : List Q) :
    logged exec q (s, log) = some (a, t, log ++ [q]) := by
  rw [logged, hexec, Option.map_some]

/-- A run on a store that also remembers what ran. -/
theorem Runs.logged {p p' : Pool A σ τ α} {es : List (Event Q σ τ)} (hrun : Runs exec env G p es p')
    (log : List Q) :
    ∃ es', Runs (Pool.logged exec) (fun s t => env s.1 t.1 ∧ t.2 = s.2)
      (fun p e => G ⟨p.store.1, p.requests⟩ (e.mapStore Prod.fst)) ⟨(p.store, log), p.requests⟩ es'
      ⟨(p'.store, log ++ statements es), p'.requests⟩ := by
  induction hrun with
  | nil =>
      refine ⟨[], ?_⟩
      rw [statements, List.append_nil]
      exact .nil _
  | snoc _ hstep hguard ih =>
      obtain ⟨es', hruns⟩ := ih
      rw [statements_append, ← List.append_assoc]
      cases hstep with
      | @ran s t rs i op begun q next fail a hrequest hexec =>
          exact ⟨_, hruns.snoc (.ran hrequest (logged_of_some hexec _)) hguard⟩
      | refused hrequest hexec =>
          rw [statements, statements, List.append_nil]
          exact ⟨_, hruns.snoc (.refused hrequest (logged_eq_none_iff.mpr hexec)) hguard⟩
      | lost hrequest =>
          rw [statements, statements, List.append_nil]
          exact ⟨_, hruns.snoc (.lost hrequest) hguard⟩
      | environment hchange =>
          rw [statements, statements, List.append_nil]
          exact ⟨_, hruns.snoc (.environment ⟨hchange, rfl⟩) hguard⟩

/-! ### Invariants -/

/-- What holds of every request holds after a step of one of them, if it holds of that one. -/
theorem forall_requests_set {P : Request A τ α → Prop} {rs : List (Request A τ α)} {i : Nat}
    {r' : Request A τ α} (hall : ∀ r ∈ rs, P r) (hstep : P r') : ∀ r ∈ rs.set i r', P r := by
  intro r hr
  rcases List.mem_or_eq_of_mem_set hr with hr | rfl
  · exact hall r hr
  · exact hstep

/-- The same, for a property of a request and its place. -/
theorem forall_places_set {P : Nat → Request A τ α → Prop} {rs : List (Request A τ α)} {i : Nat}
    {r' : Request A τ α} (hothers : ∀ j r, j ≠ i → rs[j]? = some r → P j r) (hstep : P i r') :
    ∀ j r, (rs.set i r')[j]? = some r → P j r := by
  intro j r hr
  rw [List.getElem?_set] at hr
  by_cases hij : i = j
  · rw [if_pos hij] at hr
    split at hr
    · rw [← Option.some.inj hr, ← hij]
      exact hstep
    · cases hr
  · rw [if_neg hij] at hr
    exact hothers j r (Ne.symm hij) hr

/-- The safety rule: `I` holds of the store and `T` of what each request has left to do, when every
statement keeps both. -/
theorem Runs.safe {I : σ → Prop} {T : τ → Program A α → Prop}
    (hran : ∀ p i op q next fail a s', G p (.ran i op q p.store s') → I p.store →
      T op (.query q next fail) → exec q p.store = some (a, s') → I s' ∧ T op (next a))
    (hfail : ∀ op q next fail, T op (.query q next fail) → T op fail)
    (henv : ∀ s s', env s s' → I s → I s') {p p' : Pool A σ τ α} {es : List (Event Q σ τ)}
    (hrun : Runs exec env G p es p') (hstore : I p.store)
    (hrequests : ∀ r ∈ p.requests, T r.op r.rest) :
    I p'.store ∧ ∀ r ∈ p'.requests, T r.op r.rest := by
  induction hrun with
  | nil => exact ⟨hstore, hrequests⟩
  | snoc _ hstep hguard ih =>
      obtain ⟨hI, hT⟩ := ih
      cases hstep with
      | ran hrequest hexec =>
          have hthis := hT _ (List.mem_of_getElem? hrequest)
          obtain ⟨hI', hnext⟩ := hran _ _ _ _ _ _ _ _ hguard hI hthis hexec
          exact ⟨hI', forall_requests_set hT hnext⟩
      | refused hrequest hexec =>
          have hthis := hT _ (List.mem_of_getElem? hrequest)
          exact ⟨hI, forall_requests_set hT (hfail _ _ _ _ hthis)⟩
      | lost hrequest =>
          have hthis := hT _ (List.mem_of_getElem? hrequest)
          exact ⟨hI, forall_requests_set hT (hfail _ _ _ _ hthis)⟩
      | environment hchange => exact ⟨henv _ _ hchange hI, hT⟩

/-- A property of the store that every statement and the environment preserve. -/
theorem Runs.preserves {I : σ → Prop}
    (hran : ∀ p i op q a s', G p (.ran i op q p.store s') → I p.store →
      exec q p.store = some (a, s') → I s')
    (henv : ∀ s s', env s s' → I s → I s') {p p' : Pool A σ τ α} {es : List (Event Q σ τ)}
    (hrun : Runs exec env G p es p') (hstore : I p.store) : I p'.store :=
  (hrun.safe (T := fun _ _ => True)
    (fun p i op q _ _ a s' hguard hI _ hexec => ⟨hran p i op q a s' hguard hI hexec, trivial⟩)
    (fun _ _ _ _ _ => trivial) henv hstore fun _ _ => trivial).1

/-- The rely rule: every answer given while `I` holds satisfies `T`, every request issues only
statements that satisfy `P` as long as it is told such answers, and those keep `I`. -/
theorem Runs.relies {I : σ → Prop} {T : (q : Q) → A q → Prop} {P : Q → Prop}
    (htold : ∀ q s a s', I s → exec q s = some (a, s') → T q a)
    (hkeeps : ∀ q s a s', I s → P q → exec q s = some (a, s') → I s')
    (henv : ∀ s s', env s s' → I s → I s') {p p' : Pool A σ τ α} {es : List (Event Q σ τ)}
    (hrun : Runs exec env G p es p') (hstore : I p.store)
    (hrequests : ∀ r ∈ p.requests, r.rest.UsesGiven T P) : I p'.store := by
  refine (hrun.safe (T := fun _ rest => rest.UsesGiven T P) ?_ ?_ henv hstore hrequests).1
  · intro p₁ i op q next fail a s' _ hI hgiven hexec
    obtain ⟨hq, hnext, _⟩ := hgiven
    exact ⟨hkeeps q _ a s' hI hq hexec, hnext a (htold q _ a s' hI hexec)⟩
  · intro op q next fail hgiven
    exact hgiven.2.2

/-! ### Budgets -/

section Budget

variable {I : Nat → σ → Prop} {T : Nat → τ → Program A α → Prop}

/-- What is left of the budgets, request by request. -/
private structure Budgeted (T : Nat → τ → Program A α → Prop) (rs : List (Request A τ α))
    (left : Nat → Nat) : Prop where
  request : ∀ i r, rs[i]? = some r → T (left i) r.op r.rest

private theorem Budgeted.set {rs : List (Request A τ α)} {left : Nat → Nat}
    (hb : Budgeted T rs left) (i : Nat) {op : τ} {rest : Program A α} {n : Nat}
    (hrest : T n op rest) : Budgeted T (rs.set i ⟨op, true, rest⟩) (Function.update left i n) where
  request := by
    intro j r hr
    rw [List.getElem?_set] at hr
    by_cases hij : i = j
    · subst hij
      rw [if_pos rfl] at hr
      split at hr
      · cases hr
        rw [Function.update_self]
        exact hrest
      · cases hr
    · rw [if_neg hij] at hr
      rw [Function.update_of_ne (Ne.symm hij)]
      exact hb.request j r hr

/-- Request `i` spends `d` of its budget. -/
private theorem sum_spend {left : Nat → Nat} {n i d : Nat} (hi : i < n) (hd : d ≤ left i) :
    ∑ j ∈ Finset.range n, Function.update left i (left i - d) j + d =
      ∑ j ∈ Finset.range n, left j := by
  have hmem : i ∈ Finset.range n := Finset.mem_range.mpr hi
  rw [Finset.sum_update_of_mem hmem, ← Finset.add_sum_erase _ _ hmem,
    Finset.sdiff_singleton_eq_erase]
  omega

/-- The budget rule: `I k` holds of the store after `k` units were spent, `T n` of what a request
with `n` units has left to do, and every statement spends from the budget of its request. Then no
run spends more than all budgets together. -/
theorem Runs.budget
    (hran : ∀ k n op q next fail s a s', I k s → T n op (.query q next fail) →
      exec q s = some (a, s') → ∃ d, d ≤ n ∧ I (k + d) s' ∧ T (n - d) op (next a))
    (hfail : ∀ n op q next fail, T n op (.query q next fail) → T n op fail)
    (henv : ∀ k s s', env s s' → I k s → I k s') {budget : τ → Nat} {program : τ → Program A α}
    (hprogram : ∀ op, T (budget op) op (program op)) {s : σ} (hstore : I 0 s) {ops : List τ}
    {p : Pool A σ τ α} {es : List (Event Q σ τ)}
    (hrun : Runs exec env G (Pool.start program s ops) es p) :
    (∃ k, k ≤ (ops.map budget).sum ∧ I k p.store) ∧
      ∀ r ∈ p.requests, ∃ n, T n r.op r.rest := by
  let first (i : Nat) : Nat := (ops[i]?.map budget).getD 0
  have hfirst : ∑ i ∈ Finset.range ops.length, first i = (ops.map budget).sum := by
    rw [← Fin.sum_univ_eq_sum_range, ← List.sum_ofFn]
    congr 1
    apply List.ext_getElem
    · simp
    · intro i hi hi'
      simp [first]
  suffices h : ∃ k left, k + ∑ i ∈ Finset.range p.requests.length, left i ≤ (ops.map budget).sum ∧
      I k p.store ∧ Budgeted T p.requests left by
    obtain ⟨k, left, hle, hI, hb⟩ := h
    refine ⟨⟨k, by omega, hI⟩, fun r hr => ?_⟩
    obtain ⟨i, hi⟩ := List.mem_iff_getElem?.mp hr
    exact ⟨left i, hb.request i r hi⟩
  induction hrun with
  | nil =>
      refine ⟨0, first, ?_, hstore, ⟨fun i r hr => ?_⟩⟩
      · simp only [Pool.start, List.length_map, hfirst, zero_add, le_refl]
      · obtain ⟨op, hop, rfl⟩ : ∃ op, ops[i]? = some op ∧ Request.fresh program op = r := by
          simpa [Pool.start] using hr
        simpa only [first, hop, Option.map_some, Option.getD_some, Request.fresh] using hprogram op
  | snoc _ hstep _ ih =>
      obtain ⟨k, left, hle, hI, hb⟩ := ih
      cases hstep with
      | ran hrequest hexec =>
          have hi := (List.getElem?_eq_some_iff.mp hrequest).1
          obtain ⟨d, hd, hI', hT⟩ := hran k _ _ _ _ _ _ _ _ hI (hb.request _ _ hrequest) hexec
          refine ⟨k + d, _, ?_, hI', hb.set _ hT⟩
          rw [List.length_set]
          have hsum := sum_spend hi hd
          dsimp only at hle
          omega
      | @refused _ _ i _ _ _ _ _ hrequest hexec =>
          have hT := hfail _ _ _ _ _ (hb.request _ _ hrequest)
          have hset := hb.set i hT
          rw [Function.update_eq_self] at hset
          exact ⟨k, left, by rwa [List.length_set], hI, hset⟩
      | @lost _ _ i _ _ _ _ _ hrequest =>
          have hT := hfail _ _ _ _ _ (hb.request _ _ hrequest)
          have hset := hb.set i hT
          rw [Function.update_eq_self] at hset
          exact ⟨k, left, by rwa [List.length_set], hI, hset⟩
      | environment hchange => exact ⟨k, left, hle, henv _ _ _ hchange hI, hb⟩

end Budget

/-! ### One request after the other -/

variable (exec env) in
/-- A request can run to its end in one piece. -/
theorem runs_alone (s : σ) (rs : List (Request A τ α)) (i : Nat) (op : τ) (begun : Bool)
    (program : Program A α) (hrequest : rs[i]? = some ⟨op, begun, program⟩) :
    ∃ es begun', Runs exec env (fun _ e => e.isLost = false) ⟨s, rs⟩ es
      ⟨(program.run exec s).2, rs.set i ⟨op, begun', .done (program.run exec s).1⟩⟩ := by
  induction program generalizing s rs begun with
  | done result =>
      refine ⟨[], begun, ?_⟩
      rw [Program.run_done]
      have hsame : rs.set i ⟨op, begun, .done result⟩ = rs := by
        obtain ⟨hi, heq⟩ := List.getElem?_eq_some_iff.mp hrequest
        rw [← heq, List.set_getElem_self]
      rw [hsame]
      exact .nil _
  | query q next fail ihnext ihfail =>
      have hi : i < rs.length := (List.getElem?_eq_some_iff.mp hrequest).1
      cases hexec : exec q s with
      | some answered =>
          obtain ⟨a, s'⟩ := answered
          obtain ⟨es, begun', hrest⟩ := ihnext a s' (rs.set i ⟨op, true, next a⟩) true
            (by rw [List.getElem?_set_self hi])
          rw [List.set_set] at hrest
          refine ⟨[.ran i op q s s'] ++ es, begun', ?_⟩
          rw [Program.run_query_of_some exec hexec]
          exact (Runs.snoc (.nil _) (.ran hrequest hexec) rfl).trans hrest
      | none =>
          obtain ⟨es, begun', hrest⟩ := ihfail s (rs.set i ⟨op, true, fail⟩) true
            (by rw [List.getElem?_set_self hi])
          rw [List.set_set] at hrest
          refine ⟨[.refused i op q] ++ es, begun', ?_⟩
          rw [Program.run_query_of_none exec hexec]
          exact (Runs.snoc (.nil _) (.refused hrequest hexec) rfl).trans hrest

variable (exec env) in
/-- Requests that have not begun can run to their ends in turn. -/
theorem runs_in_turn (program : τ → Program A α) (s : σ) (rs later : List (Request A τ α))
    (ops : List τ) :
    ∃ es returned, Runs exec env (fun _ e => e.isLost = false)
      ⟨s, rs ++ (ops.map (Request.fresh program) ++ later)⟩ es
      ⟨ops.foldl (fun s op => ((program op).run exec s).2) s, rs ++ (returned ++ later)⟩ := by
  induction ops generalizing s rs with
  | nil => exact ⟨[], [], .nil _⟩
  | cons op ops ih =>
      have hfresh : (rs ++ (Request.fresh program op :: (ops.map (Request.fresh program) ++ later)))[
          rs.length]? = some (Request.fresh program op) := by
        rw [List.getElem?_append_right (le_refl _), Nat.sub_self, List.getElem?_cons_zero]
      obtain ⟨es, begun, hfirst⟩ := runs_alone exec env s _ rs.length op false (program op) hfresh
      rw [List.set_append_right _ _ (le_refl _), Nat.sub_self, List.set_cons_zero] at hfirst
      obtain ⟨es', returned, hrest⟩ := ih ((program op).run exec s).2
        (rs ++ [⟨op, begun, .done ((program op).run exec s).1⟩])
      simp only [List.append_assoc, List.singleton_append] at hrest
      exact ⟨es ++ es', ⟨op, begun, .done ((program op).run exec s).1⟩ :: returned,
        hfirst.trans hrest⟩

/-! ### Scripts -/

/-- One step of request `i`, if it has a statement left; without an answer the statement is lost. -/
def advance (exec : (q : Q) → σ → Option (A q × σ)) (p : Pool A σ τ α) (i : Nat)
    (answered : Bool) : Option (Event Q σ τ × Pool A σ τ α) :=
  match p.requests[i]? with
  | some ⟨op, _, .query q next fail⟩ =>
      match answered, exec q p.store with
      | true, some (a, s') =>
          some (.ran i op q p.store s', ⟨s', p.requests.set i ⟨op, true, next a⟩⟩)
      | true, none => some (.refused i op q, ⟨p.store, p.requests.set i ⟨op, true, fail⟩⟩)
      | false, _ => some (.lost i op q, ⟨p.store, p.requests.set i ⟨op, true, fail⟩⟩)
  | _ => none

theorem step_of_advance {p p' : Pool A σ τ α} {i : Nat} {answered : Bool} {e : Event Q σ τ}
    (hadvance : p.advance exec i answered = some (e, p')) : Step exec env p e p' := by
  obtain ⟨s, rs⟩ := p
  rw [advance] at hadvance
  split at hadvance
  · rename_i op begun q next fail hrequest
    split at hadvance
    · rename_i a s' hexec
      cases hadvance
      exact .ran hrequest hexec
    · rename_i hexec
      cases hadvance
      exact .refused hrequest hexec
    · cases hadvance
      exact .lost hrequest
  · cases hadvance

/-- The steps a script names, as far as they can be taken. -/
def play (exec : (q : Q) → σ → Option (A q × σ)) :
    List (Nat × Bool) → Pool A σ τ α → List (Event Q σ τ) × Pool A σ τ α
  | [], p => ([], p)
  | (i, answered) :: script, p =>
      match p.advance exec i answered with
      | some (e, p') =>
          let played := play exec script p'
          (e :: played.1, played.2)
      | none => play exec script p

theorem runs_play (script : List (Nat × Bool)) (p : Pool A σ τ α) :
    Runs exec env (fun _ _ => True) p (p.play exec script).1 (p.play exec script).2 := by
  induction script generalizing p with
  | nil => exact .nil p
  | cons entry script ih =>
      obtain ⟨i, answered⟩ := entry
      rw [Pool.play]
      split
      · rename_i e p' hadvance
        exact (Runs.snoc (.nil p) (step_of_advance hadvance) trivial).trans (ih p')
      · exact ih p

end Pool

end NeuralMesh
