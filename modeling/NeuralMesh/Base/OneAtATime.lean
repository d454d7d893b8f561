import NeuralMesh.Base.Interleaving

/-!
# Requests that take turns

A run weighs what its statements did. If a request passes its first statement only while no other
is between two of its statements, or else returns at once and changes nothing, the weight of a whole
run can be bounded request by request: `Ends` follows one program to its end, with the environment
between its statements, and `Runs.oneAtATime` puts the requests together.
-/

namespace NeuralMesh

variable {Q : Type} {A : Q → Type} {σ τ α M : Type} [AddMonoid M]

/-- What a step weighs; only a statement that ran does. -/
def Event.weight (weigh : Q → σ → σ → M) : Event Q σ τ → M
  | ran _ _ q before after => weigh q before after
  | refused _ _ _ | lost _ _ _ | environment => 0

/-- What a run weighs. -/
def totalWeight (weigh : Q → σ → σ → M) (es : List (Event Q σ τ)) : M :=
  (es.map (Event.weight weigh)).sum

@[simp] theorem totalWeight_nil (weigh : Q → σ → σ → M) :
    totalWeight weigh ([] : List (Event Q σ τ)) = 0 := rfl

theorem totalWeight_append (weigh : Q → σ → σ → M) (es : List (Event Q σ τ)) (e : Event Q σ τ) :
    totalWeight weigh (es ++ [e]) = totalWeight weigh es + e.weight weigh := by
  simp [totalWeight]

section

variable (exec : (q : Q) → σ → Option (A q × σ)) (env : σ → σ → Prop) (weigh : Q → σ → σ → M)
  (bound : M → Prop) (I : M → σ → Prop)

/-- From a weight and a store, the program ends with `I`, and stays within the bound before. -/
def Program.Ends : Program A α → M → σ → Prop
  | .done _, m, s => I m s
  | .query q next fail, m, s =>
      bound m ∧ ∀ s', env s s' →
        (∀ a t, exec q s' = some (a, t) → Ends (next a) (m + weigh q s' t) t) ∧
        (exec q s' = none → Ends fail m s')

end

variable {exec : (q : Q) → σ → Option (A q × σ)} {env : σ → σ → Prop} {weigh : Q → σ → σ → M}
  {bound : M → Prop} {I : M → σ → Prop}

namespace Program

theorem Ends.bounded (hbound : ∀ m s, I m s → bound m) {p : Program A α} {m : M} {s : σ}
    (hends : p.Ends exec env weigh bound I m s) : bound m := by
  cases p with
  | done result => exact hbound m s hends
  | query q next fail => exact hends.1

theorem Ends.shift (htrans : ∀ s₁ s₂ s₃, env s₁ s₂ → env s₂ s₃ → env s₁ s₃)
    (henv : ∀ m s s', env s s' → I m s → I m s') {p : Program A α} {m : M} {s s' : σ}
    (hchange : env s s') (hends : p.Ends exec env weigh bound I m s) :
    p.Ends exec env weigh bound I m s' := by
  cases p with
  | done result => exact henv m s s' hchange hends
  | query q next fail => exact ⟨hends.1, fun t ht => hends.2 t (htrans s s' t hchange ht)⟩

/-- A program whose statements weigh nothing and keep `I` ends with it. -/
theorem Ends.of_uses (hbound : ∀ m s, I m s → bound m)
    (henv : ∀ m s s', env s s' → I m s → I m s') {P : Q → Prop}
    (hkeep : ∀ q m s a t, P q → I m s → exec q s = some (a, t) → weigh q s t = 0 ∧ I m t) :
    ∀ (p : Program A α) {m : M} {s : σ}, p.Uses P → I m s → p.Ends exec env weigh bound I m s
  | .done _, _, _, _, hI => hI
  | .query q next fail, m, s, ⟨hq, hnext, hfail⟩, hI => by
      refine ⟨hbound m s hI, fun s' hchange => ⟨fun a t hexec => ?_, fun _ => ?_⟩⟩
      · obtain ⟨hzero, hI'⟩ := hkeep q m s' a t hq (henv m s s' hchange hI) hexec
        rw [hzero, add_zero]
        exact of_uses hbound henv hkeep (next a) (hnext a) hI'
      · exact of_uses hbound henv hkeep fail hfail (henv m s s' hchange hI)

/-- An answered statement. -/
theorem Ends.query {q : Q} {next : A q → Program A α} {fail : Program A α} {m : M} {s : σ}
    (hm : bound m) (hnext : ∀ s', env s s' → ∃ a t, exec q s' = some (a, t) ∧
      (next a).Ends exec env weigh bound I (m + weigh q s' t) t) :
    (Program.query q next fail).Ends exec env weigh bound I m s := by
  refine ⟨hm, fun s' hchange => ?_⟩
  obtain ⟨a, t, hexec, hends⟩ := hnext s' hchange
  refine ⟨fun a' t' hexec' => ?_, fun hnone => ?_⟩
  · cases hexec.symm.trans hexec'
    exact hends
  · cases hexec.symm.trans hnone

theorem ends_forget {p : Program A α} {m : M} {s : σ} :
    p.forget.Ends exec env weigh bound I m s ↔ p.Ends exec env weigh bound I m s := by
  induction p generalizing m s with
  | done result => rfl
  | query q next fail ihnext ihfail => simp only [forget, Ends, ihnext, ihfail]

end Program

namespace Pool

/-- No request but `i` is between two of its statements. -/
def Alone (p : Pool A σ τ α) (i : Nat) : Prop :=
  ∀ (j : Nat) (r : Request A τ α), j ≠ i → p.requests[j]? = some r → ¬ r.Underway

/-- A request of the class takes a step only while no other of the class is between two of its
statements. -/
def TakesTurns (C : τ → Prop) (p : Pool A σ τ α) (e : Event Q σ τ) : Prop :=
  ∀ (i : Nat) (r : Request A τ α), e.who = some i → p.requests[i]? = some r → C r.op →
    ∀ (j : Nat) (r' : Request A τ α), j ≠ i → p.requests[j]? = some r' → C r'.op → ¬ r'.Underway

theorem TakesTurns.of_alone {C : τ → Prop} {p : Pool A σ τ α} {e : Event Q σ τ}
    (halone : ∀ i, e.who = some i → p.Alone i) : p.TakesTurns C e :=
  fun i _ hwho _ _ j r' hj hr' _ => halone i hwho j r' hj hr'

/-- Nothing is underway and the store is weighed right, or one request is, and will leave it so. -/
private inductive Turn (exec : (q : Q) → σ → Option (A q × σ)) (env : σ → σ → Prop)
    (weigh : Q → σ → σ → M) (bound : M → Prop) (I : M → σ → Prop) (m : M) (p : Pool A σ τ α) : Prop
  | idle (hnone : ∀ (i : Nat) (r : Request A τ α), p.requests[i]? = some r → ¬ r.Underway)
      (hI : I m p.store)
  | busy (i : Nat) (r : Request A τ α) (hrequest : p.requests[i]? = some r)
      (hunderway : r.Underway) (halone : p.Alone i)
      (hends : r.rest.Ends exec env weigh bound I m p.store)

private theorem Turn.bounded (hbound : ∀ m s, I m s → bound m) {m : M} {p : Pool A σ τ α}
    (hturn : p.Turn exec env weigh bound I m) : bound m := by
  cases hturn with
  | idle _ hI => exact hbound _ _ hI
  | busy _ _ _ _ _ hends => exact hends.bounded hbound

/-- A request that finds itself alone before it begins finds the store as `I` has it. -/
private theorem Turn.invariant {m : M} {p : Pool A σ τ α} {i : Nat} {r : Request A τ α}
    (hrequest : p.requests[i]? = some r) (hwaits : ¬ r.Underway) (halone : p.Alone i)
    (hturn : p.Turn exec env weigh bound I m) : I m p.store := by
  cases hturn with
  | idle _ hI => exact hI
  | busy k r₀ hk hunderway _ _ =>
      by_cases hik : k = i
      · subst hik
        cases hrequest.symm.trans hk
        exact absurd hunderway hwaits
      · exact absurd hunderway (halone k r₀ hik hk)

/-- A request that has begun is the one whose turn it is. -/
private theorem Turn.own {m : M} {p : Pool A σ τ α} {i : Nat} {r : Request A τ α}
    (hrequest : p.requests[i]? = some r) (hunderway : r.Underway)
    (hturn : p.Turn exec env weigh bound I m) :
    p.Alone i ∧ r.rest.Ends exec env weigh bound I m p.store := by
  cases hturn with
  | idle hnone _ => exact absurd hunderway (hnone i r hrequest)
  | busy k r₀ hk _ halone hends =>
      by_cases hik : i = k
      · subst hik
        cases hrequest.symm.trans hk
        exact ⟨halone, hends⟩
      · exact absurd hunderway (halone i r hik hrequest)

/-- Request `i` moves on while the others wait. -/
private theorem Turn.of_alone {m : M} {s s' : σ} {rs : List (Request A τ α)} {i : Nat}
    {r : Request A τ α} {op : τ} {rest : Program A α} (hrequest : rs[i]? = some r)
    (halone : (⟨s, rs⟩ : Pool A σ τ α).Alone i) (hends : rest.Ends exec env weigh bound I m s') :
    (⟨s', rs.set i ⟨op, true, rest⟩⟩ : Pool A σ τ α).Turn exec env weigh bound I m := by
  have hi : i < rs.length := (List.getElem?_eq_some_iff.mp hrequest).1
  have halone' : (⟨s', rs.set i ⟨op, true, rest⟩⟩ : Pool A σ τ α).Alone i := by
    intro j r' hj hr'
    exact halone j r' hj ((List.getElem?_set_ne hj.symm).symm.trans hr')
  cases rest with
  | done result =>
      refine .idle (fun j r' hr' => ?_) hends
      by_cases hj : j = i
      · subst hj
        rw [List.getElem?_set_self hi] at hr'
        cases hr'
        exact fun hunderway => hunderway.2 ⟨result, rfl⟩
      · exact halone' j r' hj hr'
  | query q next fail =>
      exact .busy i _ (List.getElem?_set_self hi) Request.underway_query halone' hends

/-- A request that returns at once does not change whose turn it is. -/
private theorem Turn.of_returned {m : M} {s : σ} {rs : List (Request A τ α)} {i : Nat}
    {r : Request A τ α} {op : τ} {result : α} (hrequest : rs[i]? = some r) (hwaits : ¬ r.Underway)
    (hturn : (⟨s, rs⟩ : Pool A σ τ α).Turn exec env weigh bound I m) :
    (⟨s, rs.set i ⟨op, true, .done result⟩⟩ : Pool A σ τ α).Turn exec env weigh bound I m := by
  have hi : i < rs.length := (List.getElem?_eq_some_iff.mp hrequest).1
  have hset : ∀ j r', (rs.set i ⟨op, true, .done result⟩)[j]? = some r' → r'.Underway →
      j ≠ i ∧ rs[j]? = some r' := by
    intro j r' hr' hunderway
    by_cases hj : j = i
    · subst hj
      rw [List.getElem?_set_self hi] at hr'
      cases hr'
      exact absurd ⟨result, rfl⟩ hunderway.2
    · exact ⟨hj, (List.getElem?_set_ne (Ne.symm hj)).symm.trans hr'⟩
  cases hturn with
  | idle hnone hI =>
      exact .idle (fun j r' hr' hunderway => hnone j r' (hset j r' hr' hunderway).2 hunderway) hI
  | busy k r₀ hrequest₀ hunderway halone hends =>
      have hk : k ≠ i := by
        rintro rfl
        cases hrequest.symm.trans hrequest₀
        exact hwaits hunderway
      refine .busy k r₀ ((List.getElem?_set_ne hk.symm).trans hrequest₀) hunderway ?_ hends
      intro j r' hj hr' hunderway'
      exact halone j r' hj (hset j r' hr' hunderway').2 hunderway'

variable {G : Pool A σ τ α → Event Q σ τ → Prop} {program : τ → Program A α}

/-- The rule for requests that take turns. The weight `I` speaks of is that of all statements so
far; a first statement must find its request alone and able to end with `I`, or end it without an
effect. -/
theorem Runs.oneAtATime (hrefl : ∀ s, env s s)
    (htrans : ∀ s₁ s₂ s₃, env s₁ s₂ → env s₂ s₃ → env s₁ s₃)
    (henv : ∀ m s s', env s s' → I m s → I m s') (hbound : ∀ m s, I m s → bound m)
    (hlost : ∀ p e, G p e → e.isLost = false) {ops : List τ}
    (hfirst : ∀ op ∈ ops, ∀ q next fail s, program op = .query q next fail → exec q s ≠ none)
    (hbegin : ∀ op ∈ ops, ∀ p i q next fail a t, G p (.ran i op q p.store t) →
      p.requests[i]? = some ⟨op, false, .query q next fail⟩ → program op = .query q next fail →
      exec q p.store = some (a, t) →
      (t = p.store ∧ weigh q p.store t = 0 ∧ ∃ result, next a = .done result) ∨
        (p.Alone i ∧ ∀ m, I m p.store → (program op).Ends exec env weigh bound I m p.store))
    {s : σ} {p : Pool A σ τ α} {es : List (Event Q σ τ)}
    (hrun : Runs exec env G (Pool.start program s ops) es p) (hstore : I 0 s) :
    bound (totalWeight weigh es) := by
  suffices h : (∀ r ∈ p.requests, r.op ∈ ops ∧ (r.begun = false → r.rest = program r.op)) ∧
      p.Turn exec env weigh bound I (totalWeight weigh es) from h.2.bounded hbound
  induction hrun with
  | nil =>
      have hfresh : ∀ r ∈ (Pool.start program s ops).requests,
          r.op ∈ ops ∧ r.begun = false ∧ r.rest = program r.op := by
        intro r hr
        obtain ⟨op, hop, rfl⟩ := List.mem_map.mp hr
        exact ⟨hop, rfl, rfl⟩
      refine ⟨fun r hr => ⟨(hfresh r hr).1, fun _ => (hfresh r hr).2.2⟩,
        .idle (fun i r hr hunderway => ?_) hstore⟩
      rw [Request.Underway, (hfresh r (List.mem_of_getElem? hr)).2.1] at hunderway
      exact Bool.noConfusion hunderway.1
  | snoc _ hstep hguard ih =>
      obtain ⟨hfresh, hturn⟩ := ih
      cases hstep with
      | @ran s t rs i op begun q next fail a hrequest hexec =>
          obtain ⟨hop, hprogram⟩ := hfresh _ (List.mem_of_getElem? hrequest)
          refine ⟨forall_requests_set hfresh ⟨hop, fun hfalse => Bool.noConfusion hfalse⟩, ?_⟩
          rw [totalWeight_append, Event.weight]
          cases begun with
          | true =>
              obtain ⟨halone, hends⟩ := hturn.own hrequest Request.underway_query
              exact .of_alone hrequest halone ((hends.2 s (hrefl s)).1 a t hexec)
          | false =>
              rcases hbegin _ hop _ _ _ _ _ _ _ hguard hrequest (hprogram rfl).symm hexec with
                ⟨rfl, hzero, result, hnext⟩ | ⟨halone, hends⟩
              · rw [hzero, add_zero, hnext]
                exact .of_returned hrequest (fun hunderway => Bool.noConfusion hunderway.1) hturn
              · have hI := hturn.invariant hrequest (fun hunderway => Bool.noConfusion hunderway.1)
                  halone
                have hprogram' := hends _ hI
                rw [← hprogram rfl] at hprogram'
                exact .of_alone hrequest halone ((hprogram'.2 s (hrefl s)).1 a t hexec)
      | @refused s rs i op begun q next fail hrequest hexec =>
          obtain ⟨hop, hprogram⟩ := hfresh _ (List.mem_of_getElem? hrequest)
          refine ⟨forall_requests_set hfresh ⟨hop, fun hfalse => Bool.noConfusion hfalse⟩, ?_⟩
          rw [totalWeight_append, Event.weight, add_zero]
          cases begun with
          | true =>
              obtain ⟨halone, hends⟩ := hturn.own hrequest Request.underway_query
              exact .of_alone hrequest halone ((hends.2 s (hrefl s)).2 hexec)
          | false =>
              exact absurd hexec (hfirst op hop q next fail s (hprogram rfl).symm)
      | lost hrequest => exact Bool.noConfusion (hlost _ _ hguard)
      | environment hchange =>
          refine ⟨hfresh, ?_⟩
          rw [totalWeight_append, Event.weight, add_zero]
          cases hturn with
          | idle hnone hI => exact .idle hnone (henv _ _ _ hchange hI)
          | busy i r hrequest hunderway halone hends =>
              exact .busy i r hrequest hunderway halone (hends.shift htrans henv hchange)

/-! ### In order -/

end Pool

/-- In the run of the program in one piece, every statement meets `K` where it starts. -/
def Program.Each (exec : (q : Q) → σ → Option (A q × σ)) (K : Q → σ → Prop) : Program A α → σ → Prop
  | .done _, _ => True
  | .query q next fail, s =>
      K q s ∧
        match exec q s with
        | some (a, s') => Each exec K (next a) s'
        | none => Each exec K fail s

instance Program.decidableEach {K : Q → σ → Prop} [∀ q s, Decidable (K q s)] :
    (p : Program A α) → (s : σ) → Decidable (p.Each exec K s)
  | .done _, _ => .isTrue trivial
  | .query q next fail, s =>
      match h : exec q s with
      | some (a, s') =>
          @decidable_of_iff _ (K q s ∧ (next a).Each exec K s') (by rw [Each, h])
            (@instDecidableAnd _ _ inferInstance (decidableEach (next a) s'))
      | none =>
          @decidable_of_iff _ (K q s ∧ fail.Each exec K s) (by rw [Each, h])
            (@instDecidableAnd _ _ inferInstance (decidableEach fail s))

theorem Program.Each.of_uses {K : Q → σ → Prop} {P : Q → Prop} (hK : ∀ q s, P q → K q s) :
    ∀ {p : Program A α} (s : σ), p.Uses P → p.Each exec K s
  | .done _, _, _ => trivial
  | .query q next fail, s, ⟨hq, hnext, hfail⟩ => by
      rw [Each]
      refine ⟨hK q s hq, ?_⟩
      split
      · exact of_uses hK _ (hnext _)
      · exact of_uses hK _ hfail

/-- What follows a statement may be run on any store. -/
theorem Program.Each.query {K : Q → σ → Prop} {q : Q} {next : A q → Program A α} {fail : Program A α}
    {s : σ} (hq : K q s) (hnext : ∀ a t, (next a).Each exec K t) (hfail : ∀ t, fail.Each exec K t) :
    (Program.query q next fail).Each exec K s := by
  rw [Each]
  refine ⟨hq, ?_⟩
  cases exec q s with
  | some answered => exact hnext _ _
  | none => exact hfail s

theorem Program.each_forget {K : Q → σ → Prop} {p : Program A α} {s : σ} :
    p.forget.Each exec K s ↔ p.Each exec K s := by
  induction p generalizing s with
  | done result => rfl
  | query q next fail ihnext ihfail =>
      rw [forget, Each, Each]
      cases exec q s with
      | some answered => exact and_congr_right' (ihnext _)
      | none => exact and_congr_right' ihfail

/-- What every statement preserves together with the list of those that ran before it holds at the
end. -/
theorem Program.Each.logged {K : Q → σ → Prop} {I : List Q → σ → Prop}
    (hstep : ∀ q ran s a t, K q s → I ran s → exec q s = some (a, t) → I (ran ++ [q]) t)
    {p : Program A α} {ran : List Q} {s : σ} (heach : p.Each exec K s) (hI : I ran s) :
    I (ran ++ p.committed exec s) (p.run exec s).2 := by
  induction p generalizing ran s with
  | done result =>
      rw [committed, List.append_nil]
      exact hI
  | query q next fail ihnext ihfail =>
      rw [Each] at heach
      obtain ⟨hK, hrest⟩ := heach
      rw [committed, run_query]
      cases hexec : exec q s with
      | some answered =>
          rw [hexec] at hrest
          have hthis := ihnext _ hrest (hstep q ran s _ _ hK hI hexec)
          rwa [List.append_assoc] at hthis
      | none =>
          rw [hexec] at hrest
          exact ihfail hrest hI

/-- The same for programs that are run one after the other. -/
def EachInOrder (exec : (q : Q) → σ → Option (A q × σ)) (K : Q → σ → Prop)
    (program : τ → Program A α) : List τ → σ → Prop
  | [], _ => True
  | op :: ops, s =>
      (program op).Each exec K s ∧
        EachInOrder exec K program ops ((program op).run exec s).2

instance decidableEachInOrder {K : Q → σ → Prop} [∀ q s, Decidable (K q s)]
    (program : τ → Program A α) :
    (ops : List τ) → (s : σ) → Decidable (EachInOrder exec K program ops s)
  | [], _ => .isTrue trivial
  | _ :: ops, _ =>
      @instDecidableAnd _ _ inferInstance (decidableEachInOrder program ops _)

theorem eachInOrder_true (program : τ → Program A α) :
    ∀ (ops : List τ) (s : σ), EachInOrder exec (fun _ _ => True) program ops s
  | [], _ => trivial
  | op :: ops, s =>
      ⟨.of_uses (fun _ _ h => h) s (Program.uses_true (program op)), eachInOrder_true program ops _⟩

namespace Pool

variable {K : Q → σ → Prop}

variable (env) in
/-- A request that is alone can run to its end, when the guard allows each of its statements. -/
private theorem runs_each (hran : ∀ (p : Pool A σ τ α) i op q t, p.Alone i → K q p.store →
      G p (.ran i op q p.store t))
    (hrefused : ∀ (p : Pool A σ τ α) i op q, p.Alone i → K q p.store → G p (.refused i op q))
    {s : σ} {rs : List (Request A τ α)} {i : Nat} {op : τ} {begun : Bool} {rest : Program A α}
    (hrequest : rs[i]? = some ⟨op, begun, rest⟩) (halone : (⟨s, rs⟩ : Pool A σ τ α).Alone i)
    (heach : rest.Each exec K s) :
    ∃ es begun', Runs exec env G ⟨s, rs⟩ es
      ⟨(rest.run exec s).2, rs.set i ⟨op, begun', .done (rest.run exec s).1⟩⟩ := by
  induction rest generalizing s rs begun with
  | done result =>
      refine ⟨[], begun, ?_⟩
      obtain ⟨hi, heq⟩ := List.getElem?_eq_some_iff.mp hrequest
      rw [Program.run_done, ← heq, List.set_getElem_self]
      exact .nil _
  | query q next fail ihnext ihfail =>
      have hi : i < rs.length := (List.getElem?_eq_some_iff.mp hrequest).1
      rw [Program.Each] at heach
      obtain ⟨hK, hrest⟩ := heach
      have halone' : ∀ t rest', (⟨t, rs.set i ⟨op, true, rest'⟩⟩ : Pool A σ τ α).Alone i :=
        fun t rest' j r hj hr => halone j r hj ((List.getElem?_set_ne hj.symm).symm.trans hr)
      rw [Program.run_query]
      cases hexec : exec q s with
      | some answered =>
          obtain ⟨a, t⟩ := answered
          rw [hexec] at hrest
          obtain ⟨es, begun', hruns⟩ := ihnext a (List.getElem?_set_self hi) (halone' t (next a)) hrest
          rw [List.set_set] at hruns
          exact ⟨_, begun', (Runs.snoc (.nil _) (.ran hrequest hexec)
            (hran ⟨s, rs⟩ i op q t halone hK)).trans hruns⟩
      | none =>
          rw [hexec] at hrest
          obtain ⟨es, begun', hruns⟩ := ihfail (List.getElem?_set_self hi) (halone' s fail) hrest
          rw [List.set_set] at hruns
          exact ⟨_, begun', (Runs.snoc (.nil _) (.refused hrequest hexec)
            (hrefused ⟨s, rs⟩ i op q halone hK)).trans hruns⟩

variable (env) in
/-- The next request can run to its end while none is underway, when the guard allows each of its
statements. -/
theorem runs_next (hran : ∀ (p : Pool A σ τ α) i op q t, p.Alone i → K q p.store →
      G p (.ran i op q p.store t))
    (hrefused : ∀ (p : Pool A σ τ α) i op q, p.Alone i → K q p.store → G p (.refused i op q))
    {earlier : List (Request A τ α)} (hearlier : ∀ r ∈ earlier, ¬ r.Underway) {s : σ} {op : τ}
    (heach : (program op).Each exec K s) (later : List τ) :
    ∃ es begun, Runs exec env G ⟨s, earlier ++ (op :: later).map (Request.fresh program)⟩ es
      ⟨((program op).run exec s).2,
        (earlier ++ [⟨op, begun, .done ((program op).run exec s).1⟩]) ++
          later.map (Request.fresh program)⟩ := by
  have hset : ∀ r, (earlier ++ (op :: later).map (Request.fresh program)).set earlier.length r =
      (earlier ++ [r]) ++ later.map (Request.fresh program) := by
    intro r
    rw [List.map_cons, List.set_append_right _ _ (le_refl _), Nat.sub_self, List.set_cons_zero,
      List.append_assoc, List.singleton_append]
  have hrequest : (earlier ++ (op :: later).map (Request.fresh program))[earlier.length]? =
      some ⟨op, false, program op⟩ := by
    rw [List.getElem?_append_right (le_refl _), Nat.sub_self]
    rfl
  have halone : (⟨s, earlier ++ (op :: later).map (Request.fresh program)⟩ :
      Pool A σ τ α).Alone earlier.length := by
    intro j r _ hr
    rcases List.mem_append.mp (List.mem_of_getElem? hr) with hr | hr
    · exact hearlier r hr
    · obtain ⟨op', -, rfl⟩ := List.mem_map.mp hr
      exact fun hunderway => Bool.noConfusion hunderway.1
  obtain ⟨es, begun, hruns⟩ := runs_each env hran hrefused hrequest halone heach
  rw [hset] at hruns
  exact ⟨es, begun, hruns⟩

/-- A request that has returned joins those that are not underway. -/
theorem not_underway_concat {earlier : List (Request A τ α)} (hearlier : ∀ r ∈ earlier, ¬ r.Underway)
    (op : τ) (begun : Bool) (result : α) :
    ∀ r ∈ earlier ++ [⟨op, begun, .done result⟩], ¬ r.Underway := by
  intro r hr
  rcases List.mem_append.mp hr with hr | hr
  · exact hearlier r hr
  · cases List.mem_singleton.mp hr
    exact fun hunderway => hunderway.2 ⟨result, rfl⟩

variable (env) in
/-- Requests can run one after the other, when the guard allows each statement of a request that is
alone. -/
theorem runs_inOrder (hran : ∀ (p : Pool A σ τ α) i op q t, p.Alone i → K q p.store →
      G p (.ran i op q p.store t))
    (hrefused : ∀ (p : Pool A σ τ α) i op q, p.Alone i → K q p.store → G p (.refused i op q))
    {ops : List τ} {s : σ} (heach : EachInOrder exec K program ops s) :
    ∃ es rs, (∀ r ∈ rs, ¬ r.Underway) ∧ Runs exec env G (Pool.start program s ops) es
      ⟨ops.foldl (fun s op => ((program op).run exec s).2) s, rs⟩ := by
  suffices h : ∀ (ops : List τ) (earlier : List (Request A τ α)) (s : σ),
      (∀ r ∈ earlier, ¬ r.Underway) → EachInOrder exec K program ops s →
      ∃ es rs, (∀ r ∈ rs, ¬ r.Underway) ∧
        Runs exec env G ⟨s, earlier ++ ops.map (Request.fresh program)⟩ es
          ⟨ops.foldl (fun s op => ((program op).run exec s).2) s, rs⟩ from
    h ops [] s (fun r hr => by cases hr) heach
  intro ops
  induction ops with
  | nil =>
      intro earlier s hearlier _
      refine ⟨[], _, hearlier, ?_⟩
      rw [List.map_nil, List.append_nil]
      exact .nil _
  | cons op ops ih =>
      intro earlier s hearlier heach
      obtain ⟨es, begun, hfirst⟩ := runs_next env hran hrefused hearlier heach.1 ops
      obtain ⟨es', rs, hrs, hrest⟩ :=
        ih _ _ (not_underway_concat hearlier op begun _) heach.2
      exact ⟨es ++ es', rs, hrs, hfirst.trans hrest⟩

end Pool

end NeuralMesh
