/-!
# Programs that change a state and can fail

A program that fails keeps what it has done to the state. `Meets P x Q` is the triple: from a state
in `P` the program ends with an outcome and a state in `Q`. `Imitates π x y` compares two programs,
one of them over a larger state.
-/

namespace NeuralMesh

variable {ε σ α β : Type}

abbrev Fallible (ε σ α : Type) := ExceptT ε (StateM σ) α

/-- The outcome, and the state it is left in. -/
def Fallible.outcome (x : Fallible ε σ α) (s : σ) : Except ε α × σ := x.run.run s

/-- An outcome that is known. -/
def Fallible.ofExcept (outcome : Except ε α) : Fallible ε σ α := ExceptT.mk (pure outcome)

/-- A failure that is only logged. -/
def Fallible.ignoreError (x : Fallible ε σ Unit) : Fallible ε σ Unit :=
  ExceptT.mk do
    let _ ← x.run
    pure (.ok ())

def Meets (P : σ → Prop) (x : Fallible ε σ α) (Q : Except ε α → σ → Prop) : Prop :=
  ∀ s, P s → Q (x.outcome s).1 (x.outcome s).2

namespace Fallible

theorem outcome_bind (x : Fallible ε σ α) (next : α → Fallible ε σ β) (s : σ) :
    (x >>= next).outcome s =
      match x.outcome s with
      | (.ok a, t) => (next a).outcome t
      | (.error e, t) => (.error e, t) := by
  rw [outcome, ExceptT.run_bind, StateT.run_bind]
  show _ = match x.run.run s with
    | (.ok a, t) => (next a).outcome t
    | (.error e, t) => (.error e, t)
  cases x.run.run s with
  | mk result t => cases result <;> rfl

theorem outcome_get_bind (next : σ → Fallible ε σ β) (s : σ) :
    (get >>= next).outcome s = (next s).outcome s := rfl

end Fallible

namespace Meets

variable {P P' : σ → Prop} {x : Fallible ε σ α} {next : α → Fallible ε σ β}
  {Q : Except ε α → σ → Prop} {R : Except ε β → σ → Prop}

theorem of_pure {a : α} (h : ∀ s, P s → Q (.ok a) s) : Meets P (pure a) Q := h

theorem of_throw {e : ε} (h : ∀ s, P s → Q (.error e) s) : Meets P (throw e) Q := h

theorem throw_bind {e : ε} (h : ∀ s, P s → R (.error e) s) : Meets P (throw e >>= next) R := h

theorem weaken (hP : ∀ s, P' s → P s) (hx : Meets P x Q) : Meets P' x Q :=
  fun s hs => hx s (hP s hs)

theorem mono {Q' : Except ε α → σ → Prop} (hx : Meets P x Q) (hQ : ∀ r s, Q r s → Q' r s) :
    Meets P x Q' :=
  fun s hs => hQ _ _ (hx s hs)

theorem and {P' : σ → Prop} {Q' : Except ε α → σ → Prop} (hx : Meets P x Q) (hx' : Meets P' x Q') :
    Meets (fun s => P s ∧ P' s) x fun r s => Q r s ∧ Q' r s :=
  fun s hs => ⟨hx s hs.1, hx' s hs.2⟩

/-- What follows starts where the first part ends, if that does not fail. -/
theorem bind (hx : Meets P x Q) (hnext : ∀ a, Meets (Q (.ok a)) (next a) R)
    (herror : ∀ e s, Q (.error e) s → R (.error e) s) : Meets P (x >>= next) R := by
  intro s hs
  have hfirst := hx s hs
  rw [Fallible.outcome_bind]
  cases houtcome : x.outcome s with
  | mk result t =>
      rw [houtcome] at hfirst
      cases result with
      | ok a => exact hnext a t hfirst
      | error e => exact herror e t hfirst

/-- The state that is read is the one the program is in. -/
theorem get_bind {next : σ → Fallible ε σ β} (h : ∀ s, Meets (fun t => t = s ∧ P t) (next s) R) :
    Meets P (get >>= next) R :=
  fun s hs => h s s ⟨rfl, hs⟩

theorem modify_bind {f : σ → σ} {next : PUnit → Fallible ε σ β} (P' : σ → Prop)
    (hnext : Meets P' (next ⟨⟩) R) (h : ∀ s, P s → P' (f s)) : Meets P (modify f >>= next) R :=
  fun s hs => hnext (f s) (h s hs)

theorem of_modify {f : σ → σ} {Q : Except ε PUnit → σ → Prop} (h : ∀ s, P s → Q (.ok ⟨⟩) (f s)) :
    Meets P (modify f : Fallible ε σ PUnit) Q := h

theorem of_ofExcept {outcome : Except ε α} (h : ∀ s, P s → Q outcome s) :
    Meets P (Fallible.ofExcept outcome) Q := h

theorem ignoreError {x : Fallible ε σ Unit} {Q : σ → Prop} (hx : Meets P x fun _ => Q) :
    Meets P x.ignoreError fun result s => result.isOk ∧ Q s :=
  fun s hs => ⟨rfl, hx s hs⟩

/-- What does not fail only has to end where the rest can start. -/
theorem bind_of_isOk {Q : σ → Prop} (hx : Meets P x fun result s => result.isOk ∧ Q s)
    (hnext : ∀ a, Meets Q (next a) R) : Meets P (x >>= next) R :=
  hx.bind (fun a => weaken (fun _ hs => hs.2) (hnext a)) fun _ _ hs => nomatch hs.1

theorem ite {c : Prop} [Decidable c] {y : Fallible ε σ α} (hx : c → Meets P x Q)
    (hy : ¬c → Meets P y Q) : Meets P (if c then x else y) Q := by
  split
  · rename_i hc
    exact hx hc
  · rename_i hc
    exact hy hc

/-- What follows both branches. -/
theorem ite_bind {c : Prop} [Decidable c] {y : Fallible ε σ α} (hx : c → Meets P x Q)
    (hy : ¬c → Meets P y Q) (hnext : ∀ a, Meets (Q (.ok a)) (next a) R)
    (herror : ∀ e s, Q (.error e) s → R (.error e) s) :
    Meets P (if c then x >>= next else y >>= next) R :=
  ite (fun hc => (hx hc).bind hnext herror) fun hc => (hy hc).bind hnext herror

/-- A step that is not always taken. -/
theorem when_bind {c : Prop} [Decidable c] {x : Fallible ε σ PUnit}
    {next : PUnit → Fallible ε σ β} (hx : c → Meets P x fun _ => P) (hnext : Meets P (next ⟨⟩) R)
    (herror : ∀ e s, P s → R (.error e) s) :
    Meets P (if c then x >>= next else next ⟨⟩) R :=
  ite (fun hc => (hx hc).bind (fun _ => hnext) herror) fun _ => hnext

theorem when_bind_of_isOk {c : Prop} [Decidable c] {x : Fallible ε σ PUnit}
    {next : PUnit → Fallible ε σ β} (hx : c → Meets P x fun result s => result.isOk ∧ P s)
    (hnext : Meets P (next ⟨⟩) R) : Meets P (if c then x >>= next else next ⟨⟩) R :=
  ite (fun hc => (hx hc).bind_of_isOk fun _ => hnext) fun _ => hnext

end Meets

/-- The program `y` does what `x` does to the part of its state that `π` shows, and fails when `x`
does; the errors may differ. -/
def Imitates {τ : Type} (π : σ → τ) (x : Fallible ε τ α) (y : Fallible ε σ α) : Prop :=
  ∀ s, (y.outcome s).1.toOption = (x.outcome (π s)).1.toOption ∧
    π (y.outcome s).2 = (x.outcome (π s)).2

namespace Imitates

variable {τ : Type} {π : σ → τ} {x : Fallible ε τ α} {y : Fallible ε σ α}
  {next : α → Fallible ε τ β} {next' : α → Fallible ε σ β}

theorem pure (a : α) : Imitates π (Pure.pure a : Fallible ε τ α) (Pure.pure a : Fallible ε σ α) :=
  fun _ => ⟨rfl, rfl⟩

theorem throw (e e' : ε) :
    Imitates π (MonadExcept.throw e : Fallible ε τ α) (MonadExcept.throw e' : Fallible ε σ α) :=
  fun _ => ⟨rfl, rfl⟩

theorem ofExcept (outcome : Except ε α) :
    Imitates π (Fallible.ofExcept outcome : Fallible ε τ α) (Fallible.ofExcept outcome) :=
  fun _ => ⟨rfl, rfl⟩

theorem bind (hx : Imitates π x y) (hnext : ∀ a, Imitates π (next a) (next' a)) :
    Imitates π (x >>= next) (y >>= next') := by
  intro s
  obtain ⟨hresult, hstate⟩ := hx s
  rw [Fallible.outcome_bind, Fallible.outcome_bind]
  cases hy : y.outcome s with
  | mk result t =>
      cases hx : x.outcome (π s) with
      | mk result' u =>
          rw [hy, hx] at hresult hstate
          dsimp only at hresult hstate ⊢
          cases result with
          | error e =>
              cases result' with
              | error e' => exact ⟨rfl, hstate⟩
              | ok a' => cases hresult
          | ok a =>
              cases result' with
              | error e' => cases hresult
              | ok a' =>
                  cases hresult
                  rw [← hstate]
                  exact hnext a t

theorem get_bind {next : τ → Fallible ε τ β} {next' : σ → Fallible ε σ β}
    (hnext : ∀ s, Imitates π (next (π s)) (next' s)) : Imitates π (get >>= next) (get >>= next') :=
  fun s => hnext s s

/-- A change that `π` does not show. -/
theorem modify_bind {f : σ → σ} {next : PUnit → Fallible ε σ α} (hf : ∀ s, π (f s) = π s)
    (hnext : Imitates π x (next ⟨⟩)) : Imitates π x (modify f >>= next) := by
  intro s
  have hrest := hnext (f s)
  rw [hf] at hrest
  exact hrest

theorem ignoreError {x : Fallible ε τ Unit} {y : Fallible ε σ Unit} (hx : Imitates π x y) :
    Imitates π x.ignoreError y.ignoreError :=
  fun s => ⟨rfl, (hx s).2⟩

theorem ite {c : Prop} [Decidable c] {x' : Fallible ε τ α} {y' : Fallible ε σ α}
    (hx : c → Imitates π x y) (hx' : ¬c → Imitates π x' y') :
    Imitates π (if c then x else x') (if c then y else y') := by
  split
  · rename_i hc
    exact hx hc
  · rename_i hc
    exact hx' hc

end Imitates

end NeuralMesh
