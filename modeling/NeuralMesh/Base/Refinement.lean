import NeuralMesh.Base.Calls
import Mathlib.Logic.Relation

/-!
# Refinement

A specification is a relation between states whose steps show what they do. A system of calls refines
it when related states stay related: a call is matched by the steps that it shows, and the environment
by none. What holds along every path of the specification then holds of what a run of calls shows.

A component of a larger system sees its own calls as calls, and what the rest of the system does as
its environment. Where its view `Projects`, every run of the system is a run of the component.
-/

namespace NeuralMesh

variable {τ ℓ : Type}

/-- The steps of a specification one after the other, with what they show. -/
inductive Steps (step : τ → ℓ → τ → Prop) : τ → List ℓ → τ → Prop
  | nil (x : τ) : Steps step x [] x
  | snoc {x y z : τ} {shown : List ℓ} {l : ℓ} (hpath : Steps step x shown y) (hstep : step y l z) :
      Steps step x (shown ++ [l]) z

namespace Steps

variable {step : τ → ℓ → τ → Prop} {x y z : τ} {shown shown' : List ℓ}

theorem single {l : ℓ} (hstep : step x l y) : Steps step x [l] y := (Steps.nil x).snoc hstep

theorem trans (hfirst : Steps step x shown y) (hsecond : Steps step y shown' z) :
    Steps step x (shown ++ shown') z := by
  induction hsecond with
  | nil => rwa [List.append_nil]
  | snoc _ hstep ih =>
      rw [← List.append_assoc]
      exact ih.snoc hstep

/-- An invariant that may speak of what was shown so far. -/
theorem invariant {I : List ℓ → τ → Prop} (hinit : I [] x)
    (hstep : ∀ shown l y z, I shown y → step y l z → I (shown ++ [l]) z)
    (hpath : Steps step x shown y) : I shown y := by
  induction hpath with
  | nil => exact hinit
  | snoc _ hlast ih => exact hstep _ _ _ _ ih hlast

end Steps

variable {κ σ ε ο : Type}

/-- The calls and the environment keep `R`, and a call that meets the guard is matched by the steps it
shows. -/
structure Refines (exec : κ → σ → Except ε (ο × σ)) (env : σ → σ → Prop) (step : τ → ℓ → τ → Prop)
    (R : σ → τ → Prop) (shows : Taken κ σ ο → List ℓ) (guard : Taken κ σ ο → Prop) : Prop where
  call : ∀ c s o t x, R s x → exec c s = .ok (o, t) → guard ⟨s, c, o, t⟩ →
    ∃ y, Steps step x (shows ⟨s, c, o, t⟩) y ∧ R t y
  env : ∀ s t x, R s x → env s t → R t x

/-- A run of calls is a path of the specification. -/
theorem Refines.run {exec : κ → σ → Except ε (ο × σ)} {env : σ → σ → Prop} {step : τ → ℓ → τ → Prop}
    {R : σ → τ → Prop} {shows : Taken κ σ ο → List ℓ} {guard : Taken κ σ ο → Prop}
    (hrefines : Refines exec env step R shows guard) {s t : σ} {x : τ} {calls : List (Taken κ σ ο)}
    (hstart : R s x) (hrun : CallRun exec env s calls t) (hguard : ∀ taken ∈ calls, guard taken) :
    ∃ y, Steps step x (calls.flatMap shows) y ∧ R t y := by
  induction hrun with
  | nil => exact ⟨x, .nil x, hstart⟩
  | call _ hexec ih =>
      rw [List.forall_mem_append, List.forall_mem_singleton] at hguard
      obtain ⟨y, hpath, hrelated⟩ := ih hguard.1
      obtain ⟨z, hshown, hrelated'⟩ := hrefines.call _ _ _ _ _ hrelated hexec hguard.2
      rw [List.flatMap_append, List.flatMap_singleton]
      exact ⟨z, hpath.trans hshown, hrelated'⟩
  | env _ hchange ih =>
      obtain ⟨y, hpath, hrelated⟩ := ih hguard
      exact ⟨y, hpath, hrefines.env _ _ _ hrelated hchange⟩

/-! ### The view of one component -/

variable {κ' σ' ε' ο' : Type}

/-- `view` is what a component sees of a state and `pick` what it takes part in of a call, in every
step that meets the guard. -/
structure Projects (exec : κ → σ → Except ε (ο × σ)) (env : σ → σ → Prop)
    (exec' : κ' → σ' → Except ε' (ο' × σ')) (env' : σ' → σ' → Prop) (view : σ → σ')
    (pick : Taken κ σ ο → List (Taken κ' σ' ο')) (guard : κ → Prop) : Prop where
  call : ∀ c s o t, guard c → exec c s = .ok (o, t) →
    CallRun exec' env' (view s) (pick ⟨s, c, o, t⟩) (view t)
  env : ∀ s t, env s t → CallRun exec' env' (view s) [] (view t)

theorem Projects.run {exec : κ → σ → Except ε (ο × σ)} {env : σ → σ → Prop}
    {exec' : κ' → σ' → Except ε' (ο' × σ')} {env' : σ' → σ' → Prop} {view : σ → σ'}
    {pick : Taken κ σ ο → List (Taken κ' σ' ο')} {guard : κ → Prop}
    (hprojects : Projects exec env exec' env' view pick guard) {s t : σ}
    {calls : List (Taken κ σ ο)} (hrun : CallRun exec env s calls t)
    (hguard : ∀ taken ∈ calls, guard taken.call) :
    CallRun exec' env' (view s) (calls.flatMap pick) (view t) := by
  induction hrun with
  | nil => exact .nil _
  | call _ hexec ih =>
      rw [List.forall_mem_append, List.forall_mem_singleton] at hguard
      rw [List.flatMap_append, List.flatMap_singleton]
      exact (ih hguard.1).trans (hprojects.call _ _ _ _ hguard.2 hexec)
  | env _ hchange ih =>
      have hrest := (ih hguard).trans (hprojects.env _ _ hchange)
      rwa [List.append_nil] at hrest

/-- A path of the environment. -/
theorem CallRun.of_path {exec : κ → σ → Except ε (ο × σ)} {env : σ → σ → Prop} {s t : σ}
    (hpath : Relation.ReflTransGen env s t) : CallRun exec env s [] t := by
  induction hpath with
  | refl => exact .nil s
  | tail _ hlast ih => exact ih.env hlast

end NeuralMesh
