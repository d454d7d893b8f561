import NeuralMesh.Base.Table

/-!
# Tables that only grow

`Lasts R` relates an optional value to a later one: what is there stays there, as something `R`
allows. A table grows when that holds under every key, so no row is lost and each row only moves the
way `R` lets it. With `R` equality the rows are written once; with an order they move forward.
-/

namespace NeuralMesh

variable {κ ρ : Type} {R S : ρ → ρ → Prop}

/-- A value that is there is there later, related by `R`. -/
def Lasts (R : ρ → ρ → Prop) (o o' : Option ρ) : Prop := ∀ r ∈ o, ∃ r' ∈ o', R r r'

namespace Lasts

variable {o o' o'' : Option ρ}

theorem of_none : Lasts R none o' := by
  intro r hr
  cases hr

theorem of_some {r r' : ρ} (h : R r r') : Lasts R (some r) (some r') := by
  intro x hx
  cases hx
  exact ⟨r', rfl, h⟩

theorem refl [hR : Std.Refl R] (o : Option ρ) : Lasts R o o :=
  fun r hr => ⟨r, hr, hR.refl r⟩

theorem trans [hR : IsTrans ρ R] (h : Lasts R o o') (h' : Lasts R o' o'') : Lasts R o o'' := by
  intro r hr
  obtain ⟨r', hr', hfirst⟩ := h r hr
  obtain ⟨r'', hr'', hsecond⟩ := h' r' hr'
  exact ⟨r'', hr'', hR.trans r r' r'' hfirst hsecond⟩

/-- A value that every later one is related to can be overwritten. -/
theorem overwrite {r' : ρ} (h : ∀ r ∈ o, R r r') : Lasts R o (some r') :=
  fun r hr => ⟨r', rfl, h r hr⟩

theorem map {f : ρ → ρ} (h : ∀ r ∈ o, R r (f r)) : Lasts R o (o.map f) :=
  fun r hr => ⟨f r, Option.mem_map_of_mem f hr, h r hr⟩

end Lasts

namespace Table

variable [DecidableEq κ]

/-- Every row of `t` is in `t'`, as one that `R` allows. -/
def Grows (R : ρ → ρ → Prop) (t t' : Table κ ρ) : Prop := ∀ k, Lasts R (t.get? k) (t'.get? k)

namespace Grows

variable {t t' t'' : Table κ ρ}

theorem refl [Std.Refl R] (t : Table κ ρ) : t.Grows R t := fun k => .refl (t.get? k)

theorem trans [IsTrans ρ R] (h : t.Grows R t') (h' : t'.Grows R t'') : t.Grows R t'' :=
  fun k => (h k).trans (h' k)

theorem reordered [Std.Refl R] (h : t.Reordered t') : t.Grows R t' := by
  intro k
  rw [h.get?_eq k]
  exact .refl _

theorem insert? [hR : Std.Refl R] {k : κ} {r : ρ} (hinsert : t.insert? k r = some t') :
    t.Grows R t' := by
  intro k' r' hget
  refine ⟨r', ?_, hR.refl r'⟩
  rw [get?_of_insert? hinsert, if_neg]
  · exact hget
  · rintro rfl
    rw [(rows_of_insert? hinsert).1] at hget
    cases hget

theorem updateWhere [hR : Std.Refl R] {p : κ → ρ → Bool} {f : ρ → ρ}
    (h : ∀ k r, t.get? k = some r → p k r → R r (f r)) : t.Grows R (t.updateWhere p f) := by
  intro k
  rw [get?_updateWhere]
  refine .map fun r hr => ?_
  by_cases hp : p k r
  · rw [if_pos hp]
    exact h k r hr hp
  · rw [if_neg hp]
    exact hR.refl r

theorem update [Std.Refl R] {k : κ} {f : ρ → ρ} (h : ∀ r ∈ t.get? k, R r (f r)) :
    t.Grows R (t.update k f) := by
  refine updateWhere fun k' r hget hk => h r ?_
  rwa [← of_decide_eq_true hk]

theorem upsert [hR : Std.Refl R] {k : κ} {r : ρ} {f : ρ → ρ} (h : ∀ r ∈ t.get? k, R r (f r)) :
    t.Grows R (t.upsert k r f) := by
  intro k'
  rw [get?_upsert]
  split
  · rename_i hk
    rw [hk]
    cases hold : t.get? k with
    | none => exact .of_none
    | some old => exact .of_some (h old hold)
  · exact .refl _

end Grows

end Table

end NeuralMesh
