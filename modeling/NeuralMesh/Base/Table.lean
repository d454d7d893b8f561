import Mathlib.Algebra.BigOperators.Group.List.Basic
import Mathlib.Algebra.Group.Basic
import Mathlib.Data.List.Nodup
import Mathlib.Tactic.Abel

/-!
# Keyed tables

A table is a list of rows under pairwise different keys; the order of the list is the physical
order a sequential scan meets the rows in, and nothing but a scan can see it. `Table.Reordered`
relates two tables that differ in that order only.

Every operation says what it does to a lookup and to a sum over the rows, and that is all the rest
of a development needs of it.
-/

namespace NeuralMesh

/-- Rows under pairwise different keys. -/
structure Table (κ ρ : Type) where
  rows : List (κ × ρ)
  nodupKeys : (rows.map Prod.fst).Nodup

namespace Table

variable {κ ρ : Type}

/-- The table without rows. -/
def empty : Table κ ρ := ⟨[], List.nodup_nil⟩

@[ext] theorem ext {t t' : Table κ ρ} (h : t.rows = t'.rows) : t = t' := by
  cases t
  cases t'
  simp_all

/-- Apply `f` to the rows that satisfy `p`, keeping every key in place. -/
def updateWhere (t : Table κ ρ) (p : κ → ρ → Bool) (f : ρ → ρ) : Table κ ρ where
  rows := t.rows.map fun row => (row.1, if p row.1 row.2 then f row.2 else row.2)
  nodupKeys := by
    simpa only [List.map_map, Function.comp_def] using t.nodupKeys

/-- The sum of a weight over the rows. -/
def sum {M : Type} [AddMonoid M] (t : Table κ ρ) (w : κ → ρ → M) : M :=
  (t.rows.map fun row => w row.1 row.2).sum

variable [DecidableEq κ]

/-- The row under a key. -/
def get? (t : Table κ ρ) (k : κ) : Option ρ := t.rows.lookup k

/-- Apply `f` to the row under one key. -/
def update (t : Table κ ρ) (k : κ) (f : ρ → ρ) : Table κ ρ :=
  t.updateWhere (fun k' _ => decide (k' = k)) f

theorem lookup_cons_eq (row : κ × ρ) (l : List (κ × ρ)) (k : κ) :
    (row :: l).lookup k = if k = row.1 then some row.2 else l.lookup k := by
  obtain ⟨k₀, r₀⟩ := row
  rw [List.lookup_cons]
  by_cases hk : k = k₀
  · simp [hk]
  · simp [hk, beq_eq_false_iff_ne.mpr hk]

theorem lookup_eq_none_iff {l : List (κ × ρ)} {k : κ} :
    l.lookup k = none ↔ k ∉ l.map Prod.fst := by
  induction l with
  | nil => simp
  | cons row l ih =>
      rw [lookup_cons_eq, List.map_cons, List.mem_cons, not_or]
      by_cases hk : k = row.1
      · simp [hk]
      · simp only [hk, if_false, ih, not_false_iff, true_and]

theorem get?_eq_none_iff {t : Table κ ρ} {k : κ} : t.get? k = none ↔ k ∉ t.rows.map Prod.fst :=
  lookup_eq_none_iff

/-- Append a row; refused when its key is taken. -/
def insert? (t : Table κ ρ) (k : κ) (r : ρ) : Option (Table κ ρ) :=
  if h : t.get? k = none then
    some ⟨t.rows ++ [(k, r)], by
      rw [List.map_append, List.nodup_append]
      refine ⟨t.nodupKeys, by simp, ?_⟩
      intro a ha b hb
      simp only [List.map_cons, List.map_nil, List.mem_singleton] at hb
      subst hb
      rintro rfl
      exact get?_eq_none_iff.mp h ha⟩
  else none

/-- Insert a row, or apply `f` to the row that already has the key. -/
def upsert (t : Table κ ρ) (k : κ) (r : ρ) (f : ρ → ρ) : Table κ ρ :=
  (t.insert? k r).getD (t.update k f)

/-! ### Lookups -/

@[simp] theorem get?_empty (k : κ) : (empty : Table κ ρ).get? k = none := rfl

theorem mem_rows_iff {t : Table κ ρ} {k : κ} {r : ρ} : (k, r) ∈ t.rows ↔ t.get? k = some r := by
  obtain ⟨rows, hnodup⟩ := t
  simp only [get?]
  induction rows with
  | nil => simp
  | cons row rows ih =>
      simp only [List.map_cons, List.nodup_cons] at hnodup
      obtain ⟨k₀, r₀⟩ := row
      rw [List.mem_cons, lookup_cons_eq, Prod.mk.injEq]
      by_cases hk : k = k₀
      · subst hk
        have hnot : (k, r) ∉ rows := fun hmem =>
          hnodup.1 (List.mem_map.mpr ⟨(k, r), hmem, rfl⟩)
        simp [hnot, eq_comm]
      · simp only [hk, false_and, false_or, if_false]
        exact ih hnodup.2

theorem get?_updateWhere (t : Table κ ρ) (p : κ → ρ → Bool) (f : ρ → ρ) (k : κ) :
    (t.updateWhere p f).get? k = (t.get? k).map fun r => if p k r then f r else r := by
  obtain ⟨rows, hnodup⟩ := t
  simp only [get?, updateWhere]
  clear hnodup
  induction rows with
  | nil => rfl
  | cons row rows ih =>
      rw [List.map_cons, lookup_cons_eq, lookup_cons_eq, ih]
      by_cases hk : k = row.1
      · simp [hk]
      · simp [hk]

omit [DecidableEq κ] in
theorem updateWhere_congr {t : Table κ ρ} {p q : κ → ρ → Bool}
    (h : ∀ row ∈ t.rows, p row.1 row.2 = q row.1 row.2) (f : ρ → ρ) :
    t.updateWhere p f = t.updateWhere q f := by
  apply ext
  refine List.map_congr_left fun row hrow => ?_
  rw [h row hrow]

omit [DecidableEq κ] in
theorem updateWhere_of_forall_not {t : Table κ ρ} {p : κ → ρ → Bool}
    (h : ∀ row ∈ t.rows, p row.1 row.2 = false) (f : ρ → ρ) : t.updateWhere p f = t := by
  apply ext
  refine (List.map_congr_left fun row hrow => ?_).trans (List.map_id _)
  simp [h row hrow]

omit [DecidableEq κ] in
/-- An update of rows that a search passes over, before and after, is not seen by it. -/
theorem find?_updateWhere {t : Table κ ρ} {p : κ → ρ → Bool} {f : ρ → ρ} {q : κ × ρ → Bool}
    (hover : ∀ row ∈ t.rows, p row.1 row.2 → q row = false ∧ q (row.1, f row.2) = false) :
    (t.updateWhere p f).rows.find? q = t.rows.find? q := by
  obtain ⟨rows, hnodup⟩ := t
  simp only [updateWhere] at hover ⊢
  clear hnodup
  induction rows with
  | nil => rfl
  | cons row rows ih =>
      have hrest := ih fun row' hrow' => hover row' (List.mem_cons_of_mem _ hrow')
      rw [List.map_cons, List.find?_cons, List.find?_cons, hrest]
      by_cases hp : p row.1 row.2
      · have hfirst := hover row List.mem_cons_self hp
        simp [hp, hfirst.1, hfirst.2]
      · simp [hp]

theorem get?_update (t : Table κ ρ) (k k' : κ) (f : ρ → ρ) :
    (t.update k f).get? k' = if k' = k then (t.get? k).map f else t.get? k' := by
  rw [update, get?_updateWhere]
  by_cases hk : k' = k
  · subst hk
    simp
  · simp [hk]

@[simp] theorem get?_update_self (t : Table κ ρ) (k : κ) (f : ρ → ρ) :
    (t.update k f).get? k = (t.get? k).map f := by
  rw [get?_update, if_pos rfl]

theorem get?_update_of_ne (t : Table κ ρ) {k k' : κ} (f : ρ → ρ) (h : k' ≠ k) :
    (t.update k f).get? k' = t.get? k' := by
  rw [get?_update, if_neg h]

theorem update_update (t : Table κ ρ) (k : κ) (f g : ρ → ρ) :
    (t.update k f).update k g = t.update k fun r => g (f r) := by
  apply ext
  refine List.map_map.trans (List.map_congr_left fun row _ => ?_)
  by_cases hk : row.1 = k <;> simp [hk]

theorem update_of_get?_eq_none {t : Table κ ρ} {k : κ} (h : t.get? k = none) (f : ρ → ρ) :
    t.update k f = t := by
  rw [get?_eq_none_iff] at h
  refine updateWhere_of_forall_not (fun row hrow => ?_) f
  have hne : row.1 ≠ k := fun heq => h (List.mem_map.mpr ⟨row, hrow, heq⟩)
  simp [hne]

theorem insert?_eq_none_iff {t : Table κ ρ} {k : κ} {r : ρ} :
    t.insert? k r = none ↔ t.get? k ≠ none := by
  unfold insert?
  split <;> simp_all

theorem rows_of_insert? {t t' : Table κ ρ} {k : κ} {r : ρ} (h : t.insert? k r = some t') :
    t.get? k = none ∧ t'.rows = t.rows ++ [(k, r)] := by
  unfold insert? at h
  split at h
  · rename_i hk
    rw [← Option.some.inj h]
    exact ⟨hk, rfl⟩
  · cases h

theorem get?_of_insert? {t t' : Table κ ρ} {k : κ} {r : ρ} (h : t.insert? k r = some t')
    (k' : κ) : t'.get? k' = if k' = k then some r else t.get? k' := by
  obtain ⟨hnone, hrows⟩ := rows_of_insert? h
  have hlookup : ∀ l : List (κ × ρ), (l ++ [(k, r)]).lookup k' =
      (l.lookup k').or (if k' = k then some r else none) := by
    intro l
    induction l with
    | nil => rw [List.nil_append, lookup_cons_eq]; rfl
    | cons row l ih =>
        rw [List.cons_append, lookup_cons_eq, lookup_cons_eq, ih]
        by_cases hk : k' = row.1
        · simp [hk]
        · simp [hk]
  simp only [get?] at hnone ⊢
  rw [hrows, hlookup]
  by_cases hk : k' = k
  · subst hk
    simp [hnone]
  · simp [hk]

/-- An update leaves the table as it is exactly when it leaves every row it writes. -/
theorem updateWhere_eq_self_iff {t : Table κ ρ} {p : κ → ρ → Bool} {f : ρ → ρ} :
    t.updateWhere p f = t ↔ ∀ k r, t.get? k = some r → p k r → f r = r := by
  constructor
  · intro hsame k r hget hp
    have hrow : (t.updateWhere p f).get? k = t.get? k := by rw [hsame]
    rw [get?_updateWhere, hget, Option.map_some, Option.some.injEq, if_pos hp] at hrow
    exact hrow
  · intro hfixed
    apply ext
    refine (List.map_congr_left fun row hrow => ?_).trans (List.map_id _)
    split
    · rename_i hp
      rw [hfixed row.1 row.2 (mem_rows_iff.mp hrow) hp]
      rfl
    · rfl

theorem update_eq_self_iff {t : Table κ ρ} {k : κ} {f : ρ → ρ} :
    t.update k f = t ↔ ∀ r ∈ t.get? k, f r = r := by
  rw [update, updateWhere_eq_self_iff]
  constructor
  · exact fun hfixed r hget => hfixed k r hget (decide_eq_true rfl)
  · rintro hfixed k' r hget hk
    exact hfixed r (of_decide_eq_true hk ▸ hget)

/-- A write of a row that is not the same afterwards changes the table. -/
theorem update_ne {t : Table κ ρ} {k : κ} {f : ρ → ρ} {r : ρ} (hget : t.get? k = some r)
    (hne : f r ≠ r) : t.update k f ≠ t := by
  intro hsame
  have hrow : (t.update k f).get? k = t.get? k := by rw [hsame]
  rw [get?_update_self, hget, Option.map_some, Option.some.injEq] at hrow
  exact hne hrow

theorem insert?_ne {t t' : Table κ ρ} {k : κ} {r : ρ} (h : t.insert? k r = some t') : t' ≠ t := by
  intro hsame
  have hnew := get?_of_insert? h k
  rw [if_pos rfl, hsame, (rows_of_insert? h).1] at hnew
  cases hnew

theorem get?_upsert (t : Table κ ρ) (k k' : κ) (r : ρ) (f : ρ → ρ) :
    (t.upsert k r f).get? k' = if k' = k then some (((t.get? k).map f).getD r) else t.get? k' := by
  unfold upsert
  cases hins : t.insert? k r with
  | none =>
      obtain ⟨r₀, hr₀⟩ := Option.ne_none_iff_exists'.mp (insert?_eq_none_iff.mp hins)
      by_cases hk : k' = k
      · subst hk
        simp [hr₀]
      · simp [hk, get?_update_of_ne]
  | some t' =>
      simp only [Option.getD_some, get?_of_insert? hins, (rows_of_insert? hins).1,
        Option.map_none, Option.getD_none]

/-- A row of a table after an insert. -/
theorem get?_insert?_cases {t t' : Table κ ρ} {k k' : κ} {r r' : ρ} (h : t.insert? k r = some t')
    (hget : t'.get? k' = some r') : k' = k ∧ r' = r ∨ k' ≠ k ∧ t.get? k' = some r' := by
  rw [get?_of_insert? h] at hget
  by_cases hk : k' = k
  · rw [if_pos hk] at hget
    exact .inl ⟨hk, (Option.some.inj hget).symm⟩
  · rw [if_neg hk] at hget
    exact .inr ⟨hk, hget⟩

/-- A row of a table after an update. -/
theorem get?_update_cases {t : Table κ ρ} {k k' : κ} {f : ρ → ρ} {r' : ρ}
    (hget : (t.update k f).get? k' = some r') :
    (∃ r, k' = k ∧ t.get? k = some r ∧ r' = f r) ∨ k' ≠ k ∧ t.get? k' = some r' := by
  rw [get?_update] at hget
  by_cases hk : k' = k
  · rw [if_pos hk] at hget
    obtain ⟨r, hr, heq⟩ := Option.map_eq_some_iff.mp hget
    exact .inl ⟨r, hk, hr, heq.symm⟩
  · rw [if_neg hk] at hget
    exact .inr ⟨hk, hget⟩

/-- A row of a table after an upsert. -/
theorem get?_upsert_cases {t : Table κ ρ} {k k' : κ} {r r' : ρ} {f : ρ → ρ}
    (hget : (t.upsert k r f).get? k' = some r') :
    k' = k ∧ t.get? k = none ∧ r' = r ∨ (∃ old, k' = k ∧ t.get? k = some old ∧ r' = f old) ∨
      k' ≠ k ∧ t.get? k' = some r' := by
  rw [get?_upsert] at hget
  by_cases hk : k' = k
  · rw [if_pos hk] at hget
    cases hold : t.get? k with
    | none =>
        rw [hold] at hget
        exact .inl ⟨hk, rfl, (Option.some.inj hget).symm⟩
    | some old =>
        rw [hold] at hget
        exact .inr (.inl ⟨old, hk, rfl, (Option.some.inj hget).symm⟩)
  · rw [if_neg hk] at hget
    exact .inr (.inr ⟨hk, hget⟩)

/-! ### Sums -/

section Sums

variable {M : Type}

theorem sum_of_insert? [AddMonoid M] {t t' : Table κ ρ} {k : κ} {r : ρ}
    (h : t.insert? k r = some t') (w : κ → ρ → M) : t'.sum w = t.sum w + w k r := by
  simp [sum, (rows_of_insert? h).2]

theorem sum_eq_zero [AddMonoid M] {t : Table κ ρ} {w : κ → ρ → M}
    (h : ∀ k r, t.get? k = some r → w k r = 0) : t.sum w = 0 := by
  apply List.sum_eq_zero
  intro x hx
  obtain ⟨row, hrow, rfl⟩ := List.mem_map.mp hx
  exact h row.1 row.2 (mem_rows_iff.mp hrow)

variable [AddCommGroup M]

/-- Updating one row moves the sum by what that row's weight moves. -/
theorem sum_update (t : Table κ ρ) (k : κ) (f : ρ → ρ) (w : κ → ρ → M) :
    (t.update k f).sum w = t.sum w + (t.get? k).elim 0 fun r => w k (f r) - w k r := by
  obtain ⟨rows, hnodup⟩ := t
  simp only [update, updateWhere, sum, get?]
  induction rows with
  | nil => simp
  | cons row rows ih =>
      simp only [List.map_cons, List.nodup_cons] at hnodup
      have hrest := ih hnodup.2
      rw [lookup_cons_eq]
      by_cases hk : k = row.1
      · have hnone : rows.lookup k = none := lookup_eq_none_iff.mpr (hk ▸ hnodup.1)
        rw [hnone, Option.elim_none, add_zero] at hrest
        rw [if_pos hk, List.map_cons, List.map_cons, List.map_cons, List.sum_cons, List.sum_cons,
          hrest, if_pos (decide_eq_true hk.symm), Option.elim_some, hk]
        abel
      · rw [if_neg hk, List.map_cons, List.map_cons, List.map_cons, List.sum_cons, List.sum_cons,
          hrest, if_neg (by simpa using fun h => hk (Eq.symm h))]
        abel

/-- An upsert moves the sum by the new row's weight, or by what the old row's weight moves. -/
theorem sum_upsert (t : Table κ ρ) (k : κ) (r : ρ) (f : ρ → ρ) (w : κ → ρ → M) :
    (t.upsert k r f).sum w =
      t.sum w + (t.get? k).elim (w k r) fun r₀ => w k (f r₀) - w k r₀ := by
  unfold upsert
  cases hins : t.insert? k r with
  | none =>
      obtain ⟨r₀, hr₀⟩ := Option.ne_none_iff_exists'.mp (insert?_eq_none_iff.mp hins)
      simp [sum_update, hr₀]
  | some t' =>
      simp [sum_of_insert? hins, (rows_of_insert? hins).1]

end Sums

/-! ### Physical order -/

/-- Two tables with the same rows, met in another order by a scan. -/
def Reordered (t t' : Table κ ρ) : Prop := t.rows.Perm t'.rows

omit [DecidableEq κ] in
theorem Reordered.refl (t : Table κ ρ) : Reordered t t := List.Perm.refl _

theorem Reordered.get?_eq {t t' : Table κ ρ} (h : Reordered t t') (k : κ) :
    t.get? k = t'.get? k := by
  apply Option.ext
  intro r
  rw [← mem_rows_iff, ← mem_rows_iff]
  exact h.mem_iff

omit [DecidableEq κ] in
theorem Reordered.sum_eq {M : Type} [AddCommMonoid M] {t t' : Table κ ρ} (h : Reordered t t')
    (w : κ → ρ → M) : t.sum w = t'.sum w :=
  (h.map _).sum_eq

end Table

end NeuralMesh
