import Mathlib.Algebra.BigOperators.Group.List.Basic
import Mathlib.Algebra.Group.Basic

/-!
# Journals of balances

A journal is a list of entries, oldest first, each an amount that goes to an account and perhaps the
balance of the account after it. `Posts b entries b'` says that the entries take the balances `b` to
`b'` and that every balance they carry is right.
-/

namespace NeuralMesh

structure Entry (κ M : Type) where
  account : κ
  amount : M
  balanceAfter : Option M

variable {κ M : Type} [DecidableEq κ] [AddCommMonoid M]

/-- The balances after an amount goes to an account. -/
def post (b : κ → M) (account : κ) (amount : M) : κ → M :=
  fun c => b c + if account = c then amount else 0

theorem post_self (b : κ → M) (account : κ) (amount : M) :
    post b account amount account = b account + amount := by
  rw [post, if_pos rfl]

theorem post_of_ne (b : κ → M) {account c : κ} (amount : M) (hne : c ≠ account) :
    post b account amount c = b c := by
  rw [post, if_neg (Ne.symm hne), add_zero]

theorem post_zero (b : κ → M) (account : κ) : post b account 0 = b := by
  funext c
  rw [post, ite_self, add_zero]

/-- The sum of what goes to an account. -/
def totalPosted (c : κ) (entries : List (Entry κ M)) : M :=
  (entries.map fun entry => if entry.account = c then entry.amount else 0).sum

theorem totalPosted_concat (c : κ) (entries : List (Entry κ M)) (entry : Entry κ M) :
    totalPosted c (entries ++ [entry]) =
      totalPosted c entries + if entry.account = c then entry.amount else 0 := by
  rw [totalPosted, List.map_append, List.sum_append, List.map_singleton, List.sum_singleton]
  rfl

inductive Posts (b : κ → M) : List (Entry κ M) → (κ → M) → Prop
  | nil : Posts b [] b
  | concat {entries : List (Entry κ M)} {b' : κ → M} {entry : Entry κ M}
      (hposts : Posts b entries b')
      (hstamp : ∀ x ∈ entry.balanceAfter, x = b' entry.account + entry.amount) :
      Posts b (entries ++ [entry]) (post b' entry.account entry.amount)

namespace Posts

variable {b b' b'' : κ → M} {entries entries' : List (Entry κ M)}

theorem single {entry : Entry κ M}
    (hstamp : ∀ x ∈ entry.balanceAfter, x = b entry.account + entry.amount) :
    Posts b [entry] (post b entry.account entry.amount) := Posts.concat .nil hstamp

theorem append (hposts : Posts b entries b') (hposts' : Posts b' entries' b'') :
    Posts b (entries ++ entries') b'' := by
  induction hposts' with
  | nil =>
      rw [List.append_nil]
      exact hposts
  | concat _ hstamp ih =>
      rw [← List.append_assoc]
      exact ih.concat hstamp

/-- The entries are the difference between the balances. -/
theorem balance (hposts : Posts b entries b') (c : κ) : b' c = b c + totalPosted c entries := by
  induction hposts with
  | nil => exact (add_zero _).symm
  | concat _ _ ih => rw [post, ih, totalPosted_concat, add_assoc]

/-- Every balance an entry carries is the sum up to it. -/
theorem stamp (hposts : Posts b entries b') {before later : List (Entry κ M)} {entry : Entry κ M}
    (hentries : entries = before ++ entry :: later) {x : M} (hx : x ∈ entry.balanceAfter) :
    x = b entry.account + totalPosted entry.account (before ++ [entry]) := by
  induction hposts generalizing later with
  | nil => exact absurd hentries (by simp)
  | @concat earlier b₁ last hearlier hstamp ih =>
      rcases List.eq_nil_or_concat' later with rfl | ⟨middle, last', rfl⟩
      · obtain ⟨rfl, hlast⟩ := List.append_inj' hentries rfl
        cases hlast
        rw [totalPosted_concat, if_pos rfl, ← add_assoc, ← hearlier.balance]
        exact hstamp x hx
      · rw [← List.cons_append, ← List.append_assoc] at hentries
        exact ih (List.append_inj' hentries rfl).1

end Posts

end NeuralMesh
