import Mathlib.Data.Set.Card

/-!
# A set kept as a mapping

A mapping to `Bool` marks the members of a set. A write that changes a mark changes their number by
one.
-/

namespace NeuralMesh

variable {α : Type}

/-- Where the mapping is `true`. -/
def marked (f : α → Bool) : Set α := {a | f a = true}

@[simp] theorem mem_marked {f : α → Bool} {a : α} : a ∈ marked f ↔ f a = true := Iff.rfl

theorem marked_false : marked (fun _ : α => false) = ∅ := by
  ext a
  exact iff_of_false (fun h => by cases h) fun h => by cases h

variable [DecidableEq α] (f : α → Bool) {a : α}

theorem marked_insert : marked (Function.update f a true) = insert a (marked f) := by
  ext b
  rw [mem_marked, Function.update_apply, Set.mem_insert_iff, mem_marked]
  split
  · rename_i heq
    exact iff_of_true rfl (.inl heq)
  · rename_i hne
    exact ⟨.inr, fun h => h.resolve_left hne⟩

theorem marked_erase : marked (Function.update f a false) = marked f \ {a} := by
  ext b
  rw [mem_marked, Function.update_apply, Set.mem_sdiff, mem_marked, Set.mem_singleton_iff]
  split
  · rename_i heq
    exact iff_of_false (fun h => by cases h) fun h => h.2 heq
  · rename_i hne
    exact ⟨fun h => ⟨h, hne⟩, And.left⟩

variable [Finite α]

theorem ncard_marked_insert {f : α → Bool} (hnew : f a = false) :
    (marked (Function.update f a true)).ncard = (marked f).ncard + 1 := by
  rw [marked_insert]
  refine Set.ncard_insert_of_notMem fun hmem => ?_
  rw [mem_marked, hnew] at hmem
  cases hmem

theorem ncard_marked_erase {f : α → Bool} (hold : f a = true) :
    (marked (Function.update f a false)).ncard + 1 = (marked f).ncard := by
  rw [marked_erase]
  exact Set.ncard_sdiff_singleton_add_one (mem_marked.mpr hold)

end NeuralMesh
