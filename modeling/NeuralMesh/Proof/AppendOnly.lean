import NeuralMesh.Proof.TerminalStates
import NeuralMesh.Store.Growth

/-!
# The database only grows

Neither service deletes a row, and no statement of theirs edits an entry of the books. Over every
interleaving of requests, loops and the clock this leaves each earlier database inside the later ones,
in the sense of `Db.Grows`, and no stamp is ever later than the clock.
-/

namespace NeuralMesh

section

variable {G : Requests → Event Action Db Operation → Prop} {p p' : Requests}
  {es : List (Event Action Db Operation)}

theorem runs_clocked (hrun : p.Runs Action.exec Db.Shuffled G es p') (hclock : p.store.Clocked) :
    p'.store.Clocked :=
  hrun.preserves (fun _ _ _ _ _ _ _ hbefore hexec => Action.exec_clocked hbefore hexec)
    (fun _ _ hshuffled hbefore => hbefore.shuffled hshuffled) hclock

theorem runs_grow (hrun : p.Runs Action.exec Db.Shuffled G es p') (hclock : p.store.Clocked) :
    p.store.Grows p'.store := by
  refine (hrun.preserves (I := fun s => s.Clocked ∧ p.store.Grows s) ?_ ?_ ⟨hclock, .refl _⟩).2
  · intro p₁ i op q a t _ hbefore hexec
    obtain ⟨hclocked, hgrown⟩ := hbefore
    exact ⟨Action.exec_clocked hclocked hexec, hgrown.trans (Action.exec_grows hclocked hexec)⟩
  · intro s t hshuffled hbefore
    obtain ⟨hclocked, hgrown⟩ := hbefore
    exact ⟨hclocked.shuffled hshuffled, hgrown.trans (.shuffled hshuffled)⟩

end

end NeuralMesh
