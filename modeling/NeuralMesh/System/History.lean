import NeuralMesh.System.Operation

/-!
# Runs with their history

`History P s log t` is a run from `s` to `t` together with its operations, oldest first, each with
the database it found.
-/

namespace NeuralMesh

inductive History (P : Db → Operation → Prop) (s : Db) : List (Db × Operation) → Db → Prop
  | start : History P s [] s
  | operation {log : List (Db × Operation)} {t : Db} {op : Operation} (hrun : History P s log t)
      (hmeets : P t op) : History P s (log ++ [(t, op)]) (op.after t)
  | idle {log : List (Db × Operation)} {t u : Db} (hrun : History P s log t)
      (hshuffled : t.Shuffled u) : History P s log u

variable {P : Db → Operation → Prop} {s t : Db} {log : List (Db × Operation)}

theorem History.run (hhistory : History P s log t) : Run P s t := by
  induction hhistory with
  | start => exact .refl
  | operation _ hmeets ih => exact ih.tail (.operation hmeets)
  | idle _ hshuffled ih => exact ih.tail (.idle hshuffled)

/-- Every run has a history. -/
theorem Run.history (hrun : Run P s t) : ∃ log, History P s log t := by
  induction hrun with
  | refl => exact ⟨[], .start⟩
  | tail _ hlast ih =>
      obtain ⟨log, hhistory⟩ := ih
      cases hlast with
      | operation hmeets => exact ⟨_, hhistory.operation hmeets⟩
      | idle hshuffled => exact ⟨log, hhistory.idle hshuffled⟩

theorem History.mono {P' : Db → Operation → Prop} (hmeets : ∀ s op, P s op → P' s op)
    (hhistory : History P s log t) : History P' s log t := by
  induction hhistory with
  | start => exact .start
  | operation _ hthis ih => exact ih.operation (hmeets _ _ hthis)
  | idle _ hshuffled ih => exact ih.idle hshuffled

/-- The statements that ran, oldest first. -/
def ranIn (log : List (Db × Operation)) : List Action :=
  log.flatMap fun entry => entry.2.program.committed Action.exec entry.1

theorem ranIn_concat (log : List (Db × Operation)) (s : Db) (op : Operation) :
    ranIn (log ++ [(s, op)]) = ranIn log ++ op.program.committed Action.exec s := by
  rw [ranIn, List.flatMap_append, List.flatMap_singleton]
  rfl

/-- Operations one after the other, each with the database it finds. -/
def logOf : List Operation → Db → List (Db × Operation)
  | [], _ => []
  | op :: ops, s => (s, op) :: logOf ops (op.after s)

theorem meetsAll_true (s : Db) (ops : List Operation) : MeetsAll (fun _ _ => True) s ops := by
  induction ops generalizing s with
  | nil => trivial
  | cons op ops ih => exact ⟨trivial, ih (op.after s)⟩

theorem History.snocs {ops : List Operation} (hhistory : History P s log t)
    (hmeets : MeetsAll P t ops) : History P s (log ++ logOf ops t) (afterAll ops t) := by
  induction ops generalizing log t with
  | nil =>
      rw [logOf, List.append_nil]
      exact hhistory
  | cons op ops ih =>
      rw [logOf, List.append_cons]
      exact ih (hhistory.operation hmeets.1) hmeets.2

theorem History.afterAll {ops : List Operation} (hmeets : MeetsAll P s ops) :
    History P s (logOf ops s) (afterAll ops s) := History.start.snocs hmeets

end NeuralMesh
