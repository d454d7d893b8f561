import NeuralMesh.Base.Fallible

/-!
# Programs that keep a record

A program may note down, beside its state, what it has others do. `silently` runs a program that
notes nothing, `note` adds an entry, and no entry is ever taken back.
-/

namespace NeuralMesh

variable {ε σ κ α β : Type}

/-- A state, and the entries so far. -/
structure Noted (σ κ : Type) where
  state : σ
  record : List κ

abbrev Recording (ε σ κ α : Type) := Fallible ε (Noted σ κ) α

/-- The program with another error in place of its own. -/
def Fallible.withContext (e : ε) (x : Fallible ε σ α) : Fallible ε σ α :=
  ExceptT.mk do
    let result ← x.run
    pure (result.mapError fun _ => e)

namespace Recording

/-- A program that makes no entry. -/
def silently (x : Fallible ε σ α) : Recording ε σ κ α :=
  ExceptT.mk fun w => ((x.outcome w.state).1, { w with state := (x.outcome w.state).2 })

def note (entry : κ) : Recording ε σ κ Unit :=
  modify fun w => { w with record := w.record ++ [entry] }

theorem outcome_silently (x : Fallible ε σ α) (w : Noted σ κ) :
    (silently x).outcome w =
      ((x.outcome w.state).1, { w with state := (x.outcome w.state).2 }) := rfl

end Recording

theorem Fallible.outcome_withContext (e : ε) (x : Fallible ε σ α) (s : σ) :
    (x.withContext e).outcome s = ((x.outcome s).1.mapError fun _ => e, (x.outcome s).2) := rfl

/-! ### The program without its record -/

namespace Imitates

variable {τ : Type} {π : σ → τ} {x : Fallible ε τ α} {y : Fallible ε σ α}

theorem withContext (hx : Imitates π x y) (e : ε) : Imitates π x (y.withContext e) := by
  intro s
  obtain ⟨hresult, hstate⟩ := hx s
  rw [Fallible.outcome_withContext]
  refine ⟨?_, hstate⟩
  rw [← hresult]
  cases (y.outcome s).1 <;> rfl

theorem ofExcept_withContext (outcome : Except ε α) (e : ε) :
    Imitates π (Fallible.ofExcept outcome : Fallible ε τ α)
      ((Fallible.ofExcept outcome).withContext e) :=
  (ofExcept outcome).withContext e

theorem silently (x : Fallible ε σ α) :
    Imitates Noted.state x (Recording.silently x : Recording ε σ κ α) :=
  fun _ => ⟨rfl, rfl⟩

theorem note_bind {x : Fallible ε σ α} {entry : κ} {next : Unit → Recording ε σ κ α}
    (hnext : Imitates Noted.state x (next ())) :
    Imitates Noted.state x (Recording.note entry >>= next) :=
  fun w => hnext { w with record := w.record ++ [entry] }

/-- The program that keeps the record may look at what it is in. -/
theorem read_bind {x : Fallible ε τ α} {next : σ → Fallible ε σ α}
    (hnext : ∀ s, Imitates π x (next s)) : Imitates π x (get >>= next) :=
  fun s => hnext s s

/-- A change of the state that is the same with the record. -/
theorem change_bind {f : σ → σ} {x : Fallible ε σ α} {y : Recording ε σ κ α}
    (hx : Imitates Noted.state x y) :
    Imitates Noted.state (modify f >>= fun _ => x)
      (modify (fun w => { w with state := f w.state }) >>= fun _ => y) :=
  fun w => hx { w with state := f w.state }

theorem then_note {x : Fallible ε σ Unit} {y : Recording ε σ κ Unit} {entry : κ}
    (hx : Imitates Noted.state x y) :
    Imitates Noted.state x (y >>= fun _ => Recording.note entry) := by
  have hnoted : Imitates Noted.state (x >>= Pure.pure) (y >>= fun _ => Recording.note entry) :=
    hx.bind fun _ _ => ⟨rfl, rfl⟩
  rwa [bind_pure] at hnoted

end Imitates

/-! ### The record -/

theorem Meets.of_note {entry : κ} {R : List κ} :
    Meets (fun w : Noted σ κ => w.record = R) (Recording.note entry : Recording ε σ κ Unit)
      fun result w => result.isOk ∧ w.record = R ++ [entry] := by
  rintro w rfl
  exact ⟨rfl, rfl⟩

theorem Meets.withContext {P : σ → Prop} {x : Fallible ε σ α} {Q : Except ε α → σ → Prop} {e : ε}
    (hx : Meets P x fun result s => Q (result.mapError fun _ => e) s) :
    Meets P (x.withContext e) Q := hx

/-- What was noted before the program stays noted. -/
def Keeps (x : Recording ε σ κ α) : Prop :=
  ∀ R : List κ, Meets (fun w => R <+: w.record) x fun _ w => R <+: w.record

namespace Keeps

variable {x : Recording ε σ κ α} {next : α → Recording ε σ κ β}

theorem pure (a : α) : Keeps (Pure.pure a : Recording ε σ κ α) :=
  fun _ => Meets.of_pure fun _ hw => hw

theorem throw (e : ε) : Keeps (MonadExcept.throw e : Recording ε σ κ α) :=
  fun _ => Meets.of_throw fun _ hw => hw

theorem ofExcept (outcome : Except ε α) :
    Keeps (Fallible.ofExcept outcome : Recording ε σ κ α) :=
  fun _ => Meets.of_ofExcept fun _ hw => hw

theorem silently (x : Fallible ε σ α) : Keeps (Recording.silently x : Recording ε σ κ α) :=
  fun _ _ hw => hw

theorem note (entry : κ) : Keeps (Recording.note entry : Recording ε σ κ Unit) :=
  fun _ _ hw => hw.trans (List.prefix_append _ _)

theorem bind (hx : Keeps x) (hnext : ∀ a, Keeps (next a)) : Keeps (x >>= next) :=
  fun R => (hx R).bind (fun a => hnext a R) fun _ _ hw => hw

theorem get_bind {next : Noted σ κ → Recording ε σ κ β} (hnext : ∀ w, Keeps (next w)) :
    Keeps (get >>= next) :=
  fun R => Meets.get_bind fun w => (hnext w R).weaken fun _ hw => hw.2

theorem modify_bind {f : Noted σ κ → Noted σ κ} {next : PUnit → Recording ε σ κ β}
    (hf : ∀ w, (f w).record = w.record) (hnext : Keeps (next ⟨⟩)) : Keeps (modify f >>= next) :=
  fun R => Meets.modify_bind (fun w => R <+: w.record) (hnext R) fun w hw => by rwa [hf]

theorem withContext (hx : Keeps x) (e : ε) : Keeps (x.withContext e) := hx

theorem ite {c : Prop} [Decidable c] {y : Recording ε σ κ α} (hx : c → Keeps x)
    (hy : ¬c → Keeps y) : Keeps (if c then x else y) :=
  fun R => Meets.ite (fun hc => hx hc R) fun hc => hy hc R

end Keeps

/-- There is one entry behind those from before. -/
theorem eq_of_noted {R record : List κ} {entry other : κ} (hentry : R ++ [entry] <+: record)
    (hother : R ++ [other] <+: record) : entry = other := by
  have hlength : (R ++ [entry]).length = (R ++ [other]).length := by
    rw [List.length_append, List.length_append]
    rfl
  have hsame := List.prefix_of_prefix_length_le hentry hother (Nat.le_of_eq hlength)
  exact List.singleton_inj.mp (List.append_cancel_left (hsame.eq_of_length hlength))

theorem not_noted (R : List κ) (entry : κ) : ¬R ++ [entry] <+: R := by
  intro hpre
  have hle := hpre.length_le
  rw [List.length_append, List.length_singleton] at hle
  omega

end NeuralMesh
