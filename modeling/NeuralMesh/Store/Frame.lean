import NeuralMesh.Base.Failure
import NeuralMesh.Store.Action

/-!
# What a statement leaves alone

`Action.touches` names the parts of the database a statement can change, and `run_sameIn` lifts to a
whole program that it leaves a part as it was.
-/

namespace NeuralMesh

/-- The parts of the database that handlers share. -/
inductive Part where
  | creditAccounts | escrows | jobs | providers | transactions | milestones | oracle
  deriving DecidableEq, Repr

/-- The statement writes the part. -/
def Action.touches (part : Part) : Action → Bool
  | .read _ => false
  | .creditAccounts _ => part = .creditAccounts
  | .escrows _ => part = .escrows
  | .jobs _ => part = .jobs
  | .providers _ => part = .providers
  | .insertTransaction _ _ => part = .transactions
  | .insertDeposit _ => false
  | .insertMilestone _ _ _ => part = .milestones
  | .insertCheckpoint _ _ => false
  | .insertAccount _ _ => false
  | .oracle _ => part = .oracle
  | .ledgerDeposit _ _ _ _ => part = .creditAccounts ∨ part = .transactions

/-- Two databases agree on the part. -/
def Db.SameIn (part : Part) (s t : Db) : Prop :=
  match part with
  | .creditAccounts => t.creditAccounts = s.creditAccounts
  | .escrows => t.escrows = s.escrows
  | .jobs => t.jobs = s.jobs
  | .providers => t.providers = s.providers
  | .transactions => t.transactions = s.transactions
  | .milestones => t.milestoneRewards = s.milestoneRewards
  | .oracle => t.oracleRequests = s.oracleRequests

theorem Db.SameIn.refl (part : Part) (s : Db) : s.SameIn part s := by cases part <;> rfl

theorem Db.SameIn.symm {part : Part} {s t : Db} (h : s.SameIn part t) : t.SameIn part s := by
  cases part <;> exact Eq.symm h

theorem Db.SameIn.trans {part : Part} {s t u : Db} (h₁ : s.SameIn part t) (h₂ : t.SameIn part u) :
    s.SameIn part u := by
  cases part <;> exact Eq.trans h₂ h₁

theorem Action.exec_sameIn (part : Part) {q : Action} {s t : Db} {a : q.Answer}
    (hspares : q.touches part = false) (hexec : q.exec s = some (a, t)) : s.SameIn part t := by
  cases q with
  | read r =>
      cases hexec
      exact .refl _ _
  | creditAccounts w =>
      cases hexec
      cases part <;> first | rfl | cases hspares
  | providers w =>
      cases hexec
      cases part <;> first | rfl | cases hspares
  | oracle request =>
      cases hexec
      cases part <;> first | rfl | cases hspares
  | escrows w =>
      obtain ⟨_, _, heq⟩ := Option.map_eq_some_iff.mp hexec
      cases heq
      cases part <;> first | rfl | cases hspares
  | jobs w =>
      obtain ⟨_, _, heq⟩ := Option.map_eq_some_iff.mp hexec
      cases heq
      cases part <;> first | rfl | cases hspares
  | insertTransaction txId row =>
      obtain ⟨_, _, heq⟩ := Option.map_eq_some_iff.mp hexec
      cases heq
      cases part <;> first | rfl | cases hspares
  | insertDeposit row =>
      obtain ⟨_, _, heq⟩ := Option.map_eq_some_iff.mp hexec
      cases heq
      cases part <;> rfl
  | insertAccount accountId row =>
      obtain ⟨_, _, heq⟩ := Option.map_eq_some_iff.mp hexec
      cases heq
      cases part <;> rfl
  | insertMilestone providerId milestoneHours row =>
      simp only [Action.exec] at hexec
      split at hexec
      · cases hexec
        cases part <;> first | rfl | cases hspares
      · cases hexec
  | insertCheckpoint checkpointId row =>
      simp only [Action.exec] at hexec
      split at hexec
      · obtain ⟨_, _, heq⟩ := Option.map_eq_some_iff.mp hexec
        cases heq
        cases part <;> rfl
      · cases hexec
  | ledgerDeposit accountId amount reference txId =>
      simp only [Action.exec] at hexec
      split at hexec
      · cases hexec
        cases part <;> first | rfl | cases hspares
      · cases hexec
        cases part <;> first | rfl | cases hspares

/-- No statement takes time. -/
theorem Action.exec_now {q : Action} {s t : Db} {a : q.Answer} (hexec : q.exec s = some (a, t)) :
    t.now = s.now := by
  cases q with
  | read _ | creditAccounts _ | providers _ | oracle _ =>
      cases hexec
      rfl
  | escrows _ | jobs _ | insertTransaction _ _ | insertDeposit _ | insertAccount _ _ =>
      obtain ⟨_, _, heq⟩ := Option.map_eq_some_iff.mp hexec
      cases heq
      rfl
  | insertMilestone providerId milestoneHours row =>
      simp only [Action.exec] at hexec
      split at hexec
      · cases hexec
        rfl
      · cases hexec
  | insertCheckpoint checkpointId row =>
      simp only [Action.exec] at hexec
      split at hexec
      · obtain ⟨_, _, heq⟩ := Option.map_eq_some_iff.mp hexec
        cases heq
        rfl
      · cases hexec
  | ledgerDeposit accountId amount reference txId =>
      simp only [Action.exec] at hexec
      split at hexec <;> cases hexec <;> rfl

/-- A part that was changed stays so while statements that leave it alone follow. -/
theorem not_sameIn_afterFirst {part : Part} {α : Type} {p : Program Action.Answer α} {s s' t : Db}
    {n : Nat} (hchanged : ¬ s.SameIn part s') (huses : p.Uses fun q => q.touches part = false)
    (hafter : p.afterFirst Action.exec n s' = some t) : ¬ s.SameIn part t := by
  have hrest : s'.SameIn part t :=
    Program.afterFirst_rel Action.exec (R := Db.SameIn part) (Db.SameIn.refl part)
      (fun _ _ _ h₁ h₂ => h₁.trans h₂)
      (fun _ _ _ _ hspares hexec => Action.exec_sameIn part hspares hexec) huses hafter
  intro hsame
  exact hchanged (hsame.trans hrest.symm)

/-- The statements of a program that leave a part alone leave it as it was. -/
theorem run_sameIn (part : Part) {α : Type} {p : Program Action.Answer α} (s : Db)
    (huses : p.Uses fun q => q.touches part = false) :
    s.SameIn part (p.run Action.exec s).2 :=
  Program.run_rel Action.exec (R := Db.SameIn part) (Db.SameIn.refl part)
    (fun _ _ _ h₁ h₂ => h₁.trans h₂)
    (fun _ _ _ _ hspares hexec => Action.exec_sameIn part hspares hexec)
    p s huses

end NeuralMesh
