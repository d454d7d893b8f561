import NeuralMesh.Coordinator.Books
import NeuralMesh.Proof.TerminalStates
import NeuralMesh.Store.Rows
import NeuralMesh.System.Statements

/-!
# Tenants do not reach each other's money

Which account a request moves money of is often decided by a row it has read: the consumer of a job,
the parties of an escrow. A request is about an account when it names the account, one of its jobs or
one of its escrows. Those that are not leave the credit account and every escrow of it alone, however
their statements interleave and whichever of them fail. What carries this is that the rows such a
request can be told of name other accounts, and that no such request writes a row that names this one.
-/

namespace NeuralMesh

open Coordinator Program

/-- The account is a party of the escrow: its consumer, or the one a release pays. -/
def Escrow.Names (c : AccountId) (e : Escrow) : Prop := e.consumerId = c ∨ e.providerId.getD "" = c

/-- The escrow rows that name the account. -/
def Db.HoldsEscrow (s : Db) (c : AccountId) (escrowId : EscrowId) : Prop :=
  ∃ e, s.escrows.get? escrowId = some e ∧ e.Names c

/-- The jobs by which a request reaches the account: those it submitted, and those an escrow that names
it is locked for. -/
def Db.HoldsJob (s : Db) (c : AccountId) (jobId : JobId) : Prop :=
  (∃ j, s.jobs.get? jobId = some j ∧ j.consumerId = c) ∨
    ∃ escrowId e, s.escrows.get? escrowId = some e ∧ e.Names c ∧ e.jobId = jobId

/-- The request is not about the account. The cycle that treats the jobs of all stale providers is
about every account; its treatment of one job, `migrateOrFailJob`, is about that job. -/
def Operation.Spares (s : Db) (c : AccountId) : Operation → Prop
  | submitJob _ body => body.accountId ≠ c
  | cancelJob jobId => ¬ s.HoldsJob c jobId
  | completeJob _ _ jobId body => ¬ s.HoldsJob c jobId ∧ body.providerId ≠ c
  | failJob _ jobId _ => ¬ s.HoldsJob c jobId
  | registerAccount accountId _ => accountId ≠ c
  | stripeCredit _ _ _ body => body.accountId ≠ c
  | withdraw _ body => body.accountId ≠ c
  | reportCompletion _ _ jc => jc.providerId ≠ c
  | grpcSubmitJob _ req => req.consumerId ≠ c
  | checkStaleProviders _ => False
  | migrateOrFailJob _ jobId _ => ¬ s.HoldsJob c jobId
  | ledgerDeposit _ accountId _ => accountId ≠ c
  | ledgerWithdraw _ accountId _ => accountId ≠ c
  | lockEscrow _ body => body.consumerId ≠ c ∧ body.providerId.getD "" ≠ c
  | releaseEscrow body => ¬ s.HoldsEscrow c body.escrowId
  | getAssignedJob _ | saveCheckpoint _ _ _ | jobHeartbeat _ _ | registerProvider _
  | sendHeartbeat _ | acknowledgeJob _ | grpcCancelJob _ | runAuctionCycle
  | evictStaleProviders => True

/-! ### Statements -/

section

variable (s₀ : Db) (c : AccountId)

def AccountsWrite.Spares : AccountsWrite → Prop
  | register accountId | lock accountId _ | lockIfCovered accountId _ | refundJob _ accountId
  | earn accountId _ | charge accountId _ | credit accountId _ | refund _ accountId _
  | debit accountId _ | debitIfCovered accountId _ | settle accountId _ _ => accountId ≠ c
  | releaseAll jobId => ¬ s₀.HoldsJob c jobId

def EscrowsWrite.Spares : EscrowsWrite → Prop
  | insert _ _ consumerId providerId _ => consumerId ≠ c ∧ providerId.getD "" ≠ c
  | releaseOfJob jobId => ¬ s₀.HoldsJob c jobId
  | release escrowId => ¬ s₀.HoldsEscrow c escrowId

/-- The statement writes no row that names the account. -/
def Action.Spares : Action → Prop
  | .creditAccounts w => w.Spares s₀ c
  | .escrows w => w.Spares s₀ c
  | .jobs (.insert _ consumerId _) => consumerId ≠ c
  | .ledgerDeposit accountId _ _ _ => accountId ≠ c
  | _ => True

/-- What a request can be told: a job or an escrow that names the account is one of those it had. -/
def Action.Tells : (q : Action) → q.Answer → Prop
  | .read (.job jobId), job | .read (.jobOfProvider jobId _), job =>
      ∀ j ∈ (job : Option Job), j.consumerId = c → s₀.HoldsJob c jobId
  | .read (.lockedEscrowOfJob jobId), row =>
      ∀ r ∈ (row : Option (EscrowId × Escrow)), ¬ s₀.HoldsJob c jobId →
        ¬ s₀.HoldsEscrow c r.1 ∧ ¬ r.2.Names c
  | .read (.lockedEscrow escrowId), row =>
      ∀ e ∈ (row : Option Escrow), ¬ s₀.HoldsEscrow c escrowId → ¬ e.Names c
  | _, _ => True

end

variable {s₀ s t : Db} {c : AccountId}

/-- The money of the account is as it was in `s₀`, and no job has become its. -/
structure Db.Untouched (s₀ : Db) (c : AccountId) (s : Db) : Prop where
  account : s.creditAccounts.get? c = s₀.creditAccounts.get? c
  escrows : ∀ escrowId e, e.Names c →
    (s.escrows.get? escrowId = some e ↔ s₀.escrows.get? escrowId = some e)
  jobs : ∀ jobId j, s.jobs.get? jobId = some j → j.consumerId = c → s₀.HoldsJob c jobId

namespace Db.Untouched

theorem refl (s : Db) (c : AccountId) : s.Untouched c s :=
  ⟨rfl, fun _ _ _ => Iff.rfl, fun _ j hj hc => .inl ⟨j, hj, hc⟩⟩

theorem shuffled (h : s₀.Untouched c s) (hshuffled : s.Shuffled t) : s₀.Untouched c t where
  account := (hshuffled.creditAccounts.get?_eq c).symm.trans h.account
  escrows escrowId e hnames := by
    rw [← hshuffled.escrows.get?_eq]
    exact h.escrows escrowId e hnames
  jobs jobId j hj := by
    rw [← hshuffled.jobs.get?_eq] at hj
    exact h.jobs jobId j hj

/-- An escrow row that names the account is one it had, for one of its jobs. -/
theorem holds (h : s₀.Untouched c s) {escrowId : EscrowId} {e : Escrow}
    (he : s.escrows.get? escrowId = some e) (hnames : e.Names c) :
    s₀.HoldsEscrow c escrowId ∧ s₀.HoldsJob c e.jobId := by
  have hheld := (h.escrows escrowId e hnames).mp he
  exact ⟨⟨e, hheld, hnames⟩, .inr ⟨escrowId, e, hheld, hnames, rfl⟩⟩

end Db.Untouched

theorem Action.tells_of_exec {q : Action} {a : q.Answer} (h : s₀.Untouched c s)
    (hexec : q.exec s = some (a, t)) : q.Tells s₀ c a := by
  cases q with
  | read r =>
      cases hexec
      cases r with
      | job jobId => exact h.jobs jobId
      | jobOfProvider jobId providerId =>
          intro j hj
          exact h.jobs jobId j (Option.filter_eq_some_iff.mp hj).1
      | lockedEscrowOfJob jobId =>
          intro row hrow hspared
          obtain ⟨hfound, hjob, -⟩ := firstLocked_eq_some hrow
          have hother : ¬ row.2.Names c := fun hnames => hspared (hjob ▸ (h.holds hfound hnames).2)
          refine ⟨?_, hother⟩
          rintro ⟨e, hheld, hnames⟩
          have hsame := (h.escrows row.1 e hnames).mpr hheld
          rw [hfound] at hsame
          cases hsame
          exact hother hnames
      | lockedEscrow escrowId =>
          intro e he hspared hnames
          exact hspared (h.holds (Option.filter_eq_some_iff.mp he).1 hnames).1
      | _ => trivial
  | _ => trivial

theorem AccountsWrite.get?_of_spares {w : AccountsWrite} (h : s₀.Untouched c s)
    (hspares : w.Spares s₀ c) : (w.apply s).2.get? c = s.creditAccounts.get? c := by
  have hupdate : ∀ (a : AccountId) (guard : CreditAccount → Bool) (f : CreditAccount → CreditAccount),
      a ≠ c → (updateAccount s.creditAccounts a guard f).2.get? c = s.creditAccounts.get? c := by
    intro a guard f hne
    rw [updateAccount]
    split
    · exact Table.get?_update_of_ne _ _ hne.symm
    · rfl
  have hupsert : ∀ (a : AccountId) (new : CreditAccount) (f : CreditAccount → CreditAccount),
      a ≠ c → (s.creditAccounts.upsert a new f).get? c = s.creditAccounts.get? c := by
    intro a new f hne
    rw [Table.get?_upsert, if_neg hne.symm]
  cases w with
  | register accountId =>
      rw [apply]
      split
      · rename_i accounts hinsert
        rw [Table.get?_of_insert? hinsert, if_neg (Ne.symm hspares)]
      · rfl
  | earn accountId amount => exact hupsert _ _ _ hspares
  | credit accountId amount => exact hupsert _ _ _ hspares
  | refund escrowId accountId amount => exact hupsert _ _ _ hspares
  | releaseAll jobId =>
      rw [apply]
      split
      · rename_i job hjob
        exact hupdate _ _ _ fun hc => hspares (h.jobs jobId job hjob hc)
      · rfl
  | _ => exact hupdate _ _ _ hspares

theorem EscrowsWrite.get?_of_spares {w : EscrowsWrite} {escrows : Table EscrowId Escrow}
    (h : s₀.Untouched c s) (hspares : w.Spares s₀ c) (happly : w.apply s = some escrows)
    {escrowId : EscrowId} {e : Escrow} (hnames : e.Names c) :
    escrows.get? escrowId = some e ↔ s.escrows.get? escrowId = some e := by
  cases w with
  | insert newId jobId consumerId providerId lockedNmc =>
      rw [apply] at happly
      split at happly
      · rw [Table.get?_of_insert? happly]
        split
        · rename_i heq
          have hvacant := (Table.rows_of_insert? happly).1
          rw [heq, hvacant]
          constructor
          · intro hnew
            cases hnew
            rcases hnames with hconsumer | hprovider
            · exact absurd hconsumer hspares.1
            · exact absurd hprovider hspares.2
          · intro hold
            cases hold
        · exact Iff.rfl
      · cases happly
  | releaseOfJob jobId =>
      cases happly
      rw [Table.get?_updateWhere]
      constructor
      · intro hlater
        obtain ⟨old, hold, hedit⟩ := Option.map_eq_some_iff.mp hlater
        split at hedit
        · rename_i hmatch
          -- a row of the job cannot name the account, released or not
          have hjob : old.jobId = jobId := (of_decide_eq_true hmatch).1
          have hnamed : old.Names c := by
            rw [← hedit] at hnames
            exact hnames
          exact absurd (hjob ▸ (h.holds hold hnamed).2) hspares
        · rw [hold, hedit]
      · intro hold
        rw [hold, Option.map_some, if_neg]
        intro hmatch
        have hjob : e.jobId = jobId := (of_decide_eq_true hmatch).1
        exact hspares (hjob ▸ (h.holds hold hnames).2)
  | release releasedId =>
      cases happly
      rw [Table.get?_update]
      split
      · rename_i heq
        have hother : ∀ old, s.escrows.get? releasedId = some old → ¬ old.Names c :=
          fun old hold hnamed => hspares (h.holds hold hnamed).1
        rw [heq]
        constructor
        · intro hlater
          obtain ⟨old, hold, hedit⟩ := Option.map_eq_some_iff.mp hlater
          rw [← hedit] at hnames
          exact absurd hnames (hother old hold)
        · exact fun hold => absurd hnames (hother e hold)
      · exact Iff.rfl

theorem Action.exec_untouched {q : Action} {a : q.Answer} (h : s₀.Untouched c s)
    (hspares : q.Spares s₀ c) (hexec : q.exec s = some (a, t)) : s₀.Untouched c t where
  account := by
    rw [← h.account]
    cases q with
    | creditAccounts w =>
        cases hexec
        exact AccountsWrite.get?_of_spares h hspares
    | ledgerDeposit accountId amount reference txId =>
        have hcredited : (AccountsWrite.apply s (.credit accountId amount)).2.get? c =
            s.creditAccounts.get? c := AccountsWrite.get?_of_spares h hspares
        simp only [exec] at hexec
        split at hexec
        · cases hexec
          exact hcredited
        · cases hexec
          exact hcredited
    | _ => rw [show t.creditAccounts = s.creditAccounts from exec_sameIn .creditAccounts rfl hexec]
  escrows escrowId e hnames := by
    rw [← h.escrows escrowId e hnames]
    rcases exec_escrows hexec with hsame | ⟨w, rfl, happly⟩
    · rw [hsame]
    · exact EscrowsWrite.get?_of_spares h hspares happly hnames
  jobs jobId j hj hc := by
    rcases exec_jobs hexec with hsame | ⟨w, rfl, happly⟩
    · rw [hsame] at hj
      exact h.jobs jobId j hj hc
    · cases hold : s.jobs.get? jobId with
      | none =>
          obtain ⟨consumerId, spec, rfl, rfl⟩ := JobsWrite.submitted_of_apply happly hold hj
          exact absurd hc hspares
      | some old =>
          rw [JobsWrite.get?_apply happly hold] at hj
          cases hj
          rw [JobsWrite.edit_consumerId] at hc
          exact h.jobs jobId old hold hc

/-! ### Requests -/

/-- A request whose statements spare the account whatever it is told. -/
theorem Operation.given_of_writes {op : Operation}
    (haccounts : ∀ w, op.WritesAccount w → w.Spares s₀ c)
    (hescrows : ∀ w, op.WritesEscrow w → w.Spares s₀ c)
    (hjobs : ∀ jobId consumerId spec, op.WritesJob (.insert jobId consumerId spec) → consumerId ≠ c)
    (hmilestones : ¬ op.PaysMilestones) :
    op.program.UsesGiven (Action.Tells s₀ c) (Action.Spares s₀ c) := by
  refine (op.program_mayIssue.mono fun q hmay => ?_).given
  cases q with
  | creditAccounts w => exact haccounts w hmay
  | escrows w => exact hescrows w hmay
  | jobs w =>
      cases w with
      | insert jobId consumerId spec => exact hjobs jobId consumerId spec hmay
      | _ => trivial
  | ledgerDeposit _ _ _ _ => exact absurd hmay hmilestones
  | _ => trivial

theorem cancelJob_given {jobId : JobId} (hspared : ¬ s₀.HoldsJob c jobId) :
    (Coordinator.cancelJob jobId).UsesGiven (Action.Tells s₀ c) (Action.Spares s₀ c) := by
  refine ⟨trivial, fun job htold => ?_, trivial⟩
  cases job with
  | none => trivial
  | some job =>
      have hother : job.consumerId ≠ c := fun hc => hspared (htold job rfl hc)
      dsimp only
      split
      · trivial
      · exact ⟨trivial, fun _ _ => ⟨hother, fun _ _ => ⟨hspared, fun _ _ => ⟨trivial,
          fun _ _ => trivial, trivial⟩, trivial⟩, trivial⟩, trivial⟩

theorem completeJob_given {config : Config} {txId : TxId} {jobId : JobId} {body : CompleteJobBody}
    (hspared : ¬ s₀.HoldsJob c jobId) (hprovider : body.providerId ≠ c) :
    (Coordinator.completeJob config txId jobId body).UsesGiven (Action.Tells s₀ c)
      (Action.Spares s₀ c) := by
  refine ⟨trivial, fun job htold => ?_, trivial⟩
  cases job with
  | none => trivial
  | some job =>
      have hother : job.consumerId ≠ c := fun hc => hspared (htold job rfl hc)
      refine ⟨trivial, fun _ _ => ⟨hprovider, fun _ _ => ⟨hother, fun _ _ => ⟨trivial, fun _ _ =>
        ⟨trivial, fun _ _ => ?_, trivial⟩, trivial⟩, trivial⟩, trivial⟩, trivial⟩
      dsimp only
      split
      · exact ⟨trivial, fun _ _ => ⟨trivial, fun _ _ => trivial, trivial⟩,
          ⟨trivial, fun _ _ => trivial, trivial⟩⟩
      · exact ⟨trivial, fun _ _ => trivial, trivial⟩

theorem migrateOrFailJob_given {txId : TxId} {jobId : JobId} {providerId : ProviderId}
    (hspared : ¬ s₀.HoldsJob c jobId) :
    (Coordinator.migrateOrFailJob txId jobId providerId (.done true)).UsesGiven
      (Action.Tells s₀ c) (Action.Spares s₀ c) := by
  have hlast : (attempt (.providers (.penalize providerId)) (done true) : Cycle).UsesGiven
      (Action.Tells s₀ c) (Action.Spares s₀ c) := ⟨trivial, fun _ _ => trivial, trivial⟩
  refine ⟨trivial, fun job _ => ?_, trivial⟩
  cases job with
  | none => trivial
  | some job =>
      dsimp only
      split
      · trivial
      split
      · exact ⟨trivial, fun _ _ => trivial, trivial⟩
      · refine ⟨trivial, fun _ _ => ⟨trivial, fun row htold => ?_, hlast⟩, trivial⟩
        cases row with
        | none => exact hlast
        | some row =>
            obtain ⟨hescrow, hother⟩ := htold row rfl hspared
            exact ⟨hescrow, fun _ _ => ⟨fun hc => hother (.inl hc), fun _ _ => ⟨trivial,
              fun _ _ => hlast, hlast⟩, hlast⟩, hlast⟩

theorem releaseEscrow_given {body : Ledger.EscrowReleaseBody}
    (hspared : ¬ s₀.HoldsEscrow c body.escrowId) :
    (Ledger.releaseEscrow body).UsesGiven (Action.Tells s₀ c) (Action.Spares s₀ c) := by
  refine ⟨trivial, fun escrow htold => ?_, trivial⟩
  cases escrow with
  | none => trivial
  | some escrow =>
      have hother : ¬ escrow.Names c := htold escrow rfl hspared
      exact ⟨fun hc => hother (.inl hc), fun _ _ => ⟨fun hc => hother (.inr hc), fun _ _ =>
        ⟨hspared, fun _ _ => trivial, trivial⟩, trivial⟩, trivial⟩

theorem reportCompletion_given {oracleEnabled : Bool} {txIds : Int → TxId} {jc : Grpc.JobComplete}
    (hprovider : jc.providerId ≠ c) :
    (Grpc.reportCompletion oracleEnabled txIds jc).UsesGiven (Action.Tells s₀ c)
      (Action.Spares s₀ c) := by
  refine Uses.given ⟨trivial, fun _ => ?_, trivial⟩
  dsimp only
  split
  · exact Grpc.rewardHours_uses (fun _ => trivial) trivial (fun _ _ _ => hprovider)
      (fun _ _ => trivial) (Grpc.settle_uses trivial fun _ => trivial)
  · exact Grpc.settle_uses trivial fun _ => trivial

/-- A request that is not about the account spares it, as long as it is told of others' rows. The empty
text is no account: an escrow without a provider would name it. -/
theorem Operation.program_given {op : Operation} (hc : c ≠ "") (hspares : op.Spares s₀ c) :
    op.program.UsesGiven (Action.Tells s₀ c) (Action.Spares s₀ c) := by
  cases op with
  | cancelJob jobId => exact usesGiven_forget.mpr (cancelJob_given hspares)
  | completeJob config txId jobId body =>
      exact usesGiven_forget.mpr (completeJob_given hspares.1 hspares.2)
  | migrateOrFailJob txId jobId providerId =>
      exact usesGiven_forget.mpr (migrateOrFailJob_given hspares)
  | releaseEscrow body => exact usesGiven_forget.mpr (releaseEscrow_given hspares)
  | reportCompletion oracleEnabled txIds jc =>
      exact usesGiven_forget.mpr (reportCompletion_given hspares)
  | checkStaleProviders txIds => exact hspares.elim
  | submitJob ids body =>
      refine given_of_writes ?_ ?_ ?_ id
      · intro w hw
        cases (hw : w = _)
        exact hspares
      · intro w hw
        cases (hw : w = _)
        exact ⟨hspares, fun hempty => hc hempty.symm⟩
      · intro jobId consumerId spec hw
        cases (hw : JobsWrite.insert jobId consumerId spec = _)
        exact hspares
  | grpcSubmitJob jobId req =>
      refine given_of_writes (fun _ => False.elim) (fun _ => False.elim) ?_ id
      rintro jobId consumerId spec ⟨_, _, heq⟩
      cases heq
      exact hspares
  | lockEscrow escrowId body =>
      refine given_of_writes ?_ ?_ (fun _ _ _ => False.elim) id
      · intro w hw
        cases (hw : w = _)
        exact hspares.1
      · intro w hw
        cases (hw : w = _)
        exact hspares
  | failJob config jobId body =>
      refine given_of_writes ?_ (fun _ => False.elim) (fun _ _ _ hw => nomatch hw) id
      intro w hw
      cases (hw : w = _)
      exact hspares
  | registerAccount _ _ | stripeCredit _ _ _ _ | withdraw _ _ | ledgerDeposit _ _ _
  | ledgerWithdraw _ _ _ =>
      refine given_of_writes ?_ (fun _ => False.elim) (fun _ _ _ => False.elim) id
      intro w hw
      cases (hw : w = _)
      exact hspares
  | getAssignedJob _ | saveCheckpoint _ _ _ | jobHeartbeat _ _ | acknowledgeJob _
  | grpcCancelJob _ | runAuctionCycle | registerProvider _ | sendHeartbeat _
  | evictStaleProviders =>
      refine given_of_writes (fun _ => False.elim) (fun _ => False.elim) ?_ id
      intro jobId consumerId spec hw
      simp [WritesJob] at hw

/-- However requests that are not about an account interleave, lose statements or fail, its credit
account and every escrow that names it are what they were. -/
theorem account_isolated {ops : List Operation} {p : Requests}
    {es : List (Event Action Db Operation)} (hc : c ≠ "") (hspares : ∀ op ∈ ops, op.Spares s c)
    (hrun : (Pool.start Operation.program s ops).Runs Action.exec Db.Shuffled (fun _ _ => True)
      es p) :
    p.store.creditAccounts.get? c = s.creditAccounts.get? c ∧
      ∀ escrowId e, e.Names c →
        (p.store.escrows.get? escrowId = some e ↔ s.escrows.get? escrowId = some e) := by
  have huntouched : s.Untouched c p.store := by
    refine hrun.relies (I := s.Untouched c) (T := Action.Tells s c) (P := Action.Spares s c) ?_ ?_
      ?_ (.refl s c) ?_
    · exact fun q _ a _ hbefore hexec => Action.tells_of_exec hbefore hexec
    · exact fun q _ a _ hbefore hspared hexec => Action.exec_untouched hbefore hspared hexec
    · exact fun _ _ hshuffled hbefore => hbefore.shuffled hshuffled
    · intro r hr
      obtain ⟨op, hop, rfl⟩ := List.mem_map.mp hr
      exact op.program_given hc (hspares op hop)
  exact ⟨huntouched.account, huntouched.escrows⟩

/-- Bob cancels his job and submits another one while Alice's is queued. -/
theorem account_isolated_cancelled :
    let s := afterAll [topUp "alice" 10, topUp "bob" 10, submitHour "a" "alice" 5,
      submitHour "b" "bob" 5] Db.init
    ∃ (p : Requests) (es : List (Event Action Db Operation)),
      (Pool.start Operation.program s [.cancelJob "b", submitHour "c" "bob" 2]).Runs Action.exec
        Db.Shuffled (fun _ _ => True) es p ∧
      p.store.creditAccounts.get? "bob" = some ⟨some 8, some 2, some 0, some 0⟩ ∧
      p.store.creditAccounts.get? "alice" = s.creditAccounts.get? "alice" ∧
      ∀ escrowId e, e.Names "alice" →
        (p.store.escrows.get? escrowId = some e ↔ s.escrows.get? escrowId = some e) := by
  intro s
  have hjob : (s.jobs.get? "b").map Job.consumerId = some "bob" := by decide +kernel
  have hescrows : ∀ row ∈ s.escrows.rows,
      row.2.consumerId = "alice" ∨ row.2.providerId.getD "" = "alice" → row.2.jobId ≠ "b" := by
    decide +kernel
  have hspared : ¬ s.HoldsJob "alice" "b" := by
    rintro (⟨j, hj, hconsumer⟩ | ⟨escrowId, e, he, hnames, hfor⟩)
    · rw [hj, Option.map_some, hconsumer] at hjob
      exact absurd hjob (by decide)
    · exact hescrows _ (Table.mem_rows_iff.mpr he) hnames hfor
  have hbob : (afterAll [.cancelJob "b", submitHour "c" "bob" 2] s).creditAccounts.get? "bob" =
      some ⟨some 8, some 2, some 0, some 0⟩ := by decide +kernel
  obtain ⟨es, returned, hturns⟩ := Pool.runs_in_turn Action.exec Db.Shuffled Operation.program s []
    [] [.cancelJob "b", submitHour "c" "bob" 2]
  have hrun : Pool.Runs Action.exec Db.Shuffled (fun _ _ => True) _ es _ :=
    hturns.mono fun _ _ _ => trivial
  have hall : ∀ op ∈ [Operation.cancelJob "b", submitHour "c" "bob" 2], op.Spares s "alice" := by
    intro op hop
    rcases List.mem_pair.mp hop with rfl | rfl
    · exact hspared
    · exact (by decide : "bob" ≠ "alice")
  exact ⟨_, es, hrun, hbob, account_isolated (by decide) hall hrun⟩

end NeuralMesh
