import NeuralMesh.Coordinator.Accounts
import NeuralMesh.Crypto.Keys
import NeuralMesh.Proof.TerminalStates
import NeuralMesh.Store.Rows
import NeuralMesh.System.Constraints
import NeuralMesh.System.Statements

/-!
# Earnings never reach a wallet

A provider registers under its public key, and what it earns is credited under that text. The account
of a wallet has an id that is derived by hashing. No request carries one to the other: only a provider
that has registered can be assigned a job, and only the one a job is assigned to can be paid for it. So
in every interleaving the earnings of every wallet stay zero.
-/

namespace NeuralMesh

open Coordinator Program

/-- `total_earned_nmc` as it is shown: an account without a row has earned nothing. -/
def Db.totalEarned (s : Db) (c : AccountId) : Option ℚ :=
  ((s.creditAccounts.get? c).map CreditAccount.totalEarnedNmc).getD (some 0)

/-- The request makes no provider of the account. -/
def Operation.HiresOther (c : AccountId) : Operation → Prop
  | registerProvider req => req.providerId ≠ c
  | lockEscrow _ body => body.providerId.getD "" ≠ c
  | _ => True

section

variable (c : AccountId)

def AccountsWrite.PaysOther : AccountsWrite → Prop
  | earn accountId _ => accountId ≠ c
  | _ => True

/-- The statement pays another account, and makes neither a provider nor an escrow that would be paid
to this one. -/
def Action.PaysOther : Action → Prop
  | .creditAccounts w => w.PaysOther c
  | .providers (.register providerId _) => providerId ≠ c
  | .escrows (.insert _ _ _ providerId _) => providerId.getD "" ≠ c
  | _ => True

/-- No escrow that is read pays the account, and no job is found to be assigned to it. -/
def Action.TellsOther : (q : Action) → q.Answer → Prop
  | .read (.jobOfProvider _ providerId), job => (job : Option Job).isSome → providerId ≠ c
  | .read (.lockedEscrow _), row => ∀ e ∈ (row : Option Escrow), e.providerId.getD "" ≠ c
  | _, _ => True

end

variable {s s₀ t : Db} {c : AccountId}

/-- The account is no provider, no escrow pays it, and it has earned nothing since. -/
structure Db.Unpaid (s₀ : Db) (c : AccountId) (s : Db) : Prop where
  consistent : s.Consistent
  provider : s.providers.get? c = none
  escrows : ∀ escrowId e, s.escrows.get? escrowId = some e → e.providerId.getD "" ≠ c
  earned : s.totalEarned c = s₀.totalEarned c

theorem Db.Unpaid.shuffled (h : s₀.Unpaid c s) (hshuffled : s.Shuffled t) : s₀.Unpaid c t where
  consistent := h.consistent.shuffled hshuffled
  provider := by rw [← hshuffled.providers.get?_eq, h.provider]
  escrows escrowId e he := by
    rw [← hshuffled.escrows.get?_eq] at he
    exact h.escrows escrowId e he
  earned := by
    rw [← h.earned, totalEarned, totalEarned, hshuffled.creditAccounts.get?_eq]

/-! ### Statements -/

/-- An update that leaves the earnings of its row. -/
theorem totalEarned_updateAccount (a : AccountId) (guard : CreditAccount → Bool)
    {f : CreditAccount → CreditAccount} (hf : ∀ row, (f row).totalEarnedNmc = row.totalEarnedNmc) :
    (((updateAccount s.creditAccounts a guard f).2.get? c).map CreditAccount.totalEarnedNmc).getD
      (some 0) = s.totalEarned c := by
  rw [updateAccount, Db.totalEarned]
  split
  · rw [Table.get?_update]
    split
    · rename_i heq
      rw [heq, Option.map_map]
      congr 1
      exact congrArg (Option.map · _) (funext hf)
    · rfl
  · rfl

/-- A row that is made has earned nothing, and one that is there keeps its earnings. -/
theorem totalEarned_upsert (a : AccountId) (amount : ℚ) {f : CreditAccount → CreditAccount}
    (hf : ∀ row, (f row).totalEarnedNmc = row.totalEarnedNmc) :
    (((s.creditAccounts.upsert a (.opened amount 0) f).get? c).map
      CreditAccount.totalEarnedNmc).getD (some 0) = s.totalEarned c := by
  rw [Table.get?_upsert, Db.totalEarned]
  split
  · rename_i heq
    rw [heq]
    cases s.creditAccounts.get? a with
    | none => rfl
    | some row => exact hf row
  · rfl

theorem AccountsWrite.totalEarned_apply {w : AccountsWrite} (hother : w.PaysOther c) :
    (((w.apply s).2.get? c).map CreditAccount.totalEarnedNmc).getD (some 0) = s.totalEarned c := by
  cases w with
  | register accountId =>
      rw [apply, Db.totalEarned]
      split
      · rename_i accounts hinsert
        rw [Table.get?_of_insert? hinsert]
        split
        · rename_i heq
          rw [heq, (Table.rows_of_insert? hinsert).1]
          rfl
        · rfl
      · rfl
  | earn accountId amount =>
      rw [apply, Db.totalEarned, Table.get?_upsert, if_neg (Ne.symm hother)]
  | credit accountId amount => exact totalEarned_upsert _ _ fun _ => rfl
  | refund escrowId accountId amount => exact totalEarned_upsert _ _ fun _ => rfl
  | releaseAll jobId =>
      rw [apply]
      split
      · exact totalEarned_updateAccount _ _ fun _ => rfl
      · rfl
  | _ => exact totalEarned_updateAccount _ _ fun _ => rfl

theorem EscrowsWrite.providerId_apply {w : EscrowsWrite} {escrows : Table EscrowId Escrow}
    (happly : w.apply s = some escrows) {escrowId : EscrowId} {e : Escrow}
    (he : escrows.get? escrowId = some e) :
    (∃ old, s.escrows.get? escrowId = some old ∧ e.providerId = old.providerId) ∨
      ∃ jobId consumerId locked, w = .insert escrowId jobId consumerId e.providerId locked := by
  cases w with
  | insert newId jobId consumerId providerId lockedNmc =>
      rw [apply] at happly
      split at happly
      · rw [Table.get?_of_insert? happly] at he
        split at he
        · rename_i heq
          cases he
          exact .inr ⟨jobId, consumerId, lockedNmc, by rw [heq]⟩
        · exact .inl ⟨e, he, rfl⟩
      · cases happly
  | releaseOfJob jobId =>
      cases happly
      rw [Table.get?_updateWhere] at he
      obtain ⟨old, hold, rfl⟩ := Option.map_eq_some_iff.mp he
      refine .inl ⟨old, hold, ?_⟩
      split <;> rfl
  | release releasedId =>
      cases happly
      obtain ⟨old, rfl, hold, rfl⟩ | ⟨-, hold⟩ := Table.get?_update_cases he
      · exact .inl ⟨old, hold, rfl⟩
      · exact .inl ⟨e, hold, rfl⟩

theorem Action.exec_unpaid {q : Action} {a : q.Answer} (h : s₀.Unpaid c s) (hother : q.PaysOther c)
    (hexec : q.exec s = some (a, t)) : s₀.Unpaid c t where
  consistent := h.consistent.exec hexec
  provider := by
    rcases exec_providers hexec with hsame | ⟨w, rfl, happly⟩
    · rw [hsame, h.provider]
    · by_contra hsome
      obtain ⟨row, hrow⟩ := Option.ne_none_iff_exists'.mp hsome
      rw [happly] at hrow
      obtain ⟨caps, rfl, -⟩ := w.registered_of_apply h.provider hrow
      exact hother rfl
  escrows escrowId e he := by
    rcases exec_escrows hexec with hsame | ⟨w, rfl, happly⟩
    · rw [hsame] at he
      exact h.escrows escrowId e he
    · obtain ⟨old, hold, hprovider⟩ | ⟨jobId, consumerId, locked, rfl⟩ :=
        EscrowsWrite.providerId_apply happly he
      · rw [hprovider]
        exact h.escrows escrowId old hold
      · exact hother
  earned := by
    rw [← h.earned]
    cases q with
    | creditAccounts w =>
        cases hexec
        exact AccountsWrite.totalEarned_apply hother
    | ledgerDeposit accountId amount reference txId =>
        have hcredited : (((AccountsWrite.apply s (.credit accountId amount)).2.get? c).map
            CreditAccount.totalEarnedNmc).getD (some 0) = s.totalEarned c :=
          AccountsWrite.totalEarned_apply trivial
        simp only [exec] at hexec
        split at hexec
        · cases hexec
          exact hcredited
        · cases hexec
          exact hcredited
    | _ =>
        rw [Db.totalEarned, Db.totalEarned,
          show t.creditAccounts = s.creditAccounts from exec_sameIn .creditAccounts rfl hexec]

theorem Action.tellsOther_of_exec {q : Action} {a : q.Answer} (h : s₀.Unpaid c s)
    (hexec : q.exec s = some (a, t)) : q.TellsOther c a := by
  cases q with
  | read r =>
      cases hexec
      cases r with
      | lockedEscrow escrowId =>
          intro e he
          exact h.escrows escrowId e (Option.filter_eq_some_iff.mp he).1
      | jobOfProvider jobId providerId =>
          intro hfound hc
          obtain ⟨job, hjob⟩ := Option.isSome_iff_exists.mp hfound
          obtain ⟨hrow, hprovider⟩ := Option.filter_eq_some_iff.mp hjob
          have hregistered := h.consistent.provider jobId job hrow providerId (of_decide_eq_true hprovider)
          rw [hc, h.provider] at hregistered
          cases hregistered
      | _ => trivial
  | _ => trivial

/-! ### Requests -/

theorem Operation.paysOther_of_writes {op : Operation}
    (haccounts : ∀ accountId amount, ¬ op.WritesAccount (.earn accountId amount))
    (hproviders : ∀ providerId caps, op.WritesProvider (.register providerId caps) → providerId ≠ c)
    (hescrows : ∀ escrowId jobId consumerId providerId locked,
      op.WritesEscrow (.insert escrowId jobId consumerId providerId locked) →
        providerId.getD "" ≠ c) :
    op.program.UsesGiven (Action.TellsOther c) (Action.PaysOther c) := by
  refine (op.program_mayIssue.mono fun q hmay => ?_).given
  cases q with
  | creditAccounts w =>
      cases w with
      | earn accountId amount => exact absurd hmay (haccounts accountId amount)
      | _ => trivial
  | providers w =>
      cases w with
      | register providerId caps => exact hproviders providerId caps hmay
      | _ => trivial
  | escrows w =>
      cases w with
      | insert escrowId jobId consumerId providerId locked =>
          exact hescrows escrowId jobId consumerId providerId locked hmay
      | _ => trivial
  | _ => trivial

/-- The row that a release reads says whom it pays. -/
theorem releaseEscrow_paysOther (body : Ledger.EscrowReleaseBody) :
    (Ledger.releaseEscrow body).UsesGiven (Action.TellsOther c) (Action.PaysOther c) := by
  refine ⟨trivial, fun escrow htold => ?_, trivial⟩
  cases escrow with
  | none => trivial
  | some escrow =>
      have hother : escrow.providerId.getD "" ≠ c := htold escrow rfl
      exact ⟨trivial, fun _ _ => ⟨hother, fun _ _ => ⟨trivial, fun _ _ => trivial, trivial⟩,
        trivial⟩, trivial⟩

/-- A completion is paid to whom the job is found to be assigned to. -/
theorem completeJob_paysOther (config : Config) (txId : TxId) (jobId : JobId)
    (body : CompleteJobBody) :
    (Coordinator.completeJob config txId jobId body).UsesGiven (Action.TellsOther c)
      (Action.PaysOther c) := by
  refine ⟨trivial, fun job htold => ?_, trivial⟩
  cases job with
  | none => trivial
  | some job =>
      have hother : body.providerId ≠ c := htold rfl
      refine ⟨trivial, fun _ _ => ⟨hother, fun _ _ => ⟨trivial, fun _ _ => ⟨trivial, fun _ _ =>
        ⟨trivial, fun _ _ => ?_, trivial⟩, trivial⟩, trivial⟩, trivial⟩, trivial⟩
      dsimp only
      split
      · exact ⟨trivial, fun _ _ => ⟨trivial, fun _ _ => trivial, trivial⟩,
          ⟨trivial, fun _ _ => trivial, trivial⟩⟩
      · exact ⟨trivial, fun _ _ => trivial, trivial⟩

/-- The empty text is no account: an escrow without a provider would pay it. -/
theorem Operation.program_paysOther {op : Operation} (hc : c ≠ "") (hother : op.HiresOther c) :
    op.program.UsesGiven (Action.TellsOther c) (Action.PaysOther c) := by
  cases op with
  | releaseEscrow body => exact usesGiven_forget.mpr (releaseEscrow_paysOther body)
  | completeJob config txId jobId body =>
      exact usesGiven_forget.mpr (completeJob_paysOther config txId jobId body)
  | submitJob ids body =>
      refine paysOther_of_writes (fun _ _ hw => nomatch hw) (fun _ _ => False.elim) ?_
      intro escrowId jobId consumerId providerId locked hw
      cases (hw : EscrowsWrite.insert escrowId jobId consumerId providerId locked = _)
      exact hc.symm
  | lockEscrow escrowId body =>
      refine paysOther_of_writes (fun _ _ hw => nomatch hw) (fun _ _ => False.elim) ?_
      intro escrowId jobId consumerId providerId locked hw
      cases (hw : EscrowsWrite.insert escrowId jobId consumerId providerId locked = _)
      exact hother
  | registerProvider req =>
      refine paysOther_of_writes (fun _ _ => False.elim) ?_ fun _ _ _ _ _ => False.elim
      rintro providerId caps ⟨caps', heq⟩
      cases heq
      exact hother
  | _ =>
      exact paysOther_of_writes (by simp [WritesAccount]) (by simp [WritesProvider])
        (by simp [WritesEscrow])

/-- However requests interleave, lose statements or fail, an account that none of them makes a
provider of earns nothing. -/
theorem totalEarned_unchanged {ops : List Operation} {p : Requests}
    {es : List (Event Action Db Operation)} (hc : c ≠ "") (hs : s.Unpaid c s)
    (hothers : ∀ op ∈ ops, op.HiresOther c)
    (hrun : (Pool.start Operation.program s ops).Runs Action.exec Db.Shuffled (fun _ _ => True)
      es p) : p.store.totalEarned c = s.totalEarned c := by
  have hunpaid : s.Unpaid c p.store := by
    refine hrun.relies (I := s.Unpaid c) (T := Action.TellsOther c) (P := Action.PaysOther c) ?_ ?_
      ?_ hs ?_
    · exact fun q _ a _ hbefore hexec => Action.tellsOther_of_exec hbefore hexec
    · exact fun q _ a _ hbefore hother hexec => Action.exec_unpaid hbefore hother hexec
    · exact fun _ _ hshuffled hbefore => hbefore.shuffled hshuffled
    · intro r hr
      obtain ⟨op, hop, rfl⟩ := List.mem_map.mp hr
      exact op.program_paysOther hc (hothers op hop)
  exact hunpaid.earned

/-! ### Providers go by their keys -/

/-- The providers that the request names are public keys. -/
def Operation.HiresKeys (ed : Crypto.Ed25519) : Operation → Prop
  | registerProvider req => ∃ keypair : Crypto.NmKeypair, req.providerId = keypair.publicKeyHex ed
  | lockEscrow _ body =>
      ∀ providerId ∈ body.providerId,
        ∃ keypair : Crypto.NmKeypair, providerId = keypair.publicKeyHex ed
  | _ => True

theorem utf8ByteSize_publicKeyHex (ed : Crypto.Ed25519) (keypair : Crypto.NmKeypair) :
    (keypair.publicKeyHex ed).utf8ByteSize = 64 := by
  rw [utf8ByteSize_eq, Crypto.NmKeypair.publicKeyHex, Hex.length_utf8_encode, Vector.length_toList]

theorem utf8ByteSize_deriveAccountId (sha256 : Bytes → Vector UInt8 32)
    (pubkeyHex fingerprintHash : String) :
    (Accounts.deriveAccountId sha256 pubkeyHex fingerprintHash).utf8ByteSize = 24 := by
  rw [utf8ByteSize_eq, Accounts.deriveAccountId, Hex.length_utf8_encode, List.length_take,
    Vector.length_toList]
  rfl

/-- A text as long as an account id is no public key. -/
theorem Operation.HiresKeys.hiresOther {ed : Crypto.Ed25519} {op : Operation}
    (hkeys : op.HiresKeys ed) (hsize : c.utf8ByteSize = 24) : op.HiresOther c := by
  have hne : ∀ keypair : Crypto.NmKeypair, keypair.publicKeyHex ed ≠ c := by
    rintro keypair rfl
    rw [utf8ByteSize_publicKeyHex] at hsize
    cases hsize
  cases op with
  | registerProvider req =>
      obtain ⟨keypair, hkeypair⟩ := hkeys
      show req.providerId ≠ c
      rw [hkeypair]
      exact hne keypair
  | lockEscrow escrowId body =>
      show body.providerId.getD "" ≠ c
      cases hprovider : body.providerId with
      | none =>
          rintro rfl
          cases hsize
      | some providerId =>
          obtain ⟨keypair, rfl⟩ := hkeys providerId hprovider
          exact hne keypair
  | _ => trivial

/-- Where providers go by their public keys, no account with a derived id ever earns anything, however
the requests interleave, lose statements or fail. -/
theorem wallets_never_earn (ed : Crypto.Ed25519) (sha256 : Bytes → Vector UInt8 32)
    {ops : List Operation} {p : Requests} {es : List (Event Action Db Operation)}
    (hkeys : ∀ op ∈ ops, op.HiresKeys ed)
    (hrun : (Pool.start Operation.program Db.init ops).Runs Action.exec Db.Shuffled
      (fun _ _ => True) es p) (pubkeyHex fingerprintHash : String) :
    p.store.totalEarned (Accounts.deriveAccountId sha256 pubkeyHex fingerprintHash) = some 0 := by
  have hsize := utf8ByteSize_deriveAccountId sha256 pubkeyHex fingerprintHash
  have hc : Accounts.deriveAccountId sha256 pubkeyHex fingerprintHash ≠ "" := by
    intro hempty
    rw [hempty] at hsize
    cases hsize
  exact totalEarned_unchanged hc
    ⟨Reachable.consistent .refl, rfl, fun _ _ he => (nomatch he), rfl⟩
    (fun op hop => (hkeys op hop).hiresOther hsize) hrun

/-- Keys that are their seeds. -/
def plainEd : Crypto.Ed25519 := ⟨id, fun _ _ => .replicate 64 0, fun _ => true, fun _ _ _ => true⟩

def plainKey : ProviderId := Crypto.NmKeypair.publicKeyHex plainEd ⟨.replicate 32 7⟩

/-- A job is submitted, assigned to a provider that goes by its key, and completed after an hour. -/
def hourForKey : List Operation :=
  [topUp "alice" 10, submitHour "a" "alice" 5, registration plainKey,
    agentHeartbeat plainKey "available", .runAuctionCycle,
    .completeJob ⟨none, false⟩ "earn" "a" ⟨plainKey, 0, "out", 3600⟩]

theorem wallets_never_earn_paid :
    ∃ (p : Requests) (es : List (Event Action Db Operation)),
      (Pool.start Operation.program Db.init hourForKey).Runs Action.exec Db.Shuffled
        (fun _ _ => True) es p ∧
      p.store.totalEarned plainKey = some (23 / 5) ∧
      p.store.totalEarned (Accounts.deriveAccountId (fun _ => .replicate 32 0) plainKey "") =
        some 0 := by
  have hpaid : (afterAll hourForKey Db.init).totalEarned plainKey = some (23 / 5) := by
    decide +kernel
  obtain ⟨es, returned, hturns⟩ := Pool.runs_in_turn Action.exec Db.Shuffled Operation.program
    Db.init [] [] hourForKey
  have hrun : Pool.Runs Action.exec Db.Shuffled (fun _ _ => True) _ es _ :=
    hturns.mono fun _ _ _ => trivial
  have hkeys : ∀ op ∈ hourForKey, op.HiresKeys plainEd := by
    intro op hop
    simp only [hourForKey, List.mem_cons, List.not_mem_nil, or_false] at hop
    rcases hop with rfl | rfl | rfl | rfl | rfl | rfl
    · trivial
    · trivial
    · exact ⟨⟨.replicate 32 7⟩, rfl⟩
    · trivial
    · trivial
    · trivial
  exact ⟨_, es, hrun, hpaid, wallets_never_earn plainEd (fun _ => .replicate 32 0) hkeys hrun
    plainKey ""⟩

end NeuralMesh
