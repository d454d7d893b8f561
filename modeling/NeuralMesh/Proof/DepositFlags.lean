import NeuralMesh.Store.DepositTrigger
import NeuralMesh.System.Operation

/-!
# Which deposits are flagged

A deposit that brings an account to RM 3,000 in 24 hours is meant to be recorded and flagged. The
trigger counts the new row twice, and the message of the flag is an error of `format`: no deposit is
ever flagged, and the insert that should flag one is aborted.
-/

namespace NeuralMesh

/-- The amount as the column holds it. -/
def NewDeposit.amount (d : NewDeposit) : Option ℚ := d.amountMyr.bind numeric12_2

namespace FlaggedDb

variable {s t : FlaggedDb} {d : NewDeposit}

/-- The constraints of the table accept the row. -/
def Admits (s : FlaggedDb) (d : NewDeposit) : Prop :=
  d.amountNmc.isSome ∧ d.amount.isSome ∧ s.db.depositRecords.get? d.stripeSessionId = none ∧
    (s.db.accounts.get? d.accountId).isSome

/-- The account's deposits of the last 24 hours, with the new one. -/
def total (s : FlaggedDb) (d : NewDeposit) : ℚ :=
  s.db.dailyDeposits d.accountId + d.amount.getD 0

/-- The insert is accepted, and adds a flag of the account exactly when its deposits reach the
threshold. -/
def FlagsExactly (s : FlaggedDb) (d : NewDeposit) : Prop :=
  ∃ t, s.insertDeposit d = some t ∧
    ((∃ reason, t.strFlags = s.strFlags ++ [⟨d.accountId, reason⟩]) ↔ 3000 ≤ s.total d)

/-- The row is admitted, and the deposits are below the threshold, also with the new one counted
again. -/
def StaysBelow (s : FlaggedDb) (d : NewDeposit) : Prop :=
  s.Admits d ∧ s.total d < 3000 ∧ s.total d + d.amount.getD 0 < 3000

/-- `P` holds of every insert of the sequence, in the database and at the time it meets. -/
def Throughout (P : FlaggedDb → NewDeposit → Prop) : FlaggedDb → List (Time × NewDeposit) → Prop
  | _, [] => True
  | s, (now, d) :: rest => P (s.atTime now) d ∧ Throughout P ((s.atTime now).afterInsert d) rest

theorem Throughout.congr {P P' : FlaggedDb → NewDeposit → Prop} (hiff : ∀ s d, P s d ↔ P' s d)
    (s : FlaggedDb) (inserts : List (Time × NewDeposit)) :
    Throughout P s inserts ↔ Throughout P' s inserts := by
  induction inserts generalizing s with
  | nil => rfl
  | cons insert rest ih =>
      obtain ⟨now, d⟩ := insert
      rw [Throughout, Throughout, hiff, ih]

/-! ### The trigger -/

/-- `%.` begins no specifier. -/
theorem format_threshold (dailyTotal : ℚ) :
    PgFormat.format numericValues thresholdTemplate [dailyTotal] = none := by
  apply PgFormat.format_eq_none numericValues [dailyTotal] "Daily deposit total reached RM ".toList
    "2f (threshold: RM 3,000)".toList (c := '.')
  · decide +kernel
  · decide +kernel
  · exact ⟨by decide, by decide, by decide, by decide, rfl⟩

theorem checkDailyDepositThreshold_eq (s : FlaggedDb) (new : DepositRecord) :
    s.checkDailyDepositThreshold new =
      if 3000 ≤ s.db.dailyDeposits new.accountId + new.amountMyr then none else some s := by
  rw [checkDailyDepositThreshold, format_threshold]
  rfl

/-- The trigger sees the new row. -/
theorem dailyDeposits_insert {db : Db} {sessionId : String} {amountNmc amountMyr : ℚ}
    {accountId : AccountId} {records : Table String DepositRecord}
    (hinsert : db.depositRecords.insert? sessionId ⟨accountId, amountNmc, amountMyr, db.now⟩ =
      some records) :
    ({ db with depositRecords := records } : Db).dailyDeposits accountId =
      db.dailyDeposits accountId + amountMyr := by
  have hrecent : db.now ≤ db.now + seconds 86400 := Nat.le_add_right _ _
  rw [Db.dailyDeposits, Table.sum_of_insert? hinsert, if_pos ⟨rfl, hrecent⟩]
  rfl

/-- Where the constraints admit the row, the trigger decides; it never adds a flag. -/
theorem insertDeposit_eq (hadmits : s.Admits d) :
    ∃ t, t.strFlags = s.strFlags ∧
      s.insertDeposit d = if 3000 ≤ s.total d + d.amount.getD 0 then none else some t := by
  obtain ⟨hnmc, hamount, hsession, haccount⟩ := hadmits
  obtain ⟨amountNmc, hnmc⟩ := Option.isSome_iff_exists.mp hnmc
  obtain ⟨amountMyr, hamount⟩ := Option.isSome_iff_exists.mp hamount
  obtain ⟨x, hx, hround⟩ := Option.bind_eq_some_iff.mp hamount
  obtain ⟨records, hinsert⟩ : ∃ records, s.db.depositRecords.insert? d.stripeSessionId
      ⟨d.accountId, amountNmc, amountMyr, s.db.now⟩ = some records := by
    rw [← Option.ne_none_iff_exists', Ne, Table.insert?_eq_none_iff]
    exact not_not_intro hsession
  have hpresent : ¬ (s.db.accounts.get? d.accountId).isNone := by
    simpa [Option.isSome_iff_ne_none] using haccount
  refine ⟨{ s with db := { s.db with depositRecords := records } }, rfl, ?_⟩
  rw [insertDeposit, hnmc, hx]
  simp only [Option.bind_eq_bind, Option.bind_some, hround, hinsert, if_neg hpresent]
  rw [checkDailyDepositThreshold_eq, dailyDeposits_insert hinsert, total, hamount, Option.getD_some]

theorem admits_of_insertDeposit (hinsert : s.insertDeposit d = some t) : s.Admits d := by
  rw [insertDeposit] at hinsert
  obtain ⟨amountNmc, hnmc, hinsert⟩ := Option.bind_eq_some_iff.mp hinsert
  obtain ⟨x, hx, hinsert⟩ := Option.bind_eq_some_iff.mp hinsert
  obtain ⟨amountMyr, hround, hinsert⟩ := Option.bind_eq_some_iff.mp hinsert
  obtain ⟨records, hrecords, hinsert⟩ := Option.bind_eq_some_iff.mp hinsert
  refine ⟨?_, ?_, (Table.rows_of_insert? hrecords).1, ?_⟩
  · rw [hnmc, Option.isSome_some]
  · rw [NewDeposit.amount, hx, Option.bind_some, hround, Option.isSome_some]
  · split at hinsert
    · cases hinsert
    · rename_i hpresent
      simpa [Option.isSome_iff_ne_none] using hpresent

/-- The same inserts as in the database without flags. -/
theorem insertDeposit_records (s : FlaggedDb) (d : NewDeposit) :
    (s.insertDeposit d).map (fun t => t.db.depositRecords) = d.insert s.db := by
  rw [insertDeposit, NewDeposit.insert]
  cases d.amountNmc with
  | none => rfl
  | some amountNmc =>
      cases hx : d.amountMyr with
      | none => rfl
      | some x =>
          simp only [Option.bind_eq_bind, Option.bind_some]
          cases numeric12_2 x with
          | none => rfl
          | some amountMyr =>
              simp only [Option.bind_some]
              cases s.db.depositRecords.insert? d.stripeSessionId
                  ⟨d.accountId, amountNmc, amountMyr, s.db.now⟩ with
              | none => rfl
              | some records =>
                  simp only [Option.bind_some, checkDailyDepositThreshold_eq]
                  split
                  · rfl
                  split <;> rfl

/-! ### Sequences of inserts -/

theorem flagsExactly_iff (s : FlaggedDb) (d : NewDeposit) : s.FlagsExactly d ↔ s.StaysBelow d := by
  constructor
  · rintro ⟨t, hinsert, hflag⟩
    have hadmits := admits_of_insertDeposit hinsert
    obtain ⟨t', hsame, heq⟩ := insertDeposit_eq hadmits
    rw [heq] at hinsert
    split at hinsert
    · cases hinsert
    rename_i hbelow
    cases hinsert
    refine ⟨hadmits, ?_, not_le.mp hbelow⟩
    by_contra hreached
    obtain ⟨reason, hadded⟩ := hflag.mpr (not_lt.mp hreached)
    rw [hsame, List.self_eq_append_right] at hadded
    cases hadded
  · rintro ⟨hadmits, hbelow, hagain⟩
    obtain ⟨t, hsame, heq⟩ := insertDeposit_eq hadmits
    refine ⟨t, heq.trans (if_neg (not_le.mpr hagain)), iff_of_false ?_ (not_le.mpr hbelow)⟩
    rintro ⟨reason, hadded⟩
    rw [hsame, List.self_eq_append_right] at hadded
    cases hadded

end FlaggedDb

/-! ### Half the threshold -/

/-- The database in which alice has an account. -/
def registered : FlaggedDb where
  db := (Operation.registerAccount "alice"
    ⟨"02aa", "e3b0c44298fc1c149afbf4c8996fb92427ae41e4649b934ca495991b7852b855"⟩).after Db.init
  strFlags := []

def depositOf (amountMyr : ℚ) : NewDeposit := ⟨"alice", "cs_1", some 100, some amountMyr⟩

end NeuralMesh
