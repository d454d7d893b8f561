import NeuralMesh.Base.PgFormat
import NeuralMesh.Store.Action

/-!
# The deposit trigger

`check_daily_deposit_threshold` of `coordinator/src/db/migrations/003_kyc.sql`, with the `str_flags`
it is meant to write. `NewDeposit.insert` says of an insert whether it is accepted; here is what the
trigger does on the way. Every row is `completed`: the column's default, and no statement changes it.
-/

namespace NeuralMesh

/-- A row of `str_flags`. -/
structure StrFlag where
  accountId : AccountId
  reason : String

/-- The database with its flags. -/
structure FlaggedDb where
  db : Db
  strFlags : List StrFlag

/-- The text of a `NUMERIC` with two decimals. -/
def numericText (x : ℚ) : String :=
  let cents := ⌊|x| * 100⌋.toNat
  let digits := toString (cents % 100)
  (if x < 0 then "-" else "") ++ toString (cents / 100) ++ "." ++ "".pushn '0' (2 - digits.length) ++
    digits

/-- Neither an identifier nor an integer looks like a `NUMERIC`. -/
def numericValues : PgFormat.Values ℚ where
  text
    | .s, x => some (numericText x)
    | .I, x => some ("\"" ++ numericText x ++ "\"")
    | .L, x => some ("'" ++ numericText x ++ "'")
  width _ := none

def thresholdTemplate : String := "Daily deposit total reached RM %.2f (threshold: RM 3,000)"

namespace FlaggedDb

/-- The trigger, after the row is in the table. -/
def checkDailyDepositThreshold (s : FlaggedDb) (new : DepositRecord) : Option FlaggedDb :=
  let dailyTotal := s.db.dailyDeposits new.accountId
  let dailyTotal := dailyTotal + new.amountMyr
  if 3000 ≤ dailyTotal then do
    let reason ← PgFormat.format numericValues thresholdTemplate [dailyTotal]
    return { s with strFlags := s.strFlags ++ [⟨new.accountId, reason⟩] }
  else some s

/-- `INSERT INTO deposit_records`; the constraints and the trigger accept it or abort it. -/
def insertDeposit (s : FlaggedDb) (d : NewDeposit) : Option FlaggedDb := do
  let amountNmc ← d.amountNmc
  let amountMyr ← (← d.amountMyr) |> numeric12_2
  let new : DepositRecord := ⟨d.accountId, amountNmc, amountMyr, s.db.now⟩
  let records ← s.db.depositRecords.insert? d.stripeSessionId new
  if (s.db.accounts.get? d.accountId).isNone then none
  else checkDailyDepositThreshold { s with db := { s.db with depositRecords := records } } new

/-- The same database at another time. -/
def atTime (s : FlaggedDb) (now : Time) : FlaggedDb := { s with db := { s.db with now } }

/-- An insert that is aborted leaves nothing. -/
def afterInsert (s : FlaggedDb) (d : NewDeposit) : FlaggedDb := (s.insertDeposit d).getD s

end FlaggedDb

end NeuralMesh
