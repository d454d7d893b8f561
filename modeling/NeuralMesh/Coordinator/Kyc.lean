import NeuralMesh.Base.Cursor
import NeuralMesh.Base.Hex
import NeuralMesh.Base.Http
import NeuralMesh.Store.Schema

/-!
# Who an account belongs to

`submit_kyc` and `get_kyc` of `coordinator/src/api/rest.rs` with the table `kyc_records`, which is
kept beside the database as these two alone use it. The operators who review a record write its level,
its limit, when it was verified, and whether it is archived.
-/

namespace NeuralMesh

/-- A row of `kyc_records`. -/
structure KycRecord where
  fullName : String
  idType : String
  idNumberHash : String
  countryCode : String
  kycLevel : Int
  annualLimitMyr : ℚ
  acknowledgedTerms : Bool
  acknowledgedAt : Option Time
  submittedAt : Time
  verifiedAt : Option Time
  archived : Bool

/-- The database with the table, whose rows refer to accounts. -/
structure KycDb where
  db : Db
  kycRecords : Table AccountId KycRecord
  kycRecords_account : ∀ accountId,
    (kycRecords.get? accountId).isSome → (db.accounts.get? accountId).isSome

/-- `CHECK (id_type IN ('mykad','passport','nric','other'))` -/
def kycIdTypes : List String := ["mykad", "passport", "nric", "other"]

/-- A text in a column of type `CHAR(2)`, filled up with blanks; a longer one is an error. -/
def char2 (text : String) : Option String :=
  if text.length ≤ 2 then
    some (String.ofList (text.toList ++ List.replicate (2 - text.length) ' '))
  else none

/-- The values of an insert. -/
structure KycSubmission where
  accountId : AccountId
  fullName : String
  idType : String
  idHash : String
  countryCode : String

namespace KycSubmission

/-- The row that the column defaults complete. -/
def record (now : Time) (new : KycSubmission) (countryCode : String) : KycRecord where
  fullName := new.fullName
  idType := new.idType
  idNumberHash := new.idHash
  countryCode := countryCode
  kycLevel := 1
  annualLimitMyr := 5000
  acknowledgedTerms := true
  acknowledgedAt := some now
  submittedAt := now
  verifiedAt := none
  archived := false

/-- `ON CONFLICT (account_id) DO UPDATE SET ..` -/
def resubmit (now : Time) (new : KycSubmission) (countryCode : String) (old : KycRecord) :
    KycRecord :=
  { old with
    fullName := new.fullName
    idType := new.idType
    idNumberHash := new.idHash
    countryCode := countryCode
    submittedAt := now
    archived := false }

/-- PostgreSQL takes no text with a NUL, no other type of document and no account it does not have. -/
def Fits (new : KycSubmission) (db : Db) : Prop :=
  '\x00' ∉ (new.accountId ++ new.fullName ++ new.idType ++ new.countryCode).toList ∧
    new.idType ∈ kycIdTypes ∧ (db.accounts.get? new.accountId).isSome

instance (new : KycSubmission) (db : Db) : Decidable (new.Fits db) :=
  inferInstanceAs (Decidable (_ ∧ _ ∧ _))

/-- `INSERT INTO kyc_records .. ON CONFLICT ..` -/
def upsert (new : KycSubmission) (s : KycDb) : Option KycDb :=
  match char2 new.countryCode with
  | none => none
  | some countryCode =>
      if h : new.Fits s.db then
        some
          { s with
            kycRecords := s.kycRecords.upsert new.accountId (new.record s.db.now countryCode)
              (new.resubmit s.db.now countryCode)
            kycRecords_account := by
              intro accountId hsome
              rw [Table.get?_upsert] at hsome
              split at hsome
              · rename_i heq
                rw [heq]
                exact h.2.2
              · exact s.kycRecords_account accountId hsome }
      else none

end KycSubmission

namespace Coordinator

structure KycSubmitBody where
  accountId : AccountId
  fullName : String
  idType : String
  idNumber : String
  country : String

variable (sha256 : Bytes → Vector UInt8 32) (timeText : Time → String)

/-- Answers `none` where the handler panics; the database may be `down`. -/
def submitKyc (down : Bool) (body : KycSubmitBody) (s : KycDb) : Option Reply × KycDb :=
  if body.fullName.isEmpty ∨ body.idNumber.isEmpty ∨ byteLength body.country < 2 then
    (some (.error .badRequest), s)
  else
    -- Hash the ID number before storing (PII protection)
    let idHash := Hex.encode (sha256 (utf8 body.idNumber)).toList
    -- Truncate country to 2 chars
    match sliceTo body.country (min 2 (byteLength body.country)) with
    | none => (none, s)
    | some countryCode =>
        match if down then none else KycSubmission.upsert
            ⟨body.accountId, body.fullName, body.idType, idHash, countryCode⟩ s with
        | none => (some (.error .internalServerError), s)
        | some s' =>
            (some (.json
              [("ok", .bool true),
                ("status", .str "pending"),
                ("compliance_level", .int 1),
                ("annual_limit_myr", .num 5000),
                ("message", .str "KYC submitted — will be reviewed within 1 business day")]), s')

/-- Derive status from verified_at / archived -/
def kycStatus (k : KycRecord) : String :=
  if k.archived then "rejected"
  else if k.verifiedAt.isSome then "approved"
  else "pending"

/-- The limit has two decimals, which a double can tell apart. -/
def getKyc (accountId : AccountId) (s : KycDb) : Reply :=
  match s.kycRecords.get? accountId with
  | some k =>
      .json
        [("account_id", .str accountId),
          ("status", .str (kycStatus k)),
          ("compliance_level", .int k.kycLevel),
          ("full_name", .str k.fullName),
          ("id_type", .str k.idType),
          ("country", .str k.countryCode),
          ("annual_limit_myr", .num k.annualLimitMyr),
          ("submitted_at", .str (timeText k.submittedAt)),
          ("approved_at", .ofOption (fun t => .str (timeText t)) k.verifiedAt)]
  | none =>
      .json
        [("account_id", .str accountId),
          ("status", .str "not_submitted"),
          ("compliance_level", .int 0)]

end Coordinator

end NeuralMesh
