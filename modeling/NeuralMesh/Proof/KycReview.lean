import NeuralMesh.Coordinator.Kyc

/-!
# A new submission and the old review

A submission overwrites who an account belongs to, and keeps what the operators decided about whoever
it belonged to before.
-/

namespace NeuralMesh

open Coordinator

variable {sha256 : Bytes → Vector UInt8 32} {timeText : Time → String} {down : Bool}
  {body : KycSubmitBody} {submitted : Reply} {s t : KycDb} {country code stored : String}

/-- The account is reported as the submission has answered, for the person it is about. -/
structure StartsReview (body : KycSubmitBody) (submitted reported : Reply) : Prop where
  answered : ∀ name ∈ ["status", "compliance_level", "annual_limit_myr"],
    reported.body.index name = submitted.body.index name
  pending : submitted.body.index "status" = .str "pending"
  fullName : reported.body.index "full_name" = .str body.fullName
  idType : reported.body.index "id_type" = .str body.idType
  country : reported.body.index "country" = .str (String.ofList (body.country.toList.take 2))
  notApproved : reported.body.index "approved_at" = .null

/-- Nothing was decided about the account so far. -/
def Undecided (accountId : AccountId) (s : KycDb) : Prop :=
  ∀ k ∈ s.kycRecords.get? accountId, k.verifiedAt = none ∧ k.kycLevel = 1 ∧ k.annualLimitMyr = 5000

/-- Two bytes hold two characters, or a blank follows the one that they hold. -/
def TwoCharacters (country : String) : Prop :=
  ∃ first second rest, country.toList = first :: second :: rest ∧
    (first.utf8Size = 1 ∨ second = ' ')

/-! ### The country -/

theorem textWidth_utf8_cons (c : Char) (text : List Char) :
    textWidth Char.utf8Size (c :: text) = c.utf8Size + textWidth Char.utf8Size text := by
  rw [textWidth, List.map_cons, List.sum_cons]
  rfl

/-- The two bytes are one character or two. -/
theorem sliceTo_two (hslice : sliceTo country 2 = some code) :
    (∃ c rest, country.toList = c :: rest ∧ c.utf8Size = 2 ∧ code = String.ofList [c]) ∨
      ∃ first second rest, country.toList = first :: second :: rest ∧ first.utf8Size = 1 ∧
        code = String.ofList [first, second] := by
  obtain ⟨front, hfront, rfl⟩ := Option.map_eq_some_iff.mp hslice
  obtain ⟨⟨rest, hcountry⟩, hwidth⟩ := (takeWidth_eq_some_iff Char.utf8Size_pos).mp hfront
  cases front with
  | nil => cases hwidth
  | cons first front =>
      have hfirst := first.utf8Size_pos
      rw [textWidth_utf8_cons] at hwidth
      cases front with
      | nil => exact .inl ⟨first, rest, hcountry.symm, hwidth, rfl⟩
      | cons second front =>
          have hsecond := second.utf8Size_pos
          rw [textWidth_utf8_cons] at hwidth
          have hend : front = [] :=
            (textWidth_eq_zero Char.utf8Size_pos).mp (by omega)
          subst hend
          exact .inr ⟨first, second, rest, hcountry.symm, by omega, rfl⟩

theorem char2_ofList {text : List Char} (hfits : text.length ≤ 2) :
    char2 (String.ofList text) =
      some (String.ofList (text ++ List.replicate (2 - text.length) ' ')) := by
  rw [char2, String.length_ofList, if_pos hfits, String.toList_ofList]

theorem char2_country (hslice : sliceTo country 2 = some code) (hstored : char2 code = some stored) :
    stored = String.ofList (country.toList.take 2) ↔ TwoCharacters country := by
  rcases sliceTo_two hslice with ⟨c, rest, hcountry, hsize, rfl⟩ |
    ⟨first, second, rest, hcountry, hsize, rfl⟩
  · rw [@char2_ofList [c] (Nat.le_succ 1)] at hstored
    cases hstored
    rw [TwoCharacters, hcountry, String.ofList_inj]
    constructor
    · intro hsame
      cases rest with
      | nil => cases hsame
      | cons second rest =>
          cases hsame
          exact ⟨c, ' ', rest, rfl, .inr rfl⟩
    · rintro ⟨first, second, rest', hsame, hone | hblank⟩
      · cases hsame
        rw [hsize] at hone
        cases hone
      · cases hsame
        rw [hblank]
        rfl
  · rw [@char2_ofList [first, second] (Nat.le_refl 2)] at hstored
    cases hstored
    rw [TwoCharacters, hcountry]
    exact iff_of_true rfl ⟨first, second, rest, rfl, .inl hsize⟩

/-! ### The answer to a submission -/

theorem upsert_stored {new : KycSubmission} (hupsert : new.upsert s = some t) :
    ∃ stored, char2 new.countryCode = some stored ∧
      t.kycRecords = s.kycRecords.upsert new.accountId (new.record s.db.now stored)
        (new.resubmit s.db.now stored) := by
  rw [KycSubmission.upsert] at hupsert
  split at hupsert
  · cases hupsert
  · rename_i stored hstored
    split at hupsert
    · cases hupsert
      exact ⟨stored, hstored, rfl⟩
    · cases hupsert

/-- What a submission that is accepted has stored, and how it was answered. -/
theorem submitKyc_accepted (haccepted : submitKyc sha256 down body s = (some submitted, t))
    (hok : submitted.status = .ok) :
    ∃ code stored idHash, sliceTo body.country 2 = some code ∧ char2 code = some stored ∧
      submitted = .json
        [("ok", .bool true),
          ("status", .str "pending"),
          ("compliance_level", .int 1),
          ("annual_limit_myr", .num 5000),
          ("message", .str "KYC submitted — will be reviewed within 1 business day")] ∧
      t.kycRecords = s.kycRecords.upsert body.accountId
        (KycSubmission.record s.db.now ⟨body.accountId, body.fullName, body.idType, idHash, code⟩ stored)
        (KycSubmission.resubmit s.db.now ⟨body.accountId, body.fullName, body.idType, idHash, code⟩
          stored) := by
  rw [submitKyc] at haccepted
  split at haccepted
  · cases haccepted
    cases hok
  · rename_i hfilled
    rw [not_or, not_or, Nat.not_lt] at hfilled
    rw [Nat.min_eq_left hfilled.2.2] at haccepted
    dsimp only at haccepted
    cases hslice : sliceTo body.country 2 with
    | none =>
        rw [hslice] at haccepted
        cases haccepted
    | some code =>
        rw [hslice] at haccepted
        dsimp only at haccepted
        cases hdown : down with
        | true =>
            rw [hdown] at haccepted
            cases haccepted
            cases hok
        | false =>
            rw [hdown, if_neg Bool.false_ne_true] at haccepted
            split at haccepted
            · cases haccepted
              cases hok
            · rename_i s' hupsert
              cases haccepted
              obtain ⟨stored, hstored, hrecords⟩ := upsert_stored hupsert
              exact ⟨code, stored, _, rfl, hstored, rfl, hrecords⟩

theorem pending_iff {verifiedAt : Option Time} :
    (if verifiedAt.isSome then "approved" else "pending") = "pending" ↔ verifiedAt = none := by
  have hne : "approved" ≠ "pending" := by decide
  cases verifiedAt with
  | none => exact iff_of_true rfl rfl
  | some time => exact iff_of_false hne nofun

/-- What is reported of a row that was submitted anew. -/
theorem startsReview_row {now : Time} {idHash : String} {old : KycRecord}
    (hslice : sliceTo body.country 2 = some code) (hstored : char2 code = some stored)
    (hrow : t.kycRecords.get? body.accountId =
      some (KycSubmission.resubmit now ⟨body.accountId, body.fullName, body.idType, idHash, code⟩ stored
        old)) :
    StartsReview body
      (.json
        [("ok", .bool true),
          ("status", .str "pending"),
          ("compliance_level", .int 1),
          ("annual_limit_myr", .num 5000),
          ("message", .str "KYC submitted — will be reviewed within 1 business day")])
      (getKyc timeText body.accountId t) ↔
        (old.verifiedAt = none ∧ old.kycLevel = 1 ∧ old.annualLimitMyr = 5000) ∧
          TwoCharacters body.country := by
  rw [getKyc, hrow, ← char2_country hslice hstored]
  constructor
  · intro hreview
    have hstatus : Json.str _ = .str "pending" := hreview.answered "status" (by decide)
    have hlevel : Json.int old.kycLevel = .int 1 := hreview.answered "compliance_level" (by decide)
    have hlimit : Json.num old.annualLimitMyr = .num 5000 :=
      hreview.answered "annual_limit_myr" (by decide)
    have hcountry : Json.str stored = .str _ := hreview.country
    refine ⟨⟨pending_iff.mp (Json.str.inj hstatus), ?_, Json.num.inj hlimit⟩, Json.str.inj hcountry⟩
    exact Int.cast_injective (Json.num.inj hlevel)
  · rintro ⟨⟨hverified, hlevel, hlimit⟩, hcountry⟩
    refine ⟨List.forall_mem_cons.mpr ⟨?_, List.forall_mem_cons.mpr ⟨?_, List.forall_mem_singleton.mpr
      ?_⟩⟩, rfl, rfl, rfl, congrArg Json.str hcountry, ?_⟩
    · exact congrArg Json.str (pending_iff.mpr hverified)
    · exact congrArg Json.int hlevel
    · exact congrArg Json.num hlimit
    · show Json.ofOption _ old.verifiedAt = .null
      rw [hverified]
      rfl

/-- A submission that is accepted starts a new review exactly where nothing was decided before, and
the country begins with two characters of which the first is a single byte, or the second a blank. -/
theorem startsReview_iff (timeText : Time → String)
    (haccepted : submitKyc sha256 down body s = (some submitted, t))
    (hok : submitted.status = .ok) :
    StartsReview body submitted (getKyc timeText body.accountId t) ↔
      Undecided body.accountId s ∧ TwoCharacters body.country := by
  obtain ⟨code, stored, idHash, hslice, hstored, rfl, hrecords⟩ := submitKyc_accepted haccepted hok
  have hrow := Table.get?_upsert s.kycRecords body.accountId body.accountId
    (KycSubmission.record s.db.now ⟨body.accountId, body.fullName, body.idType, idHash, code⟩ stored)
    (KycSubmission.resubmit s.db.now ⟨body.accountId, body.fullName, body.idType, idHash, code⟩ stored)
  rw [← hrecords, if_pos rfl] at hrow
  cases hold : s.kycRecords.get? body.accountId with
  | none =>
      -- a new row is what a row without a decision would have become
      rw [hold, Option.map_none, Option.getD_none] at hrow
      have hundecided : Undecided body.accountId s := fun k hk => nomatch hold.symm.trans hk
      have hsame : t.kycRecords.get? body.accountId = some (KycSubmission.resubmit s.db.now
          ⟨body.accountId, body.fullName, body.idType, idHash, code⟩ stored
          (KycSubmission.record s.db.now
            ⟨body.accountId, body.fullName, body.idType, idHash, code⟩ stored)) := hrow
      rw [and_iff_right hundecided, startsReview_row hslice hstored hsame]
      exact and_iff_right ⟨rfl, rfl, rfl⟩
  | some old =>
      rw [hold, Option.map_some, Option.getD_some] at hrow
      rw [startsReview_row hslice hstored hrow, Undecided, hold]
      refine and_congr_left fun _ => ⟨fun hdecided k hk => ?_, fun hall => hall old rfl⟩
      cases hk
      exact hdecided

/-! ### Two persons on one account -/

def plainSha256 (_ : Bytes) : Vector UInt8 32 := .replicate 32 0

/-- The operators have verified whoever the account belongs to. -/
def verifiedRecord : KycRecord where
  fullName := "Aminah binti Yusof"
  idType := "mykad"
  idNumberHash := "0"
  countryCode := "MY"
  kycLevel := 2
  annualLimitMyr := 50000
  acknowledgedTerms := true
  acknowledgedAt := some 0
  submittedAt := 0
  verifiedAt := some 1
  archived := false

/-- One account, with this record or none. -/
def oneAccount (record : Option KycRecord) : KycDb where
  db := { Db.init with accounts := Table.empty.upsert "acc" ⟨"04"⟩ id }
  kycRecords := record.elim .empty fun k => Table.empty.upsert "acc" k id
  kycRecords_account := by
    intro accountId hsome
    cases record with
    | none => cases hsome
    | some k =>
        rw [Option.elim_some, Table.get?_upsert] at hsome
        rw [Table.get?_upsert]
        split
        · rfl
        · rename_i hne
          rw [if_neg hne] at hsome
          cases hsome

def passportBody : KycSubmitBody := ⟨"acc", "Robert Lee", "passport", "E1234567", "SG"⟩

theorem startsReview_first :
    ∃ submitted t, submitKyc plainSha256 false passportBody (oneAccount none) = (some submitted, t) ∧
      submitted.status = .ok ∧
      (StartsReview passportBody submitted (getKyc (fun _ => "") passportBody.accountId t) ↔
        Undecided passportBody.accountId (oneAccount none) ∧ TwoCharacters passportBody.country) := by
  have hstatus : (submitKyc plainSha256 false passportBody (oneAccount none)).1.map (·.status) =
      some .ok := by decide +kernel
  obtain ⟨submitted, hsubmitted, hok⟩ := Option.map_eq_some_iff.mp hstatus
  have haccepted : submitKyc plainSha256 false passportBody (oneAccount none) =
      (some submitted, (submitKyc plainSha256 false passportBody (oneAccount none)).2) :=
    Prod.ext hsubmitted rfl
  exact ⟨submitted, _, haccepted, hok, startsReview_iff (fun _ => "") haccepted hok⟩

/-- The second person is reported as approved, with the level and the limit of the first. -/
theorem approval_inherited :
    ∃ submitted t,
      submitKyc plainSha256 false passportBody (oneAccount (some verifiedRecord)) =
        (some submitted, t) ∧
      submitted.status = .ok ∧
      ¬StartsReview passportBody submitted (getKyc (fun _ => "") passportBody.accountId t) ∧
      ((getKyc (fun _ => "") passportBody.accountId t).body.index "full_name").asStr =
        some "Robert Lee" ∧
      ((getKyc (fun _ => "") passportBody.accountId t).body.index "status").asStr =
        some "approved" ∧
      ((getKyc (fun _ => "") passportBody.accountId t).body.index "compliance_level").asNum =
        some 2 ∧
      ((getKyc (fun _ => "") passportBody.accountId t).body.index "annual_limit_myr").asNum =
        some 50000 := by
  have hstatus : (submitKyc plainSha256 false passportBody
      (oneAccount (some verifiedRecord))).1.map (·.status) = some .ok := by decide +kernel
  have hreported : ((getKyc (fun _ => "") passportBody.accountId (submitKyc plainSha256 false
      passportBody (oneAccount (some verifiedRecord))).2).body.index "status").asStr =
        some "approved" := by decide +kernel
  obtain ⟨submitted, hsubmitted, hok⟩ := Option.map_eq_some_iff.mp hstatus
  refine ⟨submitted, _, Prod.ext hsubmitted rfl, hok, fun hreview => ?_, ?_, hreported, ?_, ?_⟩
  · rw [hreview.answered "status" (by decide), hreview.pending] at hreported
    exact absurd hreported (by decide)
  · decide +kernel
  · decide +kernel
  · decide +kernel

end NeuralMesh
