import NeuralMesh.Coordinator.Kyc
import NeuralMesh.Coordinator.Logs
import NeuralMesh.System.LogChanges

/-!
# Texts that are cut at bytes

`get_job_logs` cuts the output of a job at the position a client names, and `submit_kyc` a country
after two bytes. Both compare the position with the length in bytes, so that they panic where it lies
inside a character.
-/

namespace NeuralMesh.Coordinator

/-- The position is at the end of the text or after it, or between two characters of it. -/
def Cuts (position : Nat) (text : String) : Prop :=
  byteLength text ≤ position ∨ IsBoundary Char.utf8Size position text.toList

theorem sliceFrom_isSome_iff {text : String} {offset : Nat} :
    (if offset < byteLength text then sliceFrom text offset else some "").isSome ↔
      Cuts offset text := by
  by_cases hinside : offset < byteLength text
  · rw [if_pos hinside, sliceFrom, Option.isSome_map, dropWidth_isSome_iff Char.utf8Size_pos]
    exact (or_iff_right (not_le.mpr hinside)).symm
  · rw [if_neg hinside]
    exact iff_of_true rfl (.inl (not_lt.mp hinside))

theorem isBoundary_byteLength (text : String) :
    IsBoundary Char.utf8Size (byteLength text) text.toList :=
  ⟨text.toList, List.prefix_rfl, (byteLength_eq text).symm⟩

theorem sliceTo_isSome_iff {text : String} {stop : Nat} :
    (sliceTo text (min stop (byteLength text))).isSome ↔ Cuts stop text := by
  rw [sliceTo, Option.isSome_map, takeWidth_isSome_iff Char.utf8Size_pos]
  by_cases hlong : byteLength text ≤ stop
  · rw [Nat.min_eq_right hlong]
    exact iff_of_true (isBoundary_byteLength text) (.inl hlong)
  · rw [Nat.min_eq_left (Nat.le_of_not_le hlong)]
    exact (or_iff_right hlong).symm

/-- A poll is answered where the output can be cut at its position. -/
theorem getJobLogs_isSome_iff (jobId : JobId) (offset : Option Nat) (logs : LogDb) :
    (getJobLogs jobId offset logs).isSome ↔ Cuts (offset.getD 0) (logs.fullLog jobId) := by
  cases hjob : logs.db.jobs.get? jobId with
  | none =>
      rw [getJobLogs_of_none offset hjob, LogDb.fullLog_of_none hjob]
      exact iff_of_true rfl (.inl (Nat.zero_le _))
  | some job =>
      have hsame : getJobLogs jobId offset logs = getJobLogs jobId (some (offset.getD 0)) logs := by
        cases offset <;> rfl
      rw [hsame, getJobLogs_of_job _ hjob, Option.isSome_map, ← Option.isSome_map (f := String.ofList),
        ← sliceFrom_eq]
      exact sliceFrom_isSome_iff

/-- A submission is answered where something is missing from it, or its country can be cut after two
bytes. -/
theorem submitKyc_isSome_iff (sha256 : Bytes → Vector UInt8 32) (down : Bool) (body : KycSubmitBody)
    (kyc : KycDb) :
    (submitKyc sha256 down body kyc).1.isSome ↔
      body.fullName.isEmpty ∨ body.idNumber.isEmpty ∨ Cuts 2 body.country := by
  by_cases hmissing : body.fullName.isEmpty ∨ body.idNumber.isEmpty ∨ byteLength body.country < 2
  · rw [submitKyc, if_pos hmissing]
    refine iff_of_true rfl ?_
    rcases hmissing with hname | hnumber | hshort
    · exact .inl hname
    · exact .inr (.inl hnumber)
    · exact .inr (.inr (.inl hshort.le))
  · rw [not_or, not_or] at hmissing
    rw [or_iff_right hmissing.1, or_iff_right hmissing.2.1, ← sliceTo_isSome_iff, submitKyc,
      if_neg fun hagain => hagain.elim hmissing.1 fun hrest => hrest.elim hmissing.2.1 hmissing.2.2]
    dsimp only
    cases hcountry : sliceTo body.country (min 2 (byteLength body.country)) with
    | none => exact iff_of_false Bool.false_ne_true Bool.false_ne_true
    | some countryCode =>
        refine iff_of_true ?_ rfl
        dsimp only
        split <;> rfl

/-- The two handlers answer every request, whatever the database says, but for those that have a
text cut inside a character. -/
theorem answered_iff (jobId : JobId) (offset : Option Nat) (logs : LogDb)
    (sha256 : Bytes → Vector UInt8 32) (down : Bool) (body : KycSubmitBody) (kyc : KycDb) :
    ((getJobLogs jobId offset logs).isSome ↔ Cuts (offset.getD 0) (logs.fullLog jobId)) ∧
      ((submitKyc sha256 down body kyc).1.isSome ↔
        body.fullName.isEmpty ∨ body.idNumber.isEmpty ∨ Cuts 2 body.country) :=
  ⟨getJobLogs_isSome_iff jobId offset logs, submitKyc_isSome_iff sha256 down body kyc⟩

/-! ### Characters of two and of three bytes -/

/-- The only output is one character of two bytes. -/
def accentedLog : LogDb := quietJob.append "a" "é"

def euroBody : KycSubmitBody := ⟨"acc", "Robert Lee", "passport", "E1234567", "€"⟩

/-- Neither a poll from inside a character nor a country that begins with a longer one is answered. -/
theorem not_answered_inside :
    getJobLogs "a" (some 1) accentedLog = none ∧
      (submitKyc (fun _ => .replicate 32 0) false euroBody
        ⟨Db.init, .empty, fun _ hsome => by cases hsome⟩).1 = none := by
  refine ⟨?_, ?_⟩ <;> decide +kernel

end NeuralMesh.Coordinator
