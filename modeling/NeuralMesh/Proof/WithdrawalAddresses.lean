import NeuralMesh.Base.Base58
import NeuralMesh.Base.Cursor
import NeuralMesh.Coordinator.Books
import NeuralMesh.System.Operation

/-!
# Where withdrawals go

A withdrawal is checked for the length of its destination in bytes and for `0x`, and the chain it
names is only logged. Every address of the two chains passes, and so does any other text of a length
that an address may have.
-/

namespace NeuralMesh

open Coordinator Program

/-- `0` to `9`, `a` to `f` and `A` to `F`. -/
def IsHexDigit (c : Char) : Prop := c ∈ "0123456789abcdefABCDEF".toList

instance (c : Char) : Decidable (IsHexDigit c) := inferInstanceAs (Decidable (c ∈ _))

/-- `0x` and 40 hexadecimal digits. -/
def IsArbitrumAddress (text : String) : Prop :=
  ∃ digits, text.toList = '0' :: 'x' :: digits ∧ digits.length = 40 ∧ ∀ c ∈ digits, IsHexDigit c

/-- The base 58 text of 32 bytes. -/
def IsSolanaAddress (text : String) : Prop :=
  ∃ bytes, Base58.decode text = some bytes ∧ bytes.length = 32

/-- The destination is an address of the chain. -/
def Coordinator.WithdrawBody.Payable (body : WithdrawBody) : Prop :=
  body.chain = "arbitrum" ∧ IsArbitrumAddress body.destinationAddress ∨
    body.chain = "solana" ∧ IsSolanaAddress body.destinationAddress

/-- The amount is positive, the destination passes, and the balance covers the amount. -/
structure PassesChecks (body : WithdrawBody) (s : Db) : Prop where
  positive : 0 < body.amountNmc
  accepted : body.isEth ∨ body.isSol
  covered : body.amountNmc ≤ availableOrZero s.creditAccounts body.accountId

/-! ### The check -/

theorem utf8ByteSize_of_ascii {text : String} (hascii : ∀ c ∈ text.toList, c.utf8Size = 1) :
    text.utf8ByteSize = text.toList.length := by
  rw [utf8ByteSize_eq, ← byteLength, byteLength_eq, textWidth, List.map_congr_left hascii,
    List.map_const', List.sum_replicate]
  exact Nat.mul_one _

theorem IsHexDigit.utf8Size {c : Char} (hc : IsHexDigit c) : c.utf8Size = 1 := by
  have hall : ("0123456789abcdefABCDEF".toList.all fun c => decide (c.utf8Size = 1)) = true := by
    decide
  exact of_decide_eq_true (List.all_eq_true.mp hall c hc)

theorem IsArbitrumAddress.isEth {body : WithdrawBody}
    (haddress : IsArbitrumAddress body.destinationAddress) : body.isEth := by
  obtain ⟨digits, htext, hlength, hdigits⟩ := haddress
  have hascii : ∀ c ∈ body.destinationAddress.toList, c.utf8Size = 1 := by
    rw [htext]
    rintro c (_ | ⟨_, _ | ⟨_, hc⟩⟩)
    · rfl
    · rfl
    · exact (hdigits c hc).utf8Size
  rw [WithdrawBody.isEth, decide_eq_true_eq, utf8ByteSize_of_ascii hascii, htext]
  refine ⟨String.startsWith_string_iff.mpr ?_, ?_⟩
  · rw [htext]
    exact List.prefix_append ['0', 'x'] digits
  · rw [List.length_cons, List.length_cons, hlength]

theorem IsSolanaAddress.isSol {body : WithdrawBody}
    (haddress : IsSolanaAddress body.destinationAddress) : body.isSol := by
  obtain ⟨bytes, hdecode, hlength⟩ := haddress
  obtain ⟨halphabet, hlong, hshort⟩ := Base58.length_of_decode hdecode
  have hsize := utf8ByteSize_of_ascii fun c hc => (Base58.mem_alphabet (halphabet c hc)).1
  rw [WithdrawBody.isSol, decide_eq_true_eq, hsize]
  refine ⟨by omega, by omega, fun hprefix => ?_⟩
  obtain ⟨rest, hrest⟩ := String.startsWith_string_iff.mp hprefix
  have hzero : '0' ∈ body.destinationAddress.toList := hrest ▸ List.mem_cons_self
  exact (Base58.mem_alphabet (halphabet '0' hzero)).2 rfl

/-- No withdrawal to an address is turned away for its address. -/
theorem Coordinator.WithdrawBody.Payable.accepted {body : WithdrawBody} (hpayable : body.Payable) :
    body.isEth ∨ body.isSol := by
  rcases hpayable with ⟨-, haddress⟩ | ⟨-, haddress⟩
  · exact .inl haddress.isEth
  · exact .inr haddress.isSol

/-! ### What a withdrawal does -/

section Withdraw

variable {txId : TxId} {body : WithdrawBody} {s : Db}

/-- A withdrawal that fails a check changes nothing. -/
theorem withdraw_of_not_passes (hnot : ¬ PassesChecks body s) :
    (Operation.withdraw txId body).after s = s := by
  have hread := Action.exec_available body.accountId s
  rw [Operation.after, Operation.program, run_forget, Coordinator.withdraw]
  split
  · rfl
  rename_i hpositive
  split
  · rfl
  rename_i haddress
  have haccepted : body.isEth ∨ body.isSol := by
    simpa [or_iff_not_imp_left] using haddress
  rw [run_query_of_some _ hread]
  dsimp only
  split
  · rfl
  rename_i hcovered
  exact absurd ⟨not_le.mp hpositive, haccepted, not_lt.mp hcovered⟩ hnot

/-- One that passes them debits the account. -/
theorem withdraw_of_passes (hpasses : PassesChecks body s) :
    ((Operation.withdraw txId body).after s).creditAccounts =
      s.creditAccounts.update body.accountId (.debit body.amountNmc) := by
  have hread := Action.exec_available body.accountId s
  have haccepted : ¬ (!body.isEth && !body.isSol) = true := by
    rcases hpasses.accepted with heth | hsol
    · simp [heth]
    · simp [hsol]
  have hcovered := not_lt.mpr hpasses.covered
  rw [availableOrZero] at hcovered
  rw [Operation.after, Operation.program, run_forget, Coordinator.withdraw,
    if_neg (not_le.mpr hpasses.positive), if_neg haccepted, run_query_of_some _ hread]
  dsimp only
  rw [if_neg hcovered, run_query_of_some _ rfl, ← updateAccount_all]
  -- the record that follows leaves the accounts as they are
  exact congrArg Books.accounts (run_books_of_uses _ _ (by simp [Uses, Action.SparesBooks]))

theorem availableOrZero_debit {accounts : Table AccountId CreditAccount} {c : AccountId} {amount : ℚ}
    (hpositive : 0 < amount) (hcovered : amount ≤ availableOrZero accounts c) :
    availableOrZero (accounts.update c (.debit amount)) c = availableOrZero accounts c - amount := by
  cases hget : accounts.get? c with
  | none =>
      rw [availableOrZero, hget] at hcovered
      exact absurd hcovered (not_le.mpr hpositive)
  | some a =>
      have hupdated : (accounts.update c (.debit amount)).get? c = some (a.debit amount) := by
        rw [Table.get?_update_self, hget, Option.map_some]
      rw [availableOrZero_of_get? hget] at hcovered ⊢
      rw [availableOrZero_of_get? hupdated]
      cases havailable : a.availableNmc with
      | none =>
          rw [havailable] at hcovered
          exact absurd hcovered (not_le.mpr hpositive)
      | some x => simp [CreditAccount.debit, havailable, nullSub_some]

/-- A withdrawal that passes the checks takes its amount. -/
theorem available_of_passes (hpasses : PassesChecks body s) :
    availableOrZero ((Operation.withdraw txId body).after s).creditAccounts body.accountId =
      availableOrZero s.creditAccounts body.accountId - body.amountNmc := by
  rw [withdraw_of_passes hpasses, availableOrZero_debit hpasses.positive hpasses.covered]

/-- A withdrawal to an address is carried out whenever its amount is covered. -/
theorem available_of_payable (hpayable : body.Payable) (hpositive : 0 < body.amountNmc)
    (hcovered : body.amountNmc ≤ availableOrZero s.creditAccounts body.accountId) :
    availableOrZero ((Operation.withdraw txId body).after s).creditAccounts body.accountId =
      availableOrZero s.creditAccounts body.accountId - body.amountNmc :=
  available_of_passes ⟨hpositive, hpayable.accepted, hcovered⟩

/-- The account pays for addresses of the named chain only, and nothing else changes anything. -/
structure PaysAddressesOnly (txId : TxId) (body : WithdrawBody) (s : Db) : Prop where
  debited : availableOrZero ((Operation.withdraw txId body).after s).creditAccounts body.accountId <
    availableOrZero s.creditAccounts body.accountId → body.Payable
  unchanged : ¬ body.Payable → (Operation.withdraw txId body).after s = s

/-- What is no address of the named chain is paid for exactly when it passes the checks. -/
theorem paysAddressesOnly_iff (txId : TxId) (body : WithdrawBody) (s : Db) :
    PaysAddressesOnly txId body s ↔ body.Payable ∨ ¬ PassesChecks body s := by
  constructor
  · intro hpays
    refine or_iff_not_imp_right.mpr fun hpasses => ?_
    rw [not_not] at hpasses
    refine hpays.debited ?_
    rw [available_of_passes hpasses]
    exact sub_lt_self _ hpasses.positive
  · rintro (hpayable | hnot)
    · exact ⟨fun _ => hpayable, fun hother => absurd hpayable hother⟩
    · have hsame : (Operation.withdraw txId body).after s = s := withdraw_of_not_passes hnot
      refine ⟨fun hless => ?_, fun _ => hsame⟩
      rw [hsame] at hless
      exact absurd hless (lt_irrefl _)

end Withdraw

/-! ### Two destinations that nobody can be paid at -/

/-- Alice has ten credits. -/
def tenCredits : Db :=
  { Db.init with creditAccounts := Table.empty.upsert "alice" ⟨some 10, some 0, some 0, some 0⟩ id }

/-- An address of the other chain. -/
def otherChain : WithdrawBody :=
  ⟨"alice", "0x52908400098527886E0F7030069857D2E4169EE7", 6, "solana"⟩

/-- As long as an address, but without a digit. -/
def noDigits : WithdrawBody :=
  ⟨"alice", "0xzzzzzzzzzzzzzzzzzzzzzzzzzzzzzzzzzzzzzzzz", 6, "arbitrum"⟩

theorem not_payable_otherChain : ¬ otherChain.Payable := by
  rintro (⟨hchain, -⟩ | ⟨-, bytes, hdecode, -⟩)
  · exact absurd hchain (by decide)
  · have hnone : Base58.decode otherChain.destinationAddress = none := by decide +kernel
    rw [hnone] at hdecode
    cases hdecode

theorem not_payable_noDigits : ¬ noDigits.Payable := by
  rintro (⟨-, digits, htext, -, hdigits⟩ | ⟨hchain, -⟩)
  · have hz : 'z' ∈ digits := by
      have htail := congrArg (fun text : List Char => text.drop 2) htext
      rw [← show noDigits.destinationAddress.toList.drop 2 = digits from htail]
      decide
    exact absurd (hdigits 'z' hz) (by decide)
  · exact absurd hchain (by decide)

theorem available_tenCredits : availableOrZero tenCredits.creditAccounts "alice" = 10 := by
  decide +kernel

/-- Both take six of the ten credits. -/
theorem paid_elsewhere :
    (¬ otherChain.Payable ∧
      availableOrZero ((Operation.withdraw "w" otherChain).after tenCredits).creditAccounts "alice" = 4 ∧
      ¬ PaysAddressesOnly "w" otherChain tenCredits) ∧
    ¬ noDigits.Payable ∧
      availableOrZero ((Operation.withdraw "w" noDigits).after tenCredits).creditAccounts "alice" = 4 ∧
      ¬ PaysAddressesOnly "w" noDigits tenCredits := by
  have hother : availableOrZero
      ((Operation.withdraw "w" otherChain).after tenCredits).creditAccounts "alice" = 4 := by
    decide +kernel
  have hdigits : availableOrZero
      ((Operation.withdraw "w" noDigits).after tenCredits).creditAccounts "alice" = 4 := by
    decide +kernel
  refine ⟨⟨not_payable_otherChain, hother, fun hpays => ?_⟩, not_payable_noDigits, hdigits,
    fun hpays => ?_⟩
  · refine not_payable_otherChain (hpays.debited ?_)
    rw [show otherChain.accountId = "alice" from rfl, hother, available_tenCredits]
    norm_num
  · refine not_payable_noDigits (hpays.debited ?_)
    rw [show noDigits.accountId = "alice" from rfl, hdigits, available_tenCredits]
    norm_num

end NeuralMesh
