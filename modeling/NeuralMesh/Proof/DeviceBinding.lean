import NeuralMesh.Base.Along
import NeuralMesh.Coordinator.Accounts

/-!
# Which request moves a device binding

A row keeps its public key, and its fingerprint moves through `reregister_device` only. That handler
compares the key of the body and the length of `old_device_fingerprint_hash`, never its text.
-/

namespace NeuralMesh.Coordinator.Accounts

variable {sha256 : Bytes → Vector UInt8 32} {timeText : Time → String} {m : Moment} {rows : Rows}

/-- A request and when it arrives. -/
structure Arrival where
  request : AccountRequest
  moment : Moment

variable (sha256 timeText) in
/-- The table after a request. -/
def Arrival.step (rows : Rows) (a : Arrival) : Rows :=
  (a.request.serve sha256 timeText a.moment rows).2

/-- Every row keeps its key, and changes its fingerprint only if the request shows this key and the
fingerprint stored before. -/
def MovesWithProof (rows : Rows) (r : AccountRequest) (rows' : Rows) : Prop :=
  ∀ id row, rows.get? id = some row → ∃ row', rows'.get? id = some row' ∧
    row'.ecdsaPubkeyHex = row.ecdsaPubkeyHex ∧
    (row'.deviceFingerprintHash ≠ row.deviceFingerprintHash →
      ∃ body, r = .reregisterDevice id body ∧ body.ecdsaPubkeyHex = row.ecdsaPubkeyHex ∧
        body.oldDeviceFingerprintHash = row.deviceFingerprintHash)

/-- A request to bind another device that is carried out shows the fingerprint stored so far. -/
def ShowsStored (rows : Rows) (a : Arrival) : Prop :=
  ∀ id body row, a.request = .reregisterDevice id body → body.Accepted a.moment rows id row →
    body.newDeviceFingerprintHash ≠ row.deviceFingerprintHash →
      body.oldDeviceFingerprintHash = row.deviceFingerprintHash

/-- Rows that keep key and fingerprint. -/
theorem MovesWithProof.of_kept {r : AccountRequest} {rows' : Rows}
    (hkept : ∀ id row, rows.get? id = some row → ∃ row', rows'.get? id = some row' ∧
      row'.ecdsaPubkeyHex = row.ecdsaPubkeyHex ∧
      row'.deviceFingerprintHash = row.deviceFingerprintHash) : MovesWithProof rows r rows' := by
  intro id row hrow
  obtain ⟨row', hrow', hkey, hfingerprint⟩ := hkept id row hrow
  exact ⟨row', hrow', hkey, fun hne => absurd hfingerprint hne⟩

theorem MovesWithProof.refl (rows : Rows) (r : AccountRequest) : MovesWithProof rows r rows :=
  .of_kept fun _ row hrow => ⟨row, hrow, rfl, rfl⟩

/-- An update of one row that keeps its key and fingerprint. -/
theorem MovesWithProof.of_update {r : AccountRequest} {accountId : AccountId} {f : Row → Row}
    (hkept : ∀ row, (f row).ecdsaPubkeyHex = row.ecdsaPubkeyHex ∧
      (f row).deviceFingerprintHash = row.deviceFingerprintHash) :
    MovesWithProof rows r (rows.update accountId f) := by
  refine .of_kept fun id row hrow => ?_
  rw [Table.get?_update]
  split
  · rename_i heq
    subst heq
    rw [hrow]
    exact ⟨f row, rfl, hkept row⟩
  · exact ⟨row, hrow, rfl, rfl⟩

theorem registerAccount_moves (body : RegisterAccountBody) :
    MovesWithProof rows (.registerAccount body)
      ((AccountRequest.registerAccount body).serve sha256 timeText m rows).2 := by
  by_cases hvalid : body.Valid
  · rw [(serve_registerAccount sha256 timeText m rows hvalid).2]
    split
    · exact .refl rows _
    · refine .of_kept fun id row hrow => ?_
      obtain ⟨row', hrow', hkey, hfingerprint, -⟩ :=
        get?_upsertRow_of_some m.now (body.accountId sha256) (body.row m.now) hrow
      exact ⟨row', hrow', hkey, hfingerprint⟩
  · rw [serve_registerAccount_of_invalid hvalid]
    exact .refl rows _

theorem verifyDevice_moves (accountId : AccountId) (body : VerifyDeviceBody) :
    MovesWithProof rows (.verifyDevice accountId body)
      ((AccountRequest.verifyDevice accountId body).serve sha256 timeText m rows).2 := by
  rcases serve_verifyDevice accountId body with hsame | htouched
  · rw [hsame]
    exact .refl rows _
  · rw [htouched]
    exact .of_update fun row => ⟨rfl, rfl⟩

/-- Whether another device is bound with proof is whether the request shows the stored fingerprint.
-/
theorem reregisterDevice_moves_iff (accountId : AccountId) (body : ReregisterBody) :
    MovesWithProof rows (.reregisterDevice accountId body)
        ((AccountRequest.reregisterDevice accountId body).serve sha256 timeText m rows).2 ↔
      ∀ row, body.Accepted m rows accountId row →
        body.newDeviceFingerprintHash ≠ row.deviceFingerprintHash →
          body.oldDeviceFingerprintHash = row.deviceFingerprintHash := by
  by_cases haccepted : ∃ row, body.Accepted m rows accountId row
  · obtain ⟨row, haccepted⟩ := haccepted
    rw [(serve_reregisterDevice sha256 timeText haccepted).2]
    constructor
    · intro hmoves row' haccepted' hne
      obtain ⟨moved, hmoved, -, hproof⟩ := hmoves accountId row' haccepted'.found
      rw [Table.get?_update_self, haccepted'.found, Option.map_some, Option.some.injEq] at hmoved
      obtain ⟨body', heq, -, hold⟩ := hproof (hmoved ▸ hne)
      cases heq
      exact hold
    · intro hold id row' hrow'
      rw [Table.get?_update]
      split
      · rename_i heq
        subst heq
        cases hrow'.symm.trans haccepted.found
        rw [haccepted.found]
        exact ⟨_, rfl, rfl, fun hne => ⟨body, rfl, haccepted.key.symm, hold row haccepted hne⟩⟩
      · exact ⟨row', hrow', rfl, fun hne => absurd rfl hne⟩
  · have hnot : ∀ row, ¬ body.Accepted m rows accountId row := fun row haccepts =>
      haccepted ⟨row, haccepts⟩
    rw [serve_reregisterDevice_of_not hnot]
    exact ⟨fun _ row haccepts => absurd haccepts (hnot row), fun _ => .refl rows _⟩

theorem step_moves_iff (rows : Rows) (a : Arrival) :
    MovesWithProof rows a.request (a.step sha256 timeText rows) ↔ ShowsStored rows a := by
  obtain ⟨request, moment⟩ := a
  cases request with
  | registerAccount body =>
      exact ⟨fun _ id body' row heq => (by cases heq), fun _ => registerAccount_moves body⟩
  | verifyDevice accountId body =>
      exact ⟨fun _ id body' row heq => (by cases heq), fun _ => verifyDevice_moves accountId body⟩
  | reregisterDevice accountId body =>
      refine (reregisterDevice_moves_iff accountId body).trans ⟨?_, ?_⟩
      · intro hshows id body' row heq
        cases heq
        exact hshows row
      · intro hshows row
        exact hshows accountId body row rfl

/-- Throughout a run the devices are bound with proof exactly when every request to bind another one
that is carried out shows the fingerprint stored so far. -/
theorem bound_with_proof_iff (sha256 : Bytes → Vector UInt8 32) (timeText : Time → String)
    (rows : Rows) (arrivals : List Arrival) :
    Along (Arrival.step sha256 timeText)
        (fun rows a => MovesWithProof rows a.request (a.step sha256 timeText rows)) rows arrivals ↔
      Along (Arrival.step sha256 timeText) ShowsStored rows arrivals :=
  along_congr step_moves_iff rows arrivals

/-- 64 digits. -/
def digits64 (c : Char) : String := String.ofList (List.replicate 64 c)

/-- Someone who knows the public key of an account binds it to a device, and shows digits that were
never stored. -/
def hijack : Arrival where
  request := .reregisterDevice "a"
    { ecdsaPubkeyHex := "04ab"
      newDeviceFingerprintHash := digits64 'b'
      oldDeviceFingerprintHash := digits64 'c'
      deviceLabel := none }
  moment := ⟨0, fun _ => false⟩

def registered : Row := .fresh 0 "04ab" (digits64 'a') none "macos" none

theorem hijack_accepted :
    hijack.request = .reregisterDevice "a" ⟨"04ab", digits64 'b', digits64 'c', none⟩ ∧
      (ReregisterBody.mk "04ab" (digits64 'b') (digits64 'c') none).Accepted hijack.moment
        (Table.empty.upsert "a" registered id) "a" registered :=
  ⟨rfl, by decide +kernel, by decide +kernel, by decide +kernel, rfl, rfl, rfl, rfl⟩

theorem bound_without_proof :
    ¬ ∀ (sha256 : Bytes → Vector UInt8 32) (timeText : Time → String) (rows : Rows)
      (arrivals : List Arrival),
      Along (Arrival.step sha256 timeText)
        (fun rows a => MovesWithProof rows a.request (a.step sha256 timeText rows)) rows
        arrivals := by
  intro hall
  have hrun := hall (fun _ => Vector.replicate 32 0) (fun _ => "")
    (Table.empty.upsert "a" registered id) [hijack]
  have hshows := ((step_moves_iff _ _).mp hrun.1) "a" _ registered hijack_accepted.1
    hijack_accepted.2 (by decide +kernel)
  exact absurd hshows (by decide +kernel)

end NeuralMesh.Coordinator.Accounts
