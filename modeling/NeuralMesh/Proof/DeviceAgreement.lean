import NeuralMesh.Base.Along
import NeuralMesh.Dashboard.DeviceId

/-!
# The browser and its account

The coordinator keeps an account under the id of its first fingerprint, and the browser keeps this
id. When the account is gone and the fingerprint has changed, the fallback of `reRegisterDevice`
opens an account under another id, which the browser never learns.
-/

namespace NeuralMesh.Dashboard

open Coordinator.Accounts (Row Rows Moment AccountRequest HasKey RegisterAccountBody ReregisterBody)

/-- A browser, the identity it keeps, and the accounts of the coordinator. -/
structure Browser where
  signals : Signals
  identity : Option DeviceIdentity
  rows : Rows

/-- A call, or a change around the browser. -/
inductive Event where
  | change (signals : Signals)
  | emptied
  | createIdentity (spki : Spki) (userAgent : String) (deviceLabel : Option String) (d : Dispatch)
  | verifyDevice (d : Dispatch)
  | reRegisterDevice (d fallback : Dispatch)

section

variable (sha256 : Bytes → Vector UInt8 32) (timeText : Time → String)

/-- The registration a call makes; without an identity there is no call. -/
def Event.registration (b : Browser) : Event → Option Registration
  | createIdentity spki userAgent deviceLabel d =>
      some (Dashboard.createIdentity sha256 timeText spki userAgent deviceLabel b.signals d b.rows)
  | reRegisterDevice d fallback =>
      b.identity.map fun identity =>
        Dashboard.reRegisterDevice sha256 timeText identity b.signals d fallback b.rows
  | _ => none

def Browser.step (b : Browser) : Event → Browser
  | .change signals => { b with signals }
  | .emptied => { b with rows := .empty }
  | .verifyDevice d =>
      match b.identity with
      | some identity =>
          { b with rows := (Dashboard.verifyDevice sha256 timeText identity b.signals d b.rows).2 }
      | none => b
  | e =>
      match e.registration sha256 timeText b with
      | some r => { b with identity := some r.identity, rows := r.rows }
      | none => b

/-- A new key is in no row, and neither is the id derived from it. -/
def NewKey (b : Browser) : Event → Prop
  | .createIdentity spki _ _ _ =>
      ¬ HasKey b.rows (exportPublicKeyHex spki) ∧
        b.rows.get? (deriveAccountId sha256 (exportPublicKeyHex spki)
          (computeDeviceFingerprint sha256 b.signals)) = none
  | _ => True

/-- A device check that reaches the coordinator now succeeds. -/
def Browser.InStep (b : Browser) : Prop :=
  ∃ identity ∈ b.identity, ∀ now,
    (Dashboard.verifyDevice sha256 timeText identity b.signals ⟨.answered, now, fun _ => false⟩
      b.rows).1.verified = .bool true

/-- Every request of the call was answered with a 2xx or 404 status. -/
def Registration.Answered (r : Registration) : Prop :=
  ∀ reply ∈ r.replies, ∃ res ∈ reply, res.status = .ok ∨ res.status = .notFound

/-- The account of the browser is there; or its key is not, and the fingerprint is the one its id was
derived from. -/
def Recovers (b : Browser) : Event → Prop
  | .reRegisterDevice _ _ => ∀ identity ∈ b.identity,
      b.rows.get? identity.accountId ≠ none ∨
        ¬ HasKey b.rows identity.ecdsaPubkeyHex ∧
          deriveAccountId sha256 identity.ecdsaPubkeyHex
            (computeDeviceFingerprint sha256 b.signals) = identity.accountId
  | _ => True

end

variable {sha256 : Bytes → Vector UInt8 32} {timeText : Time → String} {rows : Rows}
  {identity : DeviceIdentity} {s : Signals}

namespace Browser

variable (signals : Signals) (kept : Option DeviceIdentity)

@[simp] theorem step_change (signals' : Signals) :
    (Browser.mk signals kept rows).step sha256 timeText (.change signals') =
      ⟨signals', kept, rows⟩ := rfl

@[simp] theorem step_emptied :
    (Browser.mk signals kept rows).step sha256 timeText .emptied = ⟨signals, kept, .empty⟩ := rfl

@[simp] theorem step_createIdentity (spki : Spki) (userAgent : String)
    (deviceLabel : Option String) (d : Dispatch) :
    (Browser.mk signals kept rows).step sha256 timeText
        (.createIdentity spki userAgent deviceLabel d) =
      let r := createIdentity sha256 timeText spki userAgent deviceLabel signals d rows
      ⟨signals, some r.identity, r.rows⟩ := rfl

@[simp] theorem step_reRegisterDevice (d fallback : Dispatch) :
    (Browser.mk signals (some identity) rows).step sha256 timeText (.reRegisterDevice d fallback) =
      let r := reRegisterDevice sha256 timeText identity signals d fallback rows
      ⟨signals, some r.identity, r.rows⟩ := rfl

theorem registration_reRegisterDevice (d fallback : Dispatch) :
    Event.registration sha256 timeText (Browser.mk signals (some identity) rows)
        (.reRegisterDevice d fallback) =
      some (reRegisterDevice sha256 timeText identity signals d fallback rows) := rfl

end Browser

/-! ### What holds of an identity -/

/-- The row under the id of the identity, if there is one, is active and has its key. -/
structure Owns (identity : DeviceIdentity) (rows : Rows) : Prop where
  fingerprint : identity.deviceFingerprintHash.utf8ByteSize = 64
  pubkey : identity.ecdsaPubkeyHex.isEmpty = false
  row : ∀ row, rows.get? identity.accountId = some row →
    row.ecdsaPubkeyHex = identity.ecdsaPubkeyHex ∧ row.active = some true

namespace Owns

/-- A table whose rows keep their keys, and stay active. -/
theorem of_kept (howns : Owns identity rows) {rows' : Rows}
    (hkept : ∀ row', rows'.get? identity.accountId = some row' →
      ∃ row, rows.get? identity.accountId = some row ∧
        row'.ecdsaPubkeyHex = row.ecdsaPubkeyHex ∧ row'.active = row.active) :
    Owns identity rows' := by
  refine ⟨howns.fingerprint, howns.pubkey, fun row' hrow' => ?_⟩
  obtain ⟨row, hrow, hkey, hactive⟩ := hkept row' hrow'
  obtain ⟨hkey', hactive'⟩ := howns.row row hrow
  exact ⟨hkey.trans hkey', hactive.trans hactive'⟩

theorem of_update (howns : Owns identity rows) (accountId : AccountId) {f : Row → Row}
    (hkept : ∀ row, (f row).ecdsaPubkeyHex = row.ecdsaPubkeyHex ∧ (f row).active = row.active) :
    Owns identity (rows.update accountId f) := by
  refine howns.of_kept fun row' hrow' => ?_
  rcases Table.get?_update_cases hrow' with ⟨row, hid, hrow, rfl⟩ | ⟨-, hold⟩
  · exact ⟨row, hid ▸ hrow, hkept row⟩
  · exact ⟨row', hold, rfl, rfl⟩

/-- An upsert of a row with the key of the identity. -/
theorem of_upsertRow (howns : Owns identity rows) (now : Time) (accountId : AccountId) {new : Row}
    (hkey : new.ecdsaPubkeyHex = identity.ecdsaPubkeyHex) (hactive : new.active = some true) :
    Owns identity (Coordinator.Accounts.upsertRow rows now accountId new).2 := by
  refine ⟨howns.fingerprint, howns.pubkey, fun row' hrow' => ?_⟩
  rcases Coordinator.Accounts.get?_upsertRow_cases hrow' with ⟨row, hrow, hkept⟩ | ⟨-, rfl⟩
  · obtain ⟨hkey', hactive'⟩ := howns.row row hrow
    exact ⟨hkept.1.trans hkey', hkept.2.trans hactive'⟩
  · exact ⟨hkey, hactive⟩

/-- Of the registrations, only those with the key of the identity are made by this browser. -/
theorem of_serve (howns : Owns identity rows) {r : AccountRequest} (m : Moment)
    (hkey : ∀ body, r = .registerAccount body →
      body.ecdsaPubkeyHex = identity.ecdsaPubkeyHex) :
    Owns identity (r.serve sha256 timeText m rows).2 := by
  cases r with
  | registerAccount body =>
      by_cases hvalid : body.Valid
      · rw [(Coordinator.Accounts.serve_registerAccount sha256 timeText m rows hvalid).2]
        split
        · exact howns
        · exact howns.of_upsertRow _ _ (hkey body rfl) rfl
      · rw [Coordinator.Accounts.serve_registerAccount_of_invalid hvalid]
        exact howns
  | verifyDevice accountId body =>
      rcases Coordinator.Accounts.serve_verifyDevice accountId body with hsame | htouched
      · rw [hsame]
        exact howns
      · rw [htouched]
        exact howns.of_update accountId fun row => ⟨rfl, rfl⟩
  | reregisterDevice accountId body =>
      by_cases haccepted : ∃ row, body.Accepted m rows accountId row
      · obtain ⟨row, haccepted⟩ := haccepted
        rw [(Coordinator.Accounts.serve_reregisterDevice sha256 timeText haccepted).2]
        exact howns.of_update accountId fun row => ⟨rfl, rfl⟩
      · rw [Coordinator.Accounts.serve_reregisterDevice_of_not fun row haccepts =>
          haccepted ⟨row, haccepts⟩]
        exact howns

variable (sha256 timeText) in
theorem of_fetch (howns : Owns identity rows) {r : AccountRequest} (d : Dispatch)
    (hkey : ∀ body, r = .registerAccount body →
      body.ecdsaPubkeyHex = identity.ecdsaPubkeyHex) :
    Owns identity (fetch sha256 timeText r d rows).2 := by
  rw [fetch]
  split
  · exact howns.of_serve _ hkey
  · exact howns
  · exact howns.of_serve _ hkey

/-- The identity after the fingerprint has changed. -/
theorem rebound (howns : Owns identity rows) (s : Signals) :
    Owns (identity.withFingerprint (computeDeviceFingerprint sha256 s)) rows :=
  ⟨utf8ByteSize_hexDigest _, howns.pubkey, howns.row⟩

theorem of_verifyDevice (howns : Owns identity rows) (s : Signals) (d : Dispatch) :
    Owns identity (verifyDevice sha256 timeText identity s d rows).2 := by
  have hfetched := howns.of_fetch sha256 timeText d
    (r := .verifyDevice identity.accountId
      ⟨computeDeviceFingerprint sha256 s, identity.ecdsaPubkeyHex⟩) fun body heq => by cases heq
  rw [verifyDevice]
  split
  · exact howns
  · dsimp only
    split
    · split <;> exact hfetched
    · exact hfetched

theorem of_reRegisterDevice (howns : Owns identity rows) (s : Signals) (d fallback : Dispatch) :
    Owns (reRegisterDevice sha256 timeText identity s d fallback rows).identity
      (reRegisterDevice sha256 timeText identity s d fallback rows).rows := by
  have hfetched := howns.of_fetch sha256 timeText d
    (r := .reregisterDevice identity.accountId
      (identity.rebinding (computeDeviceFingerprint sha256 s))) fun body heq => by cases heq
  rw [reRegisterDevice]
  dsimp only
  split
  · refine (hfetched.rebound s).of_fetch sha256 timeText fallback fun body heq => ?_
    cases heq
    rfl
  · exact hfetched.rebound s

/-- A new identity. -/
theorem of_createIdentity {spki : Spki} {userAgent : String} {deviceLabel : Option String}
    (d : Dispatch) (hnone : rows.get? (deriveAccountId sha256 (exportPublicKeyHex spki)
      (computeDeviceFingerprint sha256 s)) = none) :
    Owns (createIdentity sha256 timeText spki userAgent deviceLabel s d rows).identity
      (createIdentity sha256 timeText spki userAgent deviceLabel s d rows).rows := by
  refine of_fetch sha256 timeText
    ⟨utf8ByteSize_hexDigest _, isEmpty_exportPublicKeyHex spki, fun row hrow => ?_⟩ d
    fun body heq => ?_
  · rw [createIdentity, hnone] at hrow
    cases hrow
  · cases heq
    rfl

end Owns

/-- What every step of a run preserves. -/
theorem owns_step {b : Browser} {e : Event} (hnew : NewKey sha256 b e)
    (howns : ∀ identity ∈ b.identity, Owns identity b.rows) :
    ∀ identity ∈ (b.step sha256 timeText e).identity,
      Owns identity (b.step sha256 timeText e).rows := by
  obtain ⟨signals, kept, rows⟩ := b
  cases e with
  | change signals => exact howns
  | emptied =>
      intro identity hidentity
      exact ⟨(howns identity hidentity).fingerprint, (howns identity hidentity).pubkey,
        fun row hrow => by cases hrow⟩
  | createIdentity spki userAgent deviceLabel d =>
      rw [Browser.step_createIdentity]
      intro identity hidentity
      rw [← Option.some.inj hidentity]
      exact .of_createIdentity d hnew.2
  | verifyDevice d =>
      cases kept with
      | none => exact howns
      | some identity =>
          rintro identity' ⟨⟩
          exact (howns identity rfl).of_verifyDevice signals d
  | reRegisterDevice d fallback =>
      cases kept with
      | none => exact howns
      | some identity =>
          rw [Browser.step_reRegisterDevice]
          intro identity' hidentity
          rw [← Option.some.inj hidentity]
          exact (howns identity rfl).of_reRegisterDevice signals d fallback

/-! ### After a call -/

/-- What a device check answers while the coordinator is up. -/
theorem verified_iff (now : Time) :
    (verifyDevice sha256 timeText identity s ⟨.answered, now, fun _ => false⟩ rows).1.verified =
        .bool true ↔
      computeDeviceFingerprint sha256 s = identity.deviceFingerprintHash ∧
        ∃ row, Coordinator.Accounts.activeRow rows identity.accountId = some row ∧
          row.ecdsaPubkeyHex = identity.ecdsaPubkeyHex ∧
          row.deviceFingerprintHash = identity.deviceFingerprintHash := by
  obtain ⟨hmissing, hfound⟩ := Coordinator.Accounts.serve_verifyDevice_reply sha256 timeText
    (m := ⟨now, fun _ => false⟩) rows identity.accountId
    ⟨computeDeviceFingerprint sha256 s, identity.ecdsaPubkeyHex⟩ rfl
  rw [verifyDevice]
  split
  · rename_i hne
    exact ⟨fun hfalse => (by cases hfalse), fun hmatch => absurd hmatch.1 hne⟩
  rename_i heq
  rw [not_not] at heq
  rw [fetch]
  dsimp only
  cases hrow : Coordinator.Accounts.activeRow rows identity.accountId with
  | none =>
      rw [hmissing hrow, if_pos (by decide)]
      exact ⟨fun hfalse => (by cases hfalse), fun hmatch => by obtain ⟨-, _, h, -⟩ := hmatch; cases h⟩
  | some row =>
      obtain ⟨hstatus, hbody⟩ := hfound row hrow
      rw [if_neg (by rw [isOk, hstatus]; decide), hbody, heq]
      simp

theorem inStep_iff :
    (Browser.mk s (some identity) rows).InStep sha256 timeText ↔
      computeDeviceFingerprint sha256 s = identity.deviceFingerprintHash ∧
        ∃ row, Coordinator.Accounts.activeRow rows identity.accountId = some row ∧
          row.ecdsaPubkeyHex = identity.ecdsaPubkeyHex ∧
          row.deviceFingerprintHash = identity.deviceFingerprintHash := by
  constructor
  · rintro ⟨identity', ⟨⟩, hverified⟩
    exact (verified_iff 0).mp (hverified 0)
  · intro hmatch
    exact ⟨identity, rfl, fun now => (verified_iff now).mpr hmatch⟩

/-- A registration that is answered. -/
theorem fetch_registration {d : Dispatch} {res : Reply}
    (hres : (fetch sha256 timeText identity.registration d rows).1 = some res)
    (hstatus : res.status = .ok ∨ res.status = .notFound)
    (hfingerprint : identity.deviceFingerprintHash.utf8ByteSize = 64)
    (hpubkey : identity.ecdsaPubkeyHex.isEmpty = false) :
    ∃ now, ∃ new : Row, new.ecdsaPubkeyHex = identity.ecdsaPubkeyHex ∧
      new.deviceFingerprintHash = identity.deviceFingerprintHash ∧ new.active = some true ∧
      (fetch sha256 timeText identity.registration d rows).2 =
        (Coordinator.Accounts.upsertRow rows now
          (deriveAccountId sha256 identity.ecdsaPubkeyHex identity.deviceFingerprintHash) new).2 := by
  obtain ⟨fate, m⟩ := d
  cases fate with
  | answered =>
      cases hres
      have hvalid : (RegisterAccountBody.mk identity.ecdsaPubkeyHex identity.deviceFingerprintHash
          (some identity.deviceLabel) (some identity.platform) none).Valid :=
        ⟨hpubkey, hfingerprint⟩
      obtain ⟨hserved, hrows⟩ :=
        Coordinator.Accounts.serve_registerAccount sha256 timeText m rows hvalid
      rw [DeviceIdentity.registration, hserved] at hstatus
      split at hstatus
      · rcases hstatus with hstatus | hstatus <;> cases hstatus
      · rename_i hup
        rw [if_neg hup] at hrows
        rw [deriveAccountId_eq]
        exact ⟨m.now, _, rfl, rfl, rfl, hrows⟩
  | lost => cases hres
  | unanswered => cases hres

/-- A new account is stored under its id. -/
theorem createIdentity_stored {spki : Spki} {userAgent : String} {deviceLabel : Option String}
    {d : Dispatch} (hkey : ¬ HasKey rows (exportPublicKeyHex spki))
    (hid : rows.get? (deriveAccountId sha256 (exportPublicKeyHex spki)
      (computeDeviceFingerprint sha256 s)) = none) {r : Registration}
    (hcall : createIdentity sha256 timeText spki userAgent deviceLabel s d rows = r)
    (hanswered : r.Answered) :
    ∃ row, Coordinator.Accounts.activeRow r.rows r.identity.accountId = some row ∧
      row.ecdsaPubkeyHex = r.identity.ecdsaPubkeyHex ∧
      row.deviceFingerprintHash = r.identity.deviceFingerprintHash := by
  subst hcall
  obtain ⟨res, hres, hstatus⟩ := hanswered _ (List.mem_singleton_self _)
  obtain ⟨now, new, hnewKey, hfingerprint, hactive, hrows⟩ :=
    fetch_registration hres hstatus (utf8ByteSize_hexDigest _) (isEmpty_exportPublicKeyHex spki)
  refine ⟨new, ?_, hnewKey, hfingerprint⟩
  rw [Coordinator.Accounts.activeRow_eq_some, createIdentity]
  dsimp only
  rw [hrows, Coordinator.Accounts.get?_upsertRow_of_none now new hid, if_neg (hnewKey ▸ hkey)]
  exact ⟨rfl, hactive⟩

/-- The fallback where the account is gone. -/
theorem fallback_inStep_iff {fallback : Dispatch} {updated : DeviceIdentity} {res : Reply}
    (hfingerprint : updated.deviceFingerprintHash = computeDeviceFingerprint sha256 s)
    (hpubkey : updated.ecdsaPubkeyHex.isEmpty = false)
    (hgone : rows.get? updated.accountId = none)
    (hres : (fetch sha256 timeText updated.registration fallback rows).1 = some res)
    (hstatus : res.status = .ok ∨ res.status = .notFound) :
    (Browser.mk s (some updated)
        (fetch sha256 timeText updated.registration fallback rows).2).InStep sha256 timeText ↔
      ¬ HasKey rows updated.ecdsaPubkeyHex ∧
        deriveAccountId sha256 updated.ecdsaPubkeyHex (computeDeviceFingerprint sha256 s) =
          updated.accountId := by
  obtain ⟨now, new, hkey, hbound, hactive, hrows⟩ := fetch_registration hres hstatus
    (hfingerprint ▸ utf8ByteSize_hexDigest _) hpubkey
  rw [inStep_iff, hrows, hfingerprint]
  by_cases hid : deriveAccountId sha256 updated.ecdsaPubkeyHex (computeDeviceFingerprint sha256 s) =
      updated.accountId
  · rw [hid]
    simp only [Coordinator.Accounts.activeRow_eq_some,
      Coordinator.Accounts.get?_upsertRow_of_none now new hgone, hkey]
    split
    · rename_i hhas
      constructor
      · rintro ⟨-, _, ⟨hnone, -⟩, -⟩
        cases hnone
      · rintro ⟨hnot, -⟩
        exact absurd hhas hnot
    · rename_i hhas
      exact ⟨fun _ => ⟨hhas, trivial⟩,
        fun _ => ⟨trivial, new, ⟨rfl, hactive⟩, hkey, hbound.trans hfingerprint⟩⟩
  · simp only [Coordinator.Accounts.activeRow_eq_some,
      Coordinator.Accounts.get?_upsertRow_of_ne now new (Ne.symm hid), hgone, hid]
    constructor
    · rintro ⟨-, _, ⟨hnone, -⟩, -⟩
      cases hnone
    · rintro ⟨-, hfalse⟩
      exact hfalse.elim

section

variable {d fallback : Dispatch}

/-- The account is gone, or its row is bound to the new fingerprint. -/
theorem rebinding_cases (howns : Owns identity rows) {res : Reply}
    (hres : (fetch sha256 timeText (.reregisterDevice identity.accountId
      (identity.rebinding (computeDeviceFingerprint sha256 s))) d rows).1 = some res)
    (hstatus : res.status = .ok ∨ res.status = .notFound) :
    rows.get? identity.accountId = none ∧
        fetch sha256 timeText (.reregisterDevice identity.accountId
          (identity.rebinding (computeDeviceFingerprint sha256 s))) d rows =
            (some (.error .notFound), rows) ∨
      ∃ row, ∃ now, rows.get? identity.accountId = some row ∧ row.active = some true ∧
        row.ecdsaPubkeyHex = identity.ecdsaPubkeyHex ∧ res.status = .ok ∧
        (fetch sha256 timeText (.reregisterDevice identity.accountId
          (identity.rebinding (computeDeviceFingerprint sha256 s))) d rows).2 =
            rows.update identity.accountId
              (.rebind now (computeDeviceFingerprint sha256 s) (some identity.deviceLabel)) := by
  obtain ⟨fate, m⟩ := d
  cases fate with
  | lost => cases hres
  | unanswered => cases hres
  | answered =>
      cases hres
      have hvalid : (identity.rebinding (computeDeviceFingerprint sha256 s)).Valid :=
        ⟨utf8ByteSize_hexDigest _, howns.fingerprint⟩
      obtain ⟨hdown, hmissing, hfailed⟩ := Coordinator.Accounts.serve_reregisterDevice_reply
        sha256 timeText m rows identity.accountId hvalid
      have hup : m.down (.activeAccount identity.accountId) = false := by
        by_contra hnot
        rw [hdown (Bool.eq_true_of_not_eq_false hnot)] at hstatus
        rcases hstatus with hstatus | hstatus <;> cases hstatus
      cases hrow : rows.get? identity.accountId with
      | none =>
          have hinactive : Coordinator.Accounts.activeRow rows identity.accountId = none := by
            rw [Coordinator.Accounts.activeRow, hrow, Option.filter_none]
          rw [fetch, hmissing hup hinactive]
          exact .inl ⟨rfl, rfl⟩
      | some row =>
          obtain ⟨hkey, hactive⟩ := howns.row row hrow
          have haccepted : (identity.rebinding (computeDeviceFingerprint sha256 s)).Accepted m rows
              identity.accountId row := by
            refine ⟨hvalid.1, hvalid.2, hrow, hactive, hkey, hup, ?_⟩
            by_contra hnot
            rw [hfailed row hup (Coordinator.Accounts.activeRow_eq_some.mpr ⟨hrow, hactive⟩) hkey
              (Bool.eq_true_of_not_eq_false hnot)] at hstatus
            rcases hstatus with hstatus | hstatus <;> cases hstatus
          obtain ⟨hserved, hrows⟩ :=
            Coordinator.Accounts.serve_reregisterDevice sha256 timeText haccepted
          exact .inr ⟨row, m.now, rfl, hactive, hkey, hserved, hrows⟩

theorem reRegisterDevice_of_missing
    (hmissing : fetch sha256 timeText (.reregisterDevice identity.accountId
      (identity.rebinding (computeDeviceFingerprint sha256 s))) d rows =
        (some (.error .notFound), rows)) :
    reRegisterDevice sha256 timeText identity s d fallback rows =
      let updated := identity.withFingerprint (computeDeviceFingerprint sha256 s)
      let res := fetch sha256 timeText updated.registration fallback rows
      ⟨updated, [some (.error .notFound), res.1], res.2⟩ := by
  rw [reRegisterDevice, hmissing]
  rfl

theorem reRegisterDevice_of_found {res : Reply} {rows' : Rows}
    (hfound : fetch sha256 timeText (.reregisterDevice identity.accountId
      (identity.rebinding (computeDeviceFingerprint sha256 s))) d rows = (some res, rows'))
    (hstatus : res.status = .ok) :
    reRegisterDevice sha256 timeText identity s d fallback rows =
      ⟨identity.withFingerprint (computeDeviceFingerprint sha256 s), [some res], rows'⟩ := by
  rw [reRegisterDevice, hfound]
  dsimp only
  rw [if_neg]
  rw [Option.all_some, hstatus]
  decide

theorem reRegisterDevice_head :
    (fetch sha256 timeText (.reregisterDevice identity.accountId
      (identity.rebinding (computeDeviceFingerprint sha256 s))) d rows).1 ∈
        (reRegisterDevice sha256 timeText identity s d fallback rows).replies := by
  rw [reRegisterDevice]
  dsimp only
  split <;> exact List.mem_cons_self

theorem reRegisterDevice_inStep_iff (howns : Owns identity rows)
    (hanswered : (reRegisterDevice sha256 timeText identity s d fallback rows).Answered) :
    ((Browser.mk s (some identity) rows).step sha256 timeText
        (.reRegisterDevice d fallback)).InStep sha256 timeText ↔
      Recovers sha256 (Browser.mk s (some identity) rows) (.reRegisterDevice d fallback) := by
  have hrecovers : Recovers sha256 (Browser.mk s (some identity) rows)
      (.reRegisterDevice d fallback) ↔
        rows.get? identity.accountId ≠ none ∨
          ¬ HasKey rows identity.ecdsaPubkeyHex ∧
            deriveAccountId sha256 identity.ecdsaPubkeyHex (computeDeviceFingerprint sha256 s) =
              identity.accountId :=
    ⟨fun h => h identity rfl, fun h identity' heq => Option.some.inj heq ▸ h⟩
  rw [Browser.step_reRegisterDevice, hrecovers]
  obtain ⟨res, hres, hstatus⟩ := hanswered _ reRegisterDevice_head
  rcases rebinding_cases howns hres hstatus with ⟨hgone, hmissing⟩ |
    ⟨row, now, hrow, hactive, hkey, hok, hrows⟩
  · rw [reRegisterDevice_of_missing hmissing] at hanswered ⊢
    obtain ⟨res', hres', hstatus'⟩ := hanswered _ (List.mem_cons_of_mem _ List.mem_cons_self)
    have hpubkey : (identity.withFingerprint (computeDeviceFingerprint sha256 s)).ecdsaPubkeyHex.isEmpty
        = false := howns.pubkey
    exact (fallback_inStep_iff rfl hpubkey hgone hres' hstatus').trans
      (or_iff_right fun hne => hne hgone).symm
  · rw [reRegisterDevice_of_found (Prod.ext hres hrows) hok]
    have hbound : (rows.update identity.accountId (.rebind now (computeDeviceFingerprint sha256 s)
        (some identity.deviceLabel))).get? identity.accountId =
          some (row.rebind now (computeDeviceFingerprint sha256 s) (some identity.deviceLabel)) := by
      rw [Table.get?_update_self, hrow, Option.map_some]
    have hstored := Coordinator.Accounts.activeRow_eq_some.mpr ⟨hbound, hactive⟩
    exact iff_of_true (inStep_iff.mpr ⟨rfl, _, hstored, hkey, rfl⟩) (.inl (by rw [hrow]; simp))

end

/-- After any history of one browser, a call that registers it and is answered leaves browser and
coordinator in step exactly when it can recover the account. -/
theorem stays_in_step_iff {b₀ : Browser} (hstart : b₀.identity = none) {history : List Event}
    (hhistory : Along (Browser.step sha256 timeText) (NewKey sha256) b₀ history) {e : Event}
    (hnew : NewKey sha256 (history.foldl (Browser.step sha256 timeText) b₀) e) {r : Registration}
    (hcall : e.registration sha256 timeText (history.foldl (Browser.step sha256 timeText) b₀) = some r)
    (hanswered : r.Answered) :
    ((history.foldl (Browser.step sha256 timeText) b₀).step sha256 timeText e).InStep sha256
        timeText ↔
      Recovers sha256 (history.foldl (Browser.step sha256 timeText) b₀) e := by
  have howns := hhistory.preserves (I := fun b => ∀ identity ∈ b.identity, Owns identity b.rows)
    (fun b e hnew howns => owns_step hnew howns) (by rw [hstart]; intro identity h; cases h)
  generalize history.foldl (Browser.step sha256 timeText) b₀ = b at *
  cases e with
  | createIdentity spki userAgent deviceLabel d =>
      obtain rfl := Option.some.inj hcall
      rw [Browser.step_createIdentity, inStep_iff]
      exact iff_of_true ⟨rfl, createIdentity_stored hnew.1 hnew.2 rfl hanswered⟩ trivial
  | reRegisterDevice d fallback =>
      obtain ⟨signals, kept, rows⟩ := b
      cases kept with
      | none => cases hcall
      | some identity =>
          cases hcall
          exact reRegisterDevice_inStep_iff (howns identity rfl) hanswered
  | _ => cases hcall

/-! ### A browser whose screen changes -/

/-- A laptop on its own, and on a larger screen. -/
def laptop : Signals := ⟨"MacIntel", 8, "en", "Asia/Kuala_Lumpur", 1440, 900, 30, "2"⟩

def docked : Signals := ⟨"MacIntel", 8, "en", "Asia/Kuala_Lumpur", 2560, 1440, 30, "2"⟩

/-- The base point of P-256, the public key to the private key 1. -/
def sampleSpki : Spki :=
  #v[48, 89, 48, 19, 6, 7, 42, 134, 72, 206, 61, 2, 1, 6, 8, 42, 134, 72, 206, 61, 3, 1, 7, 3, 66, 0,
    4, 107, 23, 209, 242, 225, 44, 66, 71, 248, 188, 230, 229, 99, 164, 64, 242, 119, 3, 125, 129,
    45, 235, 51, 160, 244, 161, 57, 69, 216, 152, 194, 150, 79, 227, 66, 226, 254, 26, 127, 155, 142,
    231, 235, 74, 124, 15, 158, 22, 43, 206, 51, 87, 107, 49, 94, 206, 203, 182, 64, 104, 55, 191,
    81, 245]

def bigEndian32 (n : Nat) : Vector UInt8 32 :=
  Vector.ofFn fun i => UInt8.ofNat (n / 256 ^ (31 - i.val))

/-- SHA-256 of the signals of the two screens, which have 55 and 56 bytes, and of the key with the two
fingerprints, which begin with 1 and 0. -/
def sampleSha256 (content : Bytes) : Vector UInt8 32 :=
  bigEndian32 <|
    if content.length = 55 then 0x1c9619b0a5fe5125c22abd925f7cfbc813634b0fbd34eeb9c2ab0edce55944c8
    else if content.length = 56 then
      0x0e7cbc429e7627f9a43f6b9df4169756b64ee62ca347146a639a4440943d71e7
    else if content.drop 184 |>.head?.any (· = 49) then
      0x6ce6713bd80307f95a4eaed6d02ef3005a1941c6ad0a6cf143a5b3413858192a
    else 0x6ebe09287c1d8f80656b32dfa624f2df7bd7c5ab5b8b3d9d1d6f9464a03066b6

theorem computeDeviceFingerprint_laptop : computeDeviceFingerprint sampleSha256 laptop =
    Hex.encode (bigEndian32
      0x1c9619b0a5fe5125c22abd925f7cfbc813634b0fbd34eeb9c2ab0edce55944c8).toList := by
  rw [computeDeviceFingerprint, hexDigest, sampleSha256, if_pos (by decide +kernel)]

theorem computeDeviceFingerprint_docked : computeDeviceFingerprint sampleSha256 docked =
    Hex.encode (bigEndian32
      0x0e7cbc429e7627f9a43f6b9df4169756b64ee62ca347146a639a4440943d71e7).toList := by
  rw [computeDeviceFingerprint, hexDigest, sampleSha256, if_neg (by decide +kernel),
    if_pos (by decide +kernel)]

/-- The two screens have different ids. -/
theorem deriveAccountId_ne :
    deriveAccountId sampleSha256 (exportPublicKeyHex sampleSpki)
        (computeDeviceFingerprint sampleSha256 docked) ≠
      deriveAccountId sampleSha256 (exportPublicKeyHex sampleSpki)
        (computeDeviceFingerprint sampleSha256 laptop) := by
  rw [computeDeviceFingerprint_laptop, computeDeviceFingerprint_docked, deriveAccountId_eq,
    deriveAccountId_eq, Coordinator.Accounts.deriveAccountId, Coordinator.Accounts.deriveAccountId,
    exportPublicKeyHex, Hex.utf8_encode, Hex.utf8_encode, Hex.utf8_encode]
  decide +kernel

/-- A request that arrives, and its answer too. -/
def delivered : Dispatch := ⟨.answered, 0, fun _ => false⟩

variable (sha256 timeText rows) in
theorem fetch_registration_delivered
    (hfingerprint : identity.deviceFingerprintHash.utf8ByteSize = 64)
    (hpubkey : identity.ecdsaPubkeyHex.isEmpty = false) :
    ∃ res, (fetch sha256 timeText identity.registration delivered rows).1 = some res ∧
      res.status = .ok := by
  have hvalid : (RegisterAccountBody.mk identity.ecdsaPubkeyHex identity.deviceFingerprintHash
      (some identity.deviceLabel) (some identity.platform) none).Valid := ⟨hpubkey, hfingerprint⟩
  exact ⟨_, rfl, (Coordinator.Accounts.serve_registerAccount sha256 timeText _ rows hvalid).1⟩

/-- While the coordinator is up, every call is answered. -/
theorem createIdentity_delivered (spki : Spki) (userAgent : String) (deviceLabel : Option String) :
    (createIdentity sha256 timeText spki userAgent deviceLabel s delivered rows).Answered := by
  intro reply hreply
  cases List.mem_singleton.mp hreply
  have howns : Owns (createIdentity sha256 timeText spki userAgent deviceLabel s delivered
      rows).identity .empty :=
    ⟨utf8ByteSize_hexDigest _, isEmpty_exportPublicKeyHex spki, fun row hrow => by cases hrow⟩
  obtain ⟨res, hres, hstatus⟩ :=
    fetch_registration_delivered sha256 timeText rows howns.fingerprint howns.pubkey
  exact ⟨res, hres, .inl hstatus⟩

variable (sha256 timeText s) in
theorem reRegisterDevice_delivered (howns : Owns identity rows) :
    (reRegisterDevice sha256 timeText identity s delivered delivered rows).Answered := by
  have hvalid : (identity.rebinding (computeDeviceFingerprint sha256 s)).Valid :=
    ⟨utf8ByteSize_hexDigest _, howns.fingerprint⟩
  obtain ⟨-, hmissing, -⟩ := Coordinator.Accounts.serve_reregisterDevice_reply sha256 timeText
    delivered.moment rows identity.accountId hvalid
  cases hrow : rows.get? identity.accountId with
  | none =>
      have hinactive : Coordinator.Accounts.activeRow rows identity.accountId = none := by
        rw [Coordinator.Accounts.activeRow, hrow, Option.filter_none]
      have hfetched : fetch sha256 timeText (.reregisterDevice identity.accountId
          (identity.rebinding (computeDeviceFingerprint sha256 s))) delivered rows =
            (some (.error .notFound), rows) := congrArg (fun r => (some r.1, r.2))
              (hmissing rfl hinactive)
      rw [reRegisterDevice_of_missing hfetched]
      intro reply hreply
      rcases List.mem_cons.mp hreply with rfl | hreply
      · exact ⟨_, rfl, .inr rfl⟩
      · cases List.mem_singleton.mp hreply
        obtain ⟨res, hres, hstatus⟩ := fetch_registration_delivered sha256 timeText rows
          (howns.rebound s).fingerprint (howns.rebound s).pubkey
        exact ⟨res, hres, .inl hstatus⟩
  | some row =>
      obtain ⟨hkey, hactive⟩ := howns.row row hrow
      have haccepted : (identity.rebinding (computeDeviceFingerprint sha256 s)).Accepted
          delivered.moment rows identity.accountId row :=
        ⟨hvalid.1, hvalid.2, hrow, hactive, hkey, rfl, rfl⟩
      have hserved := (Coordinator.Accounts.serve_reregisterDevice sha256 timeText haccepted).1
      rw [reRegisterDevice_of_found rfl hserved]
      intro reply hreply
      cases List.mem_singleton.mp hreply
      exact ⟨_, rfl, .inl hserved⟩

def creation : Event := .createIdentity sampleSpki "Macintosh" none delivered

def fresh : Browser := ⟨laptop, none, .empty⟩

theorem creation_newKey : NewKey sampleSha256 fresh creation := by
  refine ⟨?_, Table.get?_empty _⟩
  rintro ⟨row, hrow, -⟩
  exact List.not_mem_nil hrow

/-- What it creates on its own screen. -/
def sampleCreation : Registration :=
  createIdentity sampleSha256 toString sampleSpki "Macintosh" none laptop delivered .empty

theorem owns_sampleCreation : Owns sampleCreation.identity sampleCreation.rows :=
  .of_createIdentity delivered (Table.get?_empty _)

theorem stored_sampleCreation :
    ∃ row, Coordinator.Accounts.activeRow sampleCreation.rows sampleCreation.identity.accountId =
        some row ∧ row.ecdsaPubkeyHex = sampleCreation.identity.ecdsaPubkeyHex ∧
      row.deviceFingerprintHash = sampleCreation.identity.deviceFingerprintHash :=
  createIdentity_stored creation_newKey.1 creation_newKey.2 rfl (createIdentity_delivered _ _ _)

/-- The browser after its creation and these events. -/
def Browser.after (history : List Event) : Browser :=
  (creation :: history).foldl (Browser.step sampleSha256 toString) fresh

theorem step_creation : fresh.step sampleSha256 toString creation =
    ⟨laptop, some sampleCreation.identity, sampleCreation.rows⟩ :=
  Browser.step_createIdentity laptop none sampleSpki "Macintosh" none delivered

theorem after_change : Browser.after [.change docked] =
    ⟨docked, some sampleCreation.identity, sampleCreation.rows⟩ := by
  rw [Browser.after, List.foldl_cons, step_creation, List.foldl_cons, Browser.step_change,
    List.foldl_nil]

theorem after_emptied : Browser.after [.emptied, .change docked] =
    ⟨docked, some sampleCreation.identity, .empty⟩ := by
  rw [Browser.after, List.foldl_cons, step_creation, List.foldl_cons, Browser.step_emptied,
    List.foldl_cons, Browser.step_change, List.foldl_nil]

/-- A kept identity whose account is there. -/
theorem recovers_of_found {row : Row} {d fallback : Dispatch}
    (hrow : rows.get? identity.accountId = some row) :
    Recovers sha256 ⟨s, some identity, rows⟩ (.reRegisterDevice d fallback) := by
  intro identity' hidentity
  rw [← Option.some.inj hidentity]
  refine .inl ?_
  rw [hrow]
  exact Option.some_ne_none row

theorem docked_inStep :
    ((Browser.after [.change docked]).step sampleSha256 toString
      (.reRegisterDevice delivered delivered)).InStep sampleSha256 toString := by
  have hhistory : Along (Browser.step sampleSha256 toString) (NewKey sampleSha256) fresh
      [creation, .change docked] := ⟨creation_newKey, trivial, trivial⟩
  have hcall : Event.registration sampleSha256 toString (Browser.after [.change docked])
      (.reRegisterDevice delivered delivered) =
        some (reRegisterDevice sampleSha256 toString sampleCreation.identity docked delivered
          delivered sampleCreation.rows) := by
    rw [after_change, Browser.registration_reRegisterDevice]
  have hnew : NewKey sampleSha256 (Browser.after [.change docked])
      (.reRegisterDevice delivered delivered) := trivial
  have hrecovers : Recovers sampleSha256 (Browser.after [.change docked])
      (.reRegisterDevice delivered delivered) := by
    obtain ⟨row, hrow, -⟩ := stored_sampleCreation
    rw [after_change]
    exact recovers_of_found (Coordinator.Accounts.activeRow_eq_some.mp hrow).1
  exact (stays_in_step_iff (rfl : fresh.identity = none) hhistory hnew hcall
    (reRegisterDevice_delivered _ _ _ owns_sampleCreation)).mpr hrecovers

/-- The table is emptied, and the screen changes. -/
theorem docked_not_inStep :
    Along (Browser.step sampleSha256 toString) (NewKey sampleSha256) fresh
        [creation, .emptied, .change docked] ∧
      ∃ r, Event.registration sampleSha256 toString (Browser.after [.emptied, .change docked])
          (.reRegisterDevice delivered delivered) = some r ∧ r.Answered ∧
        ¬ ((Browser.after [.emptied, .change docked]).step sampleSha256 toString
          (.reRegisterDevice delivered delivered)).InStep sampleSha256 toString := by
  have howns : Owns sampleCreation.identity .empty :=
    ⟨owns_sampleCreation.fingerprint, owns_sampleCreation.pubkey, fun row hrow => by cases hrow⟩
  have hanswered := reRegisterDevice_delivered sampleSha256 toString docked howns
  refine ⟨⟨creation_newKey, trivial, trivial, trivial⟩, _, ?_, hanswered, fun hinStep => ?_⟩
  · rw [after_emptied, Browser.registration_reRegisterDevice]
  · rw [after_emptied] at hinStep
    rcases (reRegisterDevice_inStep_iff howns hanswered).mp hinStep sampleCreation.identity rfl with
      hthere | ⟨-, hid⟩
    · exact hthere (Table.get?_empty _)
    · exact deriveAccountId_ne hid

end NeuralMesh.Dashboard
