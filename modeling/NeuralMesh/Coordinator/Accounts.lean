import NeuralMesh.Base.Hex
import NeuralMesh.Base.Http
import NeuralMesh.Base.Program
import NeuralMesh.Coordinator.Rest

/-!
# Accounts and their devices

`register_account`, `verify_device` and `reregister_device` of `coordinator/src/api/rest.rs` with the
device columns of `accounts`. The database may be down for some of the statements of a request.
-/

namespace NeuralMesh.Coordinator.Accounts

open Program

/-- A row of `accounts`. -/
structure Row where
  ecdsaPubkeyHex : String
  deviceFingerprintHash : String
  deviceLabel : Option String
  platform : Option String
  hardwareSerialHash : Option String
  active : Option Bool
  createdAt : Option Time
  lastSeen : Option Time
  deriving DecidableEq

abbrev Rows := Table AccountId Row

inductive Statement where
  /-- `INSERT INTO accounts .. ON CONFLICT (account_id) DO UPDATE SET last_seen = now(),
  device_label = COALESCE($4, accounts.device_label) RETURNING ..` -/
  | upsert (accountId : AccountId) (ecdsaPubkeyHex deviceFingerprintHash : String)
      (deviceLabel : Option String) (platform : String) (hardwareSerialHash : Option String)
  /-- `SELECT .. FROM accounts WHERE account_id = $1 AND active = TRUE` -/
  | activeAccount (accountId : AccountId)
  /-- `UPDATE accounts SET last_seen = now() WHERE account_id = $1` -/
  | touch (accountId : AccountId)
  /-- `UPDATE accounts SET device_fingerprint_hash = $1, last_seen = now(), device_label =
  COALESCE($2, device_label) WHERE account_id = $3 RETURNING ..` -/
  | rebind (accountId : AccountId) (deviceFingerprintHash : String) (deviceLabel : Option String)
  /-- `INSERT INTO credit_accounts .. ON CONFLICT DO NOTHING` -/
  | openCredit (accountId : AccountId)
  deriving DecidableEq

/-- An upsert answers no row where `ecdsa_pubkey_hex` is not unique. -/
@[reducible] def Statement.Answer : Statement → Type
  | upsert _ _ _ _ _ _ | activeAccount _ | rebind _ _ _ => Option Row
  | touch _ | openCredit _ => Unit

/-- When a request is served, and which statements the database is down for. -/
structure Moment where
  now : Time
  down : Statement → Bool

/-- The row the column defaults complete. -/
def Row.fresh (now : Time) (ecdsaPubkeyHex deviceFingerprintHash : String)
    (deviceLabel : Option String) (platform : String) (hardwareSerialHash : Option String) :
    Row where
  ecdsaPubkeyHex := ecdsaPubkeyHex
  deviceFingerprintHash := deviceFingerprintHash
  deviceLabel := deviceLabel
  platform := some platform
  hardwareSerialHash := hardwareSerialHash
  active := some true
  createdAt := some now
  lastSeen := some now

def Row.refresh (now : Time) (deviceLabel : Option String) (row : Row) : Row :=
  { row with lastSeen := some now, deviceLabel := deviceLabel.or row.deviceLabel }

def Row.rebind (now : Time) (deviceFingerprintHash : String) (deviceLabel : Option String)
    (row : Row) : Row :=
  { row.refresh now deviceLabel with deviceFingerprintHash }

/-- Whether a row has the key. -/
def HasKey (rows : Rows) (ecdsaPubkeyHex : String) : Prop :=
  ∃ row ∈ rows.rows, row.2.ecdsaPubkeyHex = ecdsaPubkeyHex

instance (rows : Rows) (ecdsaPubkeyHex : String) : Decidable (HasKey rows ecdsaPubkeyHex) :=
  inferInstanceAs (Decidable (∃ row ∈ rows.rows, _))

/-- An upsert refreshes the row with its id; otherwise a second row with its key is refused. -/
def upsertRow (rows : Rows) (now : Time) (accountId : AccountId) (new : Row) :
    Option Row × Rows :=
  match rows.get? accountId with
  | some row =>
      (some (row.refresh now new.deviceLabel), rows.update accountId (.refresh now new.deviceLabel))
  | none =>
      if HasKey rows new.ecdsaPubkeyHex then (none, rows)
      else (some new, rows.upsert accountId new id)

/-- The row of an active account. -/
def activeRow (rows : Rows) (accountId : AccountId) : Option Row :=
  (rows.get? accountId).filter fun row => row.active = some true

def Statement.apply (now : Time) : (q : Statement) → Rows → q.Answer × Rows
  | upsert accountId pubkey fingerprint label platform serial, rows =>
      upsertRow rows now accountId (.fresh now pubkey fingerprint label platform serial)
  | activeAccount accountId, rows => (activeRow rows accountId, rows)
  | touch accountId, rows =>
      ((), rows.update accountId fun row => { row with lastSeen := some now })
  | rebind accountId fingerprint label, rows =>
      ((rows.get? accountId).map (.rebind now fingerprint label),
        rows.update accountId (.rebind now fingerprint label))
  | openCredit _, rows => ((), rows)

def Statement.exec (m : Moment) (q : Statement) (rows : Rows) : Option (q.Answer × Rows) :=
  if m.down q then none else some (q.apply m.now rows)

/-! ### The handlers -/

structure RegisterAccountBody where
  ecdsaPubkeyHex : String
  deviceFingerprintHash : String
  deviceLabel : Option String
  platform : Option String
  hardwareSerialHash : Option String

structure VerifyDeviceBody where
  deviceFingerprintHash : String
  ecdsaPubkeyHex : String

structure ReregisterBody where
  ecdsaPubkeyHex : String
  newDeviceFingerprintHash : String
  oldDeviceFingerprintHash : String
  deviceLabel : Option String

abbrev Handler := Program Statement.Answer Reply

variable (sha256 : Bytes → Vector UInt8 32) (timeText : Time → String)

/-- Derive account_id = hex(SHA-256(pubkey_hex || fingerprint_hash))[..24] -/
def deriveAccountId (pubkeyHex fingerprintHash : String) : AccountId :=
  Hex.encode ((sha256 (utf8 pubkeyHex ++ utf8 "||" ++ utf8 fingerprintHash)).toList.take 12)

def registerAccount (body : RegisterAccountBody) : Handler :=
  if body.ecdsaPubkeyHex.isEmpty ∨ body.deviceFingerprintHash.utf8ByteSize ≠ 64 then
    done (.error .badRequest)
  else
    let accountId := deriveAccountId sha256 body.ecdsaPubkeyHex body.deviceFingerprintHash
    let platform := body.platform.getD "browser"
    askOr (.error .internalServerError)
      (.upsert accountId body.ecdsaPubkeyHex body.deviceFingerprintHash body.deviceLabel platform
        body.hardwareSerialHash)
      fun (result : Option Row) =>
    match result with
    | some row =>
        attempt (.openCredit accountId) <|
        done (.json [
          ("ok", .bool true),
          ("account_id", .str accountId),
          ("created_at", .ofOption (fun t => .str (timeText t)) row.createdAt),
          ("last_seen", .ofOption (fun t => .str (timeText t)) row.lastSeen)])
    | none =>
        done (.json [
          ("ok", .bool false),
          ("error", .str "device_mismatch"),
          ("message", .str "This key is already registered to a different device fingerprint.")])

/-- Verify that the requesting device matches the stored fingerprint for an account. -/
def verifyDevice (accountId : AccountId) (body : VerifyDeviceBody) : Handler :=
  askOr (.error .internalServerError) (.activeAccount accountId) fun (acc : Option Row) =>
  match acc with
  | none => done (.error .notFound)
  | some acc =>
      let pubkeyMatch := acc.ecdsaPubkeyHex = body.ecdsaPubkeyHex
      let fingerprintMatch := acc.deviceFingerprintHash = body.deviceFingerprintHash
      if pubkeyMatch ∧ fingerprintMatch then
        attempt (.touch accountId) <|
        done (.json [("ok", .bool true), ("verified", .bool true)])
      else
        done (.json [
          ("ok", .bool true),
          ("verified", .bool false),
          ("reason", .str (if ¬ pubkeyMatch then "key_mismatch" else "fingerprint_mismatch"))])

def reregisterDevice (accountId : AccountId) (body : ReregisterBody) : Handler :=
  if body.newDeviceFingerprintHash.utf8ByteSize ≠ 64 ∨
      body.oldDeviceFingerprintHash.utf8ByteSize ≠ 64 then
    done (.error .badRequest)
  else
    askOr (.error .internalServerError) (.activeAccount accountId) fun (acc : Option Row) =>
    match acc with
    | none => done (.error .notFound)
    | some acc =>
        if acc.ecdsaPubkeyHex ≠ body.ecdsaPubkeyHex then
          done (.json [
            ("ok", .bool false),
            ("error", .str "key_mismatch"),
            ("message", .str "Public key does not match the registered account.")])
        else
          askOr (.error .internalServerError)
            (.rebind accountId body.newDeviceFingerprintHash body.deviceLabel)
            fun (row : Option Row) =>
          match row with
          | none => done (.error .internalServerError)
          | some row =>
              done (.json [
                ("ok", .bool true),
                ("account_id", .str accountId),
                ("last_seen", .ofOption (fun t => .str (timeText t)) row.lastSeen)])

inductive AccountRequest where
  | registerAccount (body : RegisterAccountBody)
  | verifyDevice (accountId : AccountId) (body : VerifyDeviceBody)
  | reregisterDevice (accountId : AccountId) (body : ReregisterBody)

def AccountRequest.program : AccountRequest → Handler
  | registerAccount body => Accounts.registerAccount sha256 timeText body
  | verifyDevice accountId body => Accounts.verifyDevice accountId body
  | reregisterDevice accountId body => Accounts.reregisterDevice timeText accountId body

/-- Serve a request in one piece. -/
def AccountRequest.serve (r : AccountRequest) (m : Moment) (rows : Rows) : Reply × Rows :=
  (r.program sha256 timeText).run (Statement.exec m) rows

/-! ### What a request writes -/

variable {sha256 : Bytes → Vector UInt8 32} {timeText : Time → String} {m : Moment} {rows : Rows}

theorem activeRow_eq_some {accountId : AccountId} {row : Row} :
    activeRow rows accountId = some row ↔
      rows.get? accountId = some row ∧ row.active = some true := by
  rw [activeRow, Option.filter_eq_some_iff, decide_eq_true_eq]

namespace Statement

theorem exec_of_down {q : Statement} (hdown : m.down q = true) : q.exec m rows = none := by
  rw [exec, if_pos hdown]

theorem exec_of_up {q : Statement} (hup : m.down q = false) :
    q.exec m rows = some (q.apply m.now rows) := by
  rw [exec, if_neg (Bool.eq_false_iff.mp hup)]

theorem exec_activeAccount {accountId : AccountId} (hup : m.down (.activeAccount accountId) = false) :
    (activeAccount accountId).exec m rows = some (activeRow rows accountId, rows) :=
  exec_of_up hup

end Statement

/-- A statement whose result is ignored. -/
theorem run_attempt {q : Statement} {reply : Reply} :
    (attempt q (done reply) : Handler).run (Statement.exec m) rows =
      (reply, ((q.exec m rows).map Prod.snd).getD rows) := by
  rw [attempt, run_query]
  cases q.exec m rows <;> rfl

theorem get?_upsertRow_self (now : Time) (accountId : AccountId) (new : Row) :
    (upsertRow rows now accountId new).2.get? accountId = (upsertRow rows now accountId new).1 := by
  unfold upsertRow
  cases hrow : rows.get? accountId with
  | some row => simp only [Table.get?_update_self, hrow, Option.map_some]
  | none =>
      dsimp only
      split
      · exact hrow
      · rw [Table.get?_upsert, if_pos rfl, hrow, Option.map_none, Option.getD_none]

/-- A new row is stored unless another row has its key. -/
theorem get?_upsertRow_of_none (now : Time) {accountId : AccountId} (new : Row)
    (hnone : rows.get? accountId = none) :
    (upsertRow rows now accountId new).2.get? accountId =
      if HasKey rows new.ecdsaPubkeyHex then none else some new := by
  rw [get?_upsertRow_self, upsertRow, hnone]
  dsimp only
  split <;> rfl

theorem get?_upsertRow_of_ne (now : Time) {accountId id : AccountId} (new : Row)
    (hne : id ≠ accountId) : (upsertRow rows now accountId new).2.get? id = rows.get? id := by
  unfold upsertRow
  split
  · exact Table.get?_update_of_ne _ _ hne
  · split
    · rfl
    · rw [Table.get?_upsert, if_neg hne]

/-- An upsert leaves the key and the device of a row as they are. -/
theorem get?_upsertRow_of_some (now : Time) (accountId : AccountId) (new : Row) {id : AccountId}
    {row : Row} (hrow : rows.get? id = some row) :
    ∃ row', (upsertRow rows now accountId new).2.get? id = some row' ∧
      row'.ecdsaPubkeyHex = row.ecdsaPubkeyHex ∧
      row'.deviceFingerprintHash = row.deviceFingerprintHash ∧ row'.active = row.active := by
  by_cases heq : id = accountId
  · subst heq
    rw [get?_upsertRow_self, upsertRow, hrow]
    exact ⟨_, rfl, rfl, rfl, rfl⟩
  · exact ⟨row, (get?_upsertRow_of_ne now new heq).trans hrow, rfl, rfl, rfl⟩

/-- A row after an upsert was there, or it is the new one. -/
theorem get?_upsertRow_cases {now : Time} {accountId : AccountId} {new : Row} {id : AccountId}
    {row' : Row} (hrow' : (upsertRow rows now accountId new).2.get? id = some row') :
    (∃ row, rows.get? id = some row ∧ row'.ecdsaPubkeyHex = row.ecdsaPubkeyHex ∧
        row'.active = row.active) ∨
      id = accountId ∧ row' = new := by
  cases hrow : rows.get? id with
  | some row =>
      obtain ⟨kept, hkept, hkey, -, hactive⟩ := get?_upsertRow_of_some now accountId new hrow
      cases hkept.symm.trans hrow'
      exact .inl ⟨row, rfl, hkey, hactive⟩
  | none =>
      by_cases heq : id = accountId
      · subst heq
        rw [get?_upsertRow_of_none now new hrow] at hrow'
        split at hrow'
        · cases hrow'
        · exact .inr ⟨rfl, (Option.some.inj hrow').symm⟩
      · rw [get?_upsertRow_of_ne now new heq, hrow] at hrow'
        cases hrow'

namespace RegisterAccountBody

variable (body : RegisterAccountBody)

/-- The body passes the checks. -/
def Valid : Prop :=
  body.ecdsaPubkeyHex.isEmpty = false ∧ body.deviceFingerprintHash.utf8ByteSize = 64

theorem valid_iff : body.Valid ↔
    ¬ (body.ecdsaPubkeyHex.isEmpty ∨ body.deviceFingerprintHash.utf8ByteSize ≠ 64) := by
  rw [Valid, not_or, Bool.not_eq_true, not_not]

abbrev accountId (sha256 : Bytes → Vector UInt8 32) : AccountId :=
  deriveAccountId sha256 body.ecdsaPubkeyHex body.deviceFingerprintHash

abbrev upsert (sha256 : Bytes → Vector UInt8 32) : Statement :=
  .upsert (body.accountId sha256) body.ecdsaPubkeyHex body.deviceFingerprintHash body.deviceLabel
    (body.platform.getD "browser") body.hardwareSerialHash

abbrev row (now : Time) : Row :=
  .fresh now body.ecdsaPubkeyHex body.deviceFingerprintHash body.deviceLabel
    (body.platform.getD "browser") body.hardwareSerialHash

end RegisterAccountBody

variable (sha256 timeText m rows) in
/-- A valid registration upserts its row, unless the database is down. -/
theorem serve_registerAccount {body : RegisterAccountBody} (hvalid : body.Valid) :
    ((AccountRequest.registerAccount body).serve sha256 timeText m rows).1.status =
        (if m.down (body.upsert sha256) then .internalServerError else .ok) ∧
      ((AccountRequest.registerAccount body).serve sha256 timeText m rows).2 =
        if m.down (body.upsert sha256) then rows
        else (upsertRow rows m.now (body.accountId sha256) (body.row m.now)).2 := by
  rw [AccountRequest.serve, AccountRequest.program, registerAccount, if_neg (body.valid_iff.mp hvalid)]
  by_cases hdown : m.down (body.upsert sha256)
  · rw [if_pos hdown, if_pos hdown, askOr, run_query_of_none _ (Statement.exec_of_down hdown)]
    exact ⟨rfl, rfl⟩
  · rw [if_neg hdown, if_neg hdown, askOr,
      run_query_of_some _ (Statement.exec_of_up (Bool.eq_false_iff.mpr hdown))]
    split
    · rw [run_attempt]
      refine ⟨rfl, ?_⟩
      rw [Statement.exec]
      split <;> rfl
    · exact ⟨rfl, rfl⟩

theorem serve_registerAccount_of_invalid {body : RegisterAccountBody} (hinvalid : ¬ body.Valid) :
    (AccountRequest.registerAccount body).serve sha256 timeText m rows = (.error .badRequest, rows) := by
  rw [AccountRequest.serve, AccountRequest.program, registerAccount,
    if_pos (not_not.mp (mt body.valid_iff.mpr hinvalid)), run_done]

/-! ### The shared database -/

/-- The same rows with their keys alone. -/
def SharedWith (rows : Rows) (s : Db) : Prop :=
  ∀ id, s.accounts.get? id = (rows.get? id).map fun row => ⟨row.ecdsaPubkeyHex⟩

theorem SharedWith.hasKey {s : Db} (hshared : SharedWith rows s) (pubkey : String) :
    HasKey rows pubkey ↔
      (s.accounts.rows.any fun other => other.2.ecdsaPubkeyHex = pubkey) = true := by
  rw [List.any_eq_true]
  constructor
  · rintro ⟨⟨id, row⟩, hrow, hkey⟩
    refine ⟨(id, ⟨row.ecdsaPubkeyHex⟩), ?_, decide_eq_true hkey⟩
    rw [Table.mem_rows_iff, hshared id, Table.mem_rows_iff.mp hrow]
    rfl
  · rintro ⟨⟨id, account⟩, haccount, hkey⟩
    rw [Table.mem_rows_iff, hshared id] at haccount
    obtain ⟨row, hrow, rfl⟩ := Option.map_eq_some_iff.mp haccount
    exact ⟨(id, row), Table.mem_rows_iff.mpr hrow, of_decide_eq_true hkey⟩

theorem SharedWith.upsertRow {s : Db} (hshared : SharedWith rows s) (now : Time)
    (accountId : AccountId) (new : Row) :
    SharedWith (upsertRow rows now accountId new).2
      { s with accounts :=
        ((Account.insert s accountId ⟨new.ecdsaPubkeyHex⟩).getD s.accounts) } := by
  intro id
  show ((Account.insert s accountId ⟨new.ecdsaPubkeyHex⟩).getD s.accounts).get? id = _
  have hid := hshared accountId
  unfold Accounts.upsertRow Account.insert
  cases hrow : rows.get? accountId with
  | some row =>
      rw [hrow] at hid
      rw [if_pos (by rw [hid]; rfl), Option.getD_some, hshared id, Table.get?_update]
      split
      · rename_i heq
        subst heq
        rw [hrow]
        rfl
      · rfl
  | none =>
      rw [hrow, Option.map_none] at hid
      rw [if_neg (by rw [hid]; exact Bool.false_ne_true)]
      dsimp only
      by_cases hkey : HasKey rows new.ecdsaPubkeyHex
      · rw [if_pos ((hshared.hasKey _).mp hkey), if_pos hkey]
        exact hshared id
      · rw [if_neg (mt (hshared.hasKey _).mpr hkey), if_neg hkey, Table.get?_upsert, hrow]
        cases hinsert : s.accounts.insert? accountId ⟨new.ecdsaPubkeyHex⟩ with
        | none => exact absurd hid (Table.insert?_eq_none_iff.mp hinsert)
        | some accounts =>
            rw [Option.getD_some, Table.get?_of_insert? hinsert]
            split
            · rfl
            · exact hshared id

/-- What a registration stores here is what it stores in the shared database. -/
theorem SharedWith.registerAccount {s : Db} (hshared : SharedWith rows s) (body : RegisterAccountBody)
    (hup : m.down (body.upsert sha256) = false) :
    SharedWith ((AccountRequest.registerAccount body).serve sha256 timeText m rows).2
      ((Coordinator.registerAccount (body.accountId sha256)
        ⟨body.ecdsaPubkeyHex, body.deviceFingerprintHash⟩).run Action.exec s).2 := by
  by_cases hvalid : body.Valid
  · have hstored := hshared.upsertRow m.now (body.accountId sha256) (body.row m.now)
    rw [(serve_registerAccount sha256 timeText m rows hvalid).2, if_neg (by rw [hup]; exact Bool.false_ne_true),
      Coordinator.registerAccount, if_neg (body.valid_iff.mp hvalid), run_query, Action.exec]
    cases hinsert : Account.insert s (body.accountId sha256) ⟨body.ecdsaPubkeyHex⟩ with
    | none =>
        rw [show (body.row m.now).ecdsaPubkeyHex = body.ecdsaPubkeyHex from rfl, hinsert] at hstored
        exact hstored
    | some accounts =>
        rw [show (body.row m.now).ecdsaPubkeyHex = body.ecdsaPubkeyHex from rfl, hinsert] at hstored
        exact hstored
  · rw [serve_registerAccount_of_invalid hvalid, Coordinator.registerAccount,
      if_pos (not_not.mp (mt body.valid_iff.mpr hvalid))]
    exact hshared
/-! ### The other requests -/

/-- A device check answers, and at most touches the row. -/
theorem serve_verifyDevice (accountId : AccountId) (body : VerifyDeviceBody) :
    ((AccountRequest.verifyDevice accountId body).serve sha256 timeText m rows).2 = rows ∨
      ((AccountRequest.verifyDevice accountId body).serve sha256 timeText m rows).2 =
        rows.update accountId fun row => { row with lastSeen := some m.now } := by
  rw [AccountRequest.serve, AccountRequest.program, verifyDevice]
  by_cases hdown : m.down (.activeAccount accountId)
  · rw [askOr, run_query_of_none _ (Statement.exec_of_down hdown)]
    exact .inl rfl
  · rw [askOr, run_query_of_some _ (Statement.exec_activeAccount (Bool.eq_false_iff.mpr hdown))]
    split
    · exact .inl rfl
    · dsimp only
      split
      · rw [run_attempt, Statement.exec]
        split
        · exact .inl rfl
        · exact .inr rfl
      · exact .inl rfl

variable (sha256 timeText rows) in
/-- The answer to a device check while the database is up. -/
theorem serve_verifyDevice_reply (accountId : AccountId) (body : VerifyDeviceBody)
    (hup : m.down (.activeAccount accountId) = false) :
    (activeRow rows accountId = none →
      ((AccountRequest.verifyDevice accountId body).serve sha256 timeText m rows).1 = .error .notFound) ∧
    ∀ row, activeRow rows accountId = some row →
      ((AccountRequest.verifyDevice accountId body).serve sha256 timeText m rows).1.status = .ok ∧
      ((AccountRequest.verifyDevice accountId body).serve sha256 timeText m rows).1.body.index "verified" =
        .bool (decide (row.ecdsaPubkeyHex = body.ecdsaPubkeyHex ∧
          row.deviceFingerprintHash = body.deviceFingerprintHash)) := by
  rw [AccountRequest.serve, AccountRequest.program, verifyDevice, askOr,
    run_query_of_some _ (Statement.exec_activeAccount hup)]
  refine ⟨fun hnone => ?_, fun row hrow => ?_⟩
  · rw [hnone]
    rfl
  · rw [hrow]
    dsimp only
    split
    · rename_i hmatch
      rw [run_attempt, decide_eq_true hmatch]
      exact ⟨rfl, rfl⟩
    · rename_i hmatch
      rw [decide_eq_false hmatch]
      exact ⟨rfl, rfl⟩

namespace ReregisterBody

/-- The body passes the checks. -/
def Valid (body : ReregisterBody) : Prop :=
  body.newDeviceFingerprintHash.utf8ByteSize = 64 ∧ body.oldDeviceFingerprintHash.utf8ByteSize = 64

/-- The request is carried out. -/
structure Accepted (body : ReregisterBody) (m : Moment) (rows : Rows) (accountId : AccountId)
    (row : Row) : Prop where
  fresh : body.newDeviceFingerprintHash.utf8ByteSize = 64
  old : body.oldDeviceFingerprintHash.utf8ByteSize = 64
  found : rows.get? accountId = some row
  active : row.active = some true
  key : row.ecdsaPubkeyHex = body.ecdsaPubkeyHex
  reads : m.down (.activeAccount accountId) = false
  writes : m.down (.rebind accountId body.newDeviceFingerprintHash body.deviceLabel) = false

end ReregisterBody

variable (sha256 timeText) in
/-- A request that is carried out rebinds the row. -/
theorem serve_reregisterDevice {accountId : AccountId} {body : ReregisterBody} {row : Row}
    (haccepted : body.Accepted m rows accountId row) :
    ((AccountRequest.reregisterDevice accountId body).serve sha256 timeText m rows).1.status = .ok ∧
      ((AccountRequest.reregisterDevice accountId body).serve sha256 timeText m rows).2 =
        rows.update accountId (.rebind m.now body.newDeviceFingerprintHash body.deviceLabel) := by
  have hactive : activeRow rows accountId = some row :=
    activeRow_eq_some.mpr ⟨haccepted.found, haccepted.active⟩
  rw [AccountRequest.serve, AccountRequest.program, reregisterDevice,
    if_neg (by rw [haccepted.fresh, haccepted.old]; simp), askOr,
    run_query_of_some _ (Statement.exec_activeAccount haccepted.reads), hactive]
  dsimp only
  rw [if_neg (not_not.mpr haccepted.key),
    run_query_of_some _ (Statement.exec_of_up haccepted.writes)]
  simp only [haccepted.found, Option.map_some]
  exact ⟨rfl, rfl⟩

variable (sha256 timeText m rows) in
/-- The answer where there is no active account, and where the database is down. -/
theorem serve_reregisterDevice_reply (accountId : AccountId) {body : ReregisterBody}
    (hvalid : body.Valid) :
    (m.down (.activeAccount accountId) = true →
      ((AccountRequest.reregisterDevice accountId body).serve sha256 timeText m rows).1.status =
        .internalServerError) ∧
    (m.down (.activeAccount accountId) = false → activeRow rows accountId = none →
      (AccountRequest.reregisterDevice accountId body).serve sha256 timeText m rows =
        (.error .notFound, rows)) ∧
    ∀ row, m.down (.activeAccount accountId) = false → activeRow rows accountId = some row →
      row.ecdsaPubkeyHex = body.ecdsaPubkeyHex →
      m.down (.rebind accountId body.newDeviceFingerprintHash body.deviceLabel) = true →
      ((AccountRequest.reregisterDevice accountId body).serve sha256 timeText m rows).1.status =
        .internalServerError := by
  rw [AccountRequest.serve, AccountRequest.program, reregisterDevice, if_neg (by rw [hvalid.1, hvalid.2]; simp),
    askOr]
  refine ⟨fun hdown => ?_, fun hup hnone => ?_, fun row hup hrow hkey hdown => ?_⟩
  · rw [run_query_of_none _ (Statement.exec_of_down hdown)]
    rfl
  · rw [run_query_of_some _ (Statement.exec_activeAccount hup), hnone]
    rfl
  · rw [run_query_of_some _ (Statement.exec_activeAccount hup), hrow]
    dsimp only
    rw [if_neg (not_not.mpr hkey), askOr, run_query_of_none _ (Statement.exec_of_down hdown)]
    rfl

/-- Any other request leaves the table. -/
theorem serve_reregisterDevice_of_not {accountId : AccountId} {body : ReregisterBody}
    (hnot : ∀ row, ¬ body.Accepted m rows accountId row) :
    ((AccountRequest.reregisterDevice accountId body).serve sha256 timeText m rows).2 = rows := by
  rw [AccountRequest.serve, AccountRequest.program, reregisterDevice]
  split
  · rfl
  rename_i hlengths
  rw [not_or, not_not, not_not] at hlengths
  by_cases hdown : m.down (.activeAccount accountId)
  · rw [askOr, run_query_of_none _ (Statement.exec_of_down hdown)]
    rfl
  rw [askOr, run_query_of_some _ (Statement.exec_activeAccount (Bool.eq_false_iff.mpr hdown))]
  cases hfound : activeRow rows accountId with
  | none => rfl
  | some row =>
      obtain ⟨hrow, hactive⟩ := activeRow_eq_some.mp hfound
      dsimp only
      split
      · rfl
      rename_i hkey
      rw [not_not] at hkey
      by_cases hdown' : m.down (.rebind accountId body.newDeviceFingerprintHash body.deviceLabel)
      · rw [askOr, run_query_of_none _ (Statement.exec_of_down hdown')]
        rfl
      · exact absurd ⟨hlengths.1, hlengths.2, hrow, hactive, hkey,
          Bool.eq_false_iff.mpr hdown, Bool.eq_false_iff.mpr hdown'⟩ (hnot row)

end NeuralMesh.Coordinator.Accounts
