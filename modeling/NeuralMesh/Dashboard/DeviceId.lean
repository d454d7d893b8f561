import Mathlib.Data.List.Infix
import NeuralMesh.Coordinator.Accounts

/-!
# The identity of a browser

`dashboard/src/lib/device-id.ts`: the fingerprint, the account id, and the calls that create, verify
and re-register an identity. IndexedDB keeps what it is given; a request reaches the coordinator or
not, and its answer comes back or not.
-/

namespace NeuralMesh.Dashboard

open Coordinator.Accounts (Row Rows Moment AccountRequest HasKey)

/-- What a page reads off the browser. -/
structure Signals where
  platform : String
  hardwareConcurrency : Nat
  language : String
  timeZone : String
  width : Nat
  height : Nat
  colorDepth : Nat
  /-- As `String` writes it. -/
  devicePixelRatio : String

variable (sha256 : Bytes → Vector UInt8 32) (timeText : Time → String)

def hexDigest (bytes : Bytes) : String := Hex.encode (sha256 bytes).toList

def computeDeviceFingerprint (s : Signals) : String :=
  hexDigest sha256 (utf8 (String.intercalate "|||" [
    if s.platform = "" then "unknown" else s.platform,
    toString s.hardwareConcurrency,
    s.language,
    s.timeZone,
    toString s.width ++ "x" ++ toString s.height ++ "x" ++ toString s.colorDepth,
    s.devicePixelRatio]))

/-- The public key in SPKI format, which is 91 bytes for P-256. -/
abbrev Spki := Vector UInt8 91

def exportPublicKeyHex (spki : Spki) : String := Hex.encode spki.toList

/-- 96-bit account ID -/
def deriveAccountId (pubkeyHex fingerprintHash : String) : AccountId :=
  String.ofList ((hexDigest sha256 (utf8 (pubkeyHex ++ "||" ++ fingerprintHash))).toList.take 24)

/-- `text.includes(part)` -/
def includes (text part : String) : Bool := decide (part.toList <:+: text.toList)

def detectPlatform (userAgent : String) : String :=
  let ua := userAgent.toLower
  if includes ua "mac" then "macos"
  else if includes ua "linux" then "linux"
  else if includes ua "win" then "windows"
  else "browser"

structure DeviceIdentity where
  accountId : AccountId
  deviceFingerprintHash : String
  ecdsaPubkeyHex : String
  deviceLabel : String
  platform : String
  deriving DecidableEq

/-- What becomes of a request. -/
inductive Fate where
  | answered | lost | unanswered
  deriving DecidableEq

structure Dispatch where
  fate : Fate
  moment : Moment

/-- `fetch`: no reply where it rejects. -/
def fetch (r : AccountRequest) (d : Dispatch) (rows : Rows) : Option Reply × Rows :=
  match d.fate with
  | .answered => ((some (r.serve sha256 timeText d.moment rows).1),
      (r.serve sha256 timeText d.moment rows).2)
  | .lost => (none, rows)
  | .unanswered => (none, (r.serve sha256 timeText d.moment rows).2)

/-- `res.ok` -/
def isOk (reply : Reply) : Bool := reply.status = .ok

/-- An identity, the replies that came back and the table afterwards. -/
structure Registration where
  identity : DeviceIdentity
  replies : List (Option Reply)
  rows : Rows

def DeviceIdentity.registration (identity : DeviceIdentity) : AccountRequest :=
  .registerAccount
    { ecdsaPubkeyHex := identity.ecdsaPubkeyHex
      deviceFingerprintHash := identity.deviceFingerprintHash
      deviceLabel := some identity.deviceLabel
      platform := some identity.platform
      hardwareSerialHash := none }

/-- The identity with another fingerprint. -/
def DeviceIdentity.withFingerprint (identity : DeviceIdentity) (newFingerprint : String) :
    DeviceIdentity :=
  { identity with deviceFingerprintHash := newFingerprint }

def DeviceIdentity.rebinding (identity : DeviceIdentity) (newFingerprint : String) :
    Coordinator.Accounts.ReregisterBody where
  ecdsaPubkeyHex := identity.ecdsaPubkeyHex
  oldDeviceFingerprintHash := identity.deviceFingerprintHash
  newDeviceFingerprintHash := newFingerprint
  deviceLabel := some identity.deviceLabel

def createIdentity (spki : Spki) (userAgent : String) (deviceLabel : Option String) (s : Signals)
    (d : Dispatch) (rows : Rows) : Registration :=
  let pubkeyHex := exportPublicKeyHex spki
  let fingerprintHash := computeDeviceFingerprint sha256 s
  let platform := detectPlatform userAgent
  let identity : DeviceIdentity :=
    { accountId := deriveAccountId sha256 pubkeyHex fingerprintHash
      deviceFingerprintHash := fingerprintHash
      ecdsaPubkeyHex := pubkeyHex
      deviceLabel := (deviceLabel.filter (· ≠ "")).getD (platform ++ " device")
      platform }
  -- Registration failure is non-fatal
  let res := fetch sha256 timeText identity.registration d rows
  ⟨identity, [res.1], res.2⟩

structure Verification where
  verified : Json
  reason : Json

def verifyDevice (identity : DeviceIdentity) (s : Signals) (d : Dispatch) (rows : Rows) :
    Verification × Rows :=
  let currentFingerprint := computeDeviceFingerprint sha256 s
  if currentFingerprint ≠ identity.deviceFingerprintHash then
    (⟨.bool false, .str "fingerprint_mismatch"⟩, rows)
  else
    let res := fetch sha256 timeText
      (.verifyDevice identity.accountId
        { deviceFingerprintHash := currentFingerprint, ecdsaPubkeyHex := identity.ecdsaPubkeyHex })
      d rows
    match res.1 with
    | some reply =>
        if ¬ isOk reply then (⟨.bool false, .str "server_error"⟩, res.2)
        else (⟨reply.body.index "verified", reply.body.index "reason"⟩, res.2)
    -- Offline — trust the local fingerprint check
    | none => (⟨.bool true, .null⟩, res.2)

/-- Re-register this device — updates the stored fingerprint to the current one. -/
def reRegisterDevice (identity : DeviceIdentity) (s : Signals) (d fallback : Dispatch)
    (rows : Rows) : Registration :=
  let newFingerprint := computeDeviceFingerprint sha256 s
  let updated := identity.withFingerprint newFingerprint
  -- Try to update the existing server record
  let reregRes := fetch sha256 timeText
    (.reregisterDevice identity.accountId (identity.rebinding newFingerprint)) d rows
  -- If account is missing from coordinator (e.g. DB was wiped), re-register it fresh
  if reregRes.1.all fun reply => reply.status = .notFound then
    let res := fetch sha256 timeText updated.registration fallback reregRes.2
    ⟨updated, [reregRes.1, res.1], res.2⟩
  else ⟨updated, [reregRes.1], reregRes.2⟩

/-! ### One account id -/

variable {sha256 timeText}

theorem take_flatMap_encodeByte (bytes : Bytes) (n : Nat) :
    (bytes.flatMap Hex.encodeByte).take (2 * n) = (bytes.take n).flatMap Hex.encodeByte := by
  induction bytes generalizing n with
  | nil => simp
  | cons b bytes ih =>
      cases n with
      | zero => rfl
      | succ n =>
          rw [List.flatMap_cons, List.take_succ_cons, List.flatMap_cons, ← ih, Nat.mul_succ]
          rfl

/-- The client derives the id the coordinator derives. -/
theorem deriveAccountId_eq (pubkeyHex fingerprintHash : String) :
    deriveAccountId sha256 pubkeyHex fingerprintHash =
      Coordinator.Accounts.deriveAccountId sha256 pubkeyHex fingerprintHash := by
  have hbytes : utf8 (pubkeyHex ++ "||" ++ fingerprintHash) =
      utf8 pubkeyHex ++ utf8 "||" ++ utf8 fingerprintHash := by
    simp only [utf8, String.toList_append, List.flatMap_append]
  rw [deriveAccountId, hexDigest, hbytes, Hex.encode, String.toList_ofList,
    take_flatMap_encodeByte _ 12]
  rfl

theorem utf8ByteSize_hexDigest (bytes : Bytes) : (hexDigest sha256 bytes).utf8ByteSize = 64 := by
  rw [utf8ByteSize_eq, hexDigest, Hex.length_utf8_encode, Vector.length_toList]

theorem isEmpty_exportPublicKeyHex (spki : Spki) : (exportPublicKeyHex spki).isEmpty = false := by
  rw [String.isEmpty, utf8ByteSize_eq, exportPublicKeyHex, Hex.length_utf8_encode,
    Vector.length_toList]
  rfl

end NeuralMesh.Dashboard
