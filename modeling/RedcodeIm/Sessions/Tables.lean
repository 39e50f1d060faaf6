import RedcodeIm.Database.Models
import RedcodeIm.Lib.Lapsing
import RedcodeIm.Lib.Overlap
import RedcodeIm.Lib.Text

/-!
# Users, devices, tokens and codes

What the handlers of `auth.rs`, `auth_device.rs` and `qr_login.rs` keep: the rows of `users`,
`user_devices` and `qr_login_sessions`, the settings, the keys of Redis, and who is subscribed to
a QR session.

* `UserRecord`, `UserDeviceRecord`, `QrLoginSessionRecord` — the rows.
* `RefreshTokenPayload`, `IssuedCode` — the values in Redis.
* `SessionWorld` — all of it, with what has been drawn, issued and pushed so far.
* `SessionWorld.findByUsername`, `upsertDevice`, `revokeDevice` … — the queries of the stores.
-/

namespace RedcodeIm

open Lapsing (Store)

/-- The errors of the handlers. -/
inductive SessionError where
  | invalidToken (message : String)
  | invalidCredentials
  | notFound (message : String)
  | validationError (message : String)
  | forbidden (message : String)
  | businessError (message : String)
  deriving DecidableEq

/-! ## Rows -/

/-- `users.status`. -/
inductive UserStatus where
  | active
  | inactive
  | banned
  deriving DecidableEq

/-- A row of `users`. -/
structure UserRecord where
  id : Uuid
  username : String
  email : String
  passwordHash : String
  status : UserStatus
  deletedAt : Option Timestamp
  deriving DecidableEq

/-- A row of `user_devices`. -/
structure UserDeviceRecord where
  id : Uuid
  userId : Uuid
  deviceName : String
  platform : String
  lastSeenAt : Timestamp
  createdAt : Timestamp
  revokedAt : Option Timestamp
  deriving DecidableEq

/-- `qr_login_sessions.status`. -/
inductive QrStatus where
  | pending
  | confirmed
  | cancelled
  | expired
  deriving DecidableEq

/-- A row of `qr_login_sessions`. -/
structure QrLoginSessionRecord where
  qrToken : Uuid
  userId : Option Uuid
  status : QrStatus
  loginCode : Option String
  expiresAt : Timestamp
  confirmedAt : Option Timestamp
  cancelledAt : Option Timestamp
  deriving DecidableEq

/-- `captcha_settings`. -/
structure CaptchaSetting where
  enabled : Bool
  captchaCode : String
  requireCaptchaForLogin : Bool
  deriving DecidableEq

/-! ## Redis -/

/-- `RefreshTokenPayload`. -/
structure RefreshTokenPayload where
  userId : Uuid
  isAdmin : Bool
  deviceId : Option String
  deriving DecidableEq

/-- A verification code, and the number under which it was issued. -/
structure IssuedCode where
  code : String
  issue : ℕ
  deriving DecidableEq

/-- A push of a login code over a WebSocket. -/
structure CodePush where
  qrToken : Uuid
  connId : String
  loginCode : String
  deriving DecidableEq

def refreshTokenTtlSeconds : ℕ := 30 * 24 * 60 * 60

/-- How long a verification code is kept. -/
def smsCodeTtlSeconds : ℕ := 300

/-- `QR_TTL_MINUTES`. -/
def qrTtlMinutes : ℕ := 5

/-! ## The world -/

/-- What the handlers get from the crates they use: the texts of UUIDs, the check of a password
against a hash, and the pattern of an address. -/
structure SessionLibraries where
  parseUuid : String → Except String Uuid
  uuidText : Uuid → String
  verifyPassword : String → String → Bool
  validEmail : String → Bool

/-- What is stored. -/
structure SessionWorld where
  now : Timestamp
  users : Table UserRecord.id
  devices : Uuid → Option UserDeviceRecord
  qrSessions : Uuid → Option QrLoginSessionRecord
  captcha : CaptchaSetting
  emailAuthEnabled : Bool
  /-- `auth:sms:{phone}`. -/
  smsCodes : Store String IssuedCode
  /-- `auth:refresh:{token}`. -/
  refreshTokens : Store String RefreshTokenPayload
  /-- `auth:refresh:by-device:{device}`. -/
  tokensByDevice : Store String (List String)
  qrSubscribers : Uuid → List String
  /-- The UUIDs drawn so far. -/
  drawn : List Uuid
  /-- How many verification codes have been issued. -/
  issued : ℕ
  /-- The refresh tokens issued so far. -/
  tokensIssued : List (String × RefreshTokenPayload)
  /-- The login codes pushed so far. -/
  pushes : List CodePush

namespace SessionWorld

/-! ## `user_store.rs` -/

def findByUsernameAnyStatus (w : SessionWorld) (username : String) : Option UserRecord :=
  w.users.rows.find? fun u => u.username = username && u.deletedAt.isNone

def findByUsername (w : SessionWorld) (username : String) : Option UserRecord :=
  w.users.rows.find? fun u => u.username = username && u.status = .active && u.deletedAt.isNone

def findByEmailAnyStatus (w : SessionWorld) (email : String) : Option UserRecord :=
  w.users.rows.find? fun u => u.email = email && u.deletedAt.isNone

def findById (w : SessionWorld) (userId : Uuid) : Option UserRecord :=
  (w.users.get userId).filter fun u => u.status = .active && u.deletedAt.isNone

/-- `authenticate`. -/
def authenticate (lib : SessionLibraries) (w : SessionWorld) (username email password : String) :
    Option UserRecord :=
  let user := if Text.trim email = "" then w.findByUsernameAnyStatus (Text.trim username)
    else w.findByEmailAnyStatus (Text.trim email)
  user.filter fun u => lib.verifyPassword password u.passwordHash

/-- `create_user`, or a violation of the unique names and addresses. -/
def createUser (w : SessionWorld) (u : UserRecord) : Option SessionWorld :=
  if w.users.rows.any fun r => r.username = u.username || r.email = u.email then none
  else some { w with users := w.users.insert u }

def updatePassword (w : SessionWorld) (userId : Uuid) (hash : String) : SessionWorld :=
  match w.findById userId with
  | some u => { w with users := w.users.put { u with passwordHash := hash } }
  | none => w

/-! ## `user_device_store.rs` -/

/-- A text of a request, without white space at its ends, or `unknown`. -/
def orUnknown (text : Option String) : String :=
  ((text.map Text.trim).filter (· ≠ "")).getD "unknown"

/-- `INSERT … ON CONFLICT (id) DO UPDATE … WHERE user_devices.user_id = $2`. -/
def upsertDevice (w : SessionWorld) (userId deviceId : Uuid) (deviceName platform : Option String) :
    SessionWorld :=
  match w.devices deviceId with
  | none =>
    { w with
      devices := Function.update w.devices deviceId (some
        { id := deviceId
          userId := userId
          deviceName := orUnknown deviceName
          platform := orUnknown platform
          lastSeenAt := w.now
          createdAt := w.now
          revokedAt := none }) }
  | some r =>
    if r.userId = userId then
      { w with
        devices := Function.update w.devices deviceId (some
          { r with
            deviceName := orUnknown deviceName
            platform := orUnknown platform
            lastSeenAt := w.now
            revokedAt := none }) }
    else w

/-- `revoke_device`: whether a row was there to revoke. -/
def revokeDevice (w : SessionWorld) (userId deviceId : Uuid) : SessionWorld × Bool :=
  match w.devices deviceId with
  | some r =>
    if r.userId = userId ∧ r.revokedAt = none then
      ({ w with
        devices := Function.update w.devices deviceId (some { r with revokedAt := some w.now }) },
        true)
    else (w, false)
  | none => (w, false)

/-! ## `qr_login_store.rs` -/

/-- An `UPDATE` of the row of a session, where it meets a condition. -/
def updateQr (w : SessionWorld) (qrToken : Uuid) (cond : QrLoginSessionRecord → Bool)
    (set : QrLoginSessionRecord → QrLoginSessionRecord) : SessionWorld × Bool :=
  match w.qrSessions qrToken with
  | some r =>
    if cond r then
      ({ w with qrSessions := Function.update w.qrSessions qrToken (some (set r)) }, true)
    else (w, false)
  | none => (w, false)

/-- `create`. -/
def createQr (w : SessionWorld) (qrToken : Uuid) : SessionWorld :=
  { w with
    qrSessions := Function.update w.qrSessions qrToken (some
      { qrToken := qrToken
        userId := none
        status := .pending
        loginCode := none
        expiresAt := w.now + qrTtlMinutes * 60
        confirmedAt := none
        cancelledAt := none }) }

/-- `confirm`. -/
def confirmQr (w : SessionWorld) (qrToken userId : Uuid) (loginCode : String) :
    SessionWorld × Bool :=
  w.updateQr qrToken (fun r => r.status = .pending && decide (w.now < r.expiresAt)) fun r =>
    { r with
      status := .confirmed
      userId := some userId
      loginCode := some loginCode
      confirmedAt := some w.now }

/-- `cancel`. -/
def cancelQr (w : SessionWorld) (qrToken : Uuid) : SessionWorld × Bool :=
  w.updateQr qrToken (·.status = .pending) fun r =>
    { r with status := .cancelled, cancelledAt := some w.now }

/-- `mark_expired_if_needed`. -/
def markExpiredIfNeeded (w : SessionWorld) (qrToken : Uuid) : SessionWorld :=
  (w.updateQr qrToken (fun r => r.status = .pending && decide (r.expiresAt ≤ w.now)) fun r =>
    { r with status := .expired }).1

/-- The first statement of `consume_login_code`. -/
def selectLoginCode (w : SessionWorld) (qrToken : Uuid) : Option String :=
  ((w.qrSessions qrToken).filter (·.status = .confirmed)).bind (·.loginCode)

/-- The second statement of `consume_login_code`. -/
def clearLoginCode (w : SessionWorld) (qrToken : Uuid) : SessionWorld :=
  (w.updateQr qrToken (fun _ => true) fun r => { r with loginCode := none }).1

/-! ## Settings -/

/-- `is_universal_captcha_code`; the handlers take a failure to read the setting for a no. -/
def isUniversalCaptchaCode (w : SessionWorld) (input : String) : Bool :=
  let trimmed := Text.trim input
  let code := Text.trim w.captcha.captchaCode
  trimmed ≠ "" && w.captcha.enabled && code ≠ "" &&
    Text.toAsciiLowercase code = Text.toAsciiLowercase trimmed

end SessionWorld

end RedcodeIm
