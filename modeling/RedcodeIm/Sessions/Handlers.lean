import RedcodeIm.Sessions.Tables

/-!
# The handlers of sessions

The handlers of `auth.rs`, `auth_device.rs` and `qr_login.rs` that give out tokens and codes, take
them and take them back, one stage for each statement, each command of Redis and each look at the
clock.

* `grant` — `register_login_device` and `generate_and_store_refresh_token`.
* `login`, `sendLoginSms`, `loginWithSms`, `resetPasswordWithSms` — passwords and SMS codes.
* `refreshToken`, `revokeUserDevice` — refresh tokens.
* `createQrSession`, `getQrSession`, `confirmQrSession`, `cancelQrSession`, `subscribeQr` — logins
  by QR code.
-/

namespace RedcodeIm

open Lapsing (setEx del expire upsert)
open Text
open Overlap (Next)

/-! ## Answers -/

/-- What an access token says. -/
structure AccessClaims where
  sub : Uuid
  username : String
  deviceId : Option String
  iat : Timestamp
  exp : Timestamp
  deriving DecidableEq

/-- The answers, with the issue of the code that was accepted, if one was. -/
inductive SessionAnswer where
  | loggedIn (claims : AccessClaims) (refreshToken : String) (accepted : Option ℕ)
  | smsSent
  | passwordReset (accepted : Option ℕ)
  | refreshed (claims : AccessClaims) (refreshToken : String)
  | deviceRevoked
  | qrCreated (qrId : Uuid) (expiresAt : Timestamp)
  | qrStatus (status : QrStatus) (loginCode : Option String)
  | qrConfirmed
  | qrCancelled
  | subscribed
  | error (err : SessionError)
  deriving DecidableEq

/-- What a statement draws, and what it meets: whether a command whose failure is ignored is
carried out, and which of the connections take a push. -/
structure SessionChoice where
  uuid : Uuid
  code : ℕ
  passwordHash : String
  worked : Bool
  taken : List String

/-- What a stage of a handler comes to. -/
abbrev SessionNext (Stage : Type) : Type := SessionWorld × Next Stage SessionAnswer

/-- The handler goes on, and nothing is written. -/
def SessionWorld.goto {Stage : Type} (w : SessionWorld) (stage : Stage) : SessionNext Stage :=
  (w, .goto stage)

/-- The handler answers, and nothing is written. -/
def SessionWorld.answer {Stage : Type} (w : SessionWorld) (a : SessionAnswer) : SessionNext Stage :=
  (w, .done a)

/-- The handler fails, and nothing is written. -/
def SessionWorld.refuse {Stage : Type} (w : SessionWorld) (e : SessionError) : SessionNext Stage :=
  (w, .done (.error e))

variable {Stage : Type} (w : SessionWorld)

@[simp] theorem SessionWorld.fst_goto (stage : Stage) : (w.goto stage).1 = w := rfl

/-- A UUID has been drawn. -/
def SessionWorld.draw (w : SessionWorld) (x : SessionChoice) : SessionWorld :=
  { w with drawn := x.uuid :: w.drawn }

def bannedError : SessionError := .forbidden "账户已被封禁，无法登录"

/-! ## Devices and refresh tokens -/

/-- Whom a refresh token is for, and on which device. -/
structure Grant where
  userId : Uuid
  deviceId : String
  deviceName : Option String
  platform : Option String
  deriving DecidableEq

inductive GrantStage where
  | registerDevice
  | setToken (iat : Timestamp)
  | indexToken (iat : Timestamp) (token : String)
  | expireIndex (iat : Timestamp) (token : String)
  deriving DecidableEq

def Grant.payload (g : Grant) : RefreshTokenPayload := ⟨g.userId, false, some g.deviceId⟩

/-- `register_login_device`: where the text is no UUID, the device is refused. -/
def registerLoginDevice (lib : SessionLibraries) (w : SessionWorld) (g : Grant) :
    Except SessionError SessionWorld :=
  match lib.parseUuid g.deviceId with
  | .ok device => .ok (w.upsertDevice g.userId device g.deviceName g.platform)
  | .error e => .error (.validationError ("无效的设备ID: " ++ e))

/-- `register_login_device`, the claims of an access token, and
`generate_and_store_refresh_token`. -/
def grant (lib : SessionLibraries) (g : Grant) (w : SessionWorld) (x : SessionChoice) :
    GrantStage → SessionWorld × Next GrantStage (Except SessionError (Timestamp × String))
  | .registerDevice =>
    match registerLoginDevice lib w g with
    | .ok w' => (w', .goto (.setToken w.now))
    | .error e => (w, .done (.error e))
  | .setToken iat =>
    let token := lib.uuidText x.uuid
    ({ w.draw x with
      refreshTokens := setEx w.refreshTokens w.now token g.payload refreshTokenTtlSeconds
      tokensIssued := (token, g.payload) :: w.tokensIssued }, .goto (.indexToken iat token))
  | .indexToken iat token =>
    ({ w with
      tokensByDevice := upsert w.tokensByDevice w.now g.deviceId [] (List.insert token) },
      .goto (.expireIndex iat token))
  | .expireIndex iat token =>
    (if x.worked then
      { w with
        tokensByDevice := expire w.tokensByDevice w.now g.deviceId refreshTokenTtlSeconds }
    else w, .done (.ok (iat, token)))

/-- The claims of an access token, good for a day. -/
def UserRecord.claims (u : UserRecord) (deviceId : String) (iat : Timestamp) : AccessClaims where
  sub := u.id
  username := u.username
  deviceId := some deviceId
  iat := iat
  exp := iat + 24 * 60 * 60

/-- A stage of `grant` in a handler, which goes on with the token. -/
def granting {Stage : Type} (out : SessionWorld ×
    Next GrantStage (Except SessionError (Timestamp × String))) (stage : GrantStage → Stage)
    (done : Timestamp → String → Next Stage SessionAnswer) : SessionNext Stage :=
  match out with
  | (w, .goto st) => (w, .goto (stage st))
  | (w, .done (.ok (iat, token))) => (w, done iat token)
  | (w, .done (.error e)) => (w, .done (.error e))

/-- The device that a request names, if it does: `resolve_device_id`. -/
def namedDevice (deviceId : Option String) : Option String :=
  (deviceId.map trim).filter (· ≠ "")

/-- `resolve_device_id`: the device that is named, or a new one. -/
def resolveDeviceId {Stage : Type} (lib : SessionLibraries) (w : SessionWorld) (x : SessionChoice)
    (deviceId : Option String) (next : String → Stage) : SessionNext Stage :=
  match namedDevice deviceId with
  | some d => w.goto (next d)
  | none => (w.draw x).goto (next (lib.uuidText x.uuid))

/-! ## Logins with a password -/

/-- `LoginRequest`. -/
structure LoginRequest where
  username : String
  email : String
  password : String
  deviceId : Option String
  deviceName : Option String
  platform : Option String
  deriving DecidableEq

inductive LoginStage where
  | begin
  | emailSetting
  | authenticate
  | resolveDevice (user : UserRecord)
  | granting (user : UserRecord) (g : Grant) (stage : GrantStage)
  deriving DecidableEq

namespace LoginRequest

def normalEmail (r : LoginRequest) : String := toAsciiLowercase (trim r.email)

def normalUsername (r : LoginRequest) : String := toAsciiLowercase (trim r.username)

def usesEmailLogin (r : LoginRequest) : Bool := r.normalUsername = "" && r.normalEmail ≠ ""

/-- The address that is looked up, if the login is by address. -/
def loginEmail (r : LoginRequest) : String := if r.usesEmailLogin then r.normalEmail else ""

def authenticate (lib : SessionLibraries) (r : LoginRequest) (w : SessionWorld) :
    Option UserRecord :=
  w.authenticate lib r.normalUsername r.loginEmail r.password

end LoginRequest

-- Nothing depends on how a password is checked.
attribute [irreducible] LoginRequest.authenticate

def login (lib : SessionLibraries) (r : LoginRequest) (w : SessionWorld) (x : SessionChoice) :
    LoginStage → SessionNext LoginStage
  | .begin =>
    if r.normalEmail = "" ∧ r.normalUsername = "" then w.refuse (.validationError "账号不能为空")
    else if r.usesEmailLogin then w.goto .emailSetting
    else w.goto .authenticate
  | .emailSetting =>
    if !w.emailAuthEnabled then
      w.refuse (.validationError "邮箱登录功能已关闭，请使用账号登录")
    else if !lib.validEmail r.normalEmail then w.refuse (.validationError "邮箱格式不正确")
    else w.goto .authenticate
  | .authenticate =>
    match r.authenticate lib w with
    | some user =>
      if user.status = .banned then w.refuse bannedError else w.goto (.resolveDevice user)
    | none => w.refuse .invalidCredentials
  | .resolveDevice user =>
    resolveDeviceId lib w x r.deviceId fun d =>
      .granting user ⟨user.id, d, r.deviceName, r.platform⟩ .registerDevice
  | .granting user g stage =>
    granting (grant lib g w x stage) (.granting user g) fun iat token =>
      .done (.loggedIn (user.claims g.deviceId iat) token none)

/-! ## SMS codes -/

inductive SendSmsStage where
  | begin
  | requireCaptcha
  | setCode
  deriving DecidableEq

def captchaLoginClosed : SessionError := .validationError "验证码登录功能已关闭，请使用密码登录"

def sendLoginSms (phone : String) (w : SessionWorld) (x : SessionChoice) :
    SendSmsStage → SessionNext SendSmsStage
  | .begin =>
    if trim phone = "" then w.refuse (.validationError "手机号不能为空")
    else w.goto .requireCaptcha
  | .requireCaptcha =>
    if x.worked && w.captcha.requireCaptchaForLogin then w.goto .setCode
    else w.refuse captchaLoginClosed
  | .setCode =>
    ({ w with
      smsCodes := setEx w.smsCodes w.now (trim phone) ⟨toString x.code, w.issued⟩
        smsCodeTtlSeconds
      issued := w.issued + 1 }, .done .smsSent)

/-- The issue of the code that is found, if it is the code of the request: `redis_matched`. -/
def matchedIssue (stored : Option IssuedCode) (code : String) : Option ℕ :=
  (stored.filter (·.code = code)).map (·.issue)

/-- `GET auth:sms:{phone}`, and the comparison. -/
def SessionWorld.readCode (w : SessionWorld) (phone code : String) : Option ℕ :=
  matchedIssue (Lapsing.get w.smsCodes w.now phone) code

/-- `DEL auth:sms:{phone}`. -/
def SessionWorld.deleteCode (w : SessionWorld) (phone : String) : SessionWorld :=
  { w with smsCodes := del w.smsCodes phone }

def wrongCode : SessionError := .validationError "验证码错误或已过期"

/-- `SmsLoginRequest`. -/
structure SmsLoginRequest where
  phone : String
  code : String
  deviceId : Option String
  deviceName : Option String
  platform : Option String
  deriving DecidableEq

inductive SmsLoginStage where
  | begin
  | requireCaptcha
  | getCode
  | universal (matched : Option ℕ)
  | findUser (matched : Option ℕ)
  | createUser (matched : Option ℕ)
  | findAgain (matched : Option ℕ)
  | deleteCode (matched : Option ℕ) (user : UserRecord)
  | resolveDevice (matched : Option ℕ) (user : UserRecord)
  | granting (matched : Option ℕ) (user : UserRecord) (g : Grant) (stage : GrantStage)
  deriving DecidableEq

/-- The account that a login with a code creates. -/
def autoRegistration (phone : String) (x : SessionChoice) : UserRecord where
  id := x.uuid
  username := phone
  email := phone ++ "@example.com"
  passwordHash := x.passwordHash
  status := .active
  deletedAt := none

def loginWithSms (lib : SessionLibraries) (r : SmsLoginRequest) (w : SessionWorld)
    (x : SessionChoice) : SmsLoginStage → SessionNext SmsLoginStage
  | .begin =>
    if trim r.phone = "" ∨ trim r.code = "" then
      w.refuse (.validationError "手机号和验证码不能为空")
    else w.goto .requireCaptcha
  | .requireCaptcha =>
    if x.worked && w.captcha.requireCaptchaForLogin then w.goto .getCode
    else w.refuse captchaLoginClosed
  | .getCode => w.goto (.universal (w.readCode (trim r.phone) (trim r.code)))
  | .universal matched =>
    if matched.isSome || (x.worked && w.isUniversalCaptchaCode (trim r.code)) then
      w.goto (.findUser matched)
    else w.refuse wrongCode
  | .findUser matched =>
    match w.findByUsername (trim r.phone) with
    | some user =>
      if user.status = .banned then w.refuse bannedError else w.goto (.deleteCode matched user)
    | none => w.goto (.createUser matched)
  | .createUser matched =>
    match w.createUser (autoRegistration (trim r.phone) x) with
    | some w' => (w'.draw x).goto (.deleteCode matched (autoRegistration (trim r.phone) x))
    | none => w.goto (.findAgain matched)
  | .findAgain matched =>
    match w.findByUsername (trim r.phone) with
    | some user =>
      if user.status = .banned then w.refuse bannedError else w.goto (.deleteCode matched user)
    | none => w.refuse (.validationError "该账号已存在但当前不可登录，请联系管理员")
  | .deleteCode matched user =>
    if matched.isSome then (w.deleteCode (trim r.phone)).goto (.resolveDevice matched user)
    else w.goto (.resolveDevice matched user)
  | .resolveDevice matched user =>
    resolveDeviceId lib w x r.deviceId fun d =>
      .granting matched user ⟨user.id, d, r.deviceName, r.platform⟩ .registerDevice
  | .granting matched user g stage =>
    granting (grant lib g w x stage) (.granting matched user g) fun iat token =>
      .done (.loggedIn (user.claims g.deviceId iat) token matched)

/-- `ResetPasswordRequest`, of the user that the access token names. -/
structure ResetPasswordRequest where
  username : String
  phone : String
  code : String
  newPassword : String
  deriving DecidableEq

inductive ResetPasswordStage where
  | begin
  | getCode
  | universal (matched : Option ℕ)
  | deleteCode (matched : Option ℕ)
  | findUser (matched : Option ℕ)
  | updatePassword (matched : Option ℕ) (user : UserRecord)
  deriving DecidableEq

def resetPasswordWithSms (r : ResetPasswordRequest) (w : SessionWorld) (x : SessionChoice) :
    ResetPasswordStage → SessionNext ResetPasswordStage
  | .begin =>
    if trim r.phone = "" ∨ trim r.code = "" ∨ trim r.newPassword = "" then
      w.refuse (.validationError "手机号、验证码和新密码均不能为空")
    else if (trim r.newPassword).utf8ByteSize < 6 then
      w.refuse (.validationError "新密码长度至少为 6 个字符")
    else if r.username ≠ trim r.phone then w.refuse (.forbidden "仅可重置当前账号的密码")
    else w.goto .getCode
  | .getCode => w.goto (.universal (w.readCode (trim r.phone) (trim r.code)))
  | .universal matched =>
    if matched.isSome || (x.worked && w.isUniversalCaptchaCode (trim r.code)) then
      w.goto (.deleteCode matched)
    else w.refuse wrongCode
  | .deleteCode matched => (w.deleteCode (trim r.phone)).goto (.findUser matched)
  | .findUser matched =>
    match w.findByUsername (trim r.phone) with
    | some user => w.goto (.updatePassword matched user)
    | none => w.refuse (.notFound "用户不存在")
  | .updatePassword matched user =>
    (w.updatePassword user.id x.passwordHash).answer (.passwordReset matched)

/-! ## Refresh tokens -/

inductive RefreshStage where
  | begin
  | getToken
  | findUser (p : RefreshTokenPayload)
  | resolveDevice (p : RefreshTokenPayload) (user : UserRecord)
  | registerDevice (p : RefreshTokenPayload) (user : UserRecord) (deviceId : String)
  | expireToken (p : RefreshTokenPayload) (user : UserRecord) (deviceId : String) (iat : Timestamp)
  deriving DecidableEq

def refreshToken (lib : SessionLibraries) (token : String) (w : SessionWorld)
    (x : SessionChoice) : RefreshStage → SessionNext RefreshStage
  | .begin =>
    if trim token = "" then w.refuse (.validationError "refresh_token 不能为空")
    else w.goto .getToken
  | .getToken =>
    match Lapsing.get w.refreshTokens w.now (trim token) with
    | some p =>
      if p.isAdmin then w.refuse (.invalidToken "刷新令牌类型不匹配，请使用管理员刷新接口")
      else w.goto (.findUser p)
    | none => w.refuse (.invalidToken "刷新令牌已过期，请重新登录")
  | .findUser p =>
    match w.findById p.userId with
    | some user =>
      if user.status = .banned then w.refuse bannedError else w.goto (.resolveDevice p user)
    | none => w.refuse (.notFound "用户不存在或已被删除")
  | .resolveDevice p user =>
    match p.deviceId with
    | some d => w.goto (.registerDevice p user d)
    | none => (w.draw x).goto (.registerDevice p user (lib.uuidText x.uuid))
  | .registerDevice p user d =>
    match registerLoginDevice lib w ⟨user.id, d, none, none⟩ with
    | .ok w' => w'.goto (.expireToken p user d w.now)
    | .error e => w.refuse e
  | .expireToken _ user d iat =>
    ({ w with
      refreshTokens := expire w.refreshTokens w.now (trim token) refreshTokenTtlSeconds },
      .done (.refreshed (user.claims d iat) (trim token)))

inductive RevokeUserDeviceStage where
  | update
  | members
  | delTokens (tokens : List String)
  deriving DecidableEq

/-- `revoke_device` of `auth_device.rs`; what fails in Redis is ignored. -/
def revokeUserDevice (lib : SessionLibraries) (userId deviceId : Uuid) (w : SessionWorld)
    (x : SessionChoice) : RevokeUserDeviceStage → SessionNext RevokeUserDeviceStage
  | .update =>
    match w.revokeDevice userId deviceId with
    | (w', true) => w'.goto .members
    | (_, false) => w.refuse (.notFound "设备不存在或已撤销")
  | .members =>
    w.goto (.delTokens (if x.worked then
      (Lapsing.get w.tokensByDevice w.now (lib.uuidText deviceId)).getD [] else []))
  | .delTokens (token :: tokens) =>
    (if x.worked then { w with refreshTokens := del w.refreshTokens token } else w,
      .goto (.delTokens tokens))
  | .delTokens [] =>
    (if x.worked then
      { w with tokensByDevice := del w.tokensByDevice (lib.uuidText deviceId) } else w,
      .done .deviceRevoked)

/-! ## Logins by QR code -/

def qrNotFound : SessionError := .notFound "扫码会话不存在"

def qrProcessed : SessionError := .businessError "扫码会话已处理，请刷新二维码"

def createQrSession {Stage : Type} (w : SessionWorld) (x : SessionChoice) : SessionNext Stage :=
  ((w.draw x).createQr x.uuid).answer (.qrCreated x.uuid (w.now + qrTtlMinutes * 60))

inductive QrPollStage where
  | start
  | judge (r : QrLoginSessionRecord)
  | markExpired
  | selectCode
  | clearCode (code : String)
  deriving DecidableEq

/-- A poll. -/
def getQrSession (qrId : Uuid) (w : SessionWorld) : QrPollStage → SessionNext QrPollStage
  | .start =>
    match w.qrSessions qrId with
    | some r => w.goto (.judge r)
    | none => w.refuse qrNotFound
  | .judge r =>
    if r.status = .pending ∧ r.expiresAt ≤ w.now then w.goto .markExpired
    else if r.status = .confirmed then w.goto .selectCode
    else w.answer (.qrStatus r.status none)
  | .markExpired => (w.markExpiredIfNeeded qrId).answer (.qrStatus .expired none)
  | .selectCode =>
    match w.selectLoginCode qrId with
    | some code => w.goto (.clearCode code)
    | none => w.answer (.qrStatus .expired none)
  | .clearCode code => (w.clearLoginCode qrId).answer (.qrStatus .confirmed (some code))

inductive QrConfirmStage where
  | start
  | judge (r : QrLoginSessionRecord)
  | markExpired
  | granting (g : Grant) (stage : GrantStage)
  | confirm (code : String)
  | push (code : String)
  deriving DecidableEq

/-- `send_to_qr` with a login code, to the connections that take it. -/
def SessionWorld.pushCode (w : SessionWorld) (x : SessionChoice) (qrId : Uuid) (code : String) :
    SessionWorld :=
  { w with
    pushes := w.pushes ++
      ((w.qrSubscribers qrId).filter (· ∈ x.taken)).map fun conn => ⟨qrId, conn, code⟩ }

def confirmQrSession (lib : SessionLibraries) (userId qrId : Uuid)
    (deviceName platform : Option String) (w : SessionWorld) (x : SessionChoice) :
    QrConfirmStage → SessionNext QrConfirmStage
  | .start =>
    match w.qrSessions qrId with
    | some r => w.goto (.judge r)
    | none => w.refuse qrNotFound
  | .judge r =>
    if r.status ≠ .pending then w.refuse qrProcessed
    else if r.expiresAt ≤ w.now then w.goto .markExpired
    else (w.draw x).goto
      (.granting ⟨userId, lib.uuidText x.uuid, deviceName, platform⟩ .registerDevice)
  | .markExpired => (w.markExpiredIfNeeded qrId).refuse (.businessError "二维码已过期，请刷新后重试")
  | .granting g stage =>
    granting (grant lib g w x stage) (.granting g) fun _ token => .goto (.confirm token)
  | .confirm code =>
    match w.confirmQr qrId userId code with
    | (w', true) => w'.goto (.push code)
    | (_, false) => w.refuse qrProcessed
  | .push code => (w.pushCode x qrId code).answer .qrConfirmed

/-- The push that follows carries no code. -/
def cancelQrSession {Stage : Type} (qrId : Uuid) (w : SessionWorld) : SessionNext Stage :=
  match w.cancelQr qrId with
  | (w', true) => w'.answer .qrCancelled
  | (_, false) => w.refuse (.businessError "扫码会话已处理，无法取消")

/-- `subscribe_qr`. -/
def subscribeQr {Stage : Type} (qrId : Uuid) (connId : String) (w : SessionWorld) :
    SessionNext Stage :=
  ({ w with
    qrSubscribers :=
      Function.update w.qrSubscribers qrId (List.insert connId (w.qrSubscribers qrId)) },
    .done .subscribed)

end RedcodeIm
