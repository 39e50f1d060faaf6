import RedcodeIm.Database.Uuids
import RedcodeIm.Sessions.Handlers

/-!
# Sessions as a system of calls

The handlers of `Sessions/Handlers.lean`, any number of them at a time: `sessions`.  Beside them
time goes on, users and settings are changed, and connections close.

* `SessionCall`, `SessionStage`, `sessions` — the calls and the system.
* `SessionTick` — what else happens.
* `KeepsCodes`, `KeepsTokens`, `KeepsQr` — what a handler leaves alone.
-/

namespace RedcodeIm

open Overlap (Next System)

/-- The calls. -/
inductive SessionCall where
  | login (r : LoginRequest)
  | sendLoginSms (phone : String)
  | loginWithSms (r : SmsLoginRequest)
  | resetPasswordWithSms (r : ResetPasswordRequest)
  | refreshToken (token : String)
  | revokeDevice (userId deviceId : Uuid)
  | createQrSession
  | getQrSession (qrId : Uuid)
  | confirmQrSession (userId qrId : Uuid) (deviceName platform : Option String)
  | cancelQrSession (qrId : Uuid)
  | subscribeQr (qrId : Uuid) (connId : String)
  deriving DecidableEq

/-- The stages of the calls. -/
inductive SessionStage where
  | login (r : LoginRequest) (stage : LoginStage)
  | sendLoginSms (phone : String) (stage : SendSmsStage)
  | loginWithSms (r : SmsLoginRequest) (stage : SmsLoginStage)
  | resetPasswordWithSms (r : ResetPasswordRequest) (stage : ResetPasswordStage)
  | refreshToken (token : String) (stage : RefreshStage)
  | revokeDevice (userId deviceId : Uuid) (stage : RevokeUserDeviceStage)
  | createQrSession
  | getQrSession (qrId : Uuid) (stage : QrPollStage)
  | confirmQrSession (userId qrId : Uuid) (deviceName platform : Option String)
      (stage : QrConfirmStage)
  | cancelQrSession (qrId : Uuid)
  | subscribeQr (qrId : Uuid) (connId : String)
  deriving DecidableEq

/-- The first stage of a call. -/
def SessionCall.start : SessionCall → SessionStage
  | .login r => .login r .begin
  | .sendLoginSms phone => .sendLoginSms phone .begin
  | .loginWithSms r => .loginWithSms r .begin
  | .resetPasswordWithSms r => .resetPasswordWithSms r .begin
  | .refreshToken token => .refreshToken token .begin
  | .revokeDevice userId deviceId => .revokeDevice userId deviceId .update
  | .createQrSession => .createQrSession
  | .getQrSession qrId => .getQrSession qrId .start
  | .confirmQrSession userId qrId deviceName platform =>
    .confirmQrSession userId qrId deviceName platform .start
  | .cancelQrSession qrId => .cancelQrSession qrId
  | .subscribeQr qrId connId => .subscribeQr qrId connId

/-- The call that a stage is one of. -/
def SessionStage.call : SessionStage → SessionCall
  | .login r _ => .login r
  | .sendLoginSms phone _ => .sendLoginSms phone
  | .loginWithSms r _ => .loginWithSms r
  | .resetPasswordWithSms r _ => .resetPasswordWithSms r
  | .refreshToken token _ => .refreshToken token
  | .revokeDevice userId deviceId _ => .revokeDevice userId deviceId
  | .createQrSession => .createQrSession
  | .getQrSession qrId _ => .getQrSession qrId
  | .confirmQrSession userId qrId deviceName platform _ =>
    .confirmQrSession userId qrId deviceName platform
  | .cancelQrSession qrId => .cancelQrSession qrId
  | .subscribeQr qrId connId => .subscribeQr qrId connId

@[simp] theorem SessionCall.call_start (c : SessionCall) : c.start.call = c := by
  cases c <;> rfl

/-- A stage of a handler, as a stage of the system. -/
def SessionNext.embed {Stage : Type} (f : Stage → SessionStage) (out : SessionNext Stage) :
    SessionNext SessionStage :=
  (out.1, out.2.map f)

/-- The statement of a call at a stage. -/
def sessionStatement (lib : SessionLibraries) (w : SessionWorld) (x : SessionChoice) :
    SessionStage → SessionNext SessionStage
  | .login r stage => (login lib r w x stage).embed (.login r)
  | .sendLoginSms phone stage => (sendLoginSms phone w x stage).embed (.sendLoginSms phone)
  | .loginWithSms r stage => (loginWithSms lib r w x stage).embed (.loginWithSms r)
  | .resetPasswordWithSms r stage =>
    (resetPasswordWithSms r w x stage).embed (.resetPasswordWithSms r)
  | .refreshToken token stage => (refreshToken lib token w x stage).embed (.refreshToken token)
  | .revokeDevice userId deviceId stage =>
    (revokeUserDevice lib userId deviceId w x stage).embed (.revokeDevice userId deviceId)
  | .createQrSession => createQrSession w x
  | .getQrSession qrId stage => (getQrSession qrId w stage).embed (.getQrSession qrId)
  | .confirmQrSession userId qrId deviceName platform stage =>
    (confirmQrSession lib userId qrId deviceName platform w x stage).embed
      (.confirmQrSession userId qrId deviceName platform)
  | .cancelQrSession qrId => cancelQrSession qrId w
  | .subscribeQr qrId connId => subscribeQr qrId connId w

/-- A new UUID differs from those drawn before, in its text too, and from those of the QR sessions,
and a verification code has six digits. -/
def SessionChoice.possible (lib : SessionLibraries) (w : SessionWorld) (x : SessionChoice) : Bool :=
  (w.drawn.all fun u => u ≠ x.uuid && lib.uuidText u ≠ lib.uuidText x.uuid) &&
    (w.qrSessions x.uuid).isNone && 100000 ≤ x.code && x.code ≤ 999999

/-- What happens beside the calls. -/
inductive SessionTick where
  | elapse (seconds : ℕ)
  | putUser (u : UserRecord)
  | setCaptcha (c : CaptchaSetting)
  | setEmailAuth (enabled : Bool)
  | disconnect (connId : String)

def SessionWorld.tick (w : SessionWorld) : SessionTick → SessionWorld
  | .elapse seconds => { w with now := w.now + seconds }
  | .putUser u => { w with users := w.users.put u }
  | .setCaptcha c => { w with captcha := c }
  | .setEmailAuth enabled => { w with emailAuthEnabled := enabled }
  | .disconnect connId =>
    { w with qrSubscribers := fun qrId => (w.qrSubscribers qrId).filter (· ≠ connId) }

open SessionWorld

/-- The handlers. -/
def sessions (lib : SessionLibraries) :
    System SessionWorld SessionCall SessionStage SessionAnswer SessionChoice SessionTick where
  start := SessionCall.start
  stmt w _ stage x := sessionStatement lib w x stage
  possible w _ _ x := x.possible lib w
  tick := tick

/-! ## Samples -/

/-- Libraries to try schedules with: UUIDs are as they are, a hash is the password behind a
mark. -/
def sampleLibraries : SessionLibraries where
  parseUuid := sampleParseUuid
  uuidText := sampleUuidText
  verifyPassword password hash := hash = "$2b$" ++ password
  validEmail email := email.toList.contains '@'

namespace Sessions

abbrev State := Overlap.State SessionWorld SessionCall SessionStage SessionAnswer

abbrev Status := Overlap.Status SessionStage SessionAnswer

abbrev Condition := Overlap.Condition SessionWorld SessionCall SessionStage SessionAnswer
  SessionChoice

abbrev Act := Overlap.Act SessionCall SessionChoice SessionTick

/-- A user, and nothing else. -/
def sampleWorld : SessionWorld where
  now := 1000
  users := Table.empty.insert ⟨1, "13800000000", "u@example.com", "$2b$secret", .active, none⟩
  devices _ := none
  qrSessions _ := none
  captcha := ⟨false, "", true⟩
  emailAuthEnabled := false
  smsCodes _ := none
  refreshTokens _ := none
  tokensByDevice _ := none
  qrSubscribers _ := []
  drawn := []
  issued := 0
  tokensIssued := []
  pushes := []

def sampleChoice (uuid : Uuid) : SessionChoice := ⟨uuid, 123456, "", true, []⟩

/-- Some statements of a call, with UUIDs from a number on. -/
def runs (i n : ℕ) (first : Uuid) : List Act :=
  (List.range' first n).map fun uuid => .run i (sampleChoice uuid)

variable {stage : SessionStage}

theorem embed_goto {Stage : Type} {f : Stage → SessionStage} {out : SessionNext Stage}
    (h : (out.embed f).2 = .goto stage) : ∃ st, stage = f st := by
  rcases out with ⟨w, st | a⟩
  · exact ⟨st, (Next.goto.inj h).symm⟩
  · cases h

variable {w : SessionWorld}

theorem call_of_goto {lib : SessionLibraries} {x : SessionChoice} {stage' : SessionStage}
    (h : (sessionStatement lib w x stage).2 = .goto stage') :
    stage'.call = stage.call := by
  cases stage with
  | createQrSession => cases h
  | cancelQrSession qrId =>
    simp only [sessionStatement, cancelQrSession] at h
    split at h <;> cases h
  | subscribeQr qrId connId => cases h
  | login | sendLoginSms | loginWithSms | resetPasswordWithSms | refreshToken | revokeDevice
  | getQrSession | confirmQrSession =>
    obtain ⟨st, rfl⟩ := embed_goto h
    rfl

/-- A handler that has answered. -/
theorem done_of_embed {Stage : Type} {f : Stage → SessionStage} {out : SessionNext Stage}
    {a : SessionAnswer} (h : (out.embed f).2.status = .answered a) : out.2 = .done a := by
  rcases out with ⟨w, st | a'⟩
  · cases h
  · cases h
    rfl

theorem running_call {out : SessionNext SessionStage}
    (h : ∀ stage', out.2 = .goto stage' → stage'.call = stage.call) (stage' : SessionStage)
    (hst : out.2.status = .running stage') : stage'.call = stage.call := by
  rcases out with ⟨w', st | a⟩
  · cases hst
    exact h _ rfl
  · cases hst

/-! ## What a handler leaves alone -/

/-- The verification codes are as they were. -/
structure KeepsCodes (w w' : SessionWorld) : Prop where
  smsCodes : w'.smsCodes = w.smsCodes
  issued : w'.issued = w.issued

/-- The refresh tokens are as they were, and what has been drawn has been. -/
structure KeepsTokens (w w' : SessionWorld) : Prop where
  refreshTokens : w'.refreshTokens = w.refreshTokens
  tokensByDevice : w'.tokensByDevice = w.tokensByDevice
  tokensIssued : w'.tokensIssued = w.tokensIssued
  now : w'.now = w.now
  drawn : ∀ u ∈ w.drawn, u ∈ w'.drawn

/-- The QR sessions are as they were. -/
structure KeepsQr (w w' : SessionWorld) : Prop where
  qrSessions : w'.qrSessions = w.qrSessions
  pushes : w'.pushes = w.pushes

@[simp] theorem KeepsCodes.rfl : KeepsCodes w w := ⟨Eq.refl _, Eq.refl _⟩
@[simp] theorem KeepsTokens.rfl : KeepsTokens w w :=
  ⟨Eq.refl _, Eq.refl _, Eq.refl _, Eq.refl _, fun _ h => h⟩
@[simp] theorem KeepsQr.rfl : KeepsQr w w := ⟨Eq.refl _, Eq.refl _⟩

section

variable {lib : SessionLibraries} {w w' : SessionWorld} {x : SessionChoice}

theorem keeps_upsertDevice (userId device : Uuid) (name platform : Option String) :
    KeepsCodes w (w.upsertDevice userId device name platform) ∧
      KeepsQr w (w.upsertDevice userId device name platform) := by
  unfold upsertDevice
  split
  · exact ⟨⟨rfl, rfl⟩, ⟨rfl, rfl⟩⟩
  · split <;> exact ⟨⟨rfl, rfl⟩, ⟨rfl, rfl⟩⟩

theorem keeps_registerLoginDevice {g : Grant} (h : registerLoginDevice lib w g = .ok w') :
    KeepsCodes w w' ∧ KeepsQr w w' := by
  unfold registerLoginDevice at h
  split at h
  · cases h
    exact keeps_upsertDevice ..
  · cases h

variable (lib w x) in
theorem keeps_grant {g : Grant} (stage : GrantStage) :
    KeepsCodes w (grant lib g w x stage).1 ∧ KeepsQr w (grant lib g w x stage).1 := by
  cases stage with
  | registerDevice =>
    simp only [grant]
    split
    · rename_i h
      exact keeps_registerLoginDevice h
    · exact ⟨.rfl, .rfl⟩
  | expireIndex iat token =>
    simp only [grant]
    split <;> exact ⟨⟨rfl, rfl⟩, ⟨rfl, rfl⟩⟩
  | _ => exact ⟨⟨rfl, rfl⟩, ⟨rfl, rfl⟩⟩

variable {Stage : Type}

/-- A handler that goes on with `grant` writes what `grant` does. -/
theorem granting_fst
    (out : SessionWorld ×
    Next GrantStage (Except SessionError (Timestamp × String))) (f : GrantStage → Stage)
    (done : Timestamp → String → Next Stage SessionAnswer) :
    (granting out f done).1 = out.1 := by
  rcases out with ⟨w', st | ⟨e | ⟨iat, token⟩⟩⟩ <;> rfl

variable (lib w x) in
theorem keeps_resolveDeviceId (deviceId : Option String) (next : String → Stage) :
    KeepsCodes w (resolveDeviceId lib w x deviceId next).1 ∧
      KeepsTokens w (resolveDeviceId lib w x deviceId next).1 ∧
      KeepsQr w (resolveDeviceId lib w x deviceId next).1 := by
  unfold resolveDeviceId
  split
  · exact ⟨⟨rfl, rfl⟩, ⟨rfl, rfl, rfl, rfl, fun _ h => h⟩, ⟨rfl, rfl⟩⟩
  · exact ⟨⟨rfl, rfl⟩, ⟨rfl, rfl, rfl, rfl, fun _ h => List.mem_cons_of_mem _ h⟩, ⟨rfl, rfl⟩⟩

theorem keeps_login {r : LoginRequest} (stage : LoginStage) :
    KeepsCodes w (login lib r w x stage).1 ∧ KeepsQr w (login lib r w x stage).1 := by
  cases stage with
  | authenticate =>
    simp only [login]
    split
    · split_ifs <;> exact ⟨.rfl, .rfl⟩
    · exact ⟨.rfl, .rfl⟩
  | resolveDevice user =>
    obtain ⟨hc, -, hq⟩ := keeps_resolveDeviceId lib w x r.deviceId
      fun d => LoginStage.granting user ⟨user.id, d, r.deviceName, r.platform⟩ .registerDevice
    exact ⟨hc, hq⟩
  | granting user g stage =>
    simp only [login, granting_fst]
    exact keeps_grant lib w x stage
  | _ =>
    simp only [login]
    split
    · exact ⟨.rfl, .rfl⟩
    · split <;> exact ⟨.rfl, .rfl⟩

theorem keeps_sendLoginSms {phone : String} (stage : SendSmsStage) :
    KeepsTokens w (sendLoginSms phone w x stage).1 ∧
      KeepsQr w (sendLoginSms phone w x stage).1 := by
  cases stage with
  | setCode => simp only [sendLoginSms]; exact ⟨⟨rfl, rfl, rfl, rfl, fun _ h => h⟩, ⟨rfl, rfl⟩⟩
  | _ => simp only [sendLoginSms]; split <;> exact ⟨.rfl, .rfl⟩

theorem keeps_updatePassword (userId : Uuid) (hash : String) :
    KeepsCodes w (w.updatePassword userId hash) ∧ KeepsTokens w (w.updatePassword userId hash) ∧
      KeepsQr w (w.updatePassword userId hash) := by
  unfold updatePassword
  split <;> exact ⟨⟨rfl, rfl⟩, ⟨rfl, rfl, rfl, rfl, fun _ h => h⟩, ⟨rfl, rfl⟩⟩

theorem keeps_deleteCode (phone : String) :
    KeepsTokens w (w.deleteCode phone) ∧ KeepsQr w (w.deleteCode phone) :=
  ⟨⟨rfl, rfl, rfl, rfl, fun _ h => h⟩, ⟨rfl, rfl⟩⟩

theorem keeps_createUser {u : UserRecord} (h : w.createUser u = some w') :
    KeepsCodes w w' ∧ KeepsTokens w w' ∧ KeepsQr w w' := by
  unfold createUser at h
  split at h
  · cases h
  · cases h
    exact ⟨⟨rfl, rfl⟩, ⟨rfl, rfl, rfl, rfl, fun _ h => h⟩, ⟨rfl, rfl⟩⟩

theorem keeps_loginWithSms {r : SmsLoginRequest} (stage : SmsLoginStage) :
    KeepsQr w (loginWithSms lib r w x stage).1 := by
  cases stage with
  | getCode => simp only [loginWithSms, fst_goto]; exact .rfl
  | findUser | findAgain =>
    simp only [loginWithSms]
    split
    · split <;> exact .rfl
    · exact .rfl
  | createUser matched =>
    simp only [loginWithSms]
    split
    · rename_i h
      exact ⟨(keeps_createUser h).2.2.1, (keeps_createUser h).2.2.2⟩
    · exact .rfl
  | deleteCode matched user =>
    simp only [loginWithSms]
    split
    · exact (keeps_deleteCode _).2
    · exact .rfl
  | resolveDevice matched user => exact (keeps_resolveDeviceId lib w x r.deviceId _).2.2
  | granting matched user g stage =>
    simp only [loginWithSms, granting_fst]
    exact (keeps_grant lib w x stage).2
  | _ => simp only [loginWithSms]; split <;> exact .rfl

theorem keeps_resetPasswordWithSms {r : ResetPasswordRequest} (stage : ResetPasswordStage) :
    KeepsTokens w (resetPasswordWithSms r w x stage).1 ∧
      KeepsQr w (resetPasswordWithSms r w x stage).1 := by
  cases stage with
  | begin =>
    simp only [resetPasswordWithSms]
    split
    · exact ⟨.rfl, .rfl⟩
    · split
      · exact ⟨.rfl, .rfl⟩
      · split <;> exact ⟨.rfl, .rfl⟩
  | getCode => simp only [resetPasswordWithSms, fst_goto]; exact ⟨.rfl, .rfl⟩
  | deleteCode matched => exact keeps_deleteCode _
  | updatePassword matched user => exact (keeps_updatePassword user.id x.passwordHash).2
  | _ => simp only [resetPasswordWithSms]; split <;> exact ⟨.rfl, .rfl⟩

theorem keeps_refreshToken {token : String} (stage : RefreshStage) :
    KeepsCodes w (refreshToken lib token w x stage).1 ∧
      KeepsQr w (refreshToken lib token w x stage).1 := by
  cases stage with
  | begin => simp only [refreshToken]; split_ifs <;> exact ⟨.rfl, .rfl⟩
  | resolveDevice p user =>
    simp only [refreshToken]
    split <;> exact ⟨⟨rfl, rfl⟩, ⟨rfl, rfl⟩⟩
  | registerDevice p user d =>
    simp only [refreshToken]
    split
    · rename_i h
      exact keeps_registerLoginDevice h
    · exact ⟨.rfl, .rfl⟩
  | expireToken p user d iat => exact ⟨⟨rfl, rfl⟩, ⟨rfl, rfl⟩⟩
  | _ =>
    simp only [refreshToken]
    split
    · split_ifs <;> exact ⟨.rfl, .rfl⟩
    · exact ⟨.rfl, .rfl⟩

theorem keeps_revokeUserDevice {userId deviceId : Uuid} (stage : RevokeUserDeviceStage) :
    KeepsCodes w (revokeUserDevice lib userId deviceId w x stage).1 ∧
      KeepsQr w (revokeUserDevice lib userId deviceId w x stage).1 := by
  cases stage with
  | update =>
    simp only [revokeUserDevice, SessionWorld.revokeDevice]
    split
    · rename_i h
      split at h
      · split at h
        · obtain ⟨rfl, -⟩ := Prod.mk.inj h
          exact ⟨⟨rfl, rfl⟩, ⟨rfl, rfl⟩⟩
        · cases h
      · cases h
    · exact ⟨.rfl, .rfl⟩
  | members => exact ⟨.rfl, .rfl⟩
  | delTokens tokens =>
    cases tokens with
    | nil => simp only [revokeUserDevice]; split_ifs <;> exact ⟨⟨rfl, rfl⟩, ⟨rfl, rfl⟩⟩
    | cons token tokens =>
      simp only [revokeUserDevice]
      split_ifs <;> exact ⟨⟨rfl, rfl⟩, ⟨rfl, rfl⟩⟩

theorem keeps_updateQr (qrId : Uuid) (cond : QrLoginSessionRecord → Bool)
    (set : QrLoginSessionRecord → QrLoginSessionRecord) :
    KeepsCodes w (w.updateQr qrId cond set).1 ∧ KeepsTokens w (w.updateQr qrId cond set).1 := by
  unfold updateQr
  split
  · split <;> exact ⟨⟨rfl, rfl⟩, ⟨rfl, rfl, rfl, rfl, fun _ h => h⟩⟩
  · exact ⟨.rfl, .rfl⟩

variable {qrId : Uuid}

theorem keeps_getQrSession (stage : QrPollStage) :
    KeepsCodes w (getQrSession qrId w stage).1 ∧ KeepsTokens w (getQrSession qrId w stage).1 := by
  cases stage with
  | judge r =>
    simp only [getQrSession]
    split
    · exact ⟨.rfl, .rfl⟩
    · split <;> exact ⟨.rfl, .rfl⟩
  | markExpired | clearCode => exact keeps_updateQr ..
  | _ => simp only [getQrSession]; split <;> exact ⟨.rfl, .rfl⟩

theorem keeps_confirmQrSession {userId : Uuid} {deviceName platform : Option String}
    (stage : QrConfirmStage) :
    KeepsCodes w (confirmQrSession lib userId qrId deviceName platform w x stage).1 := by
  cases stage with
  | start => simp only [confirmQrSession]; split <;> exact .rfl
  | judge r =>
    simp only [confirmQrSession]
    split
    · exact .rfl
    · split
      · exact .rfl
      · exact ⟨rfl, rfl⟩
  | markExpired => exact (keeps_updateQr ..).1
  | granting g stage =>
    simp only [confirmQrSession, granting_fst]
    exact (keeps_grant lib w x stage).1
  | confirm code =>
    have hk := (keeps_updateQr (w := w) qrId (fun r => r.status = .pending &&
      decide (w.now < r.expiresAt)) fun r =>
      { r with
        status := .confirmed
        userId := some userId
        loginCode := some code
        confirmedAt := some w.now }).1
    simp only [confirmQrSession, confirmQr]
    split
    · rename_i h
      rw [h] at hk
      exact hk
    · exact .rfl
  | push code => exact ⟨rfl, rfl⟩

variable (w) in
theorem keeps_cancelQrSession :
    KeepsCodes w (cancelQrSession qrId w : SessionNext Stage).1 ∧
      KeepsTokens w (cancelQrSession qrId w : SessionNext Stage).1 := by
  have hk := keeps_updateQr (w := w) qrId (·.status = .pending) fun r =>
    { r with status := .cancelled, cancelledAt := some w.now }
  simp only [cancelQrSession, cancelQr]
  split
  · rename_i h
    rw [h] at hk
    exact hk
  · exact ⟨.rfl, .rfl⟩

end

end Sessions

end RedcodeIm
