import RedcodeIm.Sessions.System

/-!
# A device is revoked

A revocation deletes the refresh tokens that the set of its device lists.  The set has a time to
live of its own, a key that names the text of a device and no user, and it is read by one command
while tokens are issued, read and prolonged by others; `RevokesAlone` is the condition under which
the tokens that go are those of the user, and go for good.

* `refreshing`, `issuing`, `indexing`, `deleting` — what calls have to do with tokens.
* `TokenMove` — all that a statement does to tokens.
* `device_revocation` — after a revocation nothing comes of the tokens that were issued, and those
  of other users are kept.
-/

namespace RedcodeIm

open Lapsing (setEx del expire upsert)
open Overlap (Next Each Reach Step)

namespace Sessions

/-! ## What calls have to do with tokens -/

/-- The token and the payload that a refresh has read. -/
def refreshing : Status → Option (String × RefreshTokenPayload)
  | .running (.refreshToken token (.findUser p))
  | .running (.refreshToken token (.resolveDevice p _))
  | .running (.refreshToken token (.registerDevice p ..))
  | .running (.refreshToken token (.expireToken p ..)) => some (Text.trim token, p)
  | _ => none

/-- The stage at which a call gives out a refresh token. -/
def grantOf : SessionStage → Option (Grant × GrantStage)
  | .login _ (.granting _ g stage) | .loginWithSms _ (.granting _ _ g stage)
  | .confirmQrSession _ _ _ _ (.granting g stage) => some (g, stage)
  | _ => none

/-- The payload of the token that a call is about to store. -/
def issuing (stage : SessionStage) : Option RefreshTokenPayload :=
  match grantOf stage with
  | some (g, .setToken _) => some g.payload
  | _ => none

/-- The token that a call is about to list. -/
def indexing : Status → Option String
  | .running stage =>
    match grantOf stage with
    | some (_, .indexToken _ token) => some token
    | _ => none
  | _ => none

/-- The tokens that a revocation has read and not deleted yet, with its user and its device. -/
def deleting : Status → Option (Uuid × Uuid × List String)
  | .running (.revokeDevice userId deviceId (.delTokens tokens)) => some (userId, deviceId, tokens)
  | _ => none

/-- A call that has nothing of the kind to do. -/
structure Plain (st : Status) : Prop where
  refreshing : refreshing st = none
  indexing : indexing st = none
  deleting : deleting st = none

theorem Plain.of_answer (a : SessionAnswer) : Plain (.answered a) := ⟨rfl, rfl, rfl⟩

/-! ## What a statement does to tokens -/

/-- All that a statement does to tokens, to their sets, and to what its call has to do with them. -/
inductive TokenMove (lib : SessionLibraries) (w : SessionWorld) (x : SessionChoice)
    (stage : SessionStage) (w' : SessionWorld) (st : Status) : Prop where
  | keep (hw : KeepsTokens w w') (hst : Plain st)
  | going (hw : KeepsTokens w w') (hsome : (refreshing st).isSome = true)
      (hsame : refreshing st = refreshing (.running stage))
  | read (token : String) (p : RefreshTokenPayload) (hw : KeepsTokens w w')
      (hget : Lapsing.get w.refreshTokens w.now token = some p)
      (hst : refreshing st = some (token, p))
  | prolong (token : String) (p : RefreshTokenPayload)
      (hstage : refreshing (.running stage) = some (token, p))
      (hcall : ∃ t, stage.call = .refreshToken t ∧ Text.trim t = token)
      (htokens : w'.refreshTokens = expire w.refreshTokens w.now token refreshTokenTtlSeconds)
      (hsets : w'.tokensByDevice = w.tokensByDevice) (hissued : w'.tokensIssued = w.tokensIssued)
      (hnow : w'.now = w.now) (hdrawn : w'.drawn = w.drawn) (a : SessionAnswer)
      (hst : st = .answered a)
  | issue (p : RefreshTokenPayload) (hstage : issuing stage = some p)
      (htokens : w'.refreshTokens =
        setEx w.refreshTokens w.now (lib.uuidText x.uuid) p refreshTokenTtlSeconds)
      (hsets : w'.tokensByDevice = w.tokensByDevice)
      (hissued : w'.tokensIssued = (lib.uuidText x.uuid, p) :: w.tokensIssued)
      (hnow : w'.now = w.now) (hdrawn : w'.drawn = x.uuid :: w.drawn)
      (hst : indexing st = some (lib.uuidText x.uuid)) (hrefreshing : refreshing st = none)
      (hdeleting : deleting st = none) (hrunning : ∃ stage', st = .running stage')
  | index (key token : String) (hstage : indexing (.running stage) = some token)
      (htokens : w'.refreshTokens = w.refreshTokens)
      (hsets : w'.tokensByDevice = upsert w.tokensByDevice w.now key [] (List.insert token))
      (hissued : w'.tokensIssued = w.tokensIssued) (hnow : w'.now = w.now)
      (hdrawn : w'.drawn = w.drawn) (hst : Plain st)
  | unindex (htokens : w'.refreshTokens = w.refreshTokens)
      (hsets : ∀ k e, w'.tokensByDevice k = some e →
        ∃ e', w.tokensByDevice k = some e' ∧ e.value = e'.value)
      (hissued : w'.tokensIssued = w.tokensIssued) (hnow : w'.now = w.now)
      (hdrawn : w'.drawn = w.drawn) (hst : Plain st)
  | list (userId deviceId : Uuid) (hstage : stage = .revokeDevice userId deviceId .members)
      (hw : w' = w)
      (hst : st = .running (.revokeDevice userId deviceId (.delTokens (if x.worked then
        (Lapsing.get w.tokensByDevice w.now (lib.uuidText deviceId)).getD [] else []))))
  | delete (userId deviceId : Uuid) (token : String) (tokens : List String)
      (hstage : stage = .revokeDevice userId deviceId (.delTokens (token :: tokens)))
      (htokens : w'.refreshTokens = if x.worked then del w.refreshTokens token else w.refreshTokens)
      (hsets : w'.tokensByDevice = w.tokensByDevice) (hissued : w'.tokensIssued = w.tokensIssued)
      (hnow : w'.now = w.now) (hdrawn : w'.drawn = w.drawn)
      (hst : st = .running (.revokeDevice userId deviceId (.delTokens tokens)))

section

variable {lib : SessionLibraries} {w w' : SessionWorld} {x : SessionChoice}

theorem keepsTokens_upsertDevice (userId device : Uuid) (name platform : Option String) :
    KeepsTokens w (w.upsertDevice userId device name platform) := by
  unfold SessionWorld.upsertDevice
  split
  · exact ⟨rfl, rfl, rfl, rfl, fun _ h => h⟩
  · split <;> exact ⟨rfl, rfl, rfl, rfl, fun _ h => h⟩

theorem keepsTokens_registerLoginDevice {g : Grant} (h : registerLoginDevice lib w g = .ok w') :
    KeepsTokens w w' := by
  unfold registerLoginDevice at h
  split at h
  · cases h
    exact keepsTokens_upsertDevice ..
  · cases h

/-- A handler that gives out a token. -/
theorem granting_move {Stage : Type} {f : Stage → SessionStage} {k : GrantStage → Stage}
    {g : Grant} (hk : ∀ stage, grantOf (f (k stage)) = some (g, stage))
    (hplain : ∀ stage, refreshing (.running (f (k stage))) = none ∧
      deleting (.running (f (k stage))) = none)
    {done : Timestamp → String → Next Stage SessionAnswer}
    (hdone : ∀ iat token, Plain ((done iat token).map f).status) (stage : GrantStage) :
    TokenMove lib w x (f (k stage)) ((granting (grant lib g w x stage) k done).embed f).1
      ((granting (grant lib g w x stage) k done).embed f).2.status := by
  have hrunning : ∀ stage, (∀ iat token, stage ≠ .indexToken iat token) →
      Plain (.running (f (k stage))) := by
    intro stage hne
    refine ⟨(hplain stage).1, ?_, (hplain stage).2⟩
    simp only [indexing, hk stage]
    cases stage with
    | indexToken iat token => exact absurd rfl (hne iat token)
    | registerDevice | setToken | expireIndex => rfl
  cases stage with
  | registerDevice =>
    simp only [grant]
    cases h : registerLoginDevice lib w g with
    | ok w' => exact .keep (keepsTokens_registerLoginDevice h) (hrunning _ (by simp))
    | error e => exact .keep .rfl (.of_answer _)
  | setToken iat =>
    refine .issue g.payload ?_ rfl rfl rfl rfl rfl ?_ (hplain _).1 (hplain _).2 ⟨_, rfl⟩
    · simp only [issuing, hk]
    · show indexing (.running (f (k _))) = _
      simp only [indexing, hk]
  | indexToken iat token =>
    refine .index g.deviceId token ?_ rfl rfl rfl rfl rfl (hrunning _ (by simp))
    simp only [indexing, hk]
  | expireIndex iat token =>
    simp only [grant]
    split
    · exact .unindex rfl (fun k e h => Lapsing.value_expire h) rfl rfl rfl (hdone iat token)
    · exact .unindex rfl (fun k e h => ⟨e, h, rfl⟩) rfl rfl rfl (hdone iat token)

/-- A handler that has nothing to do with tokens. -/
theorem TokenMove.of_keeps {Stage : Type} {out : SessionNext Stage} {f : Stage → SessionStage}
    {stage : SessionStage} (hk : KeepsTokens w out.1) (hf : ∀ s, Plain (.running (f s))) :
    TokenMove lib w x stage (out.embed f).1 (out.embed f).2.status := by
  rcases out with ⟨w', st | a⟩
  · exact .keep hk (hf st)
  · exact .keep hk (.of_answer a)

theorem login_move {r : LoginRequest} (stage : LoginStage) :
    TokenMove lib w x (.login r stage) ((login lib r w x stage).embed (.login r)).1
      ((login lib r w x stage).embed (.login r)).2.status := by
  have hplain : ∀ user g, Plain (.running (.login r (.granting user g .registerDevice))) :=
    fun user g => ⟨rfl, rfl, rfl⟩
  cases stage with
  | begin =>
    simp only [login]
    split
    · exact .keep .rfl (.of_answer _)
    · split <;> exact .keep .rfl ⟨rfl, rfl, rfl⟩
  | emailSetting =>
    simp only [login]
    split
    · exact .keep .rfl (.of_answer _)
    · split
      · exact .keep .rfl (.of_answer _)
      · exact .keep .rfl ⟨rfl, rfl, rfl⟩
  | authenticate =>
    simp only [login]
    split
    · split
      · exact .keep .rfl (.of_answer _)
      · exact .keep .rfl ⟨rfl, rfl, rfl⟩
    · exact .keep .rfl (.of_answer _)
  | resolveDevice user =>
    simp only [login, resolveDeviceId]
    split
    · exact .keep .rfl (hplain _ _)
    · exact .keep ⟨rfl, rfl, rfl, rfl, fun _ h => List.mem_cons_of_mem _ h⟩ (hplain _ _)
  | granting user g stage =>
    refine granting_move (f := SessionStage.login r) (k := LoginStage.granting user g)
      (fun _ => rfl) (fun _ => ⟨rfl, rfl⟩) (fun iat token => ?_) stage
    exact .of_answer _

theorem loginWithSms_token {r : SmsLoginRequest} (stage : SmsLoginStage) :
    TokenMove lib w x (.loginWithSms r stage)
      ((loginWithSms lib r w x stage).embed (.loginWithSms r)).1
      ((loginWithSms lib r w x stage).embed (.loginWithSms r)).2.status := by
  have hplain : ∀ m user g,
      Plain (.running (.loginWithSms r (.granting m user g .registerDevice))) :=
    fun m user g => ⟨rfl, rfl, rfl⟩
  have hdelete : ∀ m user, Plain (.running (.loginWithSms r (.deleteCode m user))) :=
    fun m user => ⟨rfl, rfl, rfl⟩
  cases stage with
  | begin =>
    simp only [loginWithSms]
    split
    · exact .keep .rfl (.of_answer _)
    · exact .keep .rfl ⟨rfl, rfl, rfl⟩
  | getCode => exact .keep .rfl ⟨rfl, rfl, rfl⟩
  | findUser matched =>
    simp only [loginWithSms]
    split
    · split
      · exact .keep .rfl (.of_answer _)
      · exact .keep .rfl (hdelete _ _)
    · exact .keep .rfl ⟨rfl, rfl, rfl⟩
  | createUser matched =>
    simp only [loginWithSms]
    split
    · rename_i h
      obtain ⟨-, hk, -⟩ := keeps_createUser h
      refine .keep ⟨hk.refreshTokens, hk.tokensByDevice, hk.tokensIssued, hk.now, fun u hu => ?_⟩
        (hdelete _ _)
      exact List.mem_cons_of_mem _ (hk.drawn u hu)
    · exact .keep .rfl ⟨rfl, rfl, rfl⟩
  | findAgain matched =>
    simp only [loginWithSms]
    split
    · split
      · exact .keep .rfl (.of_answer _)
      · exact .keep .rfl (hdelete _ _)
    · exact .keep .rfl (.of_answer _)
  | deleteCode matched user =>
    simp only [loginWithSms]
    split
    · exact .keep (keeps_deleteCode _).1 ⟨rfl, rfl, rfl⟩
    · exact .keep .rfl ⟨rfl, rfl, rfl⟩
  | resolveDevice matched user =>
    simp only [loginWithSms, resolveDeviceId]
    split
    · exact .keep .rfl (hplain _ _ _)
    · exact .keep ⟨rfl, rfl, rfl, rfl, fun _ h => List.mem_cons_of_mem _ h⟩ (hplain _ _ _)
  | granting matched user g stage =>
    refine granting_move (f := SessionStage.loginWithSms r)
      (k := SmsLoginStage.granting matched user g) (fun _ => rfl) (fun _ => ⟨rfl, rfl⟩)
      (fun iat token => ?_) stage
    exact .of_answer _
  | _ =>
    simp only [loginWithSms]
    split
    · exact .keep .rfl ⟨rfl, rfl, rfl⟩
    · exact .keep .rfl (.of_answer _)

theorem refreshToken_move {token : String} (stage : RefreshStage) :
    TokenMove lib w x (.refreshToken token stage)
      ((refreshToken lib token w x stage).embed (.refreshToken token)).1
      ((refreshToken lib token w x stage).embed (.refreshToken token)).2.status := by
  cases stage with
  | begin =>
    simp only [refreshToken]
    split
    · exact .keep .rfl (.of_answer _)
    · exact .keep .rfl ⟨rfl, rfl, rfl⟩
  | getToken =>
    simp only [refreshToken]
    split
    · rename_i p hp
      split
      · exact .keep .rfl (.of_answer _)
      · exact .read _ p .rfl hp rfl
    · exact .keep .rfl (.of_answer _)
  | findUser p =>
    simp only [refreshToken]
    split
    · split
      · exact .keep .rfl (.of_answer _)
      · exact .going .rfl rfl rfl
    · exact .keep .rfl (.of_answer _)
  | resolveDevice p user =>
    simp only [refreshToken]
    split
    · exact .going .rfl rfl rfl
    · exact .going ⟨rfl, rfl, rfl, rfl, fun _ h => List.mem_cons_of_mem _ h⟩ rfl rfl
  | registerDevice p user d =>
    simp only [refreshToken]
    split
    · rename_i h
      exact .going (keepsTokens_registerLoginDevice h) rfl rfl
    · exact .keep .rfl (.of_answer _)
  | expireToken p user d iat => exact .prolong _ p rfl ⟨token, rfl, rfl⟩ rfl rfl rfl rfl rfl _ rfl

theorem revokeUserDevice_move {userId deviceId : Uuid} (stage : RevokeUserDeviceStage) :
    TokenMove lib w x (.revokeDevice userId deviceId stage)
      ((revokeUserDevice lib userId deviceId w x stage).embed (.revokeDevice userId deviceId)).1
      ((revokeUserDevice lib userId deviceId w x stage).embed
        (.revokeDevice userId deviceId)).2.status := by
  cases stage with
  | update =>
    simp only [revokeUserDevice]
    split
    · rename_i w' h
      have hk : KeepsTokens w (w.revokeDevice userId deviceId).1 := by
        unfold SessionWorld.revokeDevice
        split
        · split <;> exact ⟨rfl, rfl, rfl, rfl, fun _ h => h⟩
        · exact .rfl
      rw [h] at hk
      exact .keep hk ⟨rfl, rfl, rfl⟩
    · exact .keep .rfl (.of_answer _)
  | members => exact .list userId deviceId rfl rfl rfl
  | delTokens tokens =>
    cases tokens with
    | nil =>
      simp only [revokeUserDevice]
      split
      · refine .unindex rfl (fun k e h => ?_) rfl rfl rfl (.of_answer _)
        exact ⟨e, (Lapsing.value_del h).2, rfl⟩
      · exact .unindex rfl (fun k e h => ⟨e, h, rfl⟩) rfl rfl rfl (.of_answer _)
    | cons token tokens =>
      simp only [revokeUserDevice]
      split
      · rename_i hx
        exact .delete userId deviceId token tokens rfl (by rw [if_pos hx]; rfl) rfl rfl rfl rfl rfl
      · rename_i hx
        exact .delete userId deviceId token tokens rfl (by rw [if_neg hx]; rfl) rfl rfl rfl rfl rfl

theorem confirmQrSession_token {userId q : Uuid} {deviceName platform : Option String}
    (stage : QrConfirmStage) :
    TokenMove lib w x (.confirmQrSession userId q deviceName platform stage)
      ((confirmQrSession lib userId q deviceName platform w x stage).embed
        (.confirmQrSession userId q deviceName platform)).1
      ((confirmQrSession lib userId q deviceName platform w x stage).embed
        (.confirmQrSession userId q deviceName platform)).2.status := by
  cases stage with
  | start =>
    simp only [confirmQrSession]
    split
    · exact .keep .rfl ⟨rfl, rfl, rfl⟩
    · exact .keep .rfl (.of_answer _)
  | judge r =>
    simp only [confirmQrSession]
    split
    · exact .keep .rfl (.of_answer _)
    · split
      · exact .keep .rfl ⟨rfl, rfl, rfl⟩
      · exact .keep ⟨rfl, rfl, rfl, rfl, fun _ h => List.mem_cons_of_mem _ h⟩ ⟨rfl, rfl, rfl⟩
  | markExpired => exact .keep (keeps_updateQr ..).2 (.of_answer _)
  | granting g stage =>
    exact granting_move
      (f := SessionStage.confirmQrSession userId q deviceName platform)
      (k := QrConfirmStage.granting g)
      (fun _ => rfl) (fun _ => ⟨rfl, rfl⟩) (fun _ _ => ⟨rfl, rfl, rfl⟩) stage
  | confirm code =>
    have hk := (keeps_updateQr (w := w) q (fun r => r.status = .pending &&
      decide (w.now < r.expiresAt)) fun r =>
      { r with
        status := .confirmed
        userId := some userId
        loginCode := some code
        confirmedAt := some w.now }).2
    simp only [confirmQrSession, SessionWorld.confirmQr]
    split
    · rename_i h
      rw [h] at hk
      exact .keep hk ⟨rfl, rfl, rfl⟩
    · exact .keep .rfl (.of_answer _)
  | push code => exact .keep ⟨rfl, rfl, rfl, rfl, fun _ h => h⟩ (.of_answer _)

variable (lib w x) in
/-- Every statement makes one of these moves. -/
theorem tokenMove (stage : SessionStage) :
    TokenMove lib w x stage (sessionStatement lib w x stage).1
      (sessionStatement lib w x stage).2.status := by
  cases stage with
  | login r stage => exact login_move stage
  | sendLoginSms phone stage =>
    exact .of_keeps (keeps_sendLoginSms stage).1 fun _ => ⟨rfl, rfl, rfl⟩
  | loginWithSms r stage => exact loginWithSms_token stage
  | resetPasswordWithSms r stage =>
    exact .of_keeps (keeps_resetPasswordWithSms stage).1 fun _ => ⟨rfl, rfl, rfl⟩
  | refreshToken token stage => exact refreshToken_move stage
  | revokeDevice userId deviceId stage => exact revokeUserDevice_move stage
  | createQrSession =>
    exact .keep ⟨rfl, rfl, rfl, rfl, fun _ h => List.mem_cons_of_mem _ h⟩ (.of_answer _)
  | getQrSession q stage => exact .of_keeps (keeps_getQrSession stage).2 fun _ => ⟨rfl, rfl, rfl⟩
  | confirmQrSession userId q deviceName platform stage => exact confirmQrSession_token stage
  | cancelQrSession q =>
    have hk : KeepsTokens w (cancelQrSession q w : SessionNext SessionStage).1 :=
      (keeps_cancelQrSession w).2
    refine .keep hk ?_
    simp only [sessionStatement, cancelQrSession]
    split <;> exact .of_answer _
  | subscribeQr q connId => exact .keep ⟨rfl, rfl, rfl, rfl, fun _ h => h⟩ (.of_answer _)

end

/-! ## Tokens and their record -/

/-- The user and the device that a token is for, if its device is one. -/
def issuedFor (lib : SessionLibraries) (p : RefreshTokenPayload) : Option (Uuid × Uuid) :=
  p.deviceId.bind fun text => (lib.parseUuid text).toOption.map fun d => (p.userId, d)

/-- What is stored under a token now. -/
abbrev stored (w : SessionWorld) (t : String) : Option RefreshTokenPayload :=
  Lapsing.get w.refreshTokens w.now t

/-- The tokens that the set of a device lists. -/
def listedTokens (lib : SessionLibraries) (w : SessionWorld) (d : Uuid) : List String :=
  (Lapsing.get w.tokensByDevice w.now (lib.uuidText d)).getD []

/-- The token has been issued. -/
def Recorded (w : SessionWorld) (t : String) : Prop := ∃ p, (t, p) ∈ w.tokensIssued

/-- What is stored and listed has been issued, each token once. -/
structure TokensRecorded (lib : SessionLibraries) (w : SessionWorld) : Prop where
  drawn : ∀ t p, (t, p) ∈ w.tokensIssued → ∃ u ∈ w.drawn, lib.uuidText u = t
  once : ∀ t p p', (t, p) ∈ w.tokensIssued → (t, p') ∈ w.tokensIssued → p = p'
  stored : ∀ t p, stored w t = some p → (t, p) ∈ w.tokensIssued
  listed : ∀ k e t, w.tokensByDevice k = some e → t ∈ e.value → Recorded w t

/-- What holds of a call: it reads and lists tokens that have been issued; a revocation has those
of its user for its device before it, and none of another user. -/
structure TokenKept (lib : SessionLibraries) (w : SessionWorld) (c : SessionCall) (st : Status) :
    Prop where
  call : ∀ stage, st = .running stage → stage.call = c
  read : ∀ t p, refreshing st = some (t, p) → (t, p) ∈ w.tokensIssued
  index : ∀ t, indexing st = some t → Recorded w t
  listed : ∀ u d ts, deleting st = some (u, d, ts) → ∀ t ∈ ts, Recorded w t
  own : ∀ u d ts, deleting st = some (u, d, ts) → ∀ t p, stored w t = some p → t ∈ ts → p.userId = u
  all : ∀ u d ts, deleting st = some (u, d, ts) →
    ∀ t p, stored w t = some p → issuedFor lib p = some (u, d) → t ∈ ts

/-- **The condition** on a revocation of a device: when it reads the set of the device, Redis
answers, and the set lists the tokens of the user for this device that are stored, and none of
another user; Redis deletes them; until it answers no token is issued to the user for this device;
and when it answers, no refresh with such a token is under way. -/
structure RevokesAlone (lib : SessionLibraries) (s : State) (i : ℕ) (x : SessionChoice) : Prop where
  reads : ∀ c u d, s.calls i = some (c, .running (.revokeDevice u d .members)) →
    x.worked = true ∧ ∀ t p, (t, p) ∈ s.world.tokensIssued → stored s.world t = some p →
      (t ∈ listedTokens lib s.world d → p.userId = u) ∧
        (issuedFor lib p = some (u, d) → t ∈ listedTokens lib s.world d)
  deletes : ∀ c u d t ts,
    s.calls i = some (c, .running (.revokeDevice u d (.delTokens (t :: ts)))) → x.worked = true
  answers : ∀ c u d, s.calls i = some (c, .running (.revokeDevice u d (.delTokens []))) →
    ∀ j c' st t p, s.calls j = some (c', st) → refreshing st = some (t, p) →
      issuedFor lib p ≠ some (u, d)
  issues : ∀ c stage p, s.calls i = some (c, .running stage) → issuing stage = some p →
    ∀ j c' st u d ts, s.calls j = some (c', st) → deleting st = some (u, d, ts) →
      issuedFor lib p ≠ some (u, d)

section

variable {lib : SessionLibraries} {w w' : SessionWorld} {x : SessionChoice} {stage : SessionStage}
  {st : Status} {t : String} {p : RefreshTokenPayload}

/-- A new token has not been issued before. -/
theorem fresh_token (hw : TokensRecorded lib w) (hx : x.possible lib w = true) :
    ¬ Recorded w (lib.uuidText x.uuid) := by
  rintro ⟨p, hp⟩
  obtain ⟨u, hu, htext⟩ := hw.drawn _ p hp
  simp only [SessionChoice.possible, Bool.and_eq_true, List.all_eq_true] at hx
  have hne := (hx.1.1.1 u hu).2
  exact absurd htext (of_decide_eq_true hne)

variable (h : TokenMove lib w x stage w' st)

include h

theorem TokenMove.now : w'.now = w.now := by
  cases h with
  | keep hw | going hw | read _ _ hw => exact hw.now
  | prolong _ _ _ _ _ _ _ hnow | issue _ _ _ _ _ hnow | index _ _ _ _ _ _ hnow
  | unindex _ _ _ hnow | delete _ _ _ _ _ _ _ _ hnow => exact hnow
  | list _ _ _ hw => rw [hw]

/-- What is stored was stored, or has been issued with this statement. -/
theorem TokenMove.stored (hp : stored w' t = some p) :
    stored w t = some p ∨
      (issuing stage = some p ∧ t = lib.uuidText x.uuid ∧ (t, p) ∈ w'.tokensIssued) := by
  have hnow := h.now
  have hsame : w'.refreshTokens = w.refreshTokens → Sessions.stored w t = some p := by
    intro htokens
    rwa [Sessions.stored, hnow, htokens] at hp
  rw [Sessions.stored, hnow] at hp
  cases h with
  | keep hw | going hw | read _ _ hw => exact .inl (hsame hw.refreshTokens)
  | prolong token p' _ _ htokens =>
    rw [htokens, Lapsing.get_expire (by decide)] at hp
    exact .inl hp
  | issue p' hstage htokens _ hissued =>
    rw [htokens] at hp
    by_cases ht : t = lib.uuidText x.uuid
    · rw [ht, Lapsing.get_setEx_self (by decide)] at hp
      cases hp
      exact .inr ⟨hstage, ht, by rw [hissued, ht]; exact List.mem_cons_self⟩
    · rw [Lapsing.get_setEx_ne ht] at hp
      exact .inl hp
  | index _ _ _ htokens | unindex htokens => exact .inl (hsame htokens)
  | list _ _ _ hw => exact .inl (hsame (by rw [hw]))
  | delete u d token tokens hstage htokens =>
    rw [htokens] at hp
    split at hp
    · by_cases ht : t = token
      · rw [ht, Lapsing.get_del_self] at hp
        cases hp
      · rw [Lapsing.get_del_ne ht] at hp
        exact .inl hp
    · exact .inl hp

/-- What was stored is stored, unless a revocation deletes it. -/
theorem TokenMove.kept (hx : ¬ Recorded w (lib.uuidText x.uuid)) (ht : (t, p) ∈ w.tokensIssued)
    (hp : Sessions.stored w t = some p) :
    Sessions.stored w' t = some p ∨ ∃ u d ts, stage = .revokeDevice u d (.delTokens (t :: ts)) := by
  have hnow := h.now
  have hsame : w'.refreshTokens = w.refreshTokens → Sessions.stored w' t = some p :=
    fun htokens => by rwa [Sessions.stored, hnow, htokens]
  cases h with
  | keep hw | going hw | read _ _ hw => exact .inl (hsame hw.refreshTokens)
  | prolong token p' _ _ htokens =>
    rw [Sessions.stored, hnow, htokens, Lapsing.get_expire (by decide)]
    exact .inl hp
  | issue p' hstage htokens =>
    have hne : t ≠ lib.uuidText x.uuid := fun heq => hx ⟨p, heq ▸ ht⟩
    rw [Sessions.stored, hnow, htokens, Lapsing.get_setEx_ne hne]
    exact .inl hp
  | index _ _ _ htokens | unindex htokens => exact .inl (hsame htokens)
  | list _ _ _ hw => exact .inl (hsame (by rw [hw]))
  | delete u d token tokens hstage htokens =>
    by_cases hne : t = token
    · exact .inr ⟨u, d, tokens, by rw [hstage, hne]⟩
    · refine .inl ?_
      rw [Sessions.stored, hnow, htokens]
      split
      · rwa [Lapsing.get_del_ne hne]
      · exact hp

/-- What has been issued had been, or is issued with this statement. -/
theorem TokenMove.issued (hp : (t, p) ∈ w'.tokensIssued) :
    (t, p) ∈ w.tokensIssued ∨
      (issuing stage = some p ∧ t = lib.uuidText x.uuid ∧ x.uuid ∈ w'.drawn) := by
  cases h with
  | keep hw | going hw | read _ _ hw => exact .inl (hw.tokensIssued ▸ hp)
  | prolong _ _ _ _ _ _ hissued | index _ _ _ _ _ hissued | unindex _ _ hissued
  | list _ _ _ hissued | delete _ _ _ _ _ _ _ hissued => exact .inl (hissued ▸ hp)
  | issue p' hstage _ _ hissued _ hdrawn =>
    rw [hissued] at hp
    rcases List.mem_cons.1 hp with heq | hp
    · cases heq
      exact .inr ⟨hstage, rfl, hdrawn ▸ List.mem_cons_self⟩
    · exact .inl hp

theorem TokenMove.recorded (hp : (t, p) ∈ w.tokensIssued) : (t, p) ∈ w'.tokensIssued := by
  cases h with
  | keep hw | going hw | read _ _ hw => exact hw.tokensIssued ▸ hp
  | prolong _ _ _ _ _ _ hissued | index _ _ _ _ _ hissued | unindex _ _ hissued
  | list _ _ _ hissued | delete _ _ _ _ _ _ _ hissued => exact hissued ▸ hp
  | issue _ _ _ _ hissued => exact hissued ▸ List.mem_cons_of_mem _ hp

theorem TokenMove.drawn {u : Uuid} (hu : u ∈ w.drawn) : u ∈ w'.drawn := by
  cases h with
  | keep hw | going hw | read _ _ hw => exact hw.drawn u hu
  | prolong _ _ _ _ _ _ _ _ hdrawn | index _ _ _ _ _ _ _ hdrawn | unindex _ _ _ _ hdrawn
  | list _ _ _ hdrawn | delete _ _ _ _ _ _ _ _ _ hdrawn => exact hdrawn ▸ hu
  | issue _ _ _ _ _ _ hdrawn => exact hdrawn ▸ List.mem_cons_of_mem _ hu

/-- What is listed was listed, or is listed with this statement. -/
theorem TokenMove.listed {k : String} {e : Lapsing.Entry (List String)}
    (he : w'.tokensByDevice k = some e) (ht : t ∈ e.value) :
    (∃ e', w.tokensByDevice k = some e' ∧ t ∈ e'.value) ∨ indexing (.running stage) = some t := by
  cases h with
  | keep hw | going hw | read _ _ hw => exact .inl ⟨e, hw.tokensByDevice ▸ he, ht⟩
  | prolong _ _ _ _ _ hsets | issue _ _ _ hsets | list _ _ _ hsets | delete _ _ _ _ _ _ hsets =>
    exact .inl ⟨e, hsets ▸ he, ht⟩
  | unindex _ hsets =>
    obtain ⟨e', he', hv⟩ := hsets k e he
    exact .inl ⟨e', he', hv ▸ ht⟩
  | index key token hstage _ hsets =>
    rw [hsets] at he
    rcases Lapsing.value_upsert he with he | hv | ⟨e', he', hv⟩
    · exact .inl ⟨e, he, ht⟩
    · rw [hv] at ht
      rcases List.mem_insert_iff.1 ht with rfl | ht
      · exact .inr hstage
      · cases ht
    · rw [hv] at ht
      rcases List.mem_insert_iff.1 ht with rfl | ht
      · exact .inr hstage
      · exact .inl ⟨e', he', ht⟩

/-! ## What a statement keeps -/

theorem TokenMove.tokensRecorded (hw : TokensRecorded lib w)
    (hx : ¬ Recorded w (lib.uuidText x.uuid))
    (hindex : ∀ t, indexing (.running stage) = some t → Recorded w t) : TokensRecorded lib w' := by
  refine ⟨fun t p hp => ?_, fun t p p' hp hp' => ?_, fun t p hp => ?_, fun k e t he ht => ?_⟩
  · rcases h.issued hp with hp | ⟨-, rfl, hdrawn⟩
    · obtain ⟨u, hu, htext⟩ := hw.drawn t p hp
      exact ⟨u, h.drawn hu, htext⟩
    · exact ⟨x.uuid, hdrawn, rfl⟩
  · rcases h.issued hp with hp | ⟨hstage, rfl, -⟩
    · rcases h.issued hp' with hp' | ⟨-, rfl, -⟩
      · exact hw.once t p p' hp hp'
      · exact absurd ⟨p, hp⟩ hx
    · rcases h.issued hp' with hp' | ⟨hstage', -, -⟩
      · exact absurd ⟨p', hp'⟩ hx
      · exact Option.some.inj (hstage.symm.trans hstage')
  · rcases h.stored hp with hp | ⟨-, -, hp⟩
    · exact h.recorded (hw.stored t p hp)
    · exact hp
  · rcases h.listed he ht with ⟨e', he', ht⟩ | hst
    · obtain ⟨p, hp⟩ := hw.listed k e' t he' ht
      exact ⟨p, h.recorded hp⟩
    · obtain ⟨p, hp⟩ := hindex t hst
      exact ⟨p, h.recorded hp⟩

variable {c : SessionCall}

/-- What a statement keeps of another call. -/
theorem TokenMove.others {st' : Status} (hx : ¬ Recorded w (lib.uuidText x.uuid))
    (hissues : ∀ p u d ts, issuing stage = some p → deleting st' = some (u, d, ts) → issuedFor lib p
      ≠ some (u, d)) (hk : TokenKept lib w c st') : TokenKept lib w' c st' := by
  refine ⟨hk.call, fun t p hr => h.recorded (hk.read t p hr), fun t ht => ?_,
    fun u d ts hd t ht => ?_, fun u d ts hd t p hp ht => ?_, fun u d ts hd t p hp hfor => ?_⟩
  · obtain ⟨p, hp⟩ := hk.index t ht
    exact ⟨p, h.recorded hp⟩
  · obtain ⟨p, hp⟩ := hk.listed u d ts hd t ht
    exact ⟨p, h.recorded hp⟩
  · rcases h.stored hp with hp | ⟨-, rfl, -⟩
    · exact hk.own u d ts hd t p hp ht
    · exact absurd (hk.listed u d ts hd _ ht) hx
  · rcases h.stored hp with hp | ⟨hstage, -, -⟩
    · exact hk.all u d ts hd t p hp hfor
    · exact absurd hfor (hissues p u d ts hstage hd)

omit h in
theorem refreshing_alone {t : String} {p : RefreshTokenPayload} (h : refreshing st = some (t, p)) :
    indexing st = none ∧ deleting st = none := by
  unfold refreshing at h
  split at h <;> first | exact ⟨rfl, rfl⟩ | cases h

omit h in
/-- A call that neither reads nor lists nor deletes. -/
theorem tokenKept_of_plain (hcall : ∀ stage, st = .running stage → stage.call = c) (h : Plain st) :
    TokenKept lib w c st := by
  refine ⟨hcall, fun t p hr => ?_, fun t ht => ?_, fun u d ts hd => ?_, fun u d ts hd => ?_,
    fun u d ts hd => ?_⟩
  · rw [h.refreshing] at hr
    cases hr
  · rw [h.indexing] at ht
    cases ht
  all_goals
    rw [h.deleting] at hd
    cases hd

omit h in
theorem tokenKept_of_reading (hcall : ∀ stage, st = .running stage → stage.call = c)
    (hst : refreshing st = some (t, p)) (hp : (t, p) ∈ w.tokensIssued) : TokenKept lib w c st := by
  obtain ⟨hindex, hdelete⟩ := refreshing_alone hst
  refine ⟨hcall, fun t' p' hr => ?_, fun t ht => ?_, fun u d ts hd => ?_, fun u d ts hd => ?_,
    fun u d ts hd => ?_⟩
  · rw [hst] at hr
    cases hr
    exact hp
  · rw [hindex] at ht
    cases ht
  all_goals
    rw [hdelete] at hd
    cases hd

/-- And of its own. -/
theorem TokenMove.self (hw : TokensRecorded lib w)
    (hcall : ∀ stage', st = .running stage' → stage'.call = stage.call)
    (hreads : ∀ u d, stage = .revokeDevice u d .members → x.worked = true ∧ ∀ t p, (t, p) ∈
      w.tokensIssued → Sessions.stored w t = some p → (t ∈ listedTokens lib w d → p.userId = u) ∧
      (issuedFor lib p = some (u, d) → t ∈ listedTokens lib w d))
    (hdeletes : ∀ u d t ts, stage = .revokeDevice u d (.delTokens (t :: ts)) → x.worked = true)
    (hk : TokenKept lib w stage.call (.running stage)) : TokenKept lib w' stage.call st := by
  have hself := h
  cases h with
  | keep _ hst | index _ _ _ _ _ _ _ _ hst | unindex _ _ _ _ _ hst =>
    exact tokenKept_of_plain hcall hst
  | prolong _ _ _ _ _ _ _ _ _ a hst =>
    subst hst
    exact tokenKept_of_plain hcall (.of_answer a)
  | going _ hsome hsame =>
    obtain ⟨⟨t, p⟩, hst⟩ := Option.isSome_iff_exists.1 hsome
    exact tokenKept_of_reading hcall hst (hself.recorded (hk.read t p (hsame ▸ hst)))
  | read token p _ hget hst =>
    exact tokenKept_of_reading hcall hst (hself.recorded (hw.stored token p hget))
  | issue p _ _ _ hissued _ _ hst hrefreshing hdeleting =>
    refine ⟨hcall, fun t p hr => ?_, fun t ht => ?_, fun u d ts hd => ?_, fun u d ts hd => ?_,
      fun u d ts hd => ?_⟩
    · rw [hrefreshing] at hr
      cases hr
    · rw [hst] at ht
      cases ht
      exact ⟨p, hissued ▸ List.mem_cons_self⟩
    all_goals
      rw [hdeleting] at hd
      cases hd
  | list userId deviceId hstage hw' hst =>
    obtain ⟨hworked, hlists⟩ := hreads userId deviceId hstage
    rw [hworked, if_pos rfl] at hst
    subst hst hw'
    refine ⟨hcall, fun t p hr => (by cases hr), fun t ht => (by cases ht), fun u d ts hd t ht => ?_,
      fun u d ts hd t p hp ht => ?_, fun u d ts hd t p hp hfor => ?_⟩
    · cases hd
      cases hset : Lapsing.get w'.tokensByDevice w'.now (lib.uuidText deviceId) with
      | none =>
        rw [hset] at ht
        cases ht
      | some listed =>
        rw [hset] at ht
        obtain ⟨e, he, -, rfl⟩ := Lapsing.get_eq_some.1 hset
        exact hw.listed _ e t he ht
    · cases hd
      exact (hlists t p (hw.stored t p hp) hp).1 ht
    · cases hd
      exact (hlists t p (hw.stored t p hp) hp).2 hfor
  | delete userId deviceId token tokens hstage htokens _ _ hnow _ hst =>
    have hworked := hdeletes userId deviceId token tokens hstage
    subst hstage hst
    refine ⟨hcall, fun t p hr => (by cases hr), fun t ht => (by cases ht), fun u d ts hd t ht => ?_,
      fun u d ts hd t p hp ht => ?_, fun u d ts hd t p hp hfor => ?_⟩
    · cases hd
      obtain ⟨p, hp⟩ := hk.listed _ _ _ rfl t (List.mem_cons_of_mem _ ht)
      exact ⟨p, hself.recorded hp⟩
    · cases hd
      rcases hself.stored hp with hp | ⟨hissuing, -⟩
      · exact hk.own _ _ _ rfl t p hp (List.mem_cons_of_mem _ ht)
      · cases hissuing
    · cases hd
      rw [hworked, if_pos rfl] at htokens
      rcases hself.stored hp with hold | ⟨hissuing, -⟩
      · rcases List.mem_cons.1 (hk.all _ _ _ rfl t p hold hfor) with rfl | ht
        · rw [Sessions.stored, htokens, Lapsing.get_del_self] at hp
          cases hp
        · exact ht
      · cases hissuing

omit h

theorem start_plain (c : SessionCall) : Plain (.running c.start) := by
  cases c <;> exact ⟨rfl, rfl, rfl⟩

theorem tokensRecorded_tick (tick : SessionTick) (hw : TokensRecorded lib w) :
    TokensRecorded lib (w.tick tick) := by
  cases tick with
  | elapse n =>
    exact ⟨hw.drawn, hw.once,
      fun t p hp => hw.stored t p (Lapsing.get_earlier hp (Nat.le_add_right ..)), hw.listed⟩
  | putUser | setCaptcha | setEmailAuth | disconnect =>
    exact ⟨hw.drawn, hw.once, hw.stored, hw.listed⟩

theorem tokenKept_tick (tick : SessionTick) (h : TokenKept lib w c st) :
    TokenKept lib (w.tick tick) c st := by
  cases tick with
  | elapse n =>
    have hearlier : ∀ t p, stored (w.tick (.elapse n)) t = some p →
        stored w t = some p :=
      fun t p hp => Lapsing.get_earlier hp (Nat.le_add_right ..)
    exact ⟨h.call, h.read, h.index, h.listed,
      fun u d ts hd t p hp => h.own u d ts hd t p (hearlier t p hp),
      fun u d ts hd t p hp => h.all u d ts hd t p (hearlier t p hp)⟩
  | putUser | setCaptcha | setEmailAuth | disconnect =>
    exact ⟨h.call, h.read, h.index, h.listed, h.own, h.all⟩

theorem revocation_each {s : State} (hw : TokensRecorded lib w)
    (h : Reach (sessions lib) (RevokesAlone lib) (.idle w) s) :
    Each (TokensRecorded lib) (fun w _ c st => TokenKept lib w c st) s := by
  refine h.each (fun s i c _ => ?_) (fun s i c stage x hE hcall hx hG => ?_) (fun w i c => ?_)
    (fun w tick hw => ?_) (Overlap.each_idle hw)
  · refine tokenKept_of_plain (fun stage hst => ?_) (start_plain c)
    cases hst
    exact c.call_start
  · have hmove : TokenMove lib s.world x stage _ _ := tokenMove lib s.world x stage
    have hk := hE.2 i c _ hcall
    obtain rfl := hk.call stage rfl
    have hfresh := fresh_token hE.1 hx
    have hstage : ∀ stage', (sessionStatement lib s.world x stage).2.status = .running stage' →
        stage'.call = stage.call := running_call fun _ => call_of_goto
    refine ⟨hmove.tokensRecorded hE.1 hfresh hk.index,
      hmove.self hE.1 hstage (fun u d hst => ?_) (fun u d t ts hst => ?_) hk,
      fun j c' st' _ hcall' hother => hmove.others hfresh (fun p u d ts hp hd => ?_) hother⟩
    · exact hG.reads _ u d (hst ▸ hcall)
    · exact hG.deletes _ u d t ts (hst ▸ hcall)
    · exact hG.issues _ stage p hcall hp j c' st' u d ts hcall' hd
  · exact tokenKept_of_plain (by simp) ⟨rfl, rfl, rfl⟩
  · exact ⟨tokensRecorded_tick tick hw, fun i c st h => tokenKept_tick tick h⟩

end

/-! ## Tokens that are gone -/

/-- The token has been issued; it is not stored, and no refresh is under way with it. -/
structure Gone (t : String) (s : State) : Prop where
  recorded : Recorded s.world t
  stored : stored s.world t = none
  unread : ∀ j c st p, s.calls j = some (c, st) → refreshing st ≠ some (t, p)

section

variable {lib : SessionLibraries} {w w' : SessionWorld} {x : SessionChoice} {stage : SessionStage}
  {st : Status} {t : String} {s s' : State} {G : Condition}

/-- A refresh that has read a token has read it with this statement, or had read it. -/
theorem TokenMove.refreshing (h : TokenMove lib w x stage w' st) {p : RefreshTokenPayload}
    (hr : refreshing st = some (t, p)) :
    Sessions.refreshing (.running stage) = some (t, p) ∨ Sessions.stored w t = some p := by
  cases h with
  | keep _ hst | index _ _ _ _ _ _ _ _ hst | unindex _ _ _ _ _ hst =>
    rw [hst.refreshing] at hr; cases hr
  | prolong _ _ _ _ _ _ _ _ _ _ hst | issue _ _ _ _ _ _ _ _ hst | list _ _ _ _ hst
  | delete _ _ _ _ _ _ _ _ _ _ hst => rw [hst] at hr; cases hr
  | going _ _ hsame => exact .inl (hsame ▸ hr)
  | read token p' _ hget hst =>
    rw [hst] at hr
    cases hr
    exact .inr hget

theorem gone_of_move (hmove : TokenMove lib s.world x stage w' st) {i : ℕ} {c : SessionCall}
    (hcall : s.calls i = some (c, .running stage))
    (hx : ¬ Recorded s.world (lib.uuidText x.uuid)) (h : Gone t s) :
    Recorded w' t ∧ stored w' t = none ∧ ∀ p, refreshing st ≠ some (t, p) := by
  refine ⟨?_, ?_, fun p hr => ?_⟩
  · obtain ⟨p, hp⟩ := h.recorded
    exact ⟨p, hmove.recorded hp⟩
  · cases hst : stored w' t with
    | none => rfl
    | some p =>
      rcases hmove.stored hst with hold | ⟨-, rfl, -⟩
      · rw [h.stored] at hold
        cases hold
      · exact absurd h.recorded hx
  · rcases hmove.refreshing hr with hold | hold
    · exact h.unread i c _ p hcall hold
    · rw [h.stored] at hold
      cases hold

theorem gone_put (h : Gone t s) {i : ℕ} {c : SessionCall} (hrecorded : Recorded w' t)
    (hstored : stored w' t = none) (hst : ∀ p, refreshing st ≠ some (t, p)) :
    Gone t (s.put w' i c st) := by
  refine ⟨hrecorded, hstored, fun j c' st' p hj => ?_⟩
  rcases Overlap.State.put_cases hj with ⟨-, -, rfl⟩ | ⟨-, hj⟩
  · exact hst p
  · exact h.unread j c' st' p hj

theorem gone_tick (h : Gone t s) (tick : SessionTick) : Gone t ⟨s.world.tick tick, s.calls⟩ := by
  refine ⟨?_, ?_, h.unread⟩
  · cases tick <;> exact h.recorded
  · cases tick with
    | elapse n => exact Lapsing.get_later h.stored (Nat.le_add_right ..)
    | putUser | setCaptcha | setEmailAuth | disconnect => exact h.stored

/-- **Gone for good.** -/
theorem Gone.step (hw : TokensRecorded lib s.world) (hstep : Step (sessions lib) G s s')
    (h : Gone t s) : Gone t s' := by
  cases hstep with
  | start c hnew =>
    refine gone_put h h.recorded h.stored fun p hr => ?_
    rw [show (sessions lib).start c = c.start from rfl, (start_plain c).refreshing] at hr
    cases hr
  | @run i c stage x hcall hx hG =>
    obtain ⟨hrecorded, hstored, hst⟩ :=
      gone_of_move (tokenMove lib s.world x stage) hcall (fresh_token hw hx) h
    exact gone_put h hrecorded hstored hst
  | @lose i c stage x hcall hx hG =>
    obtain ⟨hrecorded, hstored, -⟩ :=
      gone_of_move (tokenMove lib s.world x stage) hcall (fresh_token hw hx) h
    exact gone_put h hrecorded hstored fun p hr => by cases hr
  | drop hcall => exact gone_put h h.recorded h.stored fun p hr => by cases hr
  | tick tick => exact gone_tick h tick

/-- An access token comes of a token that has been read. -/
theorem refreshed_from {token : String} {stage : RefreshStage} {claims : AccessClaims} {r : String}
    (h : (refreshToken lib token w x stage).2 = .done (.refreshed claims r)) :
    ∃ p, refreshing (.running (.refreshToken token stage)) = some (Text.trim token, p) := by
  cases stage with
  | begin =>
    simp only [refreshToken] at h
    split at h <;> cases h
  | getToken =>
    simp only [refreshToken] at h
    split at h
    · split at h <;> cases h
    · cases h
  | findUser p | resolveDevice p | registerDevice p | expireToken p => exact ⟨p, rfl⟩

/-- A revocation answers when it has no token left to delete. -/
theorem revoked_from {u d : Uuid} {stage : RevokeUserDeviceStage}
    (h : (revokeUserDevice lib u d w x stage).2 = .done .deviceRevoked) :
    stage = .delTokens [] := by
  cases stage with
  | update =>
    simp only [revokeUserDevice] at h
    split at h <;> cases h
  | members => cases h
  | delTokens tokens =>
    cases tokens with
    | nil => rfl
    | cons token tokens => cases h

/-- A refresh that has not read its token leaves the devices alone. -/
theorem devices_of_unread {token : String} {stage : RefreshStage}
    (h : ∀ p, refreshing (.running (.refreshToken token stage)) ≠ some (Text.trim token, p)) :
    (refreshToken lib token w x stage).1.devices = w.devices := by
  cases stage with
  | begin =>
    simp only [refreshToken]
    split <;> rfl
  | getToken =>
    simp only [refreshToken]
    split
    · split <;> rfl
    · rfl
  | findUser p | resolveDevice p | registerDevice p | expireToken p => exact absurd rfl (h p)

end

/-! ## A revocation is effective and confined -/

/-- Nothing has come of the token in the second state that had not in the first, and nothing comes
of it: no refresh with it has been answered, and none clears `revoked_at`. -/
structure Barred (lib : SessionLibraries) (t : String) (s s' : State) : Prop where
  yields : ∀ j token claims r, Text.trim token = t →
    s'.calls j = some (.refreshToken token, .answered (.refreshed claims r)) →
      s.calls j = some (.refreshToken token, .answered (.refreshed claims r))
  clears : ∀ j token stage x, Text.trim token = t →
    s'.calls j = some (.refreshToken token, .running (.refreshToken token stage)) →
      (sessionStatement lib s'.world x (.refreshToken token stage)).1.devices = s'.world.devices

/-- Revocations in the runs whose statements meet a condition: once one has answered, the tokens
issued to its user for its device are barred; and a token that is stored stays stored, unless time
goes on or a revocation of its own user deletes it. -/
structure RevocationHolds (lib : SessionLibraries) (G : Condition) (w : SessionWorld) : Prop where
  effective : ∀ s₁ s₂ s₃ i u d t p, Reach (sessions lib) G (.idle w) s₁ →
    Step (sessions lib) G s₁ s₂ → Reach (sessions lib) G s₂ s₃ →
    s₁.calls i ≠ some (.revokeDevice u d, .answered .deviceRevoked) →
    s₂.calls i = some (.revokeDevice u d, .answered .deviceRevoked) →
    (t, p) ∈ s₂.world.tokensIssued → issuedFor lib p = some (u, d) → Barred lib t s₂ s₃
  confined : ∀ s s' t p, Reach (sessions lib) G (.idle w) s → Step (sessions lib) G s s' →
    stored s.world t = some p → stored s'.world t = some p ∨ s.world.now < s'.world.now ∨
      ∃ i d ts, s.calls i =
        some (.revokeDevice p.userId d, .running (.revokeDevice p.userId d (.delTokens (t :: ts))))

section

variable {lib : SessionLibraries} {w : SessionWorld} {t : String} {s s' : State}

/-- Of a token that is gone nothing comes. -/
theorem barred_of_gone (hw : TokensRecorded lib w)
    (hs : Reach (sessions lib) (RevokesAlone lib) (.idle w) s) (hgone : Gone t s)
    (h : Reach (sessions lib) (RevokesAlone lib) s s') : Gone t s' ∧ Barred lib t s s' := by
  induction h with
  | refl =>
    refine ⟨hgone, fun _ _ _ _ _ h => h, fun j token stage x htoken hj => ?_⟩
    refine devices_of_unread fun p hr => ?_
    exact hgone.unread j _ _ p hj (htoken ▸ hr)
  | @tail s₁ s₂ hr hstep ih =>
    obtain ⟨hgone, hbarred⟩ := ih
    obtain ⟨hrecorded, hkept⟩ := revocation_each hw (hs.trans hr)
    have hgone₂ := hgone.step hrecorded hstep
    refine ⟨hgone₂, fun j token claims r htoken hj => ?_, fun j token stage x htoken hj => ?_⟩
    · refine hbarred.yields j token claims r htoken ?_
      cases hstep with
      | start | lose | drop =>
        rcases Overlap.State.put_cases hj with ⟨-, -, hst⟩ | ⟨-, hj⟩
        · cases hst
        · exact hj
      | @run i c stage x hcall hx hG =>
        rcases Overlap.State.put_cases hj with ⟨rfl, rfl, hst⟩ | ⟨-, hj⟩
        · have hc := (hkept _ _ _ hcall).call stage rfl
          cases stage with
          | refreshToken token' stage =>
            obtain rfl := SessionCall.refreshToken.inj hc
            obtain ⟨p, hp⟩ := refreshed_from (done_of_embed hst.symm)
            exact absurd (htoken ▸ hp) (hgone.unread _ _ _ p hcall)
          | _ => cases hc
        · exact hj
      | tick => exact hj
    · refine devices_of_unread fun p hr => ?_
      exact hgone₂.unread j _ _ p hj (htoken ▸ hr)

variable {p : RefreshTokenPayload}

/-- When a revocation answers, the tokens of its user for its device are gone. -/
theorem gone_of_revoked (hw : TokensRecorded lib w)
    (hs : Reach (sessions lib) (RevokesAlone lib) (.idle w) s)
    (hstep : Step (sessions lib) (RevokesAlone lib) s s') {i : ℕ} {u d : Uuid}
    (hbefore : s.calls i ≠ some (.revokeDevice u d, .answered .deviceRevoked))
    (hafter : s'.calls i = some (.revokeDevice u d, .answered .deviceRevoked))
    (hp : (t, p) ∈ s'.world.tokensIssued) (hfor : issuedFor lib p = some (u, d)) : Gone t s' := by
  obtain ⟨hrecorded, hkept⟩ := revocation_each hw hs
  refine Gone.step hrecorded hstep ?_
  cases hstep with
  | start | lose | drop =>
    rcases Overlap.State.put_cases hafter with ⟨-, -, hst⟩ | ⟨-, hj⟩
    · cases hst
    · exact absurd hj hbefore
  | @run j c stage x hcall hx hG =>
    rcases Overlap.State.put_cases hafter with ⟨rfl, rfl, hst⟩ | ⟨-, hj⟩
    · have hself := hkept _ _ _ hcall
      have hc := hself.call stage rfl
      obtain ⟨st, rfl⟩ : ∃ st, stage = .revokeDevice u d st := by
        cases stage with
        | revokeDevice u' d' st =>
          cases hc
          exact ⟨st, rfl⟩
        | _ => cases hc
      obtain rfl := revoked_from (done_of_embed hst.symm)
      have hmove := tokenMove lib s.world x (.revokeDevice u d (.delTokens []))
      have hp : (t, p) ∈ s.world.tokensIssued := by
        rcases hmove.issued hp with hp | ⟨hstage, -⟩
        · exact hp
        · cases hstage
      refine ⟨⟨p, hp⟩, ?_, fun j c' st p' hj hr => ?_⟩
      · cases hst : stored s.world t with
        | none => rfl
        | some p' =>
          obtain rfl := hrecorded.once t p p' hp (hrecorded.stored t p' hst)
          exact absurd (hself.all u d [] rfl t p hst hfor) (by simp)
      · obtain rfl := hrecorded.once t p p' hp ((hkept j c' st hj).read t p' hr)
        exact hG.answers _ u d hcall j c' st t p hj hr hfor
    · exact absurd hj hbefore
  | tick => exact absurd hafter hbefore

/-- A token that is stored stays stored, unless time goes on or its user takes it back. -/
theorem stored_step (hw : TokensRecorded lib w)
    (hs : Reach (sessions lib) (RevokesAlone lib) (.idle w) s)
    (hstep : Step (sessions lib) (RevokesAlone lib) s s') (hp : stored s.world t = some p) :
    stored s'.world t = some p ∨ s.world.now < s'.world.now ∨
      ∃ i d ts, s.calls i = some (.revokeDevice p.userId d,
        .running (.revokeDevice p.userId d (.delTokens (t :: ts)))) := by
  obtain ⟨hrecorded, hkept⟩ := revocation_each hw hs
  have hmoved : ∀ i c stage x, s.calls i = some (c, .running stage) → x.possible lib s.world →
      stored (sessionStatement lib s.world x stage).1 t = some p ∨
        ∃ i d ts, s.calls i = some (.revokeDevice p.userId d,
          .running (.revokeDevice p.userId d (.delTokens (t :: ts)))) := by
    intro i c stage x hcall hx
    have hself := hkept i c _ hcall
    rcases (tokenMove lib s.world x stage).kept (fresh_token hrecorded hx)
      (hrecorded.stored t p hp) hp with h | ⟨u, d, ts, rfl⟩
    · exact .inl h
    · have hown := hself.own u d _ rfl t p hp List.mem_cons_self
      have hc := hself.call _ rfl
      subst hown hc
      exact .inr ⟨i, d, ts, hcall⟩
  cases hstep with
  | start | drop => exact .inl hp
  | run hcall hx | lose hcall hx => exact (hmoved _ _ _ _ hcall hx).imp_right .inr
  | tick tick =>
    cases tick with
    | elapse n =>
      cases n with
      | zero => exact .inl hp
      | succ n => exact .inr (.inl (Nat.lt_add_of_pos_right n.succ_pos))
    | putUser | setCaptcha | setEmailAuth | disconnect => exact .inl hp

end

/-- **Effective and confined.**  Where revocations run alone, nothing comes of the tokens that had
been issued to the user for the device, and the tokens of others are kept. -/
theorem device_revocation {lib : SessionLibraries} {w : SessionWorld} (hw : TokensRecorded lib w) :
    RevocationHolds lib (RevokesAlone lib) w := by
  refine ⟨fun s₁ s₂ s₃ i u d t p h₁ hstep h₂ hbefore hafter hp hfor => ?_,
    fun s s' t p hs hstep hp => stored_step hw hs hstep hp⟩
  have hgone := gone_of_revoked hw h₁ hstep hbefore hafter hp hfor
  exact (barred_of_gone hw (h₁.tail hstep) hgone h₂).2

/-! ## A set that lapses before its tokens -/

def sampleDevice : Uuid := 5

/-- A login of the user of the sample, from a device. -/
def sampleLogin : LoginRequest where
  username := "13800000000"
  email := ""
  password := "secret"
  deviceId := some (sampleUuidText sampleDevice)
  deviceName := none
  platform := none

def sampleToken : String := sampleUuidText 104

/-- A login, and a refresh some time later. -/
def loginAndRefresh (seconds : ℕ) : List Act :=
  .start 0 (.login sampleLogin) :: runs 0 7 100 ++ .tick (.elapse seconds) ::
    .start 1 (.refreshToken sampleToken) :: runs 1 6 200

/-- A revocation, up to its answer. -/
def revoking (n : ℕ) : List Act := .start 2 (.revokeDevice 1 sampleDevice) :: runs 2 n 300

/-- A refresh of the token. -/
def refreshingAgain : List Act := .start 3 (.refreshToken sampleToken) :: runs 3 6 400

def sampleClaims (iat : Timestamp) : AccessClaims where
  sub := 1
  username := "13800000000"
  deviceId := some (sampleUuidText sampleDevice)
  iat := iat
  exp := iat + 24 * 60 * 60

theorem tokensRecorded_sample (lib : SessionLibraries) : TokensRecorded lib sampleWorld := by
  refine ⟨fun t p h => ?_, fun t p p' h => ?_, fun t p h => ?_, fun k e t h => ?_⟩ <;> cases h

/-- The set of a device lapses 30 days after the login, and its token 30 days after the refresh:
without the condition, a revocation in between leaves the token. -/
theorem token_outlives_revocation :
    ¬ ∀ (lib : SessionLibraries) (w : SessionWorld), TokensRecorded lib w →
      RevocationHolds lib (fun _ _ _ => True) w := by
  intro h
  have hrun : (((Overlap.perform (sessions sampleLibraries) (fun _ _ _ => true)
      (loginAndRefresh 1728000 ++ .tick (.elapse 1728000) :: revoking 2)
      (.idle sampleWorld)).bind fun s₁ =>
    (s₁.act (sessions sampleLibraries) (fun _ _ _ => true)
      (.run 2 (sampleChoice 302))).bind fun s₂ =>
    (Overlap.perform (sessions sampleLibraries) (fun _ _ _ => true) refreshingAgain s₂).map
      fun s₃ => (s₁, s₂, s₃)).map fun r =>
        decide (r.1.calls 2 = some (.revokeDevice 1 sampleDevice,
          .running (.revokeDevice 1 sampleDevice (.delTokens [])))) &&
        decide (r.2.1.calls 2 = some (.revokeDevice 1 sampleDevice, .answered .deviceRevoked)) &&
        decide (r.2.1.world.tokensIssued =
          [(sampleToken, ⟨1, false, some (sampleUuidText sampleDevice)⟩)]) &&
        decide (r.2.1.calls 3 = none) &&
        decide (r.2.2.calls 3 = some (.refreshToken sampleToken,
          .answered (.refreshed (sampleClaims 3457000) sampleToken)))) = some true := by
    decide +kernel
  obtain ⟨⟨s₁, s₂, s₃⟩, hstates, hfacts⟩ := Option.map_eq_some_iff.1 hrun
  obtain ⟨s₁', h₁, hrest⟩ := Option.bind_eq_some_iff.1 hstates
  obtain ⟨s₂', h₂, hrest⟩ := Option.bind_eq_some_iff.1 hrest
  obtain ⟨s₃', h₃, heq⟩ := Option.map_eq_some_iff.1 hrest
  simp only [Prod.mk.injEq] at heq
  obtain ⟨rfl, rfl, rfl⟩ := heq
  simp only [Bool.and_eq_true, decide_eq_true_eq] at hfacts
  obtain ⟨⟨⟨⟨hbefore, hafter⟩, hissued⟩, hnone⟩, hrefreshed⟩ := hfacts
  have hbarred := (h sampleLibraries sampleWorld (tokensRecorded_sample _)).effective
    s₁' s₂' s₃' 2 1 sampleDevice sampleToken _ (Reach.of_perform (fun _ _ _ _ => trivial) h₁)
    (Step.of_act (fun _ _ _ => trivial) h₂) (Reach.of_perform (fun _ _ _ _ => trivial) h₃)
    (by rw [hbefore]; simp) hafter (by rw [hissued]; exact List.mem_cons_self) (by decide +kernel)
  have hsame := hbarred.yields 3 sampleToken _ _ (by decide +kernel) hrefreshed
  rw [hnone] at hsame
  cases hsame

/-- The condition, of calls with numbers below a bound. -/
def revokesAlone (lib : SessionLibraries) (bound : ℕ) (s : State) (i : ℕ) (x : SessionChoice) :
    Bool :=
  match s.calls i with
  | some (_, .running (.revokeDevice u d .members)) =>
    x.worked && s.world.tokensIssued.all fun r => stored s.world r.1 ≠ some r.2 ||
      ((r.1 ∉ listedTokens lib s.world d || r.2.userId = u) &&
        (issuedFor lib r.2 ≠ some (u, d) || r.1 ∈ listedTokens lib s.world d))
  | some (_, .running (.revokeDevice _ _ (.delTokens (_ :: _)))) => x.worked
  | some (_, .running (.revokeDevice u d (.delTokens []))) =>
    s.allBelow bound fun _ _ st => (refreshing st).all fun r => issuedFor lib r.2 ≠ some (u, d)
  | some (_, .running stage) =>
    (issuing stage).all fun p => s.allBelow bound fun _ _ st =>
      (deleting st).all fun r => issuedFor lib p ≠ some (r.1, r.2.1)
  | _ => true

theorem revokesAlone_of_below {lib : SessionLibraries} {bound : ℕ} {s : State} {i : ℕ}
    {x : SessionChoice} (hs : s.Below bound) (h : revokesAlone lib bound s i x = true) :
    RevokesAlone lib s i x := by
  refine ⟨fun c u d hi => ?_, fun c u d t ts hi => ?_, fun c u d hi j c' st t p hj hr => ?_,
    fun c stage p hi hp j c' st u d ts hj hd => ?_⟩
  · simp only [revokesAlone, hi, Bool.and_eq_true, List.all_eq_true] at h
    refine ⟨h.1, fun t p hp hst => ?_⟩
    have hlists := h.2 (t, p) hp
    simp only [hst, ne_eq, not_true_eq_false, decide_false, Bool.false_or, Bool.and_eq_true,
      Bool.or_eq_true, decide_eq_true_eq] at hlists
    exact ⟨fun ht => hlists.1.resolve_left (not_not.2 ht),
      fun hfor => hlists.2.resolve_left (not_not.2 hfor)⟩
  · simpa only [revokesAlone, hi] using h
  · simp only [revokesAlone, hi] at h
    have hcheck := hs.of_all h hj
    rw [hr] at hcheck
    exact of_decide_eq_true hcheck
  · have hcheck : (issuing stage).all (fun p => s.allBelow bound fun _ _ st =>
        (deleting st).all fun r => issuedFor lib p ≠ some (r.1, r.2.1)) = true := by
      cases stage with
      | revokeDevice => cases hp
      | _ => simpa only [revokesAlone, hi] using h
    rw [hp, Option.all_some] at hcheck
    have hother := hs.of_all hcheck hj
    rw [hd] at hother
    exact of_decide_eq_true hother

/-- A revocation two days after a refresh: the token is gone, and a refresh with it is refused. -/
theorem device_revocation_refused :
    ∃ s, Overlap.perform (sessions sampleLibraries) (revokesAlone sampleLibraries 4)
        (loginAndRefresh 172800 ++ revoking 4 ++
          .start 3 (.refreshToken sampleToken) :: runs 3 2 400)
        (.idle sampleWorld) = some s ∧
      s.calls 2 = some (.revokeDevice 1 sampleDevice, .answered .deviceRevoked) ∧
      s.calls 3 = some (.refreshToken sampleToken,
        .answered (.error (.invalidToken "刷新令牌已过期，请重新登录"))) ∧
      Reach (sessions sampleLibraries) (RevokesAlone sampleLibraries) (.idle sampleWorld) s ∧
      RevocationHolds sampleLibraries (RevokesAlone sampleLibraries) sampleWorld := by
  have hrun : (Overlap.perform (sessions sampleLibraries) (revokesAlone sampleLibraries 4)
      (loginAndRefresh 172800 ++ revoking 4 ++ .start 3 (.refreshToken sampleToken) :: runs 3 2 400)
      (.idle sampleWorld)).map (fun s =>
        decide (s.calls 2 = some (.revokeDevice 1 sampleDevice, .answered .deviceRevoked)) &&
        decide (s.calls 3 = some (.refreshToken sampleToken,
          .answered (.error (.invalidToken "刷新令牌已过期，请重新登录"))))) = some true := by
    decide +kernel
  obtain ⟨s, hs, hboth⟩ := Option.map_eq_some_iff.1 hrun
  simp only [Bool.and_eq_true, decide_eq_true_eq] at hboth
  obtain ⟨h₂, h₃⟩ := hboth
  exact ⟨s, hs, h₂, h₃,
    Reach.of_perform_below (fun s i x hb h => revokesAlone_of_below hb h) (by decide +kernel)
      (fun _ _ => rfl) hs, device_revocation (tokensRecorded_sample _)⟩

end Sessions

open Sessions

end RedcodeIm
