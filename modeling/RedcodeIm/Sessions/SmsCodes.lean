import RedcodeIm.Sessions.System

/-!
# Verification codes are used once

A login and a change of the password read the code that is stored for their phone, compare it, and
delete it later.  What two requests that read the same code do until one of them deletes it is the
question; `CodesReadAlone` is the condition that there are no two.

* `heldCode`, `spentCode` — which code a call goes by, before and after it has
  deleted it.
* `CodeMove` — all that a statement does to codes.
* `codes_single_use` — a code that was issued is accepted once.
-/

namespace RedcodeIm

open Lapsing (setEx del)
open Option
open Overlap (Next)

namespace Sessions

/-! ## The code a call goes by -/

/-- The code that matched, and has not been deleted yet, with its phone. -/
def heldAt : SessionStage → Option (ℕ × String)
  | .loginWithSms r (.universal m) | .loginWithSms r (.findUser m)
  | .loginWithSms r (.createUser m) | .loginWithSms r (.findAgain m)
  | .loginWithSms r (.deleteCode m _) => m.map (·, Text.trim r.phone)
  | .resetPasswordWithSms r (.universal m) | .resetPasswordWithSms r (.deleteCode m) =>
    m.map (·, Text.trim r.phone)
  | _ => none

/-- The code that matched, and has been deleted. -/
def spentAt : SessionStage → Option ℕ
  | .loginWithSms _ (.resolveDevice m _) | .loginWithSms _ (.granting m ..) => m
  | .resetPasswordWithSms _ (.findUser m) | .resetPasswordWithSms _ (.updatePassword m _) => m
  | _ => none

def heldCode : Status → Option (ℕ × String)
  | .running stage => heldAt stage
  | _ => none

/-- The code by which a request was accepted. -/
def accepted : SessionAnswer → Option ℕ
  | .loggedIn _ _ m | .passwordReset m => m
  | _ => none

def spentCode : Status → Option ℕ
  | .running stage => spentAt stage
  | .answered a => accepted a
  | .failed => none

/-- The phone and the code of a call that is about to read what is stored. -/
def readsCode : SessionStage → Option (String × String)
  | .loginWithSms r .getCode => some (Text.trim r.phone, Text.trim r.code)
  | .resetPasswordWithSms r .getCode => some (Text.trim r.phone, Text.trim r.code)
  | _ => none

/-- The code that a statement is about to find, and accept. -/
def findsCode (w : SessionWorld) (stage : SessionStage) : Option ℕ :=
  (readsCode stage).bind fun p => w.readCode p.1 p.2

/-! ## What a statement does to codes -/

/-- All that a statement does to the codes and to what its call goes by. -/
inductive CodeMove (w : SessionWorld) (stage : SessionStage) (w' : SessionWorld) (st : Status) :
    Prop where
  | read (phone code : String) (hreads : readsCode stage = some (phone, code))
      (hcodes : w'.smsCodes = w.smsCodes) (hissued : w'.issued = w.issued)
      (hheld : heldCode st = (w.readCode phone code).map (·, phone)) (hspent : spentCode st = none)
  | issue (phone code : String)
      (hcodes : w'.smsCodes =
        setEx w.smsCodes w.now phone ⟨code, w.issued⟩ smsCodeTtlSeconds)
      (hissued : w'.issued = w.issued + 1) (hheld : heldCode st = none)
      (hspent : spentCode st = none)
  | delete (phone : String) (hcodes : w'.smsCodes = del w.smsCodes phone)
      (hissued : w'.issued = w.issued) (hphone : ∀ n p, heldAt stage = some (n, p) → p = phone)
      (hheld : heldCode st = none) (hspent : spentCode st = (heldAt stage).map (·.1))
  | keep (hcodes : w'.smsCodes = w.smsCodes) (hissued : w'.issued = w.issued)
      (hheld : heldCode st = heldAt stage ∨ heldCode st = none)
      (hspent : spentCode st = spentAt stage ∨ spentCode st = none)

section

variable {lib : SessionLibraries} {w w' : SessionWorld} {x : SessionChoice}

/-- What neither touches the codes nor goes by one. -/
theorem CodeMove.of_keeps {Stage : Type} {out : SessionNext Stage} {f : Stage → SessionStage}
    {stage : SessionStage} (hk : KeepsCodes w out.1) (hheld : ∀ st, heldAt (f st) = none)
    (hspent : ∀ st, spentAt (f st) = none) (hans : ∀ a, out.2 = .done a → accepted a = none) :
    CodeMove w stage (out.embed f).1 (out.embed f).2.status := by
  rcases out with ⟨w', st | a⟩
  · exact .keep hk.1 hk.2 (.inr (hheld st)) (.inr (hspent st))
  · exact .keep hk.1 hk.2 (.inr rfl) (.inr (hans a rfl))

variable {a : SessionAnswer}

/-- The answers of a handler that goes on with `grant`. -/
theorem granting_answer {Stage : Type}
    {out : SessionWorld ×
      Next GrantStage (Except SessionError (Timestamp × String))} {f : GrantStage → Stage}
    {done : Timestamp → String → Next Stage SessionAnswer} (h : (granting out f done).2 = .done a) :
    (∃ iat token, done iat token = .done a) ∨ ∃ e, a = .error e := by
  rcases out with ⟨w', st | ⟨e | ⟨iat, token⟩⟩⟩
  · cases h
  · exact .inr ⟨e, (Next.done.inj h).symm⟩
  · exact .inl ⟨iat, token, h⟩

theorem login_accepted {r : LoginRequest} {stage : LoginStage}
    (h : (login lib r w x stage).2 = .done a) : accepted a = none := by
  cases stage with
  | begin =>
    simp only [login] at h
    split at h
    · cases h; rfl
    · split at h <;> cases h
  | emailSetting =>
    simp only [login] at h
    split at h
    · cases h; rfl
    · split at h <;> cases h
      rfl
  | authenticate =>
    simp only [login] at h
    split at h
    · split at h <;> cases h
      rfl
    · cases h; rfl
  | resolveDevice user =>
    simp only [login, resolveDeviceId] at h
    split at h <;> cases h
  | granting user g stage =>
    rcases granting_answer h with ⟨iat, token, h⟩ | ⟨e, rfl⟩
    · cases h; rfl
    · rfl

theorem refreshToken_accepted {token : String} {stage : RefreshStage}
    (h : (refreshToken lib token w x stage).2 = .done a) : accepted a = none := by
  cases stage with
  | begin | registerDevice =>
    simp only [refreshToken] at h
    split at h <;> cases h
    rfl
  | resolveDevice p user =>
    simp only [refreshToken] at h
    split at h <;> cases h
  | expireToken p user d iat => cases h; rfl
  | _ =>
    simp only [refreshToken] at h
    split at h
    · split at h <;> cases h
      rfl
    · cases h; rfl

theorem revokeUserDevice_accepted {userId deviceId : Uuid} {stage : RevokeUserDeviceStage}
    (h : (revokeUserDevice lib userId deviceId w x stage).2 = .done a) :
    accepted a = none := by
  cases stage with
  | update =>
    simp only [revokeUserDevice] at h
    split at h <;> cases h
    rfl
  | members => cases h
  | delTokens tokens =>
    cases tokens with
    | nil => cases h; rfl
    | cons token tokens => cases h

theorem smsCodes_deleteCode (phone : String) :
    (w.deleteCode phone).smsCodes = del w.smsCodes phone := rfl

theorem sendLoginSms_move {phone : String} (stage : SendSmsStage) :
    CodeMove w (.sendLoginSms phone stage)
      ((sendLoginSms phone w x stage).embed (.sendLoginSms phone)).1
      ((sendLoginSms phone w x stage).embed (.sendLoginSms phone)).2.status := by
  cases stage with
  | setCode =>
    simp only [sendLoginSms]
    generalize Text.trim phone = p
    exact .issue p (toString x.code) rfl rfl rfl rfl
  | _ =>
    simp only [sendLoginSms]
    split <;> exact .keep rfl rfl (.inl rfl) (.inl rfl)

theorem loginWithSms_move {r : SmsLoginRequest} (stage : SmsLoginStage) :
    CodeMove w (.loginWithSms r stage)
      ((loginWithSms lib r w x stage).embed (.loginWithSms r)).1
      ((loginWithSms lib r w x stage).embed (.loginWithSms r)).2.status := by
  cases stage with
  | getCode => exact .read _ _ rfl rfl rfl rfl rfl
  | universal matched =>
    simp only [loginWithSms]
    split
    · exact .keep rfl rfl (.inl rfl) (.inl rfl)
    · exact .keep rfl rfl (.inr rfl) (.inl rfl)
  | findUser matched =>
    simp only [loginWithSms]
    split
    · split
      · exact .keep rfl rfl (.inr rfl) (.inl rfl)
      · exact .keep rfl rfl (.inl rfl) (.inl rfl)
    · exact .keep rfl rfl (.inl rfl) (.inl rfl)
  | createUser matched =>
    simp only [loginWithSms]
    split
    · rename_i h
      obtain ⟨hk, -, -⟩ := keeps_createUser h
      exact .keep hk.1 hk.2 (.inl rfl) (.inl rfl)
    · exact .keep rfl rfl (.inl rfl) (.inl rfl)
  | findAgain matched =>
    simp only [loginWithSms]
    split
    · split
      · exact .keep rfl rfl (.inr rfl) (.inl rfl)
      · exact .keep rfl rfl (.inl rfl) (.inl rfl)
    · exact .keep rfl rfl (.inr rfl) (.inl rfl)
  | deleteCode matched user =>
    cases matched with
    | none => exact .keep rfl rfl (.inl rfl) (.inl rfl)
    | some n =>
      refine .delete (Text.trim r.phone) (smsCodes_deleteCode _) rfl (fun n p h => ?_) rfl rfl
      exact (Prod.mk.inj (some.inj h)).2.symm
  | resolveDevice matched user =>
    simp only [loginWithSms, resolveDeviceId]
    split <;> exact .keep rfl rfl (.inl rfl) (.inl rfl)
  | granting matched user g stage =>
    simp only [loginWithSms]
    have hk : KeepsCodes w (grant lib g w x stage).1 := (keeps_grant lib w x stage).1
    revert hk
    rcases grant lib g w x stage with ⟨w', st | ⟨e | ⟨iat, token⟩⟩⟩
    · exact fun hk => .keep hk.1 hk.2 (.inl rfl) (.inl rfl)
    · exact fun hk => .keep hk.1 hk.2 (.inl rfl) (.inr rfl)
    · exact fun hk => .keep hk.1 hk.2 (.inl rfl) (.inl rfl)
  | _ =>
    simp only [loginWithSms]
    split <;> exact .keep rfl rfl (.inl rfl) (.inl rfl)

theorem resetPasswordWithSms_move {r : ResetPasswordRequest} (stage : ResetPasswordStage) :
    CodeMove w (.resetPasswordWithSms r stage)
      ((resetPasswordWithSms r w x stage).embed (.resetPasswordWithSms r)).1
      ((resetPasswordWithSms r w x stage).embed (.resetPasswordWithSms r)).2.status := by
  cases stage with
  | begin =>
    simp only [resetPasswordWithSms]
    split
    · exact .keep rfl rfl (.inl rfl) (.inl rfl)
    · split
      · exact .keep rfl rfl (.inl rfl) (.inl rfl)
      · split <;> exact .keep rfl rfl (.inl rfl) (.inl rfl)
  | getCode => exact .read _ _ rfl rfl rfl rfl rfl
  | universal matched =>
    simp only [resetPasswordWithSms]
    split
    · exact .keep rfl rfl (.inl rfl) (.inl rfl)
    · exact .keep rfl rfl (.inr rfl) (.inl rfl)
  | deleteCode matched =>
    refine .delete (Text.trim r.phone) (smsCodes_deleteCode _) rfl (fun n p h => ?_) rfl ?_
    · cases matched with
      | none => cases h
      | some m => exact (Prod.mk.inj (some.inj h)).2.symm
    · cases matched <;> rfl
  | findUser matched =>
    simp only [resetPasswordWithSms]
    split
    · exact .keep rfl rfl (.inl rfl) (.inl rfl)
    · exact .keep rfl rfl (.inl rfl) (.inr rfl)
  | updatePassword matched user =>
    obtain ⟨hk, -, -⟩ := keeps_updatePassword (w := w) user.id x.passwordHash
    exact .keep hk.1 hk.2 (.inl rfl) (.inl rfl)

theorem getQrSession_accepted {qrId : Uuid} {stage : QrPollStage}
    (h : (getQrSession qrId w stage).2 = .done a) : accepted a = none := by
  cases stage with
  | judge r =>
    simp only [getQrSession] at h
    split at h
    · cases h
    · split at h <;> cases h
      rfl
  | markExpired | clearCode => cases h; rfl
  | _ =>
    simp only [getQrSession] at h
    split at h <;> cases h
    rfl

theorem confirmQrSession_accepted {userId qrId : Uuid} {deviceName platform : Option String}
    {stage : QrConfirmStage}
    (h : (confirmQrSession lib userId qrId deviceName platform w x stage).2 = .done a) :
    accepted a = none := by
  cases stage with
  | judge r =>
    simp only [confirmQrSession] at h
    split at h
    · cases h; rfl
    · split at h <;> cases h
  | markExpired | push => cases h; rfl
  | granting g stage =>
    rcases granting_answer h with ⟨iat, token, h⟩ | ⟨e, rfl⟩
    · cases h
    · rfl
  | _ =>
    simp only [confirmQrSession] at h
    split at h <;> cases h
    rfl

variable (lib w x) in
/-- Every statement makes one of these moves. -/
theorem codeMove (stage : SessionStage) :
    CodeMove w stage (sessionStatement lib w x stage).1
      (sessionStatement lib w x stage).2.status := by
  cases stage with
  | login r stage =>
    exact .of_keeps (keeps_login stage).1 (fun _ => rfl) (fun _ => rfl) fun _ => login_accepted
  | sendLoginSms phone stage => exact sendLoginSms_move stage
  | loginWithSms r stage => exact loginWithSms_move stage
  | resetPasswordWithSms r stage => exact resetPasswordWithSms_move stage
  | refreshToken token stage =>
    exact .of_keeps (keeps_refreshToken stage).1 (fun _ => rfl) (fun _ => rfl)
      fun _ => refreshToken_accepted
  | revokeDevice userId deviceId stage =>
    exact .of_keeps (keeps_revokeUserDevice stage).1 (fun _ => rfl) (fun _ => rfl)
      fun _ => revokeUserDevice_accepted
  | getQrSession qrId stage =>
    exact .of_keeps (keeps_getQrSession stage).1 (fun _ => rfl) (fun _ => rfl)
      fun _ => getQrSession_accepted
  | confirmQrSession userId qrId deviceName platform stage =>
    exact .of_keeps (keeps_confirmQrSession stage) (fun _ => rfl) (fun _ => rfl)
      fun _ => confirmQrSession_accepted
  | cancelQrSession qrId =>
    have hk : KeepsCodes w (cancelQrSession qrId w : SessionNext SessionStage).1 :=
      (keeps_cancelQrSession w).1
    refine .keep hk.1 hk.2 (.inr ?_) (.inr ?_)
    · simp only [sessionStatement, cancelQrSession]
      split <;> rfl
    · simp only [sessionStatement, cancelQrSession]
      split <;> rfl
  | _ => exact .keep rfl rfl (.inr rfl) (.inr rfl)

end

/-! ## Codes are accepted once -/

/-- The issue of the code that a call goes by. -/
def GoesBy (st : Status) (n : ℕ) : Prop := spentCode st = some n ∨ ∃ p, heldCode st = some (n, p)

/-- Codes have the numbers they were issued under, each at one phone. -/
structure CodesNumbered (w : SessionWorld) : Prop where
  issued : ∀ p e, w.smsCodes p = some e → e.value.issue < w.issued
  phone : ∀ p e p' e', w.smsCodes p = some e → w.smsCodes p' = some e' →
    e.value.issue = e'.value.issue → p = p'

/-- What holds of a call: the code it holds is stored under its phone, if it still is, and the code
it has deleted is stored no more. -/
structure CodeKept (w : SessionWorld) (st : Status) : Prop where
  held : ∀ n p, heldCode st = some (n, p) →
    n < w.issued ∧ ∀ q e, w.smsCodes q = some e → e.value.issue = n → q = p
  spent : ∀ n, spentCode st = some n →
    n < w.issued ∧ ∀ q e, w.smsCodes q = some e → e.value.issue ≠ n

/-- No two calls go by the same code. -/
def CodesApart (st st' : Status) : Prop := ∀ n, GoesBy st n → ¬ GoesBy st' n

/-- **The condition**: a request that is about to find its code stored is alone with it; no other
request has found this code and not deleted it yet. -/
def CodesReadAlone : Condition := fun s i _ =>
  ∀ c stage n, s.calls i = some (c, .running stage) → findsCode s.world stage = some n →
    ∀ j c' st p, j ≠ i → s.calls j = some (c', st) → heldCode st ≠ some (n, p)

section

variable {lib : SessionLibraries} {w w' : SessionWorld} {x : SessionChoice}

variable {st : Status}

theorem CodeKept.of_none (hheld : heldCode st = none) (hspent : spentCode st = none) :
    CodeKept w st := by
  refine ⟨fun n p h => ?_, fun n h => ?_⟩
  · rw [hheld] at h; cases h
  · rw [hspent] at h; cases h

variable {phone : String}

theorem readCode_eq_some {code : String} {n : ℕ} (h : w.readCode phone code = some n) :
    ∃ e, w.smsCodes phone = some e ∧ e.value.issue = n := by
  obtain ⟨v, hv, rfl⟩ := map_eq_some_iff.1 h
  obtain ⟨e, he, -, rfl⟩ := Lapsing.get_eq_some.1 (filter_eq_some_iff.1 hv).1
  exact ⟨e, he, rfl⟩

theorem CodesNumbered.congr (h : CodesNumbered w) (hcodes : w'.smsCodes = w.smsCodes)
    (hissued : w'.issued = w.issued) : CodesNumbered w' := by
  refine ⟨?_, ?_⟩
  · rw [hcodes, hissued]
    exact h.issued
  · rw [hcodes]
    exact h.phone

theorem CodeKept.congr (h : CodeKept w st) (hcodes : w'.smsCodes = w.smsCodes)
    (hissued : w'.issued = w.issued) : CodeKept w' st := by
  refine ⟨?_, ?_⟩
  · rw [hcodes, hissued]
    exact h.held
  · rw [hcodes, hissued]
    exact h.spent

variable {e : Lapsing.Entry IssuedCode}

/-- A new code has a number of its own. -/
theorem mem_setEx {code q : String}
    (hcodes : w'.smsCodes = setEx w.smsCodes w.now phone ⟨code, w.issued⟩ smsCodeTtlSeconds)
    (he : w'.smsCodes q = some e) :
    (q = phone ∧ e.value.issue = w.issued) ∨ (q ≠ phone ∧ w.smsCodes q = some e) := by
  rw [hcodes] at he
  rcases Lapsing.value_setEx he with ⟨hq, hv⟩ | h
  · exact .inl ⟨hq, by rw [hv]⟩
  · exact .inr h

theorem mem_del {q : String} (hcodes : w'.smsCodes = del w.smsCodes phone)
    (he : w'.smsCodes q = some e) :
    q ≠ phone ∧ w.smsCodes q = some e :=
  Lapsing.value_del (hcodes ▸ he)

variable {stage : SessionStage}

/-- A statement keeps the numbers of the codes, and what holds of the other calls. -/
theorem CodeMove.others (h : CodeMove w stage w' st) (hw : CodesNumbered w) :
    CodesNumbered w' ∧ ∀ st', CodeKept w st' → CodeKept w' st' := by
  cases h with
  | read _ _ _ hcodes hissued | keep hcodes hissued =>
    exact ⟨hw.congr hcodes hissued, fun st' h => h.congr hcodes hissued⟩
  | issue phone code hcodes hissued hheld hspent =>
    refine ⟨⟨fun q e he => ?_, fun q e q' e' he he' heq => ?_⟩, fun st' h =>
      ⟨fun n p hn => ⟨?_, fun q e he hq => ?_⟩, fun n hn => ⟨?_, fun q e he hq => ?_⟩⟩⟩
    · rcases mem_setEx hcodes he with ⟨-, hi⟩ | ⟨-, he⟩
      · omega
      · have := hw.issued q e he
        omega
    · rcases mem_setEx hcodes he with ⟨rfl, hi⟩ | ⟨-, he⟩
      · rcases mem_setEx hcodes he' with ⟨rfl, -⟩ | ⟨-, he'⟩
        · rfl
        · have := hw.issued q' e' he'
          omega
      · rcases mem_setEx hcodes he' with ⟨-, hi⟩ | ⟨-, he'⟩
        · have := hw.issued q e he
          omega
        · exact hw.phone q e q' e' he he' heq
    · have := (h.held n p hn).1
      omega
    · rcases mem_setEx hcodes he with ⟨-, hi⟩ | ⟨-, he⟩
      · have := (h.held n p hn).1
        omega
      · exact (h.held n p hn).2 q e he hq
    · have := (h.spent n hn).1
      omega
    · rcases mem_setEx hcodes he with ⟨-, hi⟩ | ⟨-, he⟩
      · have := (h.spent n hn).1
        omega
      · exact (h.spent n hn).2 q e he hq
  | delete phone hcodes hissued hphone hheld hspent =>
    refine ⟨⟨fun q e he => ?_, fun q e q' e' he he' => ?_⟩, fun st' h =>
      ⟨fun n p hn => ⟨?_, fun q e he => ?_⟩, fun n hn => ⟨?_, fun q e he => ?_⟩⟩⟩
    · rw [hissued]
      exact hw.issued q e (mem_del hcodes he).2
    · exact hw.phone q e q' e' (mem_del hcodes he).2 (mem_del hcodes he').2
    · rw [hissued]
      exact (h.held n p hn).1
    · exact (h.held n p hn).2 q e (mem_del hcodes he).2
    · rw [hissued]
      exact (h.spent n hn).1
    · exact (h.spent n hn).2 q e (mem_del hcodes he).2

/-- And what holds of its own call. -/
theorem CodeMove.self (h : CodeMove w stage w' st) (hw : CodesNumbered w)
    (hk : CodeKept w (.running stage)) : CodeKept w' st := by
  cases h with
  | read phone code hreads hcodes hissued hheld hspent =>
    refine CodeKept.congr ⟨fun n p hn => ?_, fun n hn => ?_⟩ hcodes hissued
    · rw [hheld] at hn
      obtain ⟨m, hm, hmp⟩ := map_eq_some_iff.1 hn
      cases hmp
      obtain ⟨e, he, rfl⟩ := readCode_eq_some hm
      exact ⟨hw.issued _ e he, fun q e' he' hq => hw.phone q e' _ e he' he hq⟩
    · rw [hspent] at hn
      cases hn
  | issue phone code hcodes hissued hheld hspent => exact .of_none hheld hspent
  | delete phone hcodes hissued hphone hheld hspent =>
    refine ⟨fun n p hn => ?_, fun n hn => ?_⟩
    · rw [hheld] at hn
      cases hn
    · rw [hspent] at hn
      obtain ⟨⟨m, p⟩, hm, rfl⟩ := map_eq_some_iff.1 hn
      obtain ⟨hlt, huniq⟩ := hk.held m p hm
      rw [hissued]
      refine ⟨hlt, fun q e he hq => ?_⟩
      obtain ⟨hne, he⟩ := mem_del hcodes he
      exact hne ((huniq q e he hq).trans (hphone m p hm))
  | keep hcodes hissued hheld hspent =>
    refine CodeKept.congr ⟨fun n p hn => ?_, fun n hn => ?_⟩ hcodes hissued
    · rcases hheld with h | h
      · exact hk.held n p (h.symm.trans hn)
      · rw [h] at hn
        cases hn
    · rcases hspent with h | h
      · exact hk.spent n (h.symm.trans hn)
      · rw [h] at hn
        cases hn

/-- A call that goes by a code has read it with this statement, or went by it before. -/
theorem CodeMove.goesBy (h : CodeMove w stage w' st) {n : ℕ} (hn : GoesBy st n) :
    findsCode w stage = some n ∨ GoesBy (.running stage) n := by
  cases h with
  | read phone code hreads hcodes hissued hheld hspent =>
    rcases hn with hn | ⟨p, hn⟩
    · rw [hspent] at hn
      cases hn
    · rw [hheld] at hn
      obtain ⟨m, hm, hmp⟩ := map_eq_some_iff.1 hn
      cases hmp
      exact .inl (by simp [findsCode, hreads, hm])
  | issue phone code hcodes hissued hheld hspent =>
    rcases hn with hn | ⟨p, hn⟩
    · rw [hspent] at hn
      cases hn
    · rw [hheld] at hn
      cases hn
  | delete phone hcodes hissued hphone hheld hspent =>
    rcases hn with hn | ⟨p, hn⟩
    · rw [hspent] at hn
      obtain ⟨⟨m, p⟩, hm, rfl⟩ := map_eq_some_iff.1 hn
      exact .inr (.inr ⟨p, hm⟩)
    · rw [hheld] at hn
      cases hn
  | keep hcodes hissued hheld hspent =>
    rcases hn with hn | ⟨p, hn⟩
    · rcases hspent with h | h
      · exact .inr (.inl (h.symm.trans hn))
      · rw [h] at hn
        cases hn
    · rcases hheld with h | h
      · exact .inr (.inr ⟨p, h.symm.trans hn⟩)
      · rw [h] at hn
        cases hn

theorem finds_stored {n : ℕ} (h : findsCode w stage = some n) :
    ∃ p e, w.smsCodes p = some e ∧ e.value.issue = n := by
  obtain ⟨⟨phone, code⟩, -, hread⟩ := bind_eq_some_iff.1 h
  exact ⟨phone, readCode_eq_some hread⟩

theorem codesNumbered_tick (t : SessionTick) (h : CodesNumbered w) : CodesNumbered (w.tick t) := by
  cases t <;> exact h.congr rfl rfl

theorem codeKept_tick (t : SessionTick) (h : CodeKept w st) : CodeKept (w.tick t) st := by
  cases t <;> exact h.congr rfl rfl

theorem heldCode_start (c : SessionCall) : heldCode (.running c.start) = none ∧
    spentCode (.running c.start) = none := by
  cases c <;> exact ⟨rfl, rfl⟩

theorem not_goesBy_start (c : SessionCall) (n : ℕ) : ¬ GoesBy (.running c.start) n := by
  rintro (h | ⟨p, h⟩) <;> cases c <;> cases h

end

/-- A code that was issued is accepted once. -/
def CodesUsedOnce (s : State) : Prop :=
  ∀ i j c c' a a' n, s.calls i = some (c, .answered a) → s.calls j = some (c', .answered a') →
    accepted a = some n → accepted a' = some n → i = j

/-- **Single use.**  Where codes are read alone, a code that was issued for a phone is accepted by
one request at most, in every state that any number of requests comes to. -/
theorem codes_single_use {lib : SessionLibraries} {w : SessionWorld} {s : State}
    (hw : CodesNumbered w) (h : Overlap.Reach (sessions lib) CodesReadAlone (.idle w) s) :
    CodesUsedOnce s := by
  have heach : ∀ s, Overlap.Reach (sessions lib) CodesReadAlone (.idle w) s →
      Overlap.Each CodesNumbered (fun w _ _ st => CodeKept w st) s := by
    intro s hs
    refine hs.each (fun s i c _ => ?_) (fun s i c stage x hE hcall _ _ => ?_)
      (fun w i c => .of_none rfl rfl) (fun w t hw => ?_) (Overlap.each_idle hw)
    · exact .of_none (heldCode_start c).1 (heldCode_start c).2
    · have hmove : CodeMove s.world stage _ _ := codeMove lib s.world x stage
      obtain ⟨hnumbered, hothers⟩ := hmove.others hE.1
      exact ⟨hnumbered, hmove.self hE.1 (hE.2 i c _ hcall), fun j c' st' _ _ h => hothers st' h⟩
    · exact ⟨codesNumbered_tick t hw, fun i c st h => codeKept_tick t h⟩
  have hapart : Overlap.EachTwo (fun _ st _ st' => CodesApart st st') s := by
    refine h.apart heach (fun c st c' st' h n hn hn' => h n hn' hn) (fun c c' st' n hn => ?_)
      (fun s i c stage x hE hR hcall _ hG j c' st' hj hcall' n hn hn' => ?_)
      (fun c c' st' n hn => ?_) Overlap.apart_idle
    · exact absurd hn (not_goesBy_start c n)
    · have hmove : CodeMove s.world stage _ _ := codeMove lib s.world x stage
      rcases hmove.goesBy hn with hfind | hold
      · -- The other has not deleted the code, since it is stored; and it does not hold it.
        obtain ⟨p, e, he, hissue⟩ := finds_stored hfind
        rcases hn' with hspent | ⟨q, hheld⟩
        · exact ((hE.2 j c' st' hcall').spent n hspent).2 p e he hissue
        · exact hG c stage n hcall hfind j c' st' q hj hcall' hheld
      · exact hR i j c _ c' st' (Ne.symm hj) hcall hcall' n hold hn'
    · rcases hn with hn | ⟨p, hn⟩ <;> cases hn
  intro i j c c' a a' n hi hj ha ha'
  by_contra hij
  exact hapart i j c _ c' _ hij hi hj n (.inl ha) (.inl ha')

/-! ## Two requests that read the same code -/

def codeLogin : SessionCall :=
  .loginWithSms ⟨"13800000000", "123456", some "00000000-0000-0000-0000-00000000000a", none, none⟩

/-- The code is sent, two logins read it, and both go on. -/
def overlappingLogins : List Act :=
  .start 0 (.sendLoginSms "13800000000") :: runs 0 3 0 ++
    .start 1 codeLogin :: runs 1 3 10 ++ .start 2 codeLogin :: runs 2 3 20 ++
    runs 1 8 30 ++ runs 2 8 40

/-- The code is sent, and a login goes by it. -/
def singleLogin : List Act :=
  .start 0 (.sendLoginSms "13800000000") :: runs 0 3 0 ++ .start 1 codeLogin :: runs 1 11 10

/-- The code by which a call was accepted. -/
def acceptedBy (s : State) (i : ℕ) : Option ℕ :=
  match s.calls i with
  | some (_, .answered a) => accepted a
  | _ => none

theorem acceptedBy_eq_some {s : State} {i n : ℕ} (h : acceptedBy s i = some n) :
    ∃ c a, s.calls i = some (c, .answered a) ∧ accepted a = some n := by
  unfold acceptedBy at h
  split at h
  · rename_i c a hi
    exact ⟨c, a, hi, h⟩
  · cases h

theorem codesNumbered_sampleWorld : CodesNumbered sampleWorld := by
  refine ⟨fun p e he => ?_, fun p e p' e' he => ?_⟩ <;> cases he

/-- Without the condition, two requests can be accepted by the same code. -/
theorem code_accepted_twice :
    ¬ ∀ (lib : SessionLibraries) (w : SessionWorld) (s : State), CodesNumbered w →
      Overlap.Reach (sessions lib) (fun _ _ _ => True) (.idle w) s → CodesUsedOnce s := by
  intro h
  have hrun : (Overlap.perform (sessions sampleLibraries) (fun _ _ _ => true) overlappingLogins
      (.idle sampleWorld)).map (fun s => (acceptedBy s 1, acceptedBy s 2)) =
        some (some 0, some 0) := by
    decide +kernel
  obtain ⟨s, hs, hboth⟩ := map_eq_some_iff.1 hrun
  obtain ⟨h₁, h₂⟩ := Prod.mk.inj hboth
  obtain ⟨c, a, hi, ha⟩ := acceptedBy_eq_some h₁
  obtain ⟨c', a', hj, ha'⟩ := acceptedBy_eq_some h₂
  have hreach := Overlap.Reach.of_perform (G := fun _ _ _ => True) (fun _ _ _ _ => trivial) hs
  exact absurd (h _ _ s codesNumbered_sampleWorld hreach 1 2 c c' a a' 0 hi hj ha ha') (by decide)

/-- The condition, of calls with numbers below a bound. -/
def readAlone (bound : ℕ) (s : State) (i : ℕ) : Bool :=
  match s.calls i with
  | some (_, .running stage) =>
    (findsCode s.world stage).all fun n => (List.range bound).all fun j =>
      j = i || (s.calls j).all fun call => (heldCode call.2).all (·.1 ≠ n)
  | _ => true

theorem codesReadAlone_of_below {bound : ℕ} {s : State} {i : ℕ} {x : SessionChoice}
    (hs : s.Below bound) (h : readAlone bound s i = true) : CodesReadAlone s i x := by
  intro c stage n hi hn j c' st p hj hcall hheld
  have hlt : j < bound := by
    by_contra hge
    rw [hs j (Nat.le_of_not_lt hge)] at hcall
    cases hcall
  simp only [readAlone, hi, hn, all_some, List.all_eq_true, List.mem_range] at h
  have hcheck := h j hlt
  simp [hj, hcall, hheld] at hcheck

/-- A code that is sent is good for a login, and for one only. -/
theorem codes_single_use_login :
    ∃ s, Overlap.perform (sessions sampleLibraries) (fun s i _ => readAlone 2 s i) singleLogin
      (.idle sampleWorld) = some s ∧ acceptedBy s 1 = some 0 ∧ CodesUsedOnce s := by
  have hrun : (Overlap.perform (sessions sampleLibraries) (fun s i _ => readAlone 2 s i) singleLogin
      (.idle sampleWorld)).map (fun s => acceptedBy s 1) = some (some 0) := by
    decide +kernel
  obtain ⟨s, hs, haccepted⟩ := map_eq_some_iff.1 hrun
  have hreach : Overlap.Reach (sessions sampleLibraries) CodesReadAlone (.idle sampleWorld) s :=
    Overlap.Reach.of_perform_below (fun s i x hb h => codesReadAlone_of_below hb h)
      (by decide +kernel) (fun _ _ => rfl) hs
  exact ⟨s, hs, haccepted, codes_single_use codesNumbered_sampleWorld hreach⟩

end Sessions

end RedcodeIm
