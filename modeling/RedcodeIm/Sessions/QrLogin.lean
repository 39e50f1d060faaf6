import RedcodeIm.Sessions.System

/-!
# A QR session is used once

A session is confirmed, cancelled or expired by single statements that ask for it to be pending.
Its login code is read by one statement and cleared by another, and it is pushed over WebSockets
besides; `CodeHandedAlone` is the condition that these do not meet.

* `tookCode`, `hasConfirmed` — the polls that have the code of a session, and the confirmations
  that have gone through.
* `QrMove` — all that a statement does to QR sessions.
* `qr_login_one_shot` — a session is settled once, confirmed once and in time, and its code is
  handed out once.
-/

namespace RedcodeIm

open Overlap (Next Each EachTwo Reach)
open Option
open Function
open SessionWorld

namespace Sessions

/-! ## Polls and confirmations -/

/-- The answer has a login code in it. -/
def handsOut : SessionAnswer → Bool
  | .qrStatus _ (some _) => true
  | _ => false

/-- The session whose code a poll has read. -/
def tookCode : SessionCall → Status → Option Uuid
  | _, .running (.getQrSession q (.clearCode _)) => some q
  | .getQrSession q, .answered a => if handsOut a then some q else none
  | _, _ => none

/-- The session that a call has confirmed. -/
def hasConfirmed : SessionCall → Status → Option Uuid
  | _, .running (.confirmQrSession _ q _ _ (.push _)) => some q
  | .confirmQrSession _ q _ _, .answered a => if a = .qrConfirmed then some q else none
  | _, _ => none

/-- The session whose code a call is about to push. -/
def aboutToPush : Status → Option Uuid
  | .running (.confirmQrSession _ q _ _ (.push _)) => some q
  | _ => none

/-- The session whose code a poll has read and not cleared. -/
def aboutToClear : Status → Option Uuid
  | .running (.getQrSession q (.clearCode _)) => some q
  | _ => none

/-- The session is confirmed. -/
def Confirmed (w : SessionWorld) (q : Uuid) : Prop :=
  ∃ r, w.qrSessions q = some r ∧ r.status = .confirmed

/-- The code has been pushed to somebody. -/
def Pushed (w : SessionWorld) (q : Uuid) : Prop := ∃ p ∈ w.pushes, p.qrToken = q

/-- The connections that take a push. -/
def recipients (w : SessionWorld) (x : SessionChoice) (q : Uuid) : List String :=
  (w.qrSubscribers q).filter (· ∈ x.taken)

/-! ## What a statement does to QR sessions -/

/-- All that a statement does to the sessions, and to what its call has of them. -/
inductive QrMove (w : SessionWorld) (x : SessionChoice) (stage : SessionStage) (w' : SessionWorld)
    (st : Status) : Prop where
  | keep (hrows : w'.qrSessions = w.qrSessions) (hpushes : w'.pushes = w.pushes)
      (htook : tookCode stage.call st = none) (hconfirmed : hasConfirmed stage.call st = none)
  | create (q : Uuid) (r : QrLoginSessionRecord) (hnew : w.qrSessions q = none)
      (hstatus : r.status = .pending)
      (hrows : w'.qrSessions = update w.qrSessions q (some r))
      (hpushes : w'.pushes = w.pushes) (htook : tookCode stage.call st = none)
      (hconfirmed : hasConfirmed stage.call st = none)
  | settle (q : Uuid) (r r' : QrLoginSessionRecord) (hr : w.qrSessions q = some r)
      (hpending : r.status = .pending) (hstatus : r'.status ≠ .confirmed)
      (hrows : w'.qrSessions = update w.qrSessions q (some r'))
      (hpushes : w'.pushes = w.pushes) (htook : tookCode stage.call st = none)
      (hconfirmed : hasConfirmed stage.call st = none)
  | confirm (q : Uuid) (r r' : QrLoginSessionRecord) (hr : w.qrSessions q = some r)
      (hpending : r.status = .pending) (htime : w.now < r.expiresAt)
      (hr' : r'.status = .confirmed ∧ r'.confirmedAt = some w.now ∧ r'.expiresAt = r.expiresAt)
      (hrows : w'.qrSessions = update w.qrSessions q (some r'))
      (hpushes : w'.pushes = w.pushes) (htook : tookCode stage.call st = none)
      (hconfirmed : hasConfirmed stage.call st = some q)
  | find (q : Uuid) (code : String) (hstage : stage = .getQrSession q .selectCode)
      (hcode : w.selectLoginCode q = some code) (hst : aboutToClear st = some q)
      (hrows : w'.qrSessions = w.qrSessions) (hpushes : w'.pushes = w.pushes)
      (htook : tookCode stage.call st = some q) (hconfirmed : hasConfirmed stage.call st = none)
  | clear (q : Uuid) (hstage : aboutToClear (.running stage) = some q)
      (hrows : w'.qrSessions = (w.clearLoginCode q).qrSessions) (hpushes : w'.pushes = w.pushes)
      (hst : aboutToClear st = none) (htook : tookCode stage.call st = some q)
      (hconfirmed : hasConfirmed stage.call st = none)
  | push (q : Uuid) (code : String) (hstage : aboutToPush (.running stage) = some q)
      (hrows : w'.qrSessions = w.qrSessions)
      (hpushes : w'.pushes = w.pushes ++ (recipients w x q).map fun conn => ⟨q, conn, code⟩)
      (hst : aboutToPush st = none) (htook : tookCode stage.call st = none)
      (hconfirmed : hasConfirmed stage.call st = some q)

section

variable {lib : SessionLibraries} {w w' : SessionWorld} {x : SessionChoice}

/-- What leaves the sessions alone. -/
theorem QrMove.of_keeps {Stage : Type} {out : SessionNext Stage} {f : Stage → SessionStage}
    {stage : SessionStage} (hk : KeepsQr w out.1)
    (hf : ∀ s, tookCode stage.call (.running (f s)) = none ∧
      hasConfirmed stage.call (.running (f s)) = none)
    (ha : ∀ a, tookCode stage.call (.answered a) = none ∧
      hasConfirmed stage.call (.answered a) = none) :
    QrMove w x stage (out.embed f).1 (out.embed f).2.status := by
  rcases out with ⟨w', st | a⟩
  · exact .keep hk.1 hk.2 (hf st).1 (hf st).2
  · exact .keep hk.1 hk.2 (ha a).1 (ha a).2

variable {q : Uuid} {cond : QrLoginSessionRecord → Bool}
  {set : QrLoginSessionRecord → QrLoginSessionRecord}

/-- An `UPDATE` that finds its row. -/
theorem updateQr_true (h : w.updateQr q cond set = (w', true)) :
    ∃ r, w.qrSessions q = some r ∧ cond r = true ∧
      w'.qrSessions = update w.qrSessions q (some (set r)) ∧ w'.pushes = w.pushes := by
  unfold updateQr at h
  split at h
  · rename_i r hr
    split at h
    · rename_i hc
      obtain ⟨rfl, -⟩ := Prod.mk.inj h
      exact ⟨r, hr, hc, rfl, rfl⟩
    · cases (Prod.mk.inj h).2
  · cases (Prod.mk.inj h).2

/-- An `UPDATE` that finds none. -/
theorem updateQr_false (h : w.updateQr q cond set = (w', false)) : w' = w := by
  unfold updateQr at h
  split at h
  · split at h
    · cases (Prod.mk.inj h).2
    · exact (Prod.mk.inj h).1.symm
  · exact (Prod.mk.inj h).1.symm

theorem markExpired_move {stage : SessionStage} {st : Status}
    (htook : tookCode stage.call st = none) (hconfirmed : hasConfirmed stage.call st = none) :
    QrMove w x stage (w.markExpiredIfNeeded q) st := by
  unfold markExpiredIfNeeded
  generalize hout : w.updateQr q _ _ = out
  obtain ⟨w', b⟩ := out
  cases b with
  | true =>
    obtain ⟨r, hr, hc, hrows, hpushes⟩ := updateQr_true hout
    simp only [Bool.and_eq_true, decide_eq_true_eq] at hc
    exact .settle q r _ hr hc.1 (by simp) hrows hpushes htook hconfirmed
  | false =>
    obtain rfl := updateQr_false hout
    exact .keep rfl rfl htook hconfirmed

theorem getQrSession_move (stage : QrPollStage) :
    QrMove w x (.getQrSession q stage) ((getQrSession q w stage).embed (.getQrSession q)).1
      ((getQrSession q w stage).embed (.getQrSession q)).2.status := by
  cases stage with
  | start =>
    simp only [getQrSession]
    split <;> exact .keep rfl rfl rfl rfl
  | judge r =>
    simp only [getQrSession]
    split
    · exact .keep rfl rfl rfl rfl
    · split <;> exact .keep rfl rfl rfl rfl
  | markExpired => exact markExpired_move rfl rfl
  | selectCode =>
    simp only [getQrSession]
    split
    · rename_i code hcode
      exact .find q code rfl hcode rfl rfl rfl rfl rfl
    · exact .keep rfl rfl rfl rfl
  | clearCode code =>
    have hpushes : (w.clearLoginCode q).pushes = w.pushes := by
      unfold clearLoginCode updateQr
      split
      · split <;> rfl
      · rfl
    exact .clear q rfl rfl hpushes rfl rfl rfl

theorem cancelQrSession_move :
    QrMove w x (.cancelQrSession q) (cancelQrSession q w : SessionNext SessionStage).1
      (cancelQrSession q w : SessionNext SessionStage).2.status := by
  simp only [cancelQrSession, cancelQr]
  generalize hout : w.updateQr q _ _ = out
  obtain ⟨w', b⟩ := out
  cases b with
  | true =>
    obtain ⟨r, hr, hc, hrows, hpushes⟩ := updateQr_true hout
    exact .settle q r _ hr (of_decide_eq_true hc) (by simp) hrows hpushes rfl rfl
  | false => exact .keep rfl rfl rfl rfl

theorem confirmQrSession_move {userId : Uuid} {deviceName platform : Option String}
    (stage : QrConfirmStage) :
    QrMove w x (.confirmQrSession userId q deviceName platform stage)
      ((confirmQrSession lib userId q deviceName platform w x stage).embed
        (.confirmQrSession userId q deviceName platform)).1
      ((confirmQrSession lib userId q deviceName platform w x stage).embed
        (.confirmQrSession userId q deviceName platform)).2.status := by
  cases stage with
  | start =>
    simp only [confirmQrSession]
    split <;> exact .keep rfl rfl rfl rfl
  | judge r =>
    simp only [confirmQrSession]
    split
    · exact .keep rfl rfl rfl rfl
    · split <;> exact .keep rfl rfl rfl rfl
  | markExpired => exact markExpired_move rfl rfl
  | granting g stage =>
    simp only [confirmQrSession]
    have hk : KeepsQr w (grant lib g w x stage).1 := (keeps_grant lib w x stage).2
    revert hk
    rcases grant lib g w x stage with ⟨w', st | ⟨e | ⟨iat, token⟩⟩⟩ <;>
      exact fun hk => .keep hk.1 hk.2 rfl rfl
  | confirm code =>
    simp only [confirmQrSession, confirmQr]
    generalize hout : w.updateQr q _ _ = out
    obtain ⟨w', b⟩ := out
    cases b with
    | true =>
      obtain ⟨r, hr, hc, hrows, hpushes⟩ := updateQr_true hout
      simp only [Bool.and_eq_true, decide_eq_true_eq] at hc
      refine .confirm q r _ hr hc.1 hc.2 ?_ hrows hpushes rfl rfl
      exact ⟨rfl, rfl, rfl⟩
    | false => exact .keep rfl rfl rfl rfl
  | push code => exact .push q code rfl rfl rfl rfl rfl rfl

variable (lib) in
/-- Every statement makes one of these moves. -/
theorem qrMove (stage : SessionStage) (hx : x.possible lib w = true) :
    QrMove w x stage (sessionStatement lib w x stage).1
      (sessionStatement lib w x stage).2.status := by
  cases stage with
  | login r stage => exact .of_keeps (keeps_login stage).2 (fun _ => ⟨rfl, rfl⟩) fun _ => ⟨rfl, rfl⟩
  | sendLoginSms phone stage =>
    exact .of_keeps (keeps_sendLoginSms stage).2 (fun _ => ⟨rfl, rfl⟩) fun _ => ⟨rfl, rfl⟩
  | loginWithSms r stage =>
    exact .of_keeps (keeps_loginWithSms stage) (fun _ => ⟨rfl, rfl⟩) fun _ => ⟨rfl, rfl⟩
  | resetPasswordWithSms r stage =>
    exact .of_keeps (keeps_resetPasswordWithSms stage).2 (fun _ => ⟨rfl, rfl⟩) fun _ => ⟨rfl, rfl⟩
  | refreshToken token stage =>
    exact .of_keeps (keeps_refreshToken stage).2 (fun _ => ⟨rfl, rfl⟩) fun _ => ⟨rfl, rfl⟩
  | revokeDevice userId deviceId stage =>
    exact .of_keeps (keeps_revokeUserDevice stage).2 (fun _ => ⟨rfl, rfl⟩) fun _ => ⟨rfl, rfl⟩
  | createQrSession =>
    simp only [SessionChoice.possible, Bool.and_eq_true, isNone_iff_eq_none] at hx
    exact .create x.uuid _ hx.1.1.2 rfl rfl rfl rfl rfl
  | getQrSession q stage => exact getQrSession_move stage
  | confirmQrSession userId q deviceName platform stage => exact confirmQrSession_move stage
  | cancelQrSession q => exact cancelQrSession_move
  | subscribeQr q connId => exact .keep rfl rfl rfl rfl

end

/-! ## What moves keep -/

section

variable {w w' : SessionWorld} {x : SessionChoice} {stage : SessionStage} {st : Status} {q : Uuid}

/-- A statement that clears a code leaves the rows as they are otherwise. -/
theorem clearLoginCode_rows (w : SessionWorld) (q : Uuid) :
    (w.clearLoginCode q).qrSessions = w.qrSessions ∨
      ∃ r, w.qrSessions q = some r ∧ (w.clearLoginCode q).qrSessions =
        update w.qrSessions q (some { r with loginCode := none }) := by
  unfold clearLoginCode updateQr
  cases hr : w.qrSessions q with
  | none => exact .inl rfl
  | some r => exact .inr ⟨r, rfl, rfl⟩

theorem selectLoginCode_congr (hrows : w'.qrSessions = w.qrSessions) :
    w'.selectLoginCode q = w.selectLoginCode q := by
  simp only [selectLoginCode, hrows]

theorem selectLoginCode_clear : (w.clearLoginCode q).selectLoginCode q = none := by
  unfold selectLoginCode clearLoginCode updateQr
  cases hr : w.qrSessions q with
  | none => simp [hr]
  | some r => cases h : decide (r.status = .confirmed) <;> simp [Option.filter, h]

/-- Of a session that is not pending, only the code can go. -/
theorem QrMove.settled (h : QrMove w x stage w' st) {r : QrLoginSessionRecord}
    (hr : w.qrSessions q = some r) (hs : r.status ≠ .pending) :
    w'.qrSessions q = w.qrSessions q ∨ w'.qrSessions = (w.clearLoginCode q).qrSessions := by
  have hother : ∀ q' r', q ≠ q' → w'.qrSessions = update w.qrSessions q' r' →
      w'.qrSessions q = w.qrSessions q := fun q' r' hne hrows => by
    rw [hrows, update_of_ne hne]
  cases h with
  | keep hrows | find _ _ _ _ _ hrows | push _ _ _ hrows => exact .inl (by rw [hrows])
  | create q' r' hnew hstatus hrows =>
    refine .inl (hother q' _ (fun heq => ?_) hrows)
    rw [← heq, hr] at hnew
    cases hnew
  | settle q' _ _ hr₀ hpending _ hrows | confirm q' _ _ hr₀ hpending _ _ hrows =>
    refine .inl (hother q' _ (fun heq => hs ?_) hrows)
    rw [← heq, hr] at hr₀
    rw [some.inj hr₀, hpending]
  | clear q' hstage hrows =>
    by_cases hq : q = q'
    · exact .inr (hq ▸ hrows)
    · rcases clearLoginCode_rows w q' with hclear | ⟨r₀, hr₀, hclear⟩
      · exact .inl (by rw [hrows, hclear])
      · exact .inl (hother q' _ hq (hrows.trans hclear))

/-- **Settled for good**: a session that is not pending keeps its status. -/
theorem QrMove.final (h : QrMove w x stage w' st) {r : QrLoginSessionRecord}
    (hr : w.qrSessions q = some r) (hs : r.status ≠ .pending) :
    ∃ r', w'.qrSessions q = some r' ∧ r'.status = r.status := by
  rcases h.settled hr hs with hsame | hclear
  · exact ⟨r, hsame.trans hr, rfl⟩
  · rcases clearLoginCode_rows w q with hrows | ⟨r₀, hr₀, hrows⟩
    · exact ⟨r, by rw [hclear, hrows, hr], rfl⟩
    · cases hr.symm.trans hr₀
      exact ⟨{ r with loginCode := none }, by rw [hclear, hrows, update_self], rfl⟩

theorem QrMove.confirmed (h : QrMove w x stage w' st) (hc : Confirmed w q) : Confirmed w' q := by
  obtain ⟨r, hr, hs⟩ := hc
  obtain ⟨r', hr', hs'⟩ := h.final hr (by rw [hs]; simp)
  exact ⟨r', hr', hs'.trans hs⟩

/-- A code that is not there comes only with a confirmation. -/
theorem QrMove.noCode (h : QrMove w x stage w' st) (hc : Confirmed w q)
    (hnone : w.selectLoginCode q = none) : w'.selectLoginCode q = none := by
  obtain ⟨r, hr, hs⟩ := hc
  rcases h.settled hr (by rw [hs]; decide) with hsame | hclear
  · simpa only [selectLoginCode, hsame] using hnone
  · exact (selectLoginCode_congr hclear).trans selectLoginCode_clear

end

/-! ## Sessions are settled once -/

/-- A session is confirmed before it expires, and its code is pushed when it is confirmed. -/
structure RowsDated (w : SessionWorld) : Prop where
  inTime : ∀ q r, w.qrSessions q = some r → r.status = .confirmed →
    ∃ t, r.confirmedAt = some t ∧ t < r.expiresAt
  pushed : ∀ q, Pushed w q → Confirmed w q

/-- What a call has of a session, it has of a confirmed one. -/
structure QrKept (w : SessionWorld) (c : SessionCall) (st : Status) : Prop where
  call : ∀ stage, st = .running stage → stage.call = c
  took : ∀ q, tookCode c st = some q → Confirmed w q
  confirmed : ∀ q, hasConfirmed c st = some q → Confirmed w q

section

variable {lib : SessionLibraries} {w w' : SessionWorld} {x : SessionChoice} {stage : SessionStage}
  {st : Status} {q : Uuid}

theorem tookCode_of_aboutToClear (h : aboutToClear (.running stage) = some q) :
    tookCode stage.call (.running stage) = some q := by
  unfold aboutToClear at h
  split at h
  · rename_i hst
    cases hst
    exact h
  · cases h

theorem hasConfirmed_of_aboutToPush (h : aboutToPush (.running stage) = some q) :
    hasConfirmed stage.call (.running stage) = some q := by
  unfold aboutToPush at h
  split at h
  · rename_i hst
    cases hst
    exact h
  · cases h

theorem confirmed_of_selectLoginCode {code : String} (h : w.selectLoginCode q = some code) :
    Confirmed w q := by
  obtain ⟨r, hr, -⟩ := bind_eq_some_iff.1 h
  obtain ⟨hr, hs⟩ := filter_eq_some_iff.1 hr
  exact ⟨r, hr, of_decide_eq_true hs⟩

variable {r : QrLoginSessionRecord}

/-- The row of a session after an `UPDATE` of one of them. -/
theorem row_update {q' : Uuid} {r' : QrLoginSessionRecord}
    (hrows : w'.qrSessions = update w.qrSessions q' (some r'))
    (hr : w'.qrSessions q = some r) : (q = q' ∧ r = r') ∨ (q ≠ q' ∧ w.qrSessions q = some r) := by
  rw [hrows] at hr
  by_cases hq : q = q'
  · subst hq
    rw [update_self] at hr
    exact .inl ⟨rfl, (some.inj hr).symm⟩
  · rw [update_of_ne hq] at hr
    exact .inr ⟨hq, hr⟩

variable (h : QrMove w x stage w' st)

include h

theorem QrMove.inTime (hw : RowsDated w) (hr : w'.qrSessions q = some r)
    (hs : r.status = .confirmed) : ∃ t, r.confirmedAt = some t ∧ t < r.expiresAt := by
  cases h with
  | keep hrows | find _ _ _ _ _ hrows | push _ _ _ hrows => exact hw.inTime q r (hrows ▸ hr) hs
  | create q' r' hnew hstatus hrows =>
    rcases row_update hrows hr with ⟨-, rfl⟩ | ⟨-, hr⟩
    · rw [hstatus] at hs
      cases hs
    · exact hw.inTime q r hr hs
  | settle q' r₀ r' hr₀ hpending hstatus hrows =>
    rcases row_update hrows hr with ⟨-, rfl⟩ | ⟨-, hr⟩
    · exact absurd hs hstatus
    · exact hw.inTime q r hr hs
  | confirm q' r₀ r' hr₀ hpending htime hr' hrows =>
    rcases row_update hrows hr with ⟨-, rfl⟩ | ⟨-, hr⟩
    · exact ⟨w.now, hr'.2.1, hr'.2.2 ▸ htime⟩
    · exact hw.inTime q r hr hs
  | clear q' hstage hrows =>
    rcases clearLoginCode_rows w q' with hclear | ⟨r₀, hr₀, hclear⟩
    · exact hw.inTime q r (hclear ▸ hrows ▸ hr) hs
    · rcases row_update (hrows.trans hclear) hr with ⟨-, rfl⟩ | ⟨-, hr⟩
      · exact hw.inTime q' r₀ hr₀ hs
      · exact hw.inTime q r hr hs

/-- What is pushed is pushed by a call that has confirmed its session. -/
theorem QrMove.pushed (hp : Pushed w' q) :
    Pushed w q ∨ (aboutToPush (.running stage) = some q ∧ recipients w x q ≠ []) := by
  obtain ⟨p, hp, hq⟩ := hp
  cases h with
  | keep _ hpushes | create _ _ _ _ _ hpushes | settle _ _ _ _ _ _ _ hpushes
  | confirm _ _ _ _ _ _ _ _ hpushes | find _ _ _ _ _ _ hpushes | clear _ _ _ hpushes =>
    exact .inl ⟨p, hpushes ▸ hp, hq⟩
  | push q' code hstage hrows hpushes =>
    rw [hpushes] at hp
    rcases List.mem_append.1 hp with hp | hp
    · exact .inl ⟨p, hp, hq⟩
    · obtain ⟨conn, hconn, rfl⟩ := List.mem_map.1 hp
      obtain rfl : q' = q := hq
      exact .inr ⟨hstage, List.ne_nil_of_mem hconn⟩

theorem QrMove.dated (hw : RowsDated w) (hk : QrKept w stage.call (.running stage)) :
    RowsDated w' := by
  refine ⟨fun q r hr hs => h.inTime hw hr hs, fun q hp => ?_⟩
  rcases h.pushed hp with hp | ⟨hp, -⟩
  · exact h.confirmed (hw.pushed q hp)
  · exact h.confirmed (hk.confirmed q (hasConfirmed_of_aboutToPush hp))

/-- A poll that has the code has found it with this statement, or had it. -/
theorem QrMove.took (ht : tookCode stage.call st = some q) :
    (stage = .getQrSession q .selectCode ∧ aboutToClear st = some q ∧ w.selectLoginCode q ≠ none) ∨
      (aboutToClear (.running stage) = some q ∧ aboutToClear st = none ∧
        w'.qrSessions = (w.clearLoginCode q).qrSessions) := by
  cases h with
  | keep _ _ htook | create _ _ _ _ _ _ htook | settle _ _ _ _ _ _ _ _ htook
  | confirm _ _ _ _ _ _ _ _ _ htook | push _ _ _ _ _ _ htook => rw [htook] at ht; cases ht
  | find q' code hstage hcode hst hrows hpushes htook =>
    rw [htook] at ht
    cases ht
    exact .inl ⟨hstage, hst, by rw [hcode]; simp⟩
  | clear q' hstage hrows hpushes hst htook =>
    rw [htook] at ht
    cases ht
    exact .inr ⟨hstage, hst, hrows⟩

/-- A call that has confirmed a session has done so with this statement, while it was pending, or
had done it. -/
theorem QrMove.hasConfirmed (hc : Sessions.hasConfirmed stage.call st = some q) :
    (∃ r, w.qrSessions q = some r ∧ r.status = .pending ∧ Confirmed w' q) ∨
      (aboutToPush (.running stage) = some q ∧ aboutToPush st = none) := by
  cases h with
  | keep _ _ _ hconfirmed | create _ _ _ _ _ _ _ hconfirmed
  | settle _ _ _ _ _ _ _ _ _ hconfirmed | find _ _ _ _ _ _ _ _ hconfirmed
  | clear _ _ _ _ _ _ hconfirmed => rw [hconfirmed] at hc; cases hc
  | confirm q' r r' hr hpending htime hr' hrows hpushes htook hconfirmed =>
    rw [hconfirmed] at hc
    cases hc
    exact .inl ⟨r, hr, hpending, r', by rw [hrows, update_self], hr'.1⟩
  | push q' code hstage hrows hpushes hst htook hconfirmed =>
    rw [hconfirmed] at hc
    cases hc
    exact .inr ⟨hstage, hst⟩

theorem QrMove.kept (hk : QrKept w stage.call (.running stage))
    (hcall : ∀ stage', st = .running stage' → stage'.call = stage.call) :
    QrKept w' stage.call st := by
  refine ⟨hcall, fun q hq => ?_, fun q hq => ?_⟩
  · rcases h.took hq with ⟨-, -, hcode⟩ | ⟨hclear, -, -⟩
    · obtain ⟨code, hcode⟩ := ne_none_iff_exists'.1 hcode
      exact h.confirmed (confirmed_of_selectLoginCode hcode)
    · exact h.confirmed (hk.took q (tookCode_of_aboutToClear hclear))
  · rcases h.hasConfirmed hq with ⟨-, -, -, hconfirmed⟩ | ⟨hpush, -⟩
    · exact hconfirmed
    · exact h.confirmed (hk.confirmed q (hasConfirmed_of_aboutToPush hpush))

omit h

theorem qrKept_of_none {c : SessionCall} (hcall : ∀ stage, st = .running stage → stage.call = c)
    (ht : tookCode c st = none) (hc : Sessions.hasConfirmed c st = none) : QrKept w c st := by
  refine ⟨hcall, fun q hq => ?_, fun q hq => ?_⟩
  · rw [ht] at hq
    cases hq
  · rw [hc] at hq
    cases hq

theorem start_none (c : SessionCall) : tookCode c (.running c.start) = none ∧
    Sessions.hasConfirmed c (.running c.start) = none ∧
    aboutToPush (.running c.start) = none := by
  cases c <;> exact ⟨rfl, rfl, rfl⟩

theorem failed_none (c : SessionCall) : tookCode c .failed = none ∧
    Sessions.hasConfirmed c .failed = none := by
  cases c <;> exact ⟨rfl, rfl⟩

theorem dated_tick (t : SessionTick) (h : RowsDated w) : RowsDated (w.tick t) := by
  cases t <;> exact ⟨h.inTime, h.pushed⟩

theorem kept_tick {c : SessionCall} (t : SessionTick) (h : QrKept w c st) :
    QrKept (w.tick t) c st := by
  cases t <;> exact ⟨h.call, h.took, h.confirmed⟩

end

/-- There have been no QR sessions yet. -/
structure NoQrYet (w : SessionWorld) : Prop where
  qrSessions : ∀ q, w.qrSessions q = none
  pushes : w.pushes = []

section

variable {lib : SessionLibraries} {w : SessionWorld} {s : State} {G : Condition}

theorem NoQrYet.dated (h : NoQrYet w) : RowsDated w := by
  refine ⟨fun q r hr => ?_, fun q hq => ?_⟩
  · rw [h.qrSessions q] at hr
    cases hr
  · obtain ⟨p, hp, -⟩ := hq
    rw [h.pushes] at hp
    cases hp

theorem qr_each (hw : NoQrYet w) (h : Reach (sessions lib) G (.idle w) s) :
    Each RowsDated (fun w _ c st => QrKept w c st) s := by
  refine h.each (fun s i c _ => ?_) (fun s i c stage x hE hcall hx _ => ?_) (fun w i c => ?_)
    (fun w t hw => ?_) (Overlap.each_idle hw.dated)
  · refine qrKept_of_none (fun stage hst => ?_) (start_none c).1 (start_none c).2.1
    cases hst
    exact c.call_start
  · have hmove : QrMove s.world x stage _ _ := qrMove lib stage hx
    have hk := hE.2 i c _ hcall
    obtain rfl := hk.call stage rfl
    refine ⟨hmove.dated hE.1 hk, hmove.kept hk (running_call fun _ => call_of_goto),
      fun j c' st' _ _ h => ⟨h.call, fun q hq => ?_, fun q hq => ?_⟩⟩
    · exact hmove.confirmed (h.took q hq)
    · exact hmove.confirmed (h.confirmed q hq)
  · exact qrKept_of_none (by simp) (failed_none c).1 (failed_none c).2
  · exact ⟨dated_tick t hw, fun i c st h => kept_tick t h⟩

/-- No two calls have confirmed the same session. -/
theorem qr_confirmed_apart (hw : NoQrYet w) (h : Reach (sessions lib) G (.idle w) s) :
    EachTwo (fun c st c' st' => ∀ q, hasConfirmed c st = some q → hasConfirmed c' st' ≠ some q)
      s := by
  refine h.apart (fun s' => qr_each hw) (fun c st c' st' h q hq hq' => h q hq' hq)
    (fun c c' st' q hq => ?_)
    (fun s i c stage x hE hR hcall hx _ j c' st' hj hcall' q hq hq' => ?_)
    (fun c c' st' q hq => ?_) Overlap.apart_idle
  · exact absurd ((start_none c).2.1.symm.trans hq) (by simp)
  · have hmove : QrMove s.world x stage _ _ := qrMove lib stage hx
    have hk := hE.2 i c _ hcall
    obtain rfl := hk.call stage rfl
    rcases hmove.hasConfirmed hq with ⟨r, hr, hpending, -⟩ | ⟨hpush, -⟩
    · -- The other has confirmed it, and it is pending.
      obtain ⟨r', hr', hs'⟩ := (hE.2 j c' st' hcall').confirmed q hq'
      rw [hr] at hr'
      rw [← some.inj hr', hpending] at hs'
      cases hs'
    · exact hR i j _ _ c' st' (Ne.symm hj) hcall hcall' q (hasConfirmed_of_aboutToPush hpush) hq'
  · cases hq

end

/-! ## The code is handed out once -/

/-- **The condition**: a poll that finds the code is alone with it, nobody having been pushed it and
no other poll having read it without clearing it yet; and a push goes to one connection at most,
and to none once a poll has read the code. -/
def CodeHandedAlone : Condition := fun s i x =>
  ∀ c stage, s.calls i = some (c, .running stage) →
    (∀ q, stage = .getQrSession q .selectCode → s.world.selectLoginCode q ≠ none →
      ¬ Pushed s.world q ∧
        ∀ j c' st, j ≠ i → s.calls j = some (c', st) → aboutToClear st ≠ some q) ∧
    ∀ q, aboutToPush (.running stage) = some q → recipients s.world x q ≠ [] →
      (recipients s.world x q).length = 1 ∧ s.world.selectLoginCode q ≠ none ∧
        ∀ j c' st, s.calls j = some (c', st) → aboutToClear st ≠ some q

/-- The code of a session is pushed once at most. -/
def PushedOnce (w : SessionWorld) : Prop :=
  ∀ q, (w.pushes.filter (·.qrToken = q)).length ≤ 1

/-- A poll that has the code has it alone: it has not been pushed, and it is cleared once the poll
is through. -/
structure CodeAlone (w : SessionWorld) (c : SessionCall) (st : Status) : Prop where
  unpushed : ∀ q, tookCode c st = some q → ¬ Pushed w q
  cleared : ∀ q, tookCode c st = some q → aboutToClear st = none → w.selectLoginCode q = none
  ahead : ∀ q, aboutToPush st = some q → ¬ Pushed w q

section

variable {lib : SessionLibraries} {w w' : SessionWorld} {x : SessionChoice} {stage : SessionStage}
  {st : Status} {q : Uuid}

theorem not_pushed_iff : ¬ Pushed w q ↔ w.pushes.filter (·.qrToken = q) = [] := by
  simp [Pushed, List.filter_eq_nil_iff]

theorem recipients_filter (x : SessionChoice) (q q' : Uuid) (code : String) :
    (((recipients w x q').map fun conn => (⟨q', conn, code⟩ : CodePush)).filter
      (·.qrToken = q)).length = if q' = q then (recipients w x q').length else 0 := by
  by_cases hq : q' = q
  · rw [if_pos hq, List.filter_eq_self.2 (by simp [hq]), List.length_map]
  · simp [hq, List.filter_eq_nil_iff]

theorem QrMove.pushedOnce (h : QrMove w x stage w' st) (hw : PushedOnce w)
    (hahead : ∀ q, aboutToPush (.running stage) = some q → ¬ Pushed w q)
    (hone : ∀ q, aboutToPush (.running stage) = some q → (recipients w x q).length ≤ 1) :
    PushedOnce w' := by
  intro q
  have hsame : w'.pushes = w.pushes → (w'.pushes.filter (·.qrToken = q)).length ≤ 1 := fun hp => by
    rw [hp]
    exact hw q
  cases h with
  | keep _ hpushes | create _ _ _ _ _ hpushes | settle _ _ _ _ _ _ _ hpushes
  | confirm _ _ _ _ _ _ _ _ hpushes | find _ _ _ _ _ _ hpushes | clear _ _ _ hpushes =>
    exact hsame hpushes
  | push q' code hstage hrows hpushes =>
    rw [hpushes, List.filter_append, List.length_append, recipients_filter]
    by_cases hq : q' = q
    · subst hq
      have hnone := not_pushed_iff.1 (hahead q' hstage)
      have hle := hone q' hstage
      simpa [hnone] using hle
    · have hle := hw q
      simpa [hq] using hle

end

/-- What is promised of QR sessions. -/
structure QrOneShot (s : State) : Prop where
  /-- One confirmation of a session succeeds at most. -/
  confirms : ∀ i j u u' q d d' p p',
    s.calls i = some (.confirmQrSession u q d p, .answered .qrConfirmed) →
    s.calls j = some (.confirmQrSession u' q d' p', .answered .qrConfirmed) → i = j
  /-- It succeeds before the session expires. -/
  inTime : ∀ i u q d p, s.calls i = some (.confirmQrSession u q d p, .answered .qrConfirmed) →
    ∃ r t, s.world.qrSessions q = some r ∧ r.status = .confirmed ∧ r.confirmedAt = some t ∧
      t < r.expiresAt
  /-- One poll is handed the code at most. -/
  polls : ∀ i j q status status' code code',
    s.calls i = some (.getQrSession q, .answered (.qrStatus status (some code))) →
    s.calls j = some (.getQrSession q, .answered (.qrStatus status' (some code'))) → i = j
  /-- It is pushed to one connection at most. -/
  pushes : ∀ q, (s.world.pushes.filter (·.qrToken = q)).length ≤ 1
  /-- A poll is handed a code that is not pushed. -/
  channels : ∀ i q status code,
    s.calls i = some (.getQrSession q, .answered (.qrStatus status (some code))) →
    s.world.pushes.filter (·.qrToken = q) = []

section

variable {lib : SessionLibraries} {w : SessionWorld} {s s' : State}

/-- What is used at every step: the sessions are dated, and no two calls have confirmed one. -/
def QrSettled (s : State) : Prop :=
  Each RowsDated (fun w _ c st => QrKept w c st) s ∧
    EachTwo (fun c st c' st' => ∀ q, hasConfirmed c st = some q → hasConfirmed c' st' ≠ some q) s

theorem codeAlone_of_none {c : SessionCall} {st : Status} (ht : tookCode c st = none)
    (hp : aboutToPush st = none) : CodeAlone w c st := by
  refine ⟨fun q hq => ?_, fun q hq => ?_, fun q hq => ?_⟩
  · rw [ht] at hq
    cases hq
  · rw [ht] at hq
    cases hq
  · rw [hp] at hq
    cases hq

theorem aboutToPush_confirmed {w : SessionWorld} {stage : SessionStage} {w' : SessionWorld}
    {st : Status} {x : SessionChoice} {q : Uuid} (h : QrMove w x stage w' st)
    (hcall : ∀ stage', st = .running stage' → stage'.call = stage.call)
    (hq : aboutToPush st = some q) : ∃ r, w.qrSessions q = some r ∧ r.status = .pending := by
  cases st with
  | running stage' =>
    have hc := hasConfirmed_of_aboutToPush hq
    rw [hcall stage' rfl] at hc
    rcases h.hasConfirmed hc with ⟨r, hr, hs, -⟩ | ⟨-, hst⟩
    · exact ⟨r, hr, hs⟩
    · rw [hst] at hq
      cases hq
  | answered | failed => cases hq

theorem qr_code_each (hw : NoQrYet w) (h : Reach (sessions lib) CodeHandedAlone (.idle w) s) :
    Each PushedOnce (fun w _ c st => CodeAlone w c st) s := by
  have hsettled : ∀ s, Reach (sessions lib) CodeHandedAlone (.idle w) s → QrSettled s :=
    fun s hs => ⟨qr_each hw hs, qr_confirmed_apart hw hs⟩
  refine (Reach.strengthen hsettled h).each (fun s i c _ => ?_)
    (fun s i c stage x hE hcall hx hG => ?_) (fun w i c => ?_) (fun w t hw => ?_)
    (Overlap.each_idle fun q => by rw [hw.pushes]; simp)
  · exact codeAlone_of_none (start_none c).1 (start_none c).2.2
  · obtain ⟨hG, hK, hA⟩ := hG
    have hmove : QrMove s.world x stage _ _ := qrMove lib stage hx
    have hk := hK.2 i c _ hcall
    obtain rfl := hk.call stage rfl
    have hself := hE.2 i _ _ hcall
    have hstage : ∀ stage', (sessionStatement lib s.world x stage).2.status = .running stage' →
        stage'.call = stage.call := running_call fun _ => call_of_goto
    obtain ⟨hfind, hpush⟩ := hG _ stage hcall
    refine ⟨hmove.pushedOnce hE.1 hself.ahead fun q hq => ?_, ⟨fun q hq hp => ?_,
      fun q hq hst => ?_, fun q hq hp => ?_⟩, fun j c' st' hj hcall' hother => ⟨fun q hq hp => ?_,
        fun q hq hst => ?_, fun q hq hp => ?_⟩⟩
    · by_cases hnil : recipients s.world x q = []
      · rw [hnil]
        exact Nat.zero_le 1
      · exact (hpush q hq hnil).1.le
    · -- A poll that has the code now: it has not been pushed, and is not being pushed.
      rcases hmove.took hq with ⟨rfl, -, hcode⟩ | ⟨hclear, -, -⟩
      · rcases hmove.pushed hp with hp | ⟨hp, -⟩
        · exact (hfind q rfl hcode).1 hp
        · cases hp
      · rcases hmove.pushed hp with hp | ⟨hp, -⟩
        · exact hself.unpushed q (tookCode_of_aboutToClear hclear) hp
        · unfold aboutToClear at hclear
          split at hclear
          · rename_i heq
            cases heq
            cases hp
          · cases hclear
    · rcases hmove.took hq with ⟨-, hclear, -⟩ | ⟨-, -, hrows⟩
      · exact absurd (hclear.symm.trans hst) (by simp)
      · exact (selectLoginCode_congr hrows).trans selectLoginCode_clear
    · -- A call that has just confirmed its session: there is nothing to push before that.
      obtain ⟨r, hr, hpending⟩ := aboutToPush_confirmed hmove hstage hq
      rcases hmove.pushed hp with hp | ⟨hp, -⟩
      · obtain ⟨r', hr', hs'⟩ := hK.1.pushed q hp
        rw [hr] at hr'
        rw [← some.inj hr', hpending] at hs'
        cases hs'
      · obtain ⟨r', hr', hs'⟩ := hk.confirmed q (hasConfirmed_of_aboutToPush hp)
        rw [hr] at hr'
        rw [← some.inj hr', hpending] at hs'
        cases hs'
    · rcases hmove.pushed hp with hp | ⟨hp, hnil⟩
      · exact hother.unpushed q hq hp
      · obtain ⟨-, hcode, hno⟩ := hpush q hp hnil
        cases hst : aboutToClear st' with
        | none => exact hcode (hother.cleared q hq hst)
        | some q' =>
          refine hno j c' st' hcall' ?_
          cases st' with
          | running stage' =>
            have htook := tookCode_of_aboutToClear hst
            rw [(hK.2 j c' _ hcall').call stage' rfl, hq] at htook
            rw [hst, ← htook]
          | answered | failed => cases hst
    · exact hmove.noCode ((hK.2 j c' st' hcall').took q hq) (hother.cleared q hq hst)
    · rcases hmove.pushed hp with hp | ⟨hp, -⟩
      · exact hother.ahead q hq hp
      · refine hA i j _ _ c' st' (Ne.symm hj) hcall hcall' q (hasConfirmed_of_aboutToPush hp) ?_
        cases st' with
        | running stage' =>
          have hc := hasConfirmed_of_aboutToPush hq
          rwa [(hK.2 j c' _ hcall').call stage' rfl] at hc
        | answered | failed => cases hq
  · exact codeAlone_of_none (failed_none c).1 rfl
  · cases t <;> exact ⟨hw, fun i c st h => ⟨h.unpushed, h.cleared, h.ahead⟩⟩

/-- No two polls have the code of the same session. -/
theorem qr_took_apart (hw : NoQrYet w) (h : Reach (sessions lib) CodeHandedAlone (.idle w) s) :
    EachTwo (fun c st c' st' => ∀ q, tookCode c st = some q → tookCode c' st' ≠ some q) s := by
  have hcalls : ∀ s, Reach (sessions lib) CodeHandedAlone (.idle w) s →
      Each (fun _ => True) (fun w _ c st => QrKept w c st ∧ CodeAlone w c st) s := fun s hs =>
    ⟨trivial, fun i c st hi => ⟨(qr_each hw hs).2 i c st hi, (qr_code_each hw hs).2 i c st hi⟩⟩
  refine h.apart hcalls (fun c st c' st' h q hq hq' => h q hq' hq) (fun c c' st' q hq => ?_)
    (fun s i c stage x hE hR hcall hx hG j c' st' hj hcall' q hq hq' => ?_)
    (fun c c' st' q hq => ?_) Overlap.apart_idle
  · exact absurd ((start_none c).1.symm.trans hq) (by simp)
  · have hmove : QrMove s.world x stage _ _ := qrMove lib stage hx
    obtain rfl := (hE.2 i c _ hcall).1.call stage rfl
    rcases hmove.took hq with ⟨rfl, -, hcode⟩ | ⟨hclear, -, -⟩
    · -- The other is through, and has cleared the code; or it has not, and it stands in the way.
      cases hst : aboutToClear st' with
      | none => exact hcode ((hE.2 j c' st' hcall').2.cleared q hq' hst)
      | some q' =>
        refine ((hG _ _ hcall).1 q rfl hcode).2 j c' st' hj hcall' ?_
        cases st' with
        | running stage' =>
          have htook := tookCode_of_aboutToClear hst
          rw [(hE.2 j c' _ hcall').1.call stage' rfl, hq'] at htook
          rw [hst, ← htook]
        | answered | failed => cases hst
    · exact hR i j _ _ c' st' (Ne.symm hj) hcall hcall' q (tookCode_of_aboutToClear hclear) hq'
  · cases hq

/-- **One shot.**  Where the code is handed out alone, a QR session is confirmed once and in time,
its code goes to one poll or one connection, and once it is settled its status stays. -/
theorem qr_login_one_shot (hw : NoQrYet w) (h : Reach (sessions lib) CodeHandedAlone (.idle w) s) :
    QrOneShot s ∧ ∀ s', Reach (sessions lib) CodeHandedAlone s s' →
      ∀ q r, s.world.qrSessions q = some r → r.status ≠ .pending →
        ∃ r', s'.world.qrSessions q = some r' ∧ r'.status = r.status := by
  obtain ⟨hdated, hkept⟩ := qr_each hw h
  obtain ⟨honce, halone⟩ := qr_code_each hw h
  refine ⟨⟨fun i j u u' q d d' p p' hi hj => ?_, fun i u q d p hi => ?_,
    fun i j q status status' code code' hi hj => ?_, honce, fun i q status code hi => ?_⟩,
    fun s' hs' q r hr hs => ?_⟩
  · by_contra hij
    exact qr_confirmed_apart hw h i j _ _ _ _ hij hi hj q rfl rfl
  · obtain ⟨r, hr, hs⟩ := (hkept i _ _ hi).confirmed q rfl
    obtain ⟨t, ht, hlt⟩ := hdated.inTime q r hr hs
    exact ⟨r, t, hr, hs, ht, hlt⟩
  · by_contra hij
    exact qr_took_apart hw h i j _ _ _ _ hij hi hj q rfl rfl
  · exact not_pushed_iff.1 ((halone i _ _ hi).unpushed q rfl)
  · refine Reach.invariant
      (I := fun s₁ => ∃ r', s₁.world.qrSessions q = some r' ∧ r'.status = r.status)
      (fun s₁ s₂ hI hstep => ?_) hs' ⟨r, hr, rfl⟩
    obtain ⟨r₁, hr₁, hs₁⟩ := hI
    have hfinal : ∀ x stage w' st, QrMove s₁.world x stage w' st →
        ∃ r', w'.qrSessions q = some r' ∧ r'.status = r.status := by
      intro x stage w' st hmove
      obtain ⟨r₂, hr₂, hs₂⟩ := hmove.final hr₁ (hs₁ ▸ hs)
      exact ⟨r₂, hr₂, hs₂.trans hs₁⟩
    cases hstep with
    | start | drop => exact ⟨r₁, hr₁, hs₁⟩
    | run _ hx | lose _ hx => exact hfinal _ _ _ _ (qrMove lib _ hx)
    | tick t => cases t <;> exact ⟨r₁, hr₁, hs₁⟩

end

/-! ## Two polls that read the code -/

/-- A session is created and confirmed, two polls read the code, and both go on. -/
def overlappingPolls : List Act :=
  .start 0 .createQrSession :: runs 0 1 7 ++
    .start 1 (.confirmQrSession 1 7 none none) :: runs 1 8 100 ++
    .start 2 (.getQrSession 7) :: runs 2 3 200 ++ .start 3 (.getQrSession 7) :: runs 3 3 300 ++
    runs 2 1 400 ++ runs 3 1 500

/-- A session is created and confirmed, and polled. -/
def singlePoll : List Act :=
  .start 0 .createQrSession :: runs 0 1 7 ++
    .start 1 (.confirmQrSession 1 7 none none) :: runs 1 8 100 ++
    .start 2 (.getQrSession 7) :: runs 2 4 200

/-- The login code that a poll was handed. -/
def handedTo (s : State) (i : ℕ) : Option (SessionCall × QrStatus × String) :=
  match s.calls i with
  | some (c, .answered (.qrStatus status (some code))) => some (c, status, code)
  | _ => none

theorem handedTo_eq_some {s : State} {i : ℕ} {c : SessionCall} {status : QrStatus} {code : String}
    (h : handedTo s i = some (c, status, code)) :
    s.calls i = some (c, .answered (.qrStatus status (some code))) := by
  unfold handedTo at h
  split at h
  · rename_i hi
    cases h
    exact hi
  · cases h

/-- Without the condition, the code of a session can be handed to two polls. -/
theorem login_code_handed_twice :
    ¬ ∀ (lib : SessionLibraries) (w : SessionWorld) (s : State), NoQrYet w →
      Reach (sessions lib) (fun _ _ _ => True) (.idle w) s → QrOneShot s := by
  intro h
  have hrun : (Overlap.perform (sessions sampleLibraries) (fun _ _ _ => true) overlappingPolls
      (.idle sampleWorld)).map (fun s => (handedTo s 2, handedTo s 3)) =
        some (some (.getQrSession 7, .confirmed, sampleUuidText 103),
          some (.getQrSession 7, .confirmed, sampleUuidText 103)) := by
    decide +kernel
  obtain ⟨s, hs, hboth⟩ := map_eq_some_iff.1 hrun
  obtain ⟨h₂, h₃⟩ := Prod.mk.inj hboth
  have hreach := Reach.of_perform (G := fun _ _ _ => True) (fun _ _ _ _ => trivial) hs
  have hone := (h _ _ s ⟨fun _ => rfl, rfl⟩ hreach).polls 2 3 7 .confirmed .confirmed _ _
    (handedTo_eq_some h₂) (handedTo_eq_some h₃)
  exact absurd hone (by decide)

/-- The condition, of calls with numbers below a bound and pushes that nobody takes. -/
def handedAlone (bound : ℕ) (s : State) (i : ℕ) (x : SessionChoice) : Bool :=
  match s.calls i with
  | some (_, .running (.getQrSession q .selectCode)) =>
    s.world.selectLoginCode q = none || (s.world.pushes.all (·.qrToken ≠ q) &&
      (List.range bound).all fun j =>
        j = i || (s.calls j).all fun call => aboutToClear call.2 ≠ some q)
  | some (_, .running (.confirmQrSession _ q _ _ (.push _))) => recipients s.world x q = []
  | _ => true

theorem codeHandedAlone_of_below {bound : ℕ} {s : State} {i : ℕ} {x : SessionChoice}
    (hs : s.Below bound) (h : handedAlone bound s i x = true) : CodeHandedAlone s i x := by
  intro c stage hi
  refine ⟨fun q hstage hcode => ?_, fun q hpush hnil => ?_⟩
  · subst hstage
    simp only [handedAlone, hi, hcode, decide_false, Bool.false_or, Bool.and_eq_true,
      List.all_eq_true, List.mem_range] at h
    obtain ⟨hpushes, hcalls⟩ := h
    refine ⟨?_, fun j c' st hj hcall hclear => ?_⟩
    · rintro ⟨p, hp, hq⟩
      exact absurd hq (of_decide_eq_true (hpushes p hp))
    have hlt : j < bound := by
      by_contra hge
      rw [hs j (Nat.le_of_not_lt hge)] at hcall
      cases hcall
    have hcheck := hcalls j hlt
    simp [hj, hcall, hclear] at hcheck
  · unfold aboutToPush at hpush
    split at hpush
    · rename_i hst
      cases hst
      cases hpush
      simp only [handedAlone, hi] at h
      exact absurd (of_decide_eq_true h) hnil
    · cases hpush

/-- A poll of a session that is confirmed is handed the code, and nobody else is. -/
theorem qr_login_one_shot_poll :
    ∃ s, Overlap.perform (sessions sampleLibraries) (handedAlone 3) singlePoll
      (.idle sampleWorld) = some s ∧
        handedTo s 2 = some (.getQrSession 7, .confirmed, sampleUuidText 103) ∧ QrOneShot s := by
  have hrun : (Overlap.perform (sessions sampleLibraries) (handedAlone 3) singlePoll
      (.idle sampleWorld)).map (fun s => handedTo s 2) =
        some (some (.getQrSession 7, .confirmed, sampleUuidText 103)) := by
    decide +kernel
  obtain ⟨s, hs, hhanded⟩ := map_eq_some_iff.1 hrun
  have hreach : Reach (sessions sampleLibraries) CodeHandedAlone (.idle sampleWorld) s :=
    Reach.of_perform_below (fun s i x hb h => codeHandedAlone_of_below hb h)
      (by decide +kernel) (fun _ _ => rfl) hs
  exact ⟨s, hs, hhanded, (qr_login_one_shot ⟨fun _ => rfl, rfl⟩ hreach).1⟩

end Sessions

end RedcodeIm
