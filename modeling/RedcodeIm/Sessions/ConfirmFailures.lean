import RedcodeIm.Sessions.QrLogin

/-!
# Confirmations that fail

`confirm_session` registers a device and issues a refresh token before the statement that confirms
the session, which may find that the session is no longer pending.

* `madeToken`, `madeDevice` — what a confirmation has made by a stage.
* `leaves_nothing` — where none of it is left.
-/

namespace RedcodeIm.Sessions

open Overlap (Reach)

/-- The token that a confirmation has issued before a stage. -/
def madeToken : SessionStage → Option String
  | .confirmQrSession _ _ _ _ (.granting _ (.indexToken _ token))
  | .confirmQrSession _ _ _ _ (.granting _ (.expireIndex _ token)) => some token
  | .confirmQrSession _ _ _ _ (.confirm code) | .confirmQrSession _ _ _ _ (.push code) => some code
  | _ => none

/-- The device that a confirmation has registered before a stage: that of its token, once there is
one. -/
def madeDevice (w : SessionWorld) : SessionStage → Option String
  | .confirmQrSession _ _ _ _ (.granting g stage) =>
    if stage = .registerDevice then none else some g.deviceId
  | .confirmQrSession _ _ _ _ (.confirm code) | .confirmQrSession _ _ _ _ (.push code) =>
    (w.tokensIssued.lookup code).bind (·.deviceId)
  | _ => none

/-- A refresh token that is valid, or a device that is registered. -/
def Remains (lib : SessionLibraries) (w : SessionWorld) (token device : Option String) : Prop :=
  (∃ t ∈ token, Lapsing.get w.refreshTokens w.now t ≠ none) ∨
    ∃ d ∈ device, ∃ id, lib.parseUuid d = .ok id ∧ w.devices id ≠ none

/-- Whichever confirmation is answered with an error has left nothing. -/
def LeavesNothing (lib : SessionLibraries) (G : Condition) : Prop :=
  ∀ w s, Reach (sessions lib) G (.idle w) s → ∀ i c stage x w' err,
    s.calls i = some (c, .running stage) → (sessions lib).possible s.world c stage x = true →
    G s i x → (sessions lib).stmt s.world c stage x = (w', .done (.error err)) →
    ¬ Remains lib w' (madeToken stage) (madeDevice s.world stage)

/-- **The condition**: a session is still pending, and in time, when it is confirmed. -/
def ConfirmsPending : Condition := fun s i _ => ∀ c userId q deviceName platform code,
    s.calls i =
      some (c, .running (.confirmQrSession userId q deviceName platform (.confirm code))) →
    ∃ r, s.world.qrSessions q = some r ∧ r.status = .pending ∧ s.world.now < r.expiresAt

/-- **A confirmation that fails leaves nothing** where each finds its session pending. -/
theorem leaves_nothing (lib : SessionLibraries) : LeavesNothing lib ConfirmsPending := by
  intro w s _ i c stage x w' err hcall _ hG hstmt
  change sessionStatement lib s.world x stage = _ at hstmt
  cases stage with
  | confirmQrSession userId q deviceName platform stage =>
    cases stage with
    | granting g grantStage =>
      obtain rfl : grantStage = .registerDevice := by
        cases grantStage with
        | registerDevice => rfl
        | setToken | indexToken | expireIndex => cases hstmt
      simp [Remains, madeToken, madeDevice]
    | confirm code =>
      obtain ⟨r, hr, hpending, htime⟩ := hG c userId q deviceName platform code hcall
      simp [sessionStatement, SessionNext.embed, confirmQrSession, SessionWorld.confirmQr,
        SessionWorld.updateQr, hr, hpending, htime, SessionWorld.goto, Overlap.Next.map] at hstmt
    | push code => cases hstmt
    | start | judge | markExpired => simp [Remains, madeToken, madeDevice]
  | _ => simp [Remains, madeToken, madeDevice]

/-- A session is created, and cancelled when its confirmation has issued the token. -/
def cancelledLate : List Act :=
  .start 0 .createQrSession :: runs 0 1 7 ++
    .start 1 (.confirmQrSession 1 7 none none) :: runs 1 6 100 ++
    .start 2 (.cancelQrSession 7) :: runs 2 1 200

/-- The stage that the confirmation has come to. -/
def cancelledStage : SessionStage := .confirmQrSession 1 7 none none (.confirm (sampleUuidText 103))

theorem token_left : ¬ ∀ lib, LeavesNothing lib fun _ _ _ => True := by
  intro h
  have hrun : (Overlap.perform (sessions sampleLibraries) (fun _ _ _ => true) cancelledLate
      (.idle sampleWorld)).map (fun s =>
        let out := sessionStatement sampleLibraries s.world (sampleChoice 300) cancelledStage
        (s.calls 1, (sampleChoice 300).possible sampleLibraries s.world, out.2,
          (Lapsing.get out.1.refreshTokens out.1.now (sampleUuidText 103)).isSome)) =
      some (some (.confirmQrSession 1 7 none none, .running cancelledStage), true,
        .done (.error qrProcessed), true) := by
    decide +kernel
  obtain ⟨s, hs, hends⟩ := Option.map_eq_some_iff.1 hrun
  obtain ⟨hcall, hends⟩ := Prod.mk.inj hends
  obtain ⟨hx, hends⟩ := Prod.mk.inj hends
  obtain ⟨hout, htoken⟩ := Prod.mk.inj hends
  refine h sampleLibraries sampleWorld s (Reach.of_perform (fun _ _ _ _ => trivial) hs) 1 _ _ _ _ _
    hcall hx trivial (Prod.ext rfl hout) (.inl ⟨_, rfl, ?_⟩)
  exact Option.isSome_iff_ne_none.1 htoken

end RedcodeIm.Sessions
