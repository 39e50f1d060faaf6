import RedcodeIm.Coordinator.Discipline

/-!
# Trust on first use

`E2eeIdentityTrustManager` remembers, for each user an account has met, the root identity that is
trusted, and one that has been seen since and is not.

* `IdentityTrustManager.observe`, `requireTrusted`, `retrust` — its operations.
* `TrustCall.perform`, `performAll` — calls of them, one after another.
* `perform_apply` — what one call makes of the record of a user.
* `pending_of_performAll` — an identity that waits is the last one that differed.
* `trust_on_first_use` — how the trusted identity changes, over any history.
* `observeIdentity_refines`, `requireTrusted_refines` — the coordinator's model of the manager,
  which leaves the times out, does the same.
-/

namespace RedcodeIm

open Function

/-! ## The manager -/

/-- `E2eeIdentityTrustRecord`. -/
structure TrustRecord where
  trusted : RootIdentity
  trustedAt : Timestamp
  pending : Option RootIdentity
  changedAt : Option Timestamp
  deriving DecidableEq

open TrustRecord

/-- The records of an account, by the id of the user. -/
abbrev TrustRecords := Uuid → Option TrustRecord

/-- `E2eeIdentityTrustDecision`. -/
inductive TrustDecision where
  | firstUseTrusted
  | trusted
  | identityChanged
  deriving DecidableEq

namespace IdentityTrustManager

/-- `E2eeIdentityTrustManager.observe`. -/
def observe (records : TrustRecords) (identity : RootIdentity) (now : Timestamp) :
    Except String (TrustDecision × TrustRecords) :=
  if validIdentity identity then
    match records identity.userId with
    | none => .ok (.firstUseTrusted, update records identity.userId
        (some { trusted := identity, trustedAt := now, pending := none, changedAt := none }))
    | some existing =>
      if existing.trusted = identity then .ok (.trusted, records)
      else .ok (.identityChanged, update records identity.userId
        (some { trusted := existing.trusted
                trustedAt := existing.trustedAt
                pending := some identity
                changedAt := some (existing.changedAt.getD now) }))
  else .error "E2EE 根身份无效"

/-- `E2eeIdentityTrustManager.requireTrusted`. -/
def requireTrusted (records : TrustRecords) (targetUserId : Uuid) : Except String TrustRecord :=
  match records targetUserId with
  | none => .error "联系人 E2EE 身份尚未验证"
  | some existing =>
    if existing.pending.isSome then
      .error "联系人 E2EE 身份已变化，核验安全码后才能发送"
    else .ok existing

/-- `E2eeIdentityTrustManager.retrust`. -/
def retrust (records : TrustRecords) (targetUserId : Uuid) (now : Timestamp) :
    Except String (TrustRecord × TrustRecords) :=
  match (records targetUserId).bind pending with
  | none => .error "没有待确认的 E2EE 身份变化"
  | some pending =>
    let accepted : TrustRecord :=
      { trusted := pending, trustedAt := now, pending := none, changedAt := none }
    .ok (accepted, update records targetUserId (some accepted))

end IdentityTrustManager

open IdentityTrustManager

/-! ## Histories -/

/-- A call of the manager; `now` is when it is made. -/
inductive TrustCall where
  | observe (identity : RootIdentity) (now : Timestamp)
  | requireTrusted (targetUserId : Uuid)
  | retrust (targetUserId : Uuid) (now : Timestamp)
  deriving DecidableEq

open TrustCall

/-- The user a call is about. -/
def TrustCall.userId : TrustCall → Uuid
  | .observe identity _ => identity.userId
  | .requireTrusted targetUserId => targetUserId
  | .retrust targetUserId _ => targetUserId

/-- What is stored after an operation; one that throws has stored nothing. -/
def storedAfter {α : Type} (records : TrustRecords) :
    Except String (α × TrustRecords) → TrustRecords
  | .ok (_, records') => records'
  | .error _ => records

/-- The records after a call. -/
def TrustCall.perform (records : TrustRecords) : TrustCall → TrustRecords
  | .observe identity now => storedAfter records (IdentityTrustManager.observe records identity now)
  | .requireTrusted _ => records
  | .retrust targetUserId now =>
    storedAfter records (IdentityTrustManager.retrust records targetUserId now)

/-- The records after calls, one after another. -/
def performAll (records : TrustRecords) (calls : List TrustCall) : TrustRecords :=
  calls.foldl perform records

/-- The trusted identity of a user. -/
def trustedOf (records : TrustRecords) (userId : Uuid) : Option RootIdentity :=
  (records userId).map trusted

/-- The identity that waits for a decision about a user. -/
def pendingOf (records : TrustRecords) (userId : Uuid) : Option RootIdentity :=
  (records userId).bind pending

/-- An identity is observed that is not the trusted one. -/
structure Differs (records : TrustRecords) (identity : RootIdentity) : Prop where
  valid : validIdentity identity = true
  known : (trustedOf records identity.userId).isSome = true
  other : trustedOf records identity.userId ≠ some identity

variable (records : TrustRecords)

theorem performAll_append (calls calls' : List TrustCall) :
    performAll records (calls ++ calls') = performAll (performAll records calls) calls' :=
  List.foldl_append

theorem performAll_snoc (calls : List TrustCall) (call : TrustCall) :
    performAll records (calls ++ [call]) = call.perform (performAll records calls) :=
  performAll_append records calls [call]

/-! ## One call -/

section

variable {records : TrustRecords} {userId : Uuid}

/-- **A call changes no record but that of its user.** -/
theorem perform_of_ne {call : TrustCall} (h : userId ≠ call.userId) :
    call.perform records userId = records userId := by
  cases call with
  | requireTrusted targetUserId => rfl
  | observe identity now =>
    have hne : userId ≠ identity.userId := h
    simp only [perform, IdentityTrustManager.observe]
    split
    · split
      · exact update_of_ne hne _ _
      · split
        · rfl
        · exact update_of_ne hne _ _
    · rfl
  | retrust targetUserId now =>
    have hne : userId ≠ targetUserId := h
    simp only [perform, IdentityTrustManager.retrust]
    split
    · rfl
    · exact update_of_ne hne _ _

variable {identity : RootIdentity}

/-- The record of a user after an identity has been observed that differs: it waits, and the
trusted one stays. -/
theorem perform_observe_of_differs (now : Timestamp) (h : Differs records identity) :
    trustedOf ((observe identity now).perform records) identity.userId =
        trustedOf records identity.userId ∧
      pendingOf ((observe identity now).perform records) identity.userId =
        some identity := by
  obtain ⟨hvalid, hknown, hother⟩ := h
  cases hrecord : records identity.userId with
  | none => simp [trustedOf, hrecord] at hknown
  | some existing =>
    have hne : existing.trusted ≠ identity := by simpa [trustedOf, hrecord] using hother
    simp [perform, IdentityTrustManager.observe, storedAfter, hvalid, hrecord, hne,
      trustedOf, pendingOf]

variable {now : Timestamp}

/-- An observation of what is trusted, or of no valid identity, changes nothing. -/
theorem perform_observe_of_not_differs (h : ¬ Differs records identity)
    (hknown : (records identity.userId).isSome = true) :
    (observe identity now).perform records = records := by
  obtain ⟨existing, hrecord⟩ := Option.isSome_iff_exists.mp hknown
  by_cases hvalid : validIdentity identity = true
  · have hsame : existing.trusted = identity := by
      by_contra hne
      exact h ⟨hvalid, by simp [trustedOf, hrecord], by simpa [trustedOf, hrecord] using hne⟩
    simp [perform, IdentityTrustManager.observe, storedAfter, hvalid, hrecord, hsame]
  · simp [perform, IdentityTrustManager.observe, storedAfter, hvalid]

theorem pendingOf_perform_observe_of_none (now : Timestamp) (h : records identity.userId = none) :
    pendingOf ((observe identity now).perform records) identity.userId = none := by
  by_cases hvalid : validIdentity identity = true
  · simp [perform, IdentityTrustManager.observe, storedAfter, hvalid, h, pendingOf]
  · simp [perform, IdentityTrustManager.observe, storedAfter, hvalid, h, pendingOf]

theorem perform_retrust_of_pending (h : pendingOf records userId = some identity) :
    trustedOf ((retrust userId now).perform records) userId = some identity ∧
      pendingOf ((retrust userId now).perform records) userId = none := by
  have hbind : (records userId).bind pending = some identity := h
  simp [perform, IdentityTrustManager.retrust, storedAfter, hbind, trustedOf, pendingOf]

theorem perform_retrust_of_none (h : pendingOf records userId = none) :
    (retrust userId now).perform records = records := by
  have hbind : (records userId).bind pending = none := h
  simp [perform, IdentityTrustManager.retrust, storedAfter, hbind]

theorem isSome_of_pendingOf (h : pendingOf records userId = some identity) :
    (records userId).isSome = true := by
  obtain ⟨record, hrecord, _⟩ := Option.bind_eq_some_iff.mp h
  rw [hrecord]
  rfl

theorem requireTrusted_of_pending (h : pendingOf records userId = some identity) :
    IdentityTrustManager.requireTrusted records userId = .error "联系人 E2EE 身份已变化，核验安全码后才能发送" := by
  obtain ⟨record, hrecord, hpending⟩ := Option.bind_eq_some_iff.mp h
  simp [IdentityTrustManager.requireTrusted, hrecord, hpending]

end

/-! ## Histories of calls -/

/-- The identity is the last one that differed from the trusted one of its user. -/
def LastDiffering (records : TrustRecords) (calls : List TrustCall) (identity : RootIdentity) :
    Prop :=
  ∃ before now after, calls = before ++ .observe identity now :: after ∧
    Differs (performAll records before) identity ∧
    ∀ earlier identity' now' later, after = earlier ++ .observe identity' now' :: later →
      identity'.userId = identity.userId →
      ¬ Differs (performAll records (before ++ .observe identity now :: earlier)) identity'

variable {calls : List TrustCall} {identity : RootIdentity}

variable {records : TrustRecords}

theorem LastDiffering.snoc_of_ne {call : TrustCall} (h : LastDiffering records calls identity)
    (hcall : ∀ identity' now', call = .observe identity' now' →
      identity'.userId = identity.userId → ¬ Differs (performAll records calls) identity') :
    LastDiffering records (calls ++ [call]) identity := by
  obtain ⟨before, now, after, rfl, hdiffers, hlast⟩ := h
  refine ⟨before, now, after ++ [call], by simp, hdiffers, ?_⟩
  intro earlier identity' now' later hsplit hsame
  rcases List.eq_nil_or_concat later with rfl | ⟨later, last, rfl⟩
  · obtain ⟨rfl, hlastCall⟩ := List.append_inj' hsplit rfl
    exact hcall identity' now' (List.singleton_inj.mp hlastCall) hsame
  · have hsplit' : after ++ [call] = (earlier ++ .observe identity' now' :: later) ++ [last] := by
      simpa using hsplit
    exact hlast earlier identity' now' later (List.append_inj' hsplit' rfl).1 hsame

theorem LastDiffering.snoc {now : Timestamp} (h : Differs (performAll records calls) identity) :
    LastDiffering records (calls ++ [.observe identity now]) identity := by
  refine ⟨calls, now, [], rfl, h, ?_⟩
  intro earlier identity' now' later hsplit
  simp at hsplit

/-- No records. -/
def noRecords : TrustRecords := fun _ => none

variable {userId : Uuid}

/-- **An identity that waits is the last one that differed.** -/
theorem pending_of_performAll (h : pendingOf (performAll noRecords calls) userId = some identity) :
    identity.userId = userId ∧ LastDiffering noRecords calls identity := by
  induction calls using List.reverseRecOn generalizing identity with
  | nil => cases h
  | append_singleton calls call ih =>
    rw [performAll_snoc] at h
    by_cases hne : userId ≠ call.userId
    · have hold : pendingOf (performAll noRecords calls) userId = some identity := by
        rw [pendingOf, perform_of_ne hne] at h
        exact h
      obtain ⟨hid, hlast⟩ := ih hold
      refine ⟨hid, hlast.snoc_of_ne ?_⟩
      rintro identity' now' rfl hsame
      exact absurd (hid.symm.trans hsame.symm) hne
    obtain rfl := not_not.mp hne
    cases call with
    | requireTrusted targetUserId =>
      obtain ⟨hid, hlast⟩ := ih h
      exact ⟨hid, hlast.snoc_of_ne (by rintro _ _ ⟨⟩)⟩
    | observe observed now =>
      by_cases hdiffers : Differs (performAll noRecords calls) observed
      · have hpending := (perform_observe_of_differs now hdiffers).2
        cases h.symm.trans hpending
        exact ⟨rfl, LastDiffering.snoc hdiffers⟩
      · cases hrecord : performAll noRecords calls observed.userId with
        | none =>
          have := pendingOf_perform_observe_of_none now hrecord
          cases h.symm.trans this
        | some existing =>
          rw [perform_observe_of_not_differs hdiffers (by rw [hrecord]; rfl)] at h
          obtain ⟨hid, hlast⟩ := ih h
          refine ⟨hid, hlast.snoc_of_ne ?_⟩
          rintro _ _ ⟨⟩ _
          exact hdiffers
    | retrust targetUserId now =>
      cases hpending : pendingOf (performAll noRecords calls) targetUserId with
      | none =>
        rw [perform_retrust_of_none hpending] at h
        cases h.symm.trans hpending
      | some waiting => cases h.symm.trans (perform_retrust_of_pending hpending).2

/-- What waits goes on waiting as long as nobody decides. -/
theorem pending_stays (h : (pendingOf records userId).isSome = true)
    (hcalls : ∀ now, retrust userId now ∉ calls) :
    (pendingOf (performAll records calls) userId).isSome = true := by
  induction calls using List.reverseRecOn with
  | nil => exact h
  | append_singleton calls call ih =>
    have hold := ih fun now hmem => hcalls now (List.mem_append_left _ hmem)
    obtain ⟨waiting, hwaiting⟩ := Option.isSome_iff_exists.mp hold
    rw [performAll_snoc]
    by_cases hne : userId ≠ call.userId
    · rw [pendingOf, perform_of_ne hne]
      exact hold
    obtain rfl := not_not.mp hne
    cases call with
    | requireTrusted targetUserId => exact hold
    | observe observed now =>
      by_cases hdiffers : Differs (performAll records calls) observed
      · rw [userId, (perform_observe_of_differs _ hdiffers).2]
        rfl
      · rw [perform_observe_of_not_differs hdiffers (isSome_of_pendingOf hwaiting)]
        exact hold
    | retrust targetUserId now =>
      exact absurd (List.mem_append_right _ (List.mem_singleton_self _)) (hcalls now)

/-- Only a decision changes a trusted identity. -/
theorem trusted_stays {call : TrustCall} (h : (trustedOf records userId).isSome = true)
    (hcall : ∀ now, call ≠ .retrust userId now) :
    trustedOf (call.perform records) userId = trustedOf records userId := by
  by_cases hne : userId ≠ call.userId
  · rw [trustedOf, perform_of_ne hne, trustedOf]
  obtain rfl := not_not.mp hne
  cases call with
  | requireTrusted targetUserId => rfl
  | observe observed now =>
    by_cases hdiffers : Differs records observed
    · exact (perform_observe_of_differs _ hdiffers).1
    · have hknown : (records observed.userId).isSome = true := by
        have hsome : (trustedOf records observed.userId).isSome = true := h
        simpa [trustedOf] using hsome
      rw [perform_observe_of_not_differs hdiffers hknown]
  | retrust targetUserId now => exact absurd rfl (hcall now)

/-- **Trust on first use.**  Over any calls from an empty registry, the trusted identity of a user
changes only where it is trusted again, and is then the last identity that differed from the
trusted one.  Once an identity has differed, sending is refused until then, whatever is observed in
between.  A call changes no record of another user. -/
theorem trust_on_first_use (calls : List TrustCall) :
    (∀ call userId trusted, trustedOf (performAll noRecords calls) userId = some trusted →
      trustedOf (performAll noRecords (calls ++ [call])) userId ≠ some trusted →
        (∃ now, call = .retrust userId now) ∧
          ∃ identity, trustedOf (performAll noRecords (calls ++ [call])) userId = some identity ∧
            identity.userId = userId ∧ LastDiffering noRecords calls identity) ∧
    (∀ identity now later, Differs (performAll noRecords calls) identity →
      (∀ now', retrust identity.userId now' ∉ later) →
        ∃ message, IdentityTrustManager.requireTrusted
          (performAll noRecords (calls ++ .observe identity now :: later)) identity.userId =
            .error message) ∧
    ∀ call userId, userId ≠ call.userId →
      performAll noRecords (calls ++ [call]) userId = performAll noRecords calls userId := by
  refine ⟨fun call userId trusted htrusted hchanged => ?_,
    fun identity now later hdiffers hlater => ?_,
    fun call userId hne => ?_⟩
  · rw [performAll_snoc] at hchanged ⊢
    have hretrust : ∃ now, call = .retrust userId now := by
      by_contra hnone
      refine hchanged ?_
      rw [trusted_stays (by rw [htrusted]; rfl) fun now hcall => hnone ⟨now, hcall⟩, htrusted]
    obtain ⟨now, rfl⟩ := hretrust
    refine ⟨⟨now, rfl⟩, ?_⟩
    cases hpending : pendingOf (performAll noRecords calls) userId with
    | none =>
      rw [perform_retrust_of_none hpending] at hchanged
      exact absurd htrusted hchanged
    | some waiting =>
      obtain ⟨hid, hlast⟩ := pending_of_performAll hpending
      exact ⟨waiting, (perform_retrust_of_pending hpending).1, hid, hlast⟩
  · rw [List.append_cons, performAll_append, performAll_snoc]
    have hpending := (perform_observe_of_differs now hdiffers).2
    obtain ⟨waiting, hwaiting⟩ := Option.isSome_iff_exists.mp
      (pending_stays (by rw [hpending]; rfl) hlater)
    exact ⟨_, requireTrusted_of_pending hwaiting⟩
  · rw [performAll_snoc, perform_of_ne hne]

/-! ## The manager in the coordinator -/

/-- A record without its times. -/
def TrustRecord.untimed (record : TrustRecord) : IdentityTrustRecord where
  trusted := record.trusted
  pending := record.pending

/-- Records without their times. -/
def TrustRecords.untimed (records : TrustRecords) : Uuid → Option IdentityTrustRecord :=
  fun userId => (records userId).map TrustRecord.untimed

theorem untimed_update (userId : Uuid) (record : TrustRecord) :
    TrustRecords.untimed (update records userId (some record)) =
      update records.untimed userId (some record.untimed) := by
  funext id
  by_cases hid : id = userId
  · subst hid
    simp [TrustRecords.untimed]
  · simp [TrustRecords.untimed, hid]

section

variable {σ ρ : Type} {host : Host σ ρ} {w : World σ ρ} {records : TrustRecords}

theorem observeIdentity_refines {identity : RootIdentity} (now : Timestamp)
    (h : w.device.records = records.untimed) :
    Keeps host (fun _ w' => w'.device.records =
      TrustRecords.untimed ((observe identity now).perform records))
      (observeIdentity identity) w := by
  have hwrite (record : TrustRecord) (hperform : (observe identity now).perform records =
      update records identity.userId (some record)) :
      Keeps host (fun _ w' => w'.device.records =
        TrustRecords.untimed ((observe identity now).perform records))
        (store (.writeRecords
          (update w.device.records identity.userId (some record.untimed)))) w := by
    refine always_store.2 ⟨.inert trivial, ?_⟩
    rw [hperform, untimed_update, ← h]
    rfl
  rw [observeIdentity]
  split
  case isFalse hvalid =>
    have hperform : (observe identity now).perform records = records := by
      simp [perform, IdentityTrustManager.observe, storedAfter, hvalid]
    rw [hperform]
    exact h
  case isTrue hvalid =>
    refine keeps_inert_bind trivial rfl ?_
    have hrecord : w.device.records identity.userId =
        (records identity.userId).map TrustRecord.untimed := by rw [h]; rfl
    cases hexisting : records identity.userId with
    | none =>
      rw [hexisting] at hrecord
      simp only [DeviceStore.perform, hrecord, Option.map_none]
      refine hwrite { trusted := identity, trustedAt := now, pending := none, changedAt := none } ?_
      simp [perform, IdentityTrustManager.observe, storedAfter, hvalid, hexisting]
    | some existing =>
      rw [hexisting] at hrecord
      simp only [DeviceStore.perform, hrecord, Option.map_some]
      change Keeps host _ (if existing.trusted = identity then _ else _) w
      by_cases hsame : existing.trusted = identity
      · have hperform : (observe identity now).perform records = records := by
          simp [perform, IdentityTrustManager.observe, storedAfter, hvalid, hexisting,
            hsame]
        rw [if_pos hsame, hperform]
        exact h
      · rw [if_neg hsame]
        refine hwrite { trusted := existing.trusted
                        trustedAt := existing.trustedAt
                        pending := some identity
                        changedAt := some (existing.changedAt.getD now) } ?_
        simp [perform, IdentityTrustManager.observe, storedAfter, hvalid, hexisting,
          hsame]

theorem requireTrusted_refines {userId : Uuid} (h : w.device.records = records.untimed) :
    Keeps host (fun o _ => o = .done () ↔
      ∃ record, IdentityTrustManager.requireTrusted records userId = .ok record)
      (requireTrusted userId) w := by
  have hrecord : w.device.records userId = (records userId).map untimed := by
    rw [h]
    rfl
  refine keeps_inert_bind trivial rfl ?_
  cases hexisting : records userId with
  | none =>
    rw [hexisting] at hrecord
    simp only [DeviceStore.perform, hrecord, Option.map_none]
    exact iff_of_false (by rintro ⟨⟩) (by simp [IdentityTrustManager.requireTrusted, hexisting])
  | some existing =>
    rw [hexisting] at hrecord
    simp only [DeviceStore.perform, hrecord, Option.map_some, untimed]
    by_cases hpending : existing.pending.isSome = true
    · rw [if_pos hpending]
      exact iff_of_false (by rintro ⟨⟩)
        (by simp [IdentityTrustManager.requireTrusted, hexisting, hpending])
    · rw [if_neg hpending]
      exact iff_of_true rfl
        ⟨existing, by simp [IdentityTrustManager.requireTrusted, hexisting, hpending]⟩

end

end RedcodeIm
