import RedcodeIm.Groups.Tables
import RedcodeIm.Runtime.MessageHandlers

/-!
# Who is refused

Three handlers decide by themselves who may send into a room: `send_message`,
`send_encrypted_message` and `forward_message`.

* `SenderTables` — the tables they look at; `SenderTables.Answers` — what they are told.
* `Forbidden`, `KeepsOut` — a request that may end in a refusal, and one that never ends well.
* `SenderTables.PrivateBlocked`, `SenderTables.Muted` — the two conditions besides membership.
* `send_rules` — whom `send_message` refuses the others refuse too, but for a block in a
  private room.
* `block_bypassed` — a forward to somebody who has blocked the sender.
-/

namespace RedcodeIm

open Awaiting Action

/-! ## The tables -/

/-- A row of `group_mutes`. -/
structure MuteRecord extends GroupMute where
  roomId : Uuid
  userId : Uuid
  isActive : Bool
  deriving DecidableEq

/-- A row of `user_blocks`. -/
structure UserBlock where
  blockerId : Uuid
  blockedId : Uuid
  deriving DecidableEq

/-- What decides whether somebody may send, at one moment. -/
structure SenderTables extends RoomTables where
  blocks : List UserBlock
  mutes : List MuteRecord
  settings : Uuid → Option GroupSettings
  now : Timestamp

namespace SenderTables

/-- `find_active_mute`; one that has run out is no longer active. -/
def findActiveMute (p : SenderTables) (roomId userId : Uuid) : Option GroupMute :=
  match p.mutes.find? fun m => m.roomId = roomId && m.userId = userId && m.isActive with
  | some m =>
    if 0 < m.muteDurationHours ∧ m.mutedAt + hours m.muteDurationHours ≤ p.now then none
    else some m.toGroupMute
  | none => none

/-- `get_group_settings`; a mute of all that has run out is cleared. -/
def getGroupSettings (p : SenderTables) (roomId : Uuid) : Option GroupSettings :=
  (p.settings roomId).map fun settings =>
    if settings.globalMuteEnabled ∧ settings.globalMuteUntil.any (· ≤ p.now) then
      { globalMuteEnabled := false, globalMuteUntil := none, globalMuteReason := none }
    else settings

/-- `is_mutually_blocked`. -/
def isMutuallyBlocked (p : SenderTables) (userA userB : Uuid) : Bool :=
  p.blocks.any fun b =>
    (b.blockerId = userA && b.blockedId = userB) || (b.blockerId = userB && b.blockedId = userA)

/-- `list_members`: the members of the room in the order they joined, those who joined at one
moment in any. -/
def ListsMembers (p : SenderTables) (roomId : Uuid) (users : List Uuid) : Prop :=
  ∃ rows : List MemberRecord, rows.Perm (p.activeMembers roomId) ∧
    rows.Pairwise (fun m m' => m.joinedAt ≤ m'.joinedAt) ∧ users = rows.map (·.userId)

/-- What the statements about a sender answer. -/
def Answers (p : SenderTables) : (e : MessageEffect) → e.Reply → Prop
  | .userInRoom roomId userId, b => b = p.userInRoom roomId userId
  | .getRoom roomId, roomType => ∃ room, p.getRoom roomId = some room ∧ roomType = room.roomType
  | .listMembers roomId, users => p.ListsMembers roomId users
  | .isMutuallyBlocked userA userB, b => b = p.isMutuallyBlocked userA userB
  | .findActiveMute roomId userId, mute => mute = p.findActiveMute roomId userId
  | .getGroupSettings roomId, settings => settings = p.getGroupSettings roomId
  | .canManageGroup roomId userId, b => p.canManageGroup roomId userId = some b
  | _, _ => True

end SenderTables

/-- The transactions that look at the device of a sender, and may refuse it. -/
def checksDevice : ServiceEffect → Bool
  | .message (.createEncryptedMessageWithParts _) => true
  | .message (.validateApplicationSend ..) => true
  | _ => false

/-- What comes back from a statement: the answer from the tables; or a failure as of a database
or a cache, which refuses nobody. -/
def SenderTables.Returns (p : SenderTables) : (e : ServiceEffect) → Service.Answer e → Prop
  | .message e, .ok a => p.Answers e a
  | e, .error err => checksDevice e = true ∨ ∀ text, err ≠ .forbidden text
  | _, _ => True

/-- The service, in which the tables of the senders stay as they are. -/
def senderEnv (p : SenderTables) : Env Service ServiceState := fun s e r s' =>
  serviceEnv s e r s' ∧ p.Returns e r

/-! ## The conditions -/

namespace SenderTables

/-- The room is private, and its first member besides the user has blocked the user or is
blocked by the user. -/
def PrivateBlocked (p : SenderTables) (roomId userId : Uuid) : Prop :=
  (∃ room, p.getRoom roomId = some room ∧ room.roomType = .privateChat) ∧
    ∃ users, p.ListsMembers roomId users ∧
      ∃ peer, users.find? (· ≠ userId) = some peer ∧ p.isMutuallyBlocked userId peer = true

/-- The room is a group in which the user is muted, or in which all are muted and the user is
neither its owner nor an administrator. -/
def Muted (p : SenderTables) (roomId userId : Uuid) : Prop :=
  (∃ room, p.getRoom roomId = some room ∧ room.roomType = .groupChat) ∧
    ((p.findActiveMute roomId userId).isSome ∨
      (∃ settings, p.getGroupSettings roomId = some settings ∧
        settings.globalMuteEnabled = true) ∧ p.canManageGroup roomId userId = some false)

end SenderTables

/-- Some run of the request ends in a refusal of the sender. -/
def Forbidden {α : Type} (p : SenderTables) (request : ServiceAction α) : Prop :=
  ∃ s text s', CanEnd (senderEnv p) request s (.fail (.forbidden text)) s'

/-- No run of the request ends well. -/
def KeepsOut {α : Type} (p : SenderTables) (request : ServiceAction α) : Prop :=
  ∀ s events o s', Run (senderEnv p) request s events (ended o) s' → ∀ a, o ≠ .done a

/-! ## Programs that end no run well -/

section

variable {p : SenderTables} {α β : Type}

/-- In every run from every state, the program does not end well. -/
def Shuts (p : SenderTables) (prog : ServiceAction α) : Prop :=
  ∀ s, Always (senderEnv p) (fun _ _ => True) (fun o _ => ∀ a, o ≠ .done a) prog s

variable {prog : ServiceAction α}

theorem Shuts.keepsOut (h : Shuts p prog) : KeepsOut p prog :=
  fun s _ _ _ hrun => (h s).ends hrun

theorem shuts_fail (err : AppError) : Shuts p (.fail err : ServiceAction α) := by
  intro s a h
  cases h

theorem Shuts.bind (h : Shuts p prog) (f : α → ServiceAction β) : Shuts p (prog >>= f) := by
  refine fun s => (h s).bind (fun a s' ha => absurd rfl (ha a)) ?_ ?_
  · intro err s' _ b hb
    cases hb
  · intro s' _ b hb
    cases hb

theorem shuts_bind {f : α → ServiceAction β} (h : ∀ a, Shuts p (f a)) : Shuts p (prog >>= f) := by
  refine fun s => (always_true prog s).bind (fun a s' _ => h a s') ?_ ?_
  · intro err s' _ b hb
    cases hb
  · intro s' _ b hb
    cases hb

/-- A statement, by what it can answer. -/
theorem shuts_awaitMessage_bind {e : MessageEffect} {f : e.Reply → ServiceAction α}
    (h : ∀ a, p.Answers e a → Shuts p (f a)) : Shuts p (awaitMessage e >>= f) := by
  refine fun s => always_perform_bind.2 ⟨trivial, fun r s' henv => ?_⟩
  cases r with
  | ok a => exact h a henv.2 s'
  | error err =>
    intro a ha
    cases ha

variable {roomId userId : Uuid}

theorem shuts_ensureMember (h : p.userInRoom roomId userId = false) (message : String) :
    Shuts p (ensureMember roomId userId message) := by
  refine shuts_awaitMessage_bind fun a ha => ?_
  obtain rfl : a = false := ha.trans h
  exact shuts_fail _

/-- A statement whose failures become another, by what it can answer. -/
theorem shuts_mapErr_bind {err : AppError} {e : MessageEffect} {f : e.Reply → ServiceAction α}
    (h : ∀ a, p.Answers e a → Shuts p (f a)) : Shuts p (mapErr err (awaitMessage e) >>= f) := by
  refine fun s => ⟨trivial, fun r s' henv => ?_⟩
  cases r with
  | ok a => exact h a henv.2 s'
  | error _ =>
    intro a ha
    cases ha

variable {rfc3339 : ℤ → String}

theorem shuts_ensureGroupMessagePermissions (h : p.Muted roomId userId) :
    Shuts p (ensureGroupMessagePermissions rfc3339 roomId userId) := by
  obtain ⟨⟨room, hroom, hgroup⟩, hmuted⟩ := h
  refine shuts_mapErr_bind fun roomType ha => ?_
  obtain ⟨room', hroom', rfl⟩ := ha
  cases hroom'.symm.trans hroom
  rw [if_neg (not_not.2 hgroup)]
  refine shuts_awaitMessage_bind fun mute ha => ?_
  cases mute with
  | some mute => exact shuts_bind fun now => shuts_fail _
  | none =>
    have hnone : p.findActiveMute roomId userId = none := ha.symm
    obtain hmute | ⟨⟨settings, hsettings, henabled⟩, hmanage⟩ := hmuted
    · rw [hnone] at hmute
      cases hmute
    · refine shuts_awaitMessage_bind fun found ha => ?_
      obtain rfl : found = some settings := ha.trans hsettings
      show Shuts p (if settings.globalMuteEnabled = true then _ else _)
      rw [if_pos henabled]
      refine shuts_awaitMessage_bind fun canManage ha => ?_
      obtain rfl : canManage = false := (Option.some.inj (hmanage.symm.trans ha)).symm
      exact shuts_bind fun now => shuts_fail _

/-- Neither of the other handlers lets in who is not a member or is muted. -/
theorem shuts_sendEncrypted (h : p.userInRoom roomId userId = false ∨ p.Muted roomId userId)
    (payload : SendEncryptedMessagePayload) :
    Shuts p (sendEncrypted rfc3339 roomId userId payload) := by
  refine shuts_bind fun runtime => shuts_bind fun _ => ?_
  obtain h | h := h
  · exact (shuts_ensureMember h _).bind _
  · exact shuts_bind fun _ => (shuts_ensureGroupMessagePermissions h).bind _

theorem shuts_forwardMessage (h : p.userInRoom roomId userId = false ∨ p.Muted roomId userId)
    (originalMessageId : Uuid) :
    Shuts p (forwardMessage rfc3339 roomId userId originalMessageId) := by
  refine shuts_bind fun relayOnly => shuts_bind fun e2ee => ?_
  cases e2ee with
  | true => exact shuts_fail _
  | false =>
    obtain h | h := h
    · exact (shuts_ensureMember h _).bind _
    · exact shuts_bind fun _ => (shuts_ensureGroupMessagePermissions h).bind _

end

/-! ## Why a request is refused -/

section

variable {p : SenderTables} {α β : Type} {reason : Prop}

/-- In every run from every state, the program refuses the sender for this reason only. -/
def RefusesFor (p : SenderTables) (reason : Prop) (prog : ServiceAction α) : Prop :=
  ∀ s, Always (senderEnv p) (fun _ _ => True)
    (fun o _ => ∀ text, o = .fail (.forbidden text) → reason) prog s

theorem RefusesFor.forbidden {prog : ServiceAction α} (h : RefusesFor p reason prog)
    (hforbidden : Forbidden p prog) : reason := by
  obtain ⟨s, text, s', events, hrun⟩ := hforbidden
  exact (h s).ends hrun text rfl

theorem refusesFor_done (a : α) : RefusesFor p reason (.done a) := by
  intro s text h
  cases h

variable {err : AppError}

theorem refusesFor_fail (h : ∀ text, err ≠ .forbidden text) :
    RefusesFor p reason (.fail err : ServiceAction α) := by
  intro s text htext
  exact absurd (Outcome.fail.inj htext) (h text)

theorem RefusesFor.bind {prog : ServiceAction α} {f : α → ServiceAction β}
    (h : RefusesFor p reason prog) (hf : ∀ a, RefusesFor p reason (f a)) :
    RefusesFor p reason (prog >>= f) := by
  refine fun s => (h s).bind (fun a s' _ => hf a s') ?_ ?_
  · intro err s' herr text htext
    exact herr text (congrArg Outcome.fail (Outcome.fail.inj htext))
  · intro s' _ text htext
    cases htext

theorem refusesFor_attempt (prog : ServiceAction α) : RefusesFor p reason prog.attempt := by
  intro s
  refine always_attempt.2 ((always_true prog s).imp fun o s' _ => ?_)
  cases o with
  | _ =>
    intro text h
    cases h

/-- A statement, by what it can answer. -/
theorem refusesFor_await {e : ServiceEffect} (h : checksDevice e = false)
    {f : e.Reply → ServiceAction α}
    (hf : ∀ a, p.Returns e (.ok a) → RefusesFor p reason (f a)) :
    RefusesFor p reason (await e >>= f) := by
  refine fun s => always_perform_bind.2 ⟨trivial, fun r s' henv => ?_⟩
  cases r with
  | ok a => exact hf a henv.2 s'
  | error err =>
    intro text htext
    have hreturns : checksDevice e = true ∨ ∀ text, err ≠ .forbidden text := by
      cases e with
      | message e => exact henv.2
      | _ => exact henv.2
    exact absurd (Outcome.fail.inj htext) (hreturns.resolve_left (by simp [h]) text)

theorem refusesFor_awaitMessage {e : MessageEffect} (h : checksDevice (.message e) = false) :
    RefusesFor p reason (awaitMessage e) := by
  refine fun s => ⟨trivial, fun r s' henv => ?_⟩
  cases r with
  | ok a =>
    intro text htext
    cases htext
  | error err =>
    intro text htext
    exact absurd (Outcome.fail.inj htext) (henv.2.resolve_left (by simp [h]) text)

theorem refusesFor_mapErr (h : ∀ text, err ≠ .forbidden text) (prog : ServiceAction α) :
    RefusesFor p reason (mapErr err prog) := by
  refine (refusesFor_attempt prog).bind fun r => ?_
  cases r with
  | ok a => exact refusesFor_done a
  | error _ => exact refusesFor_fail h

theorem refusesFor_okOr (h : ∀ text, err ≠ .forbidden text) (row : Option α) :
    RefusesFor p reason (okOr err row) := by
  cases row with
  | some a => exact refusesFor_done a
  | none => exact refusesFor_fail h

theorem refusesFor_ignoring (prog : ServiceAction Unit) : RefusesFor p reason (ignoring prog) :=
  (refusesFor_attempt prog).bind fun _ => refusesFor_done ()

theorem refusesFor_ensure {check : Except AppError α}
    (h : ∀ err, check = .error err → ∀ text, err ≠ .forbidden text) :
    RefusesFor p reason (ensure check) := by
  cases check with
  | ok a => exact refusesFor_done a
  | error err => exact refusesFor_fail (h err rfl)

theorem refusesFor_forM {γ : Type} {f : γ → ServiceAction PUnit}
    (hf : ∀ x, RefusesFor p reason (f x)) : ∀ xs : List γ, RefusesFor p reason (xs.forM f)
  | [] => refusesFor_done PUnit.unit
  | x :: xs => (hf x).bind fun _ => refusesFor_forM hf xs

/-! ## Checks that refuse nobody -/

variable {text : String}

theorem not_forbidden_parse {raw : String}
    (h : MessageServerStorageMode.parse raw = .error err ∨
      MessageContentAuditMode.parse raw = .error err) : err ≠ .forbidden text := by
  rintro rfl
  unfold MessageServerStorageMode.parse MessageContentAuditMode.parse at h
  obtain h | h := h
  all_goals
    dsimp only at h
    repeat' split at h
    all_goals cases h

theorem not_forbidden_preparePart {position : ℤ} {payload : MessagePartPayload} :
    preparePart position payload ≠ .error (.forbidden text) := by
  intro h
  cases payload
  all_goals
    simp only [preparePart] at h
    split at h
    all_goals cases h

variable {payloads : List MessagePartPayload}

theorem not_forbidden_prepareParts {n : ℕ} :
    prepareParts n payloads ≠ .error (.forbidden text) := by
  induction payloads generalizing n with
  | nil =>
    intro h
    cases h
  | cons payload payloads ih =>
    intro h
    simp only [prepareParts] at h
    split at h
    · rename_i err herr
      cases h
      exact not_forbidden_preparePart herr
    · exact ih h
    · split at h
      · rename_i err herr
        cases h
        exact ih herr
      · cases h

theorem not_forbidden_normalizeMessageParts {content : Option String} :
    normalizeMessageParts content payloads ≠ .error (.forbidden text) := by
  intro h
  simp only [normalizeMessageParts] at h
  split at h
  · cases h
  · split at h
    · rename_i err herr
      cases h
      exact not_forbidden_prepareParts herr
    · split at h
      · cases h
      · split at h
        · cases h
        · cases h

variable {policy : UploadPolicy}

theorem not_forbidden_checkPartPolicy {totalSize : ℤ} {part : NewMessagePart} :
    checkPartPolicy policy totalSize part ≠ .error (.forbidden text) := by
  intro h
  simp only [checkPartPolicy] at h
  repeat' split at h
  all_goals cases h

theorem not_forbidden_foldlM_checkPartPolicy {text : String} :
    ∀ {parts : List NewMessagePart} {totalSize : ℤ},
      parts.foldlM (checkPartPolicy policy) totalSize ≠ .error (.forbidden text)
  | [], _ => by
    intro h
    cases h
  | part :: parts, totalSize => by
    intro h
    rw [List.foldlM_cons] at h
    cases hpart : checkPartPolicy policy totalSize part with
    | error err =>
      rw [hpart] at h
      cases h
      exact not_forbidden_checkPartPolicy hpart
    | ok size =>
      rw [hpart] at h
      exact not_forbidden_foldlM_checkPartPolicy h

theorem not_forbidden_checkUploadPolicy {parts : List NewMessagePart} :
    checkUploadPolicy policy parts ≠ .error (.forbidden text) := by
  intro h
  simp only [checkUploadPolicy] at h
  split at h
  · cases h
  · split at h
    · rename_i err herr
      cases h
      exact not_forbidden_foldlM_checkPartPolicy herr
    · split at h
      · cases h
      · cases h

theorem not_forbidden_checkObjectKeys {text : String} :
    ∀ {parts : List NewMessagePart}, checkObjectKeys parts ≠ .error (.forbidden text)
  | [] => by
    intro h
    cases h
  | part :: parts => by
    intro h
    unfold checkObjectKeys at h
    rw [List.forM_eq_forM, List.forM_cons] at h
    split at h
    · exact not_forbidden_checkObjectKeys h
    · split at h
      · cases h
      · split at h
        · cases h
        · exact not_forbidden_checkObjectKeys h

/-! ## The rest of `send_message` -/

theorem refusesFor_loadMessageRuntimeSettings : RefusesFor p reason loadMessageRuntimeSettings := by
  refine refusesFor_await (by rfl) fun serverStorage _ => ?_
  refine refusesFor_await (by rfl) fun contentAudit _ => ?_
  refine (refusesFor_ensure fun err herr text => ?_).bind fun serverStorageMode => ?_
  · cases serverStorage with
    | none => cases herr
    | some record => exact not_forbidden_parse (.inl herr)
  refine (refusesFor_ensure fun err herr text => ?_).bind fun contentAuditMode => ?_
  · cases contentAudit with
    | none => cases herr
    | some record => exact not_forbidden_parse (.inr herr)
  exact refusesFor_done _

theorem refusesFor_limitRate (roomId userId : Uuid) :
    RefusesFor p reason (limitRate roomId userId) := by
  refine (refusesFor_mapErr (by simp) _).bind fun count => ?_
  dsimp only
  split
  · refine (refusesFor_mapErr (by simp) _).bind fun _ => ?_
    split
    · exact refusesFor_fail (by simp)
    · exact refusesFor_done ()
  · split
    · exact refusesFor_fail (by simp)
    · exact refusesFor_done ()

theorem refusesFor_loadDefaultStorageProvider : RefusesFor p reason loadDefaultStorageProvider := by
  refine (refusesFor_awaitMessage (by rfl)).bind fun provider => ?_
  refine (refusesFor_okOr (by simp) provider).bind fun found => ?_
  obtain ⟨id, isActive⟩ := found
  cases isActive with
  | true => exact refusesFor_done id
  | false => exact refusesFor_fail (by simp)

variable (parts : List NewMessagePart)

theorem refusesFor_ensureMessageAttachmentKeysAreCommitted :
    RefusesFor p reason (ensureMessageAttachmentKeysAreCommitted parts) := by
  unfold ensureMessageAttachmentKeysAreCommitted
  dsimp only
  split
  · exact refusesFor_done ()
  · refine refusesFor_loadDefaultStorageProvider.bind fun provider => ?_
    refine refusesFor_forM (fun key => ?_) _
    refine (refusesFor_awaitMessage (by rfl)).bind fun committed => ?_
    cases committed with
    | true => exact refusesFor_done PUnit.unit
    | false => exact refusesFor_fail (by simp [attachmentCommitRequiredError])

theorem refusesFor_recordAudit : RefusesFor p reason (recordAudit parts) := by
  unfold recordAudit
  dsimp only
  split
  · exact refusesFor_done ()
  · refine refusesFor_loadDefaultStorageProvider.bind fun provider => ?_
    exact refusesFor_forM (fun item => refusesFor_awaitMessage (by rfl)) _

theorem refusesFor_ensureQuotable (roomId : Uuid) (quotedMessageId : Option Uuid) :
    RefusesFor p reason (ensureQuotable roomId quotedMessageId) := by
  cases quotedMessageId with
  | none => exact refusesFor_done ()
  | some quotedId =>
    refine (refusesFor_awaitMessage (by rfl)).bind fun quoted => ?_
    refine (refusesFor_okOr (by simp) quoted).bind fun quoted => ?_
    split
    · exact refusesFor_fail (by simp)
    · split
      · exact refusesFor_fail (by simp)
      · exact refusesFor_done ()

theorem refusesFor_registerGrants (roomId : Uuid) (owner : String) :
    ∀ granted keys : List String, RefusesFor p reason (registerGrants roomId owner granted keys)
  | granted, [] => refusesFor_done granted
  | granted, key :: keys => by
    refine (refusesFor_attempt _).bind fun r => ?_
    cases r with
    | ok isNew =>
      cases isNew with
      | true => exact refusesFor_registerGrants roomId owner (granted ++ [key]) keys
      | false => exact refusesFor_registerGrants roomId owner granted keys
    | error err =>
      refine (refusesFor_forM (fun key => refusesFor_ignoring _) _).bind fun _ => ?_
      exact refusesFor_fail (by simp)

theorem refusesFor_relayMessage (roomId senderId : Uuid) (contentSummary : String)
    (messageType : MessageType) (parts : List NewMessagePart) :
    RefusesFor p reason (relayMessage roomId senderId contentSummary messageType parts) := by
  refine refusesFor_await (by rfl) fun now _ => ?_
  refine (refusesFor_awaitMessage (by rfl)).bind fun messageId => ?_
  refine RefusesFor.bind ?_ fun message => ?_
  · refine (refusesFor_awaitMessage (by rfl)).bind fun sender => ?_
    exact (refusesFor_okOr (by simp) sender).bind fun found => refusesFor_done _
  refine (refusesFor_registerGrants _ _ _ _).bind fun grants => ?_
  refine (refusesFor_attempt _).bind fun r => ?_
  cases r with
  | ok _ => exact refusesFor_done _
  | error err =>
    refine (refusesFor_forM (fun key => refusesFor_ignoring _) _).bind fun _ => ?_
    exact refusesFor_fail (by simp)

theorem refusesFor_deliver (messageId : Uuid) (missing : String) :
    RefusesFor p reason (deliver messageId missing true) := by
  refine (refusesFor_awaitMessage (by rfl)).bind fun enriched => ?_
  refine (refusesFor_okOr (by simp) enriched).bind fun enriched => ?_
  refine (refusesFor_awaitMessage (by rfl)).bind fun parts => ?_
  refine (refusesFor_ignoring _).bind fun _ => ?_
  refine RefusesFor.bind ?_ fun _ => refusesFor_done _
  exact (refusesFor_attempt _).bind fun _ => refusesFor_ignoring _

/-! ## The three checks -/

variable {roomId userId : Uuid}

theorem refusesFor_ensureMember (h : p.userInRoom roomId userId = true) (message : String) :
    RefusesFor p reason (ensureMember roomId userId message) := by
  refine refusesFor_await (by rfl) fun isMember ha => ?_
  obtain rfl : isMember = true := ha.trans h
  exact refusesFor_done ()

theorem refusesFor_ensurePrivateRoomOpen (h : ¬ p.PrivateBlocked roomId userId) :
    RefusesFor p reason (ensurePrivateRoomOpen roomId userId) := by
  intro s
  refine ⟨trivial, fun r s' henv => ?_⟩
  cases r with
  | error err => exact refusesFor_done () s'
  | ok roomType =>
    obtain ⟨room, hroom, rfl⟩ := henv.2
    cases hprivate : room.roomType with
    | privateChat =>
      refine ⟨trivial, fun r s'' henv => ?_⟩
      cases r with
      | error err => exact refusesFor_done () s''
      | ok users =>
        dsimp only [attempt, Action.bind]
        cases hpeer : users.find? (· ≠ userId) with
        | none => exact refusesFor_done () s''
        | some peer =>
          refine refusesFor_await (by rfl) (fun blocked ha => ?_) s''
          cases blocked with
          | false => exact refusesFor_done ()
          | true => exact absurd ⟨⟨room, hroom, hprivate⟩, users, henv.2, peer, hpeer, ha.symm⟩ h
    | _ => exact refusesFor_done () s'

theorem refusesFor_ensureGroupMessagePermissions {rfc3339 : ℤ → String}
    (h : ¬ p.Muted roomId userId) :
    RefusesFor p reason (ensureGroupMessagePermissions rfc3339 roomId userId) := by
  intro s
  refine ⟨trivial, fun r s' henv => ?_⟩
  cases r with
  | error err => exact refusesFor_fail (by simp) s'
  | ok roomType =>
    obtain ⟨room, hroom, rfl⟩ := henv.2
    show Always _ _ _ (if room.roomType ≠ .groupChat then _ else _) s'
    by_cases hgroup : room.roomType = .groupChat
    · rw [if_neg (not_not.2 hgroup)]
      refine refusesFor_await (by rfl) (fun mute hmute => ?_) s'
      cases mute with
      | some mute =>
        refine absurd ⟨⟨room, hroom, hgroup⟩, .inl ?_⟩ h
        rw [← show some mute = p.findActiveMute roomId userId from hmute]
        rfl
      | none =>
        refine refusesFor_await (by rfl) fun found hfound => ?_
        cases found with
        | none => exact refusesFor_done ()
        | some settings =>
          show RefusesFor _ _ (if settings.globalMuteEnabled = true then _ else _)
          split
          · rename_i henabled
            refine refusesFor_await (by rfl) fun canManage hmanage => ?_
            cases canManage with
            | true => exact refusesFor_done ()
            | false =>
              exact absurd ⟨⟨room, hroom, hgroup⟩,
                .inr ⟨⟨settings, Eq.symm hfound, henabled⟩, hmanage⟩⟩ h
          · exact refusesFor_done ()
    · rw [if_pos hgroup]
      exact refusesFor_done () s'

/-- `send_message` refuses nobody else. -/
theorem refusesFor_sendMessage (rfc3339 : ℤ → String) {senderId : Uuid}
    (hmember : p.userInRoom roomId senderId = true) (hopen : ¬ p.PrivateBlocked roomId senderId)
    (hmuted : ¬ p.Muted roomId senderId) (payload : SendMessagePayload) :
    RefusesFor p reason (sendMessage rfc3339 roomId senderId payload) := by
  refine refusesFor_loadMessageRuntimeSettings.bind fun runtime => ?_
  refine (refusesFor_ensure fun err herr text => ?_).bind fun _ => ?_
  · unfold MessageRuntimeSettings.ensurePlaintextSending at herr
    split at herr
    · cases herr
      simp
    · cases herr
  refine (refusesFor_ensureMember hmember _).bind fun _ => ?_
  refine (refusesFor_ensurePrivateRoomOpen hopen).bind fun _ => ?_
  refine (refusesFor_ensureGroupMessagePermissions hmuted).bind fun _ => ?_
  refine (refusesFor_limitRate _ _).bind fun _ => ?_
  split
  · exact refusesFor_fail (by simp [relayOnlyUnsupported])
  refine (refusesFor_ensure fun err herr text => ?_).bind fun normalized => ?_
  · rintro rfl
    exact not_forbidden_normalizeMessageParts herr
  obtain ⟨parts, messageType, contentSummary⟩ := normalized
  refine (refusesFor_awaitMessage (by rfl)).bind fun policy => ?_
  refine (refusesFor_ensure fun err herr text => ?_).bind fun _ => ?_
  · rintro rfl
    exact not_forbidden_checkUploadPolicy herr
  refine (refusesFor_ensure fun err herr text => ?_).bind fun _ => ?_
  · rintro rfl
    exact not_forbidden_checkObjectKeys herr
  have hkeys : ∀ relayOnly : Bool, RefusesFor p reason
      (if relayOnly then ensureRelayOnlyAttachmentKeysAreCommitted roomId parts
        else ensureMessageAttachmentKeysAreCommitted parts) := by
    intro relayOnly
    cases relayOnly with
    | false => exact refusesFor_ensureMessageAttachmentKeysAreCommitted parts
    | true =>
      refine RefusesFor.bind (refusesFor_ensure fun err herr text => ?_) fun _ =>
        refusesFor_ensureMessageAttachmentKeysAreCommitted parts
      unfold ensureRelayOnlyAttachmentKeysBelongToRoom at herr
      split at herr
      · cases herr
      · cases herr
        simp [relayOnlyAttachmentKeyForbidden]
  have hrest : ∀ relayOnly : Bool, RefusesFor p reason (do
      recordAudit parts
      ensureQuotable roomId payload.quotedMessageId
      if relayOnly then relayMessage roomId senderId contentSummary messageType parts
      else
        let messageId ← awaitMessage .generateId
        let created ← awaitMessage (.createMessageWithParts ⟨messageId, roomId, senderId,
          contentSummary, messageType, payload.quotedMessageId, parts⟩)
        deliver created.id "新消息加载失败" true) := by
    intro relayOnly
    refine (refusesFor_recordAudit parts).bind fun _ => ?_
    refine (refusesFor_ensureQuotable _ _).bind fun _ => ?_
    cases relayOnly with
    | true => exact refusesFor_relayMessage _ _ _ _ _
    | false =>
      refine (refusesFor_awaitMessage (by rfl)).bind fun messageId => ?_
      refine (refusesFor_awaitMessage (by rfl)).bind fun created => ?_
      exact refusesFor_deliver _ _
  cases runtime.isRelayOnly with
  | true => exact (hkeys true).bind fun _ => hrest true
  | false => exact (hkeys false).bind fun _ => hrest false

end

/-! ## A forward past a block -/

section

variable {p : SenderTables} {s : ServiceState}

theorem senderEnv_ok {e : ServiceEffect} {a : e.Reply} (now : Timestamp)
    (ha : ServiceEffect.Answers s (s.apply now e) e a) (hp : p.Returns e (.ok a)) :
    senderEnv p s e (.ok a) (s.apply now e) := by
  refine ⟨.inl ⟨now, rfl, fun b hb => ?_⟩, hp⟩
  cases hb
  exact ha

theorem senderEnv_noSetting (h : ∀ key, s.settings key = none) (key : String) :
    senderEnv p s (.getGeneralSetting key) (.ok none) s :=
  senderEnv_ok (e := .getGeneralSetting key) 0 (h key).symm trivial

theorem canEnd_ignoring {prog : ServiceAction Unit} {s' : ServiceState}
    (h : CanEnd (senderEnv p) prog s (.done ()) s') :
    CanEnd (senderEnv p) (ignoring prog) s (.done ()) s' :=
  h.attempt.bind (canEnd_done () s')

theorem canEnd_loadMessageRuntimeSettings (h : ∀ key, s.settings key = none) :
    CanEnd (senderEnv p) loadMessageRuntimeSettings s (.done .default) s :=
  ⟨_, .step (senderEnv_noSetting h _) (.step (senderEnv_noSetting h _) (.refl _ _))⟩

theorem canEnd_isE2eeRuntime (h : ∀ key, s.settings key = none) :
    CanEnd (senderEnv p) isE2eeRuntime s (.done false) s :=
  ⟨_, .step (senderEnv_noSetting h _) (.refl _ _)⟩

variable {roomId userId : Uuid}

theorem senderEnv_userInRoom (h : p.userInRoom roomId userId = true) :
    senderEnv p s (.message (.userInRoom roomId userId)) (.ok true) s :=
  senderEnv_ok (e := .message (.userInRoom roomId userId)) 0 trivial h.symm

variable {room : RoomRecord}

theorem senderEnv_getRoom (h : p.getRoom roomId = some room) :
    senderEnv p s (.message (.getRoom roomId)) (.ok room.roomType) s :=
  senderEnv_ok (e := .message (.getRoom roomId)) 0 trivial ⟨room, h, rfl⟩

theorem canEnd_ensureMember (h : p.userInRoom roomId userId = true) (message : String) :
    CanEnd (senderEnv p) (ensureMember roomId userId message) s (.done ()) s :=
  ⟨_, .step (senderEnv_userInRoom h) (.refl _ _)⟩

theorem canEnd_ensureGroupMessagePermissions {rfc3339 : ℤ → String}
    (hroom : p.getRoom roomId = some room) (hprivate : room.roomType = .privateChat) :
    CanEnd (senderEnv p) (ensureGroupMessagePermissions rfc3339 roomId userId) s (.done ()) s := by
  have hask := senderEnv_getRoom (s := s) hroom
  rw [hprivate] at hask
  exact ⟨_, .step hask (.refl _ _)⟩

/-- Whoever is blocked in a private room may find `send_message` refused. -/
theorem forbidden_sendMessage (rfc3339 : ℤ → String) {senderId : Uuid}
    (hs : ∀ key, s.settings key = none) (hmember : p.userInRoom roomId senderId = true)
    (hblocked : p.PrivateBlocked roomId senderId) (payload : SendMessagePayload) :
    Forbidden p (sendMessage rfc3339 roomId senderId payload) := by
  obtain ⟨⟨room, hroom, hprivate⟩, users, husers, peer, hpeer, hblocked⟩ := hblocked
  have hgetRoom := senderEnv_getRoom (s := s) hroom
  rw [hprivate] at hgetRoom
  have hlist : senderEnv p s (.message (.listMembers roomId)) (.ok users) s :=
    senderEnv_ok (e := .message (.listMembers roomId)) 0 trivial husers
  have hask : senderEnv p s (.message (.isMutuallyBlocked senderId peer)) (.ok true) s :=
    senderEnv_ok (e := .message (.isMutuallyBlocked senderId peer)) 0 trivial hblocked.symm
  refine ⟨s, "操作被阻止：双方存在拉黑关系", s, ?_⟩
  refine (canEnd_loadMessageRuntimeSettings hs).bind (CanEnd.bind (canEnd_done () s) ?_)
  refine (canEnd_ensureMember hmember _).bind (CanEnd.bind_fail ?_)
  refine ⟨[⟨_, _⟩, ⟨_, _⟩, ⟨.message (.isMutuallyBlocked senderId peer), .ok true⟩],
    .step hgetRoom (.step hlist ?_)⟩
  dsimp only [attempt, Action.bind]
  rw [hpeer]
  exact .step hask (.refl _ _)

/-- A room with one message in it, of the user who is to forward it. -/
def oneMessage (roomId senderId : Uuid) : ServiceState where
  gate :=
    { state := .plaintext
      readinessRevision := 0
      readinessComputedAt := none
      minClientVersions := .other
      requiredCoveragePercent := 100
      keyPackageLowWatermark := 0
      securityReviewApproved := false
      updatedAt := 0
      updatedBy := none }
  settings := fun _ => none
  messages := Table.empty.insert (NewMessage.row ⟨1, roomId, senderId, "hello", .text, none, []⟩ 0)
  parts := fun _ => [{ position := 0, partType := .text, textContent := some "hello" }]

/-- The message of the room, with its sender. -/
def firstMessage (roomId senderId : Uuid) : MessageWithSender :=
  ⟨NewMessage.row ⟨1, roomId, senderId, "hello", .text, none, []⟩ 0, "user", none⟩

theorem recordAudit_oneText (text : Option String) :
    recordAudit [{ position := 0, partType := .text, textContent := text }] = .done () := by
  simp [recordAudit, NewMessagePart.auditItems, dedupByKey]

/-- A member of a private room may forward a message of it into it. -/
theorem canEnd_forwardMessage (rfc3339 : ℤ → String) {senderId : Uuid}
    (hmember : p.userInRoom roomId senderId = true) (hroom : p.getRoom roomId = some room)
    (hprivate : room.roomType = .privateChat) :
    ∃ sent s', CanEnd (senderEnv p) (forwardMessage rfc3339 roomId senderId 1)
      (oneMessage roomId senderId) (.done sent) s' := by
  let s := oneMessage roomId senderId
  let m := firstMessage roomId senderId
  have hs : ∀ key, s.settings key = none := fun _ => rfl
  let e : MessageEffect := .createForwardMessage 2 roomId senderId m (s.parts 1)
  let s' := s.applyMessage 0 e
  let row : MessageRecord :=
    { (m.forwarded (s.parts 1) 2 roomId senderId).row 0 with forwardFrom := m.origin }
  have hs' : ∀ key, s'.settings key = none := fun _ => rfl
  have hread : senderEnv p s (.message (.getMessageWithSender 1)) (.ok (some m)) s :=
    senderEnv_ok (e := .message (.getMessageWithSender 1)) 0 rfl trivial
  have hparts : senderEnv p s (.message (.getMessageParts 1)) (.ok (s.parts 1)) s :=
    senderEnv_ok (e := .message (.getMessageParts 1)) 0 rfl trivial
  have hid : senderEnv p s (.message .generateId) (.ok 2) s :=
    senderEnv_ok (e := .message .generateId) 0 trivial trivial
  have hcreate : senderEnv p s (.message e) (.ok row) s' :=
    senderEnv_ok (e := .message e) 0 ⟨rfl, rfl⟩ trivial
  have hread' : senderEnv p s' (.message (.getMessageWithSender 2))
      (.ok (some ⟨row, "user", none⟩)) s' :=
    senderEnv_ok (e := .message (.getMessageWithSender 2)) 0 rfl trivial
  have hparts' : senderEnv p s' (.message (.getMessageParts 2)) (.ok (s'.parts 2)) s' :=
    senderEnv_ok (e := .message (.getMessageParts 2)) 0 rfl trivial
  have hbroadcast : senderEnv p s'
      (.message (.broadcastMessage ⟨row, "user", none⟩ (s'.parts 2))) (.ok ()) s' :=
    senderEnv_ok (e := .message (.broadcastMessage _ _)) 0 trivial trivial
  have hpush : senderEnv p s'
      (.message (.enqueueNewMessage ⟨row, "user", none⟩ (s'.parts 2) false)) (.ok ()) s' :=
    senderEnv_ok (e := .message (.enqueueNewMessage _ _ _)) 0 trivial trivial
  refine ⟨⟨⟨row, "user", none⟩, s'.parts 2⟩, s', ?_⟩
  refine ((canEnd_loadMessageRuntimeSettings hs).bind (canEnd_done false _)).bind ?_
  refine (canEnd_isE2eeRuntime hs).bind ?_
  refine (canEnd_ensureMember hmember _).bind ?_
  refine (canEnd_ensureGroupMessagePermissions hroom hprivate).bind ?_
  refine (canEnd_perform hread).bind (CanEnd.bind (canEnd_done m _) ?_)
  refine (canEnd_ensureMember hmember _).bind ?_
  refine (canEnd_perform hparts).bind ?_
  refine CanEnd.bind (a := ()) (by exact (recordAudit_oneText _).symm ▸ canEnd_done () _) ?_
  refine (canEnd_perform hid).bind ((canEnd_perform hcreate).bind ?_)
  refine (canEnd_perform hread').bind (CanEnd.bind (canEnd_done _ _) ?_)
  refine (canEnd_perform hparts').bind ?_
  refine (canEnd_ignoring (canEnd_perform hbroadcast)).bind ?_
  refine CanEnd.bind (a := ()) ?_ (canEnd_done _ _)
  exact (canEnd_isE2eeRuntime hs').attempt.bind (canEnd_ignoring (canEnd_perform hpush))

end

/-! ## The rules of sending -/

/-- **Whom `send_message` refuses** for want of membership, for a block in a private room or for
a mute, `send_encrypted_message` and `forward_message` refuse too, unless it is a member of a
private room with a block. -/
theorem send_rules (rfc3339 : ℤ → String) (p : SenderTables) (roomId senderId : Uuid) :
    ((∃ payload, Forbidden p (sendMessage rfc3339 roomId senderId payload)) →
      (∀ payload, KeepsOut p (sendEncrypted rfc3339 roomId senderId payload)) ∧
        ∀ originalMessageId,
          KeepsOut p (forwardMessage rfc3339 roomId senderId originalMessageId)) ↔
    ¬ (p.userInRoom roomId senderId = true ∧ p.PrivateBlocked roomId senderId) := by
  constructor
  · rintro h ⟨hmember, hblocked⟩
    obtain ⟨-, hforward⟩ := h ⟨⟨none, [], none⟩, forbidden_sendMessage
      (s := oneMessage roomId senderId) rfc3339 (fun _ => rfl) hmember hblocked _⟩
    obtain ⟨⟨room, hroom, hprivate⟩, -⟩ := hblocked
    obtain ⟨sent, s', events, hrun⟩ := canEnd_forwardMessage rfc3339 hmember hroom hprivate
    exact hforward 1 _ events _ s' hrun sent rfl
  · rintro hopen ⟨payload, hforbidden⟩
    have hreason : p.userInRoom roomId senderId = false ∨ p.Muted roomId senderId := by
      cases hmember : p.userInRoom roomId senderId with
      | false => exact .inl rfl
      | true =>
        by_contra hmuted
        exact (refusesFor_sendMessage rfc3339 hmember (fun hblocked => hopen ⟨hmember, hblocked⟩)
          (fun h => hmuted (.inr h)) payload).forbidden hforbidden
    exact ⟨fun payload => (shuts_sendEncrypted hreason payload).keepsOut,
      fun originalMessageId => (shuts_forwardMessage hreason originalMessageId).keepsOut⟩

/-- Users 5 and 6 in private room 7; user 6 has blocked user 5. -/
def blockedPair : SenderTables where
  rooms := Table.empty.insert ⟨7, .privateChat, 5, none⟩
  members := (Table.empty.insert ⟨1, 7, 5, .owner, 0, none⟩).insert ⟨2, 7, 6, .member, 0, none⟩
  admins := Table.empty
  blocks := [⟨6, 5⟩]
  mutes := []
  settings := fun _ => none
  now := 1

/-- User 5 is refused when sending, and forwards a message into the room all the same. -/
theorem block_bypassed :
    ¬ ∀ (rfc3339 : ℤ → String) (p : SenderTables) (roomId senderId : Uuid),
      (∃ payload, Forbidden p (sendMessage rfc3339 roomId senderId payload)) →
        (∀ payload, KeepsOut p (sendEncrypted rfc3339 roomId senderId payload)) ∧
          ∀ originalMessageId,
            KeepsOut p (forwardMessage rfc3339 roomId senderId originalMessageId) := by
  intro h
  have hmember : blockedPair.userInRoom 7 5 = true := by decide
  have hroom : blockedPair.getRoom 7 = some ⟨7, .privateChat, 5, none⟩ := by decide
  have hblocked : blockedPair.PrivateBlocked 7 5 := by
    refine ⟨⟨_, hroom, rfl⟩, [5, 6], ?_, 6, by decide, by decide⟩
    exact ⟨_, .refl _, by decide, by decide⟩
  obtain ⟨-, hforward⟩ := h (fun _ => "") blockedPair 7 5 ⟨⟨none, [], none⟩, forbidden_sendMessage
    (s := oneMessage 7 5) _ (fun _ => rfl) hmember hblocked _⟩
  obtain ⟨sent, s', events, hrun⟩ := canEnd_forwardMessage (fun _ => "") hmember hroom rfl
  exact hforward 1 _ events _ s' hrun sent rfl

end RedcodeIm
