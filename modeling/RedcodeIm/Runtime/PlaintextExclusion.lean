import RedcodeIm.Runtime.GateConsistency
import RedcodeIm.Runtime.MessageHandlers

/-!
# No plaintext while the mode is e2ee

The handlers that send look at the audit mode before anything else, and what they are told
holds to the end of a request that comes while the mode is e2ee.  The handler that edits does
not look.

* `Hidden` — what the tables show of an encrypted message is the placeholder.
* `StoresNoPlaintext` — a step stores no text but the placeholder.
* `StoresPrepared` — what a request to send may write.
* `Writes`, `LateWrites` — what a request may write, and one that comes in e2ee mode.
* `UneditedSecret`, `Unedited` — an edit that finds no encrypted message, or no message at all.
* `plaintext_exclusion` — whatever requests and administrators do, at the same time.
* `plaintext_edited` — an edit of an encrypted message.
-/

namespace RedcodeIm

open Awaiting Interleaving ServiceState

/-! ## The property -/

/-- What the tables show of an encrypted message is the placeholder. -/
def Hidden (s : ServiceState) : Prop :=
  ∀ row ∈ s.messages.rows, row.encryptedContent.isSome →
    row.content = encryptedMessagePlaceholder ∧
    ∀ part ∈ s.parts row.id, part.textContent = some encryptedMessagePlaceholder

/-- Every text that is stored was there before, of the same message, or is the placeholder. -/
def StoresNoPlaintext (s s' : ServiceState) : Prop :=
  (∀ row' ∈ s'.messages.rows, row'.content = encryptedMessagePlaceholder ∨
    ∃ row ∈ s.messages.rows, row.id = row'.id ∧ row.content = row'.content) ∧
  ∀ messageId, ∀ part ∈ s'.parts messageId,
    part ∈ s.parts messageId ∨ part.textContent = some encryptedMessagePlaceholder

/-! ## Requests -/

/-- A request for one of the handlers of messages, or a call of an administrator. -/
inductive ApiCall where
  | gate (call : GateCall)
  | message (call : MessageCall)

def ApiCall.program (rfc3339 : ℤ → String) : ApiCall → ServiceAction (GateReply ⊕ SentMessage)
  | .gate call => do return .inl (← call.program)
  | .message call => do return .inr (← call.program rfc3339)

def IsApiCall (rfc3339 : ℤ → String) (p : ServiceAction (GateReply ⊕ SentMessage)) : Prop :=
  ∃ call : ApiCall, p = call.program rfc3339

/-- An encrypted message that shows the placeholder only. -/
def NewEncryptedMessage.Veiled (input : NewEncryptedMessage) : Prop :=
  input.contentSummary = encryptedMessagePlaceholder ∧ input.parts = placeholderParts

/-- What a request may write: an encrypted message only with the placeholder. -/
def Writes : ServiceEffect → Prop
  | .message (.createEncryptedMessageWithParts input) => input.Veiled
  | _ => True

/-- What a request writes that comes while the mode is e2ee: no message in plaintext. -/
def LateWrites : ServiceEffect → Prop
  | .message (.createEncryptedMessageWithParts input) => input.Veiled
  | .message (.createMessageWithParts _) => False
  | .message (.createForwardMessage ..) => False
  | _ => True

/-- A statement that stores no message. -/
def StoresNone : ServiceEffect → Prop
  | .message (.createEncryptedMessageWithParts _) => False
  | .message (.createMessageWithParts _) => False
  | .message (.createForwardMessage ..) => False
  | .message (.updateMessageContent ..) => False
  | _ => True

/-- A statement that stores no message, changes no setting and touches no grant. -/
def Passive : ServiceEffect → Prop
  | .updateGate .. => False
  | .activateGateTransaction .. => False
  | .rollbackGateTransaction _ => False
  | .upsertGeneralSettingsAtomic .. => False
  | .message (.setGrant ..) => False
  | .message (.deleteGrant ..) => False
  | e => StoresNone e

/-- A request to send stores what is made of its payload. -/
def StoresPrepared (payload : SendMessagePayload) : ServiceEffect → Prop
  | .message (.createMessageWithParts input) =>
    normalizeMessageParts payload.content payload.parts =
      .ok (input.parts, input.messageType, input.contentSummary)
  | .message (.createEncryptedMessageWithParts _) => False
  | .message (.createForwardMessage ..) => False
  | .message (.updateMessageContent ..) => False
  | _ => True

variable {e : ServiceEffect}

theorem LateWrites.writes (h : LateWrites e) : Writes e := by
  cases e with
  | message e =>
    cases e with
    | createEncryptedMessageWithParts input => exact h
    | _ => trivial
  | _ => trivial

theorem Passive.storesNone (h : Passive e) : StoresNone e := by
  cases e with
  | message e =>
    cases e with
    | setGrant | deleteGrant => trivial
    | _ => exact h
  | _ => trivial

theorem StoresNone.lateWrites (h : StoresNone e) : LateWrites e := by
  cases e with
  | message e =>
    cases e with
    | createEncryptedMessageWithParts | createMessageWithParts | createForwardMessage => cases h
    | _ => trivial
  | _ => trivial

theorem StoresNone.prepared (h : StoresNone e) (payload : SendMessagePayload) :
    StoresPrepared payload e := by
  cases e with
  | message e =>
    cases e with
    | createMessageWithParts | createEncryptedMessageWithParts | createForwardMessage
    | updateMessageContent => cases h
    | _ => trivial
  | _ => trivial

theorem Passive.prepared (h : Passive e) (payload : SendMessagePayload) :
    StoresPrepared payload e :=
  h.storesNone.prepared payload

theorem Passive.lateWrites (h : Passive e) : LateWrites e :=
  h.storesNone.lateWrites

theorem storesNone_of_passive {α : Type} {p : ServiceAction α} (h : p.Uses Passive) :
    p.Uses StoresNone :=
  h.mono fun _ he => he.storesNone

theorem StoresPrepared.writes {payload : SendMessagePayload} (h : StoresPrepared payload e) :
    Writes e := by
  cases e with
  | message e =>
    cases e with
    | createEncryptedMessageWithParts input => cases h
    | _ => trivial
  | _ => trivial

/-! ## What the parts of the handlers write -/

section

variable {P : ServiceEffect → Prop} {α : Type}

theorem uses_awaitMessage {e : MessageEffect} (h : P (.message e)) : (awaitMessage e).Uses P :=
  Action.uses_perform h

theorem uses_awaitMessage_bind {e : MessageEffect} {f : e.Reply → ServiceAction α}
    (h : P (.message e)) (hf : ∀ a, Action.Uses P (f a)) :
    Action.Uses P (awaitMessage e >>= f) :=
  (uses_awaitMessage h).bind hf

theorem uses_mapErr {err : AppError} {p : ServiceAction α} (h : p.Uses P) :
    (mapErr err p).Uses P := by
  refine h.attempt.bind fun r => ?_
  cases r with
  | ok | error => trivial

theorem uses_okOr {err : AppError} {row : Option α} : (okOr err row).Uses P := by
  cases row with
  | some | none => trivial

theorem uses_ignoring {p : ServiceAction Unit} (h : p.Uses P) : (ignoring p).Uses P :=
  h.attempt.bind fun _ => trivial

end

theorem uses_ensureGroupMessagePermissions (rfc3339 : ℤ → String) (roomId senderId : Uuid) :
    (ensureGroupMessagePermissions rfc3339 roomId senderId).Uses Passive := by
  refine (uses_mapErr (uses_awaitMessage trivial)).bind fun roomType => ?_
  split
  · trivial
  · refine uses_awaitMessage_bind trivial fun mute => ?_
    cases mute with
    | some mute => exact uses_await_bind trivial fun now => trivial
    | none =>
      refine uses_awaitMessage_bind trivial fun settings => ?_
      cases settings with
      | none => trivial
      | some settings =>
        dsimp only
        split
        · refine uses_awaitMessage_bind trivial fun canManage => ?_
          split
          · trivial
          · exact uses_await_bind trivial fun now => trivial
        · trivial

theorem uses_ensurePrivateRoomOpen (roomId senderId : Uuid) :
    (ensurePrivateRoomOpen roomId senderId).Uses Passive := by
  refine (uses_awaitMessage trivial).attempt.bind fun room => ?_
  split
  · refine (uses_awaitMessage trivial).attempt.bind fun members => ?_
    cases members with
    | error err => trivial
    | ok members =>
      dsimp only
      split
      · refine uses_awaitMessage_bind trivial fun blocked => ?_
        split <;> trivial
      · trivial
  · trivial

theorem uses_ensureMember (roomId userId : Uuid) (message : String) :
    (ensureMember roomId userId message).Uses Passive := by
  refine uses_awaitMessage_bind trivial fun inRoom => ?_
  split <;> trivial

theorem uses_limitRate (roomId senderId : Uuid) : (limitRate roomId senderId).Uses Passive := by
  refine (uses_mapErr (uses_awaitMessage trivial)).bind fun count => ?_
  dsimp only
  split
  · refine (uses_mapErr (uses_awaitMessage trivial)).bind fun _ => ?_
    split <;> trivial
  · split <;> trivial

theorem uses_loadDefaultStorageProvider : loadDefaultStorageProvider.Uses Passive := by
  refine uses_awaitMessage_bind trivial fun provider => ?_
  refine uses_okOr.bind fun row => ?_
  dsimp only
  split <;> trivial

theorem uses_ensureMessageAttachmentKeysAreCommitted (parts : List NewMessagePart) :
    (ensureMessageAttachmentKeysAreCommitted parts).Uses Passive := by
  unfold ensureMessageAttachmentKeysAreCommitted
  dsimp only
  split
  · trivial
  · refine uses_loadDefaultStorageProvider.bind fun provider => ?_
    refine Action.Uses.forM (fun key => ?_) _
    refine uses_awaitMessage_bind trivial fun completed => ?_
    split <;> trivial

theorem uses_recordAudit (parts : List NewMessagePart) : (recordAudit parts).Uses Passive := by
  unfold recordAudit
  dsimp only
  split
  · trivial
  · refine uses_loadDefaultStorageProvider.bind fun provider => ?_
    exact Action.Uses.forM (fun item => uses_awaitMessage trivial) _

theorem uses_ensureQuotable (roomId : Uuid) (quotedMessageId : Option Uuid) :
    (ensureQuotable roomId quotedMessageId).Uses Passive := by
  cases quotedMessageId with
  | none => trivial
  | some quotedId =>
    refine uses_awaitMessage_bind trivial fun quoted => ?_
    refine uses_okOr.bind fun row => ?_
    split
    · trivial
    · split <;> trivial

theorem uses_pushMessage (message : MessageWithSender) (parts : List NewMessagePart) :
    (pushMessage message parts).Uses Passive := by
  refine (uses_isE2eeRuntime fun _ => trivial).attempt.bind fun sanitized => ?_
  exact uses_ignoring (uses_awaitMessage trivial)

theorem uses_deliver (messageId : Uuid) (missing : String) (announce : Bool) :
    (deliver messageId missing announce).Uses Passive := by
  refine uses_awaitMessage_bind trivial fun enriched => ?_
  refine uses_okOr.bind fun message => ?_
  refine uses_awaitMessage_bind trivial fun parts => ?_
  split
  · refine (uses_ignoring (uses_awaitMessage trivial)).bind fun _ => ?_
    exact (uses_pushMessage message parts).bind fun _ => trivial
  · trivial

theorem uses_buildRuntimeMessage (row : MessageRecord) :
    (buildRuntimeMessage row).Uses Passive := by
  refine uses_awaitMessage_bind trivial fun sender => ?_
  exact uses_okOr.bind fun names => trivial

theorem uses_revokeRelayOnlyAttachmentGrants (roomId : Uuid) (owner : String)
    (keys : List String) : (revokeRelayOnlyAttachmentGrants roomId owner keys).Uses StoresNone :=
  Action.Uses.forM (fun _ => uses_ignoring (uses_awaitMessage trivial)) keys

theorem uses_registerGrants (roomId : Uuid) (owner : String) :
    ∀ keys granted : List String, (registerGrants roomId owner granted keys).Uses StoresNone := by
  intro keys
  induction keys with
  | nil => exact fun granted => trivial
  | cons key keys ih =>
    intro granted
    refine (uses_awaitMessage trivial).attempt.bind fun given => ?_
    rcases given with err | given
    · exact (uses_revokeRelayOnlyAttachmentGrants roomId owner granted).bind fun _ => trivial
    · cases given with
      | true | false => exact ih _

theorem uses_relayMessage (roomId senderId : Uuid) (contentSummary : String)
    (messageType : MessageType) (parts : List NewMessagePart) :
    (relayMessage roomId senderId contentSummary messageType parts).Uses StoresNone := by
  refine uses_await_bind trivial fun now => ?_
  refine uses_awaitMessage_bind trivial fun messageId => ?_
  refine (storesNone_of_passive (uses_buildRuntimeMessage _)).bind fun message => ?_
  refine (uses_registerGrants roomId _ _ _).bind fun grants => ?_
  refine (uses_awaitMessage trivial).attempt.bind fun sent => ?_
  cases sent with
  | ok _ => trivial
  | error err => exact (uses_revokeRelayOnlyAttachmentGrants roomId _ grants).bind fun _ => trivial

theorem uses_relayEncryptedMessage (input : NewEncryptedMessage) :
    (relayEncryptedMessage input).Uses StoresNone := by
  refine uses_awaitMessage_bind trivial fun _ => ?_
  refine uses_await_bind trivial fun now => ?_
  refine (storesNone_of_passive (uses_buildRuntimeMessage _)).bind fun message => ?_
  refine (uses_registerGrants input.roomId _ _ _).bind fun grants => ?_
  have hrevoke := uses_revokeRelayOnlyAttachmentGrants input.roomId (toString input.messageId)
    grants
  refine (uses_awaitMessage trivial).attempt.bind fun reserved => ?_
  rcases reserved with err | reserved
  · refine (uses_ignoring (uses_awaitMessage trivial)).bind fun _ => ?_
    exact hrevoke.bind fun _ => trivial
  · cases reserved with
    | false =>
      refine uses_awaitMessage_bind trivial fun _ => ?_
      exact hrevoke.bind fun _ => trivial
    | true =>
      refine (uses_awaitMessage trivial).attempt.bind fun sent => ?_
      cases sent with
      | ok _ => exact uses_awaitMessage_bind trivial fun _ => trivial
      | error err =>
        refine (uses_ignoring (uses_awaitMessage trivial)).bind fun _ => ?_
        refine (uses_ignoring (uses_awaitMessage trivial)).bind fun _ => ?_
        exact hrevoke.bind fun _ => trivial

/-! ## What the handlers write -/

theorem StoresNone.writes (h : StoresNone e) : Writes e := h.lateWrites.writes

theorem Passive.writes (h : Passive e) : Writes e := h.storesNone.writes

theorem uses_sendMessage (rfc3339 : ℤ → String) (roomId senderId : Uuid)
    (payload : SendMessagePayload) :
    (sendMessage rfc3339 roomId senderId payload).Uses (StoresPrepared payload) := by
  refine (uses_loadMessageRuntimeSettings fun _ => trivial).bind fun runtime => ?_
  refine uses_ensure_bind fun _ _ => ?_
  refine ((uses_ensureMember _ _ _).mono fun _ h => h.prepared payload).bind fun _ => ?_
  refine ((uses_ensurePrivateRoomOpen _ _).mono fun _ h => h.prepared payload).bind fun _ => ?_
  refine ((uses_ensureGroupMessagePermissions _ _ _).mono
    fun _ h => h.prepared payload).bind fun _ => ?_
  refine ((uses_limitRate _ _).mono fun _ h => h.prepared payload).bind fun _ => ?_
  split
  · trivial
  · refine uses_ensure_bind fun normalized hnormalized => ?_
    refine uses_awaitMessage_bind trivial fun policy => ?_
    refine uses_ensure_bind fun _ _ => ?_
    refine uses_ensure_bind fun _ _ => ?_
    have hcommitted := (uses_ensureMessageAttachmentKeysAreCommitted normalized.1).mono
      fun _ h => h.prepared payload
    have haudit := (uses_recordAudit normalized.1).mono fun _ h => h.prepared payload
    have hquoted := (uses_ensureQuotable roomId payload.quotedMessageId).mono
      fun _ h => h.prepared payload
    split
    · refine Action.Uses.bind (uses_ensure_bind fun _ _ => hcommitted) fun _ => ?_
      refine haudit.bind fun _ => ?_
      refine hquoted.bind fun _ => ?_
      exact (uses_relayMessage _ _ _ _ _).mono fun _ h => h.prepared payload
    · refine hcommitted.bind fun _ => ?_
      refine haudit.bind fun _ => ?_
      refine hquoted.bind fun _ => ?_
      refine uses_awaitMessage_bind trivial fun messageId => ?_
      refine uses_awaitMessage_bind hnormalized fun created => ?_
      exact (uses_deliver _ _ _).mono fun _ h => h.prepared payload

theorem uses_sendEncrypted (rfc3339 : ℤ → String) (roomId senderId : Uuid)
    (payload : SendEncryptedMessagePayload) :
    (sendEncrypted rfc3339 roomId senderId payload).Uses LateWrites := by
  refine (uses_loadMessageRuntimeSettings fun _ => trivial).bind fun runtime => ?_
  refine uses_ensure_bind fun _ _ => ?_
  refine ((uses_ensureMember _ _ _).mono fun _ h => h.lateWrites).bind fun _ => ?_
  refine ((uses_ensureGroupMessagePermissions _ _ _).mono fun _ h => h.lateWrites).bind fun _ => ?_
  refine ((uses_limitRate _ _).mono fun _ h => h.lateWrites).bind fun _ => ?_
  split
  · trivial
  · refine uses_ensure_bind fun checked _ => ?_
    refine ((uses_ensureQuotable _ _).mono fun _ h => h.lateWrites).bind fun _ => ?_
    refine uses_awaitMessage_bind trivial fun messageId => ?_
    split
    · exact (uses_relayEncryptedMessage _).mono fun _ h => h.lateWrites
    · refine uses_awaitMessage_bind ⟨rfl, rfl⟩ fun created => ?_
      exact (uses_deliver _ _ _).mono fun _ h => h.lateWrites

theorem uses_forwardMessage (rfc3339 : ℤ → String) (roomId senderId originalMessageId : Uuid) :
    (forwardMessage rfc3339 roomId senderId originalMessageId).Uses Writes := by
  refine (uses_isRelayOnlyRuntime fun _ => trivial).bind fun relayOnly => ?_
  refine (uses_isE2eeRuntime fun _ => trivial).bind fun e2ee => ?_
  split
  · trivial
  · refine ((uses_ensureMember _ _ _).mono fun _ h => h.writes).bind fun _ => ?_
    refine ((uses_ensureGroupMessagePermissions _ _ _).mono fun _ h => h.writes).bind fun _ => ?_
    split
    · trivial
    · refine uses_awaitMessage_bind trivial fun row => ?_
      refine uses_okOr.bind fun original => ?_
      split
      · trivial
      · refine ((uses_ensureMember _ _ _).mono fun _ h => h.writes).bind fun _ => ?_
        split
        · trivial
        · refine uses_awaitMessage_bind trivial fun originalParts => ?_
          refine ((uses_recordAudit _).mono fun _ h => h.writes).bind fun _ => ?_
          refine uses_awaitMessage_bind trivial fun messageId => ?_
          refine uses_awaitMessage_bind trivial fun created => ?_
          exact (uses_deliver _ _ _).mono fun _ h => h.writes

theorem uses_editMessage (roomId messageId userId : Uuid) (content : String) :
    (editMessage roomId messageId userId content).Uses LateWrites := by
  refine ((uses_ensureMember _ _ _).mono fun _ h => h.lateWrites).bind fun _ => ?_
  refine (uses_isRelayOnlyRuntime fun _ => trivial).bind fun relayOnly => ?_
  split
  · trivial
  · refine uses_ensure_bind fun newContent _ => ?_
    refine uses_awaitMessage_bind trivial fun row => ?_
    refine uses_okOr.bind fun existing => ?_
    refine uses_ensure_bind fun _ _ => ?_
    refine uses_awaitMessage_bind trivial fun updatedRow => ?_
    refine uses_okOr.bind fun _ => ?_
    refine uses_awaitMessage_bind trivial fun reloaded => ?_
    refine uses_okOr.bind fun updated => ?_
    refine (uses_ignoring (uses_awaitMessage trivial)).bind fun _ => ?_
    exact uses_awaitMessage_bind trivial fun parts => trivial

theorem GateWrites.lateWrites (h : GateWrites e) : LateWrites e := by
  cases e with
  | message e => cases h
  | _ => trivial

/-- What a request may write. -/
theorem ApiCall.uses (rfc3339 : ℤ → String) (call : ApiCall) :
    (call.program rfc3339).Uses Writes := by
  cases call with
  | gate call => exact (call.uses.mono fun _ h => h.lateWrites.writes).bind fun _ => trivial
  | message call =>
    refine Action.Uses.bind ?_ fun _ => trivial
    cases call with
    | send roomId senderId payload => exact (uses_sendMessage _ _ _ _).mono fun _ h => h.writes
    | sendEncrypted roomId senderId payload =>
      exact (uses_sendEncrypted _ _ _ _).mono fun _ h => h.writes
    | forward roomId senderId originalMessageId => exact uses_forwardMessage _ _ _ _
    | edit roomId messageId userId content =>
      exact (uses_editMessage _ _ _ _).mono fun _ h => h.writes

/-! ## A request that comes in e2ee mode -/

section

variable {env : Env Service ServiceState}

variable (henv : ∀ s e r s', env s e r s' → serviceEnv s e r s')

include henv

/-- The row of the mode, as it is read while the mode is e2ee. -/
theorem mode_of_answer {u : Unit} {record : Option GeneralSettingRecord}
    (h : answers StoredE2ee env () (.getGeneralSetting messageContentAuditModeKey) (.ok record) u) :
    storedMode MessageContentAuditMode.parse .plaintext record = .ok .e2ee := by
  obtain ⟨s, s', hs, hstep⟩ := h
  rcases henv _ _ _ _ hstep with ⟨now, -, hanswers⟩ | ⟨-, err, herr⟩
  · obtain rfl : record = s.settings messageContentAuditModeKey := hanswers record rfl
    exact hs
  · cases herr

theorem always_loadMessageRuntimeSettings :
    Action.Always (answers StoredE2ee env) (fun _ e => LateWrites e)
      (fun o _ => ∀ settings, o = .done settings → settings.contentAuditMode = .e2ee)
      loadMessageRuntimeSettings () := by
  refine Action.always_perform_bind.2 ⟨trivial, fun r u hr => ?_⟩
  rcases r with err | serverStorage
  · intro settings h
    cases h
  · refine Action.always_perform_bind.2 ⟨trivial, fun r u hr => ?_⟩
    rcases r with err | contentAudit
    · intro settings h
      cases h
    · have hmode := mode_of_answer henv hr
      dsimp only
      rw [hmode]
      cases storedMode MessageServerStorageMode.parse .persist serverStorage with
      | error err =>
        intro settings h
        cases h
      | ok serverStorageMode =>
        intro settings h
        cases h
        rfl

theorem always_isE2eeRuntime :
    Action.Always (answers StoredE2ee env) (fun _ e => LateWrites e)
      (fun o _ => ∀ e2ee, o = .done e2ee → e2ee = true) isE2eeRuntime () := by
  refine Action.always_perform_bind.2 ⟨trivial, fun r u hr => ?_⟩
  rcases r with err | setting
  · intro e2ee h
    cases h
  · have hmode := mode_of_answer henv hr
    dsimp only
    rw [hmode]
    intro e2ee h
    cases h
    rfl

theorem late_sendMessage (rfc3339 : ℤ → String) (roomId senderId : Uuid)
    (payload : SendMessagePayload) :
    Disciplined StoredE2ee env LateWrites (sendMessage rfc3339 roomId senderId payload) := by
  refine (always_loadMessageRuntimeSettings henv).bind (fun runtime u hruntime => ?_)
    (fun _ _ _ => trivial) (fun _ _ => trivial)
  have hmode := hruntime runtime rfl
  have hrefused : runtime.ensurePlaintextSending = .error
      (.messageRuntimeConflict "后台已开启加密发送，请刷新配置后使用加密消息接口") := by
    rw [MessageRuntimeSettings.ensurePlaintextSending, if_pos hmode]
  rw [hrefused]
  trivial

theorem late_forwardMessage (rfc3339 : ℤ → String) (roomId senderId originalMessageId : Uuid) :
    Disciplined StoredE2ee env LateWrites
      (forwardMessage rfc3339 roomId senderId originalMessageId) := by
  have hrelay : Disciplined StoredE2ee env LateWrites isRelayOnlyRuntime :=
    .of_uses (uses_isRelayOnlyRuntime fun _ => trivial)
  refine hrelay.bind (fun relayOnly u _ => ?_) (fun _ _ _ => trivial) (fun _ _ => trivial)
  refine (always_isE2eeRuntime henv).bind (fun e2ee u he2ee => ?_) (fun _ _ _ => trivial)
    (fun _ _ => trivial)
  rw [if_pos (he2ee e2ee rfl)]
  trivial

/-- What a request writes that comes while the mode is e2ee. -/
theorem ApiCall.late (rfc3339 : ℤ → String) (call : ApiCall) :
    Disciplined StoredE2ee env LateWrites (call.program rfc3339) := by
  cases call with
  | gate call => exact .of_uses ((call.uses.mono fun _ h => h.lateWrites).bind fun _ => trivial)
  | message call =>
    have hprogram : Disciplined StoredE2ee env LateWrites (call.program rfc3339) := by
      cases call with
      | send roomId senderId payload => exact late_sendMessage henv _ _ _ _
      | sendEncrypted roomId senderId payload => exact .of_uses (uses_sendEncrypted _ _ _ _)
      | forward roomId senderId originalMessageId => exact late_forwardMessage henv _ _ _ _
      | edit roomId messageId userId content => exact .of_uses (uses_editMessage _ _ _ _)
    exact hprogram.bind (fun _ _ _ => trivial) (fun _ _ _ => trivial) (fun _ _ => trivial)

end

/-! ## One write -/

/-- An edit brings an encrypted message nothing but the placeholder. -/
def UneditedSecret (s : ServiceState) : ServiceEffect → Prop
  | .message (.updateMessageContent messageId newContent) =>
    ∀ row, s.live messageId = some row → row.encryptedContent.isSome →
      newContent = encryptedMessagePlaceholder
  | _ => True

/-- An edit brings no message a text that is not its own, nor the placeholder. -/
def Unedited (s : ServiceState) : ServiceEffect → Prop
  | .message (.updateMessageContent messageId newContent) =>
    ∀ row, s.live messageId = some row →
      newContent = row.content ∨ newContent = encryptedMessagePlaceholder
  | _ => True

section

variable {s : ServiceState} {row : MessageRecord} {parts : List NewMessagePart}
  {messageId : Uuid} {newContent : String}

theorem insertMessage_cases (s : ServiceState) (row : MessageRecord)
    (parts : List NewMessagePart) :
    s.insertMessage row parts = s ∨
      (s.messages.get row.id = none ∧
        (s.insertMessage row parts).messages.rows = s.messages.rows ++ [row] ∧
        (s.insertMessage row parts).parts = Function.update s.parts row.id parts) := by
  unfold insertMessage
  cases hget : s.messages.get row.id with
  | some taken => exact .inl rfl
  | none => exact .inr ⟨rfl, Table.rows_insert_of_none hget, rfl⟩

theorem live_eq_some : s.live messageId = some row ↔
    s.messages.get messageId = some row ∧ row.deletedAt.isNone := by
  rw [live, Option.filter_eq_some_iff]

/-- An edit finds a message that is not deleted, or changes nothing. -/
theorem updateMessageContent_cases (s : ServiceState) (messageId : Uuid) (newContent : String)
    (now : Timestamp) :
    (s.live messageId = none ∧ s.updateMessageContent messageId newContent now = s) ∨
      ∃ row, s.live messageId = some row ∧ row ∈ s.messages.rows ∧ row.id = messageId ∧
        s.updateMessageContent messageId newContent now =
          { s with messages := s.messages.put (row.edited newContent now) } := by
  unfold updateMessageContent
  cases hlive : s.live messageId with
  | none => exact .inl ⟨rfl, rfl⟩
  | some row =>
    obtain ⟨hget, -⟩ := live_eq_some.mp hlive
    exact .inr ⟨row, rfl, Table.mem_of_get hget, Table.key_of_get hget, rfl⟩

theorem Hidden.insertMessage (h : Hidden s)
    (hrow : row.encryptedContent.isSome → row.content = encryptedMessagePlaceholder ∧
      ∀ part ∈ parts, part.textContent = some encryptedMessagePlaceholder) :
    Hidden (s.insertMessage row parts) := by
  obtain heq | ⟨hnew, hrows, hparts⟩ := insertMessage_cases s row parts
  · rwa [heq]
  · intro row' hmem hsecret
    rw [hparts]
    rw [hrows] at hmem
    rcases List.mem_append.mp hmem with hmem | hmem
    · have hne : row'.id ≠ row.id := Table.get_eq_none_iff.mp hnew row' hmem
      rw [Function.update_of_ne hne]
      exact h row' hmem hsecret
    · obtain rfl := List.mem_singleton.mp hmem
      rw [Function.update_self]
      exact hrow hsecret

/-- A message is put in that shows the placeholder only. -/
theorem storesNoPlaintext_insertMessage (hrow : row.content = encryptedMessagePlaceholder)
    (hparts : ∀ part ∈ parts, part.textContent = some encryptedMessagePlaceholder) :
    StoresNoPlaintext s (s.insertMessage row parts) := by
  obtain heq | ⟨-, hrows, hupdate⟩ := insertMessage_cases s row parts
  · rw [heq]
    exact ⟨fun row' hmem => .inr ⟨row', hmem, rfl, rfl⟩, fun _ _ hpart => .inl hpart⟩
  · refine ⟨fun row' hmem => ?_, fun id part hpart => ?_⟩
    · rw [hrows] at hmem
      rcases List.mem_append.mp hmem with hmem | hmem
      · exact .inr ⟨row', hmem, rfl, rfl⟩
      · obtain rfl := List.mem_singleton.mp hmem
        exact .inl hrow
    · rw [hupdate] at hpart
      by_cases hid : id = row.id
      · subst hid
        rw [Function.update_self] at hpart
        exact .inr (hparts part hpart)
      · rw [Function.update_of_ne hid] at hpart
        exact .inl hpart

theorem StoresNoPlaintext.refl (s : ServiceState) : StoresNoPlaintext s s :=
  ⟨fun row' hmem => .inr ⟨row', hmem, rfl, rfl⟩, fun _ _ hpart => .inl hpart⟩

theorem hidden_updateMessageContent_iff (h : Hidden s) (now : Timestamp) :
    Hidden (s.updateMessageContent messageId newContent now) ↔
      UneditedSecret s (.message (.updateMessageContent messageId newContent)) := by
  show _ ↔ ∀ row, s.live messageId = some row → row.encryptedContent.isSome →
    newContent = encryptedMessagePlaceholder
  obtain ⟨hlive, heq⟩ | ⟨row, hlive, hmem, rfl, heq⟩ :=
    updateMessageContent_cases s messageId newContent now
  · rw [heq, hlive]
    refine iff_of_true h ?_
    intro row hrow
    cases hrow
  · rw [heq, hlive]
    constructor
    · rintro hhidden row' ⟨⟩ hsecret
      exact (hhidden (row.edited newContent now) (Table.mem_put_self _ _) hsecret).1
    · intro hcontent row' hmem' hsecret
      rcases Table.mem_put hmem' with ⟨hold, -⟩ | rfl
      · exact h row' hold hsecret
      · exact ⟨hcontent row rfl hsecret, (h row hmem hsecret).2⟩

theorem storesNoPlaintext_updateMessageContent_iff (now : Timestamp) :
    StoresNoPlaintext s (s.updateMessageContent messageId newContent now) ↔
      Unedited s (.message (.updateMessageContent messageId newContent)) := by
  show _ ↔ ∀ row, s.live messageId = some row →
    newContent = row.content ∨ newContent = encryptedMessagePlaceholder
  obtain ⟨hlive, heq⟩ | ⟨row, hlive, hmem, rfl, heq⟩ :=
    updateMessageContent_cases s messageId newContent now
  · rw [heq, hlive]
    refine iff_of_true (.refl s) ?_
    intro row hrow
    cases hrow
  · rw [heq, hlive]
    constructor
    · rintro ⟨hrows, -⟩ row' ⟨⟩
      rcases hrows (row.edited newContent now) (Table.mem_put_self _ _) with
        hplaceholder | ⟨row', hmem', hid, hcontent⟩
      · exact .inr hplaceholder
      · obtain rfl := Table.eq_of_key_eq hmem' hmem hid
        exact .inl hcontent.symm
    · intro hcontent
      refine ⟨fun row' hmem' => ?_, fun _ _ hpart => .inl hpart⟩
      rcases Table.mem_put hmem' with ⟨hold, -⟩ | rfl
      · exact .inr ⟨row', hold, rfl, rfl⟩
      · rcases hcontent row rfl with hsame | hplaceholder
        · exact .inr ⟨row, hmem, rfl, hsame.symm⟩
        · exact .inl hplaceholder

theorem mem_placeholderParts {part : NewMessagePart} (h : part ∈ placeholderParts) :
    part.textContent = some encryptedMessagePlaceholder := by
  obtain rfl := List.mem_singleton.mp h
  rfl

/-- **A write** of a request keeps the encrypted messages hidden just where it is no edit that
uncovers one. -/
theorem hidden_iff {e : ServiceEffect} (now : Timestamp) (h : Hidden s) (he : Writes e) :
    Hidden (s.apply now e) ↔ UneditedSecret s e := by
  cases e with
  | message e =>
    show Hidden (s.applyMessage now e) ↔ _
    unfold applyMessage
    cases e with
    | createMessageWithParts | createForwardMessage =>
      refine iff_of_true (h.insertMessage ?_) trivial
      intro hsecret
      cases hsecret
    | createEncryptedMessageWithParts input =>
      refine iff_of_true ?_ trivial
      obtain ⟨hcontent, hparts⟩ : input.Veiled := he
      dsimp only
      unfold ServiceState.createEncryptedMessage
      cases s.findEncrypted input with
      | some existing => exact h
      | none =>
        refine h.insertMessage fun _ => ⟨hcontent, fun part hpart => ?_⟩
        rw [hparts] at hpart
        exact mem_placeholderParts hpart
    | updateMessageContent messageId newContent => exact hidden_updateMessageContent_iff h now
    | _ => exact iff_of_true h trivial
  | upsertGeneralSettingsAtomic settings updatedBy =>
    obtain ⟨hmessages, hparts⟩ := s.upsertSettings_aside updatedBy now settings
    refine iff_of_true ?_ trivial
    show Hidden (settings.foldl (upsertSetting updatedBy now) s)
    unfold Hidden
    rwa [hmessages, hparts]
  | _ => exact iff_of_true h trivial

/-- **A write** of a request that comes in e2ee mode stores plaintext just where it is an edit
of a message. -/
theorem storesNoPlaintext_iff {e : ServiceEffect} (now : Timestamp) (he : LateWrites e) :
    StoresNoPlaintext s (s.apply now e) ↔ Unedited s e := by
  cases e with
  | message e =>
    show StoresNoPlaintext s (s.applyMessage now e) ↔ _
    unfold applyMessage
    cases e with
    | createMessageWithParts | createForwardMessage => cases he
    | createEncryptedMessageWithParts input =>
      refine iff_of_true ?_ trivial
      obtain ⟨hcontent, hparts⟩ : input.Veiled := he
      dsimp only
      unfold ServiceState.createEncryptedMessage
      cases s.findEncrypted input with
      | some existing => exact .refl s
      | none =>
        refine storesNoPlaintext_insertMessage hcontent fun part hpart => ?_
        rw [hparts] at hpart
        exact mem_placeholderParts hpart
    | updateMessageContent messageId newContent =>
      exact storesNoPlaintext_updateMessageContent_iff now
    | _ => exact iff_of_true (.refl s) trivial
  | upsertGeneralSettingsAtomic settings updatedBy =>
    obtain ⟨hmessages, hparts⟩ := s.upsertSettings_aside updatedBy now settings
    refine iff_of_true ?_ trivial
    show StoresNoPlaintext s (settings.foldl (upsertSetting updatedBy now) s)
    unfold StoresNoPlaintext
    rw [hmessages, hparts]
    exact StoresNoPlaintext.refl s
  | _ => exact iff_of_true (.refl s) trivial

end

/-! ## Every run -/

abbrev ApiPool : Type := Pool Service ServiceState (GateReply ⊕ SentMessage)

/-- The statements of any number of requests, in the order they are carried out. -/
abbrev ApiReach (rfc3339 : ℤ → String) (env : Env Service ServiceState) :
    ApiPool → ApiPool → Prop :=
  Reach env (IsApiCall rfc3339)

/-- Requests in any mode keep the encrypted messages hidden. -/
theorem hidden_reach {rfc3339 : ℤ → String} {pool pool' : ApiPool}
    (h : ApiReach rfc3339 (serviceEnv.guard UneditedSecret) pool pool') (hI : Hidden pool.world)
    (hp : ∀ p ∈ pool.running, Disciplined Hidden (serviceEnv.guard UneditedSecret) Writes p) :
    Hidden pool'.world ∧
      ∀ p ∈ pool'.running, Disciplined Hidden (serviceEnv.guard UneditedSecret) Writes p := by
  have hadmitted : ∀ p, IsApiCall rfc3339 p →
      Disciplined Hidden (serviceEnv.guard UneditedSecret) Writes p := by
    rintro p ⟨call, rfl⟩
    exact .of_uses (call.uses rfc3339)
  have hkeep : ∀ s e r s', Hidden s → Writes e → serviceEnv.guard UneditedSecret s e r s' →
      Hidden s' := by
    rintro s e r s' hs he ⟨hunedited, ⟨now, rfl, -⟩ | ⟨rfl, -⟩⟩
    · exact (hidden_iff now hs he).mpr hunedited
    · exact hs
  exact Disciplined.holds hadmitted hkeep h hI hp

/-- **No plaintext in e2ee mode.**  Requests and administrators act at the same time, from some
state; from some point on the mode is e2ee.  Then the encrypted messages show the placeholder,
as long as no edit has brought one of them another text; and what a request has stored that came
after that point is no plaintext, just where it is no edit that brings a message another text. -/
theorem plaintext_exclusion (rfc3339 : ℤ → String) {s₀ : ServiceState} (h₀ : Hidden s₀)
    {before pool : ApiPool}
    (hbefore : ApiReach rfc3339 (serviceEnv.guard UneditedSecret) ⟨s₀, []⟩ before)
    (hafter : ApiReach rfc3339 (within StoredE2ee (serviceEnv.guard UneditedSecret)) before pool) :
    Hidden pool.world ∧
      (∀ e now, pool.Awaits e → (Hidden (pool.world.apply now e) ↔ UneditedSecret pool.world e)) ∧
      ∀ e now, pool.AwaitsFrom before.running.length e →
        (StoresNoPlaintext pool.world (pool.world.apply now e) ↔ Unedited pool.world e) := by
  obtain ⟨hhidden, hrunning⟩ := hidden_reach hbefore h₀ (List.forall_mem_nil _)
  obtain ⟨hhidden, hrunning⟩ := hidden_reach (hafter.of_within) hhidden hrunning
  refine ⟨hhidden, fun e now he => ?_, fun e now he => ?_⟩
  · exact hidden_iff now hhidden (Disciplined.awaits hrunning he)
  · have hadmitted : ∀ p, IsApiCall rfc3339 p →
        Disciplined StoredE2ee (serviceEnv.guard UneditedSecret) LateWrites p := by
      rintro p ⟨call, rfl⟩
      exact call.late (fun _ _ _ _ h => h.2) rfc3339
    exact storesNoPlaintext_iff now (Disciplined.since hadmitted hafter he)

/-! ## An edit of an encrypted message -/

/-- The mode is e2ee, and room 7 has one encrypted message, of user 5. -/
def oneSecret : ServiceState :=
  { approved.upsertSetting none 0 (contentAuditModeInput .e2ee) with
    messages := Table.empty.insert (NewEncryptedMessage.row
      { messageId := 40
        roomId := 7
        senderId := 5
        contentSummary := encryptedMessagePlaceholder
        messageType := .text
        quotedMessageId := none
        parts := placeholderParts
        encryptedContent := [1]
        encryptionMetadata := ⟨1, 1, 21, .application, some 30⟩
        idempotencyKey := 50
        senderDeviceId := 21
        epoch := 1
        controlMessageId := 30 } 0)
    parts := fun _ => placeholderParts }

/-- What an edit awaits is answered; nothing else is. -/
def editsOnly : Handler Service ServiceState
  | s, .getGeneralSetting key => (.ok (s.settings key), s)
  | s, .message (.userInRoom _ _) => (.ok true, s)
  | s, .message (.getMessageWithSender messageId) =>
    (.ok ((s.messages.get messageId).map fun row => ⟨row, "user", none⟩), s)
  | s, .message (.getMessageParts messageId) => (.ok (s.parts messageId), s)
  | s, .message (.updateMessageContent messageId newContent) =>
    (.ok ((s.updateMessageContent messageId newContent 1).live messageId),
      s.updateMessageContent messageId newContent 1)
  | s, _ => (.error .databaseError, s)

theorem serviceEnv_editsOnly {s s' : ServiceState} {r : Service.Answer e}
    (h : editsOnly.env s e r s') : serviceEnv s e r s' := by
  cases e with
  | getGeneralSetting key =>
    cases h
    exact .inl ⟨0, rfl, fun a ha => (Except.ok.inj ha).symm⟩
  | message e =>
    cases e with
    | userInRoom roomId userId =>
      cases h
      exact .inl ⟨0, rfl, fun a ha => trivial⟩
    | getMessageWithSender messageId =>
      cases h
      refine .inl ⟨0, rfl, fun a ha => ?_⟩
      cases ha
      show ((s.messages.get messageId).map _).map _ = _
      rw [Option.map_map]
      exact congrFun Option.map_id _
    | getMessageParts messageId =>
      cases h
      exact .inl ⟨0, rfl, fun a ha => (Except.ok.inj ha).symm⟩
    | updateMessageContent messageId newContent =>
      cases h
      exact .inl ⟨1, rfl, fun a ha => (Except.ok.inj ha).symm⟩
    | _ =>
      cases h
      exact .inr ⟨rfl, .databaseError, rfl⟩
  | _ =>
    cases h
    exact .inr ⟨rfl, .databaseError, rfl⟩

theorem settings_editsOnly (s : ServiceState) (e : ServiceEffect) :
    (editsOnly s e).2.settings = s.settings := by
  cases e with
  | message e =>
    cases e with
    | updateMessageContent messageId newContent =>
      exact (s.applyMessage_aside 1 (.updateMessageContent messageId newContent)).2
    | _ => rfl
  | _ => rfl

theorem storedE2ee_editsOnly {s s' : ServiceState} {r : Service.Answer e} (hs : StoredE2ee s)
    (h : editsOnly.env s e r s') : StoredE2ee s' := by
  obtain rfl : (editsOnly s e).2 = s' := congrArg Prod.snd h
  unfold StoredE2ee
  rwa [settings_editsOnly]

theorem hidden_oneSecret : Hidden oneSecret := by
  intro row hrow _
  have hcontent : ∀ row ∈ oneSecret.messages.rows, row.content = encryptedMessagePlaceholder := by
    decide +kernel
  exact ⟨hcontent row hrow, fun part hpart => mem_placeholderParts hpart⟩

theorem storedE2ee_oneSecret : StoredE2ee oneSecret := by
  show StoredE2ee (approved.upsertSetting none 0 (contentAuditModeInput .e2ee))
  exact storedE2ee_upsertSetting.mpr rfl

/-- A request to edit the encrypted message has come in. -/
theorem plaintext_exclusion_sample :
    Hidden oneSecret ∧ (Hidden (oneSecret.apply 1 (.message (.userInRoom 7 5))) ↔
      UneditedSecret oneSecret (.message (.userInRoom 7 5))) := by
  obtain ⟨hhidden, hany, -⟩ := plaintext_exclusion (fun _ => "") hidden_oneSecret
    .refl (.single (.begin oneSecret [] ⟨.message (.edit 7 40 5 "hello"), rfl⟩))
  exact ⟨hhidden, hany _ 1 ⟨_, List.mem_cons_self⟩⟩

/-- User 5 edits the encrypted message, and the server stores what is sent. -/
theorem plaintext_edited :
    ¬ ∀ (rfc3339 : ℤ → String) (s₀ : ServiceState) (before pool : ApiPool), Hidden s₀ →
      ApiReach rfc3339 serviceEnv ⟨s₀, []⟩ before →
      ApiReach rfc3339 (within StoredE2ee serviceEnv) before pool → Hidden pool.world := by
  intro h
  obtain ⟨events, hrun⟩ := Action.run_exec (h := editsOnly)
    (ApiCall.program (fun _ => "") (.message (.edit 7 40 5 "hello"))) oneSecret
  have hwithin : Action.Run (within StoredE2ee serviceEnv) _ _ _ _ _ :=
    (within_run hrun storedE2ee_oneSecret fun _ _ _ _ => storedE2ee_editsOnly).mono
      fun _ _ _ _ hstep => ⟨hstep.1, serviceEnv_editsOnly hstep.2.1, hstep.2.2⟩
  have hhidden := h (fun _ => "") oneSecret _ _ hidden_oneSecret .refl
    (Reach.run hwithin ⟨_, rfl⟩ [])
  have hedited : ∃ row ∈ (Action.exec editsOnly
      (ApiCall.program (fun _ => "") (.message (.edit 7 40 5 "hello"))) oneSecret).2.messages.rows,
      row.encryptedContent.isSome ∧ row.content ≠ encryptedMessagePlaceholder := by
    decide +kernel
  obtain ⟨row, hrow, hsecret, hcontent⟩ := hedited
  exact hcontent (hhidden row hrow hsecret).1

end RedcodeIm
