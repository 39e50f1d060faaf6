import RedcodeIm.Runtime.PlaintextExclusion

/-!
# Deleting messages

`delete_message` and `clear_room_messages` of `handlers/message.rs`, next to the handlers that
send and edit.

* `ChatEffect`, `Chat` — what these handlers await besides what the others do.
* `ServiceState.markMessageDeleted`, `markRoomMessagesDeleted` — the two statements.
* `chatEnv` — what the effects do and answer.
* `deleteMessage`, `clearRoomMessages` — the handlers; `ChatCall` — a request for any of them.
-/

namespace RedcodeIm

open Awaiting

/-! ## Effects -/

/-- What the handlers that delete await. -/
inductive ChatEffect where
  | service (e : ServiceEffect)
  /-- The type and the owner of a room that is not deleted. -/
  | loadRoom (roomId : Uuid)
  | markMessageDeleted (messageId : Uuid)
  | markRoomMessagesDeleted (roomId : Uuid)
  | removeRoomPin (roomId : Uuid) (messageId : Option Uuid)
  | broadcastUnpinned (roomId messageId : Uuid)
  | broadcastDeleted (roomId messageId : Uuid) (deletedAt : Option Timestamp)
  | broadcastHistoryCleared (roomId clearedBy : Uuid) (clearedAt : Timestamp)

abbrev ChatEffect.Reply : ChatEffect → Type
  | .service e => e.Reply
  | .loadRoom _ => RoomType × Uuid
  | .markMessageDeleted _ => Option MessageRecord
  | .markRoomMessagesDeleted _ => ℕ
  | .removeRoomPin .. => ℕ
  | .broadcastUnpinned .. => Unit
  | .broadcastDeleted .. => Unit
  | .broadcastHistoryCleared .. => Unit

abbrev Chat : Signature := ⟨ChatEffect, ChatEffect.Reply, AppError⟩

abbrev ChatAction (α : Type) : Type := Action Chat α

def awaitChat (e : ChatEffect) : ChatAction e.Reply := Action.perform (S := Chat) e

/-- A program of the service among those of the chat. -/
def ofService {α : Type} : ServiceAction α → ChatAction α
  | .done a => .done a
  | .fail err => .fail err
  | .spent => .spent
  | .await e k => .await (.service e) fun r => ofService (k r)

/-- `mark_message_deleted`. -/
def ServiceState.markMessageDeleted (s : ServiceState) (messageId : Uuid) (now : Timestamp) :
    ServiceState :=
  match s.live messageId with
  | some row => { s with messages := s.messages.put { row with deletedAt := some now } }
  | none => s

/-- The messages of a room that are not deleted. -/
def ServiceState.liveMessages (s : ServiceState) (roomId : Uuid) : List MessageRecord :=
  s.messages.rows.filter fun row => row.roomId = roomId ∧ row.deletedAt.isNone

/-- `mark_room_messages_deleted`. -/
def ServiceState.markRoomMessagesDeleted (s : ServiceState) (roomId : Uuid) (now : Timestamp) :
    ServiceState :=
  (s.liveMessages roomId).foldl (fun s row => s.markMessageDeleted row.id now) s

/-- What is in the tables after an effect. -/
def ServiceState.applyChat (s : ServiceState) (now : Timestamp) : ChatEffect → ServiceState
  | .service e => s.apply now e
  | .markMessageDeleted messageId => s.markMessageDeleted messageId now
  | .markRoomMessagesDeleted roomId => s.markRoomMessagesDeleted roomId now
  | _ => s

/-- What an effect answers, from the tables before and after it. -/
def ChatEffect.Answers (s s' : ServiceState) : (e : ChatEffect) → e.Reply → Prop
  | .service e, a => ServiceEffect.Answers s s' e a
  | .markMessageDeleted messageId, row =>
    row = (s.live messageId).bind fun _ => s'.messages.get messageId
  | .markRoomMessagesDeleted roomId, count => count = (s.liveMessages roomId).length
  | _, _ => True

/-- An effect is carried out and answered; or it fails, carried out or not. -/
def chatEnv : Env Chat ServiceState := fun s e r s' =>
  (∃ now, s' = s.applyChat now e ∧ ∀ a, r = .ok a → ChatEffect.Answers s s' e a) ∨
    (s' = s ∧ ∃ err, r = .error err)

/-! ## The handlers -/

/-- An effect whose failure is only logged. -/
def ignoringChat {α : Type} (p : ChatAction α) : ChatAction Unit := do
  let _ ← p.attempt
  return ()

/-- The message is one the user may delete. -/
def checkDeletable (roomId userId : Uuid) (existing : MessageRecord) : Except AppError Unit :=
  if existing.roomId ≠ roomId then .error (.validationError "消息不属于当前房间")
  else if existing.senderId ≠ userId then .error (.forbidden "仅支持删除自己发送的消息")
  else .ok ()

def deleteMessage (roomId messageId userId : Uuid) : ChatAction SentMessage := do
  ofService (ensureMember roomId userId "用户不在该房间，无法删除消息")
  if ← ofService isRelayOnlyRuntime then .fail (relayOnlyUnsupported "删除消息")
  else
    let existing ← ofService (awaitMessage (.getMessageWithSender messageId))
    let existing ← ofService (okOr (.validationError "消息不存在") existing)
    ofService (ensure (checkDeletable roomId userId existing.message))
    let marked ← awaitChat (.markMessageDeleted messageId)
    let _ ← ofService (okOr (.validationError "消息已删除") marked)
    let removed ← awaitChat (.removeRoomPin roomId (some messageId))
    ignoringChat (if 0 < removed then awaitChat (.broadcastUnpinned roomId messageId) else .done ())
    let updated ← ofService (awaitMessage (.getMessageWithSender messageId))
    let updated ← ofService (okOr (.internalError "消息删除后加载失败") updated)
    ignoringChat (awaitChat (.broadcastDeleted roomId messageId updated.message.deletedAt))
    let parts ← ofService (awaitMessage (.getMessageParts updated.message.id))
    return ⟨updated, parts⟩

/-- `clear_room_messages`; the texts of its errors are looked up under these names. -/
def clearRoomMessages (roomId userId : Uuid) : ChatAction ℕ := do
  ofService (ensureMember roomId userId "message.clear_room_membership_required")
  if ← ofService isRelayOnlyRuntime then .fail (relayOnlyUnsupported "清空聊天记录")
  else
    match ← (awaitChat (.loadRoom roomId)).attempt with
    | .error _ => .fail (.notFound "message.clear_room_not_found")
    | .ok (roomType, ownerId) =>
      if roomType ≠ .privateChat ∧ ownerId ≠ userId then
        .fail (.forbidden "message.clear_group_owner_only")
      else
        let deletedCount ← awaitChat (.markRoomMessagesDeleted roomId)
        ignoringChat (awaitChat (.removeRoomPin roomId none))
        let now ← ofService (await .utcNow)
        ignoringChat (awaitChat (.broadcastHistoryCleared roomId userId now))
        return deletedCount

/-! ## Requests -/

/-- A request that sends, forwards, edits or deletes, or a call of an administrator. -/
inductive ChatCall where
  | api (call : ApiCall)
  | delete (roomId messageId userId : Uuid)
  | clear (roomId userId : Uuid)

def ChatCall.program (rfc3339 : ℤ → String) :
    ChatCall → ChatAction ((GateReply ⊕ SentMessage) ⊕ ℕ)
  | .api call => do return .inl (← ofService (call.program rfc3339))
  | .delete roomId messageId userId => do
    return .inl (.inr (← deleteMessage roomId messageId userId))
  | .clear roomId userId => do return .inr (← clearRoomMessages roomId userId)

def IsChatCall (rfc3339 : ℤ → String) (p : ChatAction ((GateReply ⊕ SentMessage) ⊕ ℕ)) : Prop :=
  ∃ call : ChatCall, p = call.program rfc3339

end RedcodeIm
