import RedcodeIm.Lib.Base64
import RedcodeIm.PubSub.Encoding

/-!
# What the server pushes

`ServerPush` of `websocket/protocol.rs`, and its two encodings.

* `ServerPush` — the pushes.
* `toJsonValue` — a push as a JSON value.
* `toProtobufEvent` — a push as a message of `ws.proto`.
-/

namespace RedcodeIm

/-! ## Pushes -/

/-- `RoomCreatedPayload`. -/
structure RoomCreatedPayload where
  roomId : Uuid
  roomName : String
  roomType : String
  initiatorId : Uuid
  ownerId : Uuid
  description : Option String
  avatarUrl : Option String
  createdAt : Option Timestamp

/-- `RoomUpdatedPayload`. -/
structure RoomUpdatedPayload where
  roomId : Uuid
  roomName : String
  roomType : String
  avatarUrl : Option String
  avatarObjectKey : Option String
  description : Option String

/-- `ServerPush`. -/
inductive ServerPush where
  | authed (userId connId : String)
  | joined (roomId : Uuid)
  | left (roomId : Uuid)
  | message (data : CrossNodeMessage)
  | messageRead (data : ReadReceiptEvent)
  | messageUpdate (data : MessageUpdatePayload)
  | pinUpdate (data : PinUpdatePayload)
  | error (message : String)
  | pong
  | friendRequestUpdate (pendingCount : Int32)
  | roomCreated (data : RoomCreatedPayload)
  | roomUpdated (data : RoomUpdatedPayload)
  | userBanned (userId reason : String)
  | groupDissolved (roomId : String)
  | groupOwnerTransferred (roomId oldOwnerId newOwnerId : String)
  | groupSettingsUpdated (roomId : Uuid) (globalMuteEnabled : Bool)
      (globalMuteReason globalMuteUntil globalMuteSetBy : Option String)
  | groupMemberChanged (roomId memberId : Uuid) (changeType : String) (newRole : Option String)
      (operatorId : Option Uuid) (reason untilAt : Option String)
  | roomHistoryCleared (roomId : Uuid) (clearedBy : Option Uuid) (clearedAt : String)
  | friendshipDeleted (userId : String)
  | friendProfileUpdated (userId : String)
      (username nickname avatarUrl avatarObjectKey : Option String)
  | reactionUpdate (data : ReactionUpdatePayload)
  | typingUpdate (data : TypingUpdatePayload)
  | qrStatusChanged (qrId : Uuid) (status : String) (loginCode : Option String)
  | groupAnnouncementUpdated (roomId : Uuid) (content : Option String) (updatedBy : Uuid)
      (updatedAt : String)

/-! ## JSON -/

/-- What `json!` makes of an `Option`. -/
def Value.ofOption {α : Type} (value : α → Value) (o : Option α) : Value := (o.map value).getD .null

/-- An integer. -/
def Value.int (n : ℤ) : Value := .number n

variable (c : Codec)

/-- What `json!` makes of an identifier: its text. -/
def Value.uuid (id : Uuid) : Value := .string (c.uuidText id)

/-- The text of a time. -/
def Value.time (t : Timestamp) : Value := .string (c.toRfc3339 t)

def attachmentToJson (att : MessageAttachmentEnvelope) : Value :=
  .object
    [("key", .ofOption .string att.key),
      ("name", .ofOption .string att.name),
      ("mime", .ofOption .string att.mime),
      ("size", .ofOption (.int ·.toInt) att.size),
      ("width", .ofOption (.int ·.toInt) att.width),
      ("height", .ofOption (.int ·.toInt) att.height),
      ("duration_ms", .ofOption (.int ·.toInt) att.durationMs),
      ("thumbnail_key", .ofOption .string att.thumbnailKey)]

def partToJson (part : MessagePartEnvelope) : Value :=
  .object
    [("position", .int part.position.toInt),
      ("part_type", .string part.partType.display),
      ("text", .ofOption .string part.text),
      ("attachment", .ofOption attachmentToJson part.attachment)]

def quotedToJson (payload : QuotedMessagePayload) : Value :=
  .object
    [("id", .uuid c payload.id),
      ("room_id", .uuid c payload.roomId),
      ("sender_id", .uuid c payload.senderId),
      ("sender_username", .ofOption .string payload.senderUsername),
      ("sender_nickname", .ofOption .string payload.senderNickname),
      ("sender_avatar_url", .ofOption .string payload.senderAvatarUrl),
      ("content", .ofOption .string payload.content),
      ("message_type", .string payload.messageType.display),
      ("created_at", .ofOption (.time c) payload.createdAt),
      ("is_deleted", .bool payload.isDeleted),
      ("parts", .array (payload.parts.map partToJson))]

def forwardToJson (payload : ForwardMessagePayload) : Value :=
  .object
    [("message_id", .uuid c payload.messageId),
      ("room_id", .uuid c payload.roomId),
      ("sender_id", .uuid c payload.senderId),
      ("sender_username", .ofOption .string payload.senderUsername),
      ("sender_nickname", .ofOption .string payload.senderNickname)]

/-- **`to_json_value`**. -/
def ServerPush.toJsonValue : ServerPush → Value
  | .authed userId connId =>
    .object [("type", .string "authed"), ("user_id", .string userId), ("conn_id", .string connId)]
  | .joined roomId => .object [("type", .string "joined"), ("room_id", .uuid c roomId)]
  | .left roomId => .object [("type", .string "left"), ("room_id", .uuid c roomId)]
  | .message data =>
    .object
      [("type", .string "message"),
        ("id", .uuid c data.id),
        ("message_id", .uuid c data.id),
        ("room_id", .uuid c data.roomId),
        ("sender_id", .uuid c data.senderId),
        ("sender_username", .ofOption .string data.senderUsername),
        ("sender_nickname", .ofOption .string data.senderNickname),
        ("sender_avatar_url", .ofOption .string data.senderAvatarUrl),
        ("content", .string data.content),
        ("encrypted_content",
          .ofOption (fun raw => .string (Base64.encodeText raw)) data.encryptedContent),
        ("encryption_metadata", .ofOption id data.encryptionMetadata),
        ("message_type", .string data.messageType.display),
        ("quoted_message", .ofOption (quotedToJson c) data.quotedMessage),
        ("forward_message", .ofOption (forwardToJson c) data.forwardMessage),
        ("timestamp", .time c data.timestamp),
        ("parts", .array (data.parts.map partToJson))]
  | .messageRead data =>
    .object
      [("type", .string "message_read"),
        ("room_id", .uuid c data.roomId),
        ("message_id", .uuid c data.messageId),
        ("reader_id", .uuid c data.readerId),
        ("read_at", .time c data.readAt)]
  | .messageUpdate data =>
    .object
      [("type", .string "message_update"),
        ("room_id", .uuid c data.roomId),
        ("message_id", .uuid c data.messageId),
        ("is_deleted", .bool data.isDeleted),
        ("deleted_at", .ofOption (.time c) data.deletedAt)]
  | .pinUpdate data =>
    .object
      [("type", .string "pin_update"),
        ("room_id", .uuid c data.roomId),
        ("message_id", .ofOption (.uuid c) data.messageId),
        ("is_pinned", .bool data.isPinned),
        ("pinned_at", .ofOption (.time c) data.pinnedAt),
        ("pinned_by", .ofOption (.uuid c) data.pinnedBy)]
  | .error text => .object [("type", .string "error"), ("message", .string text)]
  | .pong => .object [("type", .string "pong")]
  | .friendRequestUpdate pendingCount =>
    .object [("type", .string "friend_request_update"), ("pending_count", .int pendingCount.toInt)]
  | .roomCreated data =>
    .object
      [("type", .string "room_created"),
        ("room_id", .uuid c data.roomId),
        ("room_name", .string data.roomName),
        ("room_type", .string data.roomType),
        ("initiator_id", .uuid c data.initiatorId),
        ("owner_id", .uuid c data.ownerId),
        ("description", .ofOption .string data.description),
        ("avatar_url", .ofOption .string data.avatarUrl),
        ("created_at", .ofOption (.time c) data.createdAt)]
  | .roomUpdated data =>
    .object
      [("type", .string "room_updated"),
        ("room_id", .uuid c data.roomId),
        ("room_name", .string data.roomName),
        ("room_type", .string data.roomType),
        ("avatar_url", .ofOption .string data.avatarUrl),
        ("avatar_object_key", .ofOption .string data.avatarObjectKey),
        ("description", .ofOption .string data.description)]
  | .userBanned userId reason =>
    .object
      [("type", .string "user_banned"), ("user_id", .string userId), ("reason", .string reason)]
  | .groupDissolved roomId =>
    .object [("type", .string "group_dissolved"), ("room_id", .string roomId)]
  | .groupOwnerTransferred roomId oldOwnerId newOwnerId =>
    .object
      [("type", .string "group_owner_transferred"),
        ("room_id", .string roomId),
        ("old_owner_id", .string oldOwnerId),
        ("new_owner_id", .string newOwnerId)]
  | .groupSettingsUpdated roomId globalMuteEnabled globalMuteReason globalMuteUntil
      globalMuteSetBy =>
    .object
      [("type", .string "group_settings_updated"),
        ("room_id", .uuid c roomId),
        ("global_mute_enabled", .bool globalMuteEnabled),
        ("global_mute_reason", .ofOption .string globalMuteReason),
        ("global_mute_until", .ofOption .string globalMuteUntil),
        ("global_mute_set_by", .ofOption .string globalMuteSetBy)]
  | .groupMemberChanged roomId memberId changeType newRole operatorId reason untilAt =>
    .object
      [("type", .string "group_member_changed"),
        ("room_id", .uuid c roomId),
        ("member_id", .uuid c memberId),
        ("change_type", .string changeType),
        ("new_role", .ofOption .string newRole),
        ("operator_id", .ofOption (.uuid c) operatorId),
        ("reason", .ofOption .string reason),
        ("until", .ofOption .string untilAt)]
  | .roomHistoryCleared roomId clearedBy clearedAt =>
    .object
      [("type", .string "room_history_cleared"),
        ("room_id", .uuid c roomId),
        ("cleared_by", .ofOption (.uuid c) clearedBy),
        ("cleared_at", .string clearedAt)]
  | .friendshipDeleted userId =>
    .object [("type", .string "friendship_deleted"), ("user_id", .string userId)]
  | .friendProfileUpdated userId username nickname avatarUrl avatarObjectKey =>
    .object
      [("type", .string "friend_profile_updated"),
        ("user_id", .string userId),
        ("username", .ofOption .string username),
        ("nickname", .ofOption .string nickname),
        ("avatar_url", .ofOption .string avatarUrl),
        ("avatar_object_key", .ofOption .string avatarObjectKey)]
  | .reactionUpdate data =>
    .object
      [("type", .string "reaction_update"),
        ("room_id", .uuid c data.roomId),
        ("message_id", .uuid c data.messageId),
        ("reaction_key", .string data.reactionKey),
        ("user_id", .uuid c data.userId),
        ("action", .string data.action.display)]
  | .typingUpdate data =>
    .object
      [("type", .string "typing_update"),
        ("room_id", .uuid c data.roomId),
        ("user_id", .uuid c data.userId),
        ("is_typing", .bool data.isTyping),
        ("expires_in_ms", .int data.expiresInMs.toInt)]
  | .qrStatusChanged qrId status loginCode =>
    .object
      [("type", .string "qr_status_changed"),
        ("qr_id", .uuid c qrId),
        ("status", .string status),
        ("login_code", .ofOption .string loginCode)]
  | .groupAnnouncementUpdated roomId content updatedBy updatedAt =>
    .object
      [("type", .string "group_announcement_updated"),
        ("room_id", .uuid c roomId),
        ("content", .ofOption .string content),
        ("updated_by", .uuid c updatedBy),
        ("updated_at", .string updatedAt)]

/-! ## Protocol buffers -/

/-- The value of a field of a message that is sent to clients. -/
inductive Ws.Field where
  | string (text : String)
  | optional (text : Option String)
  | int (n : ℤ)
  | bool (b : Bool)
  | bytes (raw : List UInt8)
  | quoted (msg : Option Ws.QuotedMessage)
  | forward (msg : Option Ws.ForwardMessage)
  | parts (parts : List Ws.MessagePart)

/-- `ws::ServerEvent`: the field of its `oneof` that is set, and the fields of the message there,
by their names. -/
structure Ws.ServerEvent where
  payload : String
  fields : List (String × Ws.Field)

def quotedToProto (payload : QuotedMessagePayload) : Ws.QuotedMessage where
  id := c.uuidText payload.id
  roomId := c.uuidText payload.roomId
  senderId := c.uuidText payload.senderId
  senderUsername := payload.senderUsername.getD ""
  senderNickname := payload.senderNickname.getD ""
  senderAvatarUrl := payload.senderAvatarUrl.getD ""
  content := payload.content.getD ""
  messageType := payload.messageType.display
  createdAt := (payload.createdAt.map c.toRfc3339).getD ""
  isDeleted := payload.isDeleted
  parts := payload.parts.map (·.toProto)

def forwardToProto (payload : ForwardMessagePayload) : Ws.ForwardMessage where
  messageId := c.uuidText payload.messageId
  roomId := c.uuidText payload.roomId
  senderId := c.uuidText payload.senderId
  senderUsername := payload.senderUsername.getD ""
  senderNickname := payload.senderNickname.getD ""

/-- `unwrap_or_default` on a text. -/
def Ws.Field.orEmpty (text : Option String) : Ws.Field := .string (text.getD "")

/-- **`to_protobuf_event`**. -/
def ServerPush.toProtobufEvent : ServerPush → Ws.ServerEvent
  | .authed userId connId => ⟨"authed", [("user_id", .string userId), ("conn_id", .string connId)]⟩
  | .joined roomId => ⟨"joined", [("room_id", .string (c.uuidText roomId))]⟩
  | .left roomId => ⟨"left", [("room_id", .string (c.uuidText roomId))]⟩
  | .message data =>
    ⟨"message",
      [("id", .string (c.uuidText data.id)),
        ("message_id", .string (c.uuidText data.id)),
        ("room_id", .string (c.uuidText data.roomId)),
        ("sender_id", .string (c.uuidText data.senderId)),
        ("sender_username", .orEmpty data.senderUsername),
        ("sender_nickname", .orEmpty data.senderNickname),
        ("sender_avatar_url", .orEmpty data.senderAvatarUrl),
        ("content", .string data.content),
        ("encrypted_content", .bytes (data.encryptedContent.getD [])),
        ("encryption_metadata_json", .orEmpty (data.encryptionMetadata.bind c.valueText)),
        ("message_type", .string data.messageType.display),
        ("timestamp", .string (c.toRfc3339 data.timestamp)),
        ("quoted_message", .quoted (data.quotedMessage.map (quotedToProto c))),
        ("forward_message", .forward (data.forwardMessage.map (forwardToProto c))),
        ("parts", .parts (data.parts.map (·.toProto)))]⟩
  | .messageRead data =>
    ⟨"message_read",
      [("room_id", .string (c.uuidText data.roomId)),
        ("message_id", .string (c.uuidText data.messageId)),
        ("reader_id", .string (c.uuidText data.readerId)),
        ("read_at", .string (c.toRfc3339 data.readAt))]⟩
  | .messageUpdate data =>
    ⟨"message_update",
      [("room_id", .string (c.uuidText data.roomId)),
        ("message_id", .string (c.uuidText data.messageId)),
        ("is_deleted", .bool data.isDeleted),
        ("deleted_at", .orEmpty (data.deletedAt.map c.toRfc3339)),
        ("update_type", .string data.updateType.display),
        ("edited_at", .orEmpty (data.editedAt.map c.toRfc3339)),
        ("content", .orEmpty data.content)]⟩
  | .pinUpdate data =>
    ⟨"pin_update",
      [("room_id", .string (c.uuidText data.roomId)),
        ("message_id", .orEmpty (data.messageId.map c.uuidText)),
        ("is_pinned", .bool data.isPinned),
        ("pinned_at", .orEmpty (data.pinnedAt.map c.toRfc3339)),
        ("pinned_by", .orEmpty (data.pinnedBy.map c.uuidText))]⟩
  | .error text => ⟨"error", [("message", .string text)]⟩
  | .pong => ⟨"pong", []⟩
  | .friendRequestUpdate pendingCount =>
    ⟨"friend_request_update", [("pending_count", .int pendingCount.toInt)]⟩
  | .roomCreated data =>
    ⟨"room_created",
      [("room_id", .string (c.uuidText data.roomId)),
        ("room_name", .string data.roomName),
        ("room_type", .string data.roomType),
        ("initiator_id", .string (c.uuidText data.initiatorId)),
        ("owner_id", .string (c.uuidText data.ownerId)),
        ("description", .orEmpty data.description),
        ("avatar_url", .orEmpty data.avatarUrl),
        ("created_at", .orEmpty (data.createdAt.map c.toRfc3339))]⟩
  | .roomUpdated data =>
    ⟨"room_updated",
      [("room_id", .string (c.uuidText data.roomId)),
        ("room_name", .string data.roomName),
        ("room_type", .string data.roomType),
        ("avatar_url", .orEmpty data.avatarUrl),
        ("avatar_object_key", .orEmpty data.avatarObjectKey),
        ("description", .orEmpty data.description)]⟩
  | .userBanned userId reason =>
    ⟨"user_banned", [("user_id", .string userId), ("reason", .string reason)]⟩
  | .groupDissolved roomId => ⟨"group_dissolved", [("room_id", .string roomId)]⟩
  | .groupOwnerTransferred roomId oldOwnerId newOwnerId =>
    ⟨"group_owner_transferred",
      [("room_id", .string roomId),
        ("old_owner_id", .string oldOwnerId),
        ("new_owner_id", .string newOwnerId)]⟩
  | .groupSettingsUpdated roomId globalMuteEnabled globalMuteReason globalMuteUntil
      globalMuteSetBy =>
    ⟨"group_settings_updated",
      [("room_id", .string (c.uuidText roomId)),
        ("global_mute_enabled", .bool globalMuteEnabled),
        ("global_mute_reason", .optional globalMuteReason),
        ("global_mute_until", .optional globalMuteUntil),
        ("global_mute_set_by", .optional globalMuteSetBy)]⟩
  | .groupMemberChanged roomId memberId changeType newRole operatorId reason untilAt =>
    ⟨"group_member_changed",
      [("room_id", .string (c.uuidText roomId)),
        ("member_id", .string (c.uuidText memberId)),
        ("change_type", .string changeType),
        ("new_role", .optional newRole),
        ("operator_id", .optional (operatorId.map c.uuidText)),
        ("reason", .optional reason),
        ("until", .optional untilAt)]⟩
  | .roomHistoryCleared roomId clearedBy clearedAt =>
    ⟨"room_history_cleared",
      [("room_id", .string (c.uuidText roomId)),
        ("cleared_by", .orEmpty (clearedBy.map c.uuidText)),
        ("cleared_at", .string clearedAt)]⟩
  | .friendshipDeleted userId => ⟨"friendship_deleted", [("user_id", .string userId)]⟩
  | .friendProfileUpdated userId username nickname avatarUrl avatarObjectKey =>
    ⟨"friend_profile_updated",
      [("user_id", .string userId),
        ("username", .orEmpty username),
        ("nickname", .orEmpty nickname),
        ("avatar_url", .orEmpty avatarUrl),
        ("avatar_object_key", .orEmpty avatarObjectKey)]⟩
  | .reactionUpdate data =>
    ⟨"reaction_update",
      [("room_id", .string (c.uuidText data.roomId)),
        ("message_id", .string (c.uuidText data.messageId)),
        ("reaction_key", .string data.reactionKey),
        ("user_id", .string (c.uuidText data.userId)),
        ("action", .string data.action.display)]⟩
  | .typingUpdate data =>
    ⟨"typing_update",
      [("room_id", .string (c.uuidText data.roomId)),
        ("user_id", .string (c.uuidText data.userId)),
        ("is_typing", .bool data.isTyping),
        ("expires_in_ms", .int data.expiresInMs.toInt)]⟩
  | .qrStatusChanged qrId status loginCode =>
    ⟨"qr_status_changed",
      [("qr_id", .string (c.uuidText qrId)),
        ("status", .string status),
        ("login_code", .orEmpty loginCode)]⟩
  | .groupAnnouncementUpdated roomId content updatedBy updatedAt =>
    ⟨"group_announcement_updated",
      [("room_id", .string (c.uuidText roomId)),
        ("content", .orEmpty content),
        ("updated_by", .string (c.uuidText updatedBy)),
        ("updated_at", .string updatedAt)]⟩

end RedcodeIm
