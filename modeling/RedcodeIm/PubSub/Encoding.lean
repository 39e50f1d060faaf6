import RedcodeIm.PubSub.Models

/-!
# Events on the wire

The messages of `ws.proto` that carry an event from node to node, and the conversions of
`redis/models.rs` between the two.  A field of a message without `optional` is always there: it
is empty, or zero, where nothing was said.

* `Ws.PubSubEvent` — the messages.
* `Codec` — what the libraries write and read identifiers, times and JSON values as.
* `toProto`, `tryFrom` — the conversions of each kind of data.
* `PubSubPayload.toProtoEvent`, `PubSubPayload.tryFrom` — the conversions of an event.
-/

namespace RedcodeIm

/-! ## Messages -/

namespace Ws

structure MessageAttachment where
  key : String
  name : String
  mime : String
  size : Int64
  width : Int32
  height : Int32
  durationMs : Int32
  thumbnailKey : String

structure MessagePart where
  position : Int32
  partType : String
  text : String
  attachment : Option MessageAttachment

structure QuotedMessage where
  id : String
  roomId : String
  senderId : String
  senderUsername : String
  senderNickname : String
  senderAvatarUrl : String
  content : String
  messageType : String
  createdAt : String
  isDeleted : Bool
  parts : List MessagePart

structure ForwardMessage where
  messageId : String
  roomId : String
  senderId : String
  senderUsername : String
  senderNickname : String

structure PubSubMessage where
  id : String
  roomId : String
  senderId : String
  content : String
  encryptedContent : List UInt8
  encryptionMetadataJson : String
  messageType : String
  priority : Int32
  timestamp : String
  sourceNode : String
  targetNodes : List String
  senderUsername : String
  senderNickname : String
  senderAvatarUrl : String
  quotedMessage : Option QuotedMessage
  forwardMessage : Option ForwardMessage
  parts : List MessagePart

structure PubSubReadReceipt where
  roomId : String
  readerId : String
  messageId : String
  readAt : String
  sourceNode : String

structure PubSubMessageUpdate where
  roomId : String
  messageId : String
  isDeleted : Bool
  deletedAt : String
  updateType : String
  editedAt : String
  content : String

structure PubSubPinUpdate where
  roomId : String
  messageId : String
  isPinned : Bool
  pinnedAt : String
  pinnedBy : String

structure PubSubRoomUpdate where
  roomId : String
  roomName : String
  roomType : String
  avatarUrl : String
  avatarObjectKey : String
  description : String

structure PubSubGroupSettingsUpdate where
  roomId : String
  globalMuteEnabled : Bool
  globalMuteReason : Option String
  globalMuteUntil : Option String
  globalMuteSetBy : Option String

structure PubSubGroupMemberChanged where
  roomId : String
  memberId : String
  changeType : String
  newRole : Option String
  operatorId : Option String
  reason : Option String
  untilAt : Option String

structure PubSubRoomHistoryCleared where
  roomId : String
  clearedBy : String
  clearedAt : String

structure PubSubReactionUpdate where
  roomId : String
  messageId : String
  reactionKey : String
  userId : String
  action : String

structure PubSubTypingUpdate where
  roomId : String
  userId : String
  isTyping : Bool
  expiresInMs : Int32

/-- The `oneof` of `PubSubEvent`. -/
inductive PubSubEventPayload where
  | message (msg : PubSubMessage)
  | readReceipt (receipt : PubSubReadReceipt)
  | messageUpdate (update : PubSubMessageUpdate)
  | pinUpdate (update : PubSubPinUpdate)
  | roomUpdate (update : PubSubRoomUpdate)
  | groupSettingsUpdate (update : PubSubGroupSettingsUpdate)
  | groupMemberChanged (update : PubSubGroupMemberChanged)
  | roomHistoryCleared (update : PubSubRoomHistoryCleared)
  | reactionUpdate (update : PubSubReactionUpdate)
  | typingUpdate (update : PubSubTypingUpdate)

structure PubSubEvent where
  payload : Option PubSubEventPayload

end Ws

/-- `From<MessagePriority> for ws::PubSubPriority`, as the number of the enumeration. -/
def MessagePriority.toProto : MessagePriority → Int32
  | .critical => 1
  | .high => 2
  | .normal => 3
  | .low => 4

/-- `ws::PubSubPriority::try_from`, where a number that is none of the enumeration's is unknown,
and `From<ws::PubSubPriority> for MessagePriority`. -/
def MessagePriority.ofProto (n : Int32) : MessagePriority :=
  if n = 1 then .critical else if n = 2 then .high else if n = 4 then .low else .normal

/-! ## What the libraries do -/

/-- The texts that the libraries write and read: `Uuid::to_string` and `Uuid::parse_str`,
`to_rfc3339` and `parse_from_rfc3339` of `chrono`, `to_string` and `from_str` of `serde_json`. -/
structure Codec where
  uuidText : Uuid → String
  parseUuid : String → Except String Uuid
  toRfc3339 : Timestamp → String
  parseFromRfc3339 : String → Except String Timestamp
  valueText : Value → Option String
  parseValue : String → Option Value

variable (c : Codec)

def parseUuid (value field : String) : Except String Uuid :=
  match c.parseUuid value with
  | .ok id => .ok id
  | .error e => .error s!"invalid uuid for {field}: {e}"

def parseDatetime (value field : String) : Except String Timestamp :=
  match c.parseFromRfc3339 value with
  | .ok t => .ok t
  | .error e => .error s!"invalid datetime for {field}: {e}"

def optionFromString (value : String) : Option String :=
  if isBlank value then none else some value

/-- `option_from_zero_i32` and `option_from_zero_i64`. -/
def optionFromZero {α : Type} [Zero α] [DecidableEq α] (value : α) : Option α :=
  if value = 0 then none else some value

/-- A text, unless it is empty. -/
def optionFromNonempty (value : String) : Option String :=
  if value.isEmpty then none else some value

def optionFromBytes (value : List UInt8) : Option (List UInt8) :=
  if value.isEmpty then none else some value

/-- The encryption metadata of a message; a text that is no JSON is none. -/
def metadataFromJson (value : String) : Option Value :=
  if isBlank value then none else c.parseValue value

/-! ## Conversions of the data -/

def MessageAttachmentEnvelope.toProto (value : MessageAttachmentEnvelope) :
    Ws.MessageAttachment where
  key := value.key.getD ""
  name := value.name.getD ""
  mime := value.mime.getD ""
  size := value.size.getD 0
  width := value.width.getD 0
  height := value.height.getD 0
  durationMs := value.durationMs.getD 0
  thumbnailKey := value.thumbnailKey.getD ""

def MessageAttachmentEnvelope.tryFrom (value : Ws.MessageAttachment) :
    Except String MessageAttachmentEnvelope :=
  .ok
    { key := optionFromString value.key
      name := optionFromString value.name
      mime := optionFromString value.mime
      size := optionFromZero value.size
      width := optionFromZero value.width
      height := optionFromZero value.height
      durationMs := optionFromZero value.durationMs
      thumbnailKey := optionFromString value.thumbnailKey }

def MessagePartEnvelope.toProto (value : MessagePartEnvelope) : Ws.MessagePart where
  position := value.position.toInt32
  partType := messagePartTypeToStr value.partType
  text := value.text.getD ""
  attachment := value.attachment.map (·.toProto)

def MessagePartEnvelope.tryFrom (value : Ws.MessagePart) : Except String MessagePartEnvelope := do
  let partType ← parseMessagePartType value.partType
  let attachment ← value.attachment.mapM MessageAttachmentEnvelope.tryFrom
  .ok
    { position := value.position.toInt16
      partType := partType
      text := optionFromString value.text
      attachment := attachment }

def QuotedMessagePayload.toProto (value : QuotedMessagePayload) : Ws.QuotedMessage where
  id := c.uuidText value.id
  roomId := c.uuidText value.roomId
  senderId := c.uuidText value.senderId
  senderUsername := value.senderUsername.getD ""
  senderNickname := value.senderNickname.getD ""
  senderAvatarUrl := value.senderAvatarUrl.getD ""
  content := value.content.getD ""
  messageType := value.messageType.display
  createdAt := (value.createdAt.map c.toRfc3339).getD ""
  isDeleted := value.isDeleted
  parts := value.parts.map (·.toProto)

def QuotedMessagePayload.tryFrom (value : Ws.QuotedMessage) :
    Except String QuotedMessagePayload := do
  let id ← parseUuid c value.id "quoted.id"
  let roomId ← parseUuid c value.roomId "quoted.room_id"
  let senderId ← parseUuid c value.senderId "quoted.sender_id"
  let messageType ← parseMessageType value.messageType
  let createdAt ← (optionFromString value.createdAt).mapM
    (parseDatetime c · "quoted.created_at")
  let parts ← value.parts.mapM MessagePartEnvelope.tryFrom
  .ok
    { id := id
      roomId := roomId
      senderId := senderId
      senderUsername := optionFromString value.senderUsername
      senderNickname := optionFromString value.senderNickname
      senderAvatarUrl := optionFromString value.senderAvatarUrl
      content := optionFromString value.content
      messageType := messageType
      createdAt := createdAt
      isDeleted := value.isDeleted
      parts := parts }

def ForwardMessagePayload.toProto (value : ForwardMessagePayload) : Ws.ForwardMessage where
  messageId := c.uuidText value.messageId
  roomId := c.uuidText value.roomId
  senderId := c.uuidText value.senderId
  senderUsername := value.senderUsername.getD ""
  senderNickname := value.senderNickname.getD ""

def ForwardMessagePayload.tryFrom (value : Ws.ForwardMessage) :
    Except String ForwardMessagePayload := do
  let messageId ← parseUuid c value.messageId "forward.message_id"
  let roomId ← parseUuid c value.roomId "forward.room_id"
  let senderId ← parseUuid c value.senderId "forward.sender_id"
  .ok
    { messageId := messageId
      roomId := roomId
      senderId := senderId
      senderUsername := optionFromString value.senderUsername
      senderNickname := optionFromString value.senderNickname }

def CrossNodeMessage.toProto (value : CrossNodeMessage) : Ws.PubSubMessage where
  id := c.uuidText value.id
  roomId := c.uuidText value.roomId
  senderId := c.uuidText value.senderId
  content := value.content
  encryptedContent := value.encryptedContent.getD []
  encryptionMetadataJson := (value.encryptionMetadata.bind c.valueText).getD ""
  messageType := value.messageType.display
  priority := value.priority.toProto
  timestamp := c.toRfc3339 value.timestamp
  sourceNode := value.sourceNode
  targetNodes := value.targetNodes
  senderUsername := value.senderUsername.getD ""
  senderNickname := value.senderNickname.getD ""
  senderAvatarUrl := value.senderAvatarUrl.getD ""
  quotedMessage := value.quotedMessage.map (·.toProto c)
  forwardMessage := value.forwardMessage.map (·.toProto c)
  parts := value.parts.map (·.toProto)

def CrossNodeMessage.tryFrom (value : Ws.PubSubMessage) : Except String CrossNodeMessage := do
  let id ← parseUuid c value.id "id"
  let roomId ← parseUuid c value.roomId "room_id"
  let senderId ← parseUuid c value.senderId "sender_id"
  let messageType ← parseMessageType value.messageType
  let timestamp ← parseDatetime c value.timestamp "timestamp"
  let quotedMessage ← value.quotedMessage.mapM (QuotedMessagePayload.tryFrom c)
  let forwardMessage ← value.forwardMessage.mapM (ForwardMessagePayload.tryFrom c)
  let parts ← value.parts.mapM MessagePartEnvelope.tryFrom
  .ok
    { id := id
      roomId := roomId
      senderId := senderId
      content := value.content
      encryptedContent := optionFromBytes value.encryptedContent
      encryptionMetadata := metadataFromJson c value.encryptionMetadataJson
      messageType := messageType
      priority := .ofProto value.priority
      timestamp := timestamp
      sourceNode := value.sourceNode
      targetNodes := value.targetNodes
      senderUsername := optionFromString value.senderUsername
      senderNickname := optionFromString value.senderNickname
      senderAvatarUrl := optionFromString value.senderAvatarUrl
      quotedMessage := quotedMessage
      forwardMessage := forwardMessage
      parts := parts }

def ReadReceiptEvent.toProto (value : ReadReceiptEvent) : Ws.PubSubReadReceipt where
  roomId := c.uuidText value.roomId
  readerId := c.uuidText value.readerId
  messageId := c.uuidText value.messageId
  readAt := c.toRfc3339 value.readAt
  sourceNode := value.sourceNode

def ReadReceiptEvent.tryFrom (value : Ws.PubSubReadReceipt) : Except String ReadReceiptEvent := do
  let roomId ← parseUuid c value.roomId "room_id"
  let readerId ← parseUuid c value.readerId "reader_id"
  let messageId ← parseUuid c value.messageId "message_id"
  let readAt ← parseDatetime c value.readAt "read_at"
  .ok
    { roomId := roomId
      readerId := readerId
      messageId := messageId
      readAt := readAt
      sourceNode := value.sourceNode }

def MessageUpdatePayload.toProto (value : MessageUpdatePayload) : Ws.PubSubMessageUpdate where
  roomId := c.uuidText value.roomId
  messageId := c.uuidText value.messageId
  isDeleted := value.isDeleted
  deletedAt := (value.deletedAt.map c.toRfc3339).getD ""
  updateType := value.updateType.display
  editedAt := (value.editedAt.map c.toRfc3339).getD ""
  content := value.content.getD ""

def MessageUpdatePayload.tryFrom (value : Ws.PubSubMessageUpdate) :
    Except String MessageUpdatePayload := do
  -- an update of an older node has no type
  let updateType : MessageUpdateType :=
    if value.updateType.isEmpty then if value.isDeleted then .deleted else .edited
    else (MessageUpdateType.fromStr value.updateType).toOption.getD .deleted
  let roomId ← parseUuid c value.roomId "room_id"
  let messageId ← parseUuid c value.messageId "message_id"
  let deletedAt ← (optionFromString value.deletedAt).mapM (parseDatetime c · "deleted_at")
  let editedAt ← (optionFromString value.editedAt).mapM (parseDatetime c · "edited_at")
  .ok
    { roomId := roomId
      messageId := messageId
      updateType := updateType
      isDeleted := value.isDeleted
      deletedAt := deletedAt
      editedAt := editedAt
      content := optionFromString value.content }

def PinUpdatePayload.toProto (value : PinUpdatePayload) : Ws.PubSubPinUpdate where
  roomId := c.uuidText value.roomId
  messageId := (value.messageId.map c.uuidText).getD ""
  isPinned := value.isPinned
  pinnedAt := (value.pinnedAt.map c.toRfc3339).getD ""
  pinnedBy := (value.pinnedBy.map c.uuidText).getD ""

def PinUpdatePayload.tryFrom (value : Ws.PubSubPinUpdate) : Except String PinUpdatePayload := do
  let roomId ← parseUuid c value.roomId "room_id"
  let messageId ← (optionFromString value.messageId).mapM (parseUuid c · "message_id")
  let pinnedBy ← (optionFromString value.pinnedBy).mapM (parseUuid c · "pinned_by")
  let pinnedAt ← (optionFromString value.pinnedAt).mapM (parseDatetime c · "pinned_at")
  .ok
    { roomId := roomId
      messageId := messageId
      pinnedBy := pinnedBy
      pinnedAt := pinnedAt
      isPinned := value.isPinned }

def RoomUpdatePayload.toProto (value : RoomUpdatePayload) : Ws.PubSubRoomUpdate where
  roomId := c.uuidText value.roomId
  roomName := value.roomName
  roomType := value.roomType
  avatarUrl := value.avatarUrl.getD ""
  avatarObjectKey := value.avatarObjectKey.getD ""
  description := value.description.getD ""

def RoomUpdatePayload.tryFrom (value : Ws.PubSubRoomUpdate) : Except String RoomUpdatePayload := do
  let roomId ← c.parseUuid value.roomId
  .ok
    { roomId := roomId
      roomName := value.roomName
      roomType := value.roomType
      avatarUrl := optionFromNonempty value.avatarUrl
      avatarObjectKey := optionFromNonempty value.avatarObjectKey
      description := optionFromNonempty value.description }

def GroupSettingsUpdatePayload.toProto (value : GroupSettingsUpdatePayload) :
    Ws.PubSubGroupSettingsUpdate where
  roomId := c.uuidText value.roomId
  globalMuteEnabled := value.globalMuteEnabled
  globalMuteReason := value.globalMuteReason
  globalMuteUntil := value.globalMuteUntil.map c.toRfc3339
  globalMuteSetBy := value.globalMuteSetBy.map c.uuidText

def GroupSettingsUpdatePayload.tryFrom (value : Ws.PubSubGroupSettingsUpdate) :
    Except String GroupSettingsUpdatePayload := do
  let roomId ← c.parseUuid value.roomId
  .ok
    { roomId := roomId
      globalMuteEnabled := value.globalMuteEnabled
      globalMuteReason := value.globalMuteReason
      globalMuteUntil := value.globalMuteUntil.bind fun s => (c.parseFromRfc3339 s).toOption
      globalMuteSetBy := value.globalMuteSetBy.bind fun s => (c.parseUuid s).toOption }

def GroupMemberChangedPayload.toProto (value : GroupMemberChangedPayload) :
    Ws.PubSubGroupMemberChanged where
  roomId := c.uuidText value.roomId
  memberId := c.uuidText value.memberId
  changeType := value.changeType.display
  newRole := value.newRole
  operatorId := value.operatorId.map c.uuidText
  reason := value.reason
  untilAt := value.untilAt.map c.toRfc3339

def GroupMemberChangedPayload.tryFrom (value : Ws.PubSubGroupMemberChanged) :
    Except String GroupMemberChangedPayload := do
  let roomId ← c.parseUuid value.roomId
  let memberId ← c.parseUuid value.memberId
  let changeType ← GroupMemberChangeType.fromStr value.changeType
  .ok
    { roomId := roomId
      memberId := memberId
      changeType := changeType
      newRole := value.newRole
      operatorId := value.operatorId.bind fun s => (c.parseUuid s).toOption
      reason := value.reason
      untilAt := value.untilAt.bind fun s => (c.parseFromRfc3339 s).toOption }

def RoomHistoryClearedPayload.toProto (value : RoomHistoryClearedPayload) :
    Ws.PubSubRoomHistoryCleared where
  roomId := c.uuidText value.roomId
  clearedBy := (value.clearedBy.map c.uuidText).getD ""
  clearedAt := c.toRfc3339 value.clearedAt

def RoomHistoryClearedPayload.tryFrom (value : Ws.PubSubRoomHistoryCleared) :
    Except String RoomHistoryClearedPayload := do
  let roomId ← parseUuid c value.roomId "room_id"
  let clearedBy ← (optionFromNonempty value.clearedBy).mapM (parseUuid c · "cleared_by")
  let clearedAt ← parseDatetime c value.clearedAt "cleared_at"
  .ok { roomId := roomId, clearedBy := clearedBy, clearedAt := clearedAt }

def ReactionUpdatePayload.toProto (value : ReactionUpdatePayload) : Ws.PubSubReactionUpdate where
  roomId := c.uuidText value.roomId
  messageId := c.uuidText value.messageId
  reactionKey := value.reactionKey
  userId := c.uuidText value.userId
  action := value.action.display

def ReactionUpdatePayload.tryFrom (value : Ws.PubSubReactionUpdate) :
    Except String ReactionUpdatePayload := do
  let roomId ← parseUuid c value.roomId "room_id"
  let messageId ← parseUuid c value.messageId "message_id"
  let userId ← parseUuid c value.userId "user_id"
  .ok
    { roomId := roomId
      messageId := messageId
      reactionKey := value.reactionKey
      userId := userId
      action := (ReactionAction.fromStr value.action).toOption.getD .add }

def TypingUpdatePayload.toProto (value : TypingUpdatePayload) : Ws.PubSubTypingUpdate where
  roomId := c.uuidText value.roomId
  userId := c.uuidText value.userId
  isTyping := value.isTyping
  expiresInMs := value.expiresInMs

def TypingUpdatePayload.tryFrom (value : Ws.PubSubTypingUpdate) :
    Except String TypingUpdatePayload := do
  let roomId ← parseUuid c value.roomId "room_id"
  let userId ← parseUuid c value.userId "user_id"
  .ok
    { roomId := roomId
      userId := userId
      isTyping := value.isTyping
      expiresInMs := value.expiresInMs }

/-! ## Conversions of an event -/

/-- **`to_proto_event`**. -/
def PubSubPayload.toProtoEvent (p : PubSubPayload) : Ws.PubSubEvent where
  payload := some <| match p with
    | .message data => .message (data.toProto c)
    | .readReceipt data => .readReceipt (data.toProto c)
    | .messageUpdate data => .messageUpdate (data.toProto c)
    | .pinUpdate data => .pinUpdate (data.toProto c)
    | .roomUpdate data => .roomUpdate (data.toProto c)
    | .groupSettingsUpdate data => .groupSettingsUpdate (data.toProto c)
    | .groupMemberChanged data => .groupMemberChanged (data.toProto c)
    | .roomHistoryCleared data => .roomHistoryCleared (data.toProto c)
    | .reactionUpdate data => .reactionUpdate (data.toProto c)
    | .typingUpdate data => .typingUpdate (data.toProto c)

/-- **`TryFrom<ws::PubSubEvent> for PubSubPayload`**. -/
def PubSubPayload.tryFrom (value : Ws.PubSubEvent) : Except String PubSubPayload :=
  match value.payload with
  | none => .error "missing pubsub payload"
  | some (.message msg) => (CrossNodeMessage.tryFrom c msg).map .message
  | some (.readReceipt receipt) => (ReadReceiptEvent.tryFrom c receipt).map .readReceipt
  | some (.messageUpdate update) => (MessageUpdatePayload.tryFrom c update).map .messageUpdate
  | some (.pinUpdate update) => (PinUpdatePayload.tryFrom c update).map .pinUpdate
  | some (.roomUpdate update) => (RoomUpdatePayload.tryFrom c update).map .roomUpdate
  | some (.groupSettingsUpdate update) =>
    (GroupSettingsUpdatePayload.tryFrom c update).map .groupSettingsUpdate
  | some (.groupMemberChanged update) =>
    (GroupMemberChangedPayload.tryFrom c update).map .groupMemberChanged
  | some (.roomHistoryCleared update) =>
    (RoomHistoryClearedPayload.tryFrom c update).map .roomHistoryCleared
  | some (.reactionUpdate update) => (ReactionUpdatePayload.tryFrom c update).map .reactionUpdate
  | some (.typingUpdate update) => (TypingUpdatePayload.tryFrom c update).map .typingUpdate

end RedcodeIm
