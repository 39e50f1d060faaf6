import Mathlib.Data.Rat.Defs
import RedcodeIm.Runtime.Messages

/-!
# What the nodes tell each other

The payloads of `redis/models.rs` that a node publishes for the others, as the code holds them.

* `CrossNodeMessage`, `MessageUpdatePayload`, … — the data of an event.
* `PubSubPayload` — the events.
* `identified` — an event up to what its encoding does not tell apart: an optional text that is
  blank and an optional number that is zero are as good as none.
-/

namespace RedcodeIm

/-- `serde_json::Value`. -/
inductive Value where
  | null
  | bool (b : Bool)
  | number (n : ℚ)
  | string (text : String)
  | array (items : List Value)
  | object (members : List (String × Value))

/-! ## Enumerations and their texts -/

/-- `MessagePriority`. -/
inductive MessagePriority where
  | critical
  | high
  | normal
  | low
  deriving DecidableEq

/-- `MessageUpdateType`. -/
inductive MessageUpdateType where
  | deleted
  | edited
  deriving DecidableEq

/-- `ReactionAction`. -/
inductive ReactionAction where
  | add
  | remove
  deriving DecidableEq

/-- `GroupMemberChangeType`. -/
inductive GroupMemberChangeType where
  | roleChanged
  | muted
  | unmuted
  | kicked
  | joined
  | left
  deriving DecidableEq

def MessageUpdateType.display : MessageUpdateType → String
  | .deleted => "deleted"
  | .edited => "edited"

def MessageUpdateType.fromStr : String → Except String MessageUpdateType
  | "deleted" => .ok .deleted
  | "edited" => .ok .edited
  | s => .error s!"unknown update type: {s}"

def ReactionAction.display : ReactionAction → String
  | .add => "add"
  | .remove => "remove"

def ReactionAction.fromStr : String → Except String ReactionAction
  | "add" => .ok .add
  | "remove" => .ok .remove
  | s => .error s!"unknown reaction action: {s}"

def GroupMemberChangeType.display : GroupMemberChangeType → String
  | .roleChanged => "role_changed"
  | .muted => "muted"
  | .unmuted => "unmuted"
  | .kicked => "kicked"
  | .joined => "joined"
  | .left => "left"

def GroupMemberChangeType.fromStr : String → Except String GroupMemberChangeType
  | "role_changed" => .ok .roleChanged
  | "muted" => .ok .muted
  | "unmuted" => .ok .unmuted
  | "kicked" => .ok .kicked
  | "joined" => .ok .joined
  | "left" => .ok .left
  | s => .error s!"unknown change type: {s}"

def MessageType.display : MessageType → String
  | .text => "text"
  | .image => "image"
  | .file => "file"
  | .system => "system"
  | .video => "video"
  | .audio => "audio"
  | .mixed => "mixed"

def MessagePartType.display : MessagePartType → String
  | .text => "text"
  | .image => "image"
  | .video => "video"
  | .audio => "audio"
  | .file => "file"

def parseMessageType : String → Except String MessageType
  | "text" => .ok .text
  | "image" => .ok .image
  | "file" => .ok .file
  | "system" => .ok .system
  | "video" => .ok .video
  | "audio" => .ok .audio
  | "mixed" => .ok .mixed
  | other => .error s!"unknown message_type: {other}"

def messagePartTypeToStr : MessagePartType → String
  | .text => "text"
  | .image => "image"
  | .video => "video"
  | .audio => "audio"
  | .file => "file"

def parseMessagePartType : String → Except String MessagePartType
  | "text" => .ok .text
  | "image" => .ok .image
  | "video" => .ok .video
  | "audio" => .ok .audio
  | "file" => .ok .file
  | other => .error s!"unknown part_type: {other}"

@[simp] theorem MessageUpdateType.fromStr_display (t : MessageUpdateType) :
    fromStr t.display = .ok t := by
  cases t <;> rfl

@[simp] theorem ReactionAction.fromStr_display (a : ReactionAction) :
    fromStr a.display = .ok a := by
  cases a <;> rfl

@[simp] theorem GroupMemberChangeType.fromStr_display (t : GroupMemberChangeType) :
    fromStr t.display = .ok t := by
  cases t <;> rfl

@[simp] theorem parseMessageType_display (t : MessageType) :
    parseMessageType t.display = .ok t := by
  cases t <;> rfl

@[simp] theorem parseMessagePartType_toStr (t : MessagePartType) :
    parseMessagePartType (messagePartTypeToStr t) = .ok t := by
  cases t <;> rfl

/-! ## The data of an event -/

/-- `MessageAttachmentEnvelope`. -/
structure MessageAttachmentEnvelope where
  key : Option String
  name : Option String
  mime : Option String
  size : Option Int64
  width : Option Int32
  height : Option Int32
  durationMs : Option Int32
  thumbnailKey : Option String
  deriving DecidableEq

/-- `MessagePartEnvelope`. -/
structure MessagePartEnvelope where
  position : Int16
  partType : MessagePartType
  text : Option String
  attachment : Option MessageAttachmentEnvelope
  deriving DecidableEq

/-- `QuotedMessagePayload`. -/
structure QuotedMessagePayload where
  id : Uuid
  roomId : Uuid
  senderId : Uuid
  senderUsername : Option String
  senderNickname : Option String
  senderAvatarUrl : Option String
  content : Option String
  messageType : MessageType
  createdAt : Option Timestamp
  isDeleted : Bool
  parts : List MessagePartEnvelope
  deriving DecidableEq

/-- `ForwardMessagePayload`. -/
structure ForwardMessagePayload where
  messageId : Uuid
  roomId : Uuid
  senderId : Uuid
  senderUsername : Option String
  senderNickname : Option String
  deriving DecidableEq

/-- `CrossNodeMessage`. -/
structure CrossNodeMessage where
  id : Uuid
  roomId : Uuid
  senderId : Uuid
  content : String
  encryptedContent : Option (List UInt8)
  encryptionMetadata : Option Value
  messageType : MessageType
  priority : MessagePriority
  timestamp : Timestamp
  sourceNode : String
  targetNodes : List String
  senderUsername : Option String
  senderNickname : Option String
  senderAvatarUrl : Option String
  quotedMessage : Option QuotedMessagePayload
  forwardMessage : Option ForwardMessagePayload
  parts : List MessagePartEnvelope

/-- `ReadReceiptEvent`. -/
structure ReadReceiptEvent where
  roomId : Uuid
  readerId : Uuid
  messageId : Uuid
  readAt : Timestamp
  sourceNode : String

/-- `MessageUpdatePayload`. -/
structure MessageUpdatePayload where
  roomId : Uuid
  messageId : Uuid
  updateType : MessageUpdateType
  isDeleted : Bool
  deletedAt : Option Timestamp
  editedAt : Option Timestamp
  content : Option String

/-- `PinUpdatePayload`. -/
structure PinUpdatePayload where
  roomId : Uuid
  messageId : Option Uuid
  pinnedBy : Option Uuid
  pinnedAt : Option Timestamp
  isPinned : Bool

/-- `RoomUpdatePayload`. -/
structure RoomUpdatePayload where
  roomId : Uuid
  roomName : String
  roomType : String
  avatarUrl : Option String
  avatarObjectKey : Option String
  description : Option String

/-- `GroupSettingsUpdatePayload`. -/
structure GroupSettingsUpdatePayload where
  roomId : Uuid
  globalMuteEnabled : Bool
  globalMuteReason : Option String
  globalMuteUntil : Option Timestamp
  globalMuteSetBy : Option Uuid

/-- `GroupMemberChangedPayload`; its `until` is `untilAt`. -/
structure GroupMemberChangedPayload where
  roomId : Uuid
  memberId : Uuid
  changeType : GroupMemberChangeType
  newRole : Option String
  operatorId : Option Uuid
  reason : Option String
  untilAt : Option Timestamp

/-- `RoomHistoryClearedPayload`. -/
structure RoomHistoryClearedPayload where
  roomId : Uuid
  clearedBy : Option Uuid
  clearedAt : Timestamp

/-- `ReactionUpdatePayload`. -/
structure ReactionUpdatePayload where
  roomId : Uuid
  messageId : Uuid
  reactionKey : String
  userId : Uuid
  action : ReactionAction

/-- `TypingUpdatePayload`. -/
structure TypingUpdatePayload where
  roomId : Uuid
  userId : Uuid
  isTyping : Bool
  expiresInMs : Int32

/-- `PubSubPayload`. -/
inductive PubSubPayload where
  | message (data : CrossNodeMessage)
  | readReceipt (data : ReadReceiptEvent)
  | messageUpdate (data : MessageUpdatePayload)
  | pinUpdate (data : PinUpdatePayload)
  | roomUpdate (data : RoomUpdatePayload)
  | groupSettingsUpdate (data : GroupSettingsUpdatePayload)
  | groupMemberChanged (data : GroupMemberChangedPayload)
  | roomHistoryCleared (data : RoomHistoryClearedPayload)
  | reactionUpdate (data : ReactionUpdatePayload)
  | typingUpdate (data : TypingUpdatePayload)

/-! ## What an encoding does not tell apart -/

/-- A text of white space only. -/
def isBlank (s : String) : Bool := (Text.trim s).isEmpty

/-- A text that is no more than blank is none. -/
def unblank (s : Option String) : Option String := s.filter fun text => !isBlank text

/-- A number that is zero is none. -/
def unzero {α : Type} [Zero α] [DecidableEq α] (n : Option α) : Option α := n.filter (· ≠ 0)

def MessageAttachmentEnvelope.identified (a : MessageAttachmentEnvelope) :
    MessageAttachmentEnvelope where
  key := unblank a.key
  name := unblank a.name
  mime := unblank a.mime
  size := unzero a.size
  width := unzero a.width
  height := unzero a.height
  durationMs := unzero a.durationMs
  thumbnailKey := unblank a.thumbnailKey

def MessagePartEnvelope.identified (p : MessagePartEnvelope) : MessagePartEnvelope :=
  { p with
    text := unblank p.text
    attachment := p.attachment.map (·.identified) }

def QuotedMessagePayload.identified (q : QuotedMessagePayload) : QuotedMessagePayload :=
  { q with
    senderUsername := unblank q.senderUsername
    senderNickname := unblank q.senderNickname
    senderAvatarUrl := unblank q.senderAvatarUrl
    content := unblank q.content
    parts := q.parts.map (·.identified) }

def ForwardMessagePayload.identified (f : ForwardMessagePayload) : ForwardMessagePayload :=
  { f with
    senderUsername := unblank f.senderUsername
    senderNickname := unblank f.senderNickname }

def CrossNodeMessage.identified (m : CrossNodeMessage) : CrossNodeMessage :=
  { m with
    senderUsername := unblank m.senderUsername
    senderNickname := unblank m.senderNickname
    senderAvatarUrl := unblank m.senderAvatarUrl
    quotedMessage := m.quotedMessage.map (·.identified)
    forwardMessage := m.forwardMessage.map (·.identified)
    parts := m.parts.map (·.identified) }

/-- An event up to blank optional texts and optional numbers that are zero. -/
def PubSubPayload.identified : PubSubPayload → PubSubPayload
  | .message m => .message m.identified
  | .messageUpdate u => .messageUpdate { u with content := unblank u.content }
  | .roomUpdate r => .roomUpdate
    { r with
      avatarUrl := unblank r.avatarUrl
      avatarObjectKey := unblank r.avatarObjectKey
      description := unblank r.description }
  | .groupSettingsUpdate s => .groupSettingsUpdate
    { s with globalMuteReason := unblank s.globalMuteReason }
  | .groupMemberChanged g => .groupMemberChanged
    { g with newRole := unblank g.newRole, reason := unblank g.reason }
  | p => p

/-- An event whose encrypted content, where there is one and it is empty, is none. -/
def PubSubPayload.withoutEmptyContent : PubSubPayload → PubSubPayload
  | .message m => .message { m with encryptedContent := m.encryptedContent.filter (· ≠ []) }
  | p => p

end RedcodeIm
