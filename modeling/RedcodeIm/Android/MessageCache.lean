import RedcodeIm.Lib.Overlap
import RedcodeIm.Lib.SortBy
import RedcodeIm.Lib.Table
import RedcodeIm.Lib.Text

/-!
# The message cache of the Android app

The table `chat_messages`, and what `RoomChatRepository` and `CachedRemoteChatRepository` do with
it.  Each query is one step; between any two of them others run.

* `ChatMessage`, `preserveCachedMessageFields`, `messageForCache` — a message, and what it takes
  over from the one that is cached.
* `MessageCache`, `pruneMessages` — the queries.
* `CacheCall`, `cacheStmt` — the functions, from one query to the next.

Summaries of chats, quoted messages and the names of senders are left out.
-/

namespace RedcodeIm.Android

open Overlap (Next)
open SortBy
open Text (isWhitespace)

/-! ## Messages -/

/-- `MessageStatus`. -/
inductive MessageStatus where
  | pending
  | sent
  | failed
  deriving DecidableEq

/-- `MessageReactionSummary`. -/
structure MessageReactionSummary where
  reactionKey : String
  count : ℤ
  hasSelf : Bool
  deriving DecidableEq

/-- `MessageAttachment`. -/
structure MessageAttachment where
  key : String
  localPath : Option String
  deriving DecidableEq

/-- `MessagePart`. -/
structure MessagePart where
  text : Option String
  attachment : Option MessageAttachment
  deriving DecidableEq

/-- `ChatMessage`. -/
structure ChatMessage where
  id : String
  roomId : String
  senderId : String
  text : String
  status : MessageStatus
  createdAt : ℤ
  isDeleted : Bool
  isPinned : Bool
  pinnedAt : Option ℤ
  pinnedBy : Option String
  reactions : List MessageReactionSummary
  parts : List MessagePart
  deriving DecidableEq

open ChatMessage

namespace ChatMessage

/-- `withAttachmentLocalPath`. -/
def withAttachmentLocalPath (message : ChatMessage) (key localPath : String) : ChatMessage :=
  { message with
    parts := message.parts.map fun part =>
      match part.attachment with
      | some attachment =>
        if attachment.key = key then
          { part with attachment := some { attachment with localPath := some localPath } }
        else part
      | none => part }

/-- The paths of its attachments by their keys; the last one of each key. -/
def localPathsByKey (source : ChatMessage) : List (String × String) :=
  (source.parts.filterMap fun part => part.attachment.bind fun attachment =>
    (attachment.localPath.filter fun path => !(path.toList.all isWhitespace)).map fun path =>
      (attachment.key, path)).reverse

/-- `withAttachmentLocalPathsFrom`. -/
def withAttachmentLocalPathsFrom (message : ChatMessage) (source : Option ChatMessage) :
    ChatMessage :=
  match source with
  | none => message
  | some source =>
    { message with
      parts := message.parts.map fun part =>
        match part.attachment with
        | some attachment =>
          match source.localPathsByKey.lookup attachment.key with
          | some path => { part with attachment := some { attachment with localPath := some path } }
          | none => part
        | none => part }

/-- `preserveCachedMessageFields`, with the message that was found. -/
def preserveCachedMessageFields (message : ChatMessage) (existing : Option ChatMessage) :
    ChatMessage :=
  match existing with
  | none => message
  | some existing =>
    let withReactions :=
      if message.reactions = [] ∧ existing.reactions ≠ [] then
        { message with reactions := existing.reactions }
      else message
    withReactions.withAttachmentLocalPathsFrom existing

/-- `messageForCache` of `applyIncomingMessage`. -/
def messageForCache (message : ChatMessage) (existing : Option ChatMessage) : ChatMessage :=
  let cachedPinIsMissingFromEvent := !message.isDeleted && !message.isPinned &&
    message.pinnedAt.isNone && message.pinnedBy.isNone && existing.any isPinned
  let forCache := { message with
    isPinned := if cachedPinIsMissingFromEvent then true else message.isPinned
    pinnedAt :=
      if cachedPinIsMissingFromEvent then existing.bind pinnedAt else message.pinnedAt
    pinnedBy :=
      if cachedPinIsMissingFromEvent then existing.bind pinnedBy else message.pinnedBy
    reactions :=
      if message.reactions = [] then (existing.map reactions).getD []
      else message.reactions }
  forCache.withAttachmentLocalPathsFrom existing

end ChatMessage

/-! ## Queries -/

/-- `chat_messages`. -/
abbrev MessageCache : Type := Table ChatMessage.id

namespace MessageCache

variable (cache : MessageCache)

/-- `observeMessages`. -/
def messages (roomId : String) : List ChatMessage :=
  sortBy createdAt (cache.rows.filter fun message => message.roomId = roomId)

/-- `pruneMessages`. -/
def pruneMessages (roomId : String) (keep : ℕ) : MessageCache :=
  let kept := ((sortBy (fun message => -message.createdAt)
    (cache.rows.filter fun message => message.roomId = roomId)).take keep).map ChatMessage.id
  cache.filter fun message => message.roomId ≠ roomId || kept.contains message.id

/-- `replaceMessages`. -/
def replaceMessages (roomId : String) (messages : List ChatMessage) (keep : ℕ) : MessageCache :=
  MessageCache.pruneMessages (messages.foldl Table.put cache) roomId keep

/-- `updateMessageDeleted`. -/
def updateMessageDeleted (roomId messageId text : String) : MessageCache :=
  cache.mapRows (fun message =>
    if message.roomId = roomId ∧ message.id = messageId then
      { message with
        text, isDeleted := true, isPinned := false, pinnedAt := none, pinnedBy := none }
    else message) fun message => by split <;> rfl

/-- `updateMessageStatus`. -/
def updateMessageStatus (messageId : String) (status : MessageStatus) : MessageCache :=
  cache.mapRows (fun message => if message.id = messageId then { message with status } else message)
    fun message => by split <;> rfl

/-- `updateMessagePin`. -/
def updateMessagePin (roomId messageId : String) (isPinned : Bool) (pinnedAt : Option ℤ)
    (pinnedBy : Option String) : MessageCache :=
  cache.mapRows (fun message =>
    if message.roomId = roomId ∧ message.id = messageId then
      { message with isPinned, pinnedAt, pinnedBy }
    else message) fun message => by split <;> rfl

/-- `updateMessageReactions`. -/
def updateMessageReactions (roomId messageId : String) (reactions : List MessageReactionSummary) :
    MessageCache :=
  cache.mapRows (fun message =>
    if message.roomId = roomId ∧ message.id = messageId then { message with reactions }
    else message) fun message => by split <;> rfl

end MessageCache

/-! ## The functions -/

inductive CacheCall where
  | refreshMessages (roomId : String)
  | loadOlderMessages (roomId : String)
  /-- A message event, or a message that is being sent or was. -/
  | applyIncomingMessage (message : ChatMessage)
  | upsertMessage (message : ChatMessage)
  | deleteMessage (roomId messageId : String)
  | downloadAndCacheAttachment (roomId key : String)
  | markMessageDeleted (roomId messageId : String)
  | updateMessageStatus (messageId : String) (status : MessageStatus)
  | updateMessagePin (roomId messageId : String) (pinned : Bool) (pinnedAt : Option ℤ)
      (pinnedBy : Option String)
  | updateMessageReactions (roomId messageId : String) (reactions : List MessageReactionSummary)
  | removeMessage (messageId : String)
  | removeRoom (roomId : String)
  | clear

/-- Where a function waits. -/
inductive CacheStage where
  | begin
  /-- The server has been asked, after what is cached has been read. -/
  | requested (current : List ChatMessage)
  /-- What is cached is looked up for each message of a response. -/
  | preserving (rest merged : List ChatMessage)
  | replacing (merged : List ChatMessage)
  /-- The messages are written one after another. -/
  | upserting (rest : List ChatMessage)
  | writing (message : ChatMessage) (rest : List ChatMessage)
  | pruning (roomId : String) (rest : List ChatMessage)

/-- What becomes of what is waited for. -/
inductive CacheChance where
  | ok
  | fails
  /-- The server has answered, and the messages have been resolved. -/
  | reply (messages : List ChatMessage)
  | downloaded (localPath : String)
  deriving DecidableEq

/-- The messages are written, if there are any. -/
def upsertAll : List ChatMessage → Next CacheStage Unit
  | [] => .done ()
  | messages => .goto (.upserting messages)

/-- How a function begins. -/
def beginCache (cache : MessageCache) : CacheCall → MessageCache × Next CacheStage Unit
  | .refreshMessages roomId => (cache, .goto (.requested (cache.messages roomId)))
  | .loadOlderMessages roomId =>
    match cache.messages roomId with
    | [] => (cache, .done ())
    | current => (cache, .goto (.requested current))
  | .applyIncomingMessage message =>
    (cache, .goto (.writing (message.messageForCache (cache.get message.id)) []))
  | .upsertMessage message => (cache, .goto (.upserting [message]))
  | .deleteMessage _ _ => (cache, .goto (.requested []))
  | .downloadAndCacheAttachment _ _ => (cache, .goto (.requested []))
  | .markMessageDeleted roomId messageId =>
    (cache.updateMessageDeleted roomId messageId "消息已删除", .done ())
  | .updateMessageStatus messageId status =>
    (cache.updateMessageStatus messageId status, .done ())
  | .updateMessagePin roomId messageId pinned pinnedAt pinnedBy =>
    (cache.updateMessagePin roomId messageId pinned pinnedAt pinnedBy, .done ())
  | .updateMessageReactions roomId messageId reactions =>
    (cache.updateMessageReactions roomId messageId reactions, .done ())
  | .removeMessage messageId => (cache.delete messageId, .done ())
  | .removeRoom roomId => (cache.filter fun message => message.roomId ≠ roomId, .done ())
  | .clear => (Table.empty, .done ())

/-- What is done with a response, or a download. -/
def answerCache (cache : MessageCache) (current : List ChatMessage) :
    CacheCall → CacheChance → Next CacheStage Unit
  | .refreshMessages _, .reply messages =>
    .goto (.preserving (sortBy createdAt messages) [])
  | .loadOlderMessages _, .reply messages =>
    upsertAll (sortBy createdAt
      (messages.filter fun message => !(current.any fun known => known.id = message.id)))
  | .deleteMessage _ _, .reply [deleted] => upsertAll [deleted]
  | .downloadAndCacheAttachment roomId key, .downloaded localPath =>
    upsertAll (((cache.messages roomId).filter fun message =>
      message.parts.any fun part => part.attachment.any fun attachment => attachment.key = key).map
        fun message => message.withAttachmentLocalPath key localPath)
  | _, _ => .done ()

/-- One of the functions, from one query to the next.  `refreshMessages` keeps as many messages of a
room as the others. -/
def cacheStmt (keep : ℕ) (cache : MessageCache) (c : CacheCall) (stage : CacheStage)
    (x : CacheChance) : MessageCache × Next CacheStage Unit :=
  match stage with
  | .begin => beginCache cache c
  | .requested current => (cache, answerCache cache current c x)
  | .preserving [] merged => (cache, .goto (.replacing merged))
  | .preserving (message :: rest) merged =>
    (cache, .goto (.preserving rest
      (merged ++ [message.preserveCachedMessageFields (cache.get message.id)])))
  | .replacing merged =>
    match c with
    | .refreshMessages roomId => (cache.replaceMessages roomId merged keep, .done ())
    | _ => (cache, .done ())
  | .upserting [] => (cache, .done ())
  | .upserting (message :: rest) =>
    (cache, .goto (.writing (message.preserveCachedMessageFields (cache.get message.id)) rest))
  | .writing message rest => (cache.put message, .goto (.pruning message.roomId rest))
  | .pruning roomId rest => (cache.pruneMessages roomId keep, upsertAll rest)

end RedcodeIm.Android
