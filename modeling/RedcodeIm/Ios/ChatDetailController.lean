import Mathlib.Data.Prod.Lex
import Mathlib.Data.String.Basic
import RedcodeIm.Lib.Overlap
import RedcodeIm.Lib.SortBy
import RedcodeIm.Lib.Table
import RedcodeIm.Lib.Text

/-!
# The open chat of the iOS client

`ChatDetailController`: the room that is open, its messages, and what the cache store keeps of
them.  The controller runs on the main actor, so that nothing else happens to it but where it waits
for the network, for the encryption or for the decryption.

* `ChatMessage` — the messages, and the changes made to them.
* `ControllerStage` — where a method waits, and what it has kept until then.
* `chatDetailController` — the methods, from one thing they wait for to the next.

Left out are the flags and texts that only the page shows, and the files of attachments.
-/

namespace RedcodeIm.Ios

open Overlap (Next System)
open SortBy

/-! ## Messages -/

inductive ChatMessageType where
  | text
  | image
  | audio
  | video
  | file
  | system
  | mixed
  deriving DecidableEq

inductive ChatMessageStatus where
  | sending
  | sent
  | failed
  | deleted
  | read
  deriving DecidableEq

structure ChatMessageAttachment where
  key : String
  name : Option String
  mimeType : Option String
  size : Option ℤ
  width : Option ℤ
  height : Option ℤ
  durationMilliseconds : Option ℤ
  thumbnailKey : Option String
  deriving DecidableEq

structure ChatMessagePart where
  position : ℤ
  partType : ChatMessageType
  text : Option String
  attachment : Option ChatMessageAttachment
  deriving DecidableEq

structure MessageReactionSummary where
  reactionKey : String
  count : ℤ
  hasSelf : Bool
  deriving DecidableEq

structure ChatMessageQuote where
  id : String
  roomID : String
  senderID : String
  senderName : String
  content : String
  messageType : ChatMessageType
  timestamp : Option ℤ
  isDeleted : Bool
  parts : List ChatMessagePart
  deriving DecidableEq

/-- `ChatMessage`; what is known of the encryption of a message is its JSON text. -/
structure ChatMessage where
  id : String
  roomID : String
  senderID : String
  senderName : String
  content : String
  encryptedContent : Option String := none
  encryptionMetadata : Option String := none
  messageType : ChatMessageType := .text
  status : Option ChatMessageStatus := some .sent
  timestamp : ℤ
  isDeleted : Bool := false
  isPinned : Bool := false
  pinnedAt : Option ℤ := none
  pinnedBy : Option String := none
  quotedMessage : Option ChatMessageQuote := none
  parts : List ChatMessagePart := []
  attachments : List ChatMessageAttachment := []
  reactions : List MessageReactionSummary := []
  deriving DecidableEq

namespace ChatMessage

/-- What a message becomes that is made anew of another one. -/
def plain (m : ChatMessage) : ChatMessage :=
  { m with encryptedContent := none, encryptionMetadata := none }

def replacingID (m : ChatMessage) (id : String) (status : ChatMessageStatus) : ChatMessage :=
  { m.plain with id, status := some status }

def replacingStatus (m : ChatMessage) (status : ChatMessageStatus) : ChatMessage :=
  { m.plain with status := some status }

def replacingParts (m : ChatMessage) (parts : List ChatMessagePart) : ChatMessage :=
  { m.plain with parts, attachments := parts.filterMap ChatMessagePart.attachment }

def replacingReactions (m : ChatMessage) (reactions : List MessageReactionSummary) : ChatMessage :=
  { m.plain with reactions }

def replacingDeleted (m : ChatMessage) : ChatMessage :=
  { m.plain with
    content := "", status := some .deleted, isDeleted := true, isPinned := false
    pinnedAt := none, pinnedBy := none }

def replacingPinned (m : ChatMessage) (pinned : Bool) (pinnedAt : Option ℤ)
    (pinnedBy : Option String) : ChatMessage :=
  { m.plain with
    isPinned := pinned
    pinnedAt := if pinned then pinnedAt else none
    pinnedBy := if pinned then pinnedBy else none }

/-- `merged(with:)`. -/
def merged (m incoming : ChatMessage) : ChatMessage where
  id := m.id
  roomID := incoming.roomID
  senderID := incoming.senderID
  senderName := incoming.senderName
  content := incoming.content
  messageType := incoming.messageType
  status := incoming.status.or m.status
  timestamp := incoming.timestamp
  isDeleted := incoming.isDeleted
  isPinned := incoming.isPinned
  pinnedAt := incoming.pinnedAt.or m.pinnedAt
  pinnedBy := incoming.pinnedBy.or m.pinnedBy
  quotedMessage := incoming.quotedMessage.or m.quotedMessage
  parts := if incoming.parts = [] then m.parts else incoming.parts
  attachments := if incoming.attachments = [] then m.attachments else incoming.attachments
  reactions := if incoming.reactions = [] then m.reactions else incoming.reactions

/-- The message has an id that the controller has given it. -/
def isLocal (m : ChatMessage) : Bool := "local-".toList.isPrefixOf m.id.toList

def quotedID (m : ChatMessage) : String := (m.quotedMessage.map (·.id)).getD ""

/-- `matchesPending(serverMessage:)`. -/
def matchesPending (m serverMessage : ChatMessage) : Bool :=
  m.isLocal && m.roomID = serverMessage.roomID && m.senderID = serverMessage.senderID &&
    m.content = serverMessage.content && m.quotedID = serverMessage.quotedID

/-- `asQuote`. -/
def asQuote (m : ChatMessage) : ChatMessageQuote :=
  ⟨m.id, m.roomID, m.senderID, m.senderName, m.content, m.messageType, some m.timestamp,
    m.isDeleted, m.parts⟩

end ChatMessage

/-- A dictionary of messages by their ids.  The order of its values is that in which they were
first put into it; it is sorted by the times afterwards. -/
abbrev ByID : Type := Table ChatMessage.id

def ByID.absorb (byID : ByID) (message : ChatMessage) : ByID :=
  if message.id = "" then byID
  else
    let byID := byID.filter fun pending => !pending.matchesPending message
    match byID.get message.id with
    | some previous => byID.put (previous.merged message)
    | none => byID.put message

/-- `mergeMessages(current:incoming:)`; no two of the current messages have one id. -/
def mergeMessages (current incoming : List ChatMessage) : List ChatMessage :=
  let byID := (current.filter (·.id ≠ "")).foldl Table.put (Table.empty : ByID)
  sortBy ChatMessage.timestamp (incoming.foldl ByID.absorb byID).rows

/-! ## The cache store -/

/-- A record of the cache store: the room that it was saved for, and what was saved. -/
structure CachedMessage where
  roomID : String
  draft : ChatMessage
  deriving DecidableEq

/-- What is left of a message in the cache store, and what is read of it there. -/
def CachedMessage.message (record : CachedMessage) : ChatMessage :=
  { record.draft.plain with
    roomID := record.roomID
    status := some (record.draft.status.getD .sent)
    pinnedAt := none
    pinnedBy := none
    quotedMessage := record.draft.quotedMessage.map fun quote =>
      ⟨quote.id, record.roomID, "", "", "", .text, none, false, []⟩
    attachments := record.draft.parts.filterMap ChatMessagePart.attachment }

/-- `maxCachedMessagesPerRoom`. -/
def maxMessagesPerRoom : ℕ := 200

def loadMessages (cache : List CachedMessage) (roomID : String) : List ChatMessage :=
  if Text.trim roomID = "" then []
  else
    (sortBy (fun record => record.draft.timestamp)
      (cache.filter fun record => record.roomID = Text.trim roomID)).map CachedMessage.message

def saveMessages (cache : List CachedMessage) (roomID : String) (messages : List ChatMessage) :
    List CachedMessage :=
  if Text.trim roomID = "" then cache
  else
    let sorted := sortBy ChatMessage.timestamp (messages.filter fun m => Text.trim m.id ≠ "")
    cache.filter (fun record => record.roomID ≠ Text.trim roomID) ++
      (sorted.drop (sorted.length - maxMessagesPerRoom)).map (CachedMessage.mk (Text.trim roomID))

/-! ## The methods -/

/-- The controller, and the cache store. -/
structure ControllerWorld where
  roomID : String
  messages : List ChatMessage
  quotedMessage : Option ChatMessage
  cache : List CachedMessage

/-- What `pendingMedia` is made of, besides the room. -/
structure MediaDraft where
  senderID : String
  senderName : String
  content : String
  messageType : ChatMessageType
  parts : List ChatMessagePart

inductive ControllerCall where
  | enterRoom (roomID : String)
  | leaveRoom
  | quoteMessage (messageID : String)
  | clearQuote
  | sendText (content senderID senderName : String)
  | sendPreparedMedia (media : MediaDraft)
  | resendMessage (messageID : String)
  | applyIncomingMessage (message : ChatMessage)
  | applyMessageRead (messageID readerID : String) (currentUserID : Option String)
  | applyMessageUpdate (messageID : String) (isDeleted : Bool)
  | applyPinUpdate (messageID : String) (isPinned : Bool) (pinnedAt : Option ℤ)
      (pinnedBy : Option String)
  | deleteMessage (messageID : String)
  | setMessagePinned (messageID : String) (pinned : Bool)
  | toggleReaction (messageID reactionKey : String)
  | refreshReactions (messageID : String)

/-- Where a method waits.  The room is the one that the method has named to what it waits for, and
with `previous` the one that was open when it was kept. -/
inductive ControllerStage where
  | begin
  | remote (roomID : String)
  | routingText (localID : String)
  | requesting (roomID localID : String)
  | uploading (pending : ChatMessage)
  | routingMedia (pending : ChatMessage)
  | routingResend (failed : ChatMessage)
  | requestingResend (roomID : String)
  | deleting (roomID : String) (previous : List ChatMessage)
  | pinning (roomID : String) (previous : List ChatMessage)
  | reacting (messageID : String)

/-- What becomes of what is waited for, and of what is done until the next thing is: `reply` is
`none` if it throws, and `stores` tells which of the writes to the cache store succeed. -/
structure ControllerChance where
  reply : Option (List ChatMessage) := none
  encryptedMessageID : Option String := none
  parts : List ChatMessagePart := []
  reactions : List MessageReactionSummary := []
  stores : Bool := true
  storesAgain : Bool := true
  stamp : String := ""
  now : ℤ := 0

/-- The messages, with that of an id changed. -/
def mapID (messageID : String) (f : ChatMessage → ChatMessage) (messages : List ChatMessage) :
    List ChatMessage :=
  messages.map fun message => if message.id = messageID then f message else message

/-- `persist`; the second value tells if it has not thrown. -/
def persist (w : ControllerWorld) (stores : Bool) : ControllerWorld × Bool :=
  if w.roomID = "" then (w, true)
  else if stores then ({ w with cache := saveMessages w.cache w.roomID w.messages }, true)
  else (w, false)

/-- The messages are replaced and stored; what follows depends on whether they could be. -/
def showing (w : ControllerWorld) (messages : List ChatMessage) (stores : Bool)
    (next : ControllerWorld → Bool → ControllerWorld × Next ControllerStage Unit) :
    ControllerWorld × Next ControllerStage Unit :=
  let r := persist { w with messages } stores
  next r.1 r.2

/-- A method that ends with what is shown. -/
def shown (w : ControllerWorld) (messages : List ChatMessage) (stores : Bool) :
    ControllerWorld × Next ControllerStage Unit :=
  showing w messages stores fun w _ => (w, .done ())

/-- What sending does if something throws. -/
def markFailed (w : ControllerWorld) (localID : String) (stores : Bool) :
    ControllerWorld × Next ControllerStage Unit :=
  shown w (mapID localID (·.replacingStatus .failed) w.messages) stores

/-- A message that was sent is merged into the others. -/
def mergeSent (w : ControllerWorld) (localID : String) (sent : ChatMessage)
    (x : ControllerChance) : ControllerWorld × Next ControllerStage Unit :=
  showing w (mergeMessages w.messages [sent]) x.stores fun w stored =>
    if stored then (w, .done ()) else markFailed w localID x.storesAgain

/-- `flushPendingMessage`, up to what it waits for. -/
def flushPendingMessage (w : ControllerWorld) (localID : String) (stores : Bool) :
    ControllerWorld × Next ControllerStage Unit :=
  showing w (mapID localID (·.replacingStatus .sending) w.messages) stores fun w stored =>
    if stored then (w, .goto (.routingText localID)) else (w, .done ())

/-- `visibleReactions`. -/
def visibleReactions (reactions : List MessageReactionSummary) : List MessageReactionSummary :=
  sortBy (fun reaction => toLex (!reaction.hasSelf, toLex (-reaction.count, reaction.reactionKey)))
    (reactions.filter fun reaction => reaction.reactionKey ≠ "" && 0 < reaction.count)

/-- How a method begins. -/
def beginController (w : ControllerWorld) (c : ControllerCall) (x : ControllerChance) :
    ControllerWorld × Next ControllerStage Unit :=
  match c with
  | .enterRoom roomID =>
    let roomID := Text.trim roomID
    if roomID = "" then (w, .done ())
    else if !x.stores then ({ w with roomID }, .done ())
    else
      let cached := loadMessages w.cache roomID
      ({ w with
          roomID
          messages := if cached = [] then w.messages else sortBy ChatMessage.timestamp cached },
        .goto (.remote roomID))
  | .leaveRoom => ({ w with roomID := "", messages := [], quotedMessage := none }, .done ())
  | .quoteMessage messageID =>
    ({ w with quotedMessage := w.messages.find? fun m => m.id = messageID && !m.isDeleted },
      .done ())
  | .clearQuote => ({ w with quotedMessage := none }, .done ())
  | .sendText content senderID senderName =>
    if Text.trim content = "" ∨ w.roomID = "" then (w, .done ())
    else
      let pending : ChatMessage := {
        id := "local-" ++ x.stamp
        roomID := w.roomID, senderID, senderName
        content := Text.trim content
        status := some .sending
        timestamp := x.now
        quotedMessage := w.quotedMessage.map ChatMessage.asQuote }
      showing { w with quotedMessage := none } (mergeMessages w.messages [pending]) x.stores
        fun w stored =>
          if stored then flushPendingMessage w pending.id x.storesAgain else (w, .done ())
  | .sendPreparedMedia media =>
    if media.parts = [] ∨ w.roomID = "" then (w, .done ())
    else
      let pending : ChatMessage := {
        id := "local-" ++ x.stamp
        roomID := w.roomID
        senderID := media.senderID
        senderName := media.senderName
        content := media.content
        messageType := media.messageType
        status := some .sending
        timestamp := x.now
        quotedMessage := w.quotedMessage.map ChatMessage.asQuote
        parts := media.parts
        attachments := media.parts.filterMap ChatMessagePart.attachment }
      showing { w with quotedMessage := none } (mergeMessages w.messages [pending]) x.stores
        fun w stored => if stored then (w, .goto (.uploading pending)) else (w, .done ())
  | .resendMessage messageID =>
    match w.messages.find? fun m => m.id = messageID && m.status = some .failed with
    | none => (w, .done ())
    | some failed =>
      if failed.attachments ≠ [] then (w, .goto (.routingResend failed))
      else flushPendingMessage w failed.id x.stores
  | .applyIncomingMessage message =>
    if message.roomID ≠ w.roomID then (w, .done ())
    else shown w (mergeMessages w.messages [message]) x.stores
  | .applyMessageRead messageID readerID currentUserID =>
    if w.roomID = "" ∨ messageID = "" ∨ some readerID = currentUserID then (w, .done ())
    else
      match w.messages.find? fun m => m.id = messageID with
      | none => (w, .done ())
      | some readMessage =>
        shown w (w.messages.map fun m =>
          if some m.senderID = currentUserID ∧ m.isDeleted = false ∧
              m.timestamp ≤ readMessage.timestamp then m.replacingStatus .read
          else m) x.stores
  | .applyMessageUpdate messageID isDeleted =>
    if w.roomID = "" ∨ messageID = "" then (w, .done ())
    else shown w (mapID messageID
      (fun m => if isDeleted then m.replacingDeleted else m) w.messages) x.stores
  | .applyPinUpdate messageID isPinned pinnedAt pinnedBy =>
    if w.roomID = "" ∨ messageID = "" then (w, .done ())
    else shown w (mapID messageID (·.replacingPinned isPinned pinnedAt pinnedBy) w.messages)
      x.stores
  | .deleteMessage messageID =>
    if w.roomID = "" ∨ messageID = "" then (w, .done ())
    else
      let previous := w.messages
      showing w (mapID messageID ChatMessage.replacingDeleted w.messages) x.stores
        fun w stored => if stored then (w, .goto (.deleting w.roomID previous)) else (w, .done ())
  | .setMessagePinned messageID pinned =>
    if w.roomID = "" ∨ messageID = "" then (w, .done ())
    else
      let previous := w.messages
      let pin (m : ChatMessage) := m.replacingPinned pinned (some x.now) (some m.senderID)
      showing w (mapID messageID pin w.messages) x.stores fun w stored =>
        if stored then (w, .goto (.pinning w.roomID previous)) else (w, .done ())
  | .toggleReaction messageID reactionKey =>
    if w.roomID = "" ∨ messageID = "" ∨ Text.trim reactionKey = "" then (w, .done ())
    else (w, .goto (.reacting messageID))
  | .refreshReactions messageID =>
    if w.roomID = "" ∨ messageID = "" then (w, .done ()) else (w, .goto (.reacting messageID))

/-- One of the methods, from one thing it waits for to the next. -/
def controllerStmt (w : ControllerWorld) (c : ControllerCall) (stage : ControllerStage)
    (x : ControllerChance) : ControllerWorld × Next ControllerStage Unit :=
  match stage, x.reply with
  | .begin, _ => beginController w c x
  | .remote _, some resolved => shown w (mergeMessages w.messages resolved) x.stores
  | .routingText localID, some _ =>
    match x.encryptedMessageID with
    | some id =>
      match w.messages.find? fun m => m.id = localID with
      | some pending => mergeSent w localID (pending.replacingID id .sent) x
      | none => markFailed w localID x.stores
    | none => (w, .goto (.requesting w.roomID localID))
  | .routingText localID, none => markFailed w localID x.stores
  | .requesting _ localID, some [sent] => mergeSent w localID (sent.replacingStatus .sent) x
  | .requesting _ localID, _ => markFailed w localID x.stores
  | .uploading pending, some _ =>
    let uploadedPending := pending.replacingParts x.parts
    showing w (mapID pending.id (fun _ => uploadedPending) w.messages) x.stores fun w stored =>
      if stored then (w, .goto (.routingMedia uploadedPending))
      else markFailed w pending.id x.storesAgain
  | .uploading pending, none => markFailed w pending.id x.stores
  | .routingMedia pending, some _ =>
    match x.encryptedMessageID with
    | some id => mergeSent w pending.id (pending.replacingID id .sent) x
    | none => (w, .goto (.requesting w.roomID pending.id))
  | .routingMedia pending, none => markFailed w pending.id x.stores
  | .routingResend failed, some _ =>
    match x.encryptedMessageID with
    | some id => shown w (mergeMessages w.messages [failed.replacingID id .sent]) x.stores
    | none => (w, .goto (.requestingResend w.roomID))
  | .requestingResend _, some [sent] =>
    shown w (mergeMessages w.messages [sent.replacingStatus .sent]) x.stores
  | .deleting _ previous, some [updated] =>
    showing w (mergeMessages w.messages [updated]) x.stores fun w stored =>
      if stored then (w, .done ()) else shown w previous x.storesAgain
  | .deleting _ previous, _ => shown w previous x.stores
  | .pinning _ _, some _ => (w, .done ())
  | .pinning _ previous, none => shown w previous x.stores
  | .reacting messageID, some _ =>
    if w.roomID = "" ∨ messageID = "" then (w, .done ())
    else shown w (mapID messageID (·.replacingReactions (visibleReactions x.reactions)) w.messages)
      x.stores
  -- something throws where nothing is done about it
  | _, _ => (w, .done ())

/-- What may become of it: the server answers a request with messages of the room that it is
about, and with one message where one was sent. -/
def controllerPossible (_ : ControllerWorld) (_ : ControllerCall) (stage : ControllerStage)
    (x : ControllerChance) : Bool :=
  match stage, x.reply with
  | .remote roomID, some resolved => resolved.all fun m => m.roomID = roomID
  | .requesting roomID _, some [sent] => sent.roomID = roomID
  | .requesting .., some _ => false
  | .requestingResend roomID, some [sent] => sent.roomID = roomID
  | .requestingResend _, some _ => false
  | .deleting roomID _, some [updated] => updated.roomID = roomID
  | .deleting .., some _ => false
  | _, _ => true

/-- The controller of the open chat. -/
def chatDetailController :
    System ControllerWorld ControllerCall ControllerStage Unit ControllerChance Unit where
  start _ := .begin
  stmt := controllerStmt
  possible := controllerPossible
  tick w _ := w

end RedcodeIm.Ios
