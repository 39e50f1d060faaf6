import RedcodeIm.H5.ChatStore

/-!
# The open chat of the web client

`stores/chat-detail.ts`: the room that is open, its messages, and what is stored of them.  Every
action goes on after each thing it has waited for, whatever has happened to the store meanwhile.

* `DetailStage` — where an action waits, and what it has kept until then.
* `chatDetail` — the actions, from one thing they wait for to the next.

Left out are the search index, which has a storage of its own, the list of chats, and the flags and
texts that only the page shows; an attachment may be sent while another one is, which
`uploadingAttachment` prevents.
-/

namespace RedcodeIm.H5

open Overlap (Next System)

/-- The store, and the messages that are stored. -/
structure DetailWorld where
  roomId : String
  messages : List ChatMessage
  quotedMessage : Option ChatMessage
  saved : MessageDb

/-- The actions.  An event comes with what the store reads of it, a message as
`mapWebSocketMessage` has it. -/
inductive DetailCall where
  | enterRoom (roomId : String)
  | leaveRoom
  | sendText (content : String)
  | sendAttachment
  | quoteMessage (messageId : String)
  | clearQuote
  | resendMessage (messageId : String)
  | deleteMessage (messageId : String)
  | setMessagePinned (messageId : String) (pinned : Bool)
  | loadUntilFound (messageId : String) (maxPages : ℕ)
  | message (message : ChatMessage)
  | messageUpdate (roomId messageId : String) (isDeleted : Option Bool)
  | messageRead (roomId messageId readerId : String)
  | pinUpdate (roomId messageId : String) (isPinned : Bool) (pinnedAt : Option ℤ)
      (pinnedBy : Option String)

/-- What follows once messages have been placed in the store. -/
inductive AfterPlace where
  | finish
  | flush (localId content : String)

/-- What follows once messages have been stored. -/
inductive AfterSave where
  | finish
  | place (messages : List ChatMessage) (after : AfterPlace)
  | request (localId content : String)
  | delete (messageId : String) (previous : List ChatMessage)
  | pin (messageId : String) (previous : List ChatMessage)
  | page (messageId : String) (pagesLeft : ℕ) (nothingNew : Bool)

/-- Where an action waits.  The room is the one that the action has named to what it waits for;
with `previous`, which the code keeps by itself, it is the one that was open then. -/
inductive DetailStage where
  | begin
  | cached (roomId : String)
  | remote (roomId : String)
  | saving (roomId : String) (messages : List ChatMessage) (next : AfterSave)
  | resumed (roomId : String) (next : AfterSave)
  | prepared (text : String) (quote : Option ChatMessageQuote)
  | requested (roomId localId content : String) (pending : Option ChatMessage)
  | conflicted (localId : String)
  | deleting (roomId : String) (previous : List ChatMessage)
  | pinning (roomId : String) (previous : List ChatMessage)
  | resolving (message : ChatMessage)
  | retrying (roomId : String) (failed : ChatMessage)
  | uploading
  | uploaded (roomId : String)
  | older (roomId messageId : String) (pagesLeft : ℕ) (known : List String)

/-- What becomes of what is waited for. -/
inductive DetailChance where
  | ok
  | fails
  /-- A request fails because the messages of the room have become encrypted, or no longer are. -/
  | conflict
  | reply (messages : List ChatMessage)
  | ready (e2ee : Bool) (stamp : String) (now : ℤ)
  | attached (e2ee : Bool) (attachment : MessageAttachment) (stamp : String) (now : ℤ)
  deriving DecidableEq

/-! ## Parts of the actions -/

/-- `toMessageQuote`. -/
def toMessageQuote (m : ChatMessage) : ChatMessageQuote where
  id := m.id
  roomId := m.roomId
  senderId := m.senderId
  senderName := m.senderName
  content := m.content
  type := m.type
  timestamp := some m.timestamp
  isDeleted := m.isDeleted.value

/-- `createPendingMessage`. -/
def createPendingMessage (roomId content currentUserId : String) (quote : Option ChatMessageQuote)
    (e2eePending : Bool) (attachments : Option (List MessageAttachment)) (type : MessageType)
    (stamp : String) (now : ℤ) : ChatMessage where
  id := "local-" ++ stamp
  roomId := roomId
  senderId := currentUserId
  senderName := "我"
  content := content
  type := type
  timestamp := now
  status := some (some .sending)
  quotedMessage := some quote
  attachments := some attachments
  raw := some (if e2eePending then some [("e2ee_pending", "true")] else none)

/-- The message with the id, changed. -/
def change (messageId : String) (f : ChatMessage → ChatMessage) (messages : List ChatMessage) :
    List ChatMessage :=
  messages.map fun message => if message.id = messageId then f message else message

def withStatus (status : MessageStatus) (message : ChatMessage) : ChatMessage :=
  { message with status := some (some status) }

/-- `persist`, up to what it waits for. -/
def persist (w : DetailWorld) (messages : List ChatMessage) (next : AfterSave) : DetailStage :=
  if w.roomId = "" then .resumed "" next else .saving w.roomId messages next

/-- `upsertLocalMessage`. -/
def upsertLocalMessage (w : DetailWorld) (message : ChatMessage) (after : AfterPlace) :
    DetailWorld × Next DetailStage Unit :=
  let nextMessages := mergeMessages w.messages [message]
  (w, .goto (persist w nextMessages (.place nextMessages after)))

/-- `flushPendingMessage`, up to its request. -/
def flushPendingMessage (w : DetailWorld) (localId content : String) :
    DetailWorld × Next DetailStage Unit :=
  if w.roomId = "" then (w, .done ())
  else
    let messages := change localId (withStatus .sending) w.messages
    ({ w with messages }, .goto (persist w messages (.request localId content)))

/-- What `flushPendingMessage` does about a request that has failed. -/
def markFailed (w : DetailWorld) (localId : String) : DetailWorld × Next DetailStage Unit :=
  let messages := change localId (withStatus .failed) w.messages
  ({ w with messages }, .goto (persist w messages .finish))

/-- A message that was sent, as it is shown. -/
def visibleSent (pending : Option ChatMessage) (sent : ChatMessage) : ChatMessage :=
  match pending with
  | none => sent
  | some pending =>
    match pending.attachments.value with
    | none => { sent with content := pending.content }
    | some attachments => { sent with
        content := pending.content
        attachments := some (some attachments)
        type := pending.type }

/-- One turn of the loop of `loadUntilFound`. -/
def nextPage (w : DetailWorld) (messageId : String) (pagesLeft : ℕ) :
    DetailWorld × Next DetailStage Unit :=
  match pagesLeft, w.messages with
  | 0, _ => (w, .done ())
  | _ + 1, [] => (w, .done ())
  | pagesLeft + 1, oldest :: rest =>
    if oldest.id = "" then (w, .done ())
    else
      (w, .goto (.older w.roomId messageId pagesLeft ((oldest :: rest).map ChatMessage.id)))

/-- A message that has been changed by somebody. -/
def updated (isDeleted : Option Bool) (message : ChatMessage) : ChatMessage :=
  { message with
    isDeleted := some (some (isDeleted.getD (message.isDeleted.value.getD false)))
    status := if isDeleted = some true then some (some .deleted) else message.status
    content := if isDeleted = some true then "" else message.content }

def markDeleted (message : ChatMessage) : ChatMessage :=
  { message with isDeleted := some (some true), status := some (some .deleted), content := "" }

def withPin (isPinned : Bool) (pinnedAt : Option ℤ) (pinnedBy : Option String)
    (message : ChatMessage) : ChatMessage :=
  { message with
    isPinned := some (some isPinned), pinnedAt := some pinnedAt, pinnedBy := some pinnedBy }

/-- The own messages up to the one with the id have been read. -/
def readUpTo (currentUser : Option String) (messageId : String) (messages : List ChatMessage) :
    List ChatMessage :=
  let target := messages.findIdx fun message => message.id = messageId
  messages.mapIdx fun index message =>
    if index ≤ target ∧ isSelf currentUser message ∧ message.isDeleted.value ≠ some true then
      withStatus .read message
    else message

/-- The pending message that a message which arrives is taken for. -/
def takenFor (currentUser : Option String) (w : DetailWorld) (message : ChatMessage) :
    Option ChatMessage :=
  if message.id = "" ∨ w.messages.any (fun item => item.id = message.id) then none
  else pendingOf currentUser message w.messages

/-! ## The actions -/

/-- How an action begins. -/
def beginDetail (currentUser : Option String) (w : DetailWorld) (c : DetailCall) (now : ℤ) :
    DetailWorld × Next DetailStage Unit :=
  match c with
  | .enterRoom roomId =>
    if roomId = "" then (w, .done ()) else ({ w with roomId }, .goto (.cached roomId))
  | .leaveRoom => ({ w with roomId := "", messages := [], quotedMessage := none }, .done ())
  | .sendText content =>
    let text := String.ofList ((content.toList.dropWhile trims).rdropWhile trims)
    if text = "" ∨ w.roomId = "" then (w, .done ())
    else (w, .goto (.prepared text (w.quotedMessage.map toMessageQuote)))
  | .sendAttachment => if w.roomId = "" then (w, .done ()) else (w, .goto .uploading)
  | .quoteMessage messageId =>
    match w.messages.find? fun item =>
      item.id = messageId && item.isDeleted.value ≠ some true with
    | none => (w, .done ())
    | some message => ({ w with quotedMessage := some message }, .done ())
  | .clearQuote => ({ w with quotedMessage := none }, .done ())
  | .resendMessage messageId =>
    match w.messages.find? fun message =>
      message.id = messageId && message.status.value = some .failed with
    | none => (w, .done ())
    | some failed =>
      if failed.e2eeDecryptionFailed.value = some true then (w, .goto (.retrying w.roomId failed))
      else flushPendingMessage w failed.id failed.content
  | .deleteMessage messageId =>
    if w.roomId = "" ∨ messageId = "" then (w, .done ())
    else
      let messages := change messageId markDeleted w.messages
      ({ w with messages }, .goto (persist w messages (.delete messageId w.messages)))
  | .setMessagePinned messageId pinned =>
    if w.roomId = "" ∨ messageId = "" then (w, .done ())
    else
      let messages := change messageId (withPin pinned (if pinned then some now else none)
        (if pinned then currentUser else none)) w.messages
      ({ w with messages }, .goto (persist w messages (.pin messageId w.messages)))
  | .loadUntilFound messageId maxPages =>
    if messageId = "" ∨ w.roomId = "" then (w, .done ())
    else if w.messages.any fun message => message.id = messageId then (w, .done ())
    else nextPage w messageId maxPages
  | .message message =>
    if message.id = "" ∨ w.messages.any (fun item => item.id = message.id) then (w, .done ())
    else
      match takenFor currentUser w message with
      | some pending =>
        let w := { w with messages := w.messages.filter fun item => item.id ≠ pending.id }
        if message.roomId ≠ w.roomId then (w, .done ())
        else upsertLocalMessage w
          { message with content := pending.content, status := some (some .sent) } .finish
      | none => (w, .goto (.resolving message))
  | .messageUpdate roomId messageId isDeleted =>
    if messageId = "" ∨ roomId ≠ w.roomId then (w, .done ())
    else
      let messages := change messageId (updated isDeleted) w.messages
      ({ w with messages }, .goto (persist w messages .finish))
  | .messageRead roomId messageId readerId =>
    if messageId = "" ∨ roomId ≠ w.roomId ∨ some readerId = currentUser then (w, .done ())
    else if w.messages.any fun message => message.id = messageId then
      let messages := readUpTo currentUser messageId w.messages
      ({ w with messages }, .goto (persist w messages .finish))
    else (w, .done ())
  | .pinUpdate roomId messageId isPinned pinnedAt pinnedBy =>
    if messageId = "" ∨ roomId ≠ w.roomId then (w, .done ())
    else
      let messages := change messageId (withPin isPinned pinnedAt pinnedBy) w.messages
      ({ w with messages }, .goto (persist w messages .finish))

/-- How an action goes on after `persist`. -/
def resumeDetail (w : DetailWorld) (roomId : String) :
    AfterSave → DetailWorld × Next DetailStage Unit
  | .finish => (w, .done ())
  | .place messages after =>
    match after with
    | .finish => ({ w with messages }, .done ())
    | .flush localId content => flushPendingMessage { w with messages } localId content
  | .request localId content =>
    let pending := w.messages.find? fun message => message.id = localId
    (w, .goto (.requested w.roomId localId content (pending.filter isE2eePending)))
  | .delete messageId previous =>
    if isLocalId messageId then (w, .done ()) else (w, .goto (.deleting roomId previous))
  | .pin messageId previous =>
    if isLocalId messageId then (w, .done ()) else (w, .goto (.pinning roomId previous))
  | .page messageId pagesLeft nothingNew =>
    if w.messages.any fun message => message.id = messageId then (w, .done ())
    else if nothingNew then (w, .done ())
    else nextPage w messageId pagesLeft

/-- One of the actions, from one thing it waits for to the next. -/
def detailStmt (currentUser : Option String) (w : DetailWorld) (c : DetailCall)
    (stage : DetailStage) (x : DetailChance) : DetailWorld × Next DetailStage Unit :=
  match stage, x with
  | .begin, .ready _ _ now => beginDetail currentUser w c now
  | .cached roomId, x =>
    let cached := if x = .ok then w.saved.loadMessages roomId else []
    ({ w with messages := if cached = [] then w.messages else cached }, .goto (.remote roomId))
  | .remote _, .reply remote =>
    let messages := mergeMessages w.messages remote
    ({ w with messages }, .goto (persist w messages .finish))
  | .saving roomId messages next, x =>
    ({ w with saved := if x = .ok then w.saved.saveMessages roomId messages else w.saved },
      .goto (.resumed roomId next))
  | .resumed roomId next, _ => resumeDetail w roomId next
  | .prepared text quote, .ready e2ee stamp now =>
    let pending := createPendingMessage w.roomId text (currentUser.getD "") quote e2ee none .text
      stamp now
    upsertLocalMessage { w with quotedMessage := none } pending (.flush pending.id text)
  | .requested _ localId _ pending, .reply [sent] =>
    let messages := mergeMessages (w.messages.filter fun message => message.id ≠ localId)
      [withStatus .sent (visibleSent pending sent)]
    ({ w with messages }, .goto (persist w messages .finish))
  | .requested _ localId _ _, .conflict => (w, .goto (.conflicted localId))
  | .requested _ localId _ _, .fails => markFailed w localId
  | .conflicted localId, .ok => markFailed w localId
  | .deleting _ previous, .fails =>
    ({ w with messages := previous }, .goto (persist w previous .finish))
  | .pinning _ previous, .fails =>
    ({ w with messages := previous }, .goto (persist w previous .finish))
  | .resolving _, .reply [message] =>
    if message.id = "" ∨ message.roomId ≠ w.roomId then (w, .done ())
    else upsertLocalMessage w message .finish
  | .retrying _ _, .reply [resolved] => upsertLocalMessage w resolved .finish
  | .uploading, .attached e2ee attachment stamp now =>
    if e2ee then
      let pending := createPendingMessage w.roomId (attachment.name.getD "[加密附件]")
        (currentUser.getD "") none true (some [attachment]) .mixed stamp now
      upsertLocalMessage { w with quotedMessage := none } pending
        (.flush pending.id pending.content)
    else (w, .goto (.uploaded w.roomId))
  | .uploaded _, .reply [sent] =>
    upsertLocalMessage { w with quotedMessage := none } (withStatus .sent sent) .finish
  | .older _ messageId pagesLeft known, .reply older =>
    if older = [] then (w, .done ())
    else
      let messages := mergeMessages w.messages older
      ({ w with messages }, .goto (persist w messages
        (.page messageId pagesLeft (older.all fun message => known.contains message.id))))
  -- a request fails, or whatever follows has nothing to do with the messages
  | _, _ => (w, .done ())

/-- What may become of it: the server answers a request with messages of the room that it is about,
and a decryption leaves whose message it is. -/
def detailPossible (_ : DetailWorld) (_ : DetailCall) (stage : DetailStage) (x : DetailChance) :
    Bool :=
  match stage, x with
  | .begin, .ready .. => true
  | .cached _, x => x = .ok || x = .fails
  | .remote roomId, .reply remote => remote.all fun message => message.roomId = roomId
  | .remote _, x => x = .fails
  | .saving .., x => x = .ok || x = .fails
  | .resumed .., x => x = .ok
  | .prepared .., .ready .. => true
  | .prepared .., x => x = .fails
  | .requested roomId _ _ _, .reply [sent] => sent.roomId = roomId
  | .requested .., x => x = .fails || x = .conflict
  | .conflicted _, x => x = .ok || x = .fails
  | .deleting .., x => x = .ok || x = .fails
  | .pinning .., x => x = .ok || x = .fails
  | .resolving message, .reply [resolved] => resolved.identity = message.identity
  | .retrying _ failed, .reply [resolved] => resolved.identity = failed.identity
  | .uploading, .attached .. => true
  | .uploading, x => x = .fails
  | .uploaded roomId, .reply [sent] => sent.roomId = roomId
  | .uploaded _, x => x = .fails
  | .older roomId _ _ _, .reply older => older.all fun message => message.roomId = roomId
  | .older .., x => x = .fails
  | _, _ => false

/-- The store of the open chat. -/
def chatDetail (currentUser : Option String) :
    System DetailWorld DetailCall DetailStage Unit DetailChance Unit where
  start _ := .begin
  stmt := detailStmt currentUser
  possible := detailPossible
  tick w _ := w

/-! ## What is stored -/

theorem saved_nextPage (w : DetailWorld) (messageId : String) (pagesLeft : ℕ) :
    (nextPage w messageId pagesLeft).1.saved = w.saved := by
  unfold nextPage
  split
  · rfl
  · rfl
  · split <;> rfl

theorem saved_flushPendingMessage (w : DetailWorld) (localId content : String) :
    (flushPendingMessage w localId content).1.saved = w.saved := by
  unfold flushPendingMessage
  split <;> rfl

theorem saved_beginDetail (currentUser : Option String) (w : DetailWorld) (c : DetailCall)
    (now : ℤ) : (beginDetail currentUser w c now).1.saved = w.saved := by
  cases c with
  | resendMessage messageId =>
    unfold beginDetail
    dsimp only
    split
    · rfl
    · split
      · rfl
      · exact saved_flushPendingMessage ..
  | loadUntilFound messageId maxPages =>
    unfold beginDetail
    dsimp only
    split
    · rfl
    · split
      · rfl
      · exact saved_nextPage ..
  | message m =>
    unfold beginDetail
    dsimp only
    split
    · rfl
    · split
      · split <;> rfl
      · rfl
  | messageRead roomId messageId readerId =>
    unfold beginDetail
    dsimp only
    split
    · rfl
    · split <;> rfl
  | leaveRoom => rfl
  | clearQuote => rfl
  | _ =>
    unfold beginDetail
    dsimp only
    split <;> rfl

theorem saved_resumeDetail (w : DetailWorld) (roomId : String) (next : AfterSave) :
    (resumeDetail w roomId next).1.saved = w.saved := by
  cases next with
  | finish | request => rfl
  | place messages after =>
    cases after with
    | finish => rfl
    | flush localId content => exact saved_flushPendingMessage ..
  | page messageId pagesLeft nothingNew =>
    unfold resumeDetail
    dsimp only
    split
    · rfl
    · split
      · rfl
      · exact saved_nextPage ..
  | _ =>
    unfold resumeDetail
    dsimp only
    split <;> rfl

/-- Only a save writes messages. -/
theorem saved_detailStmt {currentUser : Option String} {w : DetailWorld} {c : DetailCall}
    {stage : DetailStage} {x : DetailChance}
    (h : ∀ roomId messages next, stage ≠ .saving roomId messages next) :
    (detailStmt currentUser w c stage x).1.saved = w.saved := by
  cases stage with
  | begin =>
    cases x with
    | ready e2ee stamp now => exact saved_beginDetail ..
    | _ => rfl
  | saving roomId messages next => exact absurd rfl (h roomId messages next)
  | resumed roomId next => exact saved_resumeDetail ..
  | requested | uploaded =>
    cases x with
    | reply messages => rcases messages with _ | ⟨sent, _ | ⟨other, rest⟩⟩ <;> rfl
    | _ => rfl
  | resolving message =>
    cases x with
    | reply messages =>
      rcases messages with _ | ⟨resolved, _ | ⟨other, rest⟩⟩
      · rfl
      · unfold detailStmt
        dsimp only
        split <;> rfl
      · rfl
    | _ => rfl
  | retrying roomId failed =>
    cases x with
    | reply messages => rcases messages with _ | ⟨resolved, _ | ⟨other, rest⟩⟩ <;> rfl
    | _ => rfl
  | uploading =>
    cases x with
    | attached e2ee attachment stamp now => cases e2ee <;> rfl
    | _ => rfl
  | older roomId messageId pagesLeft known =>
    cases x with
    | reply older =>
      unfold detailStmt
      dsimp only
      split <;> rfl
    | _ => rfl
  | _ => cases x <;> rfl

end RedcodeIm.H5
