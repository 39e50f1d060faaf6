import Mathlib.Data.List.DropRight
import Mathlib.Data.Prod.Lex
import RedcodeIm.H5.MessageStorage
import RedcodeIm.Lib.Overlap

/-!
# The list of chats of the web client

What `stores/chat.ts` makes of the messages that arrive: they are stored with the other messages
of their room, and the chat of the room shows the last of them and how many are unread.

* `ChatSummary`, `sortChats` — the chats, in their order.
* `ChatStage`, `chatStore` — `handleWebSocketEvent` and `applyIncomingMessage`, which wait for the
  storage and for the decryption, and go on beside each other.

Whoever is signed in stays so.  The name of a chat and its other details are the server's, and no
message changes them; `raw`, which only the search reads, is left out, and so is which rooms the
connection is subscribed to.
-/

namespace RedcodeIm.H5

open SortBy List
open Overlap (Next System)

/-! ## Chats -/

inductive ChatType where
  | privateChat
  | group
  | favorite
  deriving DecidableEq

/-- `ChatSummary`. -/
structure ChatSummary where
  id : String
  roomId : String
  name : String
  avatar : Option String
  avatarObjectKey : Option String
  lastMessage : String
  lastMessageTime : ℤ
  unreadCount : ℕ
  type : ChatType
  isPinned : Bool
  isMuted : Bool
  deriving DecidableEq

/-- The chats; every room has at most one. -/
abbrev Chats : Type := Table ChatSummary.roomId

/-- What the chats are in the order of: the pinned ones first, then the favourites, then the
newest. -/
def ChatSummary.rank (chat : ChatSummary) : Bool ×ₗ Bool ×ₗ ℤ :=
  toLex (!chat.isPinned, toLex (decide (chat.type ≠ .favorite), -chat.lastMessageTime))

def sortChats (chats : Chats) : Chats where
  rows := sortBy ChatSummary.rank chats.rows
  nodup := (((sortBy_perm ChatSummary.rank chats.rows).map ChatSummary.roomId).nodup_iff).2
    chats.nodup

/-- The characters that `String.prototype.trim` removes. -/
def trims (c : Char) : Bool :=
  c.toNat ∈ [9, 10, 11, 12, 13, 32, 160, 5760, 8232, 8233, 8239, 8287, 12288, 65279]
    ∨ 8192 ≤ c.toNat ∧ c.toNat ≤ 8202

def buildPreview (message : ChatMessage) : String :=
  let content := String.ofList ((message.content.toList.dropWhile trims).rdropWhile trims)
  if message.isDeleted.value = some true then "[消息已删除]"
  else if content ≠ "" then content
  else
    match message.type with
    | .image => "[图片]"
    | .audio => "[语音]"
    | .video => "[视频]"
    | .file => "[文件]"
    | .mixed => "[多媒体消息]"
    | .system => "[系统消息]"
    | .text => "[消息]"

/-- A message put with the others of its room, over the one that has its id. -/
def mergeMessage (messages : List ChatMessage) (message : ChatMessage) : List ChatMessage :=
  sortBy ChatMessage.timestamp <|
    if messages.any fun item => item.id = message.id then
      messages.modify (messages.findIdx fun item => item.id = message.id) (·.spread message)
    else messages ++ [message]

/-- The message is from whoever is signed in. -/
def isSelf (currentUser : Option String) (message : ChatMessage) : Bool :=
  some message.senderId = currentUser

/-- The chats once a message is shown in that of its room. -/
def showMessage (currentUser : Option String) (chats : Chats) (message : ChatMessage)
    (alreadyCached : Bool) : Chats :=
  sortChats <|
    match chats.get message.roomId with
    | some current => chats.put { current with
        lastMessage := buildPreview message
        lastMessageTime := message.timestamp
        unreadCount :=
          if isSelf currentUser message || alreadyCached then current.unreadCount
          else current.unreadCount + 1 }
    | none => chats.put {
        id := message.roomId
        roomId := message.roomId
        name := if message.senderName = "" then "新会话" else message.senderName
        avatar := none
        avatarObjectKey := none
        lastMessage := buildPreview message
        lastMessageTime := message.timestamp
        unreadCount := if isSelf currentUser message then 0 else 1
        type := .privateChat
        isPinned := false
        isMuted := false }

/-! ## The handlers -/

/-- The stored messages, the chats and their stored copy.  Which room is open is known to the
store of the open chat only. -/
structure ChatWorld where
  messages : MessageDb
  chats : Chats
  summaries : List ChatSummary
  openRoom : Option String

/-- `handleWebSocketEvent` with the message that `mapWebSocketMessage` makes of the event, or
`applyIncomingMessage` with one that was sent from here. -/
inductive ChatCall where
  | event (message : ChatMessage)
  | incoming (message : ChatMessage)

def ChatCall.message : ChatCall → ChatMessage
  | event message => message
  | incoming message => message

/-- Where a handler waits. -/
inductive ChatStage where
  | received
  | dropPending (message : ChatMessage) (cached : List ChatMessage) (pending : ChatMessage)
  | resolve (message : ChatMessage)
  | load (message : ChatMessage)
  | save (message : ChatMessage) (cached : List ChatMessage)
  | update (message : ChatMessage) (alreadyCached : Bool)
  | store (chats : List ChatSummary) (isOpen : Bool)
  deriving DecidableEq

inductive ChatAnswer where
  | duplicate
  | ignored
  /-- The message was shown, while its room was open or was not. -/
  | shown (isOpen : Bool)
  deriving DecidableEq

/-- What becomes of what is waited for. -/
inductive ChatChance where
  | ok
  | fails
  | resolved (message : ChatMessage)
  deriving DecidableEq

/-- What no decryption changes of a message. -/
def ChatMessage.identity (m : ChatMessage) : String × String × String × ℤ :=
  (m.id, m.roomId, m.senderId, m.timestamp)

/-- There is something to decrypt. -/
def ChatMessage.isEncrypted (m : ChatMessage) : Bool :=
  m.encryptedContent.value.any (· ≠ "") || m.encryptionMetadata.value.isSome

/-- `loadCachedMessages`: nothing, if the storage cannot be read. -/
def loadCachedMessages (db : MessageDb) (roomId : String) (x : ChatChance) : List ChatMessage :=
  if x = .ok then db.loadMessages roomId else []

/-- `persistMessages`: nothing happens, if the storage cannot be written. -/
def persistMessages (db : MessageDb) (roomId : String) (messages : List ChatMessage)
    (x : ChatChance) : MessageDb :=
  if x = .ok then db.saveMessages roomId messages else db

/-- A message that was sent from here, and that comes back encrypted. -/
def isE2eePending (message : ChatMessage) : Bool :=
  message.raw.value.any fun raw => raw.lookup "e2ee_pending" = some "true"

def pendingOf (currentUser : Option String) (message : ChatMessage) (cached : List ChatMessage) :
    Option ChatMessage :=
  if message.senderId = currentUser.getD "" ∧ message.encryptedContent.value.any (· ≠ "") then
    cached.find? isE2eePending
  else none

/-- One of the handlers, from one thing it waits for to the next. -/
def chatStmt (currentUser : Option String) (w : ChatWorld) (c : ChatCall) (stage : ChatStage)
    (x : ChatChance) : ChatWorld × Next ChatStage ChatAnswer :=
  match stage with
  | .received =>
    let message := c.message
    let cached := loadCachedMessages w.messages message.roomId x
    if cached.any fun item => item.id = message.id then (w, .done .duplicate)
    else
      match pendingOf currentUser message cached with
      | some pending =>
        (w, .goto (.dropPending
          { message with content := pending.content, status := some (some .sent) } cached pending))
      | none => (w, .goto (.resolve message))
  | .dropPending message cached pending =>
    let rest := cached.filter fun item => item.id ≠ pending.id
    ({ w with messages := persistMessages w.messages message.roomId rest x }, .goto (.load message))
  | .resolve message =>
    match x with
    | .resolved resolved => (w, .goto (.load resolved))
    | _ => (w, .goto (.load message))
  | .load message =>
    if message.roomId = "" ∨ message.id = "" then (w, .done .ignored)
    else (w, .goto (.save message (loadCachedMessages w.messages message.roomId x)))
  | .save message cached =>
    let nextMessages := mergeMessage cached message
    ({ w with messages := persistMessages w.messages message.roomId nextMessages x },
      .goto (.update message (cached.any fun item => item.id = message.id)))
  | .update message alreadyCached =>
    let chats := showMessage currentUser w.chats message alreadyCached
    ({ w with chats }, .goto (.store chats.rows (decide (w.openRoom = some message.roomId))))
  | .store chats isOpen =>
    ({ w with summaries := if x = .ok then chats else w.summaries }, .done (.shown isOpen))

/-- What may become of it: a decryption leaves what is not encrypted, and otherwise leaves whose
message it is, and no handler fails between two things it waits for. -/
def chatPossible (_ : ChatWorld) (_ : ChatCall) (stage : ChatStage) (x : ChatChance) : Bool :=
  match stage, x with
  | .resolve message, .resolved resolved =>
    decide (resolved.identity = message.identity) &&
      (message.isEncrypted || decide (resolved = message))
  | .resolve _, _ => false
  | .update .., x => x = .ok
  | _, .resolved _ => false
  | _, _ => true

/-- The store, while rooms are opened and left. -/
def chatStore (currentUser : Option String) :
    System ChatWorld ChatCall ChatStage ChatAnswer ChatChance (Option String) where
  start
    | .event _ => .received
    | .incoming message => .load message
  stmt := chatStmt currentUser
  possible := chatPossible
  tick w openRoom := { w with openRoom }

/-! ## Messages merged -/

section

variable {messages : List ChatMessage} {message : ChatMessage}

theorem mem_modify {x : ChatMessage} {n : ℕ} (h : x ∈ messages.modify n (·.spread message)) :
    x ∈ messages ∨ ∃ y ∈ messages, y.spread message = x := by
  induction messages generalizing n with
  | nil => simp at h
  | cons y messages ih =>
    cases n with
    | zero =>
      rcases mem_cons.1 h with rfl | h
      · exact .inr ⟨y, mem_cons_self, rfl⟩
      · exact .inl (mem_cons_of_mem _ h)
    | succ n =>
      rcases mem_cons.1 h with rfl | h
      · exact .inl mem_cons_self
      · rcases ih h with h | ⟨z, hz, hx⟩
        · exact .inl (mem_cons_of_mem _ h)
        · exact .inr ⟨z, mem_cons_of_mem _ hz, hx⟩

/-- The message that has the id of the new one goes over into it, and the others stay. -/
theorem map_id_modify (h : messages.any (fun item => item.id = message.id) = true) :
    (messages.modify (messages.findIdx fun item => item.id = message.id) (·.spread message)).map
      ChatMessage.id = messages.map ChatMessage.id := by
  induction messages with
  | nil => rfl
  | cons y messages ih =>
    rw [findIdx_cons]
    by_cases hy : y.id = message.id
    · rw [decide_eq_true hy]
      show message.id :: messages.map ChatMessage.id = _
      rw [map_cons, hy]
    · rw [decide_eq_false hy]
      show y.id :: (messages.modify _ _).map ChatMessage.id = _
      rw [any_cons, decide_eq_false hy, Bool.false_or] at h
      rw [ih h, map_cons]

theorem mem_map_id_mergeMessage {id : String} :
    id ∈ (mergeMessage messages message).map ChatMessage.id ↔
      id ∈ messages.map ChatMessage.id ∨ id = message.id := by
  unfold mergeMessage
  rw [((sortBy_perm ChatMessage.timestamp _).map ChatMessage.id).mem_iff]
  by_cases hany : messages.any (fun item => item.id = message.id) = true
  · rw [if_pos hany, map_id_modify hany]
    refine ⟨.inl, ?_⟩
    rintro (h | rfl)
    · exact h
    · obtain ⟨y, hy, hid⟩ := any_eq_true.1 hany
      exact of_decide_eq_true hid ▸ mem_map_of_mem hy
  · rw [if_neg hany, map_append, mem_append, map_singleton, mem_singleton]

/-- The rooms that the messages of a merge name. -/
theorem roomId_of_mem_mergeMessage {x : ChatMessage} (h : x ∈ mergeMessage messages message) :
    x ∈ messages ∨ x.roomId = message.roomId := by
  unfold mergeMessage at h
  rw [mem_sortBy] at h
  split at h
  · rcases mem_modify h with h | ⟨y, -, rfl⟩
    · exact .inl h
    · exact .inr rfl
  · rcases mem_append.1 h with h | h
    · exact .inl h
    · exact .inr (mem_singleton.1 h ▸ rfl)

end

/-! ## The chats -/

theorem get_sortChats (chats : Chats) (roomId : String) :
    (sortChats chats).get roomId = chats.get roomId := by
  have hperm : (sortChats chats).rows.Perm chats.rows := sortBy_perm _ _
  cases h : chats.get roomId with
  | none =>
    refine Table.get_eq_none_iff.2 fun chat hchat => ?_
    exact Table.get_eq_none_iff.1 h chat (hperm.mem_iff.1 hchat)
  | some chat =>
    obtain rfl := Table.key_of_get h
    exact Table.get_of_mem (hperm.mem_iff.2 (Table.mem_of_get h))

/-- The chat of a room after a message has been shown. -/
theorem get_showMessage (currentUser : Option String) (chats : Chats) (message : ChatMessage)
    (alreadyCached : Bool) (roomId : String) :
    (roomId ≠ message.roomId ∧
        (showMessage currentUser chats message alreadyCached).get roomId = chats.get roomId) ∨
      roomId = message.roomId ∧ ∃ chat,
        (showMessage currentUser chats message alreadyCached).get roomId = some chat ∧
        chat.lastMessageTime = message.timestamp ∧
        ((∃ current, chats.get roomId = some current ∧ chat.unreadCount =
            if isSelf currentUser message || alreadyCached then current.unreadCount
            else current.unreadCount + 1) ∨
          chats.get roomId = none ∧
            chat.unreadCount = if isSelf currentUser message then 0 else 1) := by
  unfold showMessage
  rw [get_sortChats]
  cases h : chats.get message.roomId with
  | none =>
    rw [Table.get_put]
    by_cases hr : roomId = message.roomId
    · subst hr
      rw [if_pos rfl]
      exact .inr ⟨rfl, _, rfl, rfl, .inr ⟨h, rfl⟩⟩
    · rw [if_neg fun heq => hr heq.symm]
      exact .inl ⟨hr, rfl⟩
  | some current =>
    dsimp only
    rw [Table.get_put]
    have hroom : current.roomId = message.roomId := Table.key_of_get h
    by_cases hr : roomId = message.roomId
    · subst hr
      rw [if_pos hroom]
      exact .inr ⟨rfl, _, rfl, rfl, .inl ⟨current, h, rfl⟩⟩
    · rw [if_neg fun heq => hr (heq.symm.trans hroom)]
      exact .inl ⟨hr, rfl⟩

end RedcodeIm.H5
