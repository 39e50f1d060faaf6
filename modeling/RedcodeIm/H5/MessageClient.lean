import Mathlib.Algebra.GroupWithZero.Nat
import RedcodeIm.H5.ChatDetail
import RedcodeIm.H5.EncryptedMessages

/-!
# The messages of the web client, in memory and in its stores

The store of the open chat, the store of the list of chats and the service that decrypts, over the
stores they share.  None of these is encrypted: the stored messages, the index of the search, the
stored chats, and what `localStorage` tells of the attachments that were downloaded.

* `replaceRoomIndex`, `fetchAndCache` — the index of the search, and the attachments.
* `withinPolicy_fetched` — the attachments stay within the policy.
* `MessageClient`, `MessageClient.act` — whatever happens, in any order.

The other entries of `localStorage` (who is signed in, a background) have nothing to do with
messages and are left out.
-/

namespace RedcodeIm.H5

open SortBy
open Overlap (Next)

/-! ## The index of the search -/

/-- A row of `message_search`. -/
structure SearchRow where
  id : String
  roomId : String
  roomName : String
  senderId : String
  senderName : String
  content : String
  type : MessageType
  timestamp : ℤ
  deriving DecidableEq

def normalizeContent (message : ChatMessage) : String :=
  let content := String.ofList ((message.content.toList.dropWhile trims).rdropWhile trims)
  if content ≠ "" then content
  else
    match message.type with
    | .text => "[消息]"
    | .image => "[图片]"
    | .audio => "[语音]"
    | .video => "[视频]"
    | .file => "[文件]"
    | .system => "[系统消息]"
    | .mixed => "[多媒体消息]"

def toSearchRow (roomId roomName : String) (message : ChatMessage) : SearchRow where
  id := message.id
  roomId := roomId
  roomName := roomName
  senderId := message.senderId
  senderName := message.senderName
  content := normalizeContent message
  type := message.type
  timestamp := message.timestamp

/-- `INSERT OR REPLACE`; a table of the full-text search has no primary key. -/
def insertRow (fts : Bool) (index : List SearchRow) (row : SearchRow) : List SearchRow :=
  (if fts then index else index.filter fun r => r.id ≠ row.id) ++ [row]

def replaceRoomIndex (fts : Bool) (index : List SearchRow) (roomId roomName : String)
    (messages : List ChatMessage) : List SearchRow :=
  if roomId = "" then index
  else
    let sorted := sortBy ChatMessage.timestamp
      (messages.filter fun message => message.id ≠ "" && message.isDeleted.value ≠ some true)
    ((sorted.drop (sorted.length - 200)).map (toSearchRow roomId roomName)).foldl (insertRow fts)
      (index.filter fun r => r.roomId ≠ roomId)

/-! ## Attachments that were downloaded -/

/-- `BlobCacheMetadata`. -/
structure BlobCacheMetadata where
  objectKey : String
  mimeType : String
  size : ℕ
  cachedAt : ℕ
  deriving DecidableEq

/-- The entries of `localStorage` that tell of attachments. -/
abbrev BlobEntries : Type := List (String × BlobCacheMetadata)

def blobTtlMs : ℕ := 7 * 24 * 60 * 60 * 1000

def blobMaxEntries : ℕ := 500

def blobMaxBytes : ℕ := 100 * 1024 * 1024

/-- The oldest are dropped, while there are too many or they are too large. -/
def evictBlobs : BlobEntries → BlobEntries
  | [] => []
  | oldest :: rest =>
    if blobMaxEntries < rest.length + 1 ∨
        blobMaxBytes < ((oldest :: rest).map fun e => e.2.size).sum then
      evictBlobs rest
    else oldest :: rest

/-- `cleanup`. -/
def cleanup (now : ℕ) (entries : BlobEntries) : BlobEntries :=
  let survivors := entries.filter fun e => now - e.2.cachedAt ≤ blobTtlMs
  let kept := evictBlobs (sortBy (fun e => e.2.cachedAt) survivors)
  survivors.filter fun e => kept.contains e

/-- What is met when an attachment is loaded: whether its data are there still, the time, and what
a download brings. -/
structure Download where
  hasBlob : Bool
  now : ℕ
  fetched : Option (String × ℕ)
  deriving DecidableEq

/-- `loadAttachment`. -/
def fetchAndCache (entries : BlobEntries) (objectKey : String) (d : Download) : BlobEntries :=
  let cacheKey := "message:" ++ objectKey
  let rest := entries.filter fun e => e.1 ≠ cacheKey
  let cached := (entries.lookup cacheKey).any fun m =>
    m.objectKey = objectKey && decide (d.now - m.cachedAt ≤ blobTtlMs) && d.hasBlob
  if cached then entries
  else
    match d.fetched with
    | some (mimeType, size) =>
      cleanup d.now (rest ++ [(cacheKey, { objectKey, mimeType, size, cachedAt := d.now })])
    | none => rest

/-- One entry for every key, and no more of them than the policy of the cache admits. -/
structure WithinPolicy (entries : BlobEntries) : Prop where
  keys : (entries.map Prod.fst).Nodup
  count : entries.length ≤ blobMaxEntries
  bytes : (entries.map fun e => e.2.size).sum ≤ blobMaxBytes

section

variable {entries : BlobEntries}

theorem withinPolicy_nil : WithinPolicy [] := ⟨List.nodup_nil, Nat.zero_le _, Nat.zero_le _⟩

theorem WithinPolicy.filter (h : WithinPolicy entries) (p : String × BlobCacheMetadata → Bool) :
    WithinPolicy (entries.filter p) := by
  refine ⟨h.keys.sublist (List.filter_sublist.map _),
    (List.length_filter_le p entries).trans h.count, le_trans ?_ h.bytes⟩
  clear h
  induction entries with
  | nil => exact le_rfl
  | cons e rest ih => by_cases he : p e <;> simp [he] <;> omega

theorem evictBlobs_spec (h : (entries.map Prod.fst).Nodup) :
    WithinPolicy (evictBlobs entries) ∧ evictBlobs entries <:+ entries := by
  induction entries with
  | nil => exact ⟨withinPolicy_nil, List.suffix_rfl⟩
  | cons oldest rest ih =>
    unfold evictBlobs
    split
    · exact (ih (List.nodup_cons.1 h).2).imp_right (·.trans (List.suffix_cons ..))
    · rename_i hfits
      rw [not_or, not_lt, not_lt] at hfits
      exact ⟨⟨h, hfits.1, hfits.2⟩, List.suffix_rfl⟩

theorem withinPolicy_cleanup (now : ℕ) (h : (entries.map Prod.fst).Nodup) :
    WithinPolicy (cleanup now entries) := by
  unfold cleanup
  dsimp only
  generalize hs : entries.filter _ = survivors
  have hkeys : (survivors.map Prod.fst).Nodup := hs ▸ h.sublist (List.filter_sublist.map _)
  have hperm := sortBy_perm (fun e : String × BlobCacheMetadata => e.2.cachedAt) survivors
  obtain ⟨hkept, hsuffix⟩ := evictBlobs_spec ((hperm.map _).nodup_iff.2 hkeys)
  generalize evictBlobs _ = kept at *
  -- what is kept is found again among the survivors, in another order
  have hfound : (survivors.filter fun e => kept.contains e).Perm kept := by
    refine (List.perm_ext_iff_of_nodup (hkeys.of_map.filter _) hkept.keys.of_map).2 fun e => ?_
    simpa using fun he => hperm.subset (hsuffix.subset he)
  exact ⟨(hfound.map _).nodup_iff.2 hkept.keys, hfound.length_eq.trans_le hkept.count,
    (hfound.map _).sum_nat.trans_le hkept.bytes⟩

theorem WithinPolicy.fetchAndCache (h : WithinPolicy entries) (objectKey : String)
    (d : Download) : WithinPolicy (fetchAndCache entries objectKey d) := by
  unfold H5.fetchAndCache
  dsimp only
  split
  · exact h
  · split
    · refine withinPolicy_cleanup _ ?_
      rw [List.map_append, List.nodup_append]
      refine ⟨(h.filter _).keys, List.nodup_singleton _, ?_⟩
      rintro key hkey _ hnew rfl
      obtain ⟨e, he, rfl⟩ := List.mem_map.1 hkey
      exact of_decide_eq_true (List.mem_filter.1 he).2 (List.mem_singleton.1 hnew)
    · exact h.filter _

end

/-- **The cache stays within its policy**, whatever is fetched and however the clock is set. -/
theorem withinPolicy_fetched (fetches : List (String × Download)) :
    WithinPolicy (fetches.foldl (fun entries f => fetchAndCache entries f.1 f.2) []) := by
  induction fetches using List.reverseRecOn with
  | nil => exact withinPolicy_nil
  | append_singleton fetches f ih =>
    rw [List.foldl_append]
    exact ih.fetchAndCache ..

/-- `e2eePartsOf`. -/
def e2eePartsOf (J : PartsJson) (message : ChatMessage) : Option (List E2eeAttachmentPart) :=
  message.raw.value.bind fun raw => (raw.lookup "e2ee_parts").bind J.parse

/-- `load` of `CachedAttachment`: an encrypted attachment is decrypted in memory. -/
def loadAttachment (J : PartsJson) (entries : BlobEntries) (message : ChatMessage)
    (attachment : MessageAttachment) (d : Download) : BlobEntries :=
  if message.roomId = "" ∨ attachment.key = "" then entries
  else if (e2eePartsOf J message).any fun parts =>
      parts.any fun part => part.objectKey = attachment.key then entries
  else fetchAndCache entries attachment.key d

/-! ## The client -/

/-- What a handler waits for, beside what its stage tells. -/
inductive Waits where
  | nothing
  | resolution (r : Resolution)
  /-- Of the messages that the server has answered with, some are resolved and one is being. -/
  | rows (resolved : List ChatMessage) (r : Resolution) (rest : List ChatMessage)
  | index (roomId roomName : String) (messages : List ChatMessage)

inductive ClientTask where
  | detail (c : DetailCall) (chat : Option ChatSummary) (stage : DetailStage)
  | chat (c : ChatCall) (stage : ChatStage)
  | done

structure ClientCall where
  task : ClientTask
  waits : Waits

structure MessageClient where
  detail : DetailWorld
  /-- The open chat, as the list of chats had it. -/
  chat : Option ChatSummary
  chats : Chats
  service : MessageService
  /-- The messages that were sent from here and that the list of chats is to be told of. -/
  sent : List ChatMessage
  calls : List ClientCall
  summaries : List ChatSummary
  index : List SearchRow
  localStorage : BlobEntries

/-- What is stored, none of it encrypted. -/
structure Stored where
  messages : MessageDb
  index : List SearchRow
  summaries : List ChatSummary
  localStorage : BlobEntries

inductive ClientChance where
  | detail (x : DetailChance)
  | chat (x : ChatChance)
  /-- The server answers with the messages of a room. -/
  | rows (messages : List ChatMessage)
  /-- A message has been resolved. -/
  | resolved

inductive ClientAct where
  | detail (c : DetailCall) (chat : Option ChatSummary)
  | event (message : ChatMessage)
  /-- The list of chats is told of the first, the second, ... message that was sent. -/
  | tell (n : ℕ)
  | run (i : ℕ) (x : ClientChance)
  /-- A decryption ends. -/
  | settle (n : ℕ) (outcome : Option Decrypted)
  | clearCache
  /-- An attachment of a message of the open chat is shown. -/
  | showAttachment (i j : ℕ) (d : Download)
  /-- Whatever else becomes of the list of chats: it is loaded, refreshed, pinned, read. -/
  | changeChats (change : List ChatSummary → Chats → Chats) (saved : Bool)
  | clearMessages (roomId : String)
  /-- What is stored is cleared, of the chats maybe not. -/
  | clearStored (keepChats : Bool)
  /-- The page is loaded anew. -/
  | reload

namespace MessageClient

/-- The page, just loaded, over what is stored. -/
def load (s : Stored) : MessageClient where
  detail := { roomId := "", messages := [], quotedMessage := none, saved := s.messages }
  chat := none
  chats := Table.empty
  service := {}
  sent := []
  calls := []
  summaries := s.summaries
  index := s.index
  localStorage := s.localStorage

/-- Nothing has been stored. -/
def empty : MessageClient :=
  load { messages := Table.empty, index := [], summaries := [], localStorage := [] }

variable (w : MessageClient)

def stored : Stored :=
  { messages := w.detail.saved, index := w.index, summaries := w.summaries,
    localStorage := w.localStorage }

def roomName : String :=
  match (w.chat.map ChatSummary.name).filter (· ≠ "") with
  | some name => name
  | none =>
    ((((w.chats.get w.detail.roomId).map ChatSummary.name).filter (· ≠ "")).getD "聊天")

def setCall (i : ℕ) (call : ClientCall) : MessageClient :=
  { w with calls := w.calls.set i call }

/-- A handler of the open chat comes to a stage, and asks for what it will wait for there. -/
def gotoDetail (i : ℕ) (c : DetailCall) (chat : Option ChatSummary) :
    Next DetailStage Unit → MessageClient
  | .done () => w.setCall i ⟨.done, .nothing⟩
  | .goto (.resolving message) =>
    let (service, r) := w.service.resolveEncryptedMessage message
    { w with service }.setCall i ⟨.detail c chat (.resolving message), .resolution r⟩
  | .goto (.retrying roomId failed) =>
    let (service, r) := w.service.retryEncryptedMessage failed
    { w with service }.setCall i ⟨.detail c chat (.retrying roomId failed), .resolution r⟩
  | .goto stage => w.setCall i ⟨.detail c chat stage, .nothing⟩

/-- What the list of chats will be told of. -/
def sentBy (stage : DetailStage) (x : DetailChance) : List ChatMessage :=
  match stage, x with
  | .requested _ _ _ pending, .reply [sent] => [withStatus .sent (visibleSent pending sent)]
  | .uploaded _, .reply [sent] => [withStatus .sent sent]
  | _, _ => []

/-- The chat that is shown once an action has begun. -/
def chatOf (c : DetailCall) (chat : Option ChatSummary) (stage : DetailStage) :
    Option ChatSummary :=
  match c, stage with
  | .enterRoom roomId, .begin => if roomId = "" then w.chat else chat.or (w.chats.get roomId)
  | .leaveRoom, .begin => none
  | _, _ => w.chat

/-- A handler of the open chat goes on. -/
def goOnDetail (currentUser : Option String) (i : ℕ) (c : DetailCall) (chat : Option ChatSummary)
    (stage : DetailStage) (x : DetailChance) : MessageClient :=
  let out := detailStmt currentUser w.detail c stage x
  let w' := { w with
    detail := out.1
    chat := w.chatOf c chat stage
    sent := w.sent ++ sentBy stage x }
  match stage, out.2 with
  | .saving _ messages _, .goto next =>
    w'.setCall i ⟨.detail c chat next, .index w'.detail.roomId w'.roomName messages⟩
  | _, next => w'.gotoDetail i c chat next

/-- The messages that the server has answered with are resolved, one after the other. -/
def resolveRows (currentUser : Option String) (i : ℕ) (c : DetailCall) (chat : Option ChatSummary)
    (stage : DetailStage) (resolved : List ChatMessage) : List ChatMessage → MessageClient
  | [] => w.goOnDetail currentUser i c chat stage (.reply resolved)
  | message :: rest =>
    let (service, r) := w.service.resolveEncryptedMessage message
    { w with service }.setCall i ⟨.detail c chat stage, .rows resolved r rest⟩

def runDetail (fts : Bool) (currentUser : Option String) (i : ℕ) (c : DetailCall)
    (chat : Option ChatSummary) (stage : DetailStage) (waits : Waits) (x : ClientChance) :
    Option MessageClient :=
  match waits, x with
  | .nothing, .rows messages =>
    let sorted := sortBy ChatMessage.timestamp messages
    if currentUser.any (· ≠ "") then some (w.resolveRows currentUser i c chat stage [] sorted)
    else some (w.goOnDetail currentUser i c chat stage (.reply sorted))
  | .nothing, .detail x => some (w.goOnDetail currentUser i c chat stage x)
  | .resolution r, .resolved =>
    (w.service.await r).map fun message =>
      w.goOnDetail currentUser i c chat stage (.reply [message])
  | .rows resolved r rest, .resolved =>
    (w.service.await r).map fun message =>
      w.resolveRows currentUser i c chat stage (resolved ++ [message]) rest
  | .index roomId roomName messages, .detail x =>
    let index := if x = .ok then replaceRoomIndex fts w.index roomId roomName messages else w.index
    some ({ w with index }.goOnDetail currentUser i c chat stage x)
  | _, _ => none

/-- A handler of the list of chats comes to a stage. -/
def gotoChat (i : ℕ) (c : ChatCall) : Next ChatStage ChatAnswer → MessageClient
  | .done _ => w.setCall i ⟨.done, .nothing⟩
  | .goto (.resolve message) =>
    let (service, r) := w.service.resolveEncryptedMessage message
    { w with service }.setCall i ⟨.chat c (.resolve message), .resolution r⟩
  | .goto stage => w.setCall i ⟨.chat c stage, .nothing⟩

/-- A handler of the list of chats goes on. -/
def goOnChat (currentUser : Option String) (i : ℕ) (c : ChatCall) (stage : ChatStage)
    (x : ChatChance) : MessageClient :=
  let world : ChatWorld :=
    { messages := w.detail.saved, chats := w.chats, summaries := w.summaries,
      openRoom := some w.detail.roomId }
  let out := chatStmt currentUser world c stage x
  { w with
    detail := { w.detail with saved := out.1.messages }
    chats := out.1.chats
    summaries := out.1.summaries }.gotoChat i c out.2

def runChat (currentUser : Option String) (i : ℕ) (c : ChatCall) (stage : ChatStage)
    (waits : Waits) (x : ClientChance) : Option MessageClient :=
  match waits, x with
  | .nothing, .chat x => some (w.goOnChat currentUser i c stage x)
  | .resolution r, .resolved =>
    (w.service.await r).map fun message => w.goOnChat currentUser i c stage (.resolved message)
  | _, _ => none

def act (J : PartsJson) (fts : Bool) (currentUser : Option String) :
    ClientAct → Option MessageClient
  | .detail c chat =>
    some { w with calls := w.calls ++ [⟨.detail c chat .begin, .nothing⟩] }
  | .event message =>
    some { w with calls := w.calls ++ [⟨.chat (.event message) .received, .nothing⟩] }
  | .tell n =>
    (w.sent[n]?).map fun message =>
      { w with calls := w.calls ++ [⟨.chat (.incoming message) (.load message), .nothing⟩] }
  | .run i x =>
    match w.calls[i]? with
    | some ⟨.detail c chat stage, waits⟩ => w.runDetail fts currentUser i c chat stage waits x
    | some ⟨.chat c stage, waits⟩ => w.runChat currentUser i c stage waits x
    | _ => none
  | .settle n outcome =>
    (w.service.settle J (currentUser.getD "") n outcome).map fun service => { w with service }
  | .clearCache => some { w with service := w.service.clear }
  | .showAttachment i j d =>
    (w.detail.messages[i]?).bind fun message =>
      ((message.attachments.value.getD [])[j]?).map fun attachment =>
        { w with localStorage := loadAttachment J w.localStorage message attachment d }
  | .changeChats change saved =>
    let chats := change w.summaries w.chats
    some { w with chats, summaries := if saved then chats.rows else w.summaries }
  | .clearMessages roomId =>
    some { w with
      detail := { w.detail with saved := w.detail.saved.filter fun row => row.roomId ≠ roomId } }
  | .clearStored keepChats =>
    some { w with
      detail := { w.detail with saved := Table.empty }
      index := []
      summaries := if keepChats then w.summaries else []
      localStorage := [] }
  | .reload => some (load w.stored)

end MessageClient

end RedcodeIm.H5
