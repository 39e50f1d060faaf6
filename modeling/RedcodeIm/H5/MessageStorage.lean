import RedcodeIm.H5.Messages

/-!
# The stored messages of the web client

`MessageStorage` of `storage/message-storage.ts`: the newest messages of every room, kept in the
browser.

* `loadMessages`, `saveMessages` — the messages of a room, read and written as a whole.
* `mem_savedIds`, `mem_savedIds_ne` — which messages there are after a room has been written.
* `mem_rows_saveMessages` — a row is one that was there, or comes from what was written.
-/

namespace RedcodeIm.H5

open SortBy Table

/-- A row of `messages`.  Its id and its time are those of the message. -/
structure StoredMessage where
  roomId : String
  payload : ChatMessage
  deriving DecidableEq

open StoredMessage

/-- The primary key. -/
def StoredMessage.id (row : StoredMessage) : String := row.payload.id

abbrev MessageDb : Type := Table StoredMessage.id

/-- `MAX_CACHE_COUNT`. -/
def maxCacheCount : ℕ := 200

/-- A value counts as true, by its JSON text. -/
def truthy (json : String) : Bool :=
  !(["null", "false", "0", "-0", "\"\""].contains json)

/-- The keys of the attachments of an encrypted message are not stored. -/
def sanitizeMessageForStorage (message : ChatMessage) : ChatMessage :=
  match message.raw.value with
  | none => message
  | some raw =>
    if (raw.lookup "e2ee_parts").any truthy then
      { message with raw := some (some (raw.filter fun p => p.1 ≠ "e2ee_parts")) }
    else message

namespace MessageDb

/-- `INSERT OR REPLACE`. -/
def replace (db : MessageDb) (row : StoredMessage) : MessageDb := (db.delete row.id).put row

/-- What `parseMessage` accepts. -/
def parses (message : ChatMessage) : Bool := message.id ≠ "" && message.roomId ≠ ""

def loadMessages (db : MessageDb) (roomId : String) : List ChatMessage :=
  if roomId = "" then []
  else
    (sortBy ChatMessage.timestamp
      ((db.rows.filter fun row => row.roomId = roomId).map payload)).filter parses

/-- `slice(-MAX_CACHE_COUNT)` of the messages in their order. -/
def trimmed (messages : List ChatMessage) : List ChatMessage :=
  let sorted := sortBy ChatMessage.timestamp messages
  sorted.drop (sorted.length - maxCacheCount)

def insertMessage (roomId : String) (db : MessageDb) (message : ChatMessage) : MessageDb :=
  if message.id = "" then db else db.replace ⟨roomId, sanitizeMessageForStorage message⟩

def saveMessages (db : MessageDb) (roomId : String) (messages : List ChatMessage) : MessageDb :=
  if roomId = "" then db
  else
    (trimmed messages).foldl (insertMessage roomId) (db.filter fun row => row.roomId ≠ roomId)

/-- The ids of the messages of a room that can be loaded. -/
def savedIds (db : MessageDb) (roomId : String) : List String :=
  (db.loadMessages roomId).map ChatMessage.id

end MessageDb

/-! ## What is stored of a message -/

@[simp] theorem id_sanitize (m : ChatMessage) : (sanitizeMessageForStorage m).id = m.id := by
  unfold sanitizeMessageForStorage
  split
  · rfl
  · split <;> rfl

@[simp] theorem roomId_sanitize (m : ChatMessage) :
    (sanitizeMessageForStorage m).roomId = m.roomId := by
  unfold sanitizeMessageForStorage
  split
  · rfl
  · split <;> rfl

namespace MessageDb

variable {db : MessageDb} {roomId r : String} {m : ChatMessage} {messages : List ChatMessage}

theorem parses_iff : parses m = true ↔ m.id ≠ "" ∧ m.roomId ≠ "" := by
  unfold parses
  rw [Bool.and_eq_true, decide_eq_true_iff, decide_eq_true_iff]

theorem mem_loadMessages : m ∈ db.loadMessages roomId ↔
    roomId ≠ "" ∧ ⟨roomId, m⟩ ∈ db.rows ∧ m.id ≠ "" ∧ m.roomId ≠ "" := by
  unfold loadMessages
  by_cases hr : roomId = ""
  · simp [hr]
  · rw [if_neg hr, List.mem_filter, mem_sortBy, parses_iff, List.mem_map]
    constructor
    · rintro ⟨⟨row, hrow, rfl⟩, hparses⟩
      obtain ⟨hmem, hroom⟩ := List.mem_filter.1 hrow
      obtain rfl : row.roomId = roomId := of_decide_eq_true hroom
      exact ⟨hr, hmem, hparses⟩
    · rintro ⟨-, hmem, hparses⟩
      exact ⟨⟨_, List.mem_filter.2 ⟨hmem, decide_eq_true rfl⟩, rfl⟩, hparses⟩

theorem mem_savedIds {id : String} : id ∈ db.savedIds roomId ↔
    ∃ m ∈ db.loadMessages roomId, m.id = id := List.mem_map

/-- No two messages that are stored have one id. -/
theorem nodup_savedIds (db : MessageDb) (roomId : String) : (db.savedIds roomId).Nodup := by
  unfold savedIds loadMessages
  by_cases hr : roomId = ""
  · rw [if_pos hr]
    exact List.nodup_nil
  · rw [if_neg hr]
    have hrows : ((db.rows.filter fun row => row.roomId = roomId).map StoredMessage.id).Nodup :=
      db.nodup.sublist (List.filter_sublist.map _)
    have hpayloads : (((db.rows.filter fun row => row.roomId = roomId).map
        payload).map ChatMessage.id).Nodup := by
      rw [List.map_map]
      exact hrows
    have hsorted := (((sortBy_perm ChatMessage.timestamp _).map ChatMessage.id).nodup_iff).2
      hpayloads
    exact hsorted.sublist (List.filter_sublist.map _)

theorem get_replace (row : StoredMessage) (k : String) :
    (db.replace row).get k = if row.id = k then some row else db.get k := by
  unfold replace
  rw [get_put]
  by_cases hk : row.id = k
  · rw [if_pos hk, if_pos hk]
  · rw [if_neg hk, if_neg hk, show db.delete row.id = db.filter fun x => !decide (x.id = row.id)
      from rfl, get_filter]
    cases hg : db.get k with
    | none => rfl
    | some x =>
      refine Option.filter_some_pos ?_
      rw [key_of_get hg]
      simpa using fun h : k = row.id => hk h.symm

theorem get_insertMessage (k : String) : (insertMessage roomId db m).get k =
    if m.id ≠ "" ∧ m.id = k then some ⟨roomId, sanitizeMessageForStorage m⟩ else db.get k := by
  unfold insertMessage
  by_cases hm : m.id = ""
  · rw [if_pos hm, if_neg fun h => h.1 hm]
  · rw [if_neg hm, get_replace]
    have hid : (mk roomId (sanitizeMessageForStorage m)).id = m.id := id_sanitize m
    rw [hid]
    by_cases hk : m.id = k
    · rw [if_pos hk, if_pos ⟨hm, hk⟩]
    · rw [if_neg hk, if_neg fun h => hk h.2]

/-- After messages have been inserted there is under an id what was there before, unless one of
them has it. -/
theorem get_insertAll (db : MessageDb) (roomId : String) (messages : List ChatMessage)
    (k : String) :
    (messages.foldl (insertMessage roomId) db).get k = db.get k ∧
        (k = "" ∨ ∀ m ∈ messages, m.id ≠ k) ∨
      ∃ m ∈ messages, m.id = k ∧ k ≠ "" ∧ (messages.foldl (insertMessage roomId) db).get k =
        some ⟨roomId, sanitizeMessageForStorage m⟩ := by
  induction messages generalizing db with
  | nil => exact .inl ⟨rfl, .inr fun m hm => absurd hm List.not_mem_nil⟩
  | cons x messages ih =>
    rw [List.foldl_cons]
    rcases ih (insertMessage roomId db x) with ⟨hget, hk⟩ | ⟨m, hm, hid, hk, hget⟩
    · rw [hget, get_insertMessage]
      by_cases hx : x.id ≠ "" ∧ x.id = k
      · rw [if_pos hx]
        exact .inr ⟨x, List.mem_cons_self, hx.2, hx.2 ▸ hx.1, rfl⟩
      · rw [if_neg hx]
        refine .inl ⟨rfl, ?_⟩
        rcases hk with hk | hk
        · exact .inl hk
        · by_cases hempty : k = ""
          · exact .inl hempty
          · refine .inr fun m hm => ?_
            rcases List.mem_cons.1 hm with rfl | hm
            · exact fun h => hx ⟨h ▸ hempty, h⟩
            · exact hk m hm
    · exact .inr ⟨m, List.mem_cons_of_mem _ hm, hid, hk, hget⟩

theorem mem_trimmed (h : m ∈ trimmed messages) : m ∈ messages :=
  mem_sortBy.1 (List.mem_of_mem_drop h)

/-- Few messages are all kept. -/
theorem mem_trimmed_iff (hlen : messages.length ≤ maxCacheCount) :
    m ∈ trimmed messages ↔ m ∈ messages := by
  unfold trimmed
  dsimp only
  rw [(sortBy_perm ChatMessage.timestamp messages).length_eq, Nat.sub_eq_zero_of_le hlen,
    List.drop_zero, mem_sortBy]

/-! ## Writing a room -/

/-- A row is one of another room that was there, or one of those that were written. -/
theorem mem_rows_of_saveMessages {row : StoredMessage}
    (h : row ∈ (db.saveMessages roomId messages).rows) :
    row ∈ db.rows ∨ ∃ m ∈ messages, row = ⟨roomId, sanitizeMessageForStorage m⟩ := by
  unfold saveMessages at h
  split at h
  · exact .inl h
  · have hget := get_of_mem h
    rcases get_insertAll (db.filter fun row => row.roomId ≠ roomId) roomId (trimmed messages)
        row.id with ⟨hkeep, -⟩ | ⟨m, hm, -, -, hnew⟩
    · rw [hkeep] at hget
      exact .inl (mem_filter.1 (mem_of_get hget)).1
    · rw [hget] at hnew
      exact .inr ⟨m, mem_trimmed hm, Option.some.inj hnew⟩

/-- A row is one of another room that was there, or comes from what was written. -/
theorem mem_rows_saveMessages {row : StoredMessage}
    (h : row ∈ (db.saveMessages roomId messages).rows) :
    row ∈ db.rows ∨ (row.roomId = roomId ∧ ∃ m ∈ messages, m.roomId = row.payload.roomId) := by
  rcases mem_rows_of_saveMessages h with hrow | ⟨m, hm, rfl⟩
  · exact .inl hrow
  · exact .inr ⟨rfl, m, hm, (roomId_sanitize m).symm⟩

/-- The messages of a room after it has been written, if they are not too many. -/
theorem mem_savedIds_saveMessages {id : String} (hr : roomId ≠ "")
    (hlen : messages.length ≤ maxCacheCount) (hrooms : ∀ m ∈ messages, m.roomId ≠ "") :
    id ∈ (db.saveMessages roomId messages).savedIds roomId ↔
      id ≠ "" ∧ ∃ m ∈ messages, m.id = id := by
  have hsave : db.saveMessages roomId messages = (trimmed messages).foldl (insertMessage roomId)
    (db.filter fun row => row.roomId ≠ roomId) := if_neg hr
  rw [hsave, mem_savedIds]
  constructor
  · rintro ⟨m, hm, rfl⟩
    obtain ⟨-, hrow, hid, -⟩ := mem_loadMessages.1 hm
    refine ⟨hid, ?_⟩
    have hget := get_of_mem hrow
    rcases get_insertAll (db.filter fun row => row.roomId ≠ roomId) roomId (trimmed messages)
        m.id with ⟨hkeep, -⟩ | ⟨x, hx, hxid, -, -⟩
    · rw [show (mk roomId m).id = m.id from rfl, hkeep] at hget
      have hne := (mem_filter.1 (mem_of_get hget)).2
      exact absurd rfl (of_decide_eq_true hne)
    · exact ⟨x, mem_trimmed hx, hxid⟩
  · rintro ⟨hid, m, hm, rfl⟩
    rcases get_insertAll (db.filter fun row => row.roomId ≠ roomId) roomId (trimmed messages)
        m.id with ⟨-, hk⟩ | ⟨x, hx, hxid, -, hget⟩
    · rcases hk with hk | hk
      · exact absurd hk hid
      · exact absurd rfl (hk m ((mem_trimmed_iff hlen).2 hm))
    · refine ⟨sanitizeMessageForStorage x,
        mem_loadMessages.2 ⟨hr, mem_of_get hget, ?_, ?_⟩, ?_⟩
      · rwa [id_sanitize, hxid]
      · rw [roomId_sanitize]
        exact hrooms x (mem_trimmed hx)
      · rw [id_sanitize, hxid]

/-- Another room keeps its messages, if none that is written has the id of one of them. -/
theorem mem_savedIds_saveMessages_ne {id : String} (hr : r ≠ roomId)
    (hapart : ∀ row ∈ db.rows, row.roomId ≠ roomId → ∀ m ∈ messages, m.id ≠ row.id) :
    id ∈ (db.saveMessages roomId messages).savedIds r ↔ id ∈ db.savedIds r := by
  unfold saveMessages
  split
  · exact Iff.rfl
  · rw [mem_savedIds, mem_savedIds]
    have hiff : ∀ m, mk r m ∈ ((trimmed messages).foldl (insertMessage roomId)
        (db.filter fun row => row.roomId ≠ roomId)).rows ↔ mk r m ∈ db.rows := by
      intro m
      rw [mem_iff_get, mem_iff_get]
      rcases get_insertAll (db.filter fun row => row.roomId ≠ roomId) roomId (trimmed messages)
          (mk r m).id with
        ⟨hkeep, -⟩ | ⟨x, hx, hxid, -, hget⟩
      · rw [hkeep, get_filter, Option.filter_eq_some_iff]
        exact and_iff_left (decide_eq_true hr)
      · rw [hget]
        constructor
        · intro h
          exact absurd (congrArg StoredMessage.roomId (Option.some.inj h)).symm hr
        · intro h
          exact absurd hxid (hapart _ (mem_of_get h) hr x (mem_trimmed hx))
    constructor
    · rintro ⟨m, hm, rfl⟩
      obtain ⟨hne, hrow, hparses⟩ := mem_loadMessages.1 hm
      exact ⟨m, mem_loadMessages.2 ⟨hne, (hiff m).1 hrow, hparses⟩, rfl⟩
    · rintro ⟨m, hm, rfl⟩
      obtain ⟨hne, hrow, hparses⟩ := mem_loadMessages.1 hm
      exact ⟨m, mem_loadMessages.2 ⟨hne, (hiff m).2 hrow, hparses⟩, rfl⟩

end MessageDb

end RedcodeIm.H5
