import RedcodeIm.Runtime.MessageRuntime
import RedcodeIm.Runtime.Messages

/-!
# Unread counts

`mark_message_read`, `mark_messages_read_until` and the counts of `database/message_read_store.rs`,
with their handlers.  What a member has read is kept as the moment of the last call and as the
message it named; the counts look at the moment.

* `ReaderRow`, `MessageReadRow`, `ReadTables` — the tables, as far as they are looked at.
* `markMessageRead`, `markMessagesReadUntil` — the two calls; `getUnreadCount`,
  `getAllUnreadCounts` — the counts.
* `ReadStep`, `ReadTables.step`, `markedBy` — what happens in a room, and what it marks read.
* `expectedUnread` — what is to be counted.
* `KeepsCount` — a message is marked that is of the room and not older than those marked before,
  and the moment of the call stands for its time.
* `unread_counts` — every sequence of such steps.
* `unread_lost` — a message that comes before the call, after the one that is marked.
-/

namespace RedcodeIm

/-! ## The tables -/

/-- A row of `room_members` that is not deleted. -/
structure ReaderRow where
  roomId : Uuid
  userId : Uuid
  lastReadAt : Option Timestamp
  lastReadMessageId : Option Uuid
  deriving DecidableEq

def ReaderRow.key (row : ReaderRow) : Uuid × Uuid := (row.roomId, row.userId)

/-- A row of `message_reads`. -/
structure MessageReadRow where
  messageId : Uuid
  userId : Uuid
  roomId : Uuid
  readAt : Timestamp
  deriving DecidableEq

def MessageReadRow.key (row : MessageReadRow) : Uuid × Uuid := (row.messageId, row.userId)

structure ReadTables where
  messages : Table MessageRecord.id
  readers : Table ReaderRow.key
  reads : Table MessageReadRow.key

/-! ## Marking -/

/-- The row of a member after a call. -/
def ReaderRow.readUpTo (row : ReaderRow) (messageId : Uuid) (now : Timestamp) : ReaderRow :=
  { row with
    lastReadAt := some now
    lastReadMessageId := some messageId }

/-- `UPDATE room_members SET last_read_at = NOW(), last_read_message_id = …`. -/
def ReadTables.updateReader (t : ReadTables) (roomId userId messageId : Uuid) (now : Timestamp) :
    ReadTables :=
  match t.readers.get (roomId, userId) with
  | some row => { t with readers := t.readers.put (row.readUpTo messageId now) }
  | none => t

/-- `MessageReadStore::mark_message_read`; `message_id` is a foreign key. -/
def ReadTables.markMessageRead (t : ReadTables) (messageId userId roomId : Uuid)
    (readAt now : Timestamp) : Except AppError ReadTables :=
  match t.messages.get messageId with
  | none => .error .databaseError
  | some _ =>
    let reads :=
      match t.reads.get (messageId, userId) with
      | some row => t.reads.put { row with readAt := readAt }
      | none => t.reads.insert ⟨messageId, userId, roomId, readAt⟩
    .ok ({ t with reads := reads }.updateReader roomId userId messageId now)

/-- The messages of a room up to some time that a user has not read yet. -/
def ReadTables.unreadUntil (t : ReadTables) (roomId userId : Uuid) (createdAt : Timestamp) :
    List MessageRecord :=
  t.messages.rows.filter fun m => m.roomId = roomId ∧ m.createdAt ≤ createdAt ∧
    m.deletedAt.isNone ∧ t.reads.get (m.id, userId) = none

/-- `MessageReadStore::mark_messages_read_until`, with the number of messages it has marked. -/
def ReadTables.markMessagesReadUntil (t : ReadTables) (roomId userId untilMessageId : Uuid)
    (now : Timestamp) : ReadTables × ℕ :=
  match t.messages.get untilMessageId with
  | none => (t, 0)
  | some message =>
    let unread := t.unreadUntil roomId userId message.createdAt
    let reads := unread.foldl
      (fun reads m => reads.insert ⟨m.id, userId, roomId, now⟩) t.reads
    ({ t with reads := reads }.updateReader roomId userId untilMessageId now, unread.length)

/-- A request to mark a message, or the messages up to it. -/
structure MarkCall where
  roomId : Uuid
  userId : Uuid
  messageId : Uuid
  relayOnly : Bool
  now : Timestamp
  deriving DecidableEq

/-- What both handlers look at first. -/
def ReadTables.checkMark (t : ReadTables) (call : MarkCall) : Except AppError Unit :=
  if (t.readers.get (call.roomId, call.userId)).isNone then
    .error (.forbidden "您不是该房间成员")
  else if call.relayOnly then .error (relayOnlyUnsupported "消息已读")
  else .ok ()

/-- The handler of `mark_message_read`. -/
def markMessageRead (t : ReadTables) (call : MarkCall) (readAt : Timestamp) :
    Except AppError ReadTables := do
  t.checkMark call
  t.markMessageRead call.messageId call.userId call.roomId readAt call.now

/-- The handler of `mark_messages_read_until`. -/
def markMessagesReadUntil (t : ReadTables) (call : MarkCall) :
    Except AppError (ReadTables × ℕ) := do
  t.checkMark call
  return t.markMessagesReadUntil call.roomId call.userId call.messageId call.now

/-! ## Counting -/

/-- `last_read_at IS NULL OR created_at > last_read_at`. -/
def ReaderRow.isAfter (row : ReaderRow) (m : MessageRecord) : Bool :=
  row.lastReadAt.all (· < m.createdAt)

/-- A message of the room by another, not deleted. -/
def MessageRecord.countsFor (m : MessageRecord) (roomId userId : Uuid) : Bool :=
  m.roomId = roomId ∧ m.senderId ≠ userId ∧ m.deletedAt.isNone

/-- `get_unread_count`. -/
def ReadTables.getUnreadCount (t : ReadTables) (roomId userId : Uuid) : ℕ :=
  match (t.readers.get (roomId, userId)).bind (·.lastReadAt) with
  | some lastReadAt =>
    t.messages.rows.countP fun m => m.countsFor roomId userId ∧ lastReadAt < m.createdAt
  | none => t.messages.rows.countP fun m => m.countsFor roomId userId

/-- The count beside a room, as `get_all_unread_counts` and `list_chat_summaries` make it. -/
def ReadTables.unreadBeside (t : ReadTables) (row : ReaderRow) : ℕ :=
  t.messages.rows.countP fun m => m.countsFor row.roomId row.userId ∧ row.isAfter m

/-- `get_all_unread_counts`. -/
def ReadTables.getAllUnreadCounts (t : ReadTables) (userId : Uuid) :
    List (Uuid × ℕ × Option Uuid × Option Timestamp) :=
  ((t.readers.rows.filter (·.userId = userId)).map fun row =>
    (row.roomId, t.unreadBeside row, row.lastReadMessageId, row.lastReadAt)).mergeSort
      fun a b => decide (b.2.1 ≤ a.2.1)

/-- The three queries count the same. -/
theorem getUnreadCount_eq {t : ReadTables} {row : ReaderRow} {roomId userId : Uuid}
    (h : t.readers.get (roomId, userId) = some row) :
    t.getUnreadCount roomId userId = t.unreadBeside row := by
  have hkey : row.key = (roomId, userId) := Table.key_of_get h
  cases hkey
  unfold ReadTables.getUnreadCount ReadTables.unreadBeside ReaderRow.isAfter
  rw [h, Option.bind_some]
  cases row.lastReadAt with
  | none | some => simp

/-! ## What happens in a room -/

/-- A message is stored or deleted, or a request marks messages. -/
inductive ReadStep where
  | store (message : MessageRecord)
  | delete (messageId : Uuid) (now : Timestamp)
  | mark (call : MarkCall) (readAt : Timestamp)
  | markUntil (call : MarkCall)

def ReadTables.delete (t : ReadTables) (messageId : Uuid) (now : Timestamp) : ReadTables :=
  match (t.messages.get messageId).filter (·.deletedAt.isNone) with
  | some message => { t with messages := t.messages.put { message with deletedAt := some now } }
  | none => t

/-- A request that fails changes nothing. -/
def ReadTables.step (t : ReadTables) : ReadStep → ReadTables
  | .store message => { t with messages := t.messages.insert message }
  | .delete messageId now => t.delete messageId now
  | .mark call readAt =>
    match RedcodeIm.markMessageRead t call readAt with
    | .ok t' => t'
    | .error _ => t
  | .markUntil call =>
    match RedcodeIm.markMessagesReadUntil t call with
    | .ok (t', _) => t'
    | .error _ => t

/-- The request of a step. -/
def ReadStep.call : ReadStep → Option MarkCall
  | .mark call _ => some call
  | .markUntil call => some call
  | _ => none

/-- A request that marks the message it names. -/
def ReadTables.Marks (t : ReadTables) (call : MarkCall) (message : MessageRecord) : Prop :=
  t.checkMark call = .ok () ∧ t.messages.get call.messageId = some message

/-- Step after step, from some tables, with the messages of the room that the user has marked. -/
inductive ReadReach (roomId userId : Uuid)
    (allowed : ReadTables → List MessageRecord → ReadStep → Prop) (t₀ : ReadTables) :
    ReadTables → List MessageRecord → Prop where
  | start : ReadReach roomId userId allowed t₀ t₀ []
  /-- A step that marks no message of the room for the user. -/
  | other {t : ReadTables} {marked : List MessageRecord} {step : ReadStep}
      (h : ReadReach roomId userId allowed t₀ t marked) (hallowed : allowed t marked step)
      (hnone : ∀ call message, step.call = some call → t.Marks call message →
        ¬ (call.roomId = roomId ∧ call.userId = userId ∧ message.roomId = roomId)) :
      ReadReach roomId userId allowed t₀ (t.step step) marked
  | marks {t : ReadTables} {marked : List MessageRecord} {step : ReadStep} {call : MarkCall}
      {message : MessageRecord} (h : ReadReach roomId userId allowed t₀ t marked)
      (hallowed : allowed t marked step) (hcall : step.call = some call)
      (hmarks : t.Marks call message) (hroom : call.roomId = roomId)
      (huser : call.userId = userId) (hmessage : message.roomId = roomId) :
      ReadReach roomId userId allowed t₀ (t.step step) (marked ++ [message])

/-! ## What is to be counted -/

/-- The messages by others, not deleted, that were created after every message that was marked. -/
def ReadTables.expectedUnread (t : ReadTables) (marked : List MessageRecord)
    (roomId userId : Uuid) : ℕ :=
  t.messages.rows.countP fun m =>
    m.countsFor roomId userId ∧ ∀ m' ∈ marked, m'.createdAt < m.createdAt

/-- The message last named is one that was marked, and none that was marked is newer. -/
def LastReadIsLatest (row : ReaderRow) (marked : List MessageRecord) : Prop :=
  ∀ id, row.lastReadMessageId = some id →
    ∃ m ∈ marked, m.id = id ∧ ∀ m' ∈ marked, m'.createdAt ≤ m.createdAt

/-- What a step may do: a message by another that is stored stands to the moment of the last call
as to the messages that were marked; and a message that the user marks is of the room, not older
than those marked before, and no message that counts lies between it and the moment of the
call. -/
def KeepsCount (roomId userId : Uuid) (t : ReadTables) (marked : List MessageRecord) :
    ReadStep → Prop
  | .store message => message.countsFor roomId userId →
    ∀ row, t.readers.get (roomId, userId) = some row →
      (row.isAfter message ↔ ∀ m ∈ marked, m.createdAt < message.createdAt)
  | .delete .. => True
  | .mark call _ | .markUntil call => call.roomId = roomId → call.userId = userId →
    ∀ message, t.Marks call message → message.roomId = roomId ∧
      (∀ m ∈ marked, m.createdAt ≤ message.createdAt) ∧
      ∀ m ∈ t.messages.rows, m.countsFor roomId userId →
        (message.createdAt < m.createdAt ↔ call.now < m.createdAt)

/-! ## One step -/

section

variable {t : ReadTables} {marked : List MessageRecord} {roomId userId : Uuid}

theorem updateReader_messages (t : ReadTables) (roomId userId messageId : Uuid)
    (now : Timestamp) : (t.updateReader roomId userId messageId now).messages = t.messages := by
  unfold ReadTables.updateReader
  split <;> rfl

theorem updateReader_get (t : ReadTables) (roomId userId messageId : Uuid) (now : Timestamp)
    (key : Uuid × Uuid) :
    (t.updateReader roomId userId messageId now).readers.get key
      = if (roomId, userId) = key then (t.readers.get key).map (·.readUpTo messageId now)
        else t.readers.get key := by
  unfold ReadTables.updateReader
  cases hrow : t.readers.get (roomId, userId) with
  | none =>
    by_cases hkey : (roomId, userId) = key
    · rw [if_pos hkey, ← hkey, hrow]
      rfl
    · rw [if_neg hkey]
  | some row =>
    have hkey : row.key = (roomId, userId) := Table.key_of_get hrow
    show (t.readers.put (row.readUpTo messageId now)).get key = _
    rw [Table.get_put]
    have hmarked : (row.readUpTo messageId now).key = (roomId, userId) := hkey
    rw [hmarked]
    by_cases heq : (roomId, userId) = key
    · rw [if_pos heq, if_pos heq, ← heq, hrow]
      rfl
    · rw [if_neg heq, if_neg heq]

variable {step : ReadStep} {call : MarkCall}

/-- What a call does: nothing, or it marks a message and writes the row of the member. -/
theorem step_call (hcall : step.call = some call) :
    (t.step step = t ∧ ∀ message, ¬ t.Marks call message) ∨
      ∃ message, t.Marks call message ∧ (t.step step).messages = t.messages ∧
        ∀ key, (t.step step).readers.get key
          = if (call.roomId, call.userId) = key
            then (t.readers.get key).map (·.readUpTo call.messageId call.now)
            else t.readers.get key := by
  cases hcheck : t.checkMark call with
  | error err =>
    left
    refine ⟨?_, fun message hmarks => ?_⟩
    · cases step with
      | mark call' readAt =>
        cases hcall
        simp only [ReadTables.step, markMessageRead, hcheck, bind, Except.bind]
      | markUntil call' =>
        cases hcall
        simp only [ReadTables.step, markMessagesReadUntil, hcheck, bind, Except.bind]
      | store | delete => cases hcall
    · rw [hmarks.1] at hcheck
      cases hcheck
  | ok u =>
    cases hmessage : t.messages.get call.messageId with
    | none =>
      left
      refine ⟨?_, fun message hmarks => ?_⟩
      · cases step with
        | mark call' readAt =>
          cases hcall
          simp only [ReadTables.step, markMessageRead, hcheck, bind, Except.bind,
            ReadTables.markMessageRead, hmessage]
        | markUntil call' =>
          cases hcall
          simp only [ReadTables.step, markMessagesReadUntil, hcheck, bind, Except.bind,
            ReadTables.markMessagesReadUntil, hmessage, pure, Except.pure]
        | _ => cases hcall
      · rw [hmarks.2] at hmessage
        cases hmessage
    | some message =>
      right
      refine ⟨message, ⟨hcheck, hmessage⟩, ?_⟩
      cases step with
      | mark call' readAt =>
        cases hcall
        simp only [ReadTables.step, markMessageRead, hcheck, bind, Except.bind,
          ReadTables.markMessageRead, hmessage]
        exact ⟨updateReader_messages _ _ _ _ _, updateReader_get _ _ _ _ _⟩
      | markUntil call' =>
        cases hcall
        simp only [ReadTables.step, markMessagesReadUntil, hcheck, bind, Except.bind,
          ReadTables.markMessagesReadUntil, hmessage, pure, Except.pure]
        exact ⟨updateReader_messages _ _ _ _ _, updateReader_get _ _ _ _ _⟩
      | store | delete => cases hcall

/-- **The invariant**: the row of the member names the latest message that was marked, and stands
to the messages that count as the marked ones do. -/
def CountAgrees (roomId userId : Uuid) (t : ReadTables) (marked : List MessageRecord) : Prop :=
  ∃ row, t.readers.get (roomId, userId) = some row ∧ LastReadIsLatest row marked ∧
    ∀ m ∈ t.messages.rows, m.countsFor roomId userId →
      (row.isAfter m ↔ ∀ m' ∈ marked, m'.createdAt < m.createdAt)

variable (h : CountAgrees roomId userId t marked)

include h

theorem CountAgrees.count_eq :
    t.getUnreadCount roomId userId = t.expectedUnread marked roomId userId := by
  obtain ⟨row, hrow, -, hafter⟩ := h
  have hkey : row.key = (roomId, userId) := Table.key_of_get hrow
  cases hkey
  rw [getUnreadCount_eq hrow]
  refine List.countP_congr fun m hm => ?_
  rw [decide_eq_true_eq, decide_eq_true_eq]
  exact and_congr_right fun hcounts => hafter m hm hcounts

variable {message : MessageRecord}

theorem counted_store (hkeeps : KeepsCount roomId userId t marked (.store message)) :
    CountAgrees roomId userId (t.step (.store message)) marked := by
  obtain ⟨row, hrow, hlatest, hafter⟩ := h
  refine ⟨row, hrow, hlatest, fun m hm hcounts => ?_⟩
  rcases Table.mem_insert hm with hm | rfl
  · exact hafter m hm hcounts
  · exact hkeeps hcounts row hrow

theorem counted_delete (messageId : Uuid) (now : Timestamp) :
    CountAgrees roomId userId (t.step (.delete messageId now)) marked := by
  obtain ⟨row, hrow, hlatest, hafter⟩ := h
  show CountAgrees roomId userId (t.delete messageId now) marked
  unfold ReadTables.delete
  cases (t.messages.get messageId).filter (·.deletedAt.isNone) with
  | none => exact ⟨row, hrow, hlatest, hafter⟩
  | some message =>
    refine ⟨row, hrow, hlatest, fun m hm hcounts => ?_⟩
    rcases Table.mem_put hm with ⟨hm, -⟩ | rfl
    · exact hafter m hm hcounts
    · -- a deleted message does not count
      simp [MessageRecord.countsFor] at hcounts

/-- A request of another user, or in another room, or that marks nothing. -/
theorem counted_call_other (hcall : step.call = some call)
    (hother : ∀ message, t.Marks call message → (call.roomId, call.userId) ≠ (roomId, userId)) :
    CountAgrees roomId userId (t.step step) marked := by
  rcases step_call hcall with ⟨heq, -⟩ | ⟨message, hmarks, hmessages, hreaders⟩
  · rwa [heq]
  · obtain ⟨row, hrow, hlatest, hafter⟩ := h
    refine ⟨row, ?_, hlatest, fun m hm => ?_⟩
    · rw [hreaders, if_neg (hother message hmarks), hrow]
    · rw [hmessages] at hm
      exact hafter m hm

/-- A message of the room is marked, no older than those before. -/
theorem counted_call_marks (hcall : step.call = some call) (hmarks : t.Marks call message)
    (hkey : (call.roomId, call.userId) = (roomId, userId))
    (hlatest : ∀ m ∈ marked, m.createdAt ≤ message.createdAt)
    (hbetween : ∀ m ∈ t.messages.rows, m.countsFor roomId userId → (message.createdAt < m.createdAt
      ↔ call.now < m.createdAt)) :
    CountAgrees roomId userId (t.step step) (marked ++ [message]) := by
  obtain ⟨row, hrow, -, -⟩ := h
  rcases step_call hcall with ⟨-, hnone⟩ | ⟨-, -, hmessages, hreaders⟩
  · exact absurd hmarks (hnone message)
  · refine ⟨row.readUpTo call.messageId call.now, ?_, ?_, fun m hm hcounts => ?_⟩
    · rw [hreaders, if_pos hkey, hrow]
      rfl
    · intro id hid
      obtain rfl : call.messageId = id := Option.some.inj hid
      refine ⟨message, List.mem_append_right _ (List.mem_singleton_self _),
        Table.key_of_get hmarks.2, fun m hm => ?_⟩
      rcases List.mem_append.mp hm with hm | hm
      · exact hlatest m hm
      · obtain rfl := List.mem_singleton.mp hm
        exact le_rfl
    · rw [hmessages] at hm
      have hafter : (row.readUpTo call.messageId call.now).isAfter m ↔
          call.now < m.createdAt := decide_eq_true_iff
      rw [hafter, ← hbetween m hm hcounts]
      constructor
      · intro hnewer m' hm'
        rcases List.mem_append.mp hm' with hm' | hm'
        · exact (hlatest m' hm').trans_lt hnewer
        · obtain rfl := List.mem_singleton.mp hm'
          exact hnewer
      · exact fun hall => hall message (List.mem_append_right _ (List.mem_singleton_self _))

omit h

/-! ## Every run -/

theorem counted_reach {t₀ : ReadTables} (h₀ : CountAgrees roomId userId t₀ [])
    (h : ReadReach roomId userId (KeepsCount roomId userId) t₀ t marked) :
    CountAgrees roomId userId t marked := by
  induction h with
  | start => exact h₀
  | @other t marked step _ hkeeps hnone ih =>
    have hcalls : ∀ call, step.call = some call → KeepsCount roomId userId t marked step →
        CountAgrees roomId userId (t.step step) marked := by
      intro call hcall hkeeps
      refine counted_call_other ih hcall fun message hmarks hkey => ?_
      obtain ⟨hroom, huser⟩ := Prod.mk.inj hkey
      refine hnone call message hcall hmarks ⟨hroom, huser, ?_⟩
      cases step with
      | store | delete => cases hcall
      | _ =>
        cases hcall
        exact (hkeeps hroom huser message hmarks).1
    cases step with
    | store message => exact counted_store ih hkeeps
    | delete messageId now => exact counted_delete ih messageId now
    | mark call | markUntil call => exact hcalls call rfl hkeeps
  | @marks t marked step call message _ hkeeps hcall hmarks hroom huser hmessage ih =>
    have hkey : (call.roomId, call.userId) = (roomId, userId) := by rw [hroom, huser]
    have hcondition : (∀ m ∈ marked, m.createdAt ≤ message.createdAt) ∧
        ∀ m ∈ t.messages.rows, m.countsFor roomId userId →
          (message.createdAt < m.createdAt ↔ call.now < m.createdAt) := by
      cases step with
      | store | delete => cases hcall
      | _ =>
        cases hcall
        exact (hkeeps hroom huser message hmarks).2
    exact counted_call_marks ih hcall hmarks hkey hcondition.1 hcondition.2

end

/-- **Unread counts**: a member has read nothing yet; then messages are stored and deleted and
requests mark messages, in any order.  As long as every step keeps the count, what is counted are
the messages by others that were created after the latest one the member has marked, and the row of
the member names that one. -/
theorem unread_counts (roomId userId : Uuid) {t₀ t : ReadTables} {marked : List MessageRecord}
    {row₀ : ReaderRow} (hmember : t₀.readers.get (roomId, userId) = some row₀)
    (hunread : row₀.lastReadAt = none ∧ row₀.lastReadMessageId = none)
    (h : ReadReach roomId userId (KeepsCount roomId userId) t₀ t marked) :
    t.getUnreadCount roomId userId = t.expectedUnread marked roomId userId ∧
      ∃ row, t.readers.get (roomId, userId) = some row ∧ LastReadIsLatest row marked := by
  have h₀ : CountAgrees roomId userId t₀ [] := by
    refine ⟨row₀, hmember, fun id hid => ?_, fun m _ _ => ?_⟩
    · rw [hunread.2] at hid
      cases hid
    · unfold ReaderRow.isAfter
      rw [hunread.1]
      exact iff_of_true rfl (List.forall_mem_nil _)
  have hcounted := counted_reach h₀ h
  refine ⟨hcounted.count_eq, ?_⟩
  obtain ⟨row, hrow, hlatest, -⟩ := hcounted
  exact ⟨row, hrow, hlatest⟩

/-! ## A message that comes before the call -/

/-- A message of user 6 in room 7. -/
def messageOfSix (id : Uuid) (createdAt : Timestamp) : MessageRecord where
  id := id
  roomId := 7
  senderId := 6
  content := "hello"
  encryptedContent := none
  encryptionMetadata := none
  messageType := .text
  quotedMessageId := none
  encryptedIdempotencyKey := none
  forwardFrom := {}
  createdAt := createdAt
  updatedAt := createdAt
  deletedAt := none
  editedAt := none

/-- Two messages have come to room 7 that user 5 has not read. -/
def twoUnread : ReadTables where
  messages := (Table.empty.insert (messageOfSix 40 1)).insert (messageOfSix 41 2)
  readers := Table.empty.insert ⟨7, 5, none, none⟩
  reads := Table.empty

/-- User 5 marks one of them at time 3. -/
theorem reach_twoUnread (messageId : Uuid) {message : MessageRecord}
    {allowed : ReadTables → List MessageRecord → ReadStep → Prop}
    (hallowed : allowed twoUnread [] (.mark ⟨7, 5, messageId, false, 3⟩ 3))
    (hmessage : twoUnread.messages.get messageId = some message) (hroom : message.roomId = 7) :
    ReadReach 7 5 allowed twoUnread (twoUnread.step (.mark ⟨7, 5, messageId, false, 3⟩ 3))
      [message] :=
  .marks .start hallowed rfl ⟨rfl, hmessage⟩ rfl rfl hroom

/-- User 5 marks the second one. -/
theorem unread_counts_sample :
    (twoUnread.step (.mark ⟨7, 5, 41, false, 3⟩ 3)).getUnreadCount 7 5
      = (twoUnread.step (.mark ⟨7, 5, 41, false, 3⟩ 3)).expectedUnread [messageOfSix 41 2] 7 5 := by
  have hmember : twoUnread.readers.get (7, 5) = some ⟨7, 5, none, none⟩ := by decide
  have hmessage : twoUnread.messages.get 41 = some (messageOfSix 41 2) := by decide
  refine (unread_counts 7 5 hmember ⟨rfl, rfl⟩ (reach_twoUnread 41 ?_ hmessage rfl)).1
  rintro - - message ⟨-, hget⟩
  cases hmessage.symm.trans hget
  refine ⟨rfl, List.forall_mem_nil _, ?_⟩
  decide

/-- User 5 marks the first one, after the second has come: it is no longer counted. -/
theorem unread_lost :
    ¬ ∀ (roomId userId : Uuid) (t₀ t : ReadTables) (marked : List MessageRecord)
      (row₀ : ReaderRow), t₀.readers.get (roomId, userId) = some row₀ →
      row₀.lastReadAt = none ∧ row₀.lastReadMessageId = none →
      ReadReach roomId userId (fun _ _ _ => True) t₀ t marked →
        t.getUnreadCount roomId userId = t.expectedUnread marked roomId userId := by
  intro h
  have hmember : twoUnread.readers.get (7, 5) = some ⟨7, 5, none, none⟩ := by decide
  have hmessage : twoUnread.messages.get 40 = some (messageOfSix 40 1) := by decide
  have hcount := h 7 5 _ _ _ _ hmember ⟨rfl, rfl⟩ (reach_twoUnread 40 trivial hmessage rfl)
  have hread : (twoUnread.step (.mark ⟨7, 5, 40, false, 3⟩ 3)).getUnreadCount 7 5 = 0 := by
    decide +kernel
  have hleft : (twoUnread.step (.mark ⟨7, 5, 40, false, 3⟩ 3)).expectedUnread
      [messageOfSix 40 1] 7 5 = 1 := by
    decide +kernel
  cases hcount

end RedcodeIm
