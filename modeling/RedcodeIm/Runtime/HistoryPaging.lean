import RedcodeIm.Lib.Paging
import RedcodeIm.Runtime.Deletion

/-!
# The history of a room, page by page

`list_messages` of `handlers/message.rs` with `get_room_messages_paged` of
`database/message_store.rs`.  A page is asked for by the id of a message, and cut by the time of
that message alone.

* `ListParams`, `historySelect`, `HistorySelect.Selects`, `ListMessages` — what is asked for, what
  is selected and what may be answered.
* `WalkBack`, `WalkSince` — page after page, from the newest or from some message on.
* `Enumerates` — every row once, the newest first.
* `history_paging` — where the walks are complete, and where an id that is none of the room's has
  the newest page.
* `history_lost` — two messages of one time at the end of a page.
-/

namespace RedcodeIm

open Paging MessageRecord List

/-! ## The handler -/

/-- The query of a request. -/
structure ListParams where
  limit : Option ℤ
  beforeId : Option Uuid
  sinceId : Option Uuid
  deriving DecidableEq

/-- `limit.unwrap_or(50).clamp(1, 200)`. -/
def pageSize (limit : Option ℤ) : ℕ := (max 1 (min (limit.getD 50) 200)).toNat

/-- What `get_room_messages_paged` comes to select. -/
inductive HistorySelect where
  | newest
  | before (createdAt : Timestamp)
  | since (createdAt : Timestamp)
  deriving DecidableEq

/-- An id that no message has is passed over; the room of a message is not looked at. -/
def historySelect (s : ServiceState) (before since : Option Uuid) : HistorySelect :=
  match before.bind s.messages.get with
  | some m => .before m.createdAt
  | none =>
    match since.bind s.messages.get with
    | some m => .since m.createdAt
    | none => .newest

/-- What a select may answer, of the messages of the room that are not deleted; those that
come after a message are selected oldest first and then reversed. -/
def HistorySelect.Selects (rows : List MessageRecord) (limit : ℕ) :
    HistorySelect → List MessageRecord → Prop
  | .newest, page => TopRows createdAt rows limit page
  | .before t, page =>
    TopRows createdAt (rows.filter fun row => decide (row.createdAt < t)) limit page
  | .since t, page => LaterRows createdAt rows limit t page

/-- What `list_messages` may answer. -/
def ListMessages (inRoom relayOnly : Bool) (s : ServiceState) (roomId userId : Uuid)
    (params : ListParams) (r : Except AppError (List MessageRecord)) : Prop :=
  if ¬ inRoom then
    r = .error (.forbidden s!"User {userId} is not a member of room {roomId}")
  else if params.beforeId.isSome ∧ params.sinceId.isSome then
    r = .error (.validationError "before_id and since_id are mutually exclusive")
  else if relayOnly then r = .ok []
  else ∃ page, r = .ok page ∧ (historySelect s params.beforeId params.sinceId).Selects
    (s.liveMessages roomId) (pageSize params.limit) page

/-! ## Walks -/

section

variable (answers : ListParams → Except AppError (List MessageRecord) → Prop) (limit : ℤ)

/-- From the newest page on, each page with the id of the last message of the one before. -/
inductive WalkBack : Option Uuid → List MessageRecord → Prop where
  | done {cursor : Option Uuid} (h : answers ⟨some limit, cursor, none⟩ (.ok [])) :
      WalkBack cursor []
  | next {cursor : Option Uuid} {page items : List MessageRecord} {oldest : MessageRecord}
      (h : answers ⟨some limit, cursor, none⟩ (.ok page)) (holdest : page.getLast? = some oldest)
      (rest : WalkBack (some oldest.id) items) : WalkBack cursor (page ++ items)

/-- From a message on, each page with the id of the newest message of the one before; what has
come is put before what came earlier. -/
inductive WalkSince : Uuid → List MessageRecord → Prop where
  | done {cursor : Uuid} (h : answers ⟨some limit, none, some cursor⟩ (.ok [])) :
      WalkSince cursor []
  | next {cursor : Uuid} {page items : List MessageRecord} {newest : MessageRecord}
      (h : answers ⟨some limit, none, some cursor⟩ (.ok page))
      (hnewest : page.head? = some newest) (rest : WalkSince newest.id items) :
      WalkSince cursor (items ++ page)

end

/-- Every row once, the newest first. -/
def Enumerates (rows items : List MessageRecord) : Prop :=
  items.Perm rows ∧ items.Pairwise fun a b => b.createdAt ≤ a.createdAt

/-! ## Answers to a member, where messages are kept -/

section

variable {s : ServiceState} {roomId userId : Uuid} {limit : ℤ}

/-- What a member is answered where messages are kept. -/
abbrev historyAnswers (s : ServiceState) (roomId userId : Uuid) :
    ListParams → Except AppError (List MessageRecord) → Prop :=
  ListMessages true false s roomId userId

variable {page : List MessageRecord}

theorem historyAnswers_iff {before since : Option Uuid} (hone : before = none ∨ since = none) :
    historyAnswers s roomId userId ⟨some limit, before, since⟩ (.ok page) ↔
      (historySelect s before since).Selects (s.liveMessages roomId) (pageSize (some limit))
        page := by
  have hboth : ¬ (before.isSome ∧ since.isSome) := by
    rcases hone with rfl | rfl
    · exact fun h => Bool.noConfusion h.1
    · exact fun h => Bool.noConfusion h.2
  unfold historyAnswers ListMessages
  rw [if_neg (by decide), if_neg hboth, if_neg (by decide)]
  constructor
  · rintro ⟨page', heq, hpage⟩
    cases heq
    exact hpage
  · exact fun hpage => ⟨page, rfl, hpage⟩

theorem pageSize_pos (limit : Option ℤ) : 0 < pageSize limit := by
  unfold pageSize
  omega

theorem mem_of_mem_liveMessages {row : MessageRecord} (h : row ∈ s.liveMessages roomId) :
    row ∈ s.messages.rows :=
  (mem_filter.mp h).1

variable {t : Timestamp}

/-- The messages that are older than some time, without those that are no older than an earlier
one. -/
theorem filter_before_before (rows : List MessageRecord) {t' : Timestamp} (h : t' ≤ t) :
    (rows.filter fun row => decide (row.createdAt < t)).filter
        (fun row => decide (row.createdAt < t'))
      = rows.filter fun row => decide (row.createdAt < t') := by
  rw [filter_filter]
  refine filter_congr fun row _ => ?_
  by_cases hrow : row.createdAt < t'
  · simp [hrow, hrow.trans_le h]
  · simp [hrow]

theorem filter_after_after (rows : List MessageRecord) {t' : Timestamp} (h : t ≤ t') :
    (rows.filter fun row => decide (t < row.createdAt)).filter
        (fun row => decide (t' < row.createdAt))
      = rows.filter fun row => decide (t' < row.createdAt) := by
  rw [filter_filter]
  refine filter_congr fun row _ => ?_
  by_cases hrow : t' < row.createdAt
  · simp [hrow, h.trans_lt hrow]
  · simp [hrow]

/-! ### Back -/

/-- The messages that a cursor has before it. -/
def rowsBefore (s : ServiceState) (roomId : Uuid) (cursor : Option Uuid) : List MessageRecord :=
  match cursor.bind s.messages.get with
  | some m => (s.liveMessages roomId).filter fun row => decide (row.createdAt < m.createdAt)
  | none => s.liveMessages roomId

variable {cursor : Option Uuid}

theorem answers_before_iff :
    historyAnswers s roomId userId ⟨some limit, cursor, none⟩ (.ok page) ↔
      TopRows createdAt (rowsBefore s roomId cursor) (pageSize (some limit))
        page := by
  rw [historyAnswers_iff (.inr rfl)]
  unfold historySelect rowsBefore
  cases cursor.bind s.messages.get with
  | none | some => exact Iff.rfl

theorem mem_of_mem_rowsBefore {row : MessageRecord} (h : row ∈ rowsBefore s roomId cursor) :
    row ∈ s.messages.rows := by
  unfold rowsBefore at h
  cases hm : cursor.bind s.messages.get with
  | none =>
    rw [hm] at h
    exact mem_of_mem_liveMessages h
  | some m =>
    rw [hm] at h
    exact mem_of_mem_liveMessages (mem_filter.mp h).1

theorem rowsBefore_next {oldest : MessageRecord} (h : oldest ∈ rowsBefore s roomId cursor) :
    rowsBefore s roomId (some oldest.id)
      = (rowsBefore s roomId cursor).filter fun row =>
          decide (row.createdAt < oldest.createdAt) := by
  have hget : (some oldest.id).bind s.messages.get = some oldest :=
    Table.get_of_mem (mem_of_mem_rowsBefore h)
  unfold rowsBefore at h ⊢
  rw [hget]
  cases hm : cursor.bind s.messages.get with
  | none => rfl
  | some m =>
    rw [hm] at h
    have hold : oldest.createdAt < m.createdAt := by simpa using (mem_filter.mp h).2
    exact (filter_before_before _ hold.le).symm

variable {items : List MessageRecord}

theorem walkBack_iff :
    WalkBack (historyAnswers s roomId userId) limit cursor items ↔
      Walk createdAt (pageSize (some limit)) (rowsBefore s roomId cursor) items := by
  constructor
  · intro h
    induction h with
    | done h => exact .done (answers_before_iff.mp h)
    | @next cursor page items oldest h holdest _ ih =>
      have htop := answers_before_iff.mp h
      have hmem := htop.subset oldest (mem_of_getLast? holdest)
      rw [rowsBefore_next hmem] at ih
      exact .next htop holdest ih
  · intro h
    generalize hrows : rowsBefore s roomId cursor = rows at h
    induction h generalizing cursor with
    | done htop =>
      subst hrows
      exact .done (answers_before_iff.mpr htop)
    | @next rows page items oldest htop holdest _ ih =>
      subst hrows
      have hmem := htop.subset oldest (mem_of_getLast? holdest)
      exact .next (answers_before_iff.mpr htop) holdest (ih (rowsBefore_next hmem))

/-! ### Since -/

/-- The messages of a room that come after some time. -/
def rowsAfter (s : ServiceState) (roomId : Uuid) (t : Timestamp) : List MessageRecord :=
  (s.liveMessages roomId).filter fun row => decide (t < row.createdAt)

theorem answers_since_iff {m : MessageRecord} (hm : m ∈ s.messages.rows) :
    historyAnswers s roomId userId ⟨some limit, none, some m.id⟩ (.ok page) ↔
      TopRows (fun row => OrderDual.toDual row.createdAt) (rowsAfter s roomId m.createdAt)
        (pageSize (some limit)) page.reverse := by
  have hget : (some m.id).bind s.messages.get = some m := Table.get_of_mem hm
  rw [historyAnswers_iff (.inl rfl)]
  unfold historySelect
  rw [hget]
  exact Iff.rfl

theorem rowsAfter_next {newest : MessageRecord} (h : newest ∈ rowsAfter s roomId t) :
    rowsAfter s roomId newest.createdAt
      = (rowsAfter s roomId t).filter fun row =>
          decide (OrderDual.toDual row.createdAt < OrderDual.toDual newest.createdAt) := by
  have hlate : t < newest.createdAt := by simpa using (mem_filter.mp h).2
  exact (filter_after_after _ hlate.le).symm

theorem walkSince_iff {m : MessageRecord} (hm : m ∈ s.messages.rows) :
    WalkSince (historyAnswers s roomId userId) limit m.id items ↔
      Walk (fun row : MessageRecord => OrderDual.toDual row.createdAt) (pageSize (some limit))
        (rowsAfter s roomId m.createdAt) items.reverse := by
  have hmem : ∀ {t row}, row ∈ rowsAfter s roomId t → row ∈ s.messages.rows :=
    fun h => mem_of_mem_liveMessages (mem_filter.mp h).1
  constructor
  · intro h
    generalize hid : m.id = cursor at h
    induction h generalizing m with
    | done h =>
      subst hid
      exact .done ((answers_since_iff hm).mp h)
    | @next cursor page items newest h hnewest _ ih =>
      subst hid
      have htop := (answers_since_iff hm).mp h
      have hlast : page.reverse.getLast? = some newest := by rw [getLast?_reverse, hnewest]
      have hnext := htop.subset newest (mem_of_getLast? hlast)
      have hrest := ih (hmem hnext) rfl
      rw [rowsAfter_next hnext] at hrest
      rw [reverse_append]
      exact .next htop hlast hrest
  · intro h
    generalize hrows : rowsAfter s roomId m.createdAt = rows at h
    generalize hitems : items.reverse = items' at h
    induction h generalizing m items with
    | done htop =>
      subst hrows
      obtain rfl := reverse_eq_nil_iff.mp hitems
      exact .done ((answers_since_iff hm).mpr htop)
    | @next rows page items' newest htop hnewest _ ih =>
      subst hrows
      have hnext := htop.subset newest (mem_of_getLast? hnewest)
      have hitems' : items = items'.reverse ++ page.reverse := by
        rw [← reverse_append, ← hitems, reverse_reverse]
      have hpage : page.reverse.reverse = page := reverse_reverse page
      have hhead : page.reverse.head? = some newest := by rw [head?_reverse, hnewest]
      rw [hitems']
      refine .next ((answers_since_iff hm).mpr ?_) hhead ?_
      · rwa [hpage]
      · exact ih (hmem hnext) (rowsAfter_next hnext) (reverse_reverse _)

/-! ## Where the walks are complete -/

/-- No page from the newest on ends between two messages of one time. -/
def ApartBack (s : ServiceState) (roomId : Uuid) (limit : ℤ) : Prop :=
  EndsApart (pageSize (some limit)) (times createdAt (s.liveMessages roomId))

/-- No page of the messages after some time, from the oldest of them on, ends between two of one
time. -/
def ApartSince (s : ServiceState) (roomId : Uuid) (limit : ℤ) (t : Timestamp) : Prop :=
  EndsApart (pageSize (some limit))
    (times (fun row : MessageRecord => OrderDual.toDual row.createdAt) (rowsAfter s roomId t))

theorem exists_walkBack (s : ServiceState) (roomId userId : Uuid) (limit : ℤ) :
    ∃ items, WalkBack (historyAnswers s roomId userId) limit none items := by
  obtain ⟨items, h⟩ := exists_walk createdAt (pageSize (some limit))
    (rowsBefore s roomId none)
  exact ⟨items, walkBack_iff.mpr h⟩

theorem enumerates_back_iff (h : WalkBack (historyAnswers s roomId userId) limit none items) :
    Enumerates (s.liveMessages roomId) items ↔ ApartBack s roomId limit := by
  have hwalk := walkBack_iff.mp h
  exact ⟨fun hall => (hwalk.perm_iff (pageSize_pos _)).mp hall.1,
    fun hapart => ⟨(hwalk.perm_iff (pageSize_pos _)).mpr hapart, hwalk.arranged⟩⟩

theorem exists_walkSince {start : MessageRecord} (hstart : start ∈ s.messages.rows)
    (roomId userId : Uuid) (limit : ℤ) :
    ∃ items, WalkSince (historyAnswers s roomId userId) limit start.id items := by
  obtain ⟨items, h⟩ := exists_walk (fun row : MessageRecord => OrderDual.toDual row.createdAt)
    (pageSize (some limit)) (rowsAfter s roomId start.createdAt)
  rw [← reverse_reverse items] at h
  exact ⟨items.reverse, (walkSince_iff hstart).mpr h⟩

theorem enumerates_since_iff {start : MessageRecord} (hstart : start ∈ s.messages.rows)
    (h : WalkSince (historyAnswers s roomId userId) limit start.id items) :
    Enumerates (rowsAfter s roomId start.createdAt) items ↔
      ApartSince s roomId limit start.createdAt := by
  have hwalk := (walkSince_iff hstart).mp h
  have hperm := hwalk.perm_iff (pageSize_pos _)
  rw [(reverse_perm items).congr_left] at hperm
  refine ⟨fun hall => hperm.mp hall.1, fun hapart => ⟨hperm.mpr hapart, ?_⟩⟩
  exact pairwise_reverse.mp hwalk.arranged

/-! ## Where an id has the newest page -/

theorem nodup_liveMessages (s : ServiceState) (roomId : Uuid) : (s.liveMessages roomId).Nodup :=
  (List.Nodup.of_map _ s.messages.nodup).filter _

/-- As many messages are newer than some time as the newest page holds; or more, all of one
time. -/
def FillNewest (s : ServiceState) (roomId : Uuid) (limit : ℤ) (t : Timestamp) : Prop :=
  (rowsAfter s roomId t).length = min (pageSize (some limit)) (s.liveMessages roomId).length ∨
    pageSize (some limit) < (rowsAfter s roomId t).length ∧
      ∀ a ∈ s.liveMessages roomId, ∀ b ∈ s.liveMessages roomId,
        t < a.createdAt → t < b.createdAt → a.createdAt ≤ b.createdAt

/-- An answer to a request with a cursor is one to the request without. -/
def MayBeNewest (s : ServiceState) (roomId userId : Uuid) (limit : ℤ) (before since : Option Uuid) :
    Prop :=
  ∃ page, historyAnswers s roomId userId ⟨some limit, none, none⟩ (.ok page) ∧
    historyAnswers s roomId userId ⟨some limit, before, since⟩ (.ok page)

theorem mayBeNewest_self (s : ServiceState) (roomId userId : Uuid) (limit : ℤ) :
    MayBeNewest s roomId userId limit none none := by
  have htop := topRows_arrange createdAt (rowsBefore s roomId none)
    (pageSize (some limit))
  exact ⟨_, answers_before_iff.mpr htop, answers_before_iff.mpr htop⟩

theorem mayBeNewest_before_iff {id : Uuid} :
    MayBeNewest s roomId userId limit (some id) none ↔
      ∀ m, s.messages.get id = some m → ∀ row ∈ s.liveMessages roomId,
        row.createdAt < m.createdAt := by
  unfold MayBeNewest
  simp only [answers_before_iff]
  cases hget : s.messages.get id with
  | none =>
    have hrows : rowsBefore s roomId (some id) = rowsBefore s roomId none := by
      show (match s.messages.get id with | some m => _ | none => _) = _
      rw [hget]
      rfl
    rw [hrows]
    refine iff_of_true ?_ fun m hm => by cases hm
    have htop := topRows_arrange createdAt (rowsBefore s roomId none)
      (pageSize (some limit))
    exact ⟨_, htop, htop⟩
  | some m =>
    have hrows : rowsBefore s roomId (some id)
        = (s.liveMessages roomId).filter fun row => decide (row.createdAt < m.createdAt) := by
      show (match s.messages.get id with | some m => _ | none => _) = _
      rw [hget]
    rw [hrows]
    refine (exists_newest_older_iff (pageSize_pos _) m.createdAt).trans ?_
    exact ⟨fun hall m' hm' => Option.some.inj hm' ▸ hall, fun hall => hall m rfl⟩

theorem mayBeNewest_since_iff {id : Uuid} :
    MayBeNewest s roomId userId limit none (some id) ↔
      ∀ m, s.messages.get id = some m → FillNewest s roomId limit m.createdAt := by
  cases hget : s.messages.get id with
  | none =>
    have hselect : historySelect s none (some id) = .newest := by
      show (match s.messages.get id with | some m => _ | none => _) = _
      rw [hget]
    refine iff_of_true ?_ fun m hm => by cases hm
    obtain ⟨page, hpage, -⟩ := mayBeNewest_self s roomId userId limit
    refine ⟨page, hpage, (historyAnswers_iff (.inl rfl)).mpr ?_⟩
    rw [hselect]
    exact (historyAnswers_iff (.inl rfl)).mp hpage
  | some m =>
    have hid : m.id = id := Table.key_of_get hget
    subst hid
    unfold MayBeNewest
    simp only [answers_before_iff, answers_since_iff (Table.mem_of_get hget)]
    refine (exists_newest_later_iff (nodup_liveMessages s roomId) (pageSize_pos _)
      m.createdAt).trans ?_
    exact ⟨fun hall m' hm' => Option.some.inj hm' ▸ hall, fun hall => hall m rfl⟩

end

/-! ## Main result -/

/-- **The history, page by page**, for a member, where messages are kept.  Walking back from the
newest page finds every message of the room once, the newest first, just where no page ends
between two messages of one time; so it is with the messages after one of the room.  The id of a
message of another room never has the newest page just where some message of the room is as new
as that one, or, for the messages after it, where they do not fill the newest page; an id that no
message has always may have the newest page. -/
theorem history_paging (s : ServiceState) (roomId userId : Uuid) (limit : ℤ) :
    ((∃ items, WalkBack (historyAnswers s roomId userId) limit none items) ∧
      ∀ items, WalkBack (historyAnswers s roomId userId) limit none items →
        (Enumerates (s.liveMessages roomId) items ↔ ApartBack s roomId limit)) ∧
    (∀ start ∈ s.messages.rows, start.roomId = roomId →
      (∃ items, WalkSince (historyAnswers s roomId userId) limit start.id items) ∧
        ∀ items, WalkSince (historyAnswers s roomId userId) limit start.id items →
          (Enumerates (rowsAfter s roomId start.createdAt) items ↔
            ApartSince s roomId limit start.createdAt)) ∧
    ∀ id, (∀ m, s.messages.get id = some m → m.roomId ≠ roomId) →
      (¬ MayBeNewest s roomId userId limit (some id) none ↔
        ∃ m, s.messages.get id = some m ∧
          ∃ row ∈ s.liveMessages roomId, m.createdAt ≤ row.createdAt) ∧
      (¬ MayBeNewest s roomId userId limit none (some id) ↔
        ∃ m, s.messages.get id = some m ∧ ¬ FillNewest s roomId limit m.createdAt) := by
  refine ⟨⟨exists_walkBack s roomId userId limit, fun items h => enumerates_back_iff h⟩,
    fun start hstart _ => ⟨exists_walkSince hstart roomId userId limit,
      fun items h => enumerates_since_iff hstart h⟩, fun id _ => ⟨?_, ?_⟩⟩
  · rw [mayBeNewest_before_iff]
    simp only [not_forall, not_lt, exists_prop]
  · rw [mayBeNewest_since_iff]
    simp only [not_forall, exists_prop]

/-! ## Two messages of one time -/

/-- Room 7 has two messages of one time. -/
def twoAtOnce : ServiceState :=
  let row (id : Uuid) : MessageRecord := NewMessage.row
    { messageId := id
      roomId := 7
      senderId := 5
      contentSummary := "hello"
      messageType := .text
      quotedMessageId := none
      parts := [{ position := 0, partType := .text, textContent := some "hello" }] } 0
  { approved with
    messages := (Table.empty.insert (row 40)).insert (row 41)
    parts := fun _ => [{ position := 0, partType := .text, textContent := some "hello" }] }

/-- With pages of one message, one of the two is lost. -/
theorem history_lost :
    ¬ ∀ (s : ServiceState) (roomId userId : Uuid) (limit : ℤ), 1 ≤ limit → ∀ items,
      WalkBack (historyAnswers s roomId userId) limit none items →
        Enumerates (s.liveMessages roomId) items := by
  intro h
  obtain ⟨items, hwalk⟩ := exists_walkBack twoAtOnce 7 5 1
  have hapart := (enumerates_back_iff hwalk).mp (h twoAtOnce 7 5 1 le_rfl items hwalk)
  have harranged : Arranged createdAt (twoAtOnce.liveMessages 7) := by
    show List.Pairwise (fun a b : MessageRecord => b.createdAt ≤ a.createdAt) _
    decide +kernel
  have htimes : times createdAt (twoAtOnce.liveMessages 7) = [0, 0] := by
    rw [← map_stamp_eq_times (.refl _) harranged]
    decide +kernel
  unfold ApartBack at hapart
  rw [htimes] at hapart
  exact hapart 1 Nat.one_pos 0 0 rfl rfl rfl

end RedcodeIm
