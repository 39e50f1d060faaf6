import Mathlib.Data.Prod.Lex
import RedcodeIm.Android.MessageCache
import RedcodeIm.Lib.Paging

/-!
# Older history in the message cache

`loadOlderMessages` writes the messages of a page one after another, and prunes the room after each
of them: the oldest ones go first.  Of messages of one time any may go.

* `Prunes`, `Upserts`, `LoadsOlder` — what a call may come to, with no other one between its
  queries; `loadsOlder_of_alone` finds it in the functions of the cache.
* `Progresses`, `UnsentKept`, `Stops` — what is expected of a call, of pruning and of many calls.
* `older_history` — when they hold.
* `stuck` — a full cache stays as it is, and the call returns true.
-/

namespace RedcodeIm.Android

open Overlap (Next)
open List
open ChatMessage
open Paging
open SortBy

/-! ## A call -/

namespace MessageCache

/-- The messages of a room, oldest row first. -/
def inRoom (cache : MessageCache) (roomId : String) : List ChatMessage :=
  cache.rows.filter fun message => message.roomId = roomId

/-- `pruneMessages`, whichever of the messages of one time it takes. -/
def Prunes (cache : MessageCache) (roomId : String) (keep : ℕ) (cache' : MessageCache) : Prop :=
  ∃ kept, TopRows createdAt (cache.inRoom roomId) keep kept ∧
    cache' = cache.filter fun message =>
      message.roomId ≠ roomId || (kept.map ChatMessage.id).contains message.id

/-- The messages are written one after another, and the room is pruned after each of them. -/
inductive Upserts (keep : ℕ) : MessageCache → List ChatMessage → MessageCache → Prop where
  | done (cache : MessageCache) : Upserts keep cache [] cache
  | next {cache middle last : MessageCache} {message : ChatMessage} {rest : List ChatMessage}
      (hprune : Prunes (cache.put (message.preserveCachedMessageFields (cache.get message.id)))
        message.roomId keep middle)
      (hrest : Upserts keep middle rest last) : Upserts keep cache (message :: rest) last

/-- The messages of a response that are not cached. -/
def newMessages (cache : MessageCache) (roomId : String) (messages : List ChatMessage) :
    List ChatMessage :=
  messages.filter fun message =>
    !((cache.messages roomId).any fun known => known.id = message.id)

/-- `loadOlderMessages`, with the response of the server: what it returns and leaves. -/
inductive LoadsOlder (keep : ℕ) (cache : MessageCache) (roomId : String)
    (messages : List ChatMessage) : Bool → MessageCache → Prop where
  | nothingCached (h : cache.messages roomId = []) :
    LoadsOlder keep cache roomId messages false cache
  | nothingOlder (h : cache.newMessages roomId messages = []) :
    LoadsOlder keep cache roomId messages false cache
  | loaded {last : MessageCache} (hcached : cache.messages roomId ≠ [])
      (hnew : cache.newMessages roomId messages ≠ [])
      (h : Upserts keep cache (sortBy createdAt (cache.newMessages roomId messages))
        last) : LoadsOlder keep cache roomId messages true last

/-- A function of the cache, with no other one between its queries. -/
inductive Alone (keep : ℕ) (c : CacheCall) : MessageCache → CacheStage → MessageCache → Prop where
  | done {cache last : MessageCache} {stage : CacheStage} (x : CacheChance)
      (h : cacheStmt keep cache c stage x = (last, .done ())) : Alone keep c cache stage last
  | next {cache middle last : MessageCache} {stage stage' : CacheStage} (x : CacheChance)
      (h : cacheStmt keep cache c stage x = (middle, .goto stage'))
      (hrest : Alone keep c middle stage' last) : Alone keep c cache stage last

end MessageCache

open MessageCache

/-- A page of the history of a room, each message once. -/
structure HistoryPage (roomId : String) where
  messages : List ChatMessage
  inRoom : ∀ m ∈ messages, m.roomId = roomId
  nodup : (messages.map ChatMessage.id).Nodup

/-! ## What is expected -/

/-- A call that returns true leaves a message that is older than all that were cached. -/
def Progresses (keep : ℕ) (cache : MessageCache) (roomId : String) (messages : List ChatMessage) :
    Prop :=
  ∀ cache', LoadsOlder keep cache roomId messages true cache' →
    ∃ m ∈ cache'.inRoom roomId, ∀ known ∈ cache.inRoom roomId, m.createdAt < known.createdAt

/-- Some message that is cached is as old as this one, or older. -/
def isRecent (current : List ChatMessage) (m : ChatMessage) : Bool :=
  current.any fun known => known.createdAt ≤ m.createdAt

/-- The page has an older message, and there is room for one besides those that are cached or
come with it and are not older. -/
def CanProgress (keep : ℕ) (cache : MessageCache) (roomId : String)
    (messages : List ChatMessage) : Prop :=
  cache.inRoom roomId ≠ [] → cache.newMessages roomId messages ≠ [] →
    (∃ m ∈ cache.newMessages roomId messages, isRecent (cache.inRoom roomId) m = false) ∧
    (cache.inRoom roomId).length +
      (cache.newMessages roomId messages).countP (isRecent (cache.inRoom roomId)) < keep

/-- Pruning leaves the messages that are pending or have failed. -/
def UnsentKept (keep : ℕ) (cache : MessageCache) (roomId : String) : Prop :=
  ∀ cache', cache.Prunes roomId keep cache' →
    ∀ m ∈ cache.inRoom roomId, m.status ≠ .sent → m ∈ cache'.rows

/-- Of each of them there are fewer other ones of its time or later than are kept. -/
def UnsentFits (keep : ℕ) (cache : MessageCache) (roomId : String) : Prop :=
  ∀ m ∈ cache.inRoom roomId, m.status ≠ .sent →
    (cache.inRoom roomId).countP (fun x => x.id ≠ m.id && m.createdAt ≤ x.createdAt) < keep

/-- A number of calls that return true, each with a page of the history, where each can make
progress. -/
inductive Repeated (keep : ℕ) (roomId : String) (history : List ChatMessage) :
    ℕ → MessageCache → MessageCache → Prop where
  | none (cache : MessageCache) : Repeated keep roomId history 0 cache cache
  | more {n : ℕ} {cache middle last : MessageCache} (page : HistoryPage roomId)
      (hpage : ∀ m ∈ page.messages, m ∈ history)
      (hcan : CanProgress keep cache roomId page.messages)
      (hcall : LoadsOlder keep cache roomId page.messages true middle)
      (hrest : Repeated keep roomId history n middle last) :
      Repeated keep roomId history (n + 1) cache last

/-- The messages of the history that are older than all that are cached. -/
def remaining (history : List ChatMessage) (cache : MessageCache) (roomId : String) : ℕ :=
  history.countP fun m => !isRecent (cache.inRoom roomId) m

/-- Each of them comes closer to the first message, so that there is a last one. -/
def Stops (keep : ℕ) (roomId : String) : Prop :=
  ∀ history n cache last, Repeated keep roomId history n cache last →
    n + remaining history last roomId ≤ remaining history cache roomId

/-! ## Queries -/

namespace MessageCache

variable {cache cache' : MessageCache} {roomId : String} {keep : ℕ}

variable {m : ChatMessage}

@[simp] theorem mem_inRoom : m ∈ cache.inRoom roomId ↔ m ∈ cache.rows ∧ m.roomId = roomId := by
  simp [inRoom]

theorem mem_messages : m ∈ cache.messages roomId ↔ m ∈ cache.inRoom roomId := by
  rw [messages, mem_sortBy]
  rfl

theorem messages_eq_nil_iff : cache.messages roomId = [] ↔ cache.inRoom roomId = [] := by
  simp only [eq_nil_iff_forall_not_mem, mem_messages]

theorem prunes_pruneMessages (cache : MessageCache) (roomId : String) (keep : ℕ) :
    cache.Prunes roomId keep (cache.pruneMessages roomId keep) := by
  refine ⟨_, ⟨_, sortBy_perm (fun message : ChatMessage => -message.createdAt) _, ?_, rfl⟩, rfl⟩
  refine (pairwise_sortBy (fun message : ChatMessage => -message.createdAt) _).imp ?_
  intro a b h
  exact Int.neg_le_neg_iff.1 h

theorem mem_prunes (h : cache.Prunes roomId keep cache') (hm : m ∈ cache'.rows) :
    m ∈ cache.rows := by
  obtain ⟨kept, -, rfl⟩ := h
  exact (Table.mem_filter.1 hm).1

/-- What stays of a room are the messages that are selected. -/
theorem inRoom_prunes {kept : List ChatMessage}
    (h : TopRows createdAt (cache.inRoom roomId) keep kept) :
    (inRoom (cache.filter fun message =>
      message.roomId ≠ roomId || (kept.map ChatMessage.id).contains message.id) roomId).Perm
        kept := by
  have hnodup : (cache.inRoom roomId).Nodup := (cache.nodup.of_map _).filter _
  have hkept : kept.Nodup := by
    obtain ⟨l, hperm, -, rfl⟩ := h
    exact (hperm.nodup_iff.2 hnodup).sublist (take_sublist _ _)
  refine (perm_ext_iff_of_nodup ((Table.nodup _).of_map _ |>.filter _) hkept).2 fun m => ?_
  constructor
  · intro hm
    obtain ⟨hrows, hroom⟩ := mem_inRoom.1 hm
    obtain ⟨hcache, hor⟩ := Table.mem_filter.1 hrows
    have hid : m.id ∈ kept.map ChatMessage.id := by simpa [hroom] using hor
    obtain ⟨x, hx, hxid⟩ := mem_map.1 hid
    have hxcache := (mem_inRoom.1 (h.subset x hx)).1
    rwa [← Table.eq_of_key_eq hxcache hcache hxid]
  · intro hm
    obtain ⟨hcache, hroom⟩ := mem_inRoom.1 (h.subset m hm)
    refine mem_inRoom.2 ⟨Table.mem_filter.2 ⟨hcache, ?_⟩, hroom⟩
    have hid : m.id ∈ kept.map ChatMessage.id := mem_map_of_mem hm
    simpa [hroom] using hid

variable {p : ChatMessage → Bool}

theorem countP_prunes (hp : ∀ a b, b.createdAt ≤ a.createdAt → p b = true → p a = true)
    (h : cache.Prunes roomId keep cache') :
    (cache'.inRoom roomId).countP p = min keep ((cache.inRoom roomId).countP p) := by
  obtain ⟨kept, htop, rfl⟩ := h
  rw [(inRoom_prunes htop).countP_eq, htop.countP_eq hp]

/-- A message that the room does not have adds itself to a count. -/
theorem countP_put (hroom : m.roomId = roomId) (hnew : ∀ x ∈ cache.inRoom roomId, x.id ≠ m.id) :
    (inRoom (cache.put m) roomId).countP p =
      (cache.inRoom roomId).countP p + if p m then 1 else 0 := by
  simp only [inRoom, countP_filter]
  cases hget : cache.get m.id with
  | none =>
    rw [Table.put_of_none hget, Table.rows_insert_of_none hget, countP_append]
    simp [hroom]
  | some r =>
    have hkey := Table.key_of_get hget
    have hother : r.roomId ≠ roomId := fun heq =>
      hnew r (mem_inRoom.2 ⟨Table.mem_of_get hget, heq⟩) hkey
    have hcount := Table.countP_put (hkey ▸ hget : cache.get r.id = some r) hkey.symm
      (fun x => p x && decide (x.roomId = roomId))
    simpa [hother, hroom] using hcount

/-- What is written for a message has its id, its room and its time. -/
theorem preserved (m : ChatMessage) (existing : Option ChatMessage) :
    (m.preserveCachedMessageFields existing).id = m.id ∧
      (m.preserveCachedMessageFields existing).roomId = m.roomId ∧
      (m.preserveCachedMessageFields existing).createdAt = m.createdAt := by
  cases existing with
  | none => exact ⟨rfl, rfl, rfl⟩
  | some existing =>
    unfold preserveCachedMessageFields
    dsimp only
    split <;> exact ⟨rfl, rfl, rfl⟩

/-- What a query of a call leaves of a room: messages that were there, or the one it writes. -/
theorem mem_upsert {middle : MessageCache} {x : ChatMessage}
    (h : Prunes (cache.put (m.preserveCachedMessageFields (cache.get m.id))) m.roomId keep middle)
    (hx : x ∈ middle.inRoom roomId) :
    x ∈ cache.inRoom roomId ∨ x = m.preserveCachedMessageFields (cache.get m.id) := by
  obtain ⟨hrows, hroom⟩ := mem_inRoom.1 hx
  rcases Table.mem_put (mem_prunes h hrows) with ⟨hrows, -⟩ | rfl
  · exact .inl (mem_inRoom.2 ⟨hrows, hroom⟩)
  · exact .inr rfl

variable {messages : List ChatMessage}

theorem Upserts.mem {x : ChatMessage} (h : Upserts keep cache messages cache')
    (hx : x ∈ cache'.inRoom roomId) :
    x ∈ cache.inRoom roomId ∨ ∃ m ∈ messages, m.createdAt = x.createdAt := by
  induction h with
  | done => exact .inl hx
  | next hprune _ ih =>
    rcases ih hx with hmiddle | ⟨m, hm, htime⟩
    · rcases mem_upsert hprune hmiddle with hcache | rfl
      · exact .inl hcache
      · exact .inr ⟨_, .head _, (preserved _ _).2.2.symm⟩
    · exact .inr ⟨m, .tail _ hm, htime⟩

/-- **What the messages of a page leave of a room**: of the later ones as many as there are, up to
what pruning keeps. -/
theorem Upserts.countP (h : Upserts keep cache messages cache')
    (hp : ∀ a b, b.createdAt ≤ a.createdAt → p b = true → p a = true)
    (hroom : ∀ m ∈ messages, m.roomId = roomId) (hnodup : (messages.map ChatMessage.id).Nodup)
    (hnew : ∀ m ∈ messages, ∀ x ∈ cache.inRoom roomId, x.id ≠ m.id) (hne : messages ≠ []) :
    (cache'.inRoom roomId).countP p =
      min keep ((cache.inRoom roomId).countP p + messages.countP p) := by
  induction h with
  | done => exact absurd rfl hne
  | @next cache middle last message rest hprune hrest ih =>
    obtain ⟨hid, hroom', htime⟩ := preserved message (cache.get message.id)
    have hmessage : message.roomId = roomId := hroom message (.head _)
    have hsame : p (message.preserveCachedMessageFields (cache.get message.id)) = p message :=
      Bool.eq_iff_iff.2 ⟨hp _ _ htime.le, hp _ _ htime.ge⟩
    have hmiddle : (middle.inRoom roomId).countP p =
        min keep ((cache.inRoom roomId).countP p + if p message then 1 else 0) := by
      rw [countP_prunes hp (hmessage ▸ hprune), countP_put (hroom'.trans hmessage), hsame]
      intro x hx
      rw [hid]
      exact hnew message (.head _) x hx
    rw [countP_cons]
    cases hrest with
    | done =>
      rw [hmiddle, countP_nil]
      omega
    | @next _ _ _ message' rest' hprune' hrest' =>
      rw [map_cons, nodup_cons] at hnodup
      rw [ih (fun m hm => hroom m (.tail _ hm)) hnodup.2 _ (cons_ne_nil _ _), hmiddle]
      · omega
      · intro m hm x hx
        rcases mem_upsert hprune hx with hcache | rfl
        · exact hnew m (.tail _ hm) x hcache
        · rw [hid]
          exact fun heq => hnodup.1 (heq ▸ mem_map_of_mem hm)

/-- There is always something that a page may come to. -/
theorem Upserts.exists (keep : ℕ) (cache : MessageCache) (messages : List ChatMessage) :
    ∃ last, Upserts keep cache messages last := by
  induction messages generalizing cache with
  | nil => exact ⟨cache, .done cache⟩
  | cons message rest ih =>
    obtain ⟨last, hlast⟩ := ih (pruneMessages
      (cache.put (message.preserveCachedMessageFields (cache.get message.id))) message.roomId keep)
    exact ⟨last, .next (prunes_pruneMessages _ _ _) hlast⟩

/-! ### The functions of the cache -/

section

variable {c : CacheCall} {stage stage' : CacheStage} {middle last : MessageCache}

theorem Alone.of_goto (h : Alone keep c cache stage last)
    (hstmt : ∀ x, cacheStmt keep cache c stage x = (middle, .goto stage')) :
    Alone keep c middle stage' last := by
  cases h with
  | done x hdone => cases (hstmt x).symm.trans hdone
  | next x hnext hrest =>
    cases (hstmt x).symm.trans hnext
    exact hrest

theorem Alone.of_done (h : Alone keep c cache stage last)
    (hstmt : ∀ x, cacheStmt keep cache c stage x = (middle, .done ())) : last = middle := by
  cases h with
  | done x hdone =>
    cases (hstmt x).symm.trans hdone
    rfl
  | next x hnext _ => cases (hstmt x).symm.trans hnext

variable {messages : List ChatMessage}

/-- Writing the messages of a page, query by query. -/
theorem upserts_of_alone (h : Alone keep c cache (.upserting messages) last) :
    Upserts keep cache messages last := by
  induction messages generalizing cache with
  | nil =>
    obtain rfl := h.of_done fun _ => rfl
    exact .done _
  | cons message rest ih =>
    have hpruning := (h.of_goto fun _ => rfl).of_goto fun _ => rfl
    refine .next (prunes_pruneMessages _ _ _) ?_
    cases rest with
    | nil =>
      rw [(preserved message (cache.get message.id)).2.1] at hpruning
      obtain rfl := hpruning.of_done fun _ => rfl
      exact .done _
    | cons next rest =>
      rw [(preserved message (cache.get message.id)).2.1] at hpruning
      exact ih (hpruning.of_goto fun _ => rfl)

theorem upsertAll_of_ne (h : messages ≠ []) : upsertAll messages = .goto (.upserting messages) := by
  cases messages with
  | nil => exact absurd rfl h
  | cons => rfl

/-- What is done with a response: its new messages are written, if there are any. -/
theorem stmt_requested (keep : ℕ) (cache : MessageCache) (roomId : String) (x : CacheChance) :
    (∃ messages, cache.newMessages roomId messages ≠ [] ∧
      cacheStmt keep cache (.loadOlderMessages roomId) (.requested (cache.messages roomId)) x =
        (cache, .goto (.upserting (sortBy createdAt
          (cache.newMessages roomId messages))))) ∨
    cacheStmt keep cache (.loadOlderMessages roomId) (.requested (cache.messages roomId)) x =
      (cache, .done ()) := by
  cases x with
  | reply messages =>
    have hstmt : cacheStmt keep cache (.loadOlderMessages roomId)
        (.requested (cache.messages roomId)) (.reply messages) =
        (cache, upsertAll (sortBy createdAt (cache.newMessages roomId messages))) := rfl
    rw [hstmt]
    by_cases hnew : cache.newMessages roomId messages = []
    · rw [hnew]
      exact .inr rfl
    · refine .inl ⟨messages, hnew, ?_⟩
      rw [upsertAll_of_ne fun hnil => hnew ?_]
      exact perm_nil.1 (hnil ▸ (sortBy_perm _ _).symm)
  | _ => exact .inr rfl

/-- Whatever `loadOlderMessages` comes to with no other function between its queries. -/
theorem loadsOlder_of_alone (h : Alone keep (.loadOlderMessages roomId) cache .begin last) :
    ∃ messages returned, LoadsOlder keep cache roomId messages returned last := by
  by_cases hcached : cache.messages roomId = []
  · have hstmt : ∀ x, cacheStmt keep cache (.loadOlderMessages roomId) .begin x =
        (cache, .done ()) := fun _ => by simp [cacheStmt, beginCache, hcached]
    obtain rfl := h.of_done hstmt
    exact ⟨[], false, .nothingCached hcached⟩
  · have hstmt : ∀ x, cacheStmt keep cache (.loadOlderMessages roomId) .begin x =
        (cache, .goto (.requested (cache.messages roomId))) := by
      intro x
      simp only [cacheStmt, beginCache]
    have hrequested := h.of_goto hstmt
    cases hrequested with
    | done x hdone =>
      rcases stmt_requested keep cache roomId x with ⟨messages, -, hgoto⟩ | hnone
      · cases hgoto.symm.trans hdone
      · cases hnone.symm.trans hdone
        exact ⟨[], false, .nothingOlder rfl⟩
    | next x hnext hrest =>
      rcases stmt_requested keep cache roomId x with ⟨messages, hnew, hgoto⟩ | hnone
      · cases hgoto.symm.trans hnext
        exact ⟨messages, true, .loaded hcached hnew (upserts_of_alone hrest)⟩
      · cases hnone.symm.trans hnext

end

end MessageCache

/-! ## Progress -/

section

variable {cache cache' : MessageCache} {roomId : String} {keep : ℕ}

variable {current : List ChatMessage}

theorem isRecent_of_le {a b : ChatMessage} (hle : b.createdAt ≤ a.createdAt)
    (hb : isRecent current b = true) :
    isRecent current a = true := by
  simp only [isRecent, any_eq_true, decide_eq_true_eq] at hb ⊢
  obtain ⟨known, hknown, hold⟩ := hb
  exact ⟨known, hknown, hold.trans hle⟩

variable {m : ChatMessage}

theorem isRecent_eq_false_iff :
    isRecent current m = false ↔ ∀ known ∈ current, m.createdAt < known.createdAt := by
  simp [isRecent]

theorem isRecent_of_mem (h : m ∈ current) : isRecent current m = true := by
  simp only [isRecent, any_eq_true, decide_eq_true_eq]
  exact ⟨m, h, le_rfl⟩

variable {page : HistoryPage roomId}

/-- Whatever a call that returns true comes to, the room has an older message just if the page has
one and there is room for it. -/
theorem exists_older_iff (h : LoadsOlder keep cache roomId page.messages true cache') :
    (∃ m ∈ cache'.inRoom roomId, ∀ known ∈ cache.inRoom roomId, m.createdAt < known.createdAt) ↔
      (∃ m ∈ cache.newMessages roomId page.messages, isRecent (cache.inRoom roomId) m = false) ∧
        (cache.inRoom roomId).length +
          (cache.newMessages roomId page.messages).countP (isRecent (cache.inRoom roomId)) <
            keep := by
  cases h with
  | loaded hcached hnew h =>
    have hsub : (cache.newMessages roomId page.messages).Sublist page.messages :=
      filter_sublist
    have hperm := sortBy_perm createdAt (cache.newMessages roomId page.messages)
    have hroom : ∀ m ∈ sortBy createdAt (cache.newMessages roomId page.messages),
        m.roomId = roomId :=
      fun m hm => page.inRoom m (hsub.subset (hperm.mem_iff.1 hm))
    have hnodup := (hperm.map ChatMessage.id).nodup_iff.2 (page.nodup.sublist (hsub.map _))
    have hfresh : ∀ m ∈ sortBy createdAt (cache.newMessages roomId page.messages),
        ∀ x ∈ cache.inRoom roomId, x.id ≠ m.id := by
      intro m hm x hx heq
      have hnot := (mem_filter.1 (hperm.mem_iff.1 hm)).2
      simp only [Bool.not_eq_true', any_eq_false, decide_eq_true_eq] at hnot
      exact hnot x (mem_messages.2 hx) heq
    have hne : sortBy createdAt (cache.newMessages roomId page.messages) ≠ [] :=
      fun hnil => hnew (perm_nil.1 (hnil ▸ hperm.symm))
    have hall := h.countP (p := fun _ => true) (fun _ _ _ _ => rfl) hroom hnodup hfresh hne
    have hrecent := h.countP (p := isRecent (cache.inRoom roomId)) (fun _ _ => isRecent_of_le)
      hroom hnodup hfresh hne
    have hcurrent : (cache.inRoom roomId).countP (isRecent (cache.inRoom roomId)) =
        (cache.inRoom roomId).length :=
      countP_eq_length.2 fun m hm => isRecent_of_mem hm
    rw [hperm.countP_eq, countP_true] at hall
    rw [hperm.countP_eq, hcurrent] at hrecent
    -- an older message is one that is not counted as recent
    have holder : ∀ l : List ChatMessage, (∃ m ∈ l, isRecent (cache.inRoom roomId) m = false) ↔
        l.countP (isRecent (cache.inRoom roomId)) < l.length := by
      intro l
      rw [length_eq_countP_add_countP (isRecent (cache.inRoom roomId)),
        Nat.lt_add_right_iff_pos, countP_pos_iff]
      simp
    simp only [← isRecent_eq_false_iff]
    rw [holder, holder, hrecent, hall]
    omega

theorem progresses_iff (page : HistoryPage roomId) :
    Progresses keep cache roomId page.messages ↔ CanProgress keep cache roomId page.messages := by
  constructor
  · intro h hcached hnew
    obtain ⟨last, hlast⟩ := Upserts.exists keep cache
      (sortBy createdAt (cache.newMessages roomId page.messages))
    have hcall : LoadsOlder keep cache roomId page.messages true last :=
      .loaded (mt messages_eq_nil_iff.1 hcached) hnew hlast
    exact (exists_older_iff hcall).1 (h last hcall)
  · intro h cache' hcall
    refine (exists_older_iff hcall).2 ?_
    cases hcall with
    | loaded hcached hnew _ => exact h (mt messages_eq_nil_iff.2 hcached) hnew

/-! ## Messages that have not been sent -/

variable {rows : List ChatMessage}

/-- A message that is not selected stands behind as many as are: each of its time or later. -/
theorem le_countP_of_not_mem {kept : List ChatMessage} (hrows : (rows.map ChatMessage.id).Nodup)
    (h : TopRows createdAt rows keep kept) (hm : m ∈ rows) (hnot : m ∉ kept) :
    keep ≤ rows.countP fun x => x.id ≠ m.id && m.createdAt ≤ x.createdAt := by
  obtain ⟨l, hperm, hl, rfl⟩ := h
  have hml : m ∈ l := hperm.mem_iff.2 hm
  have hdrop : m ∈ l.drop keep := by
    rw [← take_append_drop keep l] at hml
    exact (mem_append.1 hml).resolve_left hnot
  have hlength : keep ≤ l.length := by
    have := length_pos_of_mem hdrop
    rw [length_drop] at this
    omega
  have hbefore : ∀ x ∈ l.take keep, (x.id ≠ m.id && m.createdAt ≤ x.createdAt) = true := by
    intro x hx
    have hxm : x ≠ m := fun heq => hnot (heq ▸ hx)
    have hxrows : x ∈ rows := hperm.mem_iff.1 (mem_of_mem_take hx)
    have hid : x.id ≠ m.id := fun heq => hxm (inj_on_of_nodup_map hrows hxrows hm heq)
    have hle : m.createdAt ≤ x.createdAt := by
      rw [← take_append_drop keep l, Arranged, pairwise_append] at hl
      exact hl.2.2 x hx m hdrop
    simp [hid, hle]
  calc keep = (l.take keep).length := (length_take_of_le hlength).symm
    _ = (l.take keep).countP fun x => x.id ≠ m.id && m.createdAt ≤ x.createdAt :=
      (countP_eq_length.2 hbefore).symm
    _ ≤ l.countP _ := (take_sublist keep l).countP_le
    _ = rows.countP _ := hperm.countP_eq _

/-- And where there are so many, it need not be selected: it may come last of its time. -/
theorem exists_not_mem (hrows : (rows.map ChatMessage.id).Nodup) (hm : m ∈ rows)
    (h : keep ≤ rows.countP fun x => x.id ≠ m.id && m.createdAt ≤ x.createdAt) :
    ∃ kept, TopRows createdAt rows keep kept ∧ m ∉ kept := by
  let last (x : ChatMessage) : Lex (ℤ × ℕ) := toLex (-x.createdAt, if x.id = m.id then 1 else 0)
  have hsorted := pairwise_sortBy last rows
  have hperm := sortBy_perm last rows
  have hle : ∀ a b : ChatMessage, last a ≤ last b → b.createdAt ≤ a.createdAt := by
    intro a b hab
    rcases Prod.Lex.toLex_le_toLex.1 hab with hlt | ⟨heq, -⟩ <;> dsimp only at * <;> omega
  refine ⟨_, ⟨_, hperm, hsorted.imp fun hab => hle _ _ hab, rfl⟩, fun hmem => ?_⟩
  have hfirst : (sortBy last rows).Pairwise fun a b =>
      (b.id ≠ m.id && m.createdAt ≤ b.createdAt) = true →
        (a.id ≠ m.id && m.createdAt ≤ a.createdAt) = true := by
    refine hsorted.imp_of_mem ?_
    intro a b ha _ hab hb
    simp only [Bool.and_eq_true, decide_eq_true_eq] at hb ⊢
    refine ⟨fun hid => hb.1 ?_, hb.2.trans (hle _ _ hab)⟩
    obtain rfl := inj_on_of_nodup_map hrows (hperm.mem_iff.1 ha) hm hid
    rcases Prod.Lex.toLex_le_toLex.1 hab with hlt | ⟨-, hle⟩
    · exact absurd hb.2 (by dsimp only at hlt; omega)
    · by_contra hother
      simp [hother] at hle
  have hcount := countP_take_of_pairwise hfirst keep
  rw [hperm.countP_eq, min_eq_left h] at hcount
  have hlength : ((sortBy last rows).take keep).length = keep := by
    rw [length_take, hperm.length_eq, min_eq_left (h.trans countP_le_length)]
  have hself := countP_eq_length.1 (hcount.trans hlength.symm) m hmem
  simp at hself

theorem unsentKept_iff : UnsentKept keep cache roomId ↔ UnsentFits keep cache roomId := by
  have hrows : ((cache.inRoom roomId).map ChatMessage.id).Nodup :=
    cache.nodup.sublist (filter_sublist.map _)
  constructor
  · intro h m hm hunsent
    by_contra hmany
    obtain ⟨kept, htop, hnot⟩ := exists_not_mem hrows hm (not_lt.1 hmany)
    have hstays := h _ ⟨kept, htop, rfl⟩ m hm hunsent
    exact hnot ((inRoom_prunes htop).mem_iff.1 (mem_inRoom.2 ⟨hstays, (mem_inRoom.1 hm).2⟩))
  · rintro h cache' ⟨kept, htop, rfl⟩ m hm hunsent
    have hkept : m ∈ kept := by
      by_contra hnot
      exact absurd (h m hm hunsent) (not_lt.2 (le_countP_of_not_mem hrows htop hm hnot))
    exact (mem_inRoom.1 ((inRoom_prunes htop).mem_iff.2 hkept)).1

/-! ## Repeated calls -/

theorem countP_lt_of_imp {α : Type} {p q : α → Bool} {l : List α} {x : α} (hx : x ∈ l)
    (h : ∀ a, p a = true → q a = true) (hp : p x = false) (hq : q x = true) :
    l.countP p < l.countP q := by
  obtain ⟨before, after, rfl⟩ := append_of_mem hx
  have hbefore : before.countP p ≤ before.countP q := countP_mono_left fun a _ => h a
  have hafter : after.countP p ≤ after.countP q := countP_mono_left fun a _ => h a
  simp only [countP_append, countP_cons, hp, hq, if_true, Bool.false_eq_true, if_false]
  omega

/-- A call that makes progress leaves less of the history. -/
theorem remaining_lt {history : List ChatMessage} (hpage : ∀ m ∈ page.messages, m ∈ history)
    (hcan : CanProgress keep cache roomId page.messages)
    (h : LoadsOlder keep cache roomId page.messages true cache') :
    remaining history cache' roomId < remaining history cache roomId := by
  obtain ⟨m, hm, hold⟩ := (progresses_iff page).2 hcan cache' h
  cases h with
  | loaded hcached hnew h =>
    -- the older message has come with the page
    obtain ⟨x, hx, htime⟩ := (h.mem hm).resolve_left fun hmem => lt_irrefl _ (hold m hmem)
    have hxhistory : x ∈ history := hpage x (mem_of_mem_filter (mem_sortBy.1 hx))
    have hxrecent : isRecent (cache'.inRoom roomId) x = true :=
      isRecent_of_le htime.ge (isRecent_of_mem hm)
    have hxold : isRecent (cache.inRoom roomId) x = false :=
      isRecent_eq_false_iff.2 fun known hknown => htime.trans_lt (hold known hknown)
    refine countP_lt_of_imp hxhistory (fun a ha => ?_) (by simp [hxrecent]) (by simp [hxold])
    simp only [Bool.not_eq_true', isRecent_eq_false_iff] at ha ⊢
    intro known hknown
    exact (ha m hm).trans (hold known hknown)

theorem stops (keep : ℕ) (roomId : String) : Stops keep roomId := by
  intro history n cache last h
  induction h with
  | none => omega
  | more page hpage hcan hcall _ ih =>
    have := remaining_lt hpage hcan hcall
    omega

end

/-- **Older history in the message cache.**  A call that returns true leaves an older message just
if its page has one and there is room for it besides what is not older; pruning leaves what has not
been sent just if it is recent enough; and calls that can make progress come to an end. -/
theorem older_history (keep : ℕ) (roomId : String) :
    (∀ cache (page : HistoryPage roomId), Progresses keep cache roomId page.messages ↔
      CanProgress keep cache roomId page.messages) ∧
    (∀ cache, UnsentKept keep cache roomId ↔ UnsentFits keep cache roomId) ∧
    Stops keep roomId :=
  ⟨fun _ page => progresses_iff page, fun _ => unsentKept_iff, stops keep roomId⟩


/-! ## A full cache -/

def numbered (i : ℕ) : ChatMessage where
  id := String.ofList [Char.ofNat (i + 65)]
  roomId := "r1"
  senderId := "u1"
  text := "text"
  status := .sent
  createdAt := i
  isDeleted := false
  isPinned := false
  pinnedAt := none
  pinnedBy := none
  reactions := []
  parts := []

/-- A room with the 200 messages that the app keeps. -/
def fullCache : MessageCache where
  rows := (range 200).map fun i => numbered (i + 1)
  nodup := by
    have hids : (((range 200).map fun i => numbered (i + 1)).map ChatMessage.id).map
        (fun id => id.toList.map Char.toNat) = (range' 66 200).map fun n => [n] := by
      decide +kernel
    refine List.Nodup.of_map (fun id => id.toList.map Char.toNat) ?_
    rw [hids]
    refine List.Nodup.map ?_ nodup_range'
    intro a b h
    exact (cons.inj h).1

def firstPage : HistoryPage "r1" where
  messages := [numbered 0]
  inRoom := by decide +kernel
  nodup := by decide +kernel

/-- **A full cache makes no progress**: what a call adds is pruned, and it returns true. -/
theorem stuck : ¬∀ cache (page : HistoryPage "r1"), Progresses 200 cache "r1" page.messages := by
  intro h
  obtain ⟨-, hroom⟩ := (progresses_iff firstPage).1 (h fullCache firstPage)
    (by decide +kernel) (by decide +kernel)
  exact absurd hroom (by decide +kernel)

end RedcodeIm.Android
