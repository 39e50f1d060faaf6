import RedcodeIm.Android.MessageCache
import RedcodeIm.H5.Deletions

/-!
# Deletions of the message cache

A deletion is applied to the cache by an event, or with the message that the server returns.  What
is written later may have been read before.

* `Watched`, `CacheKept` — the cache with the deletions that have been applied to it, and that none
  is undone.
* `Fresh` — the condition: whatever is written heeds the deletions.
* `deletion_kept` — no deletion is undone, by the web client or the Android app, in a run that the
  condition admits.
* `deletion_undone` — and without it either of them undoes one.
-/

namespace RedcodeIm.Android

open Overlap (Each Next Reach)

namespace Deletions

/-- The cache, and the messages whose deletion has been applied to it. -/
structure Watched where
  cache : MessageCache
  deleted : List String

abbrev Condition := Overlap.Condition Watched CacheCall CacheStage Unit CacheChance

/-- The deletion that a query applies. -/
def applied (cache : MessageCache) (c : CacheCall) (stage : CacheStage) : List String :=
  match stage, c with
  | .begin, .markMessageDeleted roomId messageId =>
    if cache.rows.any fun message => message.roomId = roomId && message.id = messageId then
      [messageId]
    else []
  | .writing message _, .deleteMessage _ _ => if message.isDeleted then [message.id] else []
  | _, _ => []

/-- The cache, while any number of functions write to it. -/
def watched (keep : ℕ) :
    Overlap.System Watched CacheCall CacheStage Unit CacheChance Unit where
  start _ := .begin
  stmt w c stage x :=
    ({ cache := (cacheStmt keep w.cache c stage x).1
       deleted := applied w.cache c stage ++ w.deleted }, (cacheStmt keep w.cache c stage x).2)
  possible _ _ _ _ := true
  tick w _ := w

/-- A message is cached as deleted, if it has been. -/
def Heeds (deleted : List String) (m : ChatMessage) : Prop := m.id ∈ deleted → m.isDeleted = true

/-- Whatever happens under a condition, all that is cached heeds the deletions. -/
def CacheKept (keep : ℕ) (G : Condition) : Prop :=
  ∀ cache s, Reach (watched keep) G (.idle ⟨cache, []⟩) s →
    ∀ m ∈ s.world.cache.rows, Heeds s.world.deleted m

/-- The messages that a query writes. -/
def written (stage : CacheStage) : List ChatMessage :=
  match stage with
  | .replacing merged => merged
  | .writing message _ => [message]
  | _ => []

/-- **The condition.**  Whatever is written heeds the deletions. -/
def Fresh : Condition := fun s i _ =>
  ∀ c stage, s.calls i = some (c, .running stage) →
    ∀ m ∈ written stage, Heeds s.world.deleted m

/-! ## What heeds the deletions -/

variable {deleted : List String} {cache : MessageCache} {m : ChatMessage} {keep : ℕ}

variable (h : ∀ m ∈ cache.rows, Heeds deleted m)

include h

theorem heeds_put (hm : Heeds deleted m) : ∀ x ∈ (cache.put m).rows, Heeds deleted x := by
  intro x hx
  rcases Table.mem_put hx with ⟨hx, -⟩ | rfl
  · exact h x hx
  · exact hm

theorem heeds_puts {messages : List ChatMessage} (hmessages : ∀ m ∈ messages, Heeds deleted m) :
    ∀ x ∈ (messages.foldl Table.put cache).rows, Heeds deleted x := by
  induction messages generalizing cache with
  | nil => exact h
  | cons m messages ih =>
    exact ih (heeds_put h (hmessages m List.mem_cons_self))
      fun x hx => hmessages x (List.mem_cons_of_mem _ hx)

theorem heeds_filter (p : ChatMessage → Bool) : ∀ x ∈ (cache.filter p).rows, Heeds deleted x :=
  fun x hx => h x (Table.mem_filter.1 hx).1

/-- Rows are changed, but not what they tell of deletions. -/
theorem heeds_map {f : ChatMessage → ChatMessage} (hid : ∀ m, (f m).id = m.id)
    (hsame : ∀ m, (f m).isDeleted = m.isDeleted) : ∀ x ∈ cache.rows.map f, Heeds deleted x := by
  intro x hx hxid
  obtain ⟨m, hm, rfl⟩ := List.mem_map.1 hx
  rw [hid m] at hxid
  exact (hsame m).trans (h m hm hxid)

/-- A deletion is applied. -/
theorem heeds_updateMessageDeleted (roomId messageId text : String) :
    ∀ x ∈ (cache.updateMessageDeleted roomId messageId text).rows,
      Heeds (applied cache (.markMessageDeleted roomId messageId) .begin ++ deleted) x := by
  intro x hx
  obtain ⟨m, hm, rfl⟩ := Table.mem_mapRows.1 hx
  split
  · exact fun _ => rfl
  · rename_i hne
    intro hid
    rcases List.mem_append.1 hid with hid | hid
    · unfold applied at hid
      dsimp only at hid
      split at hid
      · rename_i hany
        -- the message with the id is in the room, and there is but one
        obtain ⟨y, hy, hboth⟩ := List.any_eq_true.1 hany
        rw [Bool.and_eq_true, decide_eq_true_iff, decide_eq_true_iff] at hboth
        have hmid := List.mem_singleton.1 hid
        have hsame : m = y := Table.eq_of_key_eq hm hy (hmid.trans hboth.2.symm)
        exact absurd ⟨hsame ▸ hboth.1, hmid⟩ hne
      · cases hid
    · exact h m hm hid

theorem heeds_begin (c : CacheCall) :
    ∀ x ∈ (beginCache cache c).1.rows, Heeds (applied cache c .begin ++ deleted) x := by
  cases c with
  | refreshMessages | applyIncomingMessage | upsertMessage | deleteMessage
  | downloadAndCacheAttachment => exact h
  | loadOlderMessages roomId =>
    unfold beginCache
    dsimp only
    split
    · exact h
    · exact h
  | markMessageDeleted roomId messageId =>
    exact heeds_updateMessageDeleted h roomId messageId "消息已删除"
  | removeMessage messageId => exact fun x hx => h x (Table.mem_delete.1 hx).1
  | removeRoom roomId => exact heeds_filter h _
  | clear => exact fun x hx => absurd hx List.not_mem_nil
  | _ =>
    refine heeds_map h (fun m => ?_) fun m => ?_
    · split <;> rfl
    · split <;> rfl

/-- What a query leaves heeds the deletions, as what was cached and what it writes do. -/
theorem heeds_stmt {c : CacheCall} {stage : CacheStage} (x : CacheChance)
    (hwritten : ∀ m ∈ written stage, Heeds deleted m) :
    ∀ y ∈ (cacheStmt keep cache c stage x).1.rows, Heeds (applied cache c stage ++ deleted) y := by
  cases stage with
  | begin => exact heeds_begin h c
  | requested current => exact h
  | preserving rest | upserting rest => cases rest <;> exact h
  | replacing merged =>
    cases c with
    | refreshMessages roomId => exact heeds_filter (heeds_puts h hwritten) _
    | _ => exact h
  | writing message rest =>
    have hmessage := hwritten message (List.mem_singleton_self _)
    cases c with
    | deleteMessage roomId messageId =>
      show ∀ y ∈ (cache.put message).rows,
        Heeds ((if message.isDeleted then [message.id] else []) ++ deleted) y
      split
      · rename_i hdeleted
        intro y hy hid
        rcases Table.mem_put hy with ⟨hy, hne⟩ | rfl
        · rcases List.mem_append.1 hid with hid | hid
          · exact absurd (List.mem_singleton.1 hid) hne
          · exact h y hy hid
        · exact hdeleted
      · exact heeds_put h hmessage
    | _ => exact heeds_put h hmessage
  | pruning roomId rest => exact heeds_filter h _

omit h

theorem cacheKept_fresh (keep : ℕ) : CacheKept keep Fresh := by
  intro cache s hreach
  have heach : Each (fun w : Watched => ∀ m ∈ w.cache.rows, Heeds w.deleted m)
      (fun _ _ _ _ => True) s := by
    refine Reach.each (fun _ _ _ _ => trivial) ?_ (fun _ _ _ => trivial) ?_ hreach
      (Overlap.each_idle fun m _ hid => absurd hid List.not_mem_nil)
    · intro s i c stage x hs hcall _ hfresh
      exact ⟨heeds_stmt hs.1 x (hfresh c stage hcall), trivial, fun _ _ _ _ _ _ => trivial⟩
    · exact fun w t hw => ⟨hw, fun _ _ _ _ => trivial⟩
  exact heach.1

/-! ## A response that was computed before -/

/-- A message that is cached. -/
def sampleMessage : ChatMessage where
  id := "1"
  roomId := "7"
  senderId := "3"
  text := "hello"
  status := .sent
  createdAt := 0
  isDeleted := false
  isPinned := false
  pinnedAt := none
  pinnedBy := none
  reactions := []
  parts := []

def sampleCache : MessageCache := Table.put Table.empty sampleMessage

/-- Between a request and its response a message is deleted. -/
def deletedMeanwhile : List (Overlap.Act CacheCall CacheChance Unit) :=
  [.start 0 (.refreshMessages "7"), .run 0 .ok, .start 1 (.markMessageDeleted "7" "1"), .run 1 .ok,
    .run 0 (.reply [sampleMessage]), .run 0 .ok, .run 0 .ok, .run 0 .ok]

theorem not_cacheKept : ¬CacheKept 200 fun _ _ _ => True := by
  intro h
  have hrun : ((Overlap.perform (watched 200) (fun _ _ _ => true) deletedMeanwhile
      (.idle ⟨sampleCache, []⟩)).map fun s => (s.world.deleted, s.world.cache.rows)) =
      some (["1"], [sampleMessage]) := by
    decide +kernel
  obtain ⟨s, hs, hcached⟩ := Option.map_eq_some_iff.1 hrun
  obtain ⟨hdeleted, hrows⟩ := Prod.mk.inj hcached
  have hmem : sampleMessage ∈ s.world.cache.rows := by
    rw [hrows]
    exact List.mem_singleton_self _
  have hin : sampleMessage.id ∈ s.world.deleted := by
    rw [hdeleted]
    exact List.mem_singleton_self _
  cases h sampleCache s (Reach.of_perform (fun _ _ _ _ => trivial) hs) sampleMessage hmem hin

end Deletions

/-- **A deletion is never undone**, in the open chat of the web client and in the cache of the
Android app, in every run in which whatever is put in place or written heeds the deletions. -/
theorem deletion_kept (currentUser : Option String) (keep : ℕ) :
    H5.Deletions.DeletionsKept currentUser H5.Deletions.Fresh ∧
      Deletions.CacheKept keep Deletions.Fresh :=
  ⟨H5.Deletions.deletionsKept_fresh currentUser, Deletions.cacheKept_fresh keep⟩

/-- A response that was computed before a deletion undoes it, in either of them. -/
theorem deletion_undone :
    (¬H5.Deletions.DeletionsKept none fun _ _ _ => True) ∧
      ¬Deletions.CacheKept 200 fun _ _ _ => True :=
  ⟨H5.Deletions.not_deletionsKept, Deletions.not_cacheKept⟩

end RedcodeIm.Android
