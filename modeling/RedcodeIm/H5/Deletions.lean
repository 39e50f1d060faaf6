import RedcodeIm.H5.ChatDetail

/-!
# Deletions of the open chat

A deletion is applied to the messages that are shown.  What is merged into them, put in their place
or stored later may have been read before.

* `Watched` — the store of the open chat, with the deletions that have been applied to it.
* `DeletionsKept` — no message is shown or stored undeleted again.
* `Fresh` — the condition: whatever is put in place heeds the deletions.
* `deletionsKept_fresh`, `not_deletionsKept` — under the condition it is so in every run, and not
  in every run without it.

A deletion that the user asks for is applied at once, and called off where the server refuses it.
-/

namespace RedcodeIm.H5

open Overlap (Each Next Reach)
open List

namespace Deletions

/-- The store of the open chat, and the messages whose deletion has been applied to it. -/
structure Watched where
  detail : DetailWorld
  deleted : List String

abbrev Condition := Overlap.Condition Watched DetailCall DetailStage Unit DetailChance

/-- The deletion that a statement applies. -/
def applied (w : DetailWorld) (c : DetailCall) (stage : DetailStage) (x : DetailChance) :
    List String :=
  match stage, x, c with
  | .begin, .ready .., .messageUpdate roomId messageId (some true) =>
    if messageId = "" ∨ roomId ≠ w.roomId then []
    else if w.messages.any fun message => message.id = messageId then [messageId] else []
  | .begin, .ready .., .deleteMessage messageId =>
    if w.roomId = "" ∨ messageId = "" then []
    else if w.messages.any fun message => message.id = messageId then [messageId] else []
  | _, _, _ => []

/-- The server refuses a deletion, and it is called off. -/
def callOff (c : DetailCall) (stage : DetailStage) (x : DetailChance) (deleted : List String) :
    List String :=
  match stage, x, c with
  | .deleting .., .fails, .deleteMessage messageId => deleted.erase messageId
  | _, _, _ => deleted

/-- The store of the open chat, while others write messages as well. -/
def watched (currentUser : Option String) :
    Overlap.System Watched DetailCall DetailStage Unit DetailChance MessageDb where
  start _ := .begin
  stmt w c stage x :=
    ({ detail := (detailStmt currentUser w.detail c stage x).1
       deleted := applied w.detail c stage x ++ callOff c stage x w.deleted },
      (detailStmt currentUser w.detail c stage x).2)
  possible w c stage x := detailPossible w.detail c stage x
  tick w saved := { w with detail := { w.detail with saved } }

/-- A message is shown as deleted, if it has been. -/
def Heeds (deleted : List String) (m : ChatMessage) : Prop :=
  m.id ∈ deleted → m.isDeleted.value = some true

/-- Whatever happens under a condition, all that is shown heeds the deletions, and all that the
actions store. -/
def DeletionsKept (currentUser : Option String) (G : Condition) : Prop :=
  ∀ saved s, Reach (watched currentUser) G (.idle
      { detail := { roomId := "", messages := [], quotedMessage := none, saved }, deleted := [] })
      s →
    (∀ m ∈ s.world.detail.messages, Heeds s.world.deleted m) ∧
    ∀ i c stage x, s.calls i = some (c, .running stage) →
      detailPossible s.world.detail c stage x = true → G s i x →
      ∀ row ∈ (detailStmt currentUser s.world.detail c stage x).1.saved.rows,
        row ∈ s.world.detail.saved.rows ∨ Heeds s.world.deleted row.payload

/-! ## The condition -/

/-- The messages that a statement puts in place or stores. -/
def placed (w : DetailWorld) (stage : DetailStage) (x : DetailChance) : List ChatMessage :=
  match stage, x with
  | .cached roomId, .ok => w.saved.loadMessages roomId
  | .remote _, .reply remote => remote
  | .saving _ messages _, .ok => messages
  | .resumed _ (.place messages _), _ => messages
  | .requested .., .reply [sent] => [sent]
  | .deleting _ previous, .fails => previous
  | .pinning _ previous, .fails => previous
  | .older .., .reply older => older
  | _, _ => []

/-- An event tells of a message that it is not deleted. -/
def undeletes (c : DetailCall) (stage : DetailStage) : Option String :=
  match stage, c with
  | .begin, .messageUpdate _ messageId (some false) => some messageId
  | _, _ => none

/-- **The condition.**  Whatever is put in place or stored heeds the deletions, and no event tells
of a deleted message that it is not. -/
def Fresh : Condition := fun s i x =>
  ∀ c stage, s.calls i = some (c, .running stage) →
    (∀ m ∈ placed s.world.detail stage x, Heeds (callOff c stage x s.world.deleted) m) ∧
    ∀ messageId, undeletes c stage = some messageId → messageId ∉ s.world.deleted

/-! ## What heeds the deletions -/

variable {deleted deleted' : List String} {m : ChatMessage} {messages : List ChatMessage}
  {currentUser : Option String} {w : DetailWorld} {c : DetailCall} {stage : DetailStage}
  {x : DetailChance}

theorem Heeds.mono (h : Heeds deleted m) (hle : ∀ id ∈ deleted', id ∈ deleted) :
    Heeds deleted' m := fun hid => h (hle _ hid)

theorem heeds_onto (m : ChatMessage) (previous : Option ChatMessage) (h : Heeds deleted m) :
    Heeds deleted (m.onto previous) := by
  cases previous with
  | none => exact h
  | some previous =>
    intro hid
    have htrue : m.isDeleted = some (some true) := by
      cases hdeleted : m.isDeleted with
      | _ => simpa [Maybe.value, hdeleted] using h hid
    show (m.isDeleted.over previous.isDeleted).value = some true
    rw [htrue]
    rfl

theorem heeds_merge {incoming : List ChatMessage} (h : ∀ m ∈ messages, Heeds deleted m)
    (hincoming : ∀ m ∈ incoming, Heeds deleted m) :
    ∀ m ∈ mergeMessages messages incoming, Heeds deleted m :=
  forall_mergeMessages (fun m previous hm _ => heeds_onto m previous hm) h hincoming

variable (messageId : String) {f : ChatMessage → ChatMessage}

theorem heeds_change (h : ∀ m ∈ messages, Heeds deleted m)
    (hf : ∀ m, m.id = messageId → Heeds deleted m → Heeds deleted (f m)) :
    ∀ m ∈ change messageId f messages, Heeds deleted m := by
  intro m hm
  obtain ⟨y, hy, rfl⟩ := mem_map.1 hm
  split
  · rename_i hid
    exact hf y hid (h y hy)
  · exact h y hy

/-- A deletion is applied. -/
theorem heeds_deleted (h : ∀ m ∈ messages, Heeds deleted m) {ids : List String}
    (hids : ∀ id ∈ ids, id = messageId) (hf : ∀ m, (f m).isDeleted.value = some true) :
    ∀ m ∈ change messageId f messages, Heeds (ids ++ deleted) m := by
  intro m hm
  obtain ⟨y, hy, rfl⟩ := mem_map.1 hm
  split
  · exact fun _ => hf y
  · rename_i hne
    intro hid
    rcases mem_append.1 hid with hid | hid
    · exact absurd (hids _ hid) hne
    · exact h y hy hid

theorem mem_callOff {id : String} (h : id ∈ callOff c stage x deleted) : id ∈ deleted := by
  unfold callOff at h
  split at h
  · exact mem_of_mem_erase h
  · exact h

/-- A row that an action stores is one of those it puts in place. -/
theorem row_placed {row : StoredMessage}
    (h : row ∈ (detailStmt currentUser w c stage x).1.saved.rows) :
    row ∈ w.saved.rows ∨ ∃ roomId, ∃ m ∈ placed w stage x,
      row = ⟨roomId, sanitizeMessageForStorage m⟩ ∧
        ∀ deleted, callOff c stage x deleted = deleted := by
  by_cases hsaving : ∃ roomId messages next, stage = .saving roomId messages next
  · obtain ⟨roomId, messages, next, rfl⟩ := hsaving
    by_cases hx : x = .ok
    · subst hx
      rcases MessageDb.mem_rows_of_saveMessages h with hrow | ⟨m, hm, hrow⟩
      · exact .inl hrow
      · exact .inr ⟨roomId, m, hm, hrow, fun _ => rfl⟩
    · have hsaved : (detailStmt currentUser w c (.saving roomId messages next) x).1.saved =
          w.saved := if_neg hx
      rw [hsaved] at h
      exact .inl h
  · rw [saved_detailStmt fun roomId messages next h => hsaving ⟨roomId, messages, next, h⟩] at h
    exact .inl h

/-! ## What the actions show -/

theorem heeds_withStatus (status : MessageStatus) (h : ∀ m ∈ messages, Heeds deleted m) :
    ∀ m ∈ change messageId (withStatus status) messages, Heeds deleted m :=
  heeds_change messageId h fun _ _ hm => hm

theorem heeds_flush (h : ∀ m ∈ w.messages, Heeds deleted m) (localId content : String) :
    ∀ m ∈ (flushPendingMessage w localId content).1.messages, Heeds deleted m := by
  unfold flushPendingMessage
  split
  · exact h
  · exact heeds_withStatus localId .sending h

theorem heeds_nextPage (h : ∀ m ∈ w.messages, Heeds deleted m) (messageId : String)
    (pagesLeft : ℕ) : ∀ m ∈ (nextPage w messageId pagesLeft).1.messages, Heeds deleted m := by
  unfold nextPage
  split
  · exact h
  · exact h
  · split
    · exact h
    · exact h

theorem heeds_readUpTo (h : ∀ m ∈ messages, Heeds deleted m) (messageId : String) :
    ∀ m ∈ readUpTo currentUser messageId messages, Heeds deleted m := by
  intro m hm
  obtain ⟨n, hn, rfl⟩ := mem_mapIdx.1 hm
  have hheeds : Heeds deleted messages[n] := h _ (getElem_mem hn)
  split
  · exact hheeds
  · exact hheeds

/-- The id that a deletion is applied to. -/
theorem eq_of_mem_applied {messageId id : String} (p : Prop) [Decidable p]
    (h : id ∈ if p then [] else
      if w.messages.any fun message => message.id = messageId then [messageId] else []) :
    id = messageId := by
  split at h
  · cases h
  · split at h
    · exact mem_singleton.1 h
    · cases h

/-- An update leaves a message deleted, unless it tells that it is not. -/
theorem heeds_updated {isDeleted : Option Bool} (hm : Heeds deleted m)
    (h : isDeleted = some false → m.id ∉ deleted) : Heeds deleted (updated isDeleted m) := by
  intro hid
  rcases isDeleted with _ | _ | _
  · show some (m.isDeleted.value.getD false) = some true
    rw [hm hid]
    rfl
  · exact absurd hid (h rfl)
  · rfl

theorem heeds_visibleSent (pending : Option ChatMessage) (h : Heeds deleted m) :
    Heeds deleted (withStatus .sent (visibleSent pending m)) := by
  unfold visibleSent
  split
  · exact h
  · split
    · exact h
    · exact h

theorem heeds_begin (h : ∀ m ∈ w.messages, Heeds deleted m)
    (hundeletes : ∀ id, undeletes c .begin = some id → id ∉ deleted) (e2ee : Bool)
    (stamp : String) (now : ℤ) : ∀ m ∈ (beginDetail currentUser w c now).1.messages,
      Heeds (applied w c .begin (.ready e2ee stamp now) ++ deleted) m := by
  cases c with
  | leaveRoom => exact fun m hm => absurd hm not_mem_nil
  | clearQuote => exact h
  | resendMessage messageId =>
    unfold beginDetail
    dsimp only
    split
    · exact h
    · split
      · exact h
      · exact heeds_flush h _ _
  | deleteMessage messageId =>
    have hmarked : ∀ m ∈ change messageId markDeleted w.messages,
        Heeds (applied w (.deleteMessage messageId) .begin (.ready e2ee stamp now) ++ deleted) m :=
      heeds_deleted messageId h (fun _ hid => eq_of_mem_applied _ hid) fun _ => rfl
    unfold beginDetail
    dsimp only
    split
    · rename_i hrejected
      intro m hm
      have hnone : applied w (.deleteMessage messageId) .begin (.ready e2ee stamp now) = [] :=
        if_pos hrejected
      rw [hnone]
      exact h m hm
    · exact hmarked
  | setMessagePinned messageId | pinUpdate _ messageId =>
    unfold beginDetail
    dsimp only
    split
    · exact h
    · exact heeds_change messageId h fun _ _ hm => hm
  | loadUntilFound messageId maxPages =>
    unfold beginDetail
    dsimp only
    split
    · exact h
    · split
      · exact h
      · exact heeds_nextPage h _ _
  | message m =>
    unfold beginDetail
    dsimp only
    split
    · exact h
    · split
      · have hrest (id : String) : ∀ m ∈ w.messages.filter fun item => item.id ≠ id,
            Heeds deleted m := fun m hm => h m (mem_filter.1 hm).1
        split
        · exact hrest _
        · exact hrest _
      · exact h
  | messageUpdate roomId messageId isDeleted =>
    have hchanged : ∀ m ∈ change messageId (updated isDeleted) w.messages, Heeds
        (applied w (.messageUpdate roomId messageId isDeleted) .begin (.ready e2ee stamp now) ++
          deleted) m := by
      rcases isDeleted with _ | _ | _
      · exact heeds_change messageId h fun m _ hm =>
          heeds_updated hm fun hfalse => (by cases hfalse)
      · exact heeds_change messageId h fun m hid hm =>
          heeds_updated hm fun _ => hid ▸ hundeletes messageId rfl
      · exact heeds_deleted messageId h (fun _ hid => eq_of_mem_applied _ hid) fun _ => rfl
    unfold beginDetail
    dsimp only
    split
    · rename_i hrejected
      intro m hm
      have hnone : applied w (.messageUpdate roomId messageId isDeleted) .begin
          (.ready e2ee stamp now) = [] := by
        rcases isDeleted with _ | _ | _
        · rfl
        · rfl
        · exact if_pos hrejected
      rw [hnone]
      exact h m hm
    · exact hchanged
  | messageRead roomId messageId readerId =>
    unfold beginDetail
    dsimp only
    split
    · exact h
    · split
      · exact heeds_readUpTo h messageId
      · exact h
  | _ =>
    unfold beginDetail
    dsimp only
    split
    · exact h
    · exact h

theorem heeds_resume (h : ∀ m ∈ w.messages, Heeds deleted m) {roomId : String} {next : AfterSave}
    (hplaced : ∀ m ∈ placed w (.resumed roomId next) x, Heeds deleted m) :
    ∀ m ∈ (resumeDetail w roomId next).1.messages, Heeds deleted m := by
  cases next with
  | finish | request => exact h
  | place messages after =>
    cases after with
    | finish => exact hplaced
    | flush localId content => exact heeds_flush (w := { w with messages }) hplaced localId content
  | page messageId pagesLeft nothingNew =>
    unfold resumeDetail
    dsimp only
    split
    · exact h
    · split
      · exact h
      · exact heeds_nextPage h _ _
  | _ =>
    unfold resumeDetail
    dsimp only
    split
    · exact h
    · exact h

/-- What a statement shows heeds the deletions, as what was shown and what it puts in place do. -/
theorem heeds_stmt (h : ∀ m ∈ w.messages, Heeds deleted m)
    (hplaced : ∀ m ∈ placed w stage x, Heeds (callOff c stage x deleted) m)
    (hundeletes : ∀ id, undeletes c stage = some id → id ∉ deleted) :
    ∀ m ∈ (detailStmt currentUser w c stage x).1.messages,
      Heeds (applied w c stage x ++ callOff c stage x deleted) m := by
  have hcalled : ∀ m ∈ w.messages, Heeds (callOff c stage x deleted) m :=
    fun m hm => (h m hm).mono fun id hid => mem_callOff hid
  cases stage with
  | begin =>
    cases x with
    | ready e2ee stamp now => exact heeds_begin h hundeletes e2ee stamp now
    | _ => exact h
  | cached roomId =>
    have hcached : ∀ m ∈ if x = .ok then w.saved.loadMessages roomId else [], Heeds deleted m := by
      cases x with
      | ok => exact hplaced
      | _ => exact fun m hm => absurd hm not_mem_nil
    show ∀ m ∈ if (if x = .ok then w.saved.loadMessages roomId else []) = [] then w.messages
      else if x = .ok then w.saved.loadMessages roomId else [], Heeds deleted m
    by_cases hnil : (if x = .ok then w.saved.loadMessages roomId else []) = []
    · rw [if_pos hnil]
      exact h
    · rw [if_neg hnil]
      exact hcached
  | remote roomId =>
    cases x with
    | reply remote => exact heeds_merge h hplaced
    | _ => exact h
  | resumed roomId next => exact heeds_resume h hplaced
  | requested roomId localId content pending =>
    cases x with
    | reply messages =>
      rcases messages with _ | ⟨sent, _ | ⟨other, rest⟩⟩
      · exact h
      · have hsent : Heeds deleted (withStatus .sent (visibleSent pending sent)) :=
          heeds_visibleSent pending (hplaced sent (mem_singleton_self _))
        exact heeds_merge (fun m hm => h m (mem_filter.1 hm).1)
          (forall_mem_singleton.2 hsent)
      · exact h
    | fails => exact heeds_withStatus localId .failed h
    | _ => exact h
  | conflicted localId =>
    cases x with
    | ok => exact heeds_withStatus localId .failed h
    | _ => exact h
  | deleting roomId previous =>
    cases x with
    | fails => exact hplaced
    | _ => exact hcalled
  | pinning roomId previous =>
    cases x with
    | fails => exact hplaced
    | _ => exact h
  | resolving message =>
    cases x with
    | reply messages =>
      rcases messages with _ | ⟨resolved, _ | ⟨other, rest⟩⟩
      · exact h
      · simp only [detailStmt]
        split
        · exact h
        · exact h
      · exact h
    | _ => exact h
  | uploading =>
    cases x with
    | attached e2ee attachment stamp now => cases e2ee <;> exact h
    | _ => exact h
  | retrying | uploaded =>
    cases x with
    | reply messages => rcases messages with _ | ⟨sent, _ | ⟨other, rest⟩⟩ <;> exact h
    | _ => exact h
  | older roomId messageId pagesLeft known =>
    cases x with
    | reply older =>
      simp only [detailStmt]
      split
      · exact h
      · exact heeds_merge h hplaced
    | _ => exact h
  | _ => cases x <;> exact h

/-! ## Every run -/

theorem heeds_sanitize (h : Heeds deleted m) : Heeds deleted (sanitizeMessageForStorage m) := by
  unfold sanitizeMessageForStorage
  split
  · exact h
  · split
    · exact h
    · exact h

theorem deletionsKept_fresh (currentUser : Option String) : DeletionsKept currentUser Fresh := by
  intro saved s hreach
  have hshown : ∀ m ∈ s.world.detail.messages, Heeds s.world.deleted m := by
    have heach : Each (fun w : Watched => ∀ m ∈ w.detail.messages, Heeds w.deleted m)
        (fun _ _ _ _ => True) s := by
      refine Reach.each (fun _ _ _ _ => trivial) ?_ (fun _ _ _ => trivial) ?_ hreach
        (Overlap.each_idle fun m hm => absurd hm not_mem_nil)
      · intro s i c stage x hs hcall _ hfresh
        obtain ⟨hplaced, hundeletes⟩ := hfresh c stage hcall
        exact ⟨heeds_stmt hs.1 hplaced hundeletes, trivial, fun _ _ _ _ _ _ => trivial⟩
      · exact fun w t hw => ⟨hw, fun _ _ _ _ => trivial⟩
    exact heach.1
  refine ⟨hshown, fun i c stage x hcall _ hfresh row hrow => ?_⟩
  rcases row_placed hrow with hrow | ⟨roomId, m, hm, rfl, hsame⟩
  · exact .inl hrow
  · have hheeds := (hfresh c stage hcall).1 m hm
    rw [hsame] at hheeds
    exact .inr (heeds_sanitize hheeds)

/-! ## A response that was computed before -/

/-- A room is entered twice.  Between the second request and its response a message is deleted. -/
def deletedMeanwhile : List (Overlap.Act DetailCall DetailChance MessageDb) :=
  let m : ChatMessage :=
    { id := "1", roomId := "7", senderId := "3", senderName := "", content := "hello"
      type := .text, timestamp := 1, isDeleted := some (some false) }
  [.start 0 (.enterRoom "7"), .run 0 (.ready false "" 0), .run 0 .ok, .run 0 (.reply [m]),
    .start 1 (.enterRoom "7"), .run 1 (.ready false "" 0), .run 1 .ok,
    .start 2 (.messageUpdate "7" "1" (some true)), .run 2 (.ready false "" 0),
    .run 1 (.reply [m])]

/-- The message is shown again. -/
theorem not_deletionsKept : ¬DeletionsKept none fun _ _ _ => True := by
  intro h
  have hrun : ((Overlap.perform (watched none) (fun _ _ _ => true) deletedMeanwhile (.idle
      { detail := { roomId := "", messages := [], quotedMessage := none, saved := Table.empty }
        deleted := [] })).map fun s =>
      (s.world.deleted, s.world.detail.messages.map fun m => (m.id, m.isDeleted.value))) =
      some (["1"], [("1", some false)]) := by
    decide +kernel
  obtain ⟨s, hs, hshown⟩ := Option.map_eq_some_iff.1 hrun
  obtain ⟨hdeleted, hmessages⟩ := Prod.mk.inj hshown
  have hmem : ("1", some false) ∈
      s.world.detail.messages.map fun m => (m.id, m.isDeleted.value) := by
    rw [hmessages]
    exact mem_singleton_self _
  obtain ⟨m, hm, hboth⟩ := mem_map.1 hmem
  obtain ⟨hid, hvalue⟩ := Prod.mk.inj hboth
  have hheeds := (h Table.empty s (Reach.of_perform (fun _ _ _ _ => trivial) hs)).1 m hm
  have hin : m.id ∈ s.world.deleted := by
    rw [hid, hdeleted]
    exact mem_singleton_self _
  have htrue := hheeds hin
  rw [hvalue] at htrue
  cases htrue

end Deletions

end RedcodeIm.H5
