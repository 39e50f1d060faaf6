import RedcodeIm.H5.ChatDetail

/-!
# The open chat shows one room

Actions of the open chat go on after the user may have entered another room.

* `OfOneRoom` — the messages that are shown are those of the open room, and what is stored of a
  room are messages of it.
* `InRoom` — the condition: an action goes on with messages of the room that is open.
* `shows_one_room` — under the condition it is so in every state.
-/

namespace RedcodeIm.H5

open Overlap (Each Next Reach Step)

/-! ## Messages of one room -/

/-- All the messages are of the room. -/
def Within (roomId : String) (messages : List ChatMessage) : Prop :=
  ∀ message ∈ messages, message.roomId = roomId

section

variable {roomId : String} {messages : List ChatMessage}

theorem within_nil : Within roomId [] := List.forall_mem_nil _

theorem within_singleton {message : ChatMessage} (h : message.roomId = roomId) :
    Within roomId [message] := List.forall_mem_singleton.2 h

theorem Within.filter (h : Within roomId messages) (p : ChatMessage → Bool) :
    Within roomId (messages.filter p) := fun m hm => h m (List.mem_filter.1 hm).1

theorem Within.change (h : Within roomId messages) (messageId : String)
    {f : ChatMessage → ChatMessage} (hf : ∀ m, (f m).roomId = m.roomId) :
    Within roomId (change messageId f messages) := by
  intro m hm
  obtain ⟨y, hy, rfl⟩ := List.mem_map.1 hm
  split
  · rw [hf, h y hy]
  · exact h y hy

theorem Within.readUpTo (h : Within roomId messages) (currentUser : Option String)
    (messageId : String) : Within roomId (readUpTo currentUser messageId messages) := by
  intro m hm
  obtain ⟨n, hn, rfl⟩ := List.mem_mapIdx.1 hm
  have hroom : messages[n].roomId = roomId := h _ (List.getElem_mem hn)
  split
  · exact hroom
  · exact hroom

theorem roomId_onto (m : ChatMessage) (previous : Option ChatMessage) :
    (m.onto previous).roomId = m.roomId := by
  cases previous <;> rfl

theorem Within.merge {incoming : List ChatMessage} (h : Within roomId messages)
    (hincoming : Within roomId incoming) : Within roomId (mergeMessages messages incoming) := by
  refine forall_mergeMessages (fun m previous hm _ => ?_) h hincoming
  rw [roomId_onto]
  exact hm

end

namespace RoomIsolation

abbrev State := Overlap.State DetailWorld DetailCall DetailStage Unit

abbrev Status := Overlap.Status DetailStage Unit

abbrev Condition := Overlap.Condition DetailWorld DetailCall DetailStage Unit DetailChance

/-- What is stored of a room are messages of it. -/
def StoredWithin (db : MessageDb) : Prop := ∀ row ∈ db.rows, row.payload.roomId = row.roomId

/-- The open chat shows one room. -/
structure OfOneRoom (w : DetailWorld) : Prop where
  shown : Within w.roomId w.messages
  stored : StoredWithin w.saved

/-- Whatever the actions do under a condition, the open chat shows one room, and what is done about
a message of another room leaves the messages that are being sent. -/
def ShowsOneRoom (currentUser : Option String) (G : Condition) : Prop :=
  ∀ w₀ s, OfOneRoom w₀ → Reach (chatDetail currentUser) G (.idle w₀) s → OfOneRoom s.world ∧
    ∀ i m stage x, s.calls i = some (.message m, .running stage) →
      detailPossible s.world (.message m) stage x = true → G s i x →
      m.roomId ≠ s.world.roomId → ∀ p ∈ s.world.messages, p.isLocal = true →
        p ∈ (detailStmt currentUser s.world (.message m) stage x).1.messages

/-! ## The condition -/

/-- The room of what an action goes on with is the one that is open. -/
def Fits (currentUser : Option String) (w : DetailWorld) (c : DetailCall) (stage : DetailStage)
    (x : DetailChance) : Prop :=
  match stage with
  | .begin =>
    match c with
    | .enterRoom roomId => roomId = "" ∨ w.messages = [] ∨ w.roomId = roomId
    | .message message => message.roomId = w.roomId ∨ takenFor currentUser w message = none
    | _ => True
  | .cached roomId => w.roomId = roomId
  | .remote roomId => x = .fails ∨ w.roomId = roomId
  | .resumed roomId (.place _ _) => w.roomId = roomId
  | .requested roomId _ _ _ => x = .fails ∨ x = .conflict ∨ w.roomId = roomId
  | .deleting roomId _ => x = .ok ∨ w.roomId = roomId
  | .pinning roomId _ => x = .ok ∨ w.roomId = roomId
  | .retrying roomId _ => w.roomId = roomId
  | .uploaded roomId => x = .fails ∨ w.roomId = roomId
  | .older roomId _ _ _ => x = .fails ∨ w.roomId = roomId
  | _ => True

/-- **The condition.**  A room is entered while no messages of another one are shown, an action
that has waited goes on only in the room that it has waited for, and a message of another room is
not taken for one that is being sent. -/
def InRoom (currentUser : Option String) : Condition := fun s i x =>
  ∀ c stage, s.calls i = some (c, .running stage) → Fits currentUser s.world c stage x

variable {currentUser : Option String} {w₀ w w' : DetailWorld} {s s' : State} {i : ℕ}
  {c : DetailCall} {stage : DetailStage} {x : DetailChance}

/-! ## What the actions have kept -/

/-- What is kept for after a save is of the room that was written. -/
def Kept (roomId : String) : AfterSave → Prop
  | .place messages _ => Within roomId messages
  | .delete _ previous => Within roomId previous
  | .pin _ previous => Within roomId previous
  | _ => True

/-- What an action has kept is of the room that it has named to what it waits for. -/
def KeptWithin : Status → Prop
  | .running (.saving roomId messages next) => Within roomId messages ∧ Kept roomId next
  | .running (.resumed roomId next) => Kept roomId next
  | .running (.deleting roomId previous) => Within roomId previous
  | .running (.pinning roomId previous) => Within roomId previous
  | .running (.retrying roomId failed) => failed.roomId = roomId
  | _ => True

/-- An action has come so far, and everything is of one room. -/
def Fine (r : DetailWorld × Next DetailStage Unit) : Prop :=
  OfOneRoom r.1 ∧ KeptWithin r.2.status

theorem fine_done (h : OfOneRoom w) : Fine (w, .done ()) := ⟨h, trivial⟩

/-- An action that a guard can end. -/
theorem fine_guarded {p : Prop} [Decidable p] {move : DetailWorld × Next DetailStage Unit}
    (h : OfOneRoom w) (hmove : ¬p → Fine move) : Fine (if p then (w, .done ()) else move) := by
  split
  case isTrue => exact fine_done h
  case isFalse hp => exact hmove hp

theorem OfOneRoom.unquoted (h : OfOneRoom w) : OfOneRoom { w with quotedMessage := none } :=
  ⟨h.shown, h.stored⟩

variable {messages : List ChatMessage} {next : AfterSave}

theorem keptWithin_persist (hmessages : Within w.roomId messages) (hnext : Kept w.roomId next) :
    KeptWithin (.running (persist w messages next)) := by
  unfold persist
  split
  · rename_i hroom
    rw [hroom] at hnext
    exact hnext
  · exact ⟨hmessages, hnext⟩

theorem fine_show (h : OfOneRoom w) (hmessages : Within w.roomId messages)
    (hnext : Kept w.roomId next) :
    Fine ({ w with messages }, .goto (persist w messages next)) :=
  ⟨⟨hmessages, h.stored⟩, keptWithin_persist hmessages hnext⟩

variable {m : ChatMessage}

theorem fine_upsert (h : OfOneRoom w) (hm : m.roomId = w.roomId) (after : AfterPlace) :
    Fine (upsertLocalMessage w m after) := by
  have hmerge : Within w.roomId (mergeMessages w.messages [m]) :=
    h.shown.merge (within_singleton hm)
  have hnext : Kept w.roomId (.place (mergeMessages w.messages [m]) after) := hmerge
  exact ⟨h, keptWithin_persist hmerge hnext⟩

theorem fine_flush (h : OfOneRoom w) (localId content : String) :
    Fine (flushPendingMessage w localId content) := by
  unfold flushPendingMessage
  split
  · exact fine_done h
  · exact fine_show h (h.shown.change localId fun _ => rfl) trivial

theorem fine_markFailed (h : OfOneRoom w) (localId : String) : Fine (markFailed w localId) :=
  fine_show h (h.shown.change localId fun _ => rfl) trivial

theorem fine_nextPage (h : OfOneRoom w) (messageId : String) (pagesLeft : ℕ) :
    Fine (nextPage w messageId pagesLeft) := by
  unfold nextPage
  split
  · exact fine_done h
  · exact fine_done h
  · split
    · exact fine_done h
    · exact ⟨h, trivial⟩

theorem fine_begin (h : OfOneRoom w) (now : ℤ) (hfits : Fits currentUser w c .begin x) :
    Fine (beginDetail currentUser w c now) := by
  unfold beginDetail
  cases c with
  | enterRoom roomId =>
    dsimp only
    split
    · exact fine_done h
    · rename_i hne
      refine ⟨⟨?_, h.stored⟩, trivial⟩
      rcases hfits with hempty | hnil | hroom
      · exact absurd hempty hne
      · show Within roomId w.messages
        rw [hnil]
        exact within_nil
      · exact hroom ▸ h.shown
  | leaveRoom => exact ⟨⟨within_nil, h.stored⟩, trivial⟩
  | sendText | sendAttachment => exact fine_guarded h fun _ => ⟨h, trivial⟩
  | quoteMessage messageId =>
    dsimp only
    split
    · exact fine_done h
    · exact ⟨⟨h.shown, h.stored⟩, trivial⟩
  | clearQuote => exact ⟨h.unquoted, trivial⟩
  | resendMessage messageId =>
    dsimp only
    split
    · exact fine_done h
    · rename_i failed hfind
      split
      · exact ⟨h, h.shown failed (List.mem_of_find?_eq_some hfind)⟩
      · exact fine_flush h _ _
  | deleteMessage messageId | setMessagePinned messageId =>
    exact fine_guarded h fun _ => fine_show h (h.shown.change messageId fun _ => rfl) h.shown
  | loadUntilFound messageId maxPages =>
    dsimp only
    split
    · exact fine_done h
    · split
      · exact fine_done h
      · exact fine_nextPage h _ _
  | message m =>
    dsimp only
    split
    · exact fine_done h
    · split
      · rename_i pending _
        let rest := w.messages.filter fun item => item.id ≠ pending.id
        have hrest : OfOneRoom { w with messages := rest } := ⟨h.shown.filter _, h.stored⟩
        split
        · exact fine_done hrest
        · rename_i hroom
          have htaken : ({ m with content := pending.content, status := some (some .sent) } :
              ChatMessage).roomId = w.roomId := not_not.1 hroom
          exact fine_upsert hrest htaken _
      · exact ⟨h, trivial⟩
  | messageUpdate _ messageId | pinUpdate _ messageId =>
    exact fine_guarded h fun _ => fine_show h (h.shown.change messageId fun _ => rfl) trivial
  | messageRead roomId messageId readerId =>
    dsimp only
    split
    · exact fine_done h
    · split
      · exact fine_show h (h.shown.readUpTo currentUser messageId) trivial
      · exact fine_done h

variable {roomId : String}

theorem fine_resume (h : OfOneRoom w) (hkept : Kept roomId next)
    (hfits : Fits currentUser w c (.resumed roomId next) x) :
    Fine (resumeDetail w roomId next) := by
  cases next with
  | finish => exact fine_done h
  | place messages after =>
    have hroom : w.roomId = roomId := hfits
    have hplaced : OfOneRoom { w with messages } := ⟨hroom.symm ▸ hkept, h.stored⟩
    cases after with
    | finish => exact fine_done hplaced
    | flush localId content => exact fine_flush hplaced localId content
  | request localId content => exact ⟨h, trivial⟩
  | page messageId pagesLeft nothingNew =>
    unfold resumeDetail
    dsimp only
    split
    · exact fine_done h
    · split
      · exact fine_done h
      · exact fine_nextPage h _ _
  | _ =>
    unfold resumeDetail
    dsimp only
    split
    · exact fine_done h
    · exact ⟨h, hkept⟩

theorem within_of_all (h : (messages.all fun message => message.roomId = roomId) = true) :
    Within roomId messages := fun m hm => of_decide_eq_true (List.all_eq_true.1 h m hm)

theorem storedWithin_save {db : MessageDb} (h : StoredWithin db)
    (hmessages : Within roomId messages) :
    StoredWithin (db.saveMessages roomId messages) := by
  intro row hrow
  rcases MessageDb.mem_rows_saveMessages hrow with hrow | ⟨hroom, m, hm, hmroom⟩
  · exact h row hrow
  · rw [← hmroom, hmessages m hm, hroom]

theorem within_load {db : MessageDb} (h : StoredWithin db) (roomId : String) :
    Within roomId (db.loadMessages roomId) := by
  intro m hm
  exact h _ (MessageDb.mem_loadMessages.1 hm).2.1

theorem roomId_eq_of_identity {m' : ChatMessage} (h : m.identity = m'.identity) :
    m.roomId = m'.roomId := by
  simp only [ChatMessage.identity, Prod.mk.injEq] at h
  exact h.2.1

theorem roomId_visibleSent (pending : Option ChatMessage) (sent : ChatMessage) :
    (visibleSent pending sent).roomId = sent.roomId := by
  unfold visibleSent
  split
  · rfl
  · split <;> rfl

/-- Every action leaves everything of one room. -/
theorem fine_stmt (h : OfOneRoom w) (hkept : KeptWithin (.running stage))
    (hfits : Fits currentUser w c stage x) (hx : detailPossible w c stage x = true) :
    Fine (detailStmt currentUser w c stage x) := by
  cases stage with
  | begin =>
    cases x with
    | ready e2ee stamp now => exact fine_begin h now hfits
    | _ => cases hx
  | cached roomId =>
    have hroom : w.roomId = roomId := hfits
    refine ⟨⟨?_, h.stored⟩, trivial⟩
    have hcached : Within w.roomId (if x = .ok then w.saved.loadMessages roomId else []) := by
      split
      · exact hroom ▸ within_load h.stored roomId
      · exact within_nil
    unfold detailStmt
    dsimp only
    by_cases hnil : (if x = .ok then w.saved.loadMessages roomId else []) = []
    · rw [if_pos hnil]
      exact h.shown
    · rw [if_neg hnil]
      exact hcached
  | remote roomId =>
    cases x with
    | reply remote =>
      have hroom : w.roomId = roomId := hfits.resolve_left (by simp)
      exact fine_show h (h.shown.merge (hroom ▸ within_of_all hx)) trivial
    | _ => exact fine_done h
  | saving roomId messages next =>
    refine ⟨⟨h.shown, ?_⟩, hkept.2⟩
    show StoredWithin (if _ then _ else _)
    split
    · exact storedWithin_save h.stored hkept.1
    · exact h.stored
  | resumed roomId next => exact fine_resume h hkept hfits
  | prepared text quote =>
    cases x with
    | ready e2ee stamp now => exact fine_upsert h.unquoted rfl _
    | _ => exact fine_done h
  | requested roomId localId content pending =>
    cases x with
    | reply messages =>
      rcases messages with _ | ⟨sent, _ | _⟩
      · cases hx
      · have hroom : w.roomId = roomId := (hfits.resolve_left (by simp)).resolve_left (by simp)
        have hsent : (withStatus .sent (visibleSent pending sent)).roomId = w.roomId := by
          show (visibleSent pending sent).roomId = w.roomId
          rw [roomId_visibleSent, hroom]
          exact of_decide_eq_true hx
        exact fine_show h ((h.shown.filter _).merge (within_singleton hsent)) trivial
      · cases hx
    | conflict => exact ⟨h, trivial⟩
    | fails => exact fine_markFailed h localId
    | _ => exact fine_done h
  | conflicted localId =>
    cases x with
    | ok => exact fine_markFailed h localId
    | _ => exact fine_done h
  | deleting roomId previous | pinning roomId previous =>
    cases x with
    | fails =>
      have hroom : w.roomId = roomId := hfits.resolve_left (by simp)
      exact fine_show h (hroom.symm ▸ hkept) trivial
    | _ => exact fine_done h
  | resolving m =>
    cases x with
    | reply messages =>
      rcases messages with _ | ⟨resolved, _ | _⟩
      · cases hx
      · unfold detailStmt
        dsimp only
        split
        · exact fine_done h
        · rename_i hne
          exact fine_upsert h (not_not.1 (not_or.1 hne).2) _
      · cases hx
    | _ => exact fine_done h
  | retrying roomId failed =>
    cases x with
    | reply messages =>
      rcases messages with _ | ⟨resolved, _ | _⟩
      · cases hx
      · have hroom : w.roomId = roomId := hfits
        have hfailed : failed.roomId = roomId := hkept
        have hid : resolved.identity = failed.identity := of_decide_eq_true hx
        exact fine_upsert h (by rw [roomId_eq_of_identity hid, hfailed, hroom]) _
      · cases hx
    | _ => exact fine_done h
  | uploading =>
    cases x with
    | attached e2ee attachment stamp now =>
      cases e2ee with
      | true => exact fine_upsert h.unquoted rfl _
      | false => exact ⟨h, trivial⟩
    | _ => exact fine_done h
  | uploaded roomId =>
    cases x with
    | reply messages =>
      rcases messages with _ | ⟨sent, _ | _⟩
      · cases hx
      · have hroom : w.roomId = roomId := hfits.resolve_left (by simp)
        have hsent : (withStatus .sent sent).roomId = w.roomId := by
          show sent.roomId = w.roomId
          rw [hroom]
          exact of_decide_eq_true hx
        exact fine_upsert h.unquoted hsent _
      · cases hx
    | _ => exact fine_done h
  | older roomId messageId pagesLeft known =>
    cases x with
    | reply older =>
      unfold detailStmt
      dsimp only
      split
      · exact fine_done h
      · have hroom : w.roomId = roomId := hfits.resolve_left (by simp)
        exact fine_show h (h.shown.merge (hroom ▸ within_of_all hx)) trivial
    | _ => exact fine_done h

/-! ## What is done about a message -/

/-- Where a message stands that has arrived. -/
def AtMessage (m : ChatMessage) : Status → Prop
  | .running .begin => True
  | .running (.resolving m') => m.roomId = m'.roomId
  | .running (.saving roomId _ next) => m.roomId = roomId ∧ ∃ ms, next = .place ms .finish
  | .running (.resumed roomId next) => m.roomId = roomId ∧ ∃ ms, next = .place ms .finish
  | .running _ => False
  | .answered _ => True
  | .failed => True

theorem atMessage_upsert {m' : ChatMessage} (hm : m'.roomId = w.roomId)
    (hroom : m.roomId = m'.roomId) :
    AtMessage m (upsertLocalMessage w m' .finish).2.status := by
  show AtMessage m (.running (persist w _ (.place _ .finish)))
  unfold persist
  split
  · rename_i hempty
    exact ⟨hroom.trans (hm.trans hempty), _, rfl⟩
  · exact ⟨hroom.trans hm, _, rfl⟩

/-- A message that arrives goes its way. -/
theorem atMessage_stmt (h : AtMessage m (.running stage))
    (hx : detailPossible w (.message m) stage x = true) :
    AtMessage m (detailStmt currentUser w (.message m) stage x).2.status := by
  cases stage with
  | begin =>
    cases x with
    | ready e2ee stamp now =>
      unfold detailStmt beginDetail
      dsimp only
      split
      · trivial
      · split
        · split
          · trivial
          · rename_i hroom
            exact atMessage_upsert (not_not.1 hroom) rfl
        · exact rfl
    | _ => cases hx
  | resolving m' =>
    cases x with
    | reply messages =>
      cases messages with
      | nil => cases hx
      | cons resolved rest =>
        cases rest with
        | nil =>
          have hid : resolved.identity = m'.identity := of_decide_eq_true hx
          have hroom : m.roomId = m'.roomId := h
          unfold detailStmt
          dsimp only
          split
          · trivial
          · rename_i hne
            exact atMessage_upsert (not_not.1 (not_or.1 hne).2)
              (hroom.trans (roomId_eq_of_identity hid).symm)
        | cons _ _ => cases hx
    | _ => trivial
  | saving roomId messages next => exact h
  | resumed roomId next =>
    obtain ⟨-, ms, rfl⟩ := h
    trivial
  | _ => exact h.elim

/-- What is done about a message of another room leaves the messages that are being sent. -/
theorem pending_stmt {p : ChatMessage} (h : AtMessage m (.running stage))
    (hfits : Fits currentUser w (.message m) stage x)
    (hx : detailPossible w (.message m) stage x = true) (hroom : m.roomId ≠ w.roomId)
    (hp : p ∈ w.messages) : p ∈ (detailStmt currentUser w (.message m) stage x).1.messages := by
  cases stage with
  | begin =>
    cases x with
    | ready e2ee stamp now =>
      have hnone : takenFor currentUser w m = none := hfits.resolve_left hroom
      unfold detailStmt beginDetail
      dsimp only
      split
      · exact hp
      · rw [hnone]
        exact hp
    | _ => cases hx
  | resolving m' =>
    cases x with
    | reply messages =>
      cases messages with
      | nil => cases hx
      | cons resolved rest =>
        cases rest with
        | nil =>
          unfold detailStmt
          dsimp only
          split <;> exact hp
        | cons _ _ => cases hx
    | _ => exact hp
  | saving roomId messages next => exact hp
  | resumed roomId next =>
    obtain ⟨hm, ms, rfl⟩ := h
    exact absurd (hm.trans (show w.roomId = roomId from hfits).symm) hroom
  | _ => exact h.elim

/-! ## The open chat shows one room -/

/-- What holds of each action. -/
def Tracked (_ : DetailWorld) (_ : ℕ) (c : DetailCall) (st : Status) : Prop :=
  KeptWithin st ∧ ∀ m, c = .message m → AtMessage m st

theorem each_tracked (h₀ : OfOneRoom w₀)
    (h : Reach (chatDetail currentUser) (InRoom currentUser) (.idle w₀) s) :
    Each OfOneRoom Tracked s := by
  refine h.each ?_ ?_ (fun _ _ _ => ⟨trivial, fun _ _ => trivial⟩)
    (fun _ _ hw => ⟨hw, fun _ _ _ hst => hst⟩) (Overlap.each_idle h₀)
  · intro s i c _
    exact ⟨trivial, fun _ _ => trivial⟩
  · intro s i c stage x hE hcall hx hG
    obtain ⟨hkept, hmessage⟩ := hE.2 i c _ hcall
    obtain ⟨hworld, hnext⟩ := fine_stmt hE.1 hkept (hG c stage hcall) hx
    refine ⟨hworld, ⟨hnext, ?_⟩, fun _ _ _ _ _ hst => hst⟩
    rintro m rfl
    exact atMessage_stmt (hmessage m rfl) hx

/-- **The open chat shows one room**, in every run in which the actions go on in the room that they
have waited for. -/
theorem shows_one_room (currentUser : Option String) :
    ShowsOneRoom currentUser (InRoom currentUser) := by
  intro w₀ s h₀ h
  have hE := each_tracked h₀ h
  refine ⟨hE.1, fun i m stage x hcall hx hG hroom p hp _ => ?_⟩
  exact pending_stmt ((hE.2 i _ _ hcall).2 m rfl) (hG _ stage hcall) hx hroom hp

/-- A room is entered, and left for another one before the server has answered. -/
def leftForAnother : List (Overlap.Act DetailCall DetailChance Unit) :=
  let m : ChatMessage :=
    { id := "1", roomId := "a", senderId := "u2", senderName := "", content := "", type := .text
      timestamp := 1 }
  [.start 0 (.enterRoom "a"), .run 0 (.ready false "" 0), .run 0 .ok,
    .start 1 .leaveRoom, .run 1 (.ready false "" 0),
    .start 2 (.enterRoom "b"), .run 2 (.ready false "" 0), .run 0 (.reply [m])]

/-- No room is open, and nothing is stored. -/
def noRoom : DetailWorld := ⟨"", [], none, Table.empty⟩

theorem shown_elsewhere : ¬ ShowsOneRoom (some "u1") fun _ _ _ => True := by
  intro h
  have hrun : ((Overlap.perform (chatDetail (some "u1")) (fun _ _ _ => true) leftForAnother
      (.idle noRoom)).map fun s => (s.world.roomId, s.world.messages.map ChatMessage.roomId)) =
      some ("b", ["a"]) := by
    decide +kernel
  obtain ⟨s, hs, hends⟩ := Option.map_eq_some_iff.1 hrun
  obtain ⟨hroom, hmessages⟩ := Prod.mk.inj hends
  have h₀ : OfOneRoom noRoom := ⟨within_nil, fun row hrow => absurd hrow List.not_mem_nil⟩
  have hshown := (h noRoom s h₀ (Reach.of_perform (fun _ _ _ _ => trivial) hs)).1.shown
  have ha : "a" ∈ s.world.messages.map ChatMessage.roomId := by
    rw [hmessages]
    exact List.mem_singleton_self _
  obtain ⟨m, hm, hma⟩ := List.mem_map.1 ha
  have hb : m.roomId = "b" := (hshown m hm).trans hroom
  rw [hma] at hb
  exact absurd hb (by decide)

end RoomIsolation

end RedcodeIm.H5
