import Mathlib.Data.Set.Card
import RedcodeIm.H5.ChatStore

/-!
# Every message counts once

The handlers of the messages that arrive wait for the storage between reading what is stored of a
room and writing it back, and before they count the message as unread.

* `Counts` — every message that was handled is stored once, and the chats count every new one of
  somebody else once.
* `Orderly` — the condition: what a handler writes back is what is stored with its message, a
  message is not older than the last one of its chat, and none arrives from somebody else in the
  open room.
* `counted_once` — under the condition it is so in every state.
-/

namespace RedcodeIm.H5

open Overlap (Each Reach Step)
open Finset
open MessageDb
open Overlap.State

namespace ChatCounting

abbrev State := Overlap.State ChatWorld ChatCall ChatStage ChatAnswer

abbrev Status := Overlap.Status ChatStage ChatAnswer

abbrev Condition := Overlap.Condition ChatWorld ChatCall ChatStage ChatAnswer ChatChance

def unread (w : ChatWorld) (roomId : String) : ℕ :=
  ((w.chats.get roomId).map ChatSummary.unreadCount).getD 0

/-- The messages of somebody else that were not there at first and were shown while their room was
not open. -/
def due (currentUser : Option String) (w₀ : ChatWorld) (s : State) (roomId : String) : Set String :=
  {id | ∃ i c, s.calls i = some (c, .answered (.shown false)) ∧ c.message.roomId = roomId ∧
    c.message.id = id ∧ isSelf currentUser c.message = false ∧
    id ∉ w₀.messages.savedIds roomId}

/-- No handler of a message of the room is still at work. -/
def Settled (s : State) (roomId : String) : Prop :=
  ∀ i c st, s.calls i = some (c, st) → c.message.roomId = roomId → ∃ a, st = .answered a

/-- Every message that was handled is stored, once, and where no handler is at work the chat of a
room has become unread by one for every new message. -/
structure Counts (currentUser : Option String) (w₀ : ChatWorld) (s : State) : Prop where
  persisted : ∀ i c a, s.calls i = some (c, .answered a) → c.message.id ≠ "" →
    c.message.roomId ≠ "" → (s.world.messages.savedIds c.message.roomId).count c.message.id = 1
  raised : ∀ roomId, Settled s roomId →
    unread s.world roomId = unread w₀ roomId + (due currentUser w₀ s roomId).ncard

/-- Whatever the handlers do under a condition, the messages count once, and no chat comes to show
an earlier time. -/
def CountsOnce (currentUser : Option String) (G : Condition) : Prop :=
  ∀ w₀ s, Reach (chatStore currentUser) G (.idle w₀) s → Counts currentUser w₀ s ∧
    ∀ s', Reach (chatStore currentUser) G s s' →
      ∀ roomId chat, s.world.chats.get roomId = some chat →
        ∃ chat', s'.world.chats.get roomId = some chat' ∧
          chat.lastMessageTime ≤ chat'.lastMessageTime

/-! ## The condition -/

/-- A handler comes upon what it has read before, and upon a chat that its message belongs in. -/
def Fits (currentUser : Option String) (w : ChatWorld) (stage : ChatStage) (x : ChatChance) :
    Prop :=
  match stage with
  | .dropPending message cached pending => x = .ok →
    w.messages.loadMessages message.roomId = cached ∧ cached.length ≤ maxCacheCount ∧
      pending.isLocal = true
  | .save message cached => x = .ok ∧
    w.messages.loadMessages message.roomId = cached ∧
    (mergeMessage cached message).length ≤ maxCacheCount ∧
    ∀ row ∈ w.messages.rows, row.id = message.id → row.roomId = message.roomId
  | .update message alreadyCached =>
    (∀ chat, w.chats.get message.roomId = some chat → chat.lastMessageTime ≤ message.timestamp) ∧
    (isSelf currentUser message = false →
      if alreadyCached then w.chats.get message.roomId ≠ none
      else w.openRoom ≠ some message.roomId)
  | _ => True

/-- **The condition.**  The messages have ids of the server's, and whoever sent one is known by its
id; and whatever a handler goes on with fits. -/
def Orderly (currentUser : Option String) (senderOf : String → String → String) : Condition :=
  fun s i x => ∀ c stage, s.calls i = some (c, .running stage) →
    c.message.isLocal = false ∧
    c.message.senderId = senderOf c.message.roomId c.message.id ∧
    Fits currentUser s.world stage x

variable {currentUser : Option String} {senderOf : String → String → String}
  {w₀ w w' : ChatWorld} {s s' : State} {i : ℕ} {c : ChatCall} {stage : ChatStage}
  {x : ChatChance}

/-- The room and the id of the message of a call. -/
def keyOf (c : ChatCall) : String × String := (c.message.roomId, c.message.id)

/-! ## What a statement does to the storage -/

variable {m : ChatMessage}

theorem identity_eq {m' : ChatMessage} (h : m.identity = m'.identity) :
    m.id = m'.id ∧ m.roomId = m'.roomId ∧ m.senderId = m'.senderId := by
  simp only [ChatMessage.identity, Prod.mk.injEq] at h
  exact ⟨h.1, h.2.1, h.2.2.1⟩

variable {roomId : String}

/-- What is loaded of one room is not stored for another one. -/
theorem apart_of_mem_loadMessages {db : MessageDb} (hm : m ∈ db.loadMessages roomId)
    {row : StoredMessage} (hrow : row ∈ db.rows) (hne : row.roomId ≠ roomId) : m.id ≠ row.id := by
  intro hid
  obtain ⟨-, hmem, -⟩ := mem_loadMessages.1 hm
  have heq : StoredMessage.mk roomId m = row := Table.eq_of_key_eq hmem hrow hid
  exact hne (heq ▸ rfl)

theorem roomId_ne_of_mem_loadMessages {db : MessageDb} (hm : m ∈ db.loadMessages roomId) :
    m.roomId ≠ "" := (mem_loadMessages.1 hm).2.2.2

/-- Messages are stored by two of the statements only. -/
theorem messages_stmt (hdrop : ∀ m cached pending, stage ≠ .dropPending m cached pending)
    (hsave : ∀ m cached, stage ≠ .save m cached) :
    (chatStmt currentUser w c stage x).1.messages = w.messages := by
  unfold chatStmt
  cases stage with
  | received =>
    dsimp only
    split
    · rfl
    · split <;> rfl
  | dropPending m cached pending => exact absurd rfl (hdrop m cached pending)
  | resolve m => cases x <;> rfl
  | load m =>
    dsimp only
    split <;> rfl
  | save m cached => exact absurd rfl (hsave m cached)
  | update | store => rfl

/-- The chats are changed by one of the statements only. -/
theorem chats_stmt (hupdate : ∀ m alreadyCached, stage ≠ .update m alreadyCached) :
    (chatStmt currentUser w c stage x).1.chats = w.chats := by
  unfold chatStmt
  cases stage with
  | received =>
    dsimp only
    split
    · rfl
    · split <;> rfl
  | resolve m => cases x <;> rfl
  | load m =>
    dsimp only
    split <;> rfl
  | update m alreadyCached => exact absurd rfl (hupdate m alreadyCached)
  | _ => rfl

/-- The statement saves a message of this room and id. -/
def Saves (stage : ChatStage) (roomId id : String) : Prop :=
  ∃ m cached, stage = .save m cached ∧ roomId = m.roomId ∧ id = m.id

theorem not_saves {r id : String} (hsave : ∀ m cached, stage ≠ .save m cached) :
    ¬ Saves stage r id := by
  rintro ⟨m, cached, hstage, -⟩
  exact hsave m cached hstage

/-- A statement stores the message that it saves, and of the others it drops none of the
server's. -/
theorem mem_savedIds_stmt (hfits : Fits currentUser w stage x)
    (hvalid : ∀ m cached, stage = .save m cached → m.id ≠ "" ∧ m.roomId ≠ "")
    {r id : String} (hid : isLocalId id = false) :
    id ∈ (chatStmt currentUser w c stage x).1.messages.savedIds r ↔
      id ∈ w.messages.savedIds r ∨ Saves stage r id := by
  cases stage with
  | dropPending m cached pending =>
    refine Iff.trans ?_ (or_iff_left (not_saves fun _ _ h => by cases h)).symm
    show id ∈ (persistMessages w.messages m.roomId _ x).savedIds r ↔ _
    unfold persistMessages
    by_cases hx : x = .ok
    · obtain ⟨hcached, hlen, hlocal⟩ := hfits hx
      rw [if_pos hx]
      by_cases hr : r = m.roomId
      · subst hr
        by_cases hroom : m.roomId = ""
        · rw [saveMessages, if_pos hroom]
        · rw [mem_savedIds_saveMessages hroom
            ((List.length_filter_le _ _).trans hlen) fun y hy => by
              rw [← hcached] at hy
              exact roomId_ne_of_mem_loadMessages (List.mem_filter.1 hy).1]
          rw [mem_savedIds, hcached]
          constructor
          · rintro ⟨-, y, hy, hyid⟩
            exact ⟨y, (List.mem_filter.1 hy).1, hyid⟩
          · rintro ⟨y, hy, rfl⟩
            refine ⟨?_, y, List.mem_filter.2 ⟨hy, decide_eq_true ?_⟩, rfl⟩
            · exact (mem_loadMessages.1 (hcached ▸ hy)).2.2.1
            · intro h
              rw [h] at hid
              exact absurd (hlocal.symm.trans hid) (by decide)
      · refine mem_savedIds_saveMessages_ne hr fun row hrow hne y hy => ?_
        rw [← hcached] at hy
        exact apart_of_mem_loadMessages (List.mem_filter.1 hy).1 hrow hne
    · rw [if_neg hx]
  | save m cached =>
    obtain ⟨hx, hcached, hlen, hrows⟩ := hfits
    obtain ⟨hmid, hroom⟩ := hvalid m cached rfl
    show id ∈ (persistMessages w.messages m.roomId _ x).savedIds r ↔ _
    rw [persistMessages, if_pos hx]
    by_cases hr : r = m.roomId
    · subst hr
      rw [mem_savedIds_saveMessages hroom hlen fun y hy => ?_]
      · have hmerge : (∃ y ∈ mergeMessage cached m, y.id = id) ↔
            id ∈ cached.map ChatMessage.id ∨ id = m.id :=
          List.mem_map.symm.trans mem_map_id_mergeMessage
        rw [hmerge, savedIds, hcached]
        constructor
        · rintro ⟨-, h | h⟩
          · exact .inl h
          · exact .inr ⟨m, cached, rfl, rfl, h⟩
        · rintro (h | ⟨m', cached', hstage, -, h⟩)
          · refine ⟨?_, .inl h⟩
            obtain ⟨y, hy, rfl⟩ := List.mem_map.1 h
            exact (mem_loadMessages.1 (hcached ▸ hy)).2.2.1
          · obtain ⟨rfl, -⟩ := ChatStage.save.inj hstage
            exact ⟨h ▸ hmid, .inr h⟩
      · rcases roomId_of_mem_mergeMessage hy with hy | hy
        · exact roomId_ne_of_mem_loadMessages (hcached ▸ hy)
        · rwa [hy]
    · rw [mem_savedIds_saveMessages_ne hr fun row hrow hne y hy => ?_]
      · refine (or_iff_left ?_).symm
        rintro ⟨m', cached', hstage, hr', -⟩
        obtain ⟨rfl, -⟩ := ChatStage.save.inj hstage
        exact hr hr'
      · have hyid : y.id ∈ (mergeMessage cached m).map ChatMessage.id := List.mem_map_of_mem hy
        rcases mem_map_id_mergeMessage.1 hyid with h | h
        · obtain ⟨z, hz, hzid⟩ := List.mem_map.1 h
          rw [← hzid]
          exact apart_of_mem_loadMessages (hcached ▸ hz) hrow hne
        · rw [h]
          exact fun heq => hne (hrows row hrow heq.symm)
  | _ =>
    rw [messages_stmt (fun _ _ _ h => by cases h) fun _ _ h => by cases h]
    exact (or_iff_left (not_saves fun _ _ h => by cases h)).symm

/-! ## Where the handlers stand -/

/-- The message of the call is a message of the server's, and is stored. -/
def Stored (senderOf : String → String → String) (w : ChatWorld) (c : ChatCall) : Prop :=
  c.message.isLocal = false ∧ c.message.senderId = senderOf c.message.roomId c.message.id ∧
    c.message.id ∈ w.messages.savedIds c.message.roomId

/-- What a handler goes on with is the message of its call, and it is stored once it has been
saved. -/
def Tracked (senderOf : String → String → String) (w : ChatWorld) (_ : ℕ) (c : ChatCall) :
    Status → Prop
  | .running .received => True
  | .running (.dropPending m _ _) => m.identity = c.message.identity
  | .running (.resolve m) => m.identity = c.message.identity
  | .running (.load m) => m.identity = c.message.identity
  | .running (.save m _) => m.identity = c.message.identity ∧ m.id ≠ "" ∧ m.roomId ≠ ""
  | .running (.update m _) => m.identity = c.message.identity ∧ Stored senderOf w c
  | .running (.store _ _) => Stored senderOf w c
  | .answered .duplicate => Stored senderOf w c
  | .answered .ignored => c.message.id = "" ∨ c.message.roomId = ""
  | .answered (.shown _) => Stored senderOf w c
  | .failed => True

/-- What is stored of the server's stays stored. -/
def Keeps (w w' : ChatWorld) : Prop :=
  ∀ r id, isLocalId id = false → id ∈ w.messages.savedIds r → id ∈ w'.messages.savedIds r

theorem Stored.keep (h : Stored senderOf w c) (hkeep : Keeps w w') : Stored senderOf w' c :=
  ⟨h.1, h.2.1, hkeep _ _ h.1 h.2.2⟩

theorem Tracked.keep {st : Status} (h : Tracked senderOf w i c st) (hkeep : Keeps w w') :
    Tracked senderOf w' i c st := by
  cases st with
  | running stage =>
    cases stage with
    | update m alreadyCached => exact ⟨h.1, h.2.keep hkeep⟩
    | store chats isOpen => exact Stored.keep h hkeep
    | _ => exact h
  | answered a =>
    cases a with
    | ignored => exact h
    | _ => exact Stored.keep h hkeep
  | failed => trivial

theorem valid_of_tracked (h : Tracked senderOf w i c (.running stage)) :
    ∀ m cached, stage = .save m cached → m.id ≠ "" ∧ m.roomId ≠ "" := by
  rintro m cached rfl
  exact h.2

theorem keeps_stmt (hfits : Fits currentUser w stage x)
    (h : Tracked senderOf w i c (.running stage)) :
    Keeps w (chatStmt currentUser w c stage x).1 := fun _ _ hid hmem =>
  (mem_savedIds_stmt hfits (valid_of_tracked h) hid).2 (.inl hmem)

/-- A statement leaves its handler with the message of its call. -/
theorem tracked_stmt (h : Tracked senderOf w i c (.running stage))
    (hlocal : c.message.isLocal = false)
    (hsender : c.message.senderId = senderOf c.message.roomId c.message.id)
    (hfits : Fits currentUser w stage x) (hx : chatPossible w c stage x = true) :
    Tracked senderOf (chatStmt currentUser w c stage x).1 i c
      (chatStmt currentUser w c stage x).2.status := by
  cases stage with
  | received =>
    unfold chatStmt
    dsimp only
    split
    · rename_i hany
      obtain ⟨y, hy, hid⟩ := List.any_eq_true.1 hany
      refine ⟨hlocal, hsender, mem_savedIds.2 ⟨y, ?_, of_decide_eq_true hid⟩⟩
      unfold loadCachedMessages at hy
      split at hy
      · exact hy
      · cases hy
    · split
      · exact rfl
      · exact rfl
  | dropPending | store => exact h
  | resolve m =>
    cases x with
    | ok | fails => exact h
    | resolved m' =>
      simp only [chatPossible, Bool.and_eq_true, decide_eq_true_eq] at hx
      exact hx.1.trans h
  | load m =>
    have hid : m.identity = c.message.identity := h
    obtain ⟨hmid, hroom, -⟩ := identity_eq hid
    unfold chatStmt
    dsimp only
    split
    · rename_i hempty
      rw [hroom, hmid] at hempty
      exact hempty.symm
    · rename_i hne
      exact ⟨hid, fun h => hne (.inr h), fun h => hne (.inl h)⟩
  | save m cached =>
    obtain ⟨hid, -, -⟩ := id h
    obtain ⟨hmid, hroom, -⟩ := identity_eq hid
    refine ⟨hid, hlocal, hsender, ?_⟩
    exact (mem_savedIds_stmt hfits (valid_of_tracked h) hlocal).2
      (.inr ⟨m, cached, rfl, hroom.symm, hmid.symm⟩)
  | update m alreadyCached => exact h.2

theorem each_tracked (h : Reach (chatStore currentUser) (Orderly currentUser senderOf)
    (.idle w₀) s) : Each (fun _ => True) (Tracked senderOf) s := by
  refine h.each ?_ ?_ (fun _ _ _ => trivial) (fun _ _ _ => ⟨trivial, fun _ _ st hst => ?_⟩)
    (Overlap.each_idle trivial)
  · intro s i c _
    cases c with
    | event m => trivial
    | incoming m => exact rfl
  · intro s i c stage x hE hcall hx hG
    obtain ⟨hlocal, hsender, hfits⟩ := hG c stage hcall
    have htracked := hE.2 i c _ hcall
    refine ⟨trivial, tracked_stmt htracked hlocal hsender hfits hx, ?_⟩
    intro j c' st' _ _ hst'
    exact hst'.keep (keeps_stmt hfits htracked)
  · exact hst.keep fun _ _ _ h => h

/-! ## The tally -/

/-- The handler has stored a new message, and has yet to count it. -/
def Owes (st : Status) : Prop := st = .failed ∨ ∃ m, st = .running (.update m false)

/-- The handler has come past the counting, while its room was not open. -/
def Told (st : Status) : Prop :=
  st = .failed ∨ (∃ chats, st = .running (.store chats false)) ∨ st = .answered (.shown false)

/-- Some call with the message of a room and id stands so. -/
def Stands (s : State) (k : String × String) (P : Status → Prop) : Prop :=
  ∃ i c st, s.calls i = some (c, st) ∧ keyOf c = k ∧ P st

variable {st' : Status}

theorem Stands.put {k : String × String} {P : Status → Prop} (h : Stands s k P)
    (hold : ∀ c' st, s.calls i = some (c', st) → c' = c ∧ (keyOf c = k → P st → P st')) :
    Stands (s.put w' i c st') k P := by
  obtain ⟨j, c', st, hcall, hkey, hP⟩ := h
  by_cases hj : j = i
  · subst hj
    obtain ⟨rfl, himp⟩ := hold c' st hcall
    exact ⟨j, c', st', put_self, hkey, himp hkey hP⟩
  · exact ⟨j, c', st, (put_of_ne hj).trans hcall, hkey, hP⟩

/-- The message of a room and id is from whoever is signed in. -/
def own (currentUser : Option String) (senderOf : String → String → String)
    (k : String × String) : Prop := some (senderOf k.1 k.2) = currentUser

/-- What the chats have counted so far: of the new messages of somebody else those that are stored,
but for the ones that a handler has yet to count. -/
structure Tally (currentUser : Option String) (senderOf : String → String → String)
    (w₀ : ChatWorld) (raised : Finset (String × String)) (s : State) : Prop where
  unread : ∀ r, unread s.world r = unread w₀ r + (raised.filter fun k => k.1 = r).card
  sound : ∀ k ∈ raised, k.2 ∉ w₀.messages.savedIds k.1 ∧ ¬ own currentUser senderOf k ∧
    Stands s k Told
  kept : ∀ k ∈ raised, isLocalId k.2 = false ∧ k.2 ∈ s.world.messages.savedIds k.1
  fresh : ∀ i c m, s.calls i = some (c, .running (.update m false)) →
    keyOf c ∉ raised ∧ c.message.id ∉ w₀.messages.savedIds c.message.roomId
  alone : ∀ i j c m c' m', s.calls i = some (c, .running (.update m false)) →
    s.calls j = some (c', .running (.update m' false)) → keyOf c = keyOf c' → i = j
  brought : ∀ k, isLocalId k.2 = false → ¬ own currentUser senderOf k →
    k.2 ∈ s.world.messages.savedIds k.1 → k.2 ∉ w₀.messages.savedIds k.1 →
    k ∈ raised ∨ Stands s k Owes
  started : Keeps w₀ s.world

variable {raised : Finset (String × String)} {W : ChatWorld → Prop}

theorem tally_idle : Tally currentUser senderOf w₀ ∅ (.idle w₀) where
  unread r := rfl
  sound k hk := absurd hk (notMem_empty k)
  kept k hk := absurd hk (notMem_empty k)
  fresh i c m h := by cases h
  alone i j c m c' m' h := by cases h
  brought k _ _ hmem hnew := absurd hmem hnew
  started _ _ _ h := h

variable (h : Tally currentUser senderOf w₀ raised s)

include h

theorem Tally.alone_put (hst : ∀ m, st' ≠ .running (.update m false)) {j k : ℕ} {c₁ c₂ : ChatCall}
    {m₁ m₂ : ChatMessage} (hj : (s.put w' i c st').calls j = some (c₁, .running (.update m₁ false)))
    (hk : (s.put w' i c st').calls k = some (c₂, .running (.update m₂ false)))
    (hkey : keyOf c₁ = keyOf c₂) : j = k := by
  rcases put_cases hj with ⟨-, -, heq⟩ | ⟨-, hj⟩
  · exact absurd heq.symm (hst m₁)
  · rcases put_cases hk with ⟨-, -, heq⟩ | ⟨-, hk⟩
    · exact absurd heq.symm (hst m₂)
    · exact h.alone j k c₁ m₁ c₂ m₂ hj hk hkey

/-- A handler comes to stand elsewhere, and neither stores nor counts a message. -/
theorem Tally.quiet (hunread : ∀ r, ChatCounting.unread w' r = ChatCounting.unread s.world r)
    (hsaved : ∀ r id, isLocalId id = false → (id ∈ w'.messages.savedIds r ↔ id ∈
      s.world.messages.savedIds r))
    (hold : ∀ c' st, s.calls i = some (c', st) → c' = c ∧ (Told st → Told st') ∧ (¬own currentUser
      senderOf (keyOf c) → Owes st → Owes st')) (hst : ∀ m, st' ≠ .running (.update m false)) :
    Tally currentUser senderOf w₀ raised (s.put w' i c st') where
  unread r := (hunread r).trans (h.unread r)
  sound k hk := by
    obtain ⟨hnew, hown, hstands⟩ := h.sound k hk
    exact ⟨hnew, hown, hstands.put fun c' st hcall =>
      ⟨(hold c' st hcall).1, fun _ => (hold c' st hcall).2.1⟩⟩
  kept k hk := ⟨(h.kept k hk).1, (hsaved k.1 k.2 (h.kept k hk).1).2 (h.kept k hk).2⟩
  fresh j c' m hj := by
    rcases put_cases hj with ⟨-, -, heq⟩ | ⟨-, hj⟩
    · exact absurd heq.symm (hst m)
    · exact h.fresh j c' m hj
  alone j k c₁ m₁ c₂ m₂ hj hk hkey := h.alone_put hst hj hk hkey
  brought k hlocal hown hmem hnew := by
    rcases h.brought k hlocal hown ((hsaved k.1 k.2 hlocal).1 hmem) hnew with hk | hstands
    · exact .inl hk
    · exact .inr (hstands.put fun c' st hcall =>
        ⟨(hold c' st hcall).1, fun hkey => (hold c' st hcall).2.2 (hkey ▸ hown)⟩)
  started r id hlocal hmem := (hsaved r id hlocal).2 (h.started r id hlocal hmem)

/-- A handler stores its message. -/
theorem Tally.saved (hE : Each W (Tracked senderOf) s) {cached : List ChatMessage}
    (hcall : s.calls i = some (c, .running (.save m cached))) (hlocal : c.message.isLocal = false)
    (hfits : Fits currentUser s.world (.save m cached) x)
    (hst : st' = .failed ∨ st' = .running (.update m (cached.any fun item => item.id = m.id))) :
    Tally currentUser senderOf w₀ raised
      (s.put (chatStmt currentUser s.world c (.save m cached) x).1 i c st') := by
  have htracked := hE.2 i c _ hcall
  obtain ⟨hmid, hroom, -⟩ := identity_eq htracked.1
  have hsaved : ∀ r id, isLocalId id = false →
      (id ∈ (chatStmt currentUser s.world c (.save m cached) x).1.messages.savedIds r ↔
        id ∈ s.world.messages.savedIds r ∨ Saves (.save m cached) r id) := fun r id hid =>
    mem_savedIds_stmt hfits (valid_of_tracked htracked) hid
  have hkeep := keeps_stmt hfits htracked
  -- what is new to the handler is new to the storage
  have hnew : st' = .running (.update m false) →
      c.message.id ∉ s.world.messages.savedIds c.message.roomId := by
    rintro rfl
    rcases hst with hst | hst
    · cases hst
    · simp only [Overlap.Status.running.injEq, ChatStage.update.injEq, true_and] at hst
      intro hmem
      rw [← hroom, ← hmid, mem_savedIds, hfits.2.1] at hmem
      obtain ⟨y, hy, hyid⟩ := hmem
      exact absurd (List.any_eq_true.2 ⟨y, hy, decide_eq_true hyid⟩) (by rw [← hst]; decide)
  have hold : ∀ c' st, s.calls i = some (c', st) →
      c' = c ∧ (Told st → Told st') ∧ (Owes st → Owes st') := by
    intro c' st hi
    cases hcall.symm.trans hi
    refine ⟨rfl, ?_, ?_⟩
    · rintro (hst | ⟨_, hst⟩ | hst) <;> cases hst
    · rintro (hst | ⟨_, hst⟩) <;> cases hst
  have hother : ∀ j c' m', s.calls j = some (c', .running (.update m' false)) →
      st' = .running (.update m false) → keyOf c' ≠ keyOf c := by
    intro j c' m' hj hst' hkey
    obtain ⟨hr, hid⟩ := Prod.mk.inj hkey
    have hstored := (hE.2 j c' _ hj).2.2.2
    rw [hr, hid] at hstored
    exact hnew hst' hstored
  have hm : ∀ m', st' = .running (.update m' false) → st' = .running (.update m false) := by
    rintro m' rfl
    rcases hst with hst | hst
    · cases hst
    · obtain ⟨rfl, -⟩ := ChatStage.update.inj (Overlap.Status.running.inj hst)
      rfl
  refine ⟨h.unread, ?_, ?_, ?_, ?_, ?_,
    fun r id hid hmem => hkeep r id hid (h.started r id hid hmem)⟩
  · intro k hk
    obtain ⟨hk₀, hown, hstands⟩ := h.sound k hk
    exact ⟨hk₀, hown, hstands.put fun c' st hi => ⟨(hold c' st hi).1, fun _ => (hold c' st hi).2.1⟩⟩
  · intro k hk
    exact ⟨(h.kept k hk).1, hkeep _ _ (h.kept k hk).1 (h.kept k hk).2⟩
  · intro j c' m' hj
    rcases put_cases hj with ⟨rfl, rfl, heq⟩ | ⟨-, hj⟩
    · have hfresh := hnew (hm m' heq.symm)
      exact ⟨fun hk => hfresh (h.kept _ hk).2, fun hk => hfresh (h.started _ _ hlocal hk)⟩
    · exact h.fresh j c' m' hj
  · intro j k c₁ m₁ c₂ m₂ hj hk hkey
    rcases put_cases hj with ⟨rfl, rfl, heq⟩ | ⟨-, hj'⟩
    · rcases put_cases hk with ⟨rfl, -, -⟩ | ⟨-, hk'⟩
      · rfl
      · exact absurd hkey.symm (hother k c₂ m₂ hk' (hm m₁ heq.symm))
    · rcases put_cases hk with ⟨rfl, rfl, heq⟩ | ⟨-, hk'⟩
      · exact absurd hkey (hother j c₁ m₁ hj' (hm m₂ heq.symm))
      · exact h.alone j k c₁ m₁ c₂ m₂ hj' hk' hkey
  · intro k hklocal hown hmem hk₀
    have hbrought : k.2 ∈ s.world.messages.savedIds k.1 → k ∈ raised ∨
        Stands (s.put (chatStmt currentUser s.world c (.save m cached) x).1 i c st') k Owes := by
      intro hmem
      rcases h.brought k hklocal hown hmem hk₀ with hk | hstands
      · exact .inl hk
      · exact .inr (hstands.put fun c' st hi => ⟨(hold c' st hi).1, fun _ => (hold c' st hi).2.2⟩)
    rcases (hsaved k.1 k.2 hklocal).1 hmem with hmem | ⟨m', cached', hstage, hkroom, hkid⟩
    · exact hbrought hmem
    · obtain ⟨rfl, rfl⟩ := ChatStage.save.inj hstage
      have hkey : keyOf c = k := Prod.ext (hroom.symm.trans hkroom.symm) (hmid.symm.trans hkid.symm)
      rcases hst with hst | hst
      · exact .inr ⟨i, c, st', put_self, hkey, .inl hst⟩
      · cases hany : cached.any fun item => item.id = m.id with
        | false =>
          rw [hany] at hst
          exact .inr ⟨i, c, st', put_self, hkey, .inr ⟨m, hst⟩⟩
        | true =>
          obtain ⟨y, hy, hyid⟩ := List.any_eq_true.1 hany
          refine hbrought ?_
          rw [hkroom, hkid, mem_savedIds, hfits.2.1]
          exact ⟨y, hy, of_decide_eq_true hyid⟩

variable {alreadyCached : Bool}

omit h in
/-- What a message adds to the unread ones of its room. -/
theorem unread_update (hfits : Fits currentUser w (.update m alreadyCached) x) (r : String) :
    unread (chatStmt currentUser w c (.update m alreadyCached) x).1 r = unread w r +
      if r = m.roomId ∧ isSelf currentUser m = false ∧ alreadyCached = false then 1 else 0 := by
  unfold unread chatStmt
  rcases get_showMessage currentUser w.chats m alreadyCached r with
    ⟨hr, hget⟩ | ⟨rfl, chat, hget, -, ⟨current, hcurrent, hcount⟩ | ⟨hnone, hcount⟩⟩
  · rw [hget, if_neg fun h => hr h.1]
    rfl
  · rw [hget, hcurrent]
    show chat.unreadCount = current.unreadCount + _
    rw [hcount]
    cases isSelf currentUser m <;> cases alreadyCached <;> simp
  · rw [hget, hnone]
    show chat.unreadCount = 0 + _
    rw [hcount]
    cases hself : isSelf currentUser m with
    | true => simp
    | false =>
      cases alreadyCached with
      | true => exact absurd hnone (hfits.2 hself)
      | false => simp

/-- A handler counts its message. -/
theorem Tally.updated (hE : Each W (Tracked senderOf) s)
    (hcall : s.calls i = some (c, .running (.update m alreadyCached)))
    (hfits : Fits currentUser s.world (.update m alreadyCached) x)
    (hst : st' = .failed ∨ ∃ chats, st' = .running (.store chats (decide (s.world.openRoom = some
      m.roomId)))) :
    ∃ raised', Tally currentUser senderOf w₀ raised'
      (s.put (chatStmt currentUser s.world c (.update m alreadyCached) x).1 i c st') := by
  obtain ⟨hid, hlocal, hsender, hstored⟩ := hE.2 i c _ hcall
  obtain ⟨hmid, hroom, hmsender⟩ := identity_eq hid
  have hself : own currentUser senderOf (keyOf c) ↔ isSelf currentUser m = true := by
    unfold own isSelf keyOf
    rw [hmsender, hsender, decide_eq_true_iff]
  have hnot : ∀ m', st' ≠ .running (.update m' false) := by
    rintro m' rfl
    rcases hst with hst | ⟨chats, hst⟩ <;> cases hst
  have htold : ∀ c' st, s.calls i = some (c', st) → c' = c ∧ (Told st → Told st') := by
    intro c' st hi
    cases hcall.symm.trans hi
    refine ⟨rfl, ?_⟩
    rintro (hst | ⟨_, hst⟩ | hst) <;> cases hst
  by_cases hraise : isSelf currentUser m = false ∧ alreadyCached = false
  · obtain ⟨hmself, rfl⟩ := hraise
    have hopen : s.world.openRoom ≠ some m.roomId := hfits.2 hmself
    obtain ⟨hkey, hnew⟩ := h.fresh i c m hcall
    refine ⟨insert (keyOf c) raised, ⟨fun r => ?_, ?_, ?_, ?_, ?_, ?_, h.started⟩⟩
    · show ChatCounting.unread (chatStmt currentUser s.world c (.update m false) x).1 r = _
      rw [unread_update hfits, h.unread, filter_insert, Nat.add_assoc]
      congr 1
      by_cases hr : r = m.roomId
      · have hkr : (keyOf c).1 = r := hroom.symm.trans hr.symm
        rw [if_pos ⟨hr, hmself, rfl⟩, if_pos hkr,
          card_insert_of_notMem fun hk => hkey (mem_filter.1 hk).1]
      · have hkr : ¬ (keyOf c).1 = r := fun h => hr (h.symm.trans hroom.symm)
        rw [if_neg fun hc => hr hc.1, if_neg hkr, Nat.add_zero]
    · intro k hk
      rcases mem_insert.1 hk with rfl | hk
      · refine ⟨hnew, fun hown => ?_, i, c, st', put_self, rfl, ?_⟩
        · rw [hself.1 hown] at hmself
          cases hmself
        · rcases hst with hst | ⟨chats, hst⟩
          · exact .inl hst
          · rw [decide_eq_false hopen] at hst
            exact .inr (.inl ⟨chats, hst⟩)
      · obtain ⟨hk₀, hown, hstands⟩ := h.sound k hk
        exact ⟨hk₀, hown, hstands.put fun c' st hi =>
          ⟨(htold c' st hi).1, fun _ => (htold c' st hi).2⟩⟩
    · intro k hk
      rcases mem_insert.1 hk with rfl | hk
      · exact ⟨hlocal, hstored⟩
      · exact h.kept k hk
    · intro j c' m' hj
      rcases put_cases hj with ⟨-, -, heq⟩ | ⟨hne, hj⟩
      · exact absurd heq.symm (hnot m')
      · obtain ⟨hkey', hnew'⟩ := h.fresh j c' m' hj
        refine ⟨fun hk => ?_, hnew'⟩
        rcases mem_insert.1 hk with heq | hk
        · exact hne (h.alone j i c' m' c m hj hcall heq)
        · exact hkey' hk
    · exact fun j k c₁ m₁ c₂ m₂ hj hk hkeys => h.alone_put hnot hj hk hkeys
    · intro k hklocal hown hmem hk₀
      rcases h.brought k hklocal hown hmem hk₀ with hk | ⟨j, c', st, hj, hkeys, howes⟩
      · exact .inl (mem_insert_of_mem hk)
      · by_cases hji : j = i
        · subst hji
          obtain ⟨rfl, -⟩ := Prod.mk.inj (Option.some.inj (hcall.symm.trans hj))
          exact .inl (hkeys ▸ mem_insert_self _ _)
        · exact .inr ⟨j, c', st, (put_of_ne hji).trans hj, hkeys, howes⟩
  · refine ⟨raised, h.quiet (fun r => ?_) (fun _ _ _ => Iff.rfl) (fun c' st hi => ?_) hnot⟩
    · rw [unread_update hfits, if_neg fun hc => hraise hc.2]
      rfl
    · cases hcall.symm.trans hi
      refine ⟨rfl, (htold _ _ hi).2, fun hown howes => ?_⟩
      -- the handler owes the message, and it is its own
      rcases howes with howes | ⟨m', howes⟩
      · cases howes
      · obtain ⟨rfl, rfl⟩ := ChatStage.update.inj (Overlap.Status.running.inj howes)
        refine absurd (hself.2 ?_) hown
        cases hm : isSelf currentUser m with
        | true => rfl
        | false => exact absurd ⟨hm, rfl⟩ hraise

omit h

/-- Only a message that has been saved is counted next. -/
theorem save_of_next (h : (chatStmt currentUser w c stage x).2.status =
    .running (.update m alreadyCached)) : ∃ m' cached, stage = .save m' cached := by
  cases stage with
  | save m' cached => exact ⟨m', cached, rfl⟩
  | resolve m' => cases x <;> cases h
  | received =>
    unfold chatStmt at h
    dsimp only at h
    split at h
    · cases h
    · split at h <;> cases h
  | load m' =>
    unfold chatStmt at h
    dsimp only at h
    split at h <;> cases h
  | _ => cases h

/-- One step leaves the tally right. -/
theorem tally_step (hE : Each W (Tracked senderOf) s)
    (hT : ∃ raised, Tally currentUser senderOf w₀ raised s)
    (h : Step (chatStore currentUser) (Orderly currentUser senderOf) s s') :
    ∃ raised, Tally currentUser senderOf w₀ raised s' := by
  obtain ⟨raised, hT⟩ := hT
  -- a statement that is neither, whatever its handler learns of it
  have hquiet : ∀ i c stage x st', s.calls i = some (c, .running stage) →
      Orderly currentUser senderOf s i x →
      (st' = .failed ∨ st' = (chatStmt currentUser s.world c stage x).2.status) →
      ∃ raised, Tally currentUser senderOf w₀ raised
        (s.put (chatStmt currentUser s.world c stage x).1 i c st') := by
    intro i c stage x st' hcall hG hst
    obtain ⟨hlocal, -, hfits⟩ := hG c stage hcall
    have htracked := hE.2 i c _ hcall
    -- what comes before the message is stored, or after it is counted
    have hbeside : (∀ m cached, stage ≠ .save m cached) → (∀ m b, stage ≠ .update m b) →
        (Told (.running stage) → Told st') → ¬Owes (.running stage) →
        ∃ raised, Tally currentUser senderOf w₀ raised
          (s.put (chatStmt currentUser s.world c stage x).1 i c st') := by
      intro hsave hupdate htold howes
      refine ⟨raised, hT.quiet (fun r => ?_) (fun r id hid => ?_) (fun c' st hi => ?_) ?_⟩
      · unfold unread
        rw [chats_stmt hupdate]
      · exact (mem_savedIds_stmt hfits (valid_of_tracked htracked) hid).trans
          (or_iff_left (not_saves hsave))
      · cases hcall.symm.trans hi
        exact ⟨rfl, htold, fun _ h => absurd h howes⟩
      · rintro m rfl
        rcases hst with hst | hst
        · cases hst
        · obtain ⟨m', cached, rfl⟩ := save_of_next hst.symm
          exact hsave m' cached rfl
    cases stage with
    | save m cached => exact ⟨raised, hT.saved hE hcall hlocal hfits hst⟩
    | update m alreadyCached => exact hT.updated hE hcall hfits (hst.imp id fun hst => ⟨_, hst⟩)
    | store chats isOpen =>
      refine hbeside (fun _ _ h => by cases h) (fun _ _ h => by cases h) (fun htold => ?_) ?_
      · rcases hst with rfl | rfl
        · exact .inl rfl
        · rcases htold with h | ⟨chats', h⟩ | h
          · cases h
          · obtain ⟨-, rfl⟩ := ChatStage.store.inj (Overlap.Status.running.inj h)
            exact .inr (.inr rfl)
          · cases h
      · rintro (h | ⟨_, h⟩) <;> cases h
    | _ =>
      refine hbeside (fun _ _ h => by cases h) (fun _ _ h => by cases h) ?_ ?_
      · rintro (h | ⟨_, h⟩ | h) <;> cases h
      · rintro (h | ⟨_, h⟩) <;> cases h
  cases h with
  | @start i c hnew =>
    refine ⟨raised, hT.quiet (fun _ => rfl) (fun _ _ _ => Iff.rfl) ?_ ?_⟩
    · intro c' st hi
      rw [hnew] at hi
      cases hi
    · cases c <;> exact fun m h => by cases h
  | run hcall hx hG => exact hquiet _ _ _ _ _ hcall hG (.inr rfl)
  | lose hcall hx hG => exact hquiet _ _ _ _ _ hcall hG (.inl rfl)
  | @drop i c stage hcall =>
    refine ⟨raised, hT.quiet (fun _ => rfl) (fun _ _ _ => Iff.rfl) ?_ fun _ h => by cases h⟩
    intro c' st hi
    cases hcall.symm.trans hi
    exact ⟨rfl, fun _ => .inl rfl, fun _ _ => .inl rfl⟩
  | tick t =>
    exact ⟨raised, ⟨hT.unread, hT.sound, hT.kept, hT.fresh, hT.alone, hT.brought, hT.started⟩⟩

theorem tally_reach (h : Reach (chatStore currentUser) (Orderly currentUser senderOf)
    (.idle w₀) s) : ∃ raised, Tally currentUser senderOf w₀ raised s := by
  induction h with
  | refl => exact ⟨∅, tally_idle⟩
  | tail hr hlast ih => exact tally_step (each_tracked hr) ih hlast

/-! ## The times -/

theorem times_step (h : Step (chatStore currentUser) (Orderly currentUser senderOf) s s')
    {chat : ChatSummary} (hchat : s.world.chats.get roomId = some chat) :
    ∃ chat', s'.world.chats.get roomId = some chat' ∧
      chat.lastMessageTime ≤ chat'.lastMessageTime := by
  have hstmt : ∀ i c stage x, s.calls i = some (c, .running stage) →
      Orderly currentUser senderOf s i x →
      ∃ chat', (chatStmt currentUser s.world c stage x).1.chats.get roomId = some chat' ∧
        chat.lastMessageTime ≤ chat'.lastMessageTime := by
    intro i c stage x hcall hG
    obtain ⟨-, -, hfits⟩ := hG c stage hcall
    by_cases hupdate : ∃ m alreadyCached, stage = .update m alreadyCached
    · obtain ⟨m, alreadyCached, rfl⟩ := hupdate
      rcases get_showMessage currentUser s.world.chats m alreadyCached roomId with
        ⟨-, hget⟩ | ⟨rfl, chat', hget, htime, -⟩
      · exact ⟨chat, hget.trans hchat, le_rfl⟩
      · exact ⟨chat', hget, htime ▸ hfits.1 chat hchat⟩
    · rw [chats_stmt fun m alreadyCached h => hupdate ⟨m, alreadyCached, h⟩]
      exact ⟨chat, hchat, le_rfl⟩
  cases h with
  | run hcall _ hG | lose hcall _ hG => exact hstmt _ _ _ _ hcall hG
  | _ => exact ⟨chat, hchat, le_rfl⟩

theorem times_reach (h : Reach (chatStore currentUser) (Orderly currentUser senderOf) s s')
    {chat : ChatSummary} (hchat : s.world.chats.get roomId = some chat) :
    ∃ chat', s'.world.chats.get roomId = some chat' ∧
      chat.lastMessageTime ≤ chat'.lastMessageTime := by
  induction h with
  | refl => exact ⟨chat, hchat, le_rfl⟩
  | tail _ hlast ih =>
    obtain ⟨chat₁, hchat₁, hle₁⟩ := ih
    obtain ⟨chat₂, hchat₂, hle₂⟩ := times_step hlast hchat₁
    exact ⟨chat₂, hchat₂, hle₁.trans hle₂⟩

/-! ## Every message counts once -/

/-- Where no handler is at work, what the chats have counted is what is due. -/
theorem due_eq (hE : Each W (Tracked senderOf) s) (hT : Tally currentUser senderOf w₀ raised s)
    (hsettled : Settled s roomId) :
    due currentUser w₀ s roomId = ((raised.filter fun k => k.1 = roomId).image Prod.snd : Finset _)
    := by
  ext id
  rw [mem_coe, mem_image]
  constructor
  · rintro ⟨i, c, hcall, rfl, rfl, hself, hnew⟩
    obtain ⟨hlocal, hsender, hstored⟩ := hE.2 i c _ hcall
    have hown : ¬ own currentUser senderOf (keyOf c) := by
      intro hown
      have hown : some (senderOf c.message.roomId c.message.id) = currentUser := hown
      rw [← hsender] at hown
      exact absurd hself (by rw [isSelf, decide_eq_true hown]; decide)
    rcases hT.brought (keyOf c) hlocal hown hstored hnew with hk | ⟨j, c', st, hj, hkey, howes⟩
    · exact ⟨keyOf c, mem_filter.2 ⟨hk, rfl⟩, rfl⟩
    · obtain ⟨a, rfl⟩ := hsettled j c' st hj (Prod.mk.inj hkey).1
      rcases howes with h | ⟨_, h⟩ <;> cases h
  · rintro ⟨k, hk, rfl⟩
    obtain ⟨hraised, rfl⟩ := mem_filter.1 hk
    obtain ⟨hnew, hown, i, c, st, hcall, rfl, htold⟩ := hT.sound k hraised
    obtain ⟨a, rfl⟩ := hsettled i c st hcall rfl
    have hanswer : (Overlap.Status.answered a : Status) = .answered (.shown false) := by
      rcases htold with h | ⟨_, h⟩ | h
      · cases h
      · cases h
      · exact h
    rw [hanswer] at hcall
    obtain ⟨-, hsender, -⟩ := hE.2 i c _ hcall
    refine ⟨i, c, hcall, rfl, rfl, ?_, hnew⟩
    refine decide_eq_false fun h => hown ?_
    show some (senderOf c.message.roomId c.message.id) = currentUser
    rwa [← hsender]

/-- **Every message counts once**, in every run in which whatever the handlers go on with fits. -/
theorem counted_once (currentUser : Option String) (senderOf : String → String → String) :
    CountsOnce currentUser (Orderly currentUser senderOf) := by
  intro w₀ s h
  have hE := each_tracked h
  obtain ⟨raised, hT⟩ := tally_reach h
  refine ⟨⟨?_, ?_⟩, fun s' h' roomId chat hchat => times_reach h' hchat⟩
  · intro i c a hcall hid hroom
    have hstored : Stored senderOf s.world c := by
      have htracked := hE.2 i c _ hcall
      cases a with
      | duplicate | shown => exact htracked
      | ignored => exact absurd htracked (not_or.2 ⟨hid, hroom⟩)
    exact List.count_eq_one_of_mem (nodup_savedIds _ _) hstored.2.2
  · intro roomId hsettled
    rw [hT.unread, due_eq hE hT hsettled, Set.ncard_coe_finset, card_image_of_injOn]
    intro k hk k' hk' heq
    exact Prod.ext ((mem_filter.1 hk).2.trans (mem_filter.1 hk').2.symm) heq

/-- Two messages arrive in a room, the second while the first waits for what is stored. -/
def arrivedTogether : List (Overlap.Act ChatCall ChatChance (Option String)) :=
  let first : ChatMessage :=
    { id := "1", roomId := "r", senderId := "u2", senderName := "", content := "a", type := .text
      timestamp := 1 }
  let second : ChatMessage := { first with id := "2", content := "b", timestamp := 2 }
  [.start 0 (.event first), .run 0 .ok, .run 0 (.resolved first), .run 0 .ok,
    .start 1 (.event second), .run 1 .ok, .run 1 (.resolved second), .run 1 .ok,
    .run 0 .ok, .run 0 .ok, .run 0 .ok, .run 1 .ok, .run 1 .ok, .run 1 .ok]

/-- Nothing is stored. -/
def emptyStore : ChatWorld := ⟨Table.empty, Table.empty, [], none⟩

theorem overwritten : ¬ CountsOnce (some "u1") fun _ _ _ => True := by
  intro h
  have hrun : ((Overlap.perform (chatStore (some "u1")) (fun _ _ _ => true) arrivedTogether
      (.idle emptyStore)).map fun s => (s.world.messages.savedIds "r",
        (s.calls 0).map fun call => (call.1.message.id, call.1.message.roomId, call.2))) =
      some (["2"], some ("1", "r", .answered (.shown false))) := by
    decide +kernel
  obtain ⟨s, hs, hends⟩ := Option.map_eq_some_iff.1 hrun
  obtain ⟨hids, hcall⟩ := Prod.mk.inj hends
  obtain ⟨⟨c, st⟩, hcall, hc⟩ := Option.map_eq_some_iff.1 hcall
  simp only [Prod.mk.injEq] at hc
  obtain ⟨hid, hroom, rfl⟩ := hc
  have hcount := (h emptyStore s (Reach.of_perform (fun _ _ _ _ => trivial) hs)).1.persisted 0 c
    _ hcall (by rw [hid]; decide) (by rw [hroom]; decide)
  rw [hroom, hid, hids] at hcount
  exact absurd hcount (by decide)

end ChatCounting

end RedcodeIm.H5
